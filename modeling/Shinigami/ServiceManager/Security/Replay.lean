import Mathlib.Data.Nat.Bitwise
import Shinigami.Foundations.RingHistory
import Shinigami.Foundations.Run

/-!
# Replay protection

`sm_replay.c`: the ring of the nonces that were accepted last. A slot keeps the
timestamp of its token, so that a token that comes again is as old as its slot, at
whatever reading of the clock: what is fresh on arrival is live in the ring.
-/

namespace Shinigami

namespace ServiceManager

/-- `SM_REPLAY_WINDOW_SECS`, in milliseconds. -/
def replayWindowMs : UInt64 := 5 * 1000

def replayFutureMs : UInt64 := 200

def smReplayRingSize : ℕ := 512

/-- `sm_replay_token_t`. -/
structure ReplayToken where
  timestampMs : UInt64
  nonce : UInt64
deriving DecidableEq

/-- `nonce_slot_t`. -/
structure NonceSlot where
  nonce : UInt64
  timestampMs : UInt64
deriving DecidableEq

/-- `g_ring` and `g_ring_head`. -/
structure ReplayRing where
  ring : ℕ → NonceSlot
  head : UInt32

/-- `sm_replay_init`. -/
def smReplayInit : ReplayRing := ⟨fun _ => ⟨0, 0⟩, 0⟩

def freshToken (tok : ReplayToken) (now : UInt64) : Bool :=
  if tok.timestampMs > now then !decide (tok.timestampMs - now > replayFutureMs)
  else !decide (now - tok.timestampMs > replayWindowMs)

def liveDuplicate (slot : NonceSlot) (nonce now : UInt64) : Bool :=
  if slot.nonce = 0 then false
  else if slot.nonce ≠ nonce then false
  else
    let slotAge := if slot.timestampMs ≤ now then now - slot.timestampMs else 0
    decide (slotAge ≤ replayWindowMs)

/-- `sm_replay_check` at a clock reading. -/
def smReplayCheck (s : ReplayRing) (tok : ReplayToken) (now : UInt64) : ReplayRing × ℤ :=
  if !freshToken tok now then (s, -1)
  else if (List.range smReplayRingSize).any fun i => liveDuplicate (s.ring i) tok.nonce now then
    (s, -1)
  else
    let slot := s.head &&& 511
    (⟨Function.update s.ring slot.toNat ⟨tok.nonce, tok.timestampMs⟩, s.head + 1⟩, 0)

/-- A call of `sm_replay_check`, with its reading of the clock. -/
structure ReplayEvent where
  tok : ReplayToken
  now : UInt64

def replayStep (s : ReplayRing) (ev : ReplayEvent) : ReplayRing :=
  (smReplayCheck s ev.tok ev.now).1

def replayAccepts (s : ReplayRing) (ev : ReplayEvent) : Option ReplayToken :=
  if (smReplayCheck s ev.tok ev.now).2 = 0 then some ev.tok else none

/-- The tokens that the calls accept, in order. -/
def acceptedTokens (s : ReplayRing) (evs : List ReplayEvent) : List ReplayToken :=
  runTrace replayStep replayAccepts s evs

def ReplayToken.slot (tok : ReplayToken) : NonceSlot := ⟨tok.nonce, tok.timestampMs⟩

section Check

variable {s : ReplayRing} {tok : ReplayToken} {now : UInt64}

theorem smReplayCheck_cases (s : ReplayRing) (tok : ReplayToken) (now : UInt64) :
    smReplayCheck s tok now = (s, -1) ∨
      (freshToken tok now = true ∧
        (∀ i < smReplayRingSize, liveDuplicate (s.ring i) tok.nonce now = false) ∧
        smReplayCheck s tok now =
          (⟨Function.update s.ring (s.head.toNat % smReplayRingSize) tok.slot, s.head + 1⟩,
            0)) := by
  have hmask : (s.head &&& 511).toNat = s.head.toNat % smReplayRingSize := by
    rw [UInt32.toNat_and]
    exact Nat.and_two_pow_sub_one_eq_mod s.head.toNat 9
  unfold smReplayCheck
  split_ifs with hstale hdup
  · exact .inl rfl
  · exact .inl rfl
  · refine .inr ⟨by simpa using hstale, fun i hi => ?_, ?_⟩
    · simpa using List.any_eq_false.mp (by simpa using hdup) i (List.mem_range.mpr hi)
    · simp only [hmask]
      rfl

/-- A token that is fresh finds its own slot live, whatever the clock says. -/
theorem liveDuplicate_slot (hnonce : tok.nonce ≠ 0) (hfresh : freshToken tok now = true) :
    liveDuplicate tok.slot tok.nonce now = true := by
  simp only [freshToken] at hfresh
  simp only [liveDuplicate, ReplayToken.slot, if_neg hnonce, ne_eq, not_true_eq_false, if_false]
  split_ifs at hfresh with hfuture
  · have hage : ¬tok.timestampMs ≤ now := UInt64.not_le.mpr hfuture
    simp [hage]
  · have hage : tok.timestampMs ≤ now := UInt64.not_lt.mp hfuture
    simpa [hage] using hfresh

theorem smReplayCheck_rejects (hnonce : tok.nonce ≠ 0) {i : ℕ} (hi : i < smReplayRingSize)
    (hslot : s.ring i = tok.slot) : smReplayCheck s tok now = (s, -1) := by
  rcases smReplayCheck_cases s tok now with hrejected | ⟨hfresh, hnone, -⟩
  · exact hrejected
  · have hlive := liveDuplicate_slot hnonce hfresh
    rw [← hslot, hnone i hi] at hlive
    cases hlive

end Check

section Run

/-- The ring after a run: the tokens accepted in it, one behind the other. -/
theorem run_replayStep (s : ReplayRing) (evs : List ReplayEvent) :
    (run replayStep s evs).ring =
        ringWrites smReplayRingSize s.ring s.head.toNat
          ((acceptedTokens s evs).map ReplayToken.slot) ∧
      (run replayStep s evs).head.toNat % smReplayRingSize =
        (s.head.toNat + (acceptedTokens s evs).length) % smReplayRingSize := by
  induction evs using List.reverseRecOn with
  | nil => exact ⟨rfl, rfl⟩
  | append_singleton evs ev ih =>
      obtain ⟨hring, hhead⟩ := ih
      rw [acceptedTokens] at hring hhead ⊢
      rw [run_concat, runTrace_concat, replayStep, replayAccepts]
      rcases smReplayCheck_cases (run replayStep s evs) ev.tok ev.now with heq | ⟨-, -, heq⟩
      · rw [heq]
        simpa using ⟨hring, hhead⟩
      · rw [heq, if_pos rfl, Option.toList_some, List.map_append, List.map_singleton,
          ringWrites_concat, List.length_map, List.length_append, List.length_singleton,
          hring, hhead]
        refine ⟨rfl, ?_⟩
        have hone : (1 : UInt32).toNat = 1 := rfl
        rw [UInt32.toNat_add, hone]
        simp only [smReplayRingSize] at hhead ⊢
        omega

/-- A token that was accepted first is rejected as long as the ring has room for those
accepted behind it. -/
theorem smReplayCheck_rejects_of_few {s : ReplayRing} (first : ReplayEvent)
    {mid : List ReplayEvent} (hnonce : first.tok.nonce ≠ 0)
    (haccepted : (smReplayCheck s first.tok first.now).2 = 0)
    (hfew : (acceptedTokens (replayStep s first) mid).length < smReplayRingSize)
    (now : UInt64) :
    smReplayCheck (run replayStep (replayStep s first) mid) first.tok now =
      (run replayStep (replayStep s first) mid, -1) := by
  have htokens : acceptedTokens s (first :: mid) =
      first.tok :: acceptedTokens (replayStep s first) mid := by
    rw [acceptedTokens, runTrace, replayAccepts, if_pos haccepted]
    rfl
  obtain ⟨hring, -⟩ := run_replayStep s (first :: mid)
  rw [run_cons, htokens, List.map_cons] at hring
  have hslot := ringWrites_getElem (n := smReplayRingSize) s.ring s.head.toNat
    (first.tok.slot :: (acceptedTokens (replayStep s first) mid).map ReplayToken.slot)
    (k := 0) (by simp) (by rw [List.length_cons, List.length_map]; omega)
  rw [← hring] at hslot
  exact smReplayCheck_rejects hnonce (Nat.mod_lt _ (by decide)) hslot

theorem filter_ne_of_notMem {tok : ReplayToken} {toks : List ReplayToken} (h : tok ∉ toks) :
    toks.filter (· ≠ tok) = toks := by
  rw [List.filter_eq_self]
  intro tok' htok'
  simpa using fun heq : tok' = tok => h (heq ▸ htok')

/-- Behind its acceptance a token is not accepted again before the ring has taken in as
many others as it has slots. -/
theorem notMem_acceptedTokens {s : ReplayRing} (first : ReplayEvent)
    {mid : List ReplayEvent} (hnonce : first.tok.nonce ≠ 0)
    (haccepted : (smReplayCheck s first.tok first.now).2 = 0)
    (hfew : ((acceptedTokens (replayStep s first) mid).filter (· ≠ first.tok)).length <
      smReplayRingSize) :
    first.tok ∉ acceptedTokens (replayStep s first) mid := by
  induction mid using List.reverseRecOn with
  | nil => simp [acceptedTokens, runTrace]
  | append_singleton mid ev ih =>
      rw [acceptedTokens, runTrace_concat, ← acceptedTokens] at hfew ⊢
      rw [List.filter_append, List.length_append] at hfew
      have hbefore := ih (by omega)
      rw [filter_ne_of_notMem hbefore] at hfew
      rw [List.mem_append, not_or]
      refine ⟨hbefore, fun hmem => ?_⟩
      rw [Option.mem_toList, replayAccepts] at hmem
      split_ifs at hmem with haccepts
      rw [Option.some.injEq] at hmem
      rw [hmem, smReplayCheck_rejects_of_few first hnonce haccepted (by omega)] at haccepts
      cases haccepts

/-- An accepted token is rejected whenever it comes again before as many others have
been accepted as the ring has slots. -/
theorem smReplayCheck_unique (before mid : List ReplayEvent) (tok : ReplayToken)
    (now now' : UInt64) (hnonce : tok.nonce ≠ 0)
    (haccepted : (smReplayCheck (run replayStep smReplayInit before) tok now).2 = 0)
    (hfew : ((acceptedTokens (run replayStep smReplayInit (before ++ [⟨tok, now⟩])) mid).filter
      (· ≠ tok)).length < smReplayRingSize) :
    (smReplayCheck (run replayStep smReplayInit (before ++ ⟨tok, now⟩ :: mid)) tok now').2 =
      -1 := by
  rw [run_concat] at hfew
  have hnotMem := notMem_acceptedTokens ⟨tok, now⟩ hnonce haccepted hfew
  rw [filter_ne_of_notMem hnotMem] at hfew
  rw [run_append, run_cons,
    smReplayCheck_rejects_of_few ⟨tok, now⟩ hnonce haccepted hfew]

/-- A token that comes again after a second, with another one in between. -/
theorem smReplayCheck_unique_again :
    (smReplayCheck (run replayStep smReplayInit
      ([] ++ ⟨⟨1000, 7⟩, 1000⟩ :: [⟨⟨1500, 8⟩, 1500⟩])) ⟨1000, 7⟩ 2000).2 = -1 :=
  smReplayCheck_unique [] [⟨⟨1500, 8⟩, 1500⟩] ⟨1000, 7⟩ 1000 2000 (by decide)
    (by decide +kernel) (by decide +kernel)

end Run

end ServiceManager

end Shinigami
