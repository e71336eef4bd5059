import Shinigami.Foundations.Run
import Shinigami.Security.Verify.Basic

/-!
# Streams of verified messages

Two kinds of runs of the verify module: a sender that signs messages which a
receiver checks one after the other, and a receiver that checks arbitrary
messages. In both the contexts never move. So a stream is accepted with the code
one only if it is empty (`stream_accepted_iff`), and a message that has matched
is refused later only by its timestamp or by what the context knew before
(`rejectsReplays_iff`).
-/

namespace Shinigami

namespace Verify

open ServiceManager

/-- A non-empty message with the moments at which it is signed and checked. -/
structure Delivery where
  data : List UInt8
  data_ne : data ≠ []
  signEnv : SignEnv
  checkNow : UInt64
  checkMallocOk : Bool

/-- The message arrives within `TIMESTAMP_WINDOW` seconds of its signature, and
nothing fails to be allocated or to be read from the clock. -/
structure Delivery.Timely (d : Delivery) : Prop where
  clock : d.checkNow ≠ 0
  after : d.signEnv.now ≤ d.checkNow
  window : d.checkNow - d.signEnv.now ≤ timestampWindow.toUInt64
  signMalloc : d.signEnv.mallocOk = true
  checkMalloc : d.checkMallocOk = true

structure StreamState where
  sender : VerifyContext
  receiver : VerifyContext
  results : List ℤ

/-- The message is signed and delivered; without a signature there is nothing to
deliver. -/
def streamStep (s : StreamState) (d : Delivery) : StreamState :=
  match verifySignMessage s.sender d.data d.signEnv with
  | (sender, none) => { s with sender := sender }
  | (sender, some auth) =>
      let (receiver, rc) :=
        verifyCheckMessage s.receiver d.data auth d.checkNow d.checkMallocOk
      ⟨sender, receiver, s.results ++ [rc]⟩

theorem streamStep_of_timely {s : StreamState} {d : Delivery}
    (hlimit : s.sender.rateLimitPerSec = 0) (hd : d.Timely) :
    streamStep s d =
      { s with
        results := s.results ++ [(verifyCheckMessage s.receiver d.data
          (authFor s.sender d.data d.signEnv) d.checkNow d.checkMallocOk).2] } := by
  unfold streamStep
  rw [verifySignMessage_unlimited hlimit d.data_ne hd.signMalloc]
  dsimp only
  rw [verifyCheckMessage_fst]

/-- Under one key a message is answered with zero, whether its digest matches or
the replay context refuses it. -/
theorem verifyCheckMessage_authFor {sender receiver : VerifyContext}
    (hkey : receiver.masterKey = sender.masterKey) {d : Delivery} (hd : d.Timely) :
    (verifyCheckMessage receiver d.data (authFor sender d.data d.signEnv)
      d.checkNow d.checkMallocOk).2 = 0 := by
  rcases verifyCheckMessage_cases receiver d.data
      (authFor sender d.data d.signEnv) d.checkNow d.checkMallocOk with
    ⟨hdata, -⟩ | ⟨-, ⟨-, h⟩ | ⟨-, ⟨hmalloc, -⟩ | ⟨-, h⟩⟩⟩
  · exact absurd hdata d.data_ne
  · rw [h]
  · rw [hd.checkMalloc] at hmalloc
    cases hmalloc
  · rw [h, hkey]
    dsimp only
    exact smHmacVerify_authFor sender d.data d.signEnv

theorem stream_results {s : StreamState} (hlimit : s.sender.rateLimitPerSec = 0)
    (hkey : s.receiver.masterKey = s.sender.masterKey) {ds : List Delivery}
    (hds : ∀ d ∈ ds, d.Timely) :
    (run streamStep s ds).results = s.results ++ List.replicate ds.length 0 := by
  induction ds generalizing s with
  | nil => simp
  | cons d ds ih =>
      have hd := hds d (by simp)
      rw [run_cons, streamStep_of_timely hlimit hd, verifyCheckMessage_authFor hkey hd]
      have hrest := ih (s := { s with results := s.results ++ [0] }) hlimit hkey
        fun d' hd' => hds d' (by simp [hd'])
      rw [hrest, List.append_assoc]
      rfl

/-- A stream between two initialised contexts is accepted, in the sense that
every check returns one, exactly when it has no messages. -/
theorem stream_accepted_iff {key : List UInt8} {sender receiver : VerifyContext}
    (hsender : verifyInit key true = some sender)
    (hreceiver : verifyInit key true = some receiver) (ds : List Delivery)
    (hds : ∀ d ∈ ds, d.Timely) :
    (∀ rc ∈ (run streamStep ⟨sender, receiver, []⟩ ds).results, rc = 1) ↔
      ds = [] := by
  have hinit : ∀ ctx, verifyInit key true = some ctx →
      ctx.rateLimitPerSec = 0 ∧ ctx.masterKey = key := by
    intro ctx h
    unfold verifyInit at h
    split_ifs at h
    simp only [replayContextInit, if_true, Option.map_some, Option.some.injEq] at h
    rw [← h]
    exact ⟨rfl, rfl⟩
  have hkey : receiver.masterKey = sender.masterKey := by
    rw [(hinit receiver hreceiver).2, (hinit sender hsender).2]
  have hresults := stream_results (s := ⟨sender, receiver, []⟩)
    (hinit sender hsender).1 hkey hds
  rw [hresults, List.nil_append]
  constructor
  · intro hall
    cases ds with
    | nil => rfl
    | cons d ds =>
        have hone := hall 0 (by simp)
        cases hone
  · rintro rfl
    simp

/-- A one-byte message that arrives one second after its signature. -/
def timelyDelivery : Delivery where
  data := [1]
  data_ne := by decide
  signEnv := ⟨100, 100, 5, true⟩
  checkNow := 101
  checkMallocOk := true

theorem timelyDelivery_timely : timelyDelivery.Timely :=
  ⟨by decide, by decide, by decide, rfl, rfl⟩

/-- The context of a 32-byte key after `verify_init`. -/
def streamContext : VerifyContext where
  masterKey := List.replicate 32 7
  replayCtx := ⟨0, 0, timestampWindow, true, true⟩
  strictOrdering := true
  enableTimestampCheck := true
  rateLimitPerSec := 0
  rateCount := 0
  rateWindowStart := 0

theorem verifyInit_streamContext :
    verifyInit (List.replicate 32 7) true = some streamContext := rfl

theorem stream_accepted_iff_single :
    (∀ rc ∈ (run streamStep ⟨streamContext, streamContext, []⟩
        [timelyDelivery]).results, rc = 1) ↔ [timelyDelivery] = [] :=
  stream_accepted_iff verifyInit_streamContext verifyInit_streamContext
    [timelyDelivery] (by simpa using timelyDelivery_timely)

/-- The first message of a stream is not accepted. -/
theorem stream_not_accepted :
    ¬∀ (key : List UInt8) (sender receiver : VerifyContext) (ds : List Delivery),
      verifyInit key true = some sender → verifyInit key true = some receiver →
        (∀ d ∈ ds, d.Timely) →
        ∀ rc ∈ (run streamStep ⟨sender, receiver, []⟩ ds).results, rc = 1 := by
  intro hall
  have hone := hall _ _ _ [timelyDelivery] verifyInit_streamContext
    verifyInit_streamContext (by simpa using timelyDelivery_timely)
  have hresults : (run streamStep ⟨streamContext, streamContext, []⟩
      [timelyDelivery]).results = [] ++ List.replicate 1 0 :=
    stream_results rfl rfl (by simpa using timelyDelivery_timely)
  rw [hresults] at hone
  cases hone 0 (by simp)

/-- A check of a non-empty message, with a clock that can be read. -/
structure CheckCall where
  data : List UInt8
  data_ne : data ≠ []
  auth : MessageAuth
  now : UInt64
  now_ne : now ≠ 0
  mallocOk : Bool

def checkStep (ctx : VerifyContext) (call : CheckCall) : VerifyContext :=
  (verifyCheckMessage ctx call.data call.auth call.now call.mallocOk).1

/-- Strict ordering as `verify_init` and `verify_set_strict_ordering` set it. -/
structure StrictOrdering (ctx : VerifyContext) : Prop where
  verify : ctx.strictOrdering = true
  replay : ctx.replayCtx.strictOrdering = true

/-- Once a message with a non-zero timestamp has matched the HMAC comparison,
every later message whose sequence number is not larger is refused by the replay
check. -/
def RejectsReplays (ctx : VerifyContext) (calls : List CheckCall) : Prop :=
  ∀ (pre mid post : List CheckCall) (a b : CheckCall),
    calls = pre ++ a :: (mid ++ b :: post) → a.auth.timestamp ≠ 0 →
    MatchesHmac (run checkStep ctx pre) a.data a.auth a.now a.mallocOk →
    b.auth.sequence ≤ a.auth.sequence →
    RefusedByReplay (run checkStep ctx (pre ++ a :: mid)) b.auth b.now

@[simp] theorem run_checkStep (ctx : VerifyContext) (calls : List CheckCall) :
    run checkStep ctx calls = ctx := by
  induction calls with
  | nil => rfl
  | cons call calls ih => rw [run_cons, checkStep, verifyCheckMessage_fst, ih]

/-- Under strict ordering the replay check refuses a message whose timestamp is
outside the window or whose sequence number does not advance the context. -/
theorem refusedByReplay_iff {ctx : VerifyContext} (hstrict : StrictOrdering ctx)
    (call : CheckCall) :
    RefusedByReplay ctx call.auth call.now ↔
      (ctx.replayCtx.enableTimestampCheck &&
          ctx.replayCtx.outsideWindow call.auth.timestamp call.now) = true ∨
        ctx.replayCtx.outOfOrder call.auth.sequence = true := by
  have hflag : (ctx.enableTimestampCheck || ctx.strictOrdering) = true := by
    simp [hstrict.verify]
  simp only [RefusedByReplay, hflag, true_and, replayCheck, call.now_ne, if_false,
    hstrict.replay, Bool.true_and]
  split_ifs with hwindow horder
  · simp [hwindow]
  · simp [horder]
  · simp [hwindow, horder]

/-- Replays of matched messages are rejected exactly when each later message
with a sequence number not larger than that of a matched one is outside the
window, or was already out of order for the context at the start. -/
theorem rejectsReplays_iff {ctx : VerifyContext} (hstrict : StrictOrdering ctx)
    (calls : List CheckCall) :
    RejectsReplays ctx calls ↔
      ∀ (pre mid post : List CheckCall) (a b : CheckCall),
        calls = pre ++ a :: (mid ++ b :: post) → a.auth.timestamp ≠ 0 →
        MatchesHmac ctx a.data a.auth a.now a.mallocOk →
        b.auth.sequence ≤ a.auth.sequence →
        (ctx.replayCtx.enableTimestampCheck &&
            ctx.replayCtx.outsideWindow b.auth.timestamp b.now) = true ∨
          ctx.replayCtx.outOfOrder b.auth.sequence = true := by
  unfold RejectsReplays
  simp only [run_checkStep]
  constructor
  · intro h pre mid post a b heq hts hmatch hseq
    exact (refusedByReplay_iff hstrict b).mp (h pre mid post a b heq hts hmatch hseq)
  · intro h pre mid post a b heq hts hmatch hseq
    exact (refusedByReplay_iff hstrict b).mpr (h pre mid post a b heq hts hmatch hseq)

theorem strictOrdering_streamContext : StrictOrdering streamContext := ⟨rfl, rfl⟩

/-- The check of a message that the receiver's own key has signed. -/
def matchedCall : CheckCall where
  data := [1]
  data_ne := by decide
  auth := authFor streamContext [1] ⟨100, 100, 5, true⟩
  now := 101
  now_ne := by decide
  mallocOk := true

theorem matchedCall_matches : MatchesHmac streamContext matchedCall.data
    matchedCall.auth matchedCall.now matchedCall.mallocOk := by
  refine ⟨matchedCall.data_ne, ?_, rfl,
    smHmacVerify_authFor streamContext [1] ⟨100, 100, 5, true⟩⟩
  rw [refusedByReplay_iff strictOrdering_streamContext]
  decide

/-- The same message once more, after the window has closed. -/
def lateCall : CheckCall := { matchedCall with now := 1000, now_ne := by decide }

/-- The message has matched, and its late copy is outside the window. -/
theorem rejectsReplays_iff_late :
    MatchesHmac streamContext matchedCall.data matchedCall.auth matchedCall.now
        matchedCall.mallocOk ∧
      StrictOrdering streamContext ∧
      RejectsReplays streamContext [matchedCall, lateCall] := by
  refine ⟨matchedCall_matches, strictOrdering_streamContext, ?_⟩
  refine (rejectsReplays_iff strictOrdering_streamContext _).mpr ?_
  intro pre mid post a b heq _ _ _
  have hlen := congrArg List.length heq
  simp only [List.length_cons, List.length_append, List.length_nil] at hlen
  obtain rfl : pre = [] := List.length_eq_zero_iff.mp (by omega)
  obtain rfl : mid = [] := List.length_eq_zero_iff.mp (by omega)
  simp only [List.nil_append, List.cons.injEq] at heq
  obtain ⟨-, rfl, -⟩ := heq
  exact Or.inl (by decide)

/-- The identical message is checked twice, and the second check is not refused
by the replay context. -/
theorem matched_message_not_rejected :
    StrictOrdering streamContext ∧
      ¬RejectsReplays streamContext [matchedCall, matchedCall] := by
  refine ⟨strictOrdering_streamContext, fun h => ?_⟩
  have hsecond := h [] [] [] matchedCall matchedCall rfl (by decide)
    matchedCall_matches (UInt32.le_refl _)
  rw [run_checkStep] at hsecond
  exact matchedCall_matches.2.1 hsecond

end Verify

end Shinigami
