import Mathlib.Data.List.Lex
import Shinigami.Monitoring.Protocol.WireFormat

/-!
# Calling `mon_recv_msg` again

The receive loop of the TUI calls `mon_recv_msg` again after `MON_WIRE_ERR_AGAIN`. A
timeout in front of a frame or inside a read costs nothing. A timeout between a
header and the first byte of its payload is reported in the same way, and the header
is lost; `losesNothing_iff` says that this is the only case.
-/

namespace Shinigami

namespace Monitoring

open ByteStream

/-- Where a payload starts in the stream, after `pos` bytes before. -/
def payloadStarts : ℕ → List Message → List ℕ
  | _, [] => []
  | pos, m :: msgs =>
      if m.content = [] then payloadStarts (pos + m.frame.length) msgs
      else (pos + monHeaderSize) :: payloadStarts (pos + m.frame.length) msgs

def Call.Lossless (c : Call) : Prop :=
  c.result.rc = .errAgain → bytesOf c.result.rest = bytesOf c.start

instance Call.decidableLossless (c : Call) : Decidable c.Lossless :=
  inferInstanceAs (Decidable (_ → _))

/-- The header and the payload of a call that returned `MON_WIRE_OK`. -/
def Call.frame? (c : Call) : Option (Option MonMsgHeader × List UInt8) :=
  if c.result.rc = .ok then some (c.result.hdr, c.result.buf) else none

/-- A receiver that calls again and again loses no byte to a timeout, and gets every
frame in the end, intact and in order. -/
def LosesNothing (bufSize : ℕ) (msgs : List Message) (as : List (Arrival UInt8)) : Prop :=
  (∀ k, ∀ c ∈ recvMsgs bufSize k as, c.Lossless) ∧
    ∃ n, ∀ k, n ≤ k →
      (recvMsgs bufSize k as).filterMap Call.frame? =
        msgs.map fun m => (some m.header, m.content)

theorem le_of_mem_payloadStarts {pos p : ℕ} {msgs : List Message}
    (h : p ∈ payloadStarts pos msgs) : pos + monHeaderSize ≤ p := by
  induction msgs generalizing pos with
  | nil => cases h
  | cons m msgs ih =>
      rw [payloadStarts] at h
      split_ifs at h with hempty
      · exact Nat.le_trans (by omega) (ih h)
      · rcases List.mem_cons.mp h with rfl | h
        · exact Nat.le_refl _
        · exact Nat.le_trans (by omega) (ih h)

/-- What holds of all calls of a receiver holds of the first one and of the later ones. -/
theorem forall_recvMsgs_iff {bufSize : ℕ} {as : List (Arrival UInt8)} {r : RecvMsg}
    (hrecv : monRecvMsg bufSize as = some r) (P : Call → Prop) :
    (∀ k, ∀ c ∈ recvMsgs bufSize k as, P c) ↔
      P ⟨as, r⟩ ∧ ∀ k, ∀ c ∈ recvMsgs bufSize k r.rest, P c := by
  have hstep : ∀ k, recvMsgs bufSize (k + 1) as = ⟨as, r⟩ :: recvMsgs bufSize k r.rest := by
    intro k
    rw [recvMsgs, hrecv]
  constructor
  · intro h
    refine ⟨h 1 _ (by simp [hstep]), fun k c hc => h (k + 1) c ?_⟩
    rw [hstep]
    exact List.mem_cons_of_mem _ hc
  · rintro ⟨hfirst, hlater⟩ k c hc
    cases k with
    | zero => cases hc
    | succ k =>
        rw [hstep] at hc
        rcases List.mem_cons.mp hc with rfl | hc
        · exact hfirst
        · exact hlater k c hc

theorem recvMsgs_of_none {bufSize : ℕ} {as : List (Arrival UInt8)}
    (hrecv : monRecvMsg bufSize as = none) (k : ℕ) : recvMsgs bufSize k as = [] := by
  cases k with
  | zero => rfl
  | succ k => rw [recvMsgs, hrecv]

theorem disjoint_cons_payloadStarts {pos : ℕ} {times : List ℕ} {msgs : List Message} :
    List.Disjoint (pos :: times) (payloadStarts pos msgs) ↔
      List.Disjoint times (payloadStarts pos msgs) := by
  rw [List.disjoint_cons_left, and_iff_right]
  intro hmem
  have hle := le_of_mem_payloadStarts hmem
  rw [monHeaderSize] at hle
  omega

/-- A frame that has been received has no timeout in front of its payload. -/
theorem disjoint_frame_iff {pos : ℕ} {m : Message} {later : List Message}
    {as rest : List (Arrival UInt8)} (hconsumed : Consumed as m.frame rest)
    (hfree : m.content ≠ [] → pos + monHeaderSize ∉ timeouts pos as) :
    List.Disjoint (timeouts pos as) (payloadStarts pos (m :: later)) ↔
      List.Disjoint (timeouts (pos + m.frame.length) rest)
        (payloadStarts (pos + m.frame.length) later) := by
  obtain ⟨passed, htimes, hlt⟩ := hconsumed.timeouts_eq pos
  have hpassed : List.Disjoint passed (payloadStarts (pos + m.frame.length) later) := by
    intro p hp hstart
    have hle := le_of_mem_payloadStarts hstart
    have hless := hlt p hp
    omega
  have hdrop : List.Disjoint (timeouts pos as) (payloadStarts (pos + m.frame.length) later) ↔
      List.Disjoint (timeouts (pos + m.frame.length) rest)
        (payloadStarts (pos + m.frame.length) later) := by
    rw [htimes, List.disjoint_append_left]
    exact and_iff_right hpassed
  rw [payloadStarts]
  split_ifs with hempty
  · exact hdrop
  · rw [List.disjoint_cons_right, hdrop]
    exact and_iff_right (hfree hempty)

def callBound (pos : ℕ) (as : List (Arrival UInt8)) : ℕ :=
  (bytesOf as).length + (timeouts pos as).length

theorem callBound_again {pos : ℕ} {as rest : List (Arrival UInt8)}
    (hkeep : bytesOf rest = bytesOf as) (htimes : timeouts pos as = pos :: timeouts pos rest) :
    callBound pos rest < callBound pos as := by
  rw [callBound, callBound, hkeep, htimes, List.length_cons]
  omega

theorem callBound_frame {m : Message} {as rest : List (Arrival UInt8)}
    (h : Consumed as m.frame rest) (pos : ℕ) :
    callBound (pos + m.frame.length) rest < callBound pos as := by
  obtain ⟨passed, htimes, -⟩ := h.timeouts_eq pos
  rw [callBound, callBound, h.bytesOf_eq, htimes, List.length_append, List.length_append,
    m.length_frame, monHeaderSize]
  omega

theorem frames_later {m : Message} {later : List Message} {as rest : List (Arrival UInt8)}
    (hconsumed : Consumed as m.frame rest) (hbytes : bytesOf as = frames (m :: later)) :
    bytesOf rest = frames later :=
  List.append_cancel_left (hconsumed.bytesOf_eq.symm.trans hbytes)

theorem lossless_iff {bufSize pos : ℕ} {msgs : List Message} {as : List (Arrival UInt8)}
    (hopen : AllOpen as) (hbytes : bytesOf as = frames msgs)
    (hbuf : ∀ m ∈ msgs, m.content.length ≤ bufSize) :
    (∀ k, ∀ c ∈ recvMsgs bufSize k as, c.Lossless) ↔
      List.Disjoint (timeouts pos as) (payloadStarts pos msgs) := by
  induction hn : callBound pos as using Nat.strong_induction_on generalizing pos msgs as with
  | _ n ih =>
      subst hn
      rcases monRecvMsg_cases hopen hbytes hbuf with
        ⟨r, hrecv, -, hkeep, hrest, htimes⟩ | ⟨rfl, hrecv, -⟩ |
        ⟨m, later, r, rfl, hne, hrecv, hrc, hlost, htimes⟩ |
        ⟨m, later, rest, rfl, hrecv, hconsumed, hfree⟩
      · have hfirst : Call.Lossless ⟨as, r⟩ := fun _ => hkeep
        rw [forall_recvMsgs_iff hrecv, and_iff_right hfirst, htimes pos,
          disjoint_cons_payloadStarts]
        exact ih _ (callBound_again hkeep (htimes pos)) hrest (hkeep.trans hbytes) hbuf rfl
      · refine iff_of_true (fun k c hc => ?_) (List.disjoint_nil_right _)
        rw [recvMsgs_of_none hrecv] at hc
        cases hc
      · refine iff_of_false (fun h => ?_) (fun h => ?_)
        · exact hlost (((forall_recvMsgs_iff hrecv _).mp h).1 hrc)
        · apply h (htimes pos)
          rw [payloadStarts, if_neg hne]
          exact List.mem_cons_self ..
      · have hfirst : Call.Lossless ⟨as, m.received rest⟩ := nofun
        rw [forall_recvMsgs_iff hrecv, and_iff_right hfirst,
          disjoint_frame_iff hconsumed (hfree pos)]
        exact ih _ (callBound_frame hconsumed pos) (hconsumed.open_rest hopen)
          (frames_later hconsumed hbytes)
          (fun m' h' => hbuf m' (List.mem_cons_of_mem m h')) rfl

/-- Enough calls receive every frame when no timeout is in front of a payload. -/
theorem frames_of_disjoint {bufSize pos k : ℕ} {msgs : List Message}
    {as : List (Arrival UInt8)} (hopen : AllOpen as) (hbytes : bytesOf as = frames msgs)
    (hbuf : ∀ m ∈ msgs, m.content.length ≤ bufSize)
    (hdisj : List.Disjoint (timeouts pos as) (payloadStarts pos msgs))
    (hk : callBound pos as ≤ k) :
    (recvMsgs bufSize k as).filterMap Call.frame? =
      msgs.map fun m => (some m.header, m.content) := by
  induction k generalizing pos msgs as with
  | zero =>
      have hzero : (bytesOf as).length = 0 := by
        rw [callBound] at hk
        omega
      cases msgs with
      | nil => rfl
      | cons m later =>
          rw [hbytes, frames_cons, List.length_append, m.length_frame, monHeaderSize] at hzero
          omega
  | succ k ih =>
      rcases monRecvMsg_cases hopen hbytes hbuf with
        ⟨r, hrecv, hrc, hkeep, hrest, htimes⟩ | ⟨rfl, hrecv, -⟩ |
        ⟨m, later, r, rfl, hne, -, -, -, htimes⟩ |
        ⟨m, later, rest, rfl, hrecv, hconsumed, hfree⟩
      · have hbound := callBound_again hkeep (htimes pos)
        rw [htimes pos, disjoint_cons_payloadStarts] at hdisj
        have hnone : Call.frame? ⟨as, r⟩ = none := by simp [Call.frame?, hrc]
        rw [recvMsgs, hrecv]
        dsimp only
        rw [List.filterMap_cons_none hnone]
        exact ih hrest (hkeep.trans hbytes) hbuf hdisj (by omega)
      · rw [recvMsgs_of_none hrecv]
        rfl
      · refine absurd (htimes pos) fun hmem => hdisj hmem ?_
        rw [payloadStarts, if_neg hne]
        exact List.mem_cons_self ..
      · have hbound := callBound_frame hconsumed pos
        have hlater := ih (hconsumed.open_rest hopen) (frames_later hconsumed hbytes)
          (fun m' h' => hbuf m' (List.mem_cons_of_mem m h'))
          ((disjoint_frame_iff hconsumed (hfree pos)).mp hdisj) (by omega)
        rw [recvMsgs, hrecv, List.map_cons, ← hlater]
        rfl

/-- The receiver loses nothing exactly when no timeout falls between a header and the
first byte of its payload. -/
theorem losesNothing_iff {bufSize : ℕ} {msgs : List Message} {as : List (Arrival UInt8)}
    (hopen : ∀ a ∈ as, a ≠ .closed ∧ a ≠ .failed) (hbytes : bytesOf as = frames msgs)
    (hbuf : ∀ m ∈ msgs, m.content.length ≤ bufSize) :
    LosesNothing bufSize msgs as ↔
      ∀ pos ∈ timeouts 0 as, pos ∉ payloadStarts 0 msgs := by
  have hlossless : _ ↔ List.Disjoint (timeouts 0 as) (payloadStarts 0 msgs) :=
    lossless_iff hopen hbytes hbuf
  constructor
  · exact fun h => hlossless.mp h.1
  · intro hdisj
    refine ⟨hlossless.mpr hdisj, callBound 0 as, fun k hk => ?_⟩
    exact frames_of_disjoint hopen hbytes hbuf hdisj hk

/-- Timeouts in front of a frame and inside its two reads. -/
theorem losesNothing_iff_retried :
    let msgs : List Message := [⟨.snapshotResp, 0, some [7, 8], by decide⟩]
    let part (i n : ℕ) : Arrival UInt8 :=
      .data ((frames msgs).getD i 0) (((frames msgs).drop (i + 1)).take (n - 1))
    LosesNothing 2 msgs
      [.again, part 0 5, .again, part 5 11, part 16 1, .again, .again, part 17 1, .again] := by
  intro msgs part
  exact (losesNothing_iff (by simp [part]) (by decide) (by decide)).mpr (by decide)

/-- A timeout behind a header: the header is gone, and the next call takes a payload for
a header. -/
theorem losesNothing_timeout :
    let msgs : List Message :=
      [⟨.snapshotResp, 0, some [7], by decide⟩, ⟨.snapshotResp, 0, some [8], by decide⟩]
    let part (i n : ℕ) : Arrival UInt8 :=
      .data ((frames msgs).getD i 0) (((frames msgs).drop (i + 1)).take (n - 1))
    let as : List (Arrival UInt8) := [part 0 16, .again, part 16 18]
    bytesOf as = frames msgs ∧ ¬LosesNothing 1 msgs as ∧
      (recvMsgs 1 2 as).map (fun c => c.result.rc) = [.errAgain, .errFrame] := by
  intro msgs part as
  refine ⟨by decide, fun h => ?_, by decide⟩
  obtain ⟨c, hc, hlossy⟩ : ∃ c ∈ recvMsgs 1 1 as, ¬c.Lossless := by decide
  exact hlossy (h.1 1 c hc)

end Monitoring

end Shinigami
