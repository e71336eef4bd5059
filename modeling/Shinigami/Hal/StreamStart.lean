import Mathlib.Data.Finset.Insert
import Mathlib.Data.List.Nodup
import Shinigami.Foundations.Run
import Shinigami.Hal.DeviceOps

/-!
# Starting a camera stream again

`camera_start` hands the mapped buffers to the driver one by one and leaves at the first failure,
without taking back those already queued. The driver refuses a buffer that is queued, so a start
that got past its first buffer spoils the next one (`retryable_iff`). `camera_stop` takes the
buffers back only from a stream that runs.
-/

namespace Shinigami

namespace Hal

/-- The loop of `VIDIOC_QBUF`, with the queued buffers it leaves and whether it went through. The
driver fails as it likes, and on every buffer that is queued. -/
def queueBuffers (queueOk : ℕ → Bool) : List ℕ → Finset ℕ → Finset ℕ × Bool
  | [], queued => (queued, true)
  | idx :: rest, queued =>
      if idx ∈ queued ∨ queueOk idx = false then (queued, false)
      else queueBuffers queueOk rest (insert idx queued)

section QueueBuffers

variable {queueOk : ℕ → Bool} {buffers : List ℕ} {queued : Finset ℕ}

theorem subset_queueBuffers (queueOk : ℕ → Bool) (buffers : List ℕ) (queued : Finset ℕ) :
    queued ⊆ (queueBuffers queueOk buffers queued).1 := by
  induction buffers generalizing queued with
  | nil => exact Finset.Subset.refl queued
  | cons idx rest ih =>
      rw [queueBuffers]
      split_ifs
      · exact Finset.Subset.refl queued
      · exact (Finset.subset_insert idx queued).trans (ih _)

/-- The loop goes through exactly when no buffer was queued before and the driver takes each. -/
theorem queueBuffers_snd_iff (hnodup : buffers.Nodup) :
    (queueBuffers queueOk buffers queued).2 = true ↔
      ∀ idx ∈ buffers, idx ∉ queued ∧ queueOk idx = true := by
  induction buffers generalizing queued with
  | nil => simp [queueBuffers]
  | cons idx rest ih =>
      obtain ⟨hfresh, hrest⟩ := List.nodup_cons.mp hnodup
      have hinsert : ∀ i ∈ rest, i ∉ insert idx queued ↔ i ∉ queued := by
        intro i hi
        have hne : i ≠ idx := fun h => hfresh (h ▸ hi)
        simp [hne]
      rw [queueBuffers, List.forall_mem_cons]
      split_ifs with hfails
      · have hnot : ¬(idx ∉ queued ∧ queueOk idx = true) := by
          rintro ⟨hidx, hok⟩
          exact hfails.elim hidx (by simp [hok])
        simp [hnot]
      · have htakes : idx ∉ queued ∧ queueOk idx = true := by
          simpa using hfails
        rw [ih hrest, and_iff_right htakes]
        exact forall₂_congr fun i hi => and_congr_left' (hinsert i hi)

/-- The loop leaves the queue as it was exactly when it does not get past its first buffer. -/
theorem queueBuffers_fst_iff :
    (queueBuffers queueOk buffers queued).1 = queued ↔
      ∀ idx ∈ buffers.head?, idx ∈ queued ∨ queueOk idx = false := by
  cases buffers with
  | nil => simp [queueBuffers]
  | cons idx rest =>
      have hhead : (∀ i ∈ (idx :: rest).head?, i ∈ queued ∨ queueOk i = false) ↔
          (idx ∈ queued ∨ queueOk idx = false) := by
        simp
      rw [hhead, queueBuffers]
      split_ifs with hfails
      · simp [hfails]
      · have hmem := subset_queueBuffers queueOk rest (insert idx queued)
          (Finset.mem_insert_self idx queued)
        refine iff_of_false (fun heq => hfails ?_) hfails
        rw [heq] at hmem
        exact .inl hmem

end QueueBuffers

/-- A camera, with the buffers that its driver has queued. -/
structure CameraStream where
  device : HalDevice CameraPriv
  queued : Finset ℕ

namespace CameraStream

/-- `camera_start`. -/
def start (s : CameraStream) (o : CameraOutcome) : CameraStream × HalError :=
  if s.device.state ≠ .opened then (s, .invalid)
  else
    match queueBuffers o.queueOk (List.range s.device.priv.mmapBufferCount) s.queued with
    | (queued, false) => ({ s with queued := queued }, .io)
    | (queued, true) =>
        if !o.streamOnOk then ({ s with queued := queued }, .io)
        else
          ({ device :=
              { s.device with
                state := .active
                priv := { s.device.priv with streaming := true } }
             queued := queued }, .success)

/-- `camera_stop`; the driver empties its queue with `VIDIOC_STREAMOFF`. -/
def stop (s : CameraStream) (o : CameraOutcome) : CameraStream × HalError :=
  let (device, rc) := cameraStop s.device o
  ({ device := device
     queued := if s.device.priv.streaming && o.streamOffOk then ∅ else s.queued }, rc)

/-- No call of the driver fails that `camera_start` makes. -/
def Calm (o : CameraOutcome) : Prop :=
  (∀ idx, o.queueOk idx = true) ∧ o.streamOnOk = true

/-- When a call of the driver fails, the queue is as it was, and a later start without a failure
succeeds, whatever the calls of `camera_stop` in between. -/
def Retryable (s : CameraStream) (o : CameraOutcome) : Prop :=
  (s.start o).2 = .io →
    (s.start o).1.queued = s.queued ∧
      ∀ (stops : List CameraOutcome) (later : CameraOutcome), Calm later →
        ((run (fun s o => (s.stop o).1) (s.start o).1 stops).start later).2 = .success

/-- The buffers can all be queued. -/
def Unqueued (s : CameraStream) : Prop :=
  ∀ idx < s.device.priv.mmapBufferCount, idx ∉ s.queued

/-- The start succeeds, or it does not get past its first buffer. -/
def FailsFirst (s : CameraStream) (o : CameraOutcome) : Prop :=
  (∀ idx < s.device.priv.mmapBufferCount, o.queueOk idx = true) ∧ o.streamOnOk = true ∨
    s.device.priv.mmapBufferCount = 0 ∨ o.queueOk 0 = false

section Start

variable {s : CameraStream} {o : CameraOutcome}

theorem start_of_not_opened (h : s.device.state ≠ .opened) : s.start o = (s, .invalid) := by
  simp [start, h]

theorem start_queued (h : s.device.state = .opened) :
    (s.start o).1.queued =
      (queueBuffers o.queueOk (List.range s.device.priv.mmapBufferCount) s.queued).1 := by
  simp only [start, h, ne_eq, not_true_eq_false, if_false]
  cases queueBuffers o.queueOk (List.range s.device.priv.mmapBufferCount) s.queued with
  | mk queued through =>
      cases through
      · rfl
      · cases o.streamOnOk <;> rfl

/-- A start leaves the queue as it was exactly when it does not get past its first buffer. -/
theorem start_queued_iff (h : s.device.state = .opened) :
    (s.start o).1.queued = s.queued ↔
      s.device.priv.mmapBufferCount = 0 ∨ 0 ∈ s.queued ∨ o.queueOk 0 = false := by
  rw [start_queued h, queueBuffers_fst_iff, List.head?_range]
  split_ifs with hnone
  · simp [hnone]
  · simp [hnone]

theorem start_success_iff :
    (s.start o).2 = .success ↔
      s.device.state = .opened ∧ s.Unqueued ∧
        (∀ idx < s.device.priv.mmapBufferCount, o.queueOk idx = true) ∧ o.streamOnOk = true := by
  by_cases h : s.device.state = .opened
  swap
  · simp [start_of_not_opened h, h]
  have hthrough : (queueBuffers o.queueOk (List.range s.device.priv.mmapBufferCount)
      s.queued).2 = true ↔ s.Unqueued ∧
        ∀ idx < s.device.priv.mmapBufferCount, o.queueOk idx = true := by
    rw [queueBuffers_snd_iff List.nodup_range, Unqueued, ← forall₂_and]
    simp only [List.mem_range]
  rw [and_iff_right h, ← and_assoc, ← hthrough]
  simp only [start, h, ne_eq, not_true_eq_false, if_false]
  cases queueBuffers o.queueOk (List.range s.device.priv.mmapBufferCount) s.queued with
  | mk queued through => cases through <;> cases o.streamOnOk <;> simp

/-- In an open device every start that does not succeed fails in the driver, and keeps the rest of
the device. -/
theorem start_fails (h : s.device.state = .opened) (hfails : (s.start o).2 ≠ .success) :
    (s.start o).2 = .io ∧ (s.start o).1.device = s.device := by
  revert hfails
  simp only [start, h, ne_eq, not_true_eq_false, if_false]
  cases queueBuffers o.queueOk (List.range s.device.priv.mmapBufferCount) s.queued with
  | mk queued through => cases through <;> cases o.streamOnOk <;> simp

/-- A start does to the device what `cameraStart` does when the driver refuses queued buffers. -/
theorem start_eq_cameraStart (s : CameraStream) (o : CameraOutcome) :
    ((s.start o).1.device, (s.start o).2) =
      cameraStart s.device
        { o with queueOk := fun idx => decide (idx ∉ s.queued) && o.queueOk idx } := by
  by_cases h : s.device.state = .opened
  swap
  · simp [start_of_not_opened h, cameraStart, h]
  have hall : (List.range s.device.priv.mmapBufferCount).all
      (fun idx => decide (idx ∉ s.queued) && o.queueOk idx) =
        (queueBuffers o.queueOk (List.range s.device.priv.mmapBufferCount) s.queued).2 := by
    rw [Bool.eq_iff_iff, queueBuffers_snd_iff List.nodup_range, List.all_eq_true]
    simp
  simp only [cameraStart, start, h, hall, ne_eq, not_true_eq_false, if_false]
  cases queueBuffers o.queueOk (List.range s.device.priv.mmapBufferCount) s.queued with
  | mk queued through => cases through <;> cases o.streamOnOk <;> simp

/-- `camera_stop` keeps an open device open with its buffers, and queues nothing. -/
theorem stop_spec (h : s.device.state = .opened) :
    (s.stop o).1.device.state = .opened ∧
      (s.stop o).1.device.priv.mmapBufferCount = s.device.priv.mmapBufferCount ∧
        (s.stop o).1.queued ⊆ s.queued := by
  simp only [stop, cameraStop]
  cases s.device.priv.streaming <;> cases o.streamOffOk <;> simp [h]

/-- Where the buffers can be queued, they can be after any calls of `camera_stop`. -/
theorem Unqueued.run_stop (h : s.device.state = .opened) (hs : s.Unqueued)
    (stops : List CameraOutcome) :
    (run (fun s o => (s.stop o).1) s stops).device.state = .opened ∧
      (run (fun s o => (s.stop o).1) s stops).Unqueued := by
  refine run_invariant (I := fun s : CameraStream => s.device.state = .opened ∧ s.Unqueued)
    (P := fun _ => True) (fun s o _ hs => ?_) ⟨h, hs⟩ (fun _ _ => trivial)
  obtain ⟨hopened, hcount, hsubset⟩ := stop_spec (o := o) hs.1
  refine ⟨hopened, fun idx hidx hmem => hs.2 idx ?_ (hsubset hmem)⟩
  rwa [← hcount]

theorem Retryable.unqueued (hretry : s.Retryable o) (h : s.device.state = .opened)
    (hfails : (s.start o).2 ≠ .success) :
    s.Unqueued ∧ (s.device.priv.mmapBufferCount = 0 ∨ o.queueOk 0 = false) := by
  obtain ⟨hio, hdevice⟩ := start_fails h hfails
  obtain ⟨hqueued, hlater⟩ := hretry hio
  have hcalm : Calm { o with queueOk := fun _ => true, streamOnOk := true } :=
    ⟨fun _ => rfl, rfl⟩
  have hunqueued : s.Unqueued := by
    have hagain := (start_success_iff.mp (hlater [] _ hcalm)).2.1
    rw [run_nil, Unqueued, hqueued, hdevice] at hagain
    exact hagain
  refine ⟨hunqueued, ?_⟩
  obtain hnone | hfirst | hrefuses := (start_queued_iff h).mp hqueued
  · exact .inl hnone
  · by_cases hnone : s.device.priv.mmapBufferCount = 0
    · exact .inl hnone
    · exact absurd hfirst (hunqueued 0 (Nat.pos_of_ne_zero hnone))
  · exact .inr hrefuses

/-- After a start that changed neither the device nor the queue, the buffers are as free as
before. -/
theorem Unqueued.retryable (hs : s.Unqueued) (h : s.device.state = .opened)
    (hqueued : (s.start o).1.queued = s.queued) : s.Retryable o := by
  intro hio
  have hdevice : (s.start o).1.device = s.device :=
    (start_fails h (by rw [hio]; decide)).2
  refine ⟨hqueued, fun stops later hlater => ?_⟩
  have hagain : (s.start o).1.Unqueued := by
    rw [Unqueued, hqueued, hdevice]
    exact hs
  have hopened : (s.start o).1.device.state = .opened := hdevice.symm ▸ h
  obtain ⟨hstill, hfree⟩ := hagain.run_stop hopened stops
  exact start_success_iff.mpr ⟨hstill, hfree, fun idx _ => hlater.1 idx, hlater.2⟩

end Start

/-- A start leaves a failure behind that can be retried exactly when the device is not open, or no
buffer is queued before and the start succeeds or fails at its first buffer. -/
theorem retryable_iff (s : CameraStream) (o : CameraOutcome) :
    s.Retryable o ↔ (s.device.state = .opened → s.Unqueued ∧ s.FailsFirst o) := by
  by_cases h : s.device.state = .opened
  swap
  · refine iff_of_true (fun hio => ?_) (absurd · h)
    rw [start_of_not_opened h] at hio
    cases hio
  rw [forall_prop_of_true h]
  by_cases hsuccess : (s.start o).2 = .success
  · obtain ⟨-, hunqueued, hok⟩ := start_success_iff.mp hsuccess
    refine iff_of_true (fun hio => ?_) ⟨hunqueued, .inl hok⟩
    rw [hsuccess] at hio
    cases hio
  constructor
  · intro hretry
    obtain ⟨hunqueued, hfirst⟩ := hretry.unqueued h hsuccess
    exact ⟨hunqueued, .inr hfirst⟩
  · rintro ⟨hunqueued, hok | hfirst⟩
    · exact absurd (start_success_iff.mpr ⟨h, hunqueued, hok⟩) hsuccess
    · refine hunqueued.retryable h ((start_queued_iff h).mpr ?_)
      exact hfirst.imp_right .inr

/-- An open camera with two buffers, none of them queued. -/
def twoBuffers : CameraStream where
  device :=
    { state := .opened
      fd := some 0
      priv := ⟨some 0, true, 2, false, 640, 480⟩
      next := 1
      openHandles := [0] }
  queued := ∅

/-- The driver fails on the second buffer. -/
def secondBufferFails : CameraOutcome where
  pathOk := true
  openOk := true
  queryCap := none
  setFormat := none
  requestBuffers := none
  callocOk := true
  mapOk := fun _ => true
  queueOk := fun idx => idx ≠ 1
  streamOnOk := true
  streamOffOk := true

/-- The first buffer stays queued. -/
theorem not_retryable_secondBufferFails : ¬twoBuffers.Retryable secondBufferFails := by
  intro h
  have hqueued := (h (by decide)).1
  exact absurd hqueued (by decide)

end CameraStream

end Hal

end Shinigami
