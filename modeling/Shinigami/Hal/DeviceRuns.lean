import Shinigami.Hal.Lifecycle

/-!
# The lifecycle of the four devices

The GPIO, audio and camera vtables are lawful, so each keeps the lifecycle in exactly
the runs in order. The sensor opens without its handle, too, and is treated by itself:
its `open` looks neither at the state nor at the buffer descriptor it holds.
-/

namespace Shinigami

namespace Hal

theorem configureAlsaHwParams_handle (priv : AudioPriv) (o : AudioOutcome) :
    (configureAlsaHwParams priv o).1.pcmHandle = priv.pcmHandle := by
  unfold configureAlsaHwParams
  cases o.rateNear with
  | none => split_ifs <;> rfl
  | some rate =>
      dsimp only
      split_ifs <;> rfl

section Device

variable {P : Type*} (d : HalDevice P)

theorem mem_acquire_iff {h : ℕ} (hlt : h < d.next) :
    h ∈ d.acquire.openHandles ↔ h ∈ d.openHandles := by
  simp [HalDevice.acquire, hlt.ne]

theorem mem_release_iff {h h' : ℕ} :
    h ∈ (d.release h').openHandles ↔ h ∈ d.openHandles ∧ h ≠ h' := by
  simp [HalDevice.release]

theorem not_mem_releaseHeld {held : Option ℕ} {h : ℕ} (hheld : held = some h) :
    h ∉ (d.releaseHeld held).openHandles := by
  subst hheld
  simp [HalDevice.releaseHeld, HalDevice.release]

theorem plainStart_spec :
    let d' := d.plainStart.1
    (d'.state = d.state ∨ d.state = .opened ∧ d'.state = .active) ∧
      d'.priv = d.priv ∧ d'.openHandles = d.openHandles ∧ d'.next = d.next := by
  simp only [HalDevice.plainStart]
  split_ifs with h
  · exact ⟨.inl rfl, rfl, rfl, rfl⟩
  · exact ⟨.inr ⟨not_not.mp h, rfl⟩, rfl, rfl, rfl⟩

end Device

def gpioLawful : LawfulVtable gpioOps where
  opens o := o.exportOk || o.dirExists
  stops _ _ := true
  open_of_not_opens d o hopens := by
    simp_all [gpioOps, gpioOpen]
  open_frame d o := by
    simp only [gpioOps, gpioOpen]
    split_ifs
    · simp
    · simp
    · exact ⟨Nat.le_succ _, fun h hlt => mem_acquire_iff d hlt⟩
  open_of_opens d o hopens := by
    simp only [gpioOps, gpioOpen]
    rw [if_neg (by simpa [or_iff_not_imp_left] using hopens)]
    split_ifs
    · exact .inr ⟨rfl, rfl⟩
    · exact .inl ⟨rfl, rfl, Nat.lt_succ_self _, by simp [HalDevice.acquire]⟩
  close_spec d := ⟨rfl, rfl, fun _ hheld => not_mem_releaseHeld d hheld⟩
  start_spec d _ := by
    obtain ⟨hstate, hpriv, hframe⟩ := plainStart_spec d
    exact ⟨hstate, congrArg GpioPriv.valueFd hpriv, hframe⟩
  stop_spec d _ := ⟨rfl, rfl, rfl, rfl⟩

def audioLawful : LawfulVtable audioOps where
  opens o := o.openOk
  stops _ _ := true
  open_of_not_opens d o hopens := by
    simp [audioOps, audioOpen, hopens]
  open_frame d o := by
    simp only [audioOps, audioOpen]
    split_ifs
    · simp
    · refine ⟨Nat.le_succ _, fun h hlt => ?_⟩
      exact (mem_release_iff d.acquire).trans (by simp [mem_acquire_iff d hlt, hlt.ne])
    · exact ⟨Nat.le_succ _, fun h hlt => mem_acquire_iff d hlt⟩
  open_of_opens d o hopens := by
    simp only [audioOps, audioOpen]
    rw [if_neg (by simp [hopens])]
    split_ifs
    · exact .inr ⟨rfl, rfl⟩
    · refine .inl ⟨rfl, ?_, Nat.lt_succ_self _, by simp [HalDevice.acquire]⟩
      exact configureAlsaHwParams_handle _ o
  close_spec d := ⟨rfl, rfl, fun _ hheld => not_mem_releaseHeld d hheld⟩
  start_spec d _ := by
    obtain ⟨hstate, hpriv, hframe⟩ := plainStart_spec d
    exact ⟨hstate, congrArg AudioPriv.pcmHandle hpriv, hframe⟩
  stop_spec d _ := ⟨rfl, rfl, rfl, rfl⟩

theorem configureV4l2Format_handle (priv : CameraPriv) (o : CameraOutcome) :
    (configureV4l2Format priv o).1.v4l2Fd = priv.v4l2Fd := by
  unfold configureV4l2Format
  cases o.setFormat <;> rfl

theorem allocateMmapBuffers_handle (priv : CameraPriv) (o : CameraOutcome) :
    (allocateMmapBuffers priv o).1.v4l2Fd = priv.v4l2Fd := by
  unfold allocateMmapBuffers
  cases o.requestBuffers with
  | none => rfl
  | some count =>
      dsimp only
      split_ifs <;> rfl

/-- Behind a valid path `camera_open` loses the handle, opens one and closes it again,
or ends with it. -/
theorem cameraOpen_cases (d : HalDevice CameraPriv) {o : CameraOutcome}
    (hpath : o.pathOk = true) :
    (cameraOpen d o).1 = { d with priv := { d.priv with v4l2Fd := none } } ∨
      (∃ priv err, cameraOpen d o = cameraOpenFail d.acquire d.next priv err) ∨
      ∃ priv, priv.v4l2Fd = some d.next ∧
        (cameraOpen d o).1 =
          { d.acquire with state := .opened, fd := some d.next, priv := priv } := by
  unfold cameraOpen
  rw [if_neg (by simp [hpath])]
  by_cases hopen : o.openOk = true
  · right
    rw [if_neg (by simp [hopen])]
    cases o.queryCap with
    | none => exact .inl ⟨_, _, rfl⟩
    | some cap =>
        dsimp only
        split_ifs
        · exact .inl ⟨_, _, rfl⟩
        · exact .inl ⟨_, _, rfl⟩
        · exact .inl ⟨_, _, rfl⟩
        · exact .inl ⟨_, _, rfl⟩
        · refine .inr ⟨_, ?_, rfl⟩
          rw [allocateMmapBuffers_handle, configureV4l2Format_handle]
  · left
    rw [if_pos (by simp [hopen])]

def cameraLawful : LawfulVtable cameraOps where
  opens o := o.pathOk
  stops priv o := !priv.streaming || o.streamOffOk
  open_of_not_opens d o hopens := by
    simp [cameraOps, cameraOpen, hopens]
  open_frame d o := by
    simp only [cameraOps]
    cases hpath : o.pathOk with
    | false => simp [cameraOpen, hpath]
    | true =>
        rcases cameraOpen_cases d hpath with heq | ⟨priv, err, heq⟩ | ⟨priv, -, heq⟩
        · simp [heq]
        · rw [heq]
          refine ⟨Nat.le_succ _, fun h hlt => ?_⟩
          exact (mem_release_iff d.acquire).trans (by simp [mem_acquire_iff d hlt, hlt.ne])
        · rw [heq]
          exact ⟨Nat.le_succ _, fun h hlt => mem_acquire_iff d hlt⟩
  open_of_opens d o hopens := by
    simp only [cameraOps]
    rcases cameraOpen_cases d hopens with heq | ⟨priv, err, heq⟩ | ⟨priv, hpriv, heq⟩
    · rw [heq]
      exact .inr ⟨rfl, rfl⟩
    · rw [heq]
      exact .inr ⟨rfl, rfl⟩
    · rw [heq]
      exact .inl ⟨rfl, hpriv, Nat.lt_succ_self _, by simp [HalDevice.acquire]⟩
  close_spec d := ⟨rfl, rfl, fun _ hheld => not_mem_releaseHeld d hheld⟩
  start_spec d o := by
    simp only [cameraOps, cameraStart]
    split_ifs with hstate
    · exact ⟨.inl rfl, rfl, rfl, rfl⟩
    · exact ⟨.inl rfl, rfl, rfl, rfl⟩
    · exact ⟨.inl rfl, rfl, rfl, rfl⟩
    · exact ⟨.inr ⟨not_not.mp hstate, rfl⟩, rfl, rfl, rfl⟩
  stop_spec d o := by
    simp only [cameraOps, cameraStop]
    cases d.priv.streaming <;> cases o.streamOffOk <;> exact ⟨rfl, rfl, rfl, rfl⟩

/-- An `open` is not called on an active sensor, and a `stop` is not called on a closed
one. -/
def SensorInOrder (d : HalDevice SensorPriv) : LifecycleCall SensorOutcome → Prop
  | .openDevice _ => d.state ≠ .active
  | .stopDevice _ => d.state ≠ .closed
  | _ => True

/-- An `open` for the hardware buffer is not called on a sensor that holds it. -/
def SensorBufferFree (d : HalDevice SensorPriv) : LifecycleCall SensorOutcome → Prop
  | .openDevice _ => d.priv.enableBuffer = true → d.priv.bufferFd = none
  | _ => True

structure SensorTidy (d : HalDevice SensorPriv) : Prop where
  state_ne : d.state ≠ .error
  held : ∀ h, d.priv.bufferFd = some h → h ∈ d.openHandles ∧ h < d.next

section Sensor

variable {d : HalDevice SensorPriv}

/-- A sensor that opens keeps its handle and its frame, or it is in buffer mode: then it
has a new handle or none. -/
theorem sensorOpen_cases (d : HalDevice SensorPriv) (o : SensorOutcome) :
    let d' := (sensorOpen d o).1
    d'.state = .opened ∧ d.next ≤ d'.next ∧
      (∀ h, h < d.next → (h ∈ d'.openHandles ↔ h ∈ d.openHandles)) ∧
      (d.priv.enableBuffer = false ∧ d'.priv = d.priv ∨
        d.priv.enableBuffer = true ∧ (d'.priv.bufferFd = none ∨
          d'.priv.bufferFd = some d.next ∧ d.next ∈ d'.openHandles ∧ d.next < d'.next)) := by
  simp only [sensorOpen, openIioBuffer]
  cases hbuffer : d.priv.enableBuffer with
  | false => simp
  | true =>
      cases o.layoutOk with
      | false => simp
      | true =>
          cases o.openOk with
          | false => simp
          | true =>
              refine ⟨trivial, Nat.le_succ _, fun h hlt => mem_acquire_iff d hlt, ?_⟩
              exact .inr ⟨rfl, .inr ⟨rfl, by simp [HalDevice.acquire], Nat.lt_succ_self _⟩⟩

theorem sensorTidy_create {priv : SensorPriv} (hpriv : priv.bufferFd = none) :
    SensorTidy (.create priv) :=
  ⟨nofun, by simp [HalDevice.create, hpriv]⟩

theorem SensorTidy.step (h : SensorTidy d) (call : LifecycleCall SensorOutcome) :
    SensorTidy (sensorOps.step d call) := by
  cases call with
  | openDevice o =>
      obtain ⟨hstate, hnext, hkept, hbuffer⟩ := sensorOpen_cases d o
      refine ⟨by simp [Vtable.step, sensorOps, hstate], fun x hx => ?_⟩
      simp only [Vtable.step, sensorOps] at hx ⊢
      rcases hbuffer with ⟨-, hpriv⟩ | ⟨-, hnone | ⟨hnew, hmem, hlt⟩⟩
      · rw [hpriv] at hx
        obtain ⟨hmem, hlt⟩ := h.held x hx
        exact ⟨(hkept x hlt).mpr hmem, hlt.trans_le hnext⟩
      · rw [hnone] at hx
        cases hx
      · obtain rfl : d.next = x := Option.some.inj (hnew.symm.trans hx)
        exact ⟨hmem, hlt⟩
  | closeDevice =>
      refine ⟨by simp [Vtable.step, sensorOps, sensorClose], fun x hx => ?_⟩
      cases hx
  | startDevice o =>
      obtain ⟨hstate, hpriv, hopen, hnext⟩ := plainStart_spec d
      refine ⟨?_, fun x hx => ?_⟩
      · have hne := h.state_ne
        rcases hstate with hstate | ⟨-, hstate⟩ <;>
          simp [Vtable.step, sensorOps, sensorStart, hstate, hne]
      · simp only [Vtable.step, sensorOps, sensorStart, hpriv, hopen, hnext] at hx ⊢
        exact h.held x hx
  | stopDevice o =>
      refine ⟨?_, h.held⟩
      simp [Vtable.step, sensorOps, sensorStop, HalDevice.plainStop]

/-- The state of a sensor makes a valid move exactly when the call is in order. -/
theorem SensorTidy.movesValidly_iff (h : SensorTidy d) (call : LifecycleCall SensorOutcome) :
    sensorOps.MovesValidly d call ↔ SensorInOrder d call := by
  have hne := h.state_ne
  cases call with
  | openDevice o =>
      have hstate : (sensorOps.step d (.openDevice o)).state = .opened :=
        (sensorOpen_cases d o).1
      rw [Vtable.MovesValidly, hstate, SensorInOrder]
      cases hd : d.state with
      | closed => exact iff_of_true (.inr (.opening o)) (by simp)
      | opened => exact iff_of_true (.inl rfl) (by simp)
      | active =>
          refine iff_of_false ?_ (not_not.mpr rfl)
          rintro (hsame | hmove)
          · cases hsame
          · cases hmove
      | error => exact absurd hd hne
  | closeDevice =>
      refine iff_of_true ?_ trivial
      have hstate : (sensorOps.step d .closeDevice).state = .closed := rfl
      rw [Vtable.MovesValidly, hstate]
      cases hd : d.state with
      | closed => exact .inl rfl
      | opened => exact .inr .closing
      | active => exact .inr .closingActive
      | error => exact absurd hd hne
  | startDevice o =>
      refine iff_of_true ?_ trivial
      rcases (plainStart_spec d).1 with hstate | ⟨hopened, hstate⟩
      · exact .inl hstate
      · right
        simp only [Vtable.step, sensorOps, sensorStart, hstate, hopened]
        exact .starting o
  | stopDevice o =>
      have hstate : (sensorOps.step d (.stopDevice o)).state = .opened := rfl
      rw [Vtable.MovesValidly, hstate, SensorInOrder]
      cases hd : d.state with
      | closed =>
          refine iff_of_false ?_ (not_not.mpr rfl)
          rintro (hsame | hmove)
          · cases hsame
          · cases hmove
      | opened => exact iff_of_true (.inl rfl) (by simp)
      | active => exact iff_of_true (.inr (.stopping o)) (by simp)
      | error => exact absurd hd hne

/-- A sensor keeps its handle exactly when it does not open the buffer over it. -/
theorem SensorTidy.keepsHandle_iff (h : SensorTidy d) (call : LifecycleCall SensorOutcome) :
    sensorOps.KeepsHandle d call ↔ SensorBufferFree d call := by
  cases call with
  | openDevice o =>
      obtain ⟨-, hnext, hkept, hbuffer⟩ := sensorOpen_cases d o
      constructor
      · intro hkeeps henable
        by_contra hheld
        obtain ⟨x, hx⟩ := Option.ne_none_iff_exists'.mp hheld
        obtain ⟨hmem, hlt⟩ := h.held x hx
        rcases hkeeps x hx with hsame | hclosed
        · simp only [Vtable.step, sensorOps] at hsame
          rcases hbuffer with ⟨hoff, -⟩ | ⟨-, hnone | ⟨hnew, -⟩⟩
          · simp [hoff] at henable
          · exact absurd (hnone.symm.trans hsame) (by simp)
          · obtain rfl : d.next = x := Option.some.inj (hnew.symm.trans hsame)
            exact Nat.lt_irrefl _ hlt
        · exact hclosed ((hkept x hlt).mpr hmem)
      · intro hfree x hx
        rcases hbuffer with ⟨-, hpriv⟩ | ⟨hon, -⟩
        · left
          simp only [Vtable.step, sensorOps, hpriv]
          exact hx
        · exact absurd ((hfree hon).symm.trans hx) (by simp)
  | closeDevice => exact iff_of_true (fun _ hx => .inr (not_mem_releaseHeld d hx)) trivial
  | startDevice o =>
      refine iff_of_true (fun x hx => .inl ?_) trivial
      have hpriv := (plainStart_spec d).2.1
      simp only [Vtable.step, sensorOps, sensorStart, hpriv]
      exact hx
  | stopDevice o => exact iff_of_true (fun _ hx => .inl hx) trivial

end Sensor

/-- Over every run a created device keeps the lifecycle exactly when each `open` that
assigns the handle meets a closed device and each `stop` that assigns the state does
not; for the sensor, when no `open` meets an active sensor and no `stop` a closed one,
and its buffer descriptor is kept exactly when no `open` for the buffer meets one. -/
theorem lifecycle_run_iff (exported enable : Bool) (rate width height : UInt32)
    (gpioCalls : List (LifecycleCall GpioOutcome))
    (audioCalls : List (LifecycleCall AudioOutcome))
    (cameraCalls : List (LifecycleCall CameraOutcome))
    (sensorCalls : List (LifecycleCall SensorOutcome)) :
    (Guarded gpioOps.step gpioOps.KeepsLifecycle (.create ⟨none, exported⟩) gpioCalls ↔
        Guarded gpioOps.step gpioLawful.InOrder (.create ⟨none, exported⟩) gpioCalls) ∧
      (Guarded audioOps.step audioOps.KeepsLifecycle (.create ⟨none, rate⟩) audioCalls ↔
        Guarded audioOps.step audioLawful.InOrder (.create ⟨none, rate⟩) audioCalls) ∧
      (Guarded cameraOps.step cameraOps.KeepsLifecycle
          (.create ⟨none, false, 0, false, width, height⟩) cameraCalls ↔
        Guarded cameraOps.step cameraLawful.InOrder
          (.create ⟨none, false, 0, false, width, height⟩) cameraCalls) ∧
      (Guarded sensorOps.step sensorOps.MovesValidly (.create ⟨none, enable⟩) sensorCalls ↔
        Guarded sensorOps.step SensorInOrder (.create ⟨none, enable⟩) sensorCalls) ∧
      (Guarded sensorOps.step sensorOps.KeepsHandle (.create ⟨none, enable⟩) sensorCalls ↔
        Guarded sensorOps.step SensorBufferFree (.create ⟨none, enable⟩) sensorCalls) := by
  have hstart : SensorTidy (.create ⟨none, enable⟩) := sensorTidy_create rfl
  refine ⟨?_, ?_, ?_, ?_, ?_⟩
  · exact gpioLawful.keepsLifecycle_run_iff rfl gpioCalls
  · exact audioLawful.keepsLifecycle_run_iff rfl audioCalls
  · exact cameraLawful.keepsLifecycle_run_iff rfl cameraCalls
  · exact guarded_congr (P := fun _ => True) (fun _ call _ h => h.step call)
      (fun _ call _ h => h.movesValidly_iff call) hstart fun _ _ => trivial
  · exact guarded_congr (P := fun _ => True) (fun _ call _ h => h.step call)
      (fun _ call _ h => h.keepsHandle_iff call) hstart fun _ _ => trivial

/-- A `stop` opens a device that has just been created, and a second `open` of a pin
loses the descriptor of the first. -/
theorem lifecycle_not_kept :
    ¬Guarded gpioOps.step gpioOps.KeepsLifecycle (.create ⟨none, false⟩)
        [.stopDevice ⟨true, true, true⟩] ∧
      ¬Guarded sensorOps.step sensorOps.MovesValidly (.create ⟨none, false⟩)
        [.stopDevice ⟨true, true⟩] ∧
      ¬Guarded gpioOps.step gpioOps.KeepsLifecycle (.create ⟨none, false⟩)
        [.openDevice ⟨true, true, true⟩, .openDevice ⟨true, true, true⟩] := by
  have hstop : ∀ {O : Type} (o : O), ¬((.opened : HalDeviceState) = .closed ∨
      ValidMove (.stopDevice o) .closed .opened) := by
    rintro O o (hsame | hmove)
    · cases hsame
    · cases hmove
  refine ⟨fun h => hstop _ h.1.1, fun h => hstop _ h.1, fun h => ?_⟩
  rcases h.2.1.2.2 0 rfl with hheld | hclosed
  · revert hheld
    decide
  · revert hclosed
    decide

end Hal

end Shinigami
