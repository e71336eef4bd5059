import Shinigami.Foundations.Run
import Shinigami.Hal.DeviceOps

/-!
# The lifecycle of a device

The state machine that the vtables share, over any sequence of calls with any
outcomes of the system calls. `open` and `stop` do not look at the state: an `open`
that gets to the assignment of the handle writes over the one held, and a `stop` that
gets to the assignment of the state opens a closed device. Apart from these the
lifecycle is kept, for every vtable with the laws of `LawfulVtable`.
-/

namespace Shinigami

namespace Hal

/-- The calls, each with the outcomes of its system calls. -/
inductive LifecycleCall (O : Type*)
  | openDevice (o : O)
  | closeDevice
  | startDevice (o : O)
  | stopDevice (o : O)

/-- The part of `hw_device_ops_t` that drives the lifecycle, and where the private data
keep the handle. -/
structure Vtable (P O : Type*) where
  handle : P → Option ℕ
  openDevice : HalDevice P → O → HalDevice P × HalError
  closeDevice : HalDevice P → HalDevice P × HalError
  startDevice : HalDevice P → O → HalDevice P × HalError
  stopDevice : HalDevice P → O → HalDevice P × HalError

def gpioOps : Vtable GpioPriv GpioOutcome where
  handle := GpioPriv.valueFd
  openDevice := gpioOpen
  closeDevice := gpioClose
  startDevice d _ := gpioStart d
  stopDevice d _ := gpioStop d

def audioOps : Vtable AudioPriv AudioOutcome where
  handle := AudioPriv.pcmHandle
  openDevice := audioOpen
  closeDevice := audioClose
  startDevice d _ := audioStart d
  stopDevice d _ := audioStop d

def cameraOps : Vtable CameraPriv CameraOutcome where
  handle := CameraPriv.v4l2Fd
  openDevice := cameraOpen
  closeDevice := cameraClose
  startDevice := cameraStart
  stopDevice := cameraStop

def sensorOps : Vtable SensorPriv SensorOutcome where
  handle := SensorPriv.bufferFd
  openDevice := sensorOpen
  closeDevice := sensorClose
  startDevice d _ := sensorStart d
  stopDevice d _ := sensorStop d

/-- The moves of `hal_device_state_t`. -/
inductive ValidMove {O : Type*} : LifecycleCall O → HalDeviceState → HalDeviceState → Prop
  | opening (o : O) : ValidMove (.openDevice o) .closed .opened
  | starting (o : O) : ValidMove (.startDevice o) .opened .active
  | stopping (o : O) : ValidMove (.stopDevice o) .active .opened
  | closing : ValidMove .closeDevice .opened .closed
  | closingActive : ValidMove .closeDevice .active .closed

namespace Vtable

variable {P O : Type*} (v : Vtable P O)

def step (d : HalDevice P) : LifecycleCall O → HalDevice P
  | .openDevice o => (v.openDevice d o).1
  | .closeDevice => (v.closeDevice d).1
  | .startDevice o => (v.startDevice d o).1
  | .stopDevice o => (v.stopDevice d o).1

/-- The call leaves the state or makes a valid move. -/
def MovesValidly (d : HalDevice P) (call : LifecycleCall O) : Prop :=
  (v.step d call).state = d.state ∨ ValidMove call d.state (v.step d call).state

/-- The handle held before the call is held behind it, or has been closed. -/
def KeepsHandle (d : HalDevice P) (call : LifecycleCall O) : Prop :=
  ∀ h, v.handle d.priv = some h →
    v.handle (v.step d call).priv = some h ∨ h ∉ (v.step d call).openHandles

def HoldsHandle (d : HalDevice P) : Prop :=
  (v.handle d.priv).isSome ↔ d.state ≠ .closed

/-- What the lifecycle asks of a call. -/
def KeepsLifecycle (d : HalDevice P) (call : LifecycleCall O) : Prop :=
  v.MovesValidly d call ∧ v.HoldsHandle (v.step d call) ∧ v.KeepsHandle d call

end Vtable

/-- The laws of a vtable. `opens` tells whether `open` gets to the assignment of the
handle, and `stops` whether `stop` gets to the assignment of the state. -/
structure LawfulVtable {P O : Type*} (v : Vtable P O) where
  opens : O → Bool
  stops : P → O → Bool
  open_of_not_opens : ∀ d o, opens o = false → (v.openDevice d o).1 = d
  open_frame : ∀ d o, d.next ≤ (v.openDevice d o).1.next ∧
    ∀ h, h < d.next → (h ∈ (v.openDevice d o).1.openHandles ↔ h ∈ d.openHandles)
  open_of_opens : ∀ d o, opens o = true →
    let d' := (v.openDevice d o).1
    (d'.state = .opened ∧ v.handle d'.priv = some d.next ∧ d.next < d'.next ∧
        d.next ∈ d'.openHandles) ∨
      (d'.state = d.state ∧ v.handle d'.priv = none)
  close_spec : ∀ d,
    let d' := (v.closeDevice d).1
    d'.state = .closed ∧ v.handle d'.priv = none ∧
      ∀ h, v.handle d.priv = some h → h ∉ d'.openHandles
  start_spec : ∀ d o,
    let d' := (v.startDevice d o).1
    (d'.state = d.state ∨ d.state = .opened ∧ d'.state = .active) ∧
      v.handle d'.priv = v.handle d.priv ∧ d'.openHandles = d.openHandles ∧ d'.next = d.next
  stop_spec : ∀ d o,
    let d' := (v.stopDevice d o).1
    d'.state = (if stops d.priv o then .opened else d.state) ∧
      v.handle d'.priv = v.handle d.priv ∧ d'.openHandles = d.openHandles ∧ d'.next = d.next

namespace LawfulVtable

variable {P O : Type*} {v : Vtable P O} (hv : LawfulVtable v)

/-- An `open` that assigns the handle is called on a closed device only, and a `stop`
that assigns the state is not. -/
def InOrder (d : HalDevice P) : LifecycleCall O → Prop
  | .openDevice o => hv.opens o = true → d.state = .closed
  | .stopDevice o => hv.stops d.priv o = true → d.state ≠ .closed
  | _ => True

structure Tidy (v : Vtable P O) (d : HalDevice P) : Prop where
  state_ne : d.state ≠ .error
  holds : v.HoldsHandle d
  held : ∀ h, v.handle d.priv = some h → h ∈ d.openHandles ∧ h < d.next

variable {hv} {d : HalDevice P}

theorem Tidy.handle_eq_none (h : Tidy v d) (hclosed : d.state = .closed) :
    v.handle d.priv = none := by
  have hholds := h.holds
  rw [Vtable.HoldsHandle, hclosed] at hholds
  simpa using hholds

/-- A call that leaves the handle alone and a state that fits keep the device tidy. -/
theorem Tidy.congr (h : Tidy v d) {d' : HalDevice P} (hne : d'.state ≠ .error)
    (hstate : d'.state = .closed ↔ d.state = .closed)
    (hframe : v.handle d'.priv = v.handle d.priv ∧ d'.openHandles = d.openHandles ∧
      d'.next = d.next) : Tidy v d' := by
  obtain ⟨hhandle, hopen, hnext⟩ := hframe
  refine ⟨hne, ?_, ?_⟩
  · rw [Vtable.HoldsHandle, hhandle, Ne, hstate]
    exact h.holds
  · intro x hx
    rw [hopen, hnext]
    exact h.held x (hhandle ▸ hx)

theorem Tidy.congr_of_state_eq (h : Tidy v d) {d' : HalDevice P} (hstate : d'.state = d.state)
    (hframe : v.handle d'.priv = v.handle d.priv ∧ d'.openHandles = d.openHandles ∧
      d'.next = d.next) : Tidy v d' :=
  h.congr (by rw [hstate]; exact h.state_ne) (by rw [hstate]) hframe

theorem tidy_of_none {d : HalDevice P} (hstate : d.state = .closed)
    (hhandle : v.handle d.priv = none) : Tidy v d := by
  refine ⟨by simp [hstate], ?_, by simp [hhandle]⟩
  simp [Vtable.HoldsHandle, hstate, hhandle]

theorem Tidy.step (h : Tidy v d) {call : LifecycleCall O} (hcall : hv.InOrder d call) :
    Tidy v (v.step d call) := by
  cases call with
  | openDevice o =>
      cases hopens : hv.opens o with
      | false => simpa only [Vtable.step, hv.open_of_not_opens d o hopens] using h
      | true =>
          rcases hv.open_of_opens d o hopens with
            ⟨hstate, hhandle, hnext, hmem⟩ | ⟨hstate, hhandle⟩
          · refine ⟨by simp [Vtable.step, hstate], ?_, ?_⟩
            · simp [Vtable.HoldsHandle, Vtable.step, hstate, hhandle]
            · intro x hx
              obtain rfl : d.next = x := Option.some.inj (hhandle.symm.trans hx)
              exact ⟨hmem, hnext⟩
          · exact tidy_of_none (hstate.trans (hcall hopens)) hhandle
  | closeDevice =>
      obtain ⟨hstate, hhandle, -⟩ := hv.close_spec d
      exact tidy_of_none hstate hhandle
  | startDevice o =>
      obtain ⟨hstate, hframe⟩ := hv.start_spec d o
      rcases hstate with hstate | ⟨hopened, hstate⟩
      · exact h.congr_of_state_eq hstate hframe
      · refine h.congr ?_ ?_ hframe
        · simp [Vtable.step, hstate]
        · simp [Vtable.step, hstate, hopened]
  | stopDevice o =>
      obtain ⟨hstate, hframe⟩ := hv.stop_spec d o
      by_cases hstops : hv.stops d.priv o = true
      · rw [if_pos hstops] at hstate
        refine h.congr ?_ ?_ hframe
        · simp [Vtable.step, hstate]
        · simp [Vtable.step, hstate, hcall hstops]
      · rw [if_neg hstops] at hstate
        exact h.congr_of_state_eq hstate hframe

theorem Tidy.movesValidly (h : Tidy v d) {call : LifecycleCall O} (hcall : hv.InOrder d call) :
    v.MovesValidly d call := by
  cases call with
  | openDevice o =>
      cases hopens : hv.opens o with
      | false => exact .inl (congrArg HalDevice.state (hv.open_of_not_opens d o hopens))
      | true =>
          rcases hv.open_of_opens d o hopens with ⟨hstate, -⟩ | ⟨hstate, -⟩
          · right
            simp only [Vtable.step, hstate, hcall hopens]
            exact .opening o
          · exact .inl hstate
  | closeDevice =>
      have hstate : (v.step d .closeDevice).state = .closed := (hv.close_spec d).1
      have hne := h.state_ne
      rw [Vtable.MovesValidly, hstate]
      cases hd : d.state with
      | closed => exact .inl rfl
      | opened => exact .inr .closing
      | active => exact .inr .closingActive
      | error => exact absurd hd hne
  | startDevice o =>
      rcases (hv.start_spec d o).1 with hstate | ⟨hopened, hstate⟩
      · exact .inl hstate
      · right
        simp only [Vtable.step, hstate, hopened]
        exact .starting o
  | stopDevice o =>
      have hstate := (hv.stop_spec d o).1
      by_cases hstops : hv.stops d.priv o = true
      · rw [if_pos hstops] at hstate
        have hopen := hcall hstops
        have hne := h.state_ne
        cases hd : d.state with
        | closed => exact absurd hd hopen
        | opened => exact .inl (hstate.trans hd.symm)
        | active =>
            right
            simp only [Vtable.step, hstate, hd]
            exact .stopping o
        | error => exact absurd hd hne
      · rw [if_neg hstops] at hstate
        exact .inl hstate

theorem Tidy.keepsHandle (h : Tidy v d) {call : LifecycleCall O} (hcall : hv.InOrder d call) :
    v.KeepsHandle d call := by
  intro x hx
  cases call with
  | openDevice o =>
      cases hopens : hv.opens o with
      | false =>
          left
          simpa only [Vtable.step, hv.open_of_not_opens d o hopens] using hx
      | true =>
          rw [h.handle_eq_none (hcall hopens)] at hx
          cases hx
  | closeDevice => exact .inr ((hv.close_spec d).2.2 x hx)
  | startDevice o => exact .inl ((hv.start_spec d o).2.1.trans hx)
  | stopDevice o => exact .inl ((hv.stop_spec d o).2.1.trans hx)

/-- An `open` that assigns the handle of a device that is not closed loses the one it
holds. -/
theorem Tidy.not_keepsHandle (h : Tidy v d) {o : O} (hopens : hv.opens o = true)
    (hstate : d.state ≠ .closed) : ¬v.KeepsHandle d (.openDevice o) := by
  obtain ⟨x, hx⟩ := Option.isSome_iff_exists.mp (h.holds.mpr hstate)
  obtain ⟨hmem, hlt⟩ := h.held x hx
  intro hkeeps
  rcases hkeeps x hx with hheld | hclosed
  · rcases hv.open_of_opens d o hopens with ⟨-, hhandle, -⟩ | ⟨-, hhandle⟩
    · obtain rfl : d.next = x := Option.some.inj (hhandle.symm.trans hheld)
      exact Nat.lt_irrefl _ hlt
    · exact absurd (hhandle.symm.trans hheld) (by simp)
  · exact hclosed (((hv.open_frame d o).2 x hlt).mpr hmem)

theorem Tidy.keepsLifecycle_iff (h : Tidy v d) (call : LifecycleCall O) :
    v.KeepsLifecycle d call ↔ hv.InOrder d call := by
  constructor
  · rintro ⟨hmoves, -, hkeeps⟩
    cases call with
    | openDevice o =>
        intro hopens
        by_contra hstate
        exact h.not_keepsHandle hopens hstate hkeeps
    | stopDevice o =>
        intro hstops hclosed
        have hstate := (hv.stop_spec d o).1
        rw [if_pos hstops] at hstate
        simp only [Vtable.MovesValidly, Vtable.step, hstate, hclosed] at hmoves
        rcases hmoves with hsame | hmove
        · cases hsame
        · cases hmove
    | closeDevice => trivial
    | startDevice o => trivial
  · intro hcall
    exact ⟨h.movesValidly hcall, (h.step hcall).holds, h.keepsHandle hcall⟩

theorem keepsLifecycle_run_iff (hv : LawfulVtable v) {priv : P} (hpriv : v.handle priv = none)
    (calls : List (LifecycleCall O)) :
    Guarded v.step v.KeepsLifecycle (.create priv) calls ↔
      Guarded v.step hv.InOrder (.create priv) calls :=
  guarded_congr_of_guarded (I := Tidy v) (fun _ _ hcall h => h.step hcall)
    (fun _ call h => h.keepsLifecycle_iff call) (tidy_of_none rfl hpriv)

end LawfulVtable

end Hal

end Shinigami
