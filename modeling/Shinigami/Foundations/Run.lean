import Mathlib.Data.List.Basic

/-!
# Runs of a step function

A system is a step function `σ → ε → σ`, and `run step s evs` is the state after
the events `evs` in order. Everything said about whole runs comes from one of
the rules below: `run_invariant` carries a state invariant along the events that
satisfy a side condition, `run_invariant_of_guarded` does so when the side
condition reads the state an event meets, and `run_append` splits a run at any
moment, so that the state in front of an event is again the end of a run.
`runTrace` lists what the events of a run give out, each in the state it meets, and
`Stamped.runTrace_eq_iff` compares two such lists event by event.
-/

namespace Shinigami

/-- The state after the events `evs`, one after the other. -/
def run {σ ε : Type*} (step : σ → ε → σ) (s : σ) (evs : List ε) : σ :=
  evs.foldl step s

section Run

variable {σ ε : Type*} {step : σ → ε → σ}

@[simp] theorem run_nil (s : σ) : run step s [] = s := rfl

@[simp] theorem run_cons (s : σ) (ev : ε) (evs : List ε) :
    run step s (ev :: evs) = run step (step s ev) evs := rfl

theorem run_append (s : σ) (evs evs' : List ε) :
    run step s (evs ++ evs') = run step (run step s evs) evs' :=
  List.foldl_append

theorem run_concat (s : σ) (evs : List ε) (ev : ε) :
    run step s (evs ++ [ev]) = step (run step s evs) ev := by
  rw [run_append, run_cons, run_nil]

/-- Every event of the run satisfies the guard in the state it meets. -/
def Guarded (step : σ → ε → σ) (guard : σ → ε → Prop) : σ → List ε → Prop
  | _, [] => True
  | s, ev :: evs => guard s ev ∧ Guarded step guard (step s ev) evs

instance decidableGuarded {guard : σ → ε → Prop} [∀ s ev, Decidable (guard s ev)] :
    ∀ s evs, Decidable (Guarded step guard s evs)
  | _, [] => .isTrue trivial
  | s, ev :: evs =>
      @instDecidableAnd _ _ (inferInstance : Decidable (guard s ev))
        (decidableGuarded (step s ev) evs)

/-- The invariant rule: what a guarded step keeps holds at the end of every
guarded run. -/
theorem run_invariant_of_guarded {I : σ → Prop} {guard : σ → ε → Prop}
    (hstep : ∀ s ev, guard s ev → I s → I (step s ev)) {s : σ} (hs : I s)
    {evs : List ε} (hevs : Guarded step guard s evs) : I (run step s evs) := by
  induction evs generalizing s with
  | nil => exact hs
  | cons ev evs ih =>
      rw [run_cons]
      exact ih (hstep s ev hevs.1 hs) hevs.2

theorem guarded_append {guard : σ → ε → Prop} {s : σ} {evs evs' : List ε} :
    Guarded step guard s (evs ++ evs') ↔
      Guarded step guard s evs ∧ Guarded step guard (run step s evs) evs' := by
  induction evs generalizing s with
  | nil => simp [Guarded]
  | cons ev evs ih => simp [Guarded, ih, and_assoc]

theorem Guarded.and {guard guard' : σ → ε → Prop} {s : σ} {evs : List ε}
    (h : Guarded step guard s evs) (h' : Guarded step guard' s evs) :
    Guarded step (fun s ev => guard s ev ∧ guard' s ev) s evs := by
  induction evs generalizing s with
  | nil => trivial
  | cons ev evs ih => exact ⟨⟨h.1, h'.1⟩, ih h.2 h'.2⟩

theorem guarded_of_forall {P : ε → Prop} {evs : List ε} (s : σ)
    (hevs : ∀ ev ∈ evs, P ev) : Guarded step (fun _ => P) s evs := by
  induction evs generalizing s with
  | nil => trivial
  | cons ev evs ih =>
      exact ⟨hevs ev (by simp), ih (step s ev) fun ev' h' => hevs ev' (by simp [h'])⟩

/-- What every guarded step meets where the invariant holds, a guarded run meets all
along. -/
theorem Guarded.of_invariant {I : σ → Prop} {guard guard' : σ → ε → Prop}
    (hstep : ∀ s ev, guard s ev → I s → I (step s ev))
    (hmeets : ∀ s ev, guard s ev → I s → guard' s ev) {s : σ} (hs : I s) {evs : List ε}
    (hevs : Guarded step guard s evs) : Guarded step guard' s evs := by
  induction evs generalizing s with
  | nil => trivial
  | cons ev evs ih =>
      exact ⟨hmeets s ev hevs.1 hs, ih (hstep s ev hevs.1 hs) hevs.2⟩

theorem guarded_congr {I : σ → Prop} {P : ε → Prop} {guard guard' : σ → ε → Prop}
    (hstep : ∀ s ev, P ev → I s → I (step s ev))
    (hguard : ∀ s ev, P ev → I s → (guard s ev ↔ guard' s ev)) {s : σ} (hs : I s)
    {evs : List ε} (hevs : ∀ ev ∈ evs, P ev) :
    Guarded step guard s evs ↔ Guarded step guard' s evs := by
  induction evs generalizing s with
  | nil => exact Iff.rfl
  | cons ev evs ih =>
      have hev : P ev := hevs ev (by simp)
      exact and_congr (hguard s ev hev hs)
        (ih (hstep s ev hev hs) fun ev' h' => hevs ev' (by simp [h']))

/-- Guards that agree where the invariant holds guard the same runs, also when it takes
one of them to keep the invariant. -/
theorem guarded_congr_of_guarded {I : σ → Prop} {guard guard' : σ → ε → Prop}
    (hstep : ∀ s ev, guard' s ev → I s → I (step s ev))
    (hguard : ∀ s ev, I s → (guard s ev ↔ guard' s ev)) {s : σ} (hs : I s) {evs : List ε} :
    Guarded step guard s evs ↔ Guarded step guard' s evs := by
  induction evs generalizing s with
  | nil => exact Iff.rfl
  | cons ev evs ih =>
      constructor
      · rintro ⟨hev, hevs⟩
        have hev' := (hguard s ev hs).mp hev
        exact ⟨hev', (ih (hstep s ev hev' hs)).mp hevs⟩
      · rintro ⟨hev', hevs⟩
        exact ⟨(hguard s ev hs).mpr hev', (ih (hstep s ev hev' hs)).mpr hevs⟩

theorem guarded_iff_forall_split {guard : σ → ε → Prop} {s : σ} {evs : List ε} :
    Guarded step guard s evs ↔
      ∀ before ev after, evs = before ++ ev :: after → guard (run step s before) ev := by
  constructor
  · rintro h before ev after rfl
    exact (guarded_append.mp h).2.1
  · intro h
    induction evs generalizing s with
    | nil => trivial
    | cons ev evs ih =>
        refine ⟨h [] ev evs rfl, ih fun before ev' after hsplit => ?_⟩
        have hmoment := h (ev :: before) ev' after (by rw [hsplit, List.cons_append])
        rwa [run_cons] at hmoment

theorem exists_first_unguarded {I : σ → Prop} {guard : σ → ε → Prop}
    (hstep : ∀ s ev, guard s ev → I s → I (step s ev)) {s : σ} (hs : I s) {evs : List ε}
    (hevs : ¬Guarded step guard s evs) :
    ∃ before ev, before ++ [ev] <+: evs ∧ I (run step s before) ∧
      ¬guard (run step s before) ev := by
  induction evs generalizing s with
  | nil => exact absurd trivial hevs
  | cons ev evs ih =>
      by_cases hguard : guard s ev
      · obtain ⟨before, ev', hkept, hinv, hnot⟩ :=
          ih (hstep s ev hguard hs) fun hrest => hevs ⟨hguard, hrest⟩
        refine ⟨ev :: before, ev', ?_, hinv, hnot⟩
        rw [List.cons_append]
        exact List.cons_prefix_cons.mpr ⟨rfl, hkept⟩
      · exact ⟨[], ev, List.cons_prefix_cons.mpr ⟨rfl, List.nil_prefix⟩, hs, hguard⟩

/-- When the guard of a step says exactly whether the step keeps `I`, then `I`
holds all along a run exactly when the run is guarded. `J` is what may be used of
the states on the way, and `P` what is assumed of the events. -/
theorem forall_prefix_iff_guarded {I J : σ → Prop} {P : ε → Prop} {guard : σ → ε → Prop}
    (hkeep : ∀ s ev, P ev → J s → I s → guard s ev → J (step s ev))
    (hstep : ∀ s ev, P ev → J s → I s → (I (step s ev) ↔ guard s ev)) {s : σ} (hJ : J s)
    (hI : I s) {evs : List ε} (hevs : ∀ ev ∈ evs, P ev) :
    (∀ before, before <+: evs → I (run step s before)) ↔ Guarded step guard s evs := by
  induction evs generalizing s with
  | nil => simpa [Guarded] using hI
  | cons ev evs ih =>
      have hev : P ev := hevs ev (by simp)
      have hrest : ∀ ev' ∈ evs, P ev' := fun ev' h' => hevs ev' (by simp [h'])
      constructor
      · intro h
        have hnext : I (step s ev) := h [ev] (by simp)
        have hguard := (hstep s ev hev hJ hI).mp hnext
        refine ⟨hguard, (ih (hkeep s ev hev hJ hI hguard) hnext hrest).mp ?_⟩
        intro before hbefore
        exact h (ev :: before) (List.cons_prefix_cons.mpr ⟨rfl, hbefore⟩)
      · rintro ⟨hguard, hguarded⟩ before hbefore
        have hnext := (hstep s ev hev hJ hI).mpr hguard
        cases before with
        | nil => exact hI
        | cons ev' before =>
            obtain ⟨rfl, htail⟩ := List.cons_prefix_cons.mp hbefore
            exact (ih (hkeep s ev' hev hJ hI hguard) hnext hrest).mpr hguarded before htail

theorem run_invariant {I : σ → Prop} {P : ε → Prop}
    (hstep : ∀ s ev, P ev → I s → I (step s ev)) {s : σ} (hs : I s)
    {evs : List ε} (hevs : ∀ ev ∈ evs, P ev) : I (run step s evs) :=
  run_invariant_of_guarded hstep hs (guarded_of_forall s hevs)

/-- What the events give out, in order. -/
def runTrace {τ : Type*} (step : σ → ε → σ) (out : σ → ε → Option τ) : σ → List ε → List τ
  | _, [] => []
  | s, ev :: evs => (out s ev).toList ++ runTrace step out (step s ev) evs

section Trace

variable {τ : Type*} {out : σ → ε → Option τ}

theorem runTrace_append (s : σ) (evs evs' : List ε) :
    runTrace step out s (evs ++ evs') =
      runTrace step out s evs ++ runTrace step out (run step s evs) evs' := by
  induction evs generalizing s with
  | nil => rfl
  | cons ev evs ih => simp [runTrace, ih]

theorem runTrace_concat (s : σ) (evs : List ε) (ev : ε) :
    runTrace step out s (evs ++ [ev]) =
      runTrace step out s evs ++ (out (run step s evs) ev).toList := by
  rw [runTrace_append, runTrace, runTrace, List.append_nil]

theorem exists_of_mem_runTrace {s : σ} {evs : List ε} {x : τ}
    (h : x ∈ runTrace step out s evs) : ∃ s', ∃ ev ∈ evs, out s' ev = some x := by
  induction evs generalizing s with
  | nil => simp [runTrace] at h
  | cons ev evs ih =>
      rw [runTrace, List.mem_append, Option.mem_toList] at h
      rcases h with h | h
      · exact ⟨s, ev, by simp, h⟩
      · obtain ⟨s', ev', hmem, hout⟩ := ih h
        exact ⟨s', ev', by simp [hmem], hout⟩

def Stamped (step : σ → ε → σ) (clock : σ → ℕ) (stamp : τ → ℕ) (out : σ → ε → Option τ) :
    Prop :=
  ∀ s ev x, out s ev = some x → stamp x = clock s ∧ clock s < clock (step s ev)

section Stamped

variable {out' : σ → ε → Option τ} {clock : σ → ℕ} {stamp : τ → ℕ}

theorem Stamped.clock_le_stamp (hclock : ∀ s ev, clock s ≤ clock (step s ev))
    (hout : Stamped step clock stamp out) {s : σ} {evs : List ε} {x : τ}
    (hx : x ∈ runTrace step out s evs) : clock s ≤ stamp x := by
  induction evs generalizing s with
  | nil => cases hx
  | cons ev evs ih =>
      rw [runTrace, List.mem_append, Option.mem_toList] at hx
      rcases hx with hx | hx
      · exact Nat.le_of_eq (hout s ev x hx).1.symm
      · exact Nat.le_trans (hclock s ev) (ih hx)

theorem Stamped.runTrace_cons_ne (hclock : ∀ s ev, clock s ≤ clock (step s ev))
    (hout : Stamped step clock stamp out) (hout' : Stamped step clock stamp out')
    {s : σ} {ev : ε} {evs : List ε} {x : τ} (hx : out s ev = some x)
    (hnone : out' s ev = none) :
    runTrace step out s (ev :: evs) ≠ runTrace step out' s (ev :: evs) := by
  intro heq
  have hmem : x ∈ runTrace step out' (step s ev) evs := by
    rw [runTrace, runTrace, hx, hnone, Option.toList_none, List.nil_append] at heq
    rw [← heq]
    simp
  obtain ⟨hstamp, hlt⟩ := hout s ev x hx
  have hle := hout'.clock_le_stamp hclock hmem
  omega

/-- Two stamped traces of a run agree exactly when its events give out the same. -/
theorem Stamped.runTrace_eq_iff (hclock : ∀ s ev, clock s ≤ clock (step s ev))
    (hout : Stamped step clock stamp out) (hout' : Stamped step clock stamp out')
    {s : σ} {evs : List ε} :
    runTrace step out s evs = runTrace step out' s evs ↔
      Guarded step (fun s ev => out s ev = out' s ev) s evs := by
  induction evs generalizing s with
  | nil => simp [runTrace, Guarded]
  | cons ev evs ih =>
      refine Iff.trans ?_ (and_congr_right fun _ => ih)
      cases hx : out s ev with
      | none =>
          cases hx' : out' s ev with
          | none => simp [runTrace, hx, hx']
          | some x' =>
              refine iff_of_false (fun heq => ?_) ?_
              · exact hout'.runTrace_cons_ne hclock hout hx' hx heq.symm
              · rintro ⟨hsame, -⟩
                simp [hx, hx'] at hsame
      | some x =>
          cases hx' : out' s ev with
          | none =>
              apply iff_of_false (hout.runTrace_cons_ne hclock hout' hx hx')
              rintro ⟨hsame, -⟩
              simp [hx, hx'] at hsame
          | some x' => simp [runTrace, hx, hx']

end Stamped

end Trace

end Run

end Shinigami
