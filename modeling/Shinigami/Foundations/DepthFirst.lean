import Mathlib.Data.List.Chain
import Mathlib.Logic.Function.Basic
import Mathlib.Logic.Relation

/-!
# Depth-first search for a cycle

`visit succ left v` searches the vertices that can be reached from `v`. The successors
of a vertex are a list, in the order of the search, and `left` is the number of calls
that may be nested; a search that would go deeper reports a cycle. The marks are the
vertices seen so far and those whose search is under way, and a successor that is under
way is a cycle.

A search that reports nothing leaves only vertices from which every path ends
(`search_acc`). In a graph without cycles the search reports nothing as long as no path
has more than `left` vertices (`search_of_short`), and it does report something when the
first successors alone make a longer path (`visit_of_deep`).
-/

namespace Shinigami

namespace DepthFirst

variable {V : Type*}

structure Marks (V : Type*) where
  visited : V → Bool
  stack : V → Bool

/-- Nothing has been seen. -/
def Marks.none : Marks V := ⟨fun _ => false, fun _ => false⟩

def Marks.enter [DecidableEq V] (m : Marks V) (v : V) : Marks V where
  visited := Function.update m.visited v true
  stack := Function.update m.stack v true

def Marks.leave [DecidableEq V] (m : Marks V) (v : V) : Marks V :=
  { m with stack := Function.update m.stack v false }

def visitEach (visit : V → Marks V → Marks V × Bool) :
    List V → Marks V → Marks V × Bool
  | [], m => (m, false)
  | w :: ws, m =>
      if m.visited w then
        if m.stack w then (m, true) else visitEach visit ws m
      else
        match visit w m with
        | (m', true) => (m', true)
        | (m', false) => visitEach visit ws m'

def visit [DecidableEq V] (succ : V → List V) : ℕ → V → Marks V → Marks V × Bool
  | 0, _, m => (m, true)
  | left + 1, v, m =>
      match visitEach (visit succ left) (succ v) (m.enter v) with
      | (m', true) => (m', true)
      | (m', false) => (m'.leave v, false)

def search [DecidableEq V] (succ : V → List V) (left : ℕ) : List V → Marks V → Bool
  | [], _ => false
  | v :: vs, m =>
      if m.visited v then search succ left vs m
      else
        match visit succ left v m with
        | (_, true) => true
        | (m', false) => search succ left vs m'

theorem visitEach_congr {f g : V → Marks V → Marks V × Bool} {ws : List V}
    (h : ∀ w ∈ ws, f w = g w) (m : Marks V) : visitEach f ws m = visitEach g ws m := by
  induction ws generalizing m with
  | nil => rfl
  | cons w ws ih =>
      obtain ⟨hw, hws⟩ := List.forall_mem_cons.mp h
      simp only [visitEach, hw, ih hws]

section Enter

variable [DecidableEq V] {m : Marks V} {v w : V}

@[simp] theorem enter_visited_self : (m.enter v).visited v = true :=
  Function.update_self ..

theorem enter_visited_of_ne (h : w ≠ v) : (m.enter v).visited w = m.visited w :=
  Function.update_of_ne h ..

@[simp] theorem enter_stack_self : (m.enter v).stack v = true :=
  Function.update_self ..

theorem enter_stack_of_ne (h : w ≠ v) : (m.enter v).stack w = m.stack w :=
  Function.update_of_ne h ..

theorem leave_stack_of_enter {m' : Marks V} (h : m'.stack = (m.enter v).stack)
    (hv : m.stack v = false) : (m'.leave v).stack = m.stack := by
  change Function.update m'.stack v false = m.stack
  rw [h]
  change Function.update (Function.update m.stack v true) v false = m.stack
  rw [Function.update_idem, ← hv, Function.update_eq_self]

end Enter

variable {succ : V → List V}

structure Sound (succ : V → List V) (m : Marks V) : Prop where
  visited : ∀ v, m.stack v = true → m.visited v = true
  finished : ∀ v, m.visited v = true → m.stack v = false → Acc (fun w v => w ∈ succ v) v

structure Returned (m m' : Marks V) : Prop where
  visited : ∀ v, m.visited v = true → m'.visited v = true
  stack : m'.stack = m.stack

theorem Returned.refl (m : Marks V) : Returned m m := ⟨fun _ h => h, rfl⟩

theorem Returned.trans {m m' m'' : Marks V} (h : Returned m m') (h' : Returned m' m'') :
    Returned m m'' :=
  ⟨fun v hv => h'.visited v (h.visited v hv), h'.stack.trans h.stack⟩

theorem sound_none : Sound succ (Marks.none : Marks V) :=
  ⟨nofun, nofun⟩

def VisitSound (succ : V → List V) (visit : V → Marks V → Marks V × Bool) : Prop :=
  ∀ w m m', Sound succ m → m.visited w = false → visit w m = (m', false) →
    Sound succ m' ∧ Returned m m' ∧ m'.visited w = true

theorem VisitSound.visitEach {visit : V → Marks V → Marks V × Bool}
    (hvisit : VisitSound succ visit) {ws : List V} {m m' : Marks V} (hm : Sound succ m)
    (h : visitEach visit ws m = (m', false)) :
    Sound succ m' ∧ Returned m m' ∧
      ∀ w ∈ ws, m'.visited w = true ∧ m'.stack w = false := by
  induction ws generalizing m with
  | nil =>
      cases h
      exact ⟨hm, .refl _, nofun⟩
  | cons w ws ih =>
      rw [DepthFirst.visitEach] at h
      split_ifs at h with hvisited hstack
      · cases h
      · obtain ⟨hm', hret, hws⟩ := ih hm h
        refine ⟨hm', hret, List.forall_mem_cons.mpr ⟨⟨hret.visited w hvisited, ?_⟩, hws⟩⟩
        rw [hret.stack]
        simpa using hstack
      · split at h
        · cases h
        · rename_i m₁ heq
          have hfresh : m.visited w = false := by simpa using hvisited
          obtain ⟨hm₁, hret₁, hw⟩ := hvisit w m m₁ hm hfresh heq
          obtain ⟨hm', hret, hws⟩ := ih hm₁ h
          refine ⟨hm', hret₁.trans hret,
            List.forall_mem_cons.mpr ⟨⟨hret.visited w hw, ?_⟩, hws⟩⟩
          rw [hret.stack, hret₁.stack, Bool.eq_false_iff]
          intro hstack
          exact absurd (hfresh.symm.trans (hm.visited w hstack)) nofun

theorem not_transGen_of_acc {v : V} (h : Acc (fun w v => w ∈ succ v) v) :
    ¬Relation.TransGen (fun v w => w ∈ succ v) v v := by
  induction h with
  | intro v _ ih =>
      intro hcycle
      obtain ⟨w, hvw, hwv⟩ := Relation.TransGen.head'_iff.mp hcycle
      exact ih w hvw (Relation.TransGen.tail' hwv hvw)

theorem nodup_of_isChain {r : V → V → Prop} (hacyclic : ∀ v, ¬Relation.TransGen r v v)
    {l : List V} (h : l.IsChain r) : l.Nodup := by
  have hpairwise : l.Pairwise (Relation.TransGen r) :=
    List.isChain_iff_pairwise.mp (h.imp fun _ _ hr => .single hr)
  refine hpairwise.imp fun {v w} hvw heq => ?_
  exact hacyclic v (by rwa [← heq] at hvw)

section Sound

variable [DecidableEq V]

theorem Sound.enter {m : Marks V} (h : Sound succ m) (v : V) : Sound succ (m.enter v) := by
  constructor
  · intro w hw
    by_cases hwv : w = v
    · rw [hwv, enter_visited_self]
    · rw [enter_stack_of_ne hwv] at hw
      rw [enter_visited_of_ne hwv]
      exact h.visited w hw
  · intro w hw hstack
    have hwv : w ≠ v := by
      rintro rfl
      rw [enter_stack_self] at hstack
      cases hstack
    rw [enter_visited_of_ne hwv] at hw
    rw [enter_stack_of_ne hwv] at hstack
    exact h.finished w hw hstack

/-- The search of a vertex is over when the searches of its successors are. -/
theorem Sound.leave {m m' : Marks V} {v : V} (hm : Sound succ m)
    (hfresh : m.visited v = false) (hm' : Sound succ m') (hret : Returned (m.enter v) m')
    (hsucc : ∀ w ∈ succ v, m'.visited w = true ∧ m'.stack w = false) :
    Sound succ (m'.leave v) ∧ Returned m (m'.leave v) ∧ (m'.leave v).visited v = true := by
  have hunder : m.stack v = false := by
    rw [Bool.eq_false_iff]
    intro hstack
    exact absurd (hfresh.symm.trans (hm.visited v hstack)) nofun
  have hstack := leave_stack_of_enter hret.stack hunder
  have hself : m'.visited v = true := hret.visited v enter_visited_self
  have hold : ∀ w, m.visited w = true → m'.visited w = true := by
    intro w hw
    apply hret.visited w
    by_cases hwv : w = v
    · rw [hwv, enter_visited_self]
    · rwa [enter_visited_of_ne hwv]
  refine ⟨⟨fun w hw => ?_, fun w hw hdone => ?_⟩, ⟨hold, hstack⟩, hself⟩
  · rw [hstack] at hw
    exact hold w (hm.visited w hw)
  · by_cases hwv : w = v
    · subst hwv
      exact ⟨w, fun u hu => hm'.finished u (hsucc u hu).1 (hsucc u hu).2⟩
    · apply hm'.finished w hw
      rw [hret.stack, enter_stack_of_ne hwv]
      rwa [hstack] at hdone

theorem visitSound_visit (left : ℕ) : VisitSound succ (visit succ left) := by
  induction left with
  | zero =>
      intro w m m' _ _ h
      cases h
  | succ left ih =>
      intro v m m' hm hfresh h
      rw [visit] at h
      split at h
      · cases h
      · rename_i m₁ heq
        cases h
        obtain ⟨hm₁, hret, hsucc⟩ := ih.visitEach (hm.enter v) heq
        exact hm.leave hfresh hm₁ hret hsucc

theorem search_acc {left : ℕ} {vs : List V} {m : Marks V} (hm : Sound succ m)
    (hstack : ∀ v, m.stack v = false) (h : search succ left vs m = false) :
    ∀ v ∈ vs, Acc (fun w v => w ∈ succ v) v := by
  induction vs generalizing m with
  | nil => exact nofun
  | cons v vs ih =>
      rw [search] at h
      split_ifs at h with hvisited
      · exact List.forall_mem_cons.mpr ⟨hm.finished v hvisited (hstack v), ih hm hstack h⟩
      · split at h
        · cases h
        · rename_i m' heq
          obtain ⟨hm', hret, hv⟩ := visitSound_visit left v m m' hm (by simpa using hvisited) heq
          have hstack' : ∀ w, m'.stack w = false := by
            rw [hret.stack]
            exact hstack
          exact List.forall_mem_cons.mpr ⟨hm'.finished v hv (hstack' v), ih hm' hstack' h⟩

end Sound

/-- No path from the vertex has more than `left` vertices. -/
def Short (succ : V → List V) (left : ℕ) (v : V) : Prop :=
  ∀ l, (v :: l).IsChain (fun v w => w ∈ succ v) → l.length < left

theorem Short.next {left : ℕ} {v w : V} (h : Short succ (left + 1) v) (hw : w ∈ succ v) :
    Short succ left w := by
  intro l hl
  have hlong := h (w :: l) (List.isChain_cons_cons.mpr ⟨hw, hl⟩)
  rw [List.length_cons] at hlong
  exact Nat.lt_of_succ_lt_succ hlong

section Acyclic

variable [DecidableEq V]
  (hacyclic : ∀ v, ¬Relation.TransGen (fun v w => w ∈ succ v) v v)
include hacyclic

theorem visit_of_short {left : ℕ} {v : V} {m : Marks V} (hshort : Short succ left v)
    (hstack : ∀ u, m.stack u = true → Relation.TransGen (fun v w => w ∈ succ v) u v) :
    ∃ m', visit succ left v m = (m', false) ∧ m'.stack = m.stack := by
  induction left generalizing v m with
  | zero => exact absurd (hshort [] (List.isChain_singleton v)) (Nat.not_lt_zero _)
  | succ left ih =>
      have heach : ∀ ws m₁, (∀ w ∈ ws, w ∈ succ v) → m₁.stack = (m.enter v).stack →
          ∃ m', visitEach (visit succ left) ws m₁ = (m', false) ∧
            m'.stack = (m.enter v).stack := by
        intro ws
        induction ws with
        | nil => exact fun m₁ _ hm₁ => ⟨m₁, rfl, hm₁⟩
        | cons w ws ihws =>
            intro m₁ hws hm₁
            have hw : w ∈ succ v := hws w List.mem_cons_self
            have hrest : ∀ w ∈ ws, w ∈ succ v := fun w h => hws w (List.mem_cons_of_mem _ h)
            have hleads : ∀ u, m₁.stack u = true →
                Relation.TransGen (fun v w => w ∈ succ v) u w := by
              intro u hu
              rw [hm₁] at hu
              by_cases huv : u = v
              · exact huv ▸ .single hw
              · rw [enter_stack_of_ne huv] at hu
                exact (hstack u hu).tail hw
            rw [visitEach]
            by_cases hvisited : m₁.visited w = true
            · have hunder : ¬m₁.stack w = true := fun h => hacyclic w (hleads w h)
              rw [if_pos hvisited, if_neg hunder]
              exact ihws m₁ hrest hm₁
            · obtain ⟨m₂, hvisit, hm₂⟩ := ih (hshort.next hw) hleads
              rw [if_neg hvisited, hvisit]
              exact ihws m₂ hrest (hm₂.trans hm₁)
      obtain ⟨m', hvisits, hm'⟩ := heach (succ v) (m.enter v) (fun _ h => h) rfl
      have hself : m.stack v = false := by
        rw [Bool.eq_false_iff]
        exact fun h => hacyclic v (hstack v h)
      refine ⟨m'.leave v, ?_, leave_stack_of_enter hm' hself⟩
      rw [visit, hvisits]

/-- In a graph without cycles nothing is reported when all paths are short. -/
theorem search_of_short {left : ℕ} {vs : List V} {m : Marks V}
    (hshort : ∀ v ∈ vs, Short succ left v) (hstack : ∀ v, m.stack v = false) :
    search succ left vs m = false := by
  induction vs generalizing m with
  | nil => rfl
  | cons v vs ih =>
      obtain ⟨hv, hvs⟩ := List.forall_mem_cons.mp hshort
      rw [search]
      by_cases hvisited : m.visited v = true
      · rw [if_pos hvisited]
        exact ih hvs hstack
      · have hleads : ∀ u, m.stack u = true →
            Relation.TransGen (fun v w => w ∈ succ v) u v := by
          intro u hu
          exact absurd ((hstack u).symm.trans hu) nofun
        obtain ⟨m', hvisit, hm'⟩ := visit_of_short hacyclic hv hleads
        rw [if_neg hvisited, hvisit]
        exact ih hvs (hm' ▸ hstack)

end Acyclic

/-- The search follows the first successors, and there are too many of them. -/
theorem visit_of_deep [DecidableEq V] {left : ℕ} {v : V} {l : List V} {m : Marks V}
    (hfirst : (v :: l).IsChain fun v w => (succ v).head? = some w)
    (hnodup : (v :: l).Nodup) (hfresh : ∀ w ∈ l, m.visited w = false)
    (hdeep : left ≤ l.length) : (visit succ left v m).2 = true := by
  induction left generalizing v l m with
  | zero => rfl
  | succ left ih =>
      cases l with
      | nil => exact absurd hdeep (Nat.not_succ_le_zero _)
      | cons w l =>
          obtain ⟨hw, hchain⟩ := List.isChain_cons_cons.mp hfirst
          obtain ⟨hv, hnodup'⟩ := List.nodup_cons.mp hnodup
          have hne : ∀ u ∈ w :: l, u ≠ v := fun u hu heq => hv (heq ▸ hu)
          have hunseen : ∀ u ∈ w :: l, (m.enter v).visited u = false := by
            intro u hu
            rw [enter_visited_of_ne (hne u hu)]
            exact hfresh u hu
          have hreport := ih (m := m.enter v) hchain hnodup'
            (fun u hu => hunseen u (List.mem_cons_of_mem _ hu)) (Nat.le_of_succ_le_succ hdeep)
          obtain ⟨ws, hws⟩ : ∃ ws, succ v = w :: ws := by
            cases hsucc : succ v with
            | nil => simp [hsucc] at hw
            | cons w' ws =>
                rw [hsucc, List.head?_cons, Option.some.injEq] at hw
                exact ⟨ws, by rw [hw]⟩
          have heach : (visitEach (visit succ left) (succ v) (m.enter v)).2 = true := by
            rw [hws, visitEach, hunseen w List.mem_cons_self, if_neg Bool.false_ne_true]
            split
            · rfl
            · rename_i m' heq
              rw [heq] at hreport
              cases hreport
          rw [visit]
          split
          · rfl
          · rename_i m' heq
            rw [heq] at heach
            cases heach

end DepthFirst

end Shinigami
