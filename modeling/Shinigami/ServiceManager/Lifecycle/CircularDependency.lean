import Shinigami.Foundations.DepthFirst
import Shinigami.ServiceManager.Lifecycle.StartupOrder

/-!
# Circular dependencies

`sm_deps_detect_circular` searches the dependency table depth first, by name, and takes
a search that nests too many calls for a cycle. Names being different, the search is
the one of `DepthFirst` on the positions of the table (`hasCircularVisit_eq`). So it
misses no cycle, and on a table without cycles it reports one only when some chain of
dependencies is longer than the nesting allows.

How deep a search goes depends on the order of the table and of the dependency lists:
`Reordered` tables have the same services and dependencies in any other order.
-/

namespace Shinigami

namespace ServiceManager

open CString DepthFirst

def maxRecursionDepth : ℕ := 10

def ServiceDeps.zero : ServiceDeps := ⟨[], []⟩

/-- The loop that looks a service up by its name. -/
def findService (deps : List ServiceDeps) (name : List UInt8) : Option ℕ :=
  deps.findIdx? fun d => strcmpEq d.serviceName name

def visitDependencies (deps : List ServiceDeps)
    (visit : List UInt8 → Marks ℕ → Marks ℕ × Bool) :
    List (List UInt8) → Marks ℕ → Marks ℕ × Bool
  | [], m => (m, false)
  | dep :: dependsOn, m =>
      match findService deps dep with
      | none => visitDependencies deps visit dependsOn m
      | some k =>
          if !m.visited k then
            match visit (deps.getD k .zero).serviceName m with
            | (m', true) => (m', true)
            | (m', false) => visitDependencies deps visit dependsOn m'
          else if m.stack k then (m, true)
          else visitDependencies deps visit dependsOn m

/-- `has_circular_visit`, with `left = MAX_RECURSION_DEPTH + 1 - depth`; the arrays
`visited` and `rec_stack` are the marks. -/
def hasCircularVisit (deps : List ServiceDeps) :
    ℕ → List UInt8 → Marks ℕ → Marks ℕ × Bool
  | 0, _, m => (m, true)
  | left + 1, name, m =>
      match findService deps name with
      | none => (m, false)
      | some i =>
          match visitDependencies deps (hasCircularVisit deps left)
              (deps.getD i .zero).dependsOn (m.enter i) with
          | (m', true) => (m', true)
          | (m', false) => (m'.leave i, false)

/-- The loop of `sm_deps_detect_circular`. -/
def detectFrom (deps : List ServiceDeps) : List ℕ → Marks ℕ → Bool
  | [], _ => false
  | i :: rest, m =>
      if !m.visited i then
        match hasCircularVisit deps (maxRecursionDepth + 1) (deps.getD i .zero).serviceName
            m with
        | (_, true) => true
        | (m', false) => detectFrom deps rest m'
      else detectFrom deps rest m

def smDepsDetectCircular (deps : List ServiceDeps) : ℤ :=
  if detectFrom deps (List.range deps.length) .none then 1 else 0

/-- The name of a registration fits the field of the table. -/
def DepsCall.NameFits (c : DepsCall) : Prop :=
  ∀ name, c.name = some name → (cstr name).length < depsNameSize

instance (c : DepsCall) : Decidable c.NameFits :=
  match h : c.name with
  | none => .isTrue fun _ hname => absurd (h.symm.trans hname) nofun
  | some name =>
      decidable_of_iff ((cstr name).length < depsNameSize)
        ⟨fun hlt _ hname => Option.some.inj (h.symm.trans hname) ▸ hlt,
          fun hall => hall name h⟩

def DistinctNames (deps : List ServiceDeps) : Prop :=
  deps.Pairwise fun d d' => cstr d.serviceName ≠ cstr d'.serviceName

theorem distinctNames_depsTable {calls : List DepsCall} (hfits : ∀ c ∈ calls, c.NameFits) :
    DistinctNames (depsTable calls) := by
  refine run_invariant (P := DepsCall.NameFits) (fun deps c hc h => ?_) .nil hfits
  rcases depsStep_cases deps c with heq | ⟨name, dependencies, hname, hnew, -, heq⟩
  · rwa [heq]
  · rw [heq]
    refine List.pairwise_append.mpr ⟨h, List.pairwise_singleton _ _, fun d hd d' hd' => ?_⟩
    have hwhole : cstr (strncpyField depsNameSize name) = cstr name := by
      rw [cstr_strncpyField]
      exact List.take_of_length_le (Nat.le_sub_one_of_lt (hc name hname))
    rw [List.mem_singleton.mp hd', hwhole]
    exact hnew d hd

section Names

variable {deps : List ServiceDeps} {name : List UInt8} {i k : ℕ}

theorem DistinctNames.getElem_inj (h : DistinctNames deps) (hi : i < deps.length)
    (hk : k < deps.length) (heq : cstr deps[i].serviceName = cstr deps[k].serviceName) :
    i = k := by
  have hnodup : (deps.map fun d => cstr d.serviceName).Nodup := List.pairwise_map.mpr h
  have hi' : i < (deps.map fun d => cstr d.serviceName).length := by simpa using hi
  have hk' : k < (deps.map fun d => cstr d.serviceName).length := by simpa using hk
  have heq' : (deps.map fun d => cstr d.serviceName)[i] =
      (deps.map fun d => cstr d.serviceName)[k] := by simpa using heq
  exact hnodup.getElem_inj_iff.mp heq'

theorem findService_name (h : findService deps name = some k) :
    ∃ hk : k < deps.length, cstr deps[k].serviceName = cstr name := by
  obtain ⟨hk, hname, -⟩ := List.findIdx?_eq_some_iff_getElem.mp h
  exact ⟨hk, strcmpEq_iff.mp hname⟩

theorem DistinctNames.findService_eq_some_iff (h : DistinctNames deps) :
    findService deps name = some k ↔
      ∃ hk : k < deps.length, cstr deps[k].serviceName = cstr name := by
  refine ⟨findService_name, ?_⟩
  rintro ⟨hk, hname⟩
  refine List.findIdx?_eq_some_iff_getElem.mpr ⟨hk, strcmpEq_iff.mpr hname, fun j hj hfound => ?_⟩
  have heq := h.getElem_inj (hj.trans hk) hk ((strcmpEq_iff.mp hfound).trans hname.symm)
  exact absurd heq (Nat.ne_of_lt hj)

theorem findService_serviceName (h : findService deps name = some k) :
    findService deps (deps.getD k .zero).serviceName = some k := by
  obtain ⟨hk, hname⟩ := findService_name h
  have hsame : ∀ d : ServiceDeps, strcmpEq d.serviceName (deps.getD k .zero).serviceName =
      strcmpEq d.serviceName name := by
    intro d
    rw [List.getD_eq_getElem _ _ hk, strcmpEq, strcmpEq, hname]
  rw [← h, findService]
  simp only [hsame]
  rfl

end Names

def dependencyIndices (deps : List ServiceDeps) (i : ℕ) : List ℕ :=
  (deps.getD i .zero).dependsOn.filterMap (findService deps)

section Search

variable {deps : List ServiceDeps}

theorem visitDependencies_eq (visit : List UInt8 → Marks ℕ → Marks ℕ × Bool)
    (dependsOn : List (List UInt8)) (m : Marks ℕ) :
    visitDependencies deps visit dependsOn m =
      visitEach (fun k => visit (deps.getD k .zero).serviceName)
        (dependsOn.filterMap (findService deps)) m := by
  induction dependsOn generalizing m with
  | nil => rfl
  | cons dep dependsOn ih =>
      rw [visitDependencies]
      cases hfound : findService deps dep with
      | none =>
          rw [List.filterMap_cons_none hfound]
          exact ih m
      | some k =>
          rw [List.filterMap_cons_some hfound, visitEach]
          by_cases hvisited : m.visited k = true
          · simp [hvisited, ih]
          · simp only [hvisited, Bool.not_false, if_true, Bool.false_eq_true, if_false]
            obtain ⟨m', _ | _⟩ := visit (deps.getD k .zero).serviceName m
            · exact ih m'
            · rfl

theorem hasCircularVisit_eq {name : List UInt8} {i : ℕ}
    (hname : findService deps name = some i) (left : ℕ) (m : Marks ℕ) :
    hasCircularVisit deps left name m = visit (dependencyIndices deps) left i m := by
  induction left generalizing name i m with
  | zero => rfl
  | succ left ih =>
      have heach : ∀ m, visitDependencies deps (hasCircularVisit deps left)
          (deps.getD i .zero).dependsOn m =
          visitEach (visit (dependencyIndices deps) left) (dependencyIndices deps i) m := by
        intro m
        rw [visitDependencies_eq]
        refine visitEach_congr (fun k hk => ?_) m
        obtain ⟨dep, -, hdep⟩ := List.mem_filterMap.mp hk
        funext m
        exact ih (findService_serviceName hdep) m
      rw [hasCircularVisit, hname, visit]
      simp only [heach]
      obtain ⟨m', _ | _⟩ := visitEach (visit (dependencyIndices deps) left)
        (dependencyIndices deps i) (m.enter i)
      · rfl
      · rfl

theorem DistinctNames.detectFrom_eq (h : DistinctNames deps) {is : List ℕ}
    (his : ∀ i ∈ is, i < deps.length) (m : Marks ℕ) :
    detectFrom deps is m = search (dependencyIndices deps) (maxRecursionDepth + 1) is m := by
  induction is generalizing m with
  | nil => rfl
  | cons i is ih =>
      obtain ⟨hi, his⟩ := List.forall_mem_cons.mp his
      have hname : findService deps (deps.getD i .zero).serviceName = some i :=
        h.findService_eq_some_iff.mpr ⟨hi, by rw [List.getD_eq_getElem _ _ hi]⟩
      rw [detectFrom, search, hasCircularVisit_eq hname]
      by_cases hvisited : m.visited i = true
      · simp [hvisited, ih his]
      · simp only [hvisited, Bool.not_false, if_true, Bool.false_eq_true, if_false]
        obtain ⟨m', _ | _⟩ := visit (dependencyIndices deps) (maxRecursionDepth + 1) i m
        · exact ih his m'
        · rfl

theorem DistinctNames.detectCircular_eq_zero_iff (h : DistinctNames deps) :
    smDepsDetectCircular deps = 0 ↔
      search (dependencyIndices deps) (maxRecursionDepth + 1) (List.range deps.length)
        .none = false := by
  rw [smDepsDetectCircular, h.detectFrom_eq fun i hi => List.mem_range.mp hi]
  split_ifs with hfound
  · simp [hfound]
  · simpa using hfound

end Search

section Positions

variable {deps : List ServiceDeps}

theorem dependsOn_of_mem {i k : ℕ} (h : k ∈ dependencyIndices deps i) :
    DependsOn deps (deps.getD i .zero) (deps.getD k .zero) := by
  obtain ⟨dep, hdep, hfound⟩ := List.mem_filterMap.mp h
  obtain ⟨hk, hname⟩ := findService_name hfound
  have hi : i < deps.length := by
    by_contra hi
    rw [List.getD_eq_default _ _ (Nat.not_lt.mp hi)] at hdep
    cases hdep
  rw [List.getD_eq_getElem _ _ hi] at hdep ⊢
  rw [List.getD_eq_getElem _ _ hk]
  exact ⟨List.getElem_mem hi, List.getElem_mem hk, dep, hdep, hname⟩

def position (deps : List ServiceDeps) (d : ServiceDeps) : ℕ :=
  (findService deps d.serviceName).getD 0

theorem DistinctNames.position_getElem (h : DistinctNames deps) {i : ℕ}
    (hi : i < deps.length) : position deps deps[i] = i := by
  rw [position, h.findService_eq_some_iff.mpr ⟨hi, rfl⟩, Option.getD_some]

theorem DistinctNames.getD_position (h : DistinctNames deps) {d : ServiceDeps}
    (hd : d ∈ deps) : deps.getD (position deps d) .zero = d := by
  obtain ⟨i, hi, rfl⟩ := List.mem_iff_getElem.mp hd
  rw [h.position_getElem hi, List.getD_eq_getElem _ _ hi]

theorem DistinctNames.position_lt (h : DistinctNames deps) {d : ServiceDeps}
    (hd : d ∈ deps) : position deps d < deps.length := by
  obtain ⟨i, hi, rfl⟩ := List.mem_iff_getElem.mp hd
  rwa [h.position_getElem hi]

/-- A dependency with the name of a service is found at the position of the service. -/
theorem DistinctNames.findService_eq_position (h : DistinctNames deps) {d : ServiceDeps}
    (hd : d ∈ deps) {dep : List UInt8} (hname : cstr d.serviceName = cstr dep) :
    findService deps dep = some (position deps d) := by
  obtain ⟨i, hi, rfl⟩ := List.mem_iff_getElem.mp hd
  rw [h.position_getElem hi]
  exact h.findService_eq_some_iff.mpr ⟨hi, hname⟩

theorem DistinctNames.mem_dependencyIndices (h : DistinctNames deps) {d d' : ServiceDeps}
    (hdep : DependsOn deps d d') :
    position deps d' ∈ dependencyIndices deps (position deps d) := by
  obtain ⟨hd, hd', dep, hmem, hname⟩ := hdep
  rw [dependencyIndices, h.getD_position hd]
  exact List.mem_filterMap.mpr ⟨dep, hmem, h.findService_eq_position hd' hname⟩

theorem DistinctNames.acyclic (h : DistinctNames deps)
    (hacyclic : ∀ i < deps.length,
      ¬Relation.TransGen (fun i k => k ∈ dependencyIndices deps i) i i) : Acyclic deps := by
  intro d hd hcycle
  apply hacyclic (position deps d) (h.position_lt hd)
  exact hcycle.lift (position deps) fun _ _ hdep => h.mem_dependencyIndices hdep

theorem Acyclic.dependencyIndices (h : Acyclic deps) (i : ℕ) :
    ¬Relation.TransGen (fun i k => k ∈ dependencyIndices deps i) i i := by
  intro hcycle
  obtain ⟨k, hk, -⟩ := Relation.TransGen.head'_iff.mp hcycle
  apply h (deps.getD i .zero) (dependsOn_of_mem hk).1
  exact hcycle.lift (fun i => deps.getD i .zero) fun _ _ hdep => dependsOn_of_mem hdep

end Positions

/-- A table in which the search reports nothing has no cycle of dependencies. -/
theorem acyclic_of_detectCircular (calls : List DepsCall) (hfits : ∀ c ∈ calls, c.NameFits)
    (h : smDepsDetectCircular (depsTable calls) = 0) : Acyclic (depsTable calls) := by
  have hdistinct := distinctNames_depsTable hfits
  have hacc := search_acc sound_none (fun _ => rfl) (hdistinct.detectCircular_eq_zero_iff.mp h)
  exact hdistinct.acyclic fun i hi => not_transGen_of_acc (hacc i (List.mem_range.mpr hi))

theorem acyclic_of_detectCircular_ordered : Acyclic (depsTable orderedCalls) :=
  acyclic_of_detectCircular orderedCalls (by decide) (by decide)

end ServiceManager

end Shinigami
