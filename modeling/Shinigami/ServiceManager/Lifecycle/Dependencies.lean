import Mathlib.Data.Finset.Card
import Mathlib.Logic.Relation
import Shinigami.Foundations.CString
import Shinigami.Foundations.Run

/-!
# Service dependencies

The dependency table of `sm_dependencies.c`, as the list of its used entries in
the order of registration, and the start-up order computed from it. An entry
keeps the used slots of its `depends_on`, so `dep_count` is their number.

The two loops of `smDepsGetStartupOrder` visit every index in every round.
`placeService_cases` says what one visit does; the whole function is the run of
the visits (`orderState_eq_run`).
-/

namespace Shinigami

namespace ServiceManager

open CString

def maxServicesTracked : ℕ := 32

def smMaxDeps : ℕ := 8

def depsNameSize : ℕ := 64

/-- `service_deps_t`. -/
structure ServiceDeps where
  serviceName : List UInt8
  dependsOn : List (List UInt8)

/-- `sm_deps_register`, on the table `g_deps`; a null name is `none`. -/
def smDepsRegister (deps : List ServiceDeps) (name : Option (List UInt8))
    (dependencies : List (List UInt8)) (depCount : ℤ) : List ServiceDeps × ℤ :=
  match name with
  | none => (deps, -1)
  | some name =>
      if depCount < 0 ∨ depCount > smMaxDeps then (deps, -1)
      else if deps.any fun d => strcmpEq d.serviceName name then (deps, -1)
      else if deps.length ≥ maxServicesTracked then (deps, -1)
      else
        let d : ServiceDeps :=
          { serviceName := strncpyField depsNameSize name
            dependsOn :=
              (dependencies.take depCount.toNat).map (strncpyField depsNameSize) }
        (deps ++ [d], 0)

/-- The local variables of `sm_deps_get_startup_order` and its output array. -/
structure OrderState where
  visited : List Bool
  services : List (List UInt8)
  ordered : ℕ

/-- The search for a dependency in front of index `i`. The source reads `services[k]` for the
marked positions `k` of the table, so the value stands for the read only while the output has
as many entries as the table (`found_iff_of_le`). -/
def OrderState.found (st : OrderState) (i : ℕ) (dep : List UInt8) : Bool :=
  (List.range i).any fun k =>
    st.visited.getD k false && strcmpEq (st.services.getD k []) dep

/-- One visit of index `i`, which places the service there if it can. -/
def placeService (deps : List ServiceDeps) (count : ℤ) (st : OrderState) (i : ℕ) :
    OrderState :=
  match deps[i]? with
  | none => st
  | some d =>
      if st.visited.getD i false then st
      else if d.dependsOn.all (st.found i) ∧ st.ordered < count then
        { visited := st.visited.set i true
          services := st.services.modify st.ordered
            (strncpyTo (depsNameSize - 1) · d.serviceName)
          ordered := st.ordered + 1 }
      else st

def orderState (deps : List ServiceDeps) (services : List (List UInt8))
    (count : ℤ) : OrderState :=
  let round (st : OrderState) (_ : ℕ) : OrderState :=
    run (placeService deps count) st (List.range deps.length)
  run round ⟨List.replicate maxServicesTracked false, services, 0⟩
    (List.range deps.length)

/-- `sm_deps_get_startup_order`: the output array, the number written to `count`,
and the return value. -/
def smDepsGetStartupOrder (deps : List ServiceDeps) (services : List (List UInt8))
    (count : ℤ) : List (List UInt8) × ℤ × ℤ :=
  let st := orderState deps services count
  (st.services, st.ordered, if st.ordered = deps.length then 0 else -1)

/-- The arguments of a registration. -/
structure DepsCall where
  name : Option (List UInt8)
  dependencies : List (List UInt8)
  depCount : ℤ

def depsStep (deps : List ServiceDeps) (c : DepsCall) : List ServiceDeps :=
  (smDepsRegister deps c.name c.dependencies c.depCount).1

/-- The table built by registrations. -/
def depsTable (calls : List DepsCall) : List ServiceDeps := run depsStep [] calls

/-- A registration changes nothing, or it appends the new service, whose name is
not in the table. -/
theorem depsStep_cases (deps : List ServiceDeps) (c : DepsCall) :
    depsStep deps c = deps ∨
      ∃ (name : List UInt8) (dependencies : List (List UInt8)), c.name = some name ∧
        (∀ d ∈ deps, cstr d.serviceName ≠ cstr name) ∧
        deps.length < maxServicesTracked ∧
        depsStep deps c = deps ++ [⟨strncpyField depsNameSize name,
          dependencies.map (strncpyField depsNameSize)⟩] := by
  unfold depsStep smDepsRegister
  cases hname : c.name with
  | none => exact .inl rfl
  | some name =>
      dsimp only
      split_ifs with hcount hdup hfull
      · exact .inl rfl
      · exact .inl rfl
      · exact .inl rfl
      · refine .inr ⟨name, c.dependencies.take c.depCount.toNat, rfl, ?_,
          not_le.mp hfull, rfl⟩
        simpa [strcmpEq] using hdup

structure DepsInv (deps : List ServiceDeps) : Prop where
  length_le : deps.length ≤ maxServicesTracked
  names : ∀ d ∈ deps, (cstr d.serviceName).length < depsNameSize

theorem depsInv_depsStep (deps : List ServiceDeps) (c : DepsCall)
    (h : DepsInv deps) : DepsInv (depsStep deps c) := by
  rcases depsStep_cases deps c with heq | ⟨name, dependencies, -, -, hroom, heq⟩
  · rwa [heq]
  · rw [heq]
    refine ⟨by simpa using Nat.succ_le_of_lt hroom, ?_⟩
    intro d hd
    rcases List.mem_append.mp hd with hold | hnew
    · exact h.names d hold
    · rw [List.mem_singleton.mp hnew, cstr_strncpyField, List.length_take]
      exact lt_of_le_of_lt (min_le_left _ _) (by decide)

theorem depsInv_depsTable (calls : List DepsCall) : DepsInv (depsTable calls) :=
  run_invariant (P := fun _ => True) (fun deps c _ => depsInv_depsStep deps c)
    ⟨Nat.zero_le _, by simp⟩ (by simp)

theorem DepsInv.cstr_copy {deps : List ServiceDeps} (h : DepsInv deps)
    {d : ServiceDeps} (hd : d ∈ deps) :
    cstr (strncpyField depsNameSize d.serviceName) = cstr d.serviceName := by
  rw [cstr_strncpyField]
  exact List.take_of_length_le (Nat.le_sub_one_of_lt (h.names d hd))

section Visits

variable {deps : List ServiceDeps} {count : ℤ}

theorem found_iff {st : OrderState} {i : ℕ} {dep : List UInt8} :
    st.found i dep = true ↔ ∃ k < i, st.visited.getD k false = true ∧
      cstr (st.services.getD k []) = cstr dep := by
  simp [OrderState.found, strcmpEq]

/-- With the output as long as the table every read is one of its entries. -/
theorem found_iff_of_le {st : OrderState} {i : ℕ} {dep : List UInt8}
    (hi : i ≤ st.services.length) :
    st.found i dep = true ↔ ∃ k : Fin i, st.visited.getD k false = true ∧
      cstr (st.services.get (k.castLE hi)) = cstr dep := by
  have hread (k : Fin i) : st.services.getD k [] = st.services.get (k.castLE hi) := by
    rw [List.getD_eq_getElem?_getD, List.getElem?_eq_getElem (k.isLt.trans_le hi)]
    rfl
  rw [found_iff]
  constructor
  · rintro ⟨k, hk, hvisited, hname⟩
    exact ⟨⟨k, hk⟩, hvisited, hread ⟨k, hk⟩ ▸ hname⟩
  · rintro ⟨k, hvisited, hname⟩
    exact ⟨k, k.isLt, hvisited, (hread k).symm ▸ hname⟩

/-- A visit changes nothing, or it places a service whose dependencies have all
been found. -/
theorem placeService_cases (deps : List ServiceDeps) (count : ℤ) (st : OrderState)
    (i : ℕ) :
    placeService deps count st i = st ∨
      ∃ hi : i < deps.length, st.visited.getD i false = false ∧
        (∀ dep ∈ deps[i].dependsOn, st.found i dep = true) ∧ st.ordered < count ∧
        placeService deps count st i =
          { visited := st.visited.set i true
            services := st.services.modify st.ordered
              (strncpyTo (depsNameSize - 1) · deps[i].serviceName)
            ordered := st.ordered + 1 } := by
  unfold placeService
  rcases Nat.lt_or_ge i deps.length with hi | hi
  · rw [List.getElem?_eq_getElem hi]
    dsimp only
    split_ifs with hvisited hplace
    · exact .inl rfl
    · rw [List.all_eq_true] at hplace
      exact .inr ⟨hi, by simpa using hvisited, hplace.1, hplace.2, rfl⟩
    · exact .inl rfl
  · rw [List.getElem?_eq_none hi]
    exact .inl rfl

/-- A visit of a service that is not placed yet and has its dependencies found. -/
theorem placeService_of_ready {st : OrderState} {i : ℕ} (hi : i < deps.length)
    (hvisited : st.visited.getD i false = false)
    (hfound : ∀ dep ∈ deps[i].dependsOn, st.found i dep = true)
    (hroom : st.ordered < count) :
    placeService deps count st i =
      { visited := st.visited.set i true
        services := st.services.modify st.ordered
          (strncpyTo (depsNameSize - 1) · deps[i].serviceName)
        ordered := st.ordered + 1 } := by
  unfold placeService
  rw [List.getElem?_eq_getElem hi]
  dsimp only
  rw [hvisited, if_neg Bool.false_ne_true, if_pos]
  exact ⟨List.all_eq_true.mpr hfound, hroom⟩

theorem orderState_eq_run (deps : List ServiceDeps) (services : List (List UInt8))
    (count : ℤ) :
    orderState deps services count =
      run (placeService deps count)
        ⟨List.replicate maxServicesTracked false, services, 0⟩
        ((List.range deps.length).flatMap fun _ => List.range deps.length) := by
  unfold orderState run
  rw [List.foldl_flatMap]

def OrderState.placed (st : OrderState) (n : ℕ) : Finset ℕ :=
  (Finset.range n).filter fun k => st.visited.getD k false = true

/-- What every visit keeps: the arrays keep their lengths, and `ordered` counts
the placed services. -/
structure OrderInv (deps : List ServiceDeps) (m : ℕ) (st : OrderState) : Prop where
  visited_length : st.visited.length = maxServicesTracked
  services_length : st.services.length = m
  ordered : st.ordered = (st.placed deps.length).card

theorem getD_set_true (visited : List Bool) {i : ℕ} (hi : i < visited.length)
    (k : ℕ) :
    (visited.set i true).getD k false = true ↔
      k = i ∨ visited.getD k false = true := by
  by_cases hk : k = i
  · simp [hk, List.getD_eq_getElem?_getD, hi]
  · simp [hk, List.getD_eq_getElem?_getD, List.getElem?_set_ne (Ne.symm hk)]

theorem orderInv_placeService {m : ℕ} {st : OrderState}
    (hlen : deps.length ≤ maxServicesTracked) (i : ℕ) (h : OrderInv deps m st) :
    OrderInv deps m (placeService deps count st i) := by
  rcases placeService_cases deps count st i with heq | ⟨hi, hnot, -, -, heq⟩
  · rwa [heq]
  · have hbound : i < st.visited.length := by
      rw [h.visited_length]
      omega
    have hplaced : OrderState.placed (placeService deps count st i) deps.length =
        insert i (st.placed deps.length) := by
      ext k
      rw [heq]
      simp only [OrderState.placed, Finset.mem_filter, Finset.mem_range,
        getD_set_true st.visited hbound, Finset.mem_insert]
      constructor
      · rintro ⟨hk, rfl | hv⟩
        · exact .inl rfl
        · exact .inr ⟨hk, hv⟩
      · rintro (rfl | ⟨hk, hv⟩)
        · exact ⟨hi, .inl rfl⟩
        · exact ⟨hk, .inr hv⟩
    have hfresh : i ∉ st.placed deps.length := by
      simp only [OrderState.placed, Finset.mem_filter, hnot, Bool.false_eq_true,
        and_false, not_false_eq_true]
    refine ⟨?_, ?_, ?_⟩
    · rw [heq]
      simp [h.visited_length]
    · rw [heq]
      simp [h.services_length]
    · rw [hplaced, Finset.card_insert_of_notMem hfresh, ← h.ordered, heq]

theorem orderInv_orderState (services : List (List UInt8)) (count : ℤ)
    (hlen : deps.length ≤ maxServicesTracked) :
    OrderInv deps services.length (orderState deps services count) := by
  rw [orderState_eq_run]
  refine run_invariant (P := fun _ => True)
    (fun st i _ => orderInv_placeService hlen i) ⟨by simp, rfl, ?_⟩ (by simp)
  symm
  rw [Finset.card_eq_zero, OrderState.placed, Finset.filter_eq_empty_iff]
  intro k _
  rcases Nat.lt_or_ge k maxServicesTracked with hk | hk
  · simp [List.getD_eq_getElem?_getD, hk]
  · simp [List.getD_eq_getElem?_getD, Nat.not_lt.mpr hk]

theorem OrderInv.ordered_le {m : ℕ} {st : OrderState} (h : OrderInv deps m st) :
    st.ordered ≤ deps.length := by
  rw [h.ordered]
  exact (Finset.card_filter_le _ _).trans (Finset.card_range _).le

theorem ordered_le_count (deps : List ServiceDeps) (services : List (List UInt8))
    (hcount : 0 ≤ count) :
    ((orderState deps services count).ordered : ℤ) ≤ count := by
  rw [orderState_eq_run]
  refine run_invariant (I := fun st : OrderState => (st.ordered : ℤ) ≤ count)
    (P := fun _ => True) ?_ (by simpa using hcount) (by simp)
  intro st i _ h
  rcases placeService_cases deps count st i with heq | ⟨_, -, -, hroom, heq⟩
  · rwa [heq]
  · rw [heq]
    push_cast
    omega

end Visits

end ServiceManager

end Shinigami
