import Mathlib.Data.List.GetD
import Shinigami.ServiceManager.Lifecycle.Dependencies

/-!
# Start-up orders

When `smDepsGetStartupOrder` orders a whole table. A visit of index `i` looks for
the dependencies among the first `i` outputs that belong to placed services, so
it takes positions in the output for positions in the table. As long as every
service comes after its dependencies the first round places the services one
after the other. The first service that does not stays unplaced for good, since
the outputs in front of its index never change (`orderInFront_placeService`).
-/

namespace Shinigami

namespace ServiceManager

open CString

def DependsOn (deps : List ServiceDeps) (d d' : ServiceDeps) : Prop :=
  d ∈ deps ∧ d' ∈ deps ∧ ∃ dep ∈ d.dependsOn, cstr d'.serviceName = cstr dep

/-- No service depends on itself, directly or through others. -/
def Acyclic (deps : List ServiceDeps) : Prop :=
  ∀ d ∈ deps, ¬Relation.TransGen (DependsOn deps) d d

/-- Every dependency is registered. -/
def DependenciesRegistered (deps : List ServiceDeps) : Prop :=
  ∀ d ∈ deps, ∀ dep ∈ d.dependsOn, ∃ d' ∈ deps, cstr d'.serviceName = cstr dep

/-- The dependencies of the service at `i` are registered before it. -/
def FollowsItsDependencies (deps : List ServiceDeps) (i : ℕ) (hi : i < deps.length) :
    Prop :=
  ∀ dep ∈ deps[i].dependsOn, ∃ d' ∈ deps.take i, cstr d'.serviceName = cstr dep

/-- Every service is registered after its dependencies. -/
def RegisteredInOrder (deps : List ServiceDeps) : Prop :=
  ∀ (i : ℕ) (hi : i < deps.length), FollowsItsDependencies deps i hi

instance (deps : List ServiceDeps) (i : ℕ) (hi : i < deps.length) :
    Decidable (FollowsItsDependencies deps i hi) :=
  inferInstanceAs (Decidable (∀ dep ∈ deps[i].dependsOn, _))

instance (deps : List ServiceDeps) : Decidable (RegisteredInOrder deps) :=
  inferInstanceAs (Decidable (∀ (i : ℕ) (_ : i < deps.length), _))

/-- The call returns 0 and outputs every service of the table exactly once. -/
def OrdersAll (deps : List ServiceDeps) (services : List (List UInt8)) (count : ℤ) :
    Prop :=
  let result := smDepsGetStartupOrder deps services count
  result.2.2 = 0 ∧ result.2.1 = deps.length ∧
    ((result.1.take deps.length).map cstr).Perm (deps.map fun d => cstr d.serviceName)

/-- A zeroed output array of `m` names. -/
def zeroedNames (m : ℕ) : List (List UInt8) :=
  List.replicate m (List.replicate depsNameSize 0)

/-- The first `i` services are placed, each at its own index. -/
structure OrderInFront (deps : List ServiceDeps) (i : ℕ) (st : OrderState) :
    Prop where
  le : i ≤ deps.length
  visited : ∀ k < i, st.visited.getD k false = true
  names : ∀ (k : ℕ) (hk : k < deps.length), k < i →
    cstr (st.services.getD k []) = cstr deps[k].serviceName
  ordered : i ≤ st.ordered

section InFront

variable {deps : List ServiceDeps} {count : ℤ} {i : ℕ} {st : OrderState}

theorem orderInFront_placeService {j : ℕ} (h : OrderInFront deps i st)
    (hlen : st.visited.length = maxServicesTracked)
    (hdeps : deps.length ≤ maxServicesTracked) :
    OrderInFront deps i (placeService deps count st j) := by
  rcases placeService_cases deps count st j with heq | ⟨hj, -, -, -, heq⟩
  · rwa [heq]
  · rw [heq]
    refine ⟨h.le, ?_, ?_, h.ordered.trans (Nat.le_succ _)⟩
    · intro k hk
      exact (getD_set_true st.visited (by omega) k).mpr (.inr (h.visited k hk))
    · intro k hk hki
      have hne : st.ordered ≠ k := by
        have := h.ordered
        omega
      rw [← h.names k hk hki]
      simp [List.getD_eq_getElem?_getD, hne]

/-- With the first `i` services at their own indices, the search in front of `i`
finds what is registered before. -/
theorem OrderInFront.found_iff (h : OrderInFront deps i st) (dep : List UInt8) :
    st.found i dep = true ↔ ∃ d ∈ deps.take i, cstr d.serviceName = cstr dep := by
  rw [ServiceManager.found_iff]
  constructor
  · rintro ⟨k, hk, -, hname⟩
    have hlt : k < deps.length := hk.trans_le h.le
    refine ⟨deps[k], List.mem_take_iff_getElem.mpr ⟨k, by omega, rfl⟩, ?_⟩
    rw [← h.names k hlt hk, hname]
  · rintro ⟨d, hd, hname⟩
    obtain ⟨k, hk, rfl⟩ := List.mem_take_iff_getElem.mp hd
    have hki : k < i := by omega
    exact ⟨k, hki, h.visited k hki, by rw [h.names k (by omega) hki, hname]⟩

/-- A service that does not follow its dependencies is never placed while the
services in front of it are at their own indices. -/
theorem visited_placeService_of_blocked {j : ℕ} (h : OrderInFront deps i st)
    (hi : i < deps.length) (hblocked : ¬FollowsItsDependencies deps i hi)
    (hnot : st.visited.getD i false = false) :
    (placeService deps count st j).visited.getD i false = false := by
  rcases placeService_cases deps count st j with heq | ⟨hj, -, hfound, -, heq⟩
  · rwa [heq]
  · have hne : i ≠ j := by
      rintro rfl
      exact hblocked fun dep hdep => (h.found_iff dep).mp (hfound dep hdep)
    rw [heq]
    simpa [List.getD_eq_getElem?_getD, List.getElem?_set_ne hne.symm] using hnot

end InFront

/-- The first `i` services placed one after the other into a zeroed array. -/
def placedInOrder (deps : List ServiceDeps) (m i : ℕ) : OrderState where
  visited := List.replicate i true ++ List.replicate (maxServicesTracked - i) false
  services := (deps.take i).map (fun d => strncpyField depsNameSize d.serviceName) ++
    zeroedNames (m - i)
  ordered := i

theorem orderInFront_placedInOrder {deps : List ServiceDeps} (h : DepsInv deps)
    (m : ℕ) {i : ℕ} (hi : i ≤ deps.length) :
    OrderInFront deps i (placedInOrder deps m i) := by
  refine ⟨hi, ?_, ?_, le_rfl⟩
  · intro k hk
    simp [placedInOrder, List.getD_eq_getElem?_getD, List.getElem?_append, hk]
  · intro k hlt hk
    rw [← h.cstr_copy (List.getElem_mem hlt)]
    simp [placedInOrder, List.getD_eq_getElem?_getD, List.getElem?_append, hk, hlt]

theorem modify_append_length {α : Type*} (pre post : List α) (a : α) (f : α → α) :
    (pre ++ a :: post).modify pre.length f = pre ++ f a :: post := by
  induction pre with
  | nil => rfl
  | cons b pre ih => simp [ih]

theorem placeService_placedInOrder {deps : List ServiceDeps} {count : ℤ} {m i : ℕ}
    (h : DepsInv deps) (hi : i < deps.length) (hm : deps.length ≤ m)
    (hcount : deps.length ≤ count) (hfollows : FollowsItsDependencies deps i hi) :
    placeService deps count (placedInOrder deps m i) i = placedInOrder deps m (i + 1) := by
  have hfront := orderInFront_placedInOrder h m hi.le
  have hlen : i < maxServicesTracked := hi.trans_le h.length_le
  obtain ⟨r, hr⟩ : ∃ r, maxServicesTracked - i = r + 1 :=
    ⟨maxServicesTracked - i - 1, by omega⟩
  obtain ⟨q, hq⟩ : ∃ q, m - i = q + 1 := ⟨m - i - 1, by omega⟩
  have hvisited : (placedInOrder deps m i).visited.getD i false = false := by
    simp [placedInOrder, List.getD_eq_getElem?_getD, hr]
  have hroom : ((placedInOrder deps m i).ordered : ℤ) < count := by
    simp only [placedInOrder]
    omega
  rw [placeService_of_ready hi hvisited
    (fun dep hdep => (hfront.found_iff dep).mpr (hfollows dep hdep)) hroom]
  unfold placedInOrder
  congr 1
  · have hr' : maxServicesTracked - (i + 1) = r := by omega
    rw [hr, hr', List.replicate_succ, List.replicate_succ']
    simp
  · have hq' : m - (i + 1) = q := by omega
    have hpre : ((deps.take i).map fun d =>
        strncpyField depsNameSize d.serviceName).length = i := by
      simp [hi.le]
    have hcell (src : List UInt8) : strncpyTo (depsNameSize - 1)
        (List.replicate depsNameSize 0) src = strncpyField depsNameSize src :=
      strncpyTo_zeroed _ src
    have hset := modify_append_length
      ((deps.take i).map fun d => strncpyField depsNameSize d.serviceName)
      (zeroedNames q) (List.replicate depsNameSize 0)
      (strncpyTo (depsNameSize - 1) · deps[i].serviceName)
    rw [hpre, hcell] at hset
    rw [hq, hq', List.take_succ_eq_append_getElem hi, List.map_append,
      List.append_assoc]
    exact hset

/-- The first round up to a service, as long as all services before it follow
their dependencies. -/
theorem run_placeService_inOrder {deps : List ServiceDeps} {count : ℤ} {m : ℕ}
    (h : DepsInv deps) (hm : deps.length ≤ m) (hcount : deps.length ≤ count) {i : ℕ}
    (hi : i ≤ deps.length)
    (hfollows : ∀ (k : ℕ) (hk : k < i), FollowsItsDependencies deps k (hk.trans_le hi)) :
    run (placeService deps count) (placedInOrder deps m 0) (List.range i) =
      placedInOrder deps m i := by
  induction i with
  | zero => rfl
  | succ i ih =>
      have hprefix := ih (Nat.le_of_succ_le hi) fun k hk => hfollows k (Nat.lt_succ_of_lt hk)
      rw [List.range_succ, run_concat, hprefix]
      exact placeService_placedInOrder h hi hm hcount (hfollows i (Nat.lt_succ_self i))

theorem flatMap_range_eq {n i : ℕ} (hi : i ≤ n) :
    ∃ rest, ((List.range n).flatMap fun _ => List.range n) = List.range i ++ rest := by
  cases n with
  | zero =>
      have hzero : i = 0 := by omega
      exact ⟨[], by simp [hzero]⟩
  | succ n =>
      obtain ⟨k, hk⟩ := Nat.exists_eq_add_of_le hi
      rw [List.range_succ_eq_map, List.flatMap_cons, ← List.range_succ_eq_map, hk,
        List.range_add, List.append_assoc]
      exact ⟨_, rfl⟩

section Runs

variable {deps : List ServiceDeps} {count : ℤ} {m : ℕ}

/-- If the services in front of an index follow their dependencies, they are at
their own indices in the end, and what holds of the index then still holds. -/
theorem orderInFront_orderState (h : DepsInv deps) (hm : deps.length ≤ m)
    (hcount : deps.length ≤ count) {i : ℕ} (hi : i ≤ deps.length)
    (hfollows : ∀ (k : ℕ) (hk : k < i), FollowsItsDependencies deps k (hk.trans_le hi)) :
    OrderInFront deps i (orderState deps (zeroedNames m) count) ∧
      ∀ hlt : i < deps.length, ¬FollowsItsDependencies deps i hlt →
        (orderState deps (zeroedNames m) count).visited.getD i false = false := by
  obtain ⟨rest, hrest⟩ := flatMap_range_eq hi
  have hstart : (⟨List.replicate maxServicesTracked false, zeroedNames m, 0⟩ :
      OrderState) = placedInOrder deps m 0 := by
    simp [placedInOrder]
  rw [orderState_eq_run, hrest, run_append, hstart,
    run_placeService_inOrder h hm hcount hi hfollows]
  let I (st : OrderState) : Prop :=
    OrderInFront deps i st ∧ st.visited.length = maxServicesTracked ∧
      ∀ hlt : i < deps.length, ¬FollowsItsDependencies deps i hlt →
        st.visited.getD i false = false
  have hstep : ∀ st j, True → I st → I (placeService deps count st j) := by
    rintro st j - ⟨hfront, hlen, hblocked⟩
    refine ⟨orderInFront_placeService hfront hlen h.length_le, ?_, ?_⟩
    · rcases placeService_cases deps count st j with heq | ⟨_, -, -, -, heq⟩
      · rwa [heq]
      · rw [heq]
        simpa using hlen
    · intro hlt hno
      exact visited_placeService_of_blocked hfront hlt hno (hblocked hlt hno)
  have hfirst : I (placedInOrder deps m i) := by
    have hle := hi.trans h.length_le
    refine ⟨orderInFront_placedInOrder h m hi, ?_, ?_⟩
    · simp [placedInOrder, hle]
    · intro _ _
      rw [placedInOrder, List.getD_append_right _ _ _ _ (by simp)]
      simp [List.getD_eq_getElem?_getD, List.getElem?_replicate]
      split_ifs <;> rfl
  have hlast : I (run (placeService deps count) (placedInOrder deps m i) rest) :=
    run_invariant hstep hfirst fun _ _ => trivial
  exact ⟨hlast.1, hlast.2.2⟩

theorem orderState_of_registeredInOrder (h : DepsInv deps) (hm : deps.length ≤ m)
    (hcount : deps.length ≤ count) (horder : RegisteredInOrder deps) :
    (orderState deps (zeroedNames m) count).ordered = deps.length ∧
      ((orderState deps (zeroedNames m) count).services.take deps.length).map cstr =
        deps.map fun d => cstr d.serviceName := by
  obtain ⟨hfront, -⟩ :=
    orderInFront_orderState h hm hcount le_rfl fun k hk => horder k hk
  have hinv := orderInv_orderState (zeroedNames m) count h.length_le
  have hlen : (orderState deps (zeroedNames m) count).services.length = m := by
    rw [hinv.services_length]
    simp [zeroedNames]
  refine ⟨le_antisymm hinv.ordered_le hfront.ordered, List.ext_getElem ?_ ?_⟩
  · simp [hlen, hm]
  · intro k hk hk'
    have hkm : k < m := by
      simp only [List.length_map] at hk'
      omega
    have hlt : k < deps.length := by simpa using hk'
    have hname := hfront.names k hlt hlt
    rw [List.getD_eq_getElem _ _ (by rwa [hlen])] at hname
    simpa using hname

theorem registeredInOrder_of_orderState (h : DepsInv deps) (hm : deps.length ≤ m)
    (hcount : deps.length ≤ count)
    (hordered : (orderState deps (zeroedNames m) count).ordered = deps.length) :
    RegisteredInOrder deps := by
  have hinv := orderInv_orderState (zeroedNames m) count h.length_le
  intro i
  -- The first service that breaks the order would be left out.
  induction i using Nat.strong_induction_on with
  | _ i ih =>
      intro hi
      by_contra hno
      obtain ⟨-, hblocked⟩ := orderInFront_orderState h hm hcount hi.le fun k hk => ih k hk _
      have hmissing := hblocked hi hno
      have hsub : (orderState deps (zeroedNames m) count).placed deps.length ⊆
          (Finset.range deps.length).erase i := by
        intro k hk
        simp only [OrderState.placed, Finset.mem_filter] at hk
        refine Finset.mem_erase.mpr ⟨?_, hk.1⟩
        rintro rfl
        rw [hmissing] at hk
        exact Bool.false_ne_true hk.2
      have hcard := Finset.card_le_card hsub
      rw [← hinv.ordered, hordered, Finset.card_erase_of_mem (Finset.mem_range.mpr hi),
        Finset.card_range] at hcard
      omega

theorem smDepsGetStartupOrder_rc (h : DepsInv deps) (hm : deps.length ≤ m)
    (hcount : deps.length ≤ count) :
    (smDepsGetStartupOrder deps (zeroedNames m) count).2.2 = 0 ↔
      RegisteredInOrder deps := by
  simp only [smDepsGetStartupOrder]
  split_ifs with hordered
  · exact iff_of_true rfl (registeredInOrder_of_orderState h hm hcount hordered)
  · refine iff_of_false (by decide) fun horder => hordered ?_
    exact (orderState_of_registeredInOrder h hm hcount horder).1

end Runs

/-- A table built by registrations is ordered completely exactly when every
service was registered after its dependencies. -/
theorem ordersAll_iff (calls : List DepsCall) (m : ℕ) (count : ℤ)
    (hm : (depsTable calls).length ≤ m) (hcount : (depsTable calls).length ≤ count) :
    OrdersAll (depsTable calls) (zeroedNames m) count ↔
      RegisteredInOrder (depsTable calls) := by
  have hinv := depsInv_depsTable calls
  refine ⟨fun hall => (smDepsGetStartupOrder_rc hinv hm hcount).mp hall.1, ?_⟩
  intro horder
  obtain ⟨hordered, hnames⟩ := orderState_of_registeredInOrder hinv hm hcount horder
  exact ⟨(smDepsGetStartupOrder_rc hinv hm hcount).mpr horder, congrArg _ hordered,
    List.Perm.of_eq hnames⟩

/-- The registrations of `b` and of `a`, which depends on `b`. -/
def orderedCalls : List DepsCall :=
  [⟨some (ascii ['b']), [], 0⟩, ⟨some (ascii ['a']), [ascii ['b']], 1⟩]

theorem ordersAll_iff_ordered :
    OrdersAll (depsTable orderedCalls) (zeroedNames 2) 2 ↔
      RegisteredInOrder (depsTable orderedCalls) :=
  ordersAll_iff orderedCalls 2 2 (by decide) (by decide)

/-- The same two services the other way round have an order, but the call finds
none. -/
theorem dependency_registered_later :
    Acyclic (depsTable orderedCalls.reverse) ∧
      DependenciesRegistered (depsTable orderedCalls.reverse) ∧
      ¬OrdersAll (depsTable orderedCalls.reverse) (zeroedNames 2) 2 := by
  refine ⟨?_, by unfold DependenciesRegistered; decide, ?_⟩
  · -- Only `b` is a dependency, and `b` has none.
    have hlast : ∀ d ∈ depsTable orderedCalls.reverse,
        ∀ d' ∈ depsTable orderedCalls.reverse, ∀ dep ∈ d.dependsOn,
          cstr d'.serviceName = cstr dep → d'.dependsOn = [] := by
      decide
    intro d _ hcycle
    obtain ⟨_, ⟨_, _, dep, hdep, _⟩, -⟩ := Relation.TransGen.head'_iff.mp hcycle
    obtain ⟨c, -, ⟨hc, hd, dep', hdep', hname⟩⟩ := Relation.TransGen.tail'_iff.mp hcycle
    exact List.ne_nil_of_mem hdep (hlast c hc d hd dep' hdep' hname)
  · intro hall
    exact absurd hall.1 (by decide)

end ServiceManager

end Shinigami
