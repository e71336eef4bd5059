import Mathlib.Data.Fintype.EquivFin
import Shinigami.Foundations.Precedence
import Shinigami.ServiceManager.Lifecycle.CircularDependency

/-!
# What a start-up order contains

Whether or not `smDepsGetStartupOrder` orders the whole table, what it outputs is sound:
no service twice, and each one behind its dependencies. The search for a dependency
takes the mark of a position in the table for the mark of a position in the output, but
the name it compares can only stand in a part of the output that has been written
(`Emits.found`), and that is all that matters for soundness.
-/

namespace Shinigami

namespace ServiceManager

open CString

/-- The names of the dependencies are not empty. -/
def DepsCall.DependenciesNamed (c : DepsCall) : Prop :=
  ∀ dep ∈ c.dependencies, cstr dep ≠ []

instance (c : DepsCall) : Decidable c.DependenciesNamed :=
  inferInstanceAs (Decidable (∀ dep ∈ c.dependencies, cstr dep ≠ []))

theorem dependsOn_ne_nil {calls : List DepsCall} (hnamed : ∀ c ∈ calls, c.DependenciesNamed) :
    ∀ d ∈ depsTable calls, ∀ dep ∈ d.dependsOn, cstr dep ≠ [] := by
  refine run_invariant (I := fun deps : List ServiceDeps =>
    ∀ d ∈ deps, ∀ dep ∈ d.dependsOn, cstr dep ≠ []) (P := DepsCall.DependenciesNamed)
    (fun deps c hc h => ?_) (by simp) hnamed
  unfold depsStep smDepsRegister
  split
  · exact h
  · split_ifs
    · exact h
    · exact h
    · exact h
    · intro d hd
      rcases List.mem_append.mp hd with hold | hnew
      · exact h d hold
      · rw [List.mem_singleton.mp hnew]
        simp only [List.forall_mem_map]
        intro dep hdep
        have hne : cstr dep ≠ [] := hc dep (List.mem_of_mem_take hdep)
        rw [cstr_strncpyField, ne_eq, List.take_eq_nil_iff]
        exact not_or.mpr ⟨by decide, hne⟩

/-- The output consists of the given entries of the table, each behind its
dependencies. -/
structure Emits (deps : List ServiceDeps) (m : ℕ) (st : OrderState)
    (emitted : List (Fin deps.length)) : Prop where
  services : st.services =
    emitted.map (fun i => strncpyField depsNameSize deps[i].serviceName) ++
      zeroedNames (m - emitted.length)
  ordered : st.ordered = emitted.length
  visited_length : st.visited.length = maxServicesTracked
  visited : ∀ i : Fin deps.length, i ∈ emitted → st.visited.getD i false = true
  nodup : emitted.Nodup
  behind : ∀ pre i post, emitted = pre ++ i :: post → ∀ dep ∈ deps[i].dependsOn,
    ∃ k ∈ pre, cstr deps[k].serviceName = cstr dep

section Emits

variable {deps : List ServiceDeps} {m : ℕ} {st : OrderState} {count : ℤ}
  {emitted : List (Fin deps.length)}

theorem emits_initial (deps : List ServiceDeps) (m : ℕ) :
    Emits deps m ⟨List.replicate maxServicesTracked false, zeroedNames m, 0⟩ [] := by
  refine ⟨rfl, rfl, List.length_replicate .., nofun, .nil, fun pre i post h => ?_⟩
  exact absurd h.symm (by simp)

theorem Emits.found (h : Emits deps m st emitted) (hdeps : DepsInv deps) {i : ℕ}
    (hi : i ≤ st.services.length) {dep : List UInt8} (hne : cstr dep ≠ [])
    (hfound : st.found i dep = true) :
    ∃ k ∈ emitted, cstr deps[k].serviceName = cstr dep := by
  obtain ⟨⟨k, hki⟩, -, hname⟩ := (found_iff_of_le hi).mp hfound
  simp only [List.get_eq_getElem, Fin.val_castLE, h.services] at hname
  rcases Nat.lt_or_ge k emitted.length with hk | hk
  · rw [List.getElem_append_left (by simpa using hk), List.getElem_map] at hname
    exact ⟨emitted[k], List.getElem_mem hk,
      (hdeps.cstr_copy (List.getElem_mem _)).symm.trans hname⟩
  · rw [List.getElem_append_right (by simpa using hk)] at hname
    simp only [zeroedNames, List.getElem_replicate] at hname
    exact absurd (hname.symm.trans (by decide)) hne

theorem Emits.length_lt (h : Emits deps m st emitted) {j : Fin deps.length}
    (hnew : j ∉ emitted) : emitted.length < deps.length := by
  have hcard := (List.nodup_cons.mpr ⟨hnew, h.nodup⟩).length_le_card
  rwa [Fintype.card_fin] at hcard

/-- The new name is written into the first free cell. -/
theorem Emits.modify_services (h : Emits deps m st emitted) (j : Fin deps.length)
    (hspace : emitted.length < m) :
    st.services.modify st.ordered (strncpyTo (depsNameSize - 1) · deps[j].serviceName) =
      (emitted ++ [j]).map (fun i => strncpyField depsNameSize deps[i].serviceName) ++
        zeroedNames (m - (emitted ++ [j]).length) := by
  obtain ⟨q, hq⟩ : ∃ q, m - emitted.length = q + 1 := ⟨m - emitted.length - 1, by omega⟩
  have hq' : m - (emitted ++ [j]).length = q := by
    rw [List.length_append, List.length_singleton]
    omega
  have hcell : strncpyTo (depsNameSize - 1) (List.replicate depsNameSize 0)
      deps[j].serviceName = strncpyField depsNameSize deps[j].serviceName :=
    strncpyTo_zeroed ..
  have hset := modify_append_length
    (emitted.map fun i => strncpyField depsNameSize deps[i].serviceName)
    (zeroedNames q) (List.replicate depsNameSize 0)
    (strncpyTo (depsNameSize - 1) · deps[j].serviceName)
  rw [List.length_map, hcell] at hset
  rw [h.services, h.ordered, hq, hq', List.map_append, List.append_assoc]
  exact hset

theorem Emits.behind_concat (h : Emits deps m st emitted) {j : Fin deps.length}
    (hj : ∀ dep ∈ deps[j].dependsOn, ∃ k ∈ emitted, cstr deps[k].serviceName = cstr dep)
    {pre post : List (Fin deps.length)} {k : Fin deps.length}
    (hsplit : emitted ++ [j] = pre ++ k :: post) :
    ∀ dep ∈ deps[k].dependsOn, ∃ k' ∈ pre, cstr deps[k'].serviceName = cstr dep := by
  rcases List.eq_nil_or_concat post with rfl | ⟨post, k', rfl⟩
  · obtain ⟨rfl, hlast⟩ := List.append_inj' hsplit rfl
    obtain rfl : j = k := by simpa using hlast
    exact hj
  · have hsplit' : emitted ++ [j] = (pre ++ k :: post) ++ [k'] := by
      rw [hsplit]
      simp
    exact h.behind pre k post (List.append_inj' hsplit' rfl).1

theorem Emits.placeService (h : Emits deps m st emitted) (hdeps : DepsInv deps)
    (hnamed : ∀ d ∈ deps, ∀ dep ∈ d.dependsOn, cstr dep ≠ [])
    (hroom : deps.length ≤ m) (i : ℕ) :
    ∃ emitted', Emits deps m (placeService deps count st i) emitted' := by
  rcases placeService_cases deps count st i with heq | ⟨hi, hnot, hfound, hcount, heq⟩
  · exact ⟨emitted, by rwa [heq]⟩
  · let j : Fin deps.length := ⟨i, hi⟩
    have hnew : j ∉ emitted := by
      intro hmem
      exact absurd (hnot.symm.trans (h.visited j hmem)) nofun
    have hspace : emitted.length < m := (h.length_lt hnew).trans_le hroom
    have hservices : st.services.length = m := by
      rw [h.services, List.length_append, List.length_map, zeroedNames, List.length_replicate]
      exact Nat.add_sub_cancel' hspace.le
    have hbound : i < st.visited.length := by
      rw [h.visited_length]
      exact hi.trans_le hdeps.length_le
    have hbehind : ∀ dep ∈ deps[j].dependsOn,
        ∃ k ∈ emitted, cstr deps[k].serviceName = cstr dep := fun dep hdep =>
      h.found hdeps ((hi.le.trans hroom).trans hservices.ge)
        (hnamed _ (List.getElem_mem hi) dep hdep) (hfound dep hdep)
    refine ⟨emitted ++ [j], ?_⟩
    rw [heq]
    refine ⟨h.modify_services j hspace, ?_, ?_, fun k hk => ?_, ?_,
      fun pre k post hsplit => h.behind_concat hbehind hsplit⟩
    · rw [h.ordered, List.length_append, List.length_singleton]
    · rw [List.length_set, h.visited_length]
    · rw [getD_set_true _ hbound]
      rcases List.mem_append.mp hk with hk | hk
      · exact .inr (h.visited k hk)
      · exact .inl (congrArg Fin.val (List.mem_singleton.mp hk))
    · exact (List.nodup_append_comm.mpr (List.nodup_cons.mpr ⟨hnew, h.nodup⟩))

end Emits

/-- The services in the output are different entries of the table, and each one stands
behind all its dependencies, for any `count`. An output array with fewer entries than the table
is read behind its end by the search, so the table has to fit. -/
theorem startupOrder_sound (calls : List DepsCall) (hfits : ∀ c ∈ calls, c.NameFits)
    (hnamed : ∀ c ∈ calls, c.DependenciesNamed) (m : ℕ) (count : ℤ)
    (hroom : (depsTable calls).length ≤ m) :
    let result := smDepsGetStartupOrder (depsTable calls) (zeroedNames m) count
    let names := (result.1.take result.2.1.toNat).map cstr
    (names.length : ℤ) = result.2.1 ∧ names.Nodup ∧
      (∀ name ∈ names, ∃ d ∈ depsTable calls, cstr d.serviceName = name) ∧
      ∀ d ∈ depsTable calls, ∀ dep ∈ d.dependsOn,
        PrecededBy names (cstr d.serviceName) (cstr dep) := by
  intro result names
  have hdeps := depsInv_depsTable calls
  have hdistinct := distinctNames_depsTable hfits
  obtain ⟨emitted, h⟩ : ∃ emitted, Emits (depsTable calls) m
      (orderState (depsTable calls) (zeroedNames m) count) emitted := by
    rw [orderState_eq_run]
    refine run_invariant (I := fun st => ∃ emitted, Emits (depsTable calls) m st emitted)
      (P := fun _ => True) ?_ ⟨[], emits_initial _ m⟩ fun _ _ => trivial
    rintro st i - ⟨emitted, h⟩
    exact h.placeService hdeps (dependsOn_ne_nil hnamed) hroom i
  have hcount : result.2.1 = emitted.length := congrArg Int.ofNat h.ordered
  have hnames : names = emitted.map fun i => cstr (depsTable calls)[i].serviceName := by
    have hservices : result.1 = _ := h.services
    change (result.1.take result.2.1.toNat).map cstr = _
    rw [hservices, hcount, Int.toNat_natCast, List.take_left' (List.length_map _),
      List.map_map]
    refine List.map_congr_left fun i _ => ?_
    exact hdeps.cstr_copy (List.getElem_mem i.isLt)
  have hinj : ∀ i k : Fin (depsTable calls).length,
      cstr (depsTable calls)[i].serviceName = cstr (depsTable calls)[k].serviceName →
        i = k := by
    intro i k heq
    exact Fin.ext (hdistinct.getElem_inj i.isLt k.isLt heq)
  rw [hnames]
  refine ⟨by rw [List.length_map, hcount], ?_, ?_, ?_⟩
  · exact h.nodup.map fun i k heq => hinj i k heq
  · simp only [List.forall_mem_map]
    exact fun i _ => ⟨_, List.getElem_mem i.isLt, rfl⟩
  · rintro d hd dep hdep pre post hsplit
    obtain ⟨emitted₁, emitted₂, hemitted, hpre, hrest⟩ := List.map_eq_append_iff.mp hsplit
    obtain ⟨i, emitted₃, rfl, hi, -⟩ := List.map_eq_cons_iff.mp hrest
    obtain ⟨k, hk, rfl⟩ := List.mem_iff_getElem.mp hd
    obtain rfl : i = ⟨k, hk⟩ := hinj i ⟨k, hk⟩ hi
    obtain ⟨j, hj, hname⟩ := h.behind _ _ _ hemitted dep hdep
    rw [← hpre, ← hname]
    exact List.mem_map_of_mem hj

/-- A service behind its dependency, in an array with room to spare. -/
theorem startupOrder_sound_ordered :
    let result := smDepsGetStartupOrder (depsTable orderedCalls) (zeroedNames 3) 2
    let names := (result.1.take result.2.1.toNat).map cstr
    (names.length : ℤ) = result.2.1 ∧ names.Nodup ∧
      (∀ name ∈ names, ∃ d ∈ depsTable orderedCalls, cstr d.serviceName = name) ∧
      ∀ d ∈ depsTable orderedCalls, ∀ dep ∈ d.dependsOn,
        PrecededBy names (cstr d.serviceName) (cstr dep) :=
  startupOrder_sound orderedCalls (by decide) (by decide) 3 2 (by decide)

end ServiceManager

end Shinigami
