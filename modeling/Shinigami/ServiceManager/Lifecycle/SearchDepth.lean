import Shinigami.ServiceManager.Lifecycle.CircularDependency

/-!
# The depth of the search for cycles

On a table without cycles `smDepsDetectCircular` can only fail by the limit on nested
calls. How deep the search goes depends on the order of the table and of the dependency
lists. In every order it stays within the limit when no chain of dependencies is longer
than the limit allows; and when there is a longer chain, the order that registers its
first service first and names its next service first in each list makes the search walk
along it (`detectCircular_anyOrder_iff`).
-/

namespace Shinigami

namespace ServiceManager

open CString DepthFirst

def SameService (d d' : ServiceDeps) : Prop :=
  d'.serviceName = d.serviceName ∧ d'.dependsOn.Perm d.dependsOn

/-- The second table has the services and the dependencies of the first in any order. -/
def Reordered (deps deps' : List ServiceDeps) : Prop :=
  ∃ f : ServiceDeps → ServiceDeps, (∀ d, SameService d (f d)) ∧ (deps.map f).Perm deps'

/-- No chain of dependencies has more than `n` services. -/
def ChainsWithin (deps : List ServiceDeps) (n : ℕ) : Prop :=
  ∀ l : List ServiceDeps, l.IsChain (DependsOn deps) → l.length ≤ n

section Reorder

variable {deps deps' : List ServiceDeps}

theorem Reordered.dependsOn (h : Reordered deps deps') :
    ∃ g : ServiceDeps → ServiceDeps,
      ∀ d d', DependsOn deps' d d' → DependsOn deps (g d) (g d') := by
  obtain ⟨f, hf, hperm⟩ := h
  have hback : ∀ d, ∃ e, d ∈ deps' → e ∈ deps ∧ f e = d := by
    intro d
    by_cases hd : d ∈ deps'
    · obtain ⟨e, he, heq⟩ := List.mem_map.mp (hperm.mem_iff.mpr hd)
      exact ⟨e, fun _ => ⟨he, heq⟩⟩
    · exact ⟨d, fun h => absurd h hd⟩
  choose g hg using hback
  refine ⟨g, ?_⟩
  rintro d d' ⟨hd, hd', dep, hdep, hname⟩
  obtain ⟨he, heq⟩ := hg d hd
  obtain ⟨he', heq'⟩ := hg d' hd'
  refine ⟨he, he', dep, ?_, ?_⟩
  · rw [← (hf (g d)).2.mem_iff, heq]
    exact hdep
  · rw [← (hf (g d')).1, heq', hname]

theorem Reordered.acyclic (h : Reordered deps deps') (hacyclic : Acyclic deps) :
    Acyclic deps' := by
  obtain ⟨g, hg⟩ := h.dependsOn
  intro d _ hcycle
  obtain ⟨d', hd', -⟩ := Relation.TransGen.head'_iff.mp hcycle
  exact hacyclic (g d) (hg _ _ hd').1 (hcycle.lift g hg)

theorem Reordered.chainsWithin (h : Reordered deps deps') {n : ℕ}
    (hchains : ChainsWithin deps n) : ChainsWithin deps' n := by
  obtain ⟨g, hg⟩ := h.dependsOn
  intro l hl
  have hmap : (l.map g).IsChain (DependsOn deps) :=
    (List.isChain_map g).mpr (hl.imp hg)
  rw [← List.length_map g]
  exact hchains _ hmap

end Reorder

theorem detectCircular_of_chainsWithin {deps : List ServiceDeps}
    (hdistinct : DistinctNames deps) (hacyclic : Acyclic deps)
    (hchains : ChainsWithin deps (maxRecursionDepth + 1)) :
    smDepsDetectCircular deps = 0 := by
  rw [hdistinct.detectCircular_eq_zero_iff]
  refine search_of_short hacyclic.dependencyIndices (fun i _ l hl => ?_) fun _ => rfl
  have hservices : ((i :: l).map fun i => deps.getD i .zero).IsChain (DependsOn deps) :=
    (List.isChain_map _).mpr (hl.imp fun _ _ => dependsOn_of_mem)
  have hlen := hchains _ hservices
  rwa [List.length_map, List.length_cons] at hlen

theorem mem_of_isChain {deps l : List ServiceDeps} (hchain : l.IsChain (DependsOn deps))
    (hlen : 1 < l.length) : ∀ d ∈ l, d ∈ deps := by
  induction l with
  | nil => exact nofun
  | cons d l ih =>
      cases l with
      | nil => exact absurd hlen (Nat.lt_irrefl 1)
      | cons d' l =>
          obtain ⟨hdep, hrest⟩ := List.isChain_cons_cons.mp hchain
          refine List.forall_mem_cons.mpr ⟨hdep.1, ?_⟩
          cases l with
          | nil => exact List.forall_mem_singleton.mpr hdep.2.1
          | cons e l => exact ih hrest (Nat.succ_lt_succ (Nat.zero_lt_succ _))

/-- The dependency that leads along a chain can be the first one of each list. -/
theorem exists_firstDependency {deps l : List ServiceDeps} (hnodup : l.Nodup)
    (hchain : l.IsChain (DependsOn deps)) :
    ∃ f : ServiceDeps → ServiceDeps, (∀ d, SameService d (f d)) ∧
      l.IsChain fun d d' => ∃ dep, (f d).dependsOn.head? = some dep ∧
        cstr d'.serviceName = cstr dep := by
  classical
  induction l with
  | nil => exact ⟨id, fun d => ⟨rfl, .refl _⟩, .nil⟩
  | cons d l ih =>
      obtain ⟨hd, hnodup⟩ := List.nodup_cons.mp hnodup
      obtain ⟨f, hf, hfirst⟩ := ih hnodup hchain.tail
      cases l with
      | nil => exact ⟨f, hf, .singleton d⟩
      | cons d' l =>
          obtain ⟨⟨-, -, dep, hdep, hname⟩, -⟩ := List.isChain_cons_cons.mp hchain
          refine ⟨Function.update f d { d with dependsOn := dep :: d.dependsOn.erase dep },
            fun e => ?_, List.isChain_cons_cons.mpr ⟨⟨dep, ?_, hname⟩, ?_⟩⟩
          · by_cases he : e = d
            · subst he
              rw [Function.update_self]
              exact ⟨rfl, (List.perm_cons_erase hdep).symm⟩
            · rw [Function.update_of_ne he]
              exact hf e
          · rw [Function.update_self, List.head?_cons]
          · refine hfirst.imp_of_mem_imp fun e e' he _ hnext => ?_
            have hne : e ≠ d := fun heq => hd (heq ▸ he)
            rwa [Function.update_of_ne hne]

theorem detectCircular_of_firstDependencies {deps : List ServiceDeps}
    (hdistinct : DistinctNames deps) (hacyclic : Acyclic deps) {d : ServiceDeps}
    {l : List ServiceDeps} (hd : deps.head? = some d) (hmem : ∀ e ∈ d :: l, e ∈ deps)
    (hfirst : (d :: l).IsChain fun e e' => ∃ dep, e.dependsOn.head? = some dep ∧
      cstr e'.serviceName = cstr dep)
    (hlong : maxRecursionDepth < l.length) : smDepsDetectCircular deps ≠ 0 := by
  obtain ⟨rest, rfl⟩ : ∃ rest, deps = d :: rest := by
    cases deps with
    | nil => cases hd
    | cons e rest =>
        rw [List.head?_cons, Option.some.injEq] at hd
        exact ⟨rest, by rw [hd]⟩
  generalize hdeps : d :: rest = deps at *
  have hpositions : ((d :: l).map (position deps)).IsChain
      fun i k => (dependencyIndices deps i).head? = some k := by
    refine (List.isChain_map _).mpr (hfirst.imp_of_mem_imp fun e e' he he' hnext => ?_)
    obtain ⟨dep, hhead, hname⟩ := hnext
    obtain ⟨dependsOn, hlist⟩ : ∃ dependsOn, e.dependsOn = dep :: dependsOn := by
      cases hlist : e.dependsOn with
      | nil => simp [hlist] at hhead
      | cons dep' dependsOn =>
          rw [hlist, List.head?_cons, Option.some.injEq] at hhead
          exact ⟨dependsOn, by rw [hhead]⟩
    rw [dependencyIndices, hdistinct.getD_position (hmem e he), hlist,
      List.filterMap_cons_some (hdistinct.findService_eq_position (hmem e' he') hname),
      List.head?_cons]
  have hzero : position deps d = 0 := by
    subst hdeps
    exact hdistinct.position_getElem (i := 0) (Nat.zero_lt_succ _)
  have hnodup : ((d :: l).map (position deps)).Nodup := by
    refine nodup_of_isChain hacyclic.dependencyIndices (hpositions.imp fun i k hk => ?_)
    exact List.mem_of_mem_head? hk
  rw [List.map_cons, hzero] at hpositions hnodup
  have hdeep : (visit (dependencyIndices deps) (maxRecursionDepth + 1) 0 .none).2 = true := by
    refine visit_of_deep hpositions hnodup (fun _ _ => rfl) ?_
    rw [List.length_map]
    exact hlong
  intro hnone
  rw [hdistinct.detectCircular_eq_zero_iff, ← hdeps, List.length_cons,
    List.range_succ_eq_map, search] at hnone
  rw [hdeps] at hnone
  split_ifs at hnone with hvisited
  · cases hvisited
  · split at hnone
    · cases hnone
    · rename_i m' heq
      rw [heq] at hdeep
      cases hdeep

structure ServiceDeps.Stored (d : ServiceDeps) : Prop where
  serviceName : strncpyField depsNameSize d.serviceName = d.serviceName
  dependsOn : ∀ dep ∈ d.dependsOn, strncpyField depsNameSize dep = dep
  length_le : d.dependsOn.length ≤ smMaxDeps

theorem strncpyField_strncpyField (n : ℕ) (src : List UInt8) :
    strncpyField n (strncpyField n src) = strncpyField n src := by
  have hcopy : (cstr (strncpyField n src)).take (n - 1) = (cstr src).take (n - 1) := by
    rw [cstr_strncpyField, List.take_take, min_self]
  have hlen : min (n - 1) (cstr (strncpyField n src)).length =
      min (n - 1) (cstr src).length := by
    rw [cstr_strncpyField, List.length_take]
    omega
  rw [strncpyField, hcopy, hlen]
  rfl

theorem stored_depsTable (calls : List DepsCall) : ∀ d ∈ depsTable calls, d.Stored := by
  refine run_invariant (I := fun deps => ∀ d ∈ deps, ServiceDeps.Stored d)
    (P := fun _ => True) (fun deps c _ h => ?_) (by simp) (by simp)
  unfold depsStep smDepsRegister
  split
  · exact h
  · rename_i name _
    split_ifs with hcount hdup hfull
    · exact h
    · exact h
    · exact h
    · intro d hd
      rcases List.mem_append.mp hd with hold | hnew
      · exact h d hold
      · rw [List.mem_singleton.mp hnew]
        refine ⟨strncpyField_strncpyField .., ?_, ?_⟩
        · simp only [List.forall_mem_map]
          exact fun dep _ => strncpyField_strncpyField ..
        · rw [List.length_map, List.length_take]
          omega

/-- The registration of an entry. -/
def ServiceDeps.call (d : ServiceDeps) : DepsCall :=
  ⟨some d.serviceName, d.dependsOn, d.dependsOn.length⟩

theorem ServiceDeps.Stored.nameFits {d : ServiceDeps} (h : d.Stored) : d.call.NameFits := by
  intro name hname
  rw [← Option.some.inj hname, ← h.serviceName, cstr_strncpyField, List.length_take]
  exact lt_of_le_of_lt (min_le_left _ _) (by decide)

theorem smDepsRegister_of_room {deps : List ServiceDeps} {name : List UInt8}
    {dependencies : List (List UInt8)} {depCount : ℤ}
    (hcount : ¬(depCount < 0 ∨ depCount > smMaxDeps))
    (hfresh : ¬(deps.any fun d => strcmpEq d.serviceName name) = true)
    (hroom : ¬deps.length ≥ maxServicesTracked) :
    smDepsRegister deps (some name) dependencies depCount =
      (deps ++ [⟨strncpyField depsNameSize name,
        (dependencies.take depCount.toNat).map (strncpyField depsNameSize)⟩], 0) := by
  rw [smDepsRegister, if_neg hcount, if_neg hfresh, if_neg hroom]

theorem run_depsStep_call {deps pre : List ServiceDeps}
    (hstored : ∀ d ∈ deps, ServiceDeps.Stored d) (hdistinct : DistinctNames (pre ++ deps))
    (hroom : (pre ++ deps).length ≤ maxServicesTracked) :
    run depsStep pre (deps.map ServiceDeps.call) = pre ++ deps := by
  induction deps generalizing pre with
  | nil => simp
  | cons d deps ih =>
      obtain ⟨hd, hdeps⟩ := List.forall_mem_cons.mp hstored
      have hsplit : pre ++ d :: deps = pre ++ [d] ++ deps := by simp
      have hfresh : ¬(pre.any fun e => strcmpEq e.serviceName d.serviceName) = true := by
        intro hany
        obtain ⟨e, he, hsame⟩ := List.any_eq_true.mp hany
        exact (List.pairwise_append.mp hdistinct).2.2 e he d List.mem_cons_self
          (strcmpEq_iff.mp hsame)
      have hcount : ¬((d.dependsOn.length : ℤ) < 0 ∨ (d.dependsOn.length : ℤ) > smMaxDeps) := by
        have := hd.length_le
        omega
      have hspace : ¬pre.length ≥ maxServicesTracked := by
        rw [List.length_append, List.length_cons] at hroom
        omega
      have hcopy : d.dependsOn.map (strncpyField depsNameSize) = d.dependsOn :=
        (List.map_congr_left hd.dependsOn).trans (List.map_id _)
      have hstep : depsStep pre d.call = pre ++ [d] := by
        apply (congrArg Prod.fst (smDepsRegister_of_room hcount hfresh hspace)).trans
        simp [ServiceDeps.call, hd.serviceName, hcopy]
      rw [List.map_cons, run_cons, hstep, hsplit]
      exact ih hdeps (hsplit ▸ hdistinct) (hsplit ▸ hroom)

theorem Reordered.exists_calls {calls : List DepsCall} {deps' : List ServiceDeps}
    (hfits : ∀ c ∈ calls, c.NameFits) (h : Reordered (depsTable calls) deps') :
    DistinctNames deps' ∧
      ∃ calls', (∀ c ∈ calls', DepsCall.NameFits c) ∧ depsTable calls' = deps' := by
  obtain ⟨f, hf, hperm⟩ := h
  have hdistinct : DistinctNames deps' := by
    refine hperm.pairwise (List.pairwise_map.mpr ?_) fun hne => Ne.symm hne
    refine (distinctNames_depsTable hfits).imp fun {d d'} hne => ?_
    rwa [(hf d).1, (hf d').1]
  have hstored : ∀ d ∈ deps', ServiceDeps.Stored d := by
    intro d hd
    obtain ⟨e, he, rfl⟩ := List.mem_map.mp (hperm.mem_iff.mpr hd)
    have hs := stored_depsTable calls e he
    refine ⟨by rw [(hf e).1, hs.serviceName], fun dep hdep => ?_, ?_⟩
    · exact hs.dependsOn dep ((hf e).2.mem_iff.mp hdep)
    · rw [(hf e).2.length_eq]
      exact hs.length_le
  have hroom : deps'.length ≤ maxServicesTracked := by
    rw [← hperm.length_eq, List.length_map]
    exact (depsInv_depsTable calls).length_le
  refine ⟨hdistinct, deps'.map ServiceDeps.call, ?_, run_depsStep_call hstored hdistinct hroom⟩
  simp only [List.forall_mem_map]
  exact fun d hd => (hstored d hd).nameFits

theorem exists_reordered_detected {calls : List DepsCall} (hfits : ∀ c ∈ calls, c.NameFits)
    (hacyclic : Acyclic (depsTable calls)) {l : List ServiceDeps}
    (hchain : l.IsChain (DependsOn (depsTable calls)))
    (hlong : maxRecursionDepth + 1 < l.length) :
    ∃ deps', Reordered (depsTable calls) deps' ∧ smDepsDetectCircular deps' ≠ 0 := by
  have hcycle : ∀ d, ¬Relation.TransGen (DependsOn (depsTable calls)) d d := by
    intro d hcycle
    obtain ⟨d', hd', -⟩ := Relation.TransGen.head'_iff.mp hcycle
    exact hacyclic d hd'.1 hcycle
  have hmem := mem_of_isChain hchain (Nat.lt_of_le_of_lt (Nat.le_add_left 1 _) hlong)
  obtain ⟨f, hf, hfirst⟩ := exists_firstDependency (nodup_of_isChain hcycle hchain) hchain
  cases l with
  | nil => exact absurd hlong (Nat.not_lt_zero _)
  | cons d l =>
      obtain ⟨pre, post, htable⟩ := List.append_of_mem (hmem d List.mem_cons_self)
      have hreordered : Reordered (depsTable calls) ((d :: (pre ++ post)).map f) := by
        refine ⟨f, hf, List.Perm.map f ?_⟩
        rw [htable]
        exact List.perm_middle
      obtain ⟨hdistinct, -⟩ := hreordered.exists_calls hfits
      refine ⟨_, hreordered, detectCircular_of_firstDependencies hdistinct
        (hreordered.acyclic hacyclic) (d := f d) (l := l.map f) rfl ?_ ?_ ?_⟩
      · rw [← List.map_cons, List.forall_mem_map]
        intro e he
        apply List.mem_map_of_mem
        have hin := hmem e he
        rw [htable] at hin
        exact List.perm_middle.mem_iff.mp hin
      · rw [← List.map_cons]
        refine (List.isChain_map f).mpr (hfirst.imp fun e e' hnext => ?_)
        rwa [(hf e').1]
      · rw [List.length_map]
        exact Nat.lt_of_succ_lt_succ hlong

/-- On a table without cycles the search reports nothing, in whatever order the services
and their dependencies are registered, exactly when no chain of dependencies has more
services than calls may be nested. -/
theorem detectCircular_anyOrder_iff (calls : List DepsCall)
    (hfits : ∀ c ∈ calls, c.NameFits) (hacyclic : Acyclic (depsTable calls)) :
    (∀ calls', (∀ c ∈ calls', DepsCall.NameFits c) →
        Reordered (depsTable calls) (depsTable calls') →
        smDepsDetectCircular (depsTable calls') = 0) ↔
      ChainsWithin (depsTable calls) (maxRecursionDepth + 1) := by
  constructor
  · intro h l hchain
    by_contra hlong
    obtain ⟨deps', hreordered, hdetected⟩ :=
      exists_reordered_detected hfits hacyclic hchain (Nat.not_le.mp hlong)
    obtain ⟨-, calls', hfits', rfl⟩ := hreordered.exists_calls hfits
    exact hdetected (h calls' hfits' hreordered)
  · intro hchains calls' hfits' hreordered
    exact detectCircular_of_chainsWithin (distinctNames_depsTable hfits')
      (hreordered.acyclic hacyclic) (hreordered.chainsWithin hchains)

/-- A table whose dependencies all point to later positions has no cycle. -/
theorem DistinctNames.acyclic_of_forward {deps : List ServiceDeps} (h : DistinctNames deps)
    (hforward : ∀ i < deps.length, ∀ k ∈ dependencyIndices deps i, i < k) :
    Acyclic deps := by
  refine h.acyclic fun i _ hcycle => Nat.lt_irrefl i ?_
  have hstep : ∀ i k, k ∈ dependencyIndices deps i → i < k := by
    intro i k hk
    refine hforward i ?_ k hk
    by_contra hi
    rw [dependencyIndices, List.getD_eq_default _ _ (Nat.not_lt.mp hi)] at hk
    cases hk
  have hlt : ∀ k, Relation.TransGen (fun i k => k ∈ dependencyIndices deps i) i k → i < k := by
    intro k hpath
    induction hpath with
    | single hk => exact hstep _ _ hk
    | tail _ hk ih => exact ih.trans (hstep _ _ hk)
  exact hlt i hcycle

theorem Acyclic.chainsWithin {deps : List ServiceDeps} (h : Acyclic deps) {n : ℕ}
    (hpos : 0 < n) (hn : deps.length ≤ n) : ChainsWithin deps n := by
  intro l hchain
  rcases Nat.lt_or_ge 1 l.length with hlong | hshort
  · have hcycle : ∀ d, ¬Relation.TransGen (DependsOn deps) d d := by
      intro d hcycle
      obtain ⟨d', hd', -⟩ := Relation.TransGen.head'_iff.mp hcycle
      exact h d hd'.1 hcycle
    have hsub : l.Subperm deps :=
      (nodup_of_isChain hcycle hchain).subperm fun d hd => mem_of_isChain hchain hlong d hd
    exact hsub.length_le.trans hn
  · exact hshort.trans hpos

/-- A service that depends on another one, in both orders. -/
theorem detectCircular_anyOrder_iff_two :
    ChainsWithin (depsTable orderedCalls.reverse) (maxRecursionDepth + 1) ∧
      ∀ calls, (∀ c ∈ calls, DepsCall.NameFits c) →
        Reordered (depsTable orderedCalls.reverse) (depsTable calls) →
        smDepsDetectCircular (depsTable calls) = 0 := by
  have hacyclic : Acyclic (depsTable orderedCalls.reverse) :=
    (distinctNames_depsTable (by decide)).acyclic_of_forward (by decide)
  have hchains : ChainsWithin (depsTable orderedCalls.reverse) (maxRecursionDepth + 1) :=
    hacyclic.chainsWithin (by decide) (by decide)
  exact ⟨hchains,
    (detectCircular_anyOrder_iff orderedCalls.reverse (by decide) hacyclic).mpr hchains⟩

/-- Twelve services, each of which depends on the next one. -/
def deepCalls : List DepsCall :=
  (List.range 12).map fun k =>
    if k < 11 then ⟨some [97 + UInt8.ofNat k], [[98 + UInt8.ofNat k]], 1⟩
    else ⟨some [97 + UInt8.ofNat k], [], 0⟩

/-- They have no cycle, and the search from the first one reports a cycle. -/
theorem deep_chain_detected :
    (∀ c ∈ deepCalls, c.NameFits) ∧ Acyclic (depsTable deepCalls) ∧
      smDepsDetectCircular (depsTable deepCalls) = 1 := by
  have hfits : ∀ c ∈ deepCalls, c.NameFits := by decide
  exact ⟨hfits, (distinctNames_depsTable hfits).acyclic_of_forward (by decide +kernel),
    by decide +kernel⟩

end ServiceManager

end Shinigami
