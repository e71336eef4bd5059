import Shinigami.Foundations.Precedence
import Shinigami.ServiceManager.Lifecycle.GracefulShutdown

/-!
# Order of a shutdown

When a graceful shutdown terminates every live service, and each one before the
services it depends on. Both questions are about one list of names, the one
whose reverse is the order of termination: every live service has to occur in it,
and behind its dependencies (`shutsDownInOrder_iff_names`). With a start-up order
the list is the dependency table, which knows nothing of a service that declared
no dependencies; without one it is the registry, which knows nothing of the
dependencies.
-/

namespace Shinigami

namespace ServiceManager

open CString

/-- The dependency table names the second service as a dependency of the first. -/
def DependsDirectly (deps : List ServiceDeps) (svc svc' : ServiceEntry) : Prop :=
  ∃ d ∈ deps, cstr d.serviceName = cstr svc.name ∧
    ∃ dep ∈ d.dependsOn, cstr dep = cstr svc'.name

instance (deps : List ServiceDeps) (svc svc' : ServiceEntry) :
    Decidable (DependsDirectly deps svc svc') :=
  inferInstanceAs (Decidable (∃ d ∈ deps, _ ∧ ∃ dep ∈ d.dependsOn, _))

/-- Every live service is sent SIGTERM, with no SIGKILL before, and before it
every live service that depends on it is. -/
def ShutsDownInOrder (deps : List ServiceDeps) (r : Registry) (env : ShutdownEnv) :
    Prop :=
  (∀ svc ∈ liveServices r, ∃ pre post,
      smGracefulShutdown deps r env = pre ++ .signal svc .sigterm :: post ∧
        .signal svc .sigkill ∉ pre) ∧
    ∀ svc ∈ liveServices r, ∀ svc' ∈ liveServices r, DependsDirectly deps svc svc' →
      PrecededBy (smGracefulShutdown deps r env) (.signal svc' .sigterm)
        (.signal svc .sigterm)

/-- The start-up order is used. -/
def OrderAvailable (deps : List ServiceDeps) (r : Registry) : Prop :=
  deps ≠ [] ∧ deps.length ≤ r.registryCount ∧ RegisteredInOrder deps

/-- The dependency table has every live service, and each entry of a live
dependency stands in front of an entry of the service. -/
structure CoveredByTable (deps : List ServiceDeps) (r : Registry) : Prop where
  covered : ∀ svc ∈ liveServices r, ∃ d ∈ deps, cstr d.serviceName = cstr svc.name
  order : ∀ svc ∈ liveServices r, ∀ svc' ∈ liveServices r,
    DependsDirectly deps svc svc' →
      FollowedBy (deps.map fun d => cstr d.serviceName) (cstr svc'.name)
        (cstr svc.name)

/-- Every live service is registered after its live dependencies. -/
def DependentsRegisteredLater (deps : List ServiceDeps) (r : Registry) : Prop :=
  ∀ i < r.registryCount, ∀ j < r.registryCount, (r.registry i).signalled = true →
    (r.registry j).signalled = true →
      DependsDirectly deps (r.registry i) (r.registry j) → j < i

section Order

variable {deps : List ServiceDeps} {r : Registry} {env : ShutdownEnv}

/-- The live services that get a SIGTERM are those with a name in the list. -/
theorem sigterm_mem_iff (h : RegistryInv r) {svc : ServiceEntry}
    (hsvc : svc ∈ liveServices r) :
    .signal svc .sigterm ∈ terminateInOrder (registeredServices r)
        (terminationNames deps (registeredServices r)) ↔
      cstr svc.name ∈ terminationNames deps (registeredServices r) := by
  unfold terminateInOrder
  rw [List.mem_filterMap]
  constructor
  · rintro ⟨name, hname, heq⟩
    rw [List.mem_reverse] at hname
    rwa [(terminateNamed_terminationNames h hsvc hname).mp heq] at hname
  · intro hname
    exact ⟨_, List.mem_reverse.mpr hname,
      (terminateNamed_terminationNames h hsvc hname).mpr rfl⟩

theorem sigkill_notMem_terminateInOrder {services : List ServiceEntry}
    {names : List (List UInt8)} (svc : ServiceEntry) :
    .signal svc .sigkill ∉ terminateInOrder services names := by
  unfold terminateInOrder
  rw [List.mem_filterMap]
  rintro ⟨name, -, heq⟩
  unfold terminateNamed at heq
  split at heq
  · cases heq
  · split_ifs at heq
    cases heq

/-- A shutdown is in order exactly when the list of names has every live service,
and every live service behind its live dependencies. -/
theorem shutsDownInOrder_iff_names (hdeps : DepsInv deps) (h : RegistryInv r)
    (hcopy : env.firstOk = true ∨ registeredServices r = []) :
    ShutsDownInOrder deps r env ↔
      (∀ svc ∈ liveServices r,
          cstr svc.name ∈ terminationNames deps (registeredServices r)) ∧
        ∀ svc ∈ liveServices r, ∀ svc' ∈ liveServices r,
          DependsDirectly deps svc svc' →
            FollowedBy (terminationNames deps (registeredServices r))
              (cstr svc'.name) (cstr svc.name) := by
  obtain ⟨rest, hrest, htrace⟩ := smGracefulShutdown_eq hdeps h hcopy
  unfold ShutsDownInOrder
  rw [htrace]
  refine and_congr ?_ ?_
  · refine forall₂_congr fun svc hsvc => ?_
    rw [← sigterm_mem_iff h hsvc]
    constructor
    · rintro ⟨pre, post, heq, -⟩
      have hmem : ShutdownEvent.signal svc .sigterm ∈ terminateInOrder
          (registeredServices r) (terminationNames deps (registeredServices r)) ++ rest := by
        simp [heq]
      exact (List.mem_append.mp hmem).resolve_right (hrest svc)
    · intro hmem
      obtain ⟨pre, post, heq⟩ := List.append_of_mem hmem
      refine ⟨pre, post ++ rest, by rw [heq]; simp, fun hkill => ?_⟩
      refine sigkill_notMem_terminateInOrder svc (?_ : _ ∈ terminateInOrder
        (registeredServices r) (terminationNames deps (registeredServices r)))
      rw [heq]
      exact List.mem_append_left _ hkill
  · refine forall₂_congr fun svc hsvc => forall₂_congr fun svc' hsvc' => ?_
    rw [precededBy_append (hrest svc'), ← precededBy_reverse]
    refine imp_congr_right fun _ => precededBy_filterMap ?_ ?_
    · intro name hname
      exact terminateNamed_terminationNames h hsvc (List.mem_reverse.mp hname)
    · intro name hname
      exact terminateNamed_terminationNames h hsvc' (List.mem_reverse.mp hname)

theorem shutsDownInOrder_of_no_copy (h : smRegistryGetAll r env.firstOk = none) :
    ShutsDownInOrder deps r env ↔ liveServices r = [] := by
  have htrace : smGracefulShutdown deps r env = [] := by
    unfold smGracefulShutdown
    rw [h]
  unfold ShutsDownInOrder
  rw [htrace, List.eq_nil_iff_forall_not_mem]
  constructor
  · intro hall svc hsvc
    obtain ⟨pre, post, heq, -⟩ := hall.1 svc hsvc
    simp at heq
  · intro hnone
    exact ⟨fun svc hsvc => absurd hsvc (hnone svc),
      fun svc hsvc => absurd hsvc (hnone svc)⟩

theorem coveredByTable_iff (horder : OrderAvailable deps r) :
    ((∀ svc ∈ liveServices r,
        cstr svc.name ∈ terminationNames deps (registeredServices r)) ∧
      ∀ svc ∈ liveServices r, ∀ svc' ∈ liveServices r, DependsDirectly deps svc svc' →
        FollowedBy (terminationNames deps (registeredServices r))
          (cstr svc'.name) (cstr svc.name)) ↔ CoveredByTable deps r := by
  have hnames : terminationNames deps (registeredServices r) =
      deps.map fun d => cstr d.serviceName := by
    refine if_pos ⟨horder.1, ?_, horder.2.2⟩
    simpa [registeredServices] using horder.2.1
  rw [hnames]
  simp only [List.mem_map]
  exact ⟨fun h => ⟨h.1, h.2⟩, fun h => ⟨h.covered, h.order⟩⟩

theorem dependentsRegisteredLater_iff (hreg : RegistryInv r)
    (horder : ¬OrderAvailable deps r) :
    ((∀ svc ∈ liveServices r,
        cstr svc.name ∈ terminationNames deps (registeredServices r)) ∧
      ∀ svc ∈ liveServices r, ∀ svc' ∈ liveServices r, DependsDirectly deps svc svc' →
        FollowedBy (terminationNames deps (registeredServices r))
          (cstr svc'.name) (cstr svc.name)) ↔ DependentsRegisteredLater deps r := by
  have hnames : terminationNames deps (registeredServices r) =
      (List.range r.registryCount).map fun i => cstr (r.registry i).name := by
    refine (if_neg ?_).trans (by simp [registeredServices])
    simpa [OrderAvailable, registeredServices] using horder
  have hlive : ∀ svc, svc ∈ liveServices r ↔
      ∃ i < r.registryCount, r.registry i = svc ∧ svc.signalled = true := by
    intro svc
    simp only [mem_liveServices, registeredServices, List.mem_map, List.mem_range]
    constructor
    · rintro ⟨⟨i, hi, heq⟩, hsignalled⟩
      exact ⟨i, hi, heq, hsignalled⟩
    · rintro ⟨i, hi, heq, hsignalled⟩
      exact ⟨⟨i, hi, heq⟩, hsignalled⟩
  have hfollowed : ∀ i < r.registryCount, ∀ j < r.registryCount,
      (FollowedBy (terminationNames deps (registeredServices r))
        (cstr (r.registry j).name) (cstr (r.registry i).name) ↔ j < i) := by
    intro i hi j hj
    rw [hnames]
    exact followedBy_map_range hi hj fun i hi j hj => hreg.distinct i hi j hj
  constructor
  · rintro ⟨-, h⟩ i hi j hj hlivei hlivej hdep
    exact (hfollowed i hi j hj).mp (h _ ((hlive _).mpr ⟨i, hi, rfl, hlivei⟩) _
      ((hlive _).mpr ⟨j, hj, rfl, hlivej⟩) hdep)
  · intro h
    constructor
    · intro svc hsvc
      obtain ⟨i, hi, rfl, -⟩ := (hlive svc).mp hsvc
      rw [hnames]
      exact List.mem_map.mpr ⟨i, List.mem_range.mpr hi, rfl⟩
    · intro svc hsvc svc' hsvc' hdep
      obtain ⟨i, hi, rfl, hlivei⟩ := (hlive svc).mp hsvc
      obtain ⟨j, hj, rfl, hlivej⟩ := (hlive svc').mp hsvc'
      exact (hfollowed i hi j hj).mpr (h i hi j hj hlivei hlivej hdep)

end Order

/-- When a graceful shutdown is in order: its copy of the registry can be
allocated, or no service is live; and where the start-up order is used, the
dependency table has every live service behind its live dependencies, and where
it is not, the registry has. -/
theorem shutsDownInOrder_iff (calls : List DepsCall) {r : Registry}
    (hreg : RegistryInv r) (env : ShutdownEnv) :
    ShutsDownInOrder (depsTable calls) r env ↔
      (env.firstOk = true ∨ liveServices r = []) ∧
        (OrderAvailable (depsTable calls) r → CoveredByTable (depsTable calls) r) ∧
          (¬OrderAvailable (depsTable calls) r →
            DependentsRegisteredLater (depsTable calls) r) := by
  by_cases hcopy : env.firstOk = true ∨ registeredServices r = []
  · rw [shutsDownInOrder_iff_names (depsInv_depsTable calls) hreg hcopy]
    have hfirst : env.firstOk = true ∨ liveServices r = [] := by
      refine hcopy.imp_right fun hnil => ?_
      change (registeredServices r).filter _ = []
      rw [hnil, List.filter_nil]
    by_cases horder : OrderAvailable (depsTable calls) r
    · rw [coveredByTable_iff horder]
      exact ⟨fun h => ⟨hfirst, fun _ => h, absurd horder⟩, fun h => h.2.1 horder⟩
    · rw [dependentsRegisteredLater_iff hreg horder]
      exact ⟨fun h => ⟨hfirst, fun h' => absurd h' horder, fun _ => h⟩,
        fun h => h.2.2 horder⟩
  · obtain ⟨hfirst, hsome⟩ := not_or.mp hcopy
    have hcount : r.registryCount ≠ 0 := by simpa [registeredServices] using hsome
    rw [shutsDownInOrder_of_no_copy (by simp [smRegistryGetAll, hcount, hfirst])]
    constructor
    · intro hnone
      refine ⟨.inr hnone, fun _ => ⟨by simp [hnone], by simp [hnone]⟩, ?_⟩
      intro _ i hi j _ hlive
      have hmem : r.registry i ∈ liveServices r :=
        mem_liveServices.mpr ⟨List.mem_map.mpr ⟨i, List.mem_range.mpr hi, rfl⟩, hlive⟩
      simp [hnone] at hmem
    · exact fun h => h.1.resolve_left hfirst

def dbEntry : ServiceEntry :=
  { ServiceEntry.zero with name := ascii ['d', 'b'], pid := 10 }

def webEntry : ServiceEntry :=
  { ServiceEntry.zero with name := ascii ['w', 'e', 'b'], pid := 11 }

/-- `db` and `web`, registered in this order at time 100. -/
def dbWebRegistry : Registry :=
  (smRegistryAdd (smRegistryAdd Registry.zero dbEntry (fun _ => .alive) 100 100).1
    webEntry (fun _ => .alive) 100 100).1

theorem registryInv_dbWebRegistry : RegistryInv dbWebRegistry :=
  (registryInv_zero.smRegistryAdd (by decide) _ _ _).smRegistryAdd (by decide) _ _ _

/-- A shutdown with enough memory and a timeout of one second. -/
def shutdownEnv : ShutdownEnv := ⟨1, true, fun _ => true, true⟩

/-- Both services are in the table, and `web` depends on `db`. -/
def dbWebCalls : List DepsCall :=
  [⟨some (ascii ['d', 'b']), [], 0⟩, ⟨some (ascii ['w', 'e', 'b']), [ascii ['d', 'b']], 1⟩]

theorem orderAvailable_dbWebCalls : OrderAvailable (depsTable dbWebCalls) dbWebRegistry :=
  ⟨by decide +kernel, by decide +kernel, by decide +kernel⟩

theorem coveredByTable_dbWebCalls :
    CoveredByTable (depsTable dbWebCalls) dbWebRegistry := by
  have hlive : liveServices dbWebRegistry =
      [dbWebRegistry.registry 0, dbWebRegistry.registry 1] := by
    decide +kernel
  have hnames : (depsTable dbWebCalls).map (fun d => cstr d.serviceName) =
      [cstr (dbWebRegistry.registry 0).name, cstr (dbWebRegistry.registry 1).name] := by
    decide +kernel
  have honly : ∀ svc ∈ liveServices dbWebRegistry, ∀ svc' ∈ liveServices dbWebRegistry,
      DependsDirectly (depsTable dbWebCalls) svc svc' →
        svc = dbWebRegistry.registry 1 ∧ svc' = dbWebRegistry.registry 0 := by
    rw [hlive]
    decide +kernel
  refine ⟨?_, fun svc hsvc svc' hsvc' hdep => ?_⟩
  · rw [hlive]
    decide +kernel
  · obtain ⟨rfl, rfl⟩ := honly svc hsvc svc' hsvc' hdep
    rw [hnames]
    exact followedBy_pair (by decide +kernel)

/-- The table has both services, and `web` is asked to terminate before `db`. -/
theorem shutsDownInOrder_iff_dbWeb :
    DependsDirectly (depsTable dbWebCalls) (dbWebRegistry.registry 1)
        (dbWebRegistry.registry 0) ∧
      ShutsDownInOrder (depsTable dbWebCalls) dbWebRegistry shutdownEnv := by
  refine ⟨by decide +kernel,
    (shutsDownInOrder_iff dbWebCalls registryInv_dbWebRegistry shutdownEnv).mpr ?_⟩
  exact ⟨.inl rfl, fun _ => coveredByTable_dbWebCalls,
    absurd orderAvailable_dbWebCalls⟩

/-- `db` is in the dependency table, without dependencies of its own, and `web`
is not: `web` is killed without having been asked to terminate. -/
theorem undeclared_service_killed :
    ¬ShutsDownInOrder (depsTable [⟨some (ascii ['d', 'b']), [], 0⟩]) dbWebRegistry
      shutdownEnv := by
  rintro ⟨hall, -⟩
  obtain ⟨pre, post, htrace, -⟩ := hall (dbWebRegistry.registry 1) (by decide +kernel)
  have hmem : ShutdownEvent.signal (dbWebRegistry.registry 1) .sigterm ∈
      smGracefulShutdown (depsTable [⟨some (ascii ['d', 'b']), [], 0⟩]) dbWebRegistry
        shutdownEnv := by
    simp [htrace]
  revert hmem
  decide +kernel

end ServiceManager

end Shinigami
