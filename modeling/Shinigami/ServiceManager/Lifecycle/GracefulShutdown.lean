import Shinigami.Foundations.Precedence
import Shinigami.ServiceManager.Infrastructure.Registry.Operations
import Shinigami.ServiceManager.Lifecycle.StartupOrder
import Shinigami.ServiceManager.Observability.Health

/-!
# Graceful shutdown

The signals of `sm_graceful_shutdown`, over one registry content and one
dependency table. The services are terminated in the reverse of the start-up
order if there is one, else in the reverse of the registry; both are the reverse
of a list of names (`terminations_eq`). In the first case that list holds the
services of the dependency table and no others.

A signal event carries the entry whose process gets the signal. The waiting time
and the shutdown hooks are left out; the registry is the one the hooks leave.
-/

namespace Shinigami

namespace ServiceManager

open CString

inductive ShutdownEvent
  | signal (svc : ServiceEntry) (sig : Signal)
  | wait
  | save
deriving DecidableEq

/-- The timeout, and whether the copies of the registry can be allocated: the
first one, the ones of the polling loop, and the last one. -/
structure ShutdownEnv where
  timeoutSec : ℤ
  firstOk : Bool
  pollOk : ℕ → Bool
  lastOk : Bool

def ServiceEntry.signalled (svc : ServiceEntry) : Bool :=
  decide (svc.status ≠ .stopped) && decide (svc.pid > 1)

def terminateNamed (services : List ServiceEntry) (name : List UInt8) :
    Option ShutdownEvent :=
  match services.find? fun svc => strcmpEq svc.name name with
  | none => none
  | some svc => if svc.signalled then some (.signal svc .sigterm) else none

def terminateInOrder (services : List ServiceEntry) (startupOrder : List (List UInt8)) :
    List ShutdownEvent :=
  startupOrder.reverse.filterMap (terminateNamed services)

def terminateReversed (services : List ServiceEntry) : List ShutdownEvent :=
  (services.reverse.filter (·.signalled)).map (.signal · .sigterm)

/-- The polling loop from round `i` on, with `n` rounds left. -/
def pollLoop (r : Registry) (pollOk : ℕ → Bool) (i : ℕ) : ℕ → List ShutdownEvent
  | 0 => []
  | n + 1 =>
      let running :=
        match smRegistryGetAll r (pollOk i) with
        | none => 0
        | some services => services.countP fun svc => decide (svc.status ≠ .stopped)
      .wait :: if running = 0 then [] else pollLoop r pollOk (i + 1) n

def killRemaining (r : Registry) (lastOk : Bool) : List ShutdownEvent :=
  match smRegistryGetAll r lastOk with
  | none => []
  | some services => (services.filter (·.signalled)).map (.signal · .sigkill)

def terminations (deps : List ServiceDeps) (services : List ServiceEntry) :
    List ShutdownEvent :=
  let (startupOrder, orderedCount, rc) :=
    smDepsGetStartupOrder deps (zeroedNames maxServicesTracked) services.length
  if rc = 0 ∧ orderedCount > 0 then
    terminateInOrder services (startupOrder.take orderedCount.toNat)
  else terminateReversed services

/-- `sm_graceful_shutdown`. -/
def smGracefulShutdown (deps : List ServiceDeps) (r : Registry) (env : ShutdownEnv) :
    List ShutdownEvent :=
  match smRegistryGetAll r env.firstOk with
  | none => []
  | some services =>
      terminations deps services ++
        (pollLoop r env.pollOk 0 (env.timeoutSec * 10).toNat ++
          killRemaining r env.lastOk ++ [.save])

/-- The registered services that are signalled. -/
def liveServices (r : Registry) : List ServiceEntry :=
  ((List.range r.registryCount).map r.registry).filter (·.signalled)

def terminationNames (deps : List ServiceDeps) (services : List ServiceEntry) :
    List (List UInt8) :=
  if deps ≠ [] ∧ deps.length ≤ services.length ∧ RegisteredInOrder deps then
    deps.map fun d => cstr d.serviceName
  else services.map fun svc => cstr svc.name

theorem strcmpEq_cstr (a b : List UInt8) : strcmpEq a (cstr b) = strcmpEq a b := by
  simp [strcmpEq, cstr_eq_self (zero_notMem_cstr b)]

theorem terminateInOrder_map_cstr (services : List ServiceEntry)
    (names : List (List UInt8)) :
    terminateInOrder services (names.map cstr) = terminateInOrder services names := by
  unfold terminateInOrder
  rw [← List.map_reverse, List.filterMap_map]
  congr 1
  funext name
  simp [terminateNamed, strcmpEq_cstr]

def NamesDistinct (services : List ServiceEntry) : Prop :=
  services.Pairwise fun svc svc' => cstr svc.name ≠ cstr svc'.name

theorem find_of_namesDistinct {services : List ServiceEntry}
    (h : NamesDistinct services) {svc : ServiceEntry} (hsvc : svc ∈ services)
    {name : List UInt8} (hname : cstr svc.name = cstr name) :
    services.find? (fun svc => strcmpEq svc.name name) = some svc := by
  induction services with
  | nil => cases hsvc
  | cons svc' services ih =>
      obtain ⟨hhead, htail⟩ := List.pairwise_cons.mp h
      by_cases heq : cstr svc'.name = cstr name
      · rcases List.mem_cons.mp hsvc with rfl | hmem
        · simp [strcmpEq, hname]
        · exact absurd (heq.trans hname.symm) (hhead svc hmem)
      · have hmem : svc ∈ services := by
          rcases List.mem_cons.mp hsvc with rfl | hmem
          · exact absurd hname heq
          · exact hmem
        rw [List.find?_cons_of_neg (by simpa [strcmpEq] using heq)]
        exact ih htail hmem

theorem terminateNamed_eq_some_iff {services : List ServiceEntry}
    (h : NamesDistinct services) {svc : ServiceEntry} (hsvc : svc ∈ services)
    (hlive : svc.signalled = true) (name : List UInt8) :
    terminateNamed services name = some (.signal svc .sigterm) ↔
      cstr name = cstr svc.name := by
  constructor
  · intro heq
    unfold terminateNamed at heq
    split at heq
    · cases heq
    · rename_i svc' hfind
      split_ifs at heq
      cases heq
      have hcmp := List.find?_some hfind
      exact (strcmpEq_iff.mp hcmp).symm
  · intro hname
    unfold terminateNamed
    rw [find_of_namesDistinct h hsvc hname.symm]
    exact if_pos hlive

/-- The fallback terminates in the reverse order of the names in the registry. -/
theorem terminateReversed_eq {services : List ServiceEntry}
    (h : NamesDistinct services) :
    terminateReversed services =
      terminateInOrder services (services.map fun svc => cstr svc.name) := by
  have hfind : ∀ svc ∈ services.reverse,
      terminateNamed services (cstr svc.name) =
        if svc.signalled then some (.signal svc .sigterm) else none := by
    intro svc hsvc
    unfold terminateNamed
    rw [find_of_namesDistinct h (List.mem_reverse.mp hsvc)
      (cstr_eq_self (zero_notMem_cstr svc.name)).symm]
  unfold terminateReversed terminateInOrder
  rw [← List.map_reverse, List.filterMap_map, ← List.filterMap_eq_filter,
    List.map_filterMap]
  refine List.filterMap_congr fun svc hsvc => ?_
  rw [Function.comp_apply, hfind svc hsvc]
  by_cases hlive : svc.signalled = true <;> simp [Option.guard, hlive]

theorem terminations_eq {deps : List ServiceDeps} (hdeps : DepsInv deps)
    {services : List ServiceEntry} (h : NamesDistinct services) :
    terminations deps services =
      terminateInOrder services (terminationNames deps services) := by
  unfold terminations terminationNames
  dsimp only
  have hm := hdeps.length_le
  by_cases hsmall : deps.length ≤ services.length
  · have hcount : (deps.length : ℤ) ≤ services.length := by exact_mod_cast hsmall
    have hrc := smDepsGetStartupOrder_rc hdeps hm hcount
    by_cases horder : RegisteredInOrder deps
    · obtain ⟨hordered, hnames⟩ := orderState_of_registeredInOrder hdeps hm hcount horder
      have hout : (smDepsGetStartupOrder deps (zeroedNames maxServicesTracked)
          services.length).2.1 = deps.length := congrArg _ hordered
      rw [hout, Int.toNat_natCast]
      by_cases hnil : deps = []
      · rw [if_neg (by simp [hnil]), if_neg (by simp [hnil])]
        exact terminateReversed_eq h
      · have hpos : (deps.length : ℤ) > 0 := by
          exact_mod_cast List.length_pos_iff.mpr hnil
        rw [if_pos ⟨hrc.mpr horder, hpos⟩, if_pos ⟨hnil, hsmall, horder⟩, ← hnames,
          terminateInOrder_map_cstr]
        rfl
    · rw [if_neg fun hboth => horder (hrc.mp hboth.1),
        if_neg fun hboth => horder hboth.2.2]
      exact terminateReversed_eq h
  · have hle := ordered_le_count deps (zeroedNames maxServicesTracked)
      (Int.natCast_nonneg services.length)
    have hne : (orderState deps (zeroedNames maxServicesTracked)
        services.length).ordered ≠ deps.length := by
      intro heq
      rw [heq] at hle
      exact hsmall (by exact_mod_cast hle)
    have hrc : (smDepsGetStartupOrder deps (zeroedNames maxServicesTracked)
        services.length).2.2 ≠ 0 := by
      simp [smDepsGetStartupOrder, hne]
    rw [if_neg fun hboth => hrc hboth.1, if_neg fun hboth => hsmall hboth.2.1]
    exact terminateReversed_eq h

section Trace

variable {deps : List ServiceDeps} {r : Registry} {env : ShutdownEnv}

def registeredServices (r : Registry) : List ServiceEntry :=
  (List.range r.registryCount).map r.registry

theorem namesDistinct_registeredServices (h : RegistryInv r) :
    NamesDistinct (registeredServices r) := by
  unfold NamesDistinct registeredServices
  rw [List.pairwise_map]
  apply (List.pairwise_lt_range (n := r.registryCount)).imp_of_mem
  intro i j hi hj hlt heq
  have := h.distinct i (List.mem_range.mp hi) j (List.mem_range.mp hj) heq
  omega

theorem mem_liveServices {svc : ServiceEntry} :
    svc ∈ liveServices r ↔ svc ∈ registeredServices r ∧ svc.signalled = true :=
  List.mem_filter

theorem smRegistryGetAll_eq {mallocOk : Bool}
    (h : mallocOk = true ∨ registeredServices r = []) :
    smRegistryGetAll r mallocOk = some (registeredServices r) := by
  unfold smRegistryGetAll registeredServices at *
  by_cases hzero : r.registryCount = 0
  · simp [hzero]
  · have hok : mallocOk = true := by simpa [hzero] using h
    simp [hzero, hok]

theorem sigterm_notMem_pollLoop (pollOk : ℕ → Bool) (i n : ℕ) (svc : ServiceEntry) :
    .signal svc .sigterm ∉ pollLoop r pollOk i n := by
  induction n generalizing i with
  | zero => simp [pollLoop]
  | succ n ih =>
      unfold pollLoop
      dsimp only
      split_ifs
      · simp
      · simpa using ih (i + 1)

theorem sigterm_notMem_killRemaining (lastOk : Bool) (svc : ServiceEntry) :
    .signal svc .sigterm ∉ killRemaining r lastOk := by
  unfold killRemaining
  split
  · simp
  · simp

/-- With a copy of the registry the terminations come first, and the rest holds
no SIGTERM. -/
theorem smGracefulShutdown_eq (hdeps : DepsInv deps) (h : RegistryInv r)
    (hcopy : env.firstOk = true ∨ registeredServices r = []) :
    ∃ rest, (∀ svc, .signal svc .sigterm ∉ rest) ∧
      smGracefulShutdown deps r env =
        terminateInOrder (registeredServices r)
          (terminationNames deps (registeredServices r)) ++ rest := by
  refine ⟨pollLoop r env.pollOk 0 (env.timeoutSec * 10).toNat ++
    killRemaining r env.lastOk ++ [.save], ?_, ?_⟩
  · intro svc
    simp [sigterm_notMem_pollLoop, sigterm_notMem_killRemaining]
  · unfold smGracefulShutdown
    rw [smRegistryGetAll_eq hcopy]
    dsimp only
    rw [terminations_eq hdeps (namesDistinct_registeredServices h)]

theorem cstr_of_mem_terminationNames {services : List ServiceEntry} {name : List UInt8}
    (h : name ∈ terminationNames deps services) : cstr name = name := by
  unfold terminationNames at h
  split_ifs at h
  · obtain ⟨d, -, rfl⟩ := List.mem_map.mp h
    exact cstr_eq_self (zero_notMem_cstr _)
  · obtain ⟨svc, -, rfl⟩ := List.mem_map.mp h
    exact cstr_eq_self (zero_notMem_cstr _)

theorem terminateNamed_terminationNames (h : RegistryInv r) {svc : ServiceEntry}
    (hsvc : svc ∈ liveServices r) {name : List UInt8}
    (hname : name ∈ terminationNames deps (registeredServices r)) :
    terminateNamed (registeredServices r) name = some (.signal svc .sigterm) ↔
      name = cstr svc.name := by
  obtain ⟨hmem, hlive⟩ := mem_liveServices.mp hsvc
  rw [terminateNamed_eq_some_iff (namesDistinct_registeredServices h) hmem hlive,
    cstr_of_mem_terminationNames hname]

end Trace

end ServiceManager

end Shinigami
