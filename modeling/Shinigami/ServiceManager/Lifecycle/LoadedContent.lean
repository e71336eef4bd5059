import Shinigami.ServiceManager.Lifecycle.Reload

/-!
# Validity of what is loaded

The system of requests, health passes and loads of arbitrary files. The handlers
check names and paths, the loader does not: of an entry in a file only a blank
name is refused. So the registered entries are valid in every run whose loads
add valid entries only (`contentValid_storeRun`), and a file with a path outside
the allowed directories is enough to break this (`loaded_path_not_checked`).
-/

namespace Shinigami

namespace ServiceManager

open CString

/-- A request, a health pass, or a load of a file. -/
inductive StoreEvent
  | server (ev : Event)
  | load (file : List UInt8) (env : LoadEnv)

def storeStep (s : ServerState) : StoreEvent → ServerState
  | .server ev => serverStep s ev
  | .load file env =>
      { s with registry := (smPersistenceLoad s.registry (some file) env).1 }

/-- The state after `events`, from start-up. -/
def storeRun (start : Timespec) (events : List StoreEvent) : ServerState :=
  run storeStep (ServerState.init start) events

def AddsValid (env : LoadEnv) (r : Registry) (i : ℕ) : ℕ → List UInt8 → Prop
  | 0, _ => True
  | n + 1, bytes =>
      bytes.length < serviceEntrySize ∨
        (((addLoaded env r i bytes).2 = smOk →
          (loadedEntry (bytes.take serviceEntrySize)).Valid) ∧
        AddsValid env (addLoaded env r i bytes).1 (i + 1) n
          (bytes.drop serviceEntrySize))

instance decidableAddsValid (env : LoadEnv) :
    ∀ (r : Registry) (i n : ℕ) (bytes : List UInt8), Decidable (AddsValid env r i n bytes)
  | _, _, 0, _ => .isTrue trivial
  | r, i, n + 1, bytes =>
      @instDecidableOr _ _ _ (@instDecidableAnd _ _ _
        (decidableAddsValid env (addLoaded env r i bytes).1 (i + 1) n
          (bytes.drop serviceEntrySize)))

/-- A load adds valid entries only. -/
def StoreEvent.LoadsValid (s : ServerState) : StoreEvent → Prop
  | .server _ => True
  | .load file env =>
      AddsValid env s.registry 0 (fieldAt file 8 4) (file.drop 12)

instance (s : ServerState) : DecidablePred (StoreEvent.LoadsValid s)
  | .server _ => .isTrue trivial
  | .load file env => decidableAddsValid env s.registry 0 (fieldAt file 8 4) (file.drop 12)

section Step

variable {r : Registry}

/-- An addition keeps the invariant when the name is short, or it is refused. -/
theorem RegistryInv.smRegistryAdd_of_ok (h : RegistryInv r) {entry : ServiceEntry}
    (kill : ℤ → KillProbe) (now now' : ℤ)
    (hname : (ServiceManager.smRegistryAdd r entry kill now now').2 = smOk →
      (cstr entry.name).length < smMaxName) :
    RegistryInv (ServiceManager.smRegistryAdd r entry kill now now').1 := by
  rcases smRegistryAdd_cases r entry kill now now' with
    ⟨hsame, -⟩ | ⟨-, -, -, hadd⟩ | ⟨idx, -, hfind, -, ⟨-, hadd⟩ | ⟨-, hadd⟩⟩
  · rwa [hsame]
  · exact h.smRegistryAdd (hname (by rw [hadd])) kill now now'
  · rw [hadd]
    exact h.removeAt entry.name (h.of_hashFind hfind).1
  · exact h.smRegistryAdd (hname (by rw [hadd])) kill now now'

theorem contentValid_addLoaded (h : RegistryInv r) (hvalid : ContentValid r)
    (env : LoadEnv) (i : ℕ) (bytes : List UInt8)
    (hentry : (addLoaded env r i bytes).2 = smOk →
      (loadedEntry (bytes.take serviceEntrySize)).Valid) :
    RegistryInv (addLoaded env r i bytes).1 ∧ ContentValid (addLoaded env r i bytes).1 := by
  constructor
  · exact h.smRegistryAdd_of_ok _ _ _ fun hok =>
      length_of_smValidateServiceName (hentry hok).name
  · exact EntriesHold.smRegistryAdd hvalid h.shape _ fun hok =>
      ignoresState_valid _ _ (sameRegistration_initialised _ _ _) (hentry hok)

theorem contentValid_loadEntries (env : LoadEnv) {i n : ℕ} {bytes : List UInt8}
    (h : RegistryInv r) (hvalid : ContentValid r) (hadds : AddsValid env r i n bytes) :
    RegistryInv (loadEntries env r i n bytes) ∧
      ContentValid (loadEntries env r i n bytes) := by
  induction n generalizing r i bytes with
  | zero => exact ⟨h, hvalid⟩
  | succ n ih =>
      unfold loadEntries
      split_ifs with hshort
      · exact ⟨h, hvalid⟩
      · obtain ⟨hentry, hrest⟩ := hadds.resolve_left hshort
        obtain ⟨h', hvalid'⟩ := contentValid_addLoaded h hvalid env i bytes hentry
        exact ih h' hvalid' hrest

theorem contentValid_storeStep {s : ServerState} {ev : StoreEvent}
    (hev : ev.LoadsValid s)
    (h : RegistryInv s.registry ∧ ContentValid s.registry) :
    RegistryInv (storeStep s ev).registry ∧ ContentValid (storeStep s ev).registry := by
  cases ev with
  | server ev => exact ⟨registryInv_serverStep ev h.1, contentValid_serverStep ev h.1 h.2⟩
  | load file env =>
      simp only [storeStep, smPersistenceLoad]
      split_ifs
      · exact h
      · exact h
      · exact h
      · exact h
      · exact contentValid_loadEntries env h.1 h.2 hev

end Step

/-- In every run of requests, passes and loads that add valid entries only, every
registered entry has a valid name and valid paths. -/
theorem contentValid_storeRun (start : Timespec) (events : List StoreEvent)
    (hloads : Guarded storeStep (fun s ev => ev.LoadsValid s) (ServerState.init start)
      events) :
    ∀ seen rest, events = seen ++ rest → ContentValid (storeRun start seen).registry := by
  rintro seen rest rfl
  have hzero : ContentValid (ServerState.init start).registry :=
    fun i hi => absurd hi (Nat.not_lt_zero i)
  have hboth : RegistryInv (storeRun start seen).registry ∧
      ContentValid (storeRun start seen).registry :=
    run_invariant_of_guarded
      (I := fun s : ServerState => RegistryInv s.registry ∧ ContentValid s.registry)
      (fun _ _ hev h => contentValid_storeStep hev h) ⟨registryInv_zero, hzero⟩
      (guarded_append.mp hloads).1
  exact hboth.2

/-- The file of one service with the given socket path. -/
def fileWithPath (socketPath : List UInt8) : List UInt8 :=
  savedFile [{ registerEntry (thiefEnv 12) (thiefReq 'c') with
    name := ascii ['d', 'b'], socketPath := socketPath }]

/-- A registration, and the load of a file with a socket below `/run/`. -/
theorem contentValid_storeRun_valid :
    let events := [StoreEvent.server (.register (thiefEnv 10) (thiefReq 'a')),
      .load (fileWithPath (ascii ['/', 'r', 'u', 'n', '/', 'd', 'b'])) restartEnv]
    ContentValid (storeRun (.ofSeconds 0) events).registry ∧
      (storeRun (.ofSeconds 0) events).registry.registryCount = 2 := by
  intro events
  have hloads : Guarded storeStep (fun s ev => ev.LoadsValid s)
      (ServerState.init (.ofSeconds 0)) events := by
    decide +kernel
  exact ⟨contentValid_storeRun _ events hloads events [] (List.append_nil _).symm,
    by decide +kernel⟩

/-- A socket below `/etc/` is registered all the same. -/
theorem loaded_path_not_checked :
    ¬ ContentValid (storeRun (.ofSeconds 0)
      [.load (fileWithPath (ascii ['/', 'e', 't', 'c', '/', 'd', 'b']))
        restartEnv]).registry := by
  intro h
  have hpath := (h 0 (by decide +kernel)).socketPath
  revert hpath
  decide +kernel

end ServiceManager

end Shinigami
