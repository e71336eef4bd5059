import Shinigami.ServiceManager.Lifecycle.Persistence

/-!
# Loading what was saved

The bytes of an entry give its registration back (`sameRegistration_loadedEntry`),
so a saved registry is loaded with all its entries in their order
(`reload_serverRun`). The mark that the loader puts on them is lost on the way:
`sm_registry_add` makes every entry a running one. So the loaded services are
crashed, as the loader wants them, only if there are none
(`roundTrips_iff`).
-/

namespace Shinigami

namespace ServiceManager

open CString LittleEndian

structure ServiceEntry.Storable (e : ServiceEntry) : Prop where
  name_length : e.name.length = smMaxName
  name_terminated : (0 : UInt8) ∈ e.name
  socketPath_length : e.socketPath.length = smMaxPath
  socketPath_terminated : (0 : UInt8) ∈ e.socketPath
  ringName_length : e.ringName.length = smMaxPath
  ringName_terminated : (0 : UInt8) ∈ e.ringName
  pid_low : -2 ^ 31 ≤ e.pid
  pid_high : e.pid < 2 ^ 31
  uid_lt : e.uid < 2 ^ 32
  gid_lt : e.gid < 2 ^ 32

@[simp] theorem length_charField (n : ℕ) (s : List UInt8) :
    (charField n s).length = n := by
  simp [charField]

theorem charField_of_length {n : ℕ} {s : List UInt8} (h : s.length = n) :
    charField n s = s := by
  rw [charField, ← h, List.take_left]

@[simp] theorem length_encodeInt64 (x : ℤ) : (encodeInt64 x).length = 8 := by
  simp [encodeInt64]

@[simp] theorem length_encodeEntry (e : ServiceEntry) :
    (encodeEntry e).length = serviceEntrySize := by
  simp [encodeEntry, smMaxName, smMaxPath, serviceEntrySize]

/-- The fields of an entry stand at their offsets. -/
theorem take_encodeEntry (e : ServiceEntry) :
    (encodeEntry e).take smMaxName = charField smMaxName e.name ∧
      ((encodeEntry e).drop 64).take smMaxPath = charField smMaxPath e.socketPath ∧
      ((encodeEntry e).drop 320).take smMaxPath = charField smMaxPath e.ringName ∧
      ((encodeEntry e).drop 576).take 4 = encodeInt32 e.pid ∧
      ((encodeEntry e).drop 580).take 4 = leBytes 4 e.uid ∧
      ((encodeEntry e).drop 584).take 4 = leBytes 4 e.gid ∧
      ((encodeEntry e).drop 600).take 4 = leBytes 4 e.tier.number := by
  simp [encodeEntry, smMaxName, smMaxPath, List.drop_append, List.drop_eq_nil_of_le]

theorem stringField_of_terminated {bytes s : List UInt8} {off n : ℕ}
    (hfield : (bytes.drop off).take n = s) (hzero : (0 : UInt8) ∈ s) :
    stringField bytes off n = s := by
  simp only [stringField, hfield]
  exact if_pos hzero

theorem ServiceTier.ofNumber_number (tier : ServiceTier) :
    ServiceTier.ofNumber tier.number = tier := by
  cases tier <;> rfl

theorem sameRegistration_of_fields {e : ServiceEntry} {bytes : List UInt8}
    (hname : stringField bytes 0 smMaxName = e.name)
    (hpath : stringField bytes 64 smMaxPath = e.socketPath)
    (hring : stringField bytes 320 smMaxPath = e.ringName)
    (hpid : intField bytes 576 4 = e.pid) (huid : fieldAt bytes 580 4 = e.uid)
    (hgid : fieldAt bytes 584 4 = e.gid)
    (htier : ServiceTier.ofNumber (fieldAt bytes 600 4) = e.tier) :
    SameRegistration e (loadedEntry bytes) :=
  ⟨⟨hname, hpid, huid, hpath, hring⟩, hgid, htier⟩

theorem sameRegistration_loadedEntry {e : ServiceEntry} (h : e.Storable) :
    SameRegistration e (loadedEntry (encodeEntry e)) := by
  obtain ⟨hname, hpath, hring, hpid, huid, hgid, htier⟩ := take_encodeEntry e
  rw [charField_of_length h.name_length] at hname
  rw [charField_of_length h.socketPath_length] at hpath
  rw [charField_of_length h.ringName_length] at hring
  have hnumber : e.tier.number < 256 ^ 4 := by cases e.tier <;> decide
  apply sameRegistration_of_fields
  · exact stringField_of_terminated hname h.name_terminated
  · exact stringField_of_terminated hpath h.socketPath_terminated
  · exact stringField_of_terminated hring h.ringName_terminated
  · rw [intField, hpid]
    exact leInt_encodeInt32 h.pid_low h.pid_high
  · rw [fieldAt, huid]
    exact leNat_leBytes_of_lt h.uid_lt
  · rw [fieldAt, hgid]
    exact leNat_leBytes_of_lt h.gid_lt
  · rw [fieldAt, htier, leNat_leBytes_of_lt hnumber]
    exact e.tier.ofNumber_number

def savedFile (services : List ServiceEntry) : List UInt8 :=
  leBytes 4 persistenceMagic ++ leBytes 4 persistenceVersion ++
    leBytes 4 services.length ++ services.flatMap encodeEntry

/-- The registered entries in their order. -/
def Registry.entries (r : Registry) : List ServiceEntry :=
  (List.range r.registryCount).map r.registry

@[simp] theorem Registry.length_entries (r : Registry) :
    r.entries.length = r.registryCount := by
  simp [Registry.entries]

theorem smPersistenceSave_eq (r : Registry) :
    smPersistenceSave r true true = (some (savedFile r.entries), 0) := by
  have hall : smRegistryGetAll r true = some r.entries := by
    rw [smRegistryGetAll, Registry.entries]
    by_cases hzero : r.registryCount = 0
    · simp [hzero]
    · simp [hzero]
  simp only [smPersistenceSave, hall, savedFile, Bool.not_true, Bool.false_eq_true,
    if_false]

theorem length_savedFile (services : List ServiceEntry) :
    12 ≤ (savedFile services).length := by
  simp only [savedFile, List.length_append, length_leBytes]
  omega

theorem smPersistenceLoad_savedFile {services : List ServiceEntry}
    (hcount : services.length ≤ smMaxServices) (r : Registry) (env : LoadEnv) :
    smPersistenceLoad r (some (savedFile services)) env =
      (loadEntries env r 0 services.length (services.flatMap encodeEntry), 0) := by
  have hlength := length_savedFile services
  have hcount' : services.length ≤ 32 := hcount
  have hbytes : (savedFile services).drop 8 =
      leBytes 4 services.length ++ services.flatMap encodeEntry := by
    simp [savedFile, List.drop_append]
  have hmagic : fieldAt (savedFile services) 0 4 = persistenceMagic := by
    simp only [fieldAt, savedFile, List.drop_zero, List.append_assoc]
    rw [List.take_append_of_le_length (by simp), List.take_of_length_le (by simp)]
    exact leNat_leBytes_of_lt (by decide)
  have hversion : fieldAt (savedFile services) 4 4 = persistenceVersion := by
    have hdrop : (savedFile services).drop 4 = leBytes 4 persistenceVersion ++
        (leBytes 4 services.length ++ services.flatMap encodeEntry) := by
      simp [savedFile]
    rw [fieldAt, hdrop, List.take_append_of_le_length (by simp),
      List.take_of_length_le (by simp)]
    exact leNat_leBytes_of_lt (by decide)
  have hfield : ((savedFile services).drop 8).take 4 = leBytes 4 services.length := by
    rw [hbytes, List.take_append_of_le_length (by simp), List.take_of_length_le (by simp)]
  have hint : intField (savedFile services) 8 4 = services.length := by
    rw [intField, hfield]
    exact leInt_leBytes (by omega) (by omega) (by omega)
  have hnat : fieldAt (savedFile services) 8 4 = services.length := by
    rw [fieldAt, hfield]
    exact leNat_leBytes_of_lt (by omega)
  have hrest : (savedFile services).drop 12 = services.flatMap encodeEntry := by
    simp [savedFile, List.drop_append]
  simp only [smPersistenceLoad, hmagic, hversion, hint, hnat, hrest, ne_eq,
    not_true_eq_false, or_false]
  rw [if_neg (by omega), if_neg (by omega), if_neg (by omega),
    if_neg (by simp only [smRegistryMax]; omega)]

/-- What loading makes of a registered entry: the same registration, running and
without restarts. -/
structure Reloaded (e e' : ServiceEntry) : Prop extends SameRegistration e e' where
  status : e'.status = .running
  restartCount : e'.restartCount = 0

theorem isspace_of_nameChar {c : UInt8}
    (h : (isalnum c || c == 95 || c == 45) = true) : isspace c = false := by
  simp only [isalnum, isspace, Bool.or_eq_true, Bool.and_eq_true, decide_eq_true_eq,
    beq_iff_eq, Bool.or_eq_false_iff, Bool.and_eq_false_iff, decide_eq_false_iff_not,
    UInt8.le_iff_toNat_le, beq_eq_false_iff_ne, ← UInt8.toNat_inj, ne_eq,
    UInt8.reduceToNat] at h ⊢
  omega

/-- Every character of a name that passes the validation is a name character. -/
theorem nameChar_of_smValidateServiceName {name : List UInt8}
    (h : smValidateServiceName name = smOk) :
    ∀ c ∈ cstr name, (isalnum c || c == 95 || c == 45) = true := by
  have hlong := length_of_smValidateServiceName h
  unfold smValidateServiceName at h
  split_ifs at h with hempty hlen hall
  · cases h
  · cases h
  · have htake : strnlen name smMaxName = (cstr name).length := min_eq_left hlong.le
    rw [htake, List.take_length] at hall
    exact List.all_eq_true.mp hall
  · cases h

theorem nameIsValid_of_smValidateServiceName {name : List UInt8}
    (h : smValidateServiceName name = smOk) : nameIsValid name = true := by
  have hchars := nameChar_of_smValidateServiceName h
  have hempty : cstr name ≠ [] := by
    intro hempty
    rw [smValidateServiceName, if_pos hempty] at h
    cases h
  obtain ⟨c, rest, hcons⟩ := List.exists_cons_of_ne_nil hempty
  rw [hcons] at hchars
  rw [nameIsValid, hcons, List.any_cons, isspace_of_nameChar (hchars c (by simp))]
  rfl

theorem reloaded_initialised {e e' : ServiceEntry} (h : SameRegistration e e')
    (now now' : ℤ) : Reloaded e (e'.initialised now now') :=
  ⟨⟨⟨h.name, h.pid, h.uid, h.socketPath, h.ringName⟩, h.gid, h.tier⟩, rfl, rfl⟩

theorem smRegistryAdd_of_fresh {r : Registry} (h : RegistryInv r) {entry : ServiceEntry}
    (hname : smValidateServiceName entry.name = smOk)
    (hfresh : ∀ j < r.registryCount, cstr (r.registry j).name ≠ cstr entry.name)
    (hroom : r.registryCount < smMaxServices) (kill : ℤ → KillProbe) (now now' : ℤ) :
    (smRegistryAdd r entry kill now now').1 = appendEntry r entry now now' := by
  have hfind : hashFind r entry.name = none :=
    (h.hashFind_eq_none_iff (length_of_smValidateServiceName hname)).mpr hfresh
  rw [smRegistryAdd, nameIsValid_of_smValidateServiceName hname, hfind]
  dsimp only [Bool.not_true]
  rw [if_neg (by decide), if_neg (not_le.mpr hroom)]

/-- One round of the loop over the bytes of a valid entry with a fresh name. -/
theorem addLoaded_encodeEntry {r : Registry} (h : RegistryInv r) {e : ServiceEntry}
    (hstorable : e.Storable) (hvalid : e.Valid)
    (hfresh : ∀ j < r.registryCount, cstr (r.registry j).name ≠ cstr e.name)
    (hroom : r.registryCount < smMaxServices) (env : LoadEnv) (i : ℕ)
    (rest : List UInt8) :
    ∃ e', SameRegistration e e' ∧ (addLoaded env r i (encodeEntry e ++ rest)).1 =
      appendEntry r e' (env.now i) (env.now' i) := by
  have htake : (encodeEntry e ++ rest).take serviceEntrySize = encodeEntry e := by
    rw [← length_encodeEntry e, List.take_left]
  have hsame := sameRegistration_loadedEntry hstorable
  refine ⟨loadedEntry (encodeEntry e), hsame, ?_⟩
  rw [addLoaded, htake]
  refine smRegistryAdd_of_fresh h ?_ ?_ hroom _ _ _
  · rw [hsame.name, hvalid.name]
  · rw [hsame.name]
    exact hfresh

theorem loadEntries_encodeEntry (env : LoadEnv) (r : Registry) (i n : ℕ)
    (e : ServiceEntry) (rest : List UInt8) :
    loadEntries env r i (n + 1) (encodeEntry e ++ rest) =
      loadEntries env (addLoaded env r i (encodeEntry e ++ rest)).1 (i + 1) n rest := by
  have hdrop : (encodeEntry e ++ rest).drop serviceEntrySize = rest := by
    rw [← length_encodeEntry e, List.drop_left]
  rw [loadEntries, hdrop, if_neg]
  simp

/-- The loop over the bytes of valid entries with distinct names appends them in
their order. -/
theorem loadEntries_flatMap (env : LoadEnv) {services : List ServiceEntry}
    {r : Registry} (i : ℕ) (h : RegistryInv r)
    (hservices : ∀ e ∈ services, e.Storable ∧ e.Valid)
    (hdistinct : services.Pairwise fun a b => cstr a.name ≠ cstr b.name)
    (hfresh : ∀ j < r.registryCount, ∀ e ∈ services,
      cstr (r.registry j).name ≠ cstr e.name)
    (hroom : r.registryCount + services.length ≤ smMaxServices) :
    let r' := loadEntries env r i services.length (services.flatMap encodeEntry)
    r'.registryCount = r.registryCount + services.length ∧
      (∀ j < r.registryCount, r'.registry j = r.registry j) ∧
      ∀ k e, services[k]? = some e →
        Reloaded e (r'.registry (r.registryCount + k)) := by
  induction services generalizing r i with
  | nil =>
      refine ⟨rfl, fun j _ => rfl, fun k e hk => ?_⟩
      cases hk
  | cons e services ih =>
      obtain ⟨hstorable, hvalid⟩ := hservices e (by simp)
      obtain ⟨hne, hdistinct'⟩ := List.pairwise_cons.mp hdistinct
      rw [List.length_cons] at hroom
      have hfresh₀ : ∀ j < r.registryCount, cstr (r.registry j).name ≠ cstr e.name :=
        fun j hj => hfresh j hj e (by simp)
      obtain ⟨e', hsame, hadd⟩ := addLoaded_encodeEntry h hstorable hvalid hfresh₀
        (by omega) env i (services.flatMap encodeEntry)
      rw [List.length_cons, List.flatMap_cons, loadEntries_encodeEntry, hadd]
      have hlt : (cstr e'.name).length < smMaxName := by
        rw [hsame.name]
        exact length_of_smValidateServiceName hvalid.name
      have hold := fun j hj =>
        appendEntry_registry_of_lt r e' (env.now i) (env.now' i) (i := j) hj
      have hself := appendEntry_registry_self r e' (env.now i) (env.now' i)
      have hcount := appendEntry_registryCount r e' (env.now i) (env.now' i)
      have h' := h.appendEntry hlt (by rwa [hsame.name]) (by omega) (env.now i) (env.now' i)
      generalize appendEntry r e' (env.now i) (env.now' i) = r₁ at hold hself hcount h'
      have hfresh' : ∀ j < r₁.registryCount, ∀ e₁ ∈ services,
          cstr (r₁.registry j).name ≠ cstr e₁.name := by
        intro j hj e₁ he₁
        rw [hcount] at hj
        rcases Nat.lt_succ_iff_lt_or_eq.mp hj with hlt' | rfl
        · rw [hold j hlt']
          exact hfresh j hlt' e₁ (by simp [he₁])
        · rw [hself, (reloaded_initialised hsame _ _).name]
          exact hne e₁ he₁
      obtain ⟨hcount', hold', hnew⟩ := ih (i + 1) h'
        (fun e₁ he₁ => hservices e₁ (by simp [he₁])) hdistinct' hfresh' (by omega)
      refine ⟨?_, ?_, ?_⟩
      · rw [hcount', hcount]
        omega
      · intro j hj
        rw [hold' j (by omega), hold j hj]
      · intro k e₁ hk
        cases k with
        | zero =>
            obtain rfl := Option.some.inj hk
            have hentry := hold' r.registryCount (by omega)
            rw [hself] at hentry
            rw [Nat.add_zero]
            exact hentry ▸ reloaded_initialised hsame _ _
        | succ k =>
            have hentry := hnew k e₁ hk
            rw [hcount, Nat.add_assoc, Nat.add_comm 1 k] at hentry
            exact hentry

section Reload

variable (r fresh : Registry) (env : LoadEnv)

/-- The registry after saving `r` and loading the file into an initialised one. -/
def reload : Registry :=
  (smPersistenceLoad (smRegistryInit fresh) (smPersistenceSave r true true).1 env).1

/-- What a load should restore: the registrations in their order, all of them
crashed and without restarts, and hidden from lookups. -/
structure RoundTrips (saved loaded : Registry) : Prop where
  count : loaded.registryCount = saved.registryCount
  registration : ∀ i < saved.registryCount,
    SameRegistration (saved.registry i) (loaded.registry i)
  status : ∀ i < saved.registryCount, (loaded.registry i).status = .crashed
  restartCount : ∀ i < saved.registryCount, (loaded.registry i).restartCount = 0
  hidden : ∀ s env name, s.registry = loaded →
    ∃ code, (smHandleLookup s env name).sent = encodeReply code

theorem registryShape_smRegistryInit : RegistryShape (smRegistryInit fresh) :=
  ⟨Nat.zero_le _, rfl, fun _ => [], fun _ => .nil 0, fun _ => List.nodup_nil,
    by simp [smRegistryInit, Registry.zero]⟩

theorem running_reload :
    RegistryShape (reload r fresh env) ∧
      EntriesHold (fun e => e.status = .running) (reload r fresh env) := by
  refine smPersistenceLoad_keeps (P := fun r => RegistryShape r ∧
    EntriesHold (fun e => e.status = .running) r) env ?_ _ ?_
  · rintro r i bytes ⟨hshape, hrunning⟩
    exact ⟨hshape.smRegistryAdd _ _ _ _, hrunning.smRegistryAdd hshape _ fun _ => rfl⟩
  · exact ⟨registryShape_smRegistryInit fresh, fun i hi => absurd hi (Nat.not_lt_zero i)⟩

theorem reload_of_empty (h : r.registryCount = 0) :
    reload r fresh env = smRegistryInit fresh := by
  have hlength : r.entries.length = 0 := by rw [r.length_entries, h]
  rw [reload, smPersistenceSave_eq, smPersistenceLoad_savedFile (by omega), hlength]
  rfl

/-- The round trip is as the loader wants it exactly for an empty registry. -/
theorem roundTrips_iff : RoundTrips r (reload r fresh env) ↔ r.registryCount = 0 := by
  obtain ⟨hshape, hrunning⟩ := running_reload r fresh env
  constructor
  · intro h
    by_contra hne
    have hpos : 0 < r.registryCount := Nat.pos_of_ne_zero hne
    have hcrashed := h.status 0 hpos
    rw [hrunning 0 (by rw [h.count]; exact hpos)] at hcrashed
    cases hcrashed
  · intro h
    have hnone : (reload r fresh env).registryCount = 0 := by
      rw [reload_of_empty r fresh env h]
      rfl
    have hempty : ∀ i, ¬ i < r.registryCount := fun i hi => by omega
    refine ⟨by rw [hnone, h], fun i hi => absurd hi (hempty i),
      fun i hi => absurd hi (hempty i), fun i hi => absurd hi (hempty i), ?_⟩
    rintro s env' name hs
    rcases smHandleLookup_sent_cases s env' name with hcode | ⟨e, he, -, -⟩
    · exact hcode
    · obtain ⟨i, hfind, -⟩ := Option.map_eq_some_iff.mp he
      rw [hs] at hfind
      have hi := (hshape.of_hashFind hfind).1
      omega

/-- A restart at time 200. -/
def restartEnv : LoadEnv := ⟨fun _ _ => .esrch, fun _ => 200, fun _ => 200⟩

/-- One service is registered, and after a restart it is running without having
been heard of. -/
theorem registered_not_crashed :
    let r := (serverRun (.ofSeconds 0)
      [.register (thiefEnv 10) (thiefReq 'a')]).registry
    r.registryCount = 1 ∧ ¬ RoundTrips r (reload r Registry.zero restartEnv) := by
  intro r
  refine ⟨by decide +kernel, fun h => ?_⟩
  have hcrashed := h.status 0 (by decide +kernel)
  have hrunning : ((reload r Registry.zero restartEnv).registry 0).status = .running := by
    decide +kernel
  rw [hrunning] at hcrashed
  cases hcrashed

variable {r fresh}

theorem reload_entries (hfresh : fresh.poolOverrun = false) (h : RegistryInv r)
    (hentries : EntriesHold (fun e => e.Storable ∧ e.Valid) r) :
    (reload r fresh env).registryCount = r.registryCount ∧
      ∀ i < r.registryCount,
        Reloaded (r.registry i) ((reload r fresh env).registry i) := by
  have hinit : RegistryInv (smRegistryInit fresh) := by
    rw [smRegistryInit, hfresh]
    exact registryInv_zero
  have hservices : ∀ e ∈ r.entries, e.Storable ∧ e.Valid := by
    intro e he
    obtain ⟨i, hi, rfl⟩ := List.mem_map.mp he
    exact hentries i (List.mem_range.mp hi)
  have hdistinct : r.entries.Pairwise fun a b => cstr a.name ≠ cstr b.name := by
    refine List.pairwise_map.mpr (List.pairwise_lt_range.imp_of_mem ?_)
    intro i j hi hj hlt heq
    exact hlt.ne (h.distinct i (List.mem_range.mp hi) j (List.mem_range.mp hj) heq)
  have hle : r.entries.length ≤ smMaxServices := by
    rw [r.length_entries]
    exact h.count_le
  have hzero : (smRegistryInit fresh).registryCount = 0 := rfl
  obtain ⟨hcount, -, hnew⟩ := loadEntries_flatMap env 0 hinit hservices hdistinct
    (fun j hj => absurd hj (Nat.not_lt_zero j)) (by rw [hzero]; omega)
  rw [hzero, Nat.zero_add] at hcount
  rw [reload, smPersistenceSave_eq, smPersistenceLoad_savedFile hle]
  refine ⟨by rw [hcount, r.length_entries], fun i hi => ?_⟩
  have hentry := hnew i (r.registry i) (by simp [Registry.entries, hi])
  rwa [hzero, Nat.zero_add] at hentry

end Reload

theorem zero_mem_strncpyField {n : ℕ} (hn : 0 < n) (s : List UInt8) :
    (0 : UInt8) ∈ strncpyField n s := by
  refine List.mem_append_right _ (List.mem_replicate.mpr ⟨?_, rfl⟩)
  omega

def Event.PeerInRange : Event → Prop
  | .register env _ => (-2 ^ 31 ≤ env.peer.pid ∧ env.peer.pid < 2 ^ 31) ∧
      env.peer.uid < 2 ^ 32 ∧ env.peer.gid < 2 ^ 32
  | .lookup _ _ | .heartbeat _ _ | .unregister _ _ | .health _ => True

theorem ignoresState_storable_valid :
    IgnoresState fun e => e.Storable ∧ e.Valid := by
  rintro e e' hsame ⟨h, hvalid⟩
  refine ⟨?_, ignoresState_valid e e' hsame hvalid⟩
  constructor
  · rw [hsame.name]
    exact h.name_length
  · rw [hsame.name]
    exact h.name_terminated
  · rw [hsame.socketPath]
    exact h.socketPath_length
  · rw [hsame.socketPath]
    exact h.socketPath_terminated
  · rw [hsame.ringName]
    exact h.ringName_length
  · rw [hsame.ringName]
    exact h.ringName_terminated
  · rw [hsame.pid]
    exact h.pid_low
  · rw [hsame.pid]
    exact h.pid_high
  · rw [hsame.uid]
    exact h.uid_lt
  · rw [hsame.gid]
    exact h.gid_lt

theorem adds_storable_valid {ev : Event} (h : ev.PeerInRange) :
    ev.Adds fun e => e.Storable ∧ e.Valid := by
  cases ev with
  | register env req =>
      obtain ⟨⟨hlow, hhigh⟩, huid, hgid⟩ := h
      exact fun hvalid => ⟨⟨length_strncpyField _ _, zero_mem_strncpyField (by decide) _,
        length_strncpyField _ _, zero_mem_strncpyField (by decide) _,
        length_strncpyField _ _, zero_mem_strncpyField (by decide) _,
        hlow, hhigh, huid, hgid⟩, hvalid⟩
  | lookup env name => trivial
  | heartbeat env name => trivial
  | unregister env name => trivial
  | health env => trivial

/-- A restart brings every service of a run back, in its place and with its
registration, and calls all of them running. -/
theorem reload_serverRun (start : Timespec) (events : List Event)
    (hrange : ∀ ev ∈ events, ev.PeerInRange) (env : LoadEnv) :
    let r := (serverRun start events).registry
    (reload r Registry.zero env).registryCount = r.registryCount ∧
      ∀ i < r.registryCount,
        Reloaded (r.registry i) ((reload r Registry.zero env).registry i) :=
  reload_entries env rfl (registryInv_serverRun start events)
    (entriesHold_serverRun ignoresState_storable_valid start fun ev hev =>
      adds_storable_valid (hrange ev hev))

end ServiceManager

end Shinigami
