import Shinigami.Foundations.ShortWrites
import Shinigami.ServiceManager.Lifecycle.Reload

/-!
# Atomicity of a save

`sm_persistence_save` with the failures of its steps. The file is emptied by `fopen`, before
the copy of the registry is taken, and the results of `fwrite` and `fclose` are not looked
at. So a failed copy leaves an empty file behind, and a save that came out short answers like
a complete one; `saveAtomic_iff` says when neither happens.
-/

namespace Shinigami

namespace ServiceManager

open CString LittleEndian

/-- What the steps of a save meet. -/
structure SaveEnv where
  openOk : Bool
  /-- The allocation in `sm_registry_get_all`. -/
  mallocOk : Bool
  /-- What the stream takes of the `i`-th `fwrite`, at most. -/
  written : ℕ → ℕ
  /-- The bytes that are in the file after `fclose`, if not all are. -/
  flushed : Option ℕ

/-- The operands of the calls of `fwrite`, in order. -/
def saveItems (services : List ServiceEntry) : List (List UInt8) :=
  [leBytes 4 persistenceMagic, leBytes 4 persistenceVersion, leBytes 4 services.length] ++
    services.map encodeEntry

/-- `sm_persistence_save` on a state file with the content `previous`, which is `none` when
there is no such file: its content afterwards, and the return code. -/
def smPersistenceSaveFaulty (r : Registry) (previous : Option (List UInt8)) (env : SaveEnv) :
    Option (List UInt8) × ℤ :=
  if !env.openOk then (previous, -1)
  else
    -- opened for writing, the file is empty
    match smRegistryGetAll r env.mallocOk with
    | none => (some [], -1)
    | some services => (some (flush (takeEach env.written (saveItems services)) env.flushed), 0)

/-- A save that answers with success has written everything, one that answers with failure
has changed nothing. -/
def SaveAtomic (r : Registry) (previous : Option (List UInt8)) (env : SaveEnv) : Prop :=
  let saved := smPersistenceSaveFaulty r previous env
  (saved.2 = 0 → saved.1 = some (savedFile r.entries)) ∧ (saved.2 = -1 → saved.1 = previous)

/-- The size of the `i`-th operand. -/
def saveItemSize (i : ℕ) : ℕ := if i < 3 then 4 else serviceEntrySize

/-- No write comes out short, and all that was written is flushed. -/
structure SaveEnv.WritesAll (env : SaveEnv) (r : Registry) : Prop where
  written : ∀ i < 3 + r.registryCount, saveItemSize i ≤ env.written i
  flushed : ∀ k ∈ env.flushed, 12 + r.registryCount * serviceEntrySize ≤ k

/-- The copy of the registry is made. -/
def SaveEnv.Copies (env : SaveEnv) (r : Registry) : Prop :=
  r.registryCount = 0 ∨ env.mallocOk = true

theorem smRegistryGetAll_of_copies {r : Registry} {env : SaveEnv} (h : env.Copies r) :
    smRegistryGetAll r env.mallocOk = some r.entries := by
  unfold smRegistryGetAll Registry.entries
  by_cases hzero : r.registryCount = 0
  · simp [hzero]
  · rw [if_neg hzero, if_pos (h.resolve_left hzero)]

theorem smRegistryGetAll_of_not_copies {r : Registry} {env : SaveEnv} (h : ¬env.Copies r) :
    smRegistryGetAll r env.mallocOk = none := by
  obtain ⟨hcount, hmalloc⟩ := not_or.mp h
  rw [smRegistryGetAll, if_neg hcount, if_neg hmalloc]

theorem flatten_saveItems (services : List ServiceEntry) :
    (saveItems services).flatten = savedFile services := by
  simp [saveItems, savedFile, List.flatMap_def]

theorem length_saveItems (services : List ServiceEntry) :
    (saveItems services).length = 3 + services.length := by
  simp only [saveItems, List.length_append, List.length_map, List.length_cons, List.length_nil]

theorem length_flatMap_encodeEntry (services : List ServiceEntry) :
    (services.flatMap encodeEntry).length = services.length * serviceEntrySize := by
  induction services with
  | nil => simp
  | cons e services ih =>
      rw [List.flatMap_cons, List.length_append, ih, length_encodeEntry, List.length_cons,
        Nat.succ_mul, Nat.add_comm]

theorem length_flatten_saveItems (services : List ServiceEntry) :
    (saveItems services).flatten.length = 12 + services.length * serviceEntrySize := by
  rw [flatten_saveItems, savedFile, List.length_append, length_flatMap_encodeEntry]
  simp

theorem length_saveItems_get {services : List ServiceEntry} {i : ℕ}
    (hi : i < (saveItems services).length) :
    ((saveItems services)[i]).length = saveItemSize i := by
  match i with
  | 0 => rfl
  | 1 => rfl
  | 2 => rfl
  | i + 3 =>
      have hi' : i < services.length := by
        rw [length_saveItems] at hi
        omega
      have hentry : (saveItems services)[i + 3] = encodeEntry services[i] := by
        simp [saveItems]
      rw [hentry, length_encodeEntry]
      rfl

theorem takesWhole_saveItems_iff (env : SaveEnv) (r : Registry) :
    TakesWhole env.written (saveItems r.entries) ↔
      ∀ i < 3 + r.registryCount, saveItemSize i ≤ env.written i := by
  have hlen : (saveItems r.entries).length = 3 + r.registryCount := by
    rw [length_saveItems, r.length_entries]
  constructor
  · intro h i hi
    rw [← length_saveItems_get (hlen.symm ▸ hi)]
    exact h i (hlen.symm ▸ hi)
  · intro h i hi
    rw [length_saveItems_get hi]
    exact h i (hlen ▸ hi)

theorem flush_saveItems_eq_iff (env : SaveEnv) (r : Registry) :
    flush (takeEach env.written (saveItems r.entries)) env.flushed = savedFile r.entries ↔
      env.WritesAll r := by
  rw [← flatten_saveItems, flush_takeEach_eq_flatten_iff, takesWhole_saveItems_iff,
    length_flatten_saveItems, r.length_entries]
  exact ⟨fun h => ⟨h.1, h.2⟩, fun h => ⟨h.written, h.flushed⟩⟩

theorem smPersistenceSaveFaulty_of_writesAll {r : Registry} {env : SaveEnv}
    (h : env.WritesAll r) :
    smPersistenceSaveFaulty r none env = smPersistenceSave r env.openOk env.mallocOk := by
  unfold smPersistenceSaveFaulty smPersistenceSave
  split
  · rfl
  · by_cases hcopies : env.Copies r
    · rw [smRegistryGetAll_of_copies hcopies]
      simp only
      rw [(flush_saveItems_eq_iff env r).mpr h, savedFile]
    · rw [smRegistryGetAll_of_not_copies hcopies]

section Outcome

variable {r : Registry} {env : SaveEnv} (previous : Option (List UInt8))

theorem smPersistenceSaveFaulty_of_closed (hopen : env.openOk = false) :
    smPersistenceSaveFaulty r previous env = (previous, -1) := by
  rw [smPersistenceSaveFaulty, hopen]
  rfl

theorem smPersistenceSaveFaulty_of_not_copies (hopen : env.openOk = true)
    (hcopies : ¬env.Copies r) : smPersistenceSaveFaulty r previous env = (some [], -1) := by
  rw [smPersistenceSaveFaulty, hopen, smRegistryGetAll_of_not_copies hcopies]
  rfl

theorem smPersistenceSaveFaulty_of_copies (hopen : env.openOk = true)
    (hcopies : env.Copies r) :
    smPersistenceSaveFaulty r previous env =
      (some (flush (takeEach env.written (saveItems r.entries)) env.flushed), 0) := by
  rw [smPersistenceSaveFaulty, hopen, smRegistryGetAll_of_copies hcopies]
  rfl

end Outcome

/-- A save is atomic exactly when the file cannot be opened, or the copy fails and the file
was empty before, or the copy is made and every write and the flush are complete. -/
theorem saveAtomic_iff (r : Registry) (previous : Option (List UInt8)) (env : SaveEnv) :
    SaveAtomic r previous env ↔
      env.openOk = false ∨ (¬env.Copies r ∧ previous = some []) ∨
        (env.Copies r ∧ env.WritesAll r) := by
  have hne : (-1 : ℤ) ≠ 0 := by decide
  unfold SaveAtomic
  cases hopen : env.openOk with
  | false =>
      rw [smPersistenceSaveFaulty_of_closed previous hopen]
      exact iff_of_true ⟨fun h => absurd h hne, fun _ => rfl⟩ (Or.inl rfl)
  | true =>
      rw [or_iff_right (by decide : ¬true = false)]
      by_cases hcopies : env.Copies r
      · rw [smPersistenceSaveFaulty_of_copies previous hopen hcopies,
          ← flush_saveItems_eq_iff, or_iff_right (fun h => h.1 hcopies), and_iff_right hcopies]
        exact ⟨fun h => Option.some.inj (h.1 rfl),
          fun h => ⟨fun _ => congrArg some h, fun hfail => absurd hfail.symm hne⟩⟩
      · rw [smPersistenceSaveFaulty_of_not_copies previous hopen hcopies,
          or_iff_left (fun h => hcopies h.1), and_iff_right hcopies]
        exact ⟨fun h => (h.2 rfl).symm,
          fun h => ⟨fun hok => absurd hok hne, fun _ => h.symm⟩⟩

/-- The file that a failed copy leaves is refused by the loader, so that the services of
the previous save are gone. -/
theorem smPersistenceLoad_of_not_copies {r : Registry} {env : SaveEnv}
    (hopen : env.openOk = true) (hcopies : ¬env.Copies r) (previous : Option (List UInt8))
    (r' : Registry) (loadEnv : LoadEnv) :
    smPersistenceLoad r' (smPersistenceSaveFaulty r previous env).1 loadEnv = (r', -1) := by
  rw [smPersistenceSaveFaulty_of_not_copies previous hopen hcopies]
  rfl

/-- The disk is full: the save of an empty registry answers with success and leaves an
empty file. -/
theorem not_saveAtomic_of_full_disk :
    ¬SaveAtomic Registry.zero (some [1]) ⟨true, true, fun _ => 0, none⟩ := by
  intro h
  have hcontent := h.1 rfl
  exact absurd hcontent (by decide)

end ServiceManager

end Shinigami
