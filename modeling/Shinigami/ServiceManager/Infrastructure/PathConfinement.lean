import Mathlib.Data.List.Infix
import Shinigami.Foundations.CText
import Shinigami.Foundations.PathResolution
import Shinigami.ServiceManager.Infrastructure.Protocol

/-!
# Confinement of socket paths

`sm_validate_socket_path` looks for two dots and for an allowed prefix in the text of a path.
The allowed prefixes are names of directories with the slash behind them, and two dots in
the text are more than two dots as a component: so an accepted path is resolved within the
directory that it starts with (`staysBelow_of_smValidateSocketPath`).
-/

namespace Shinigami

namespace ServiceManager

open CString PathResolution

def slash : UInt8 := 47

def dot : UInt8 := 46

/-- The directories that socket paths may lie in. -/
def allowedDirs : List (List UInt8) :=
  [smAllowedPath1.dropLast, smAllowedPath2.dropLast, smAllowedPath3.dropLast]

/-- The path starts with the directory and a slash. -/
def MatchesDir (path dir : List UInt8) : Prop := dir ++ [slash] <+: cstr path

theorem strstrFound_iff {s pat : List UInt8} : strstrFound s pat = true ↔ pat <:+: cstr s := by
  rw [strstrFound, List.any_eq_true]
  constructor
  · rintro ⟨t, ht, hpat⟩
    exact (List.isPrefixOf_iff_prefix.mp hpat).isInfix.trans ((List.mem_tails _ _).mp ht).isInfix
  · intro h
    obtain ⟨t, hpat, hsuffix⟩ := List.infix_iff_prefix_suffix.mp h
    exact ⟨t, (List.mem_tails _ _).mpr hsuffix, List.isPrefixOf_iff_prefix.mpr hpat⟩

theorem strncmpEq_length_iff {path text : List UInt8} (h : cstr text = text) :
    strncmpEq text.length path text = true ↔ text <+: cstr path := by
  rw [strncmpEq, h, List.take_length, beq_iff_eq, List.prefix_iff_eq_take, eq_comm]

theorem checks_of_smValidateSocketPath {path : List UInt8}
    (h : smValidateSocketPath path = smOk) :
    ¬[dot, dot] <:+: cstr path ∧ ∃ dir ∈ allowedDirs, MatchesDir path dir := by
  unfold smValidateSocketPath at h
  split_ifs at h with hempty hlong habsolute hpattern hprefix
  · cases h
  · cases h
  · cases h
  · cases h
  · rw [Bool.or_eq_true, strstrFound_iff, strstrFound_iff, not_or] at hpattern
    refine ⟨hpattern.1, ?_⟩
    rw [Bool.or_eq_true, Bool.or_eq_true, strncmpEq_length_iff rfl, strncmpEq_length_iff rfl,
      strncmpEq_length_iff rfl] at hprefix
    rcases hprefix with (hrun | htmp) | hshm
    · exact ⟨smAllowedPath1.dropLast, by simp [allowedDirs], hrun⟩
    · exact ⟨smAllowedPath2.dropLast, by simp [allowedDirs], htmp⟩
    · exact ⟨smAllowedPath3.dropLast, by simp [allowedDirs], hshm⟩
  · cases h

/-- An accepted path starts with an allowed directory, and it is resolved within every
allowed directory that it starts with. -/
theorem staysBelow_of_smValidateSocketPath (path : List UInt8)
    (h : smValidateSocketPath path = smOk) :
    (∃ dir ∈ allowedDirs, MatchesDir path dir) ∧
      ∀ dir ∈ allowedDirs, MatchesDir path dir → StaysBelow slash dot dir (cstr path) := by
  obtain ⟨hdots, hmatch⟩ := checks_of_smValidateSocketPath h
  refine ⟨hmatch, fun dir _ hdir => ?_⟩
  obtain ⟨rest, hpath⟩ := hdir
  rw [List.append_assoc, List.singleton_append] at hpath
  rw [← hpath] at hdots ⊢
  refine staysBelow_append fun hrest => hdots (hrest.trans ?_)
  exact ⟨dir ++ [slash], [], by simp⟩

/-- A path with a dot as a component, and a slash at its end. -/
def dottedPath : List UInt8 := literal "/dev/shm/./audio/.hidden/"

theorem staysBelow_dottedPath :
    smValidateSocketPath dottedPath = smOk ∧ MatchesDir dottedPath (literal "/dev/shm") ∧
      StaysBelow slash dot (literal "/dev/shm") (cstr dottedPath) ∧
      resolve dot (components slash dottedPath) =
        [literal "dev", literal "shm", literal "audio", literal ".hidden"] := by
  have haccepted : smValidateSocketPath dottedPath = smOk := by decide +kernel
  have hmatch : MatchesDir dottedPath (literal "/dev/shm") := by
    unfold MatchesDir
    decide +kernel
  refine ⟨haccepted, hmatch, ?_, by decide +kernel⟩
  exact (staysBelow_of_smValidateSocketPath dottedPath haccepted).2 _ (by decide +kernel) hmatch

end ServiceManager

end Shinigami
