import Mathlib.Data.List.TakeWhile
import Mathlib.Data.List.Basic

/-!
# NUL-terminated strings in byte buffers

A buffer is a list of bytes and the string it holds is `cstr s`, the bytes in
front of the first NUL; a buffer without a NUL is read to its end. The string
functions of the C library that the development needs are stated on buffers, so
that the bytes behind the terminator never matter: `strcmpEq` and `strncmpEq`
are the tests `strcmp(a, b) == 0` and `strncmp(a, b, n) == 0`.

`strncpyField n src` is the content of a zeroed `char[n]` field after
`strncpy(field, src, n - 1)` and the explicit terminator; `strncpyTo` is the same
copy onto a buffer with any content.
-/

namespace Shinigami

namespace CString

/-- The string held by a buffer: the bytes in front of the first NUL. -/
def cstr (s : List UInt8) : List UInt8 := s.takeWhile (· != 0)

/-- `strnlen(s, n)`. -/
def strnlen (s : List UInt8) (n : ℕ) : ℕ := min (cstr s).length n

/-- `strcmp(a, b) == 0`. -/
def strcmpEq (a b : List UInt8) : Bool := cstr a == cstr b

/-- `strncmp(a, b, n) == 0`. -/
def strncmpEq (n : ℕ) (a b : List UInt8) : Bool :=
  (cstr a).take n == (cstr b).take n

/-- `strstr(s, pat) != NULL`. -/
def strstrFound (s pat : List UInt8) : Bool :=
  (cstr s).tails.any (pat.isPrefixOf ·)

/-- A string literal. -/
def ascii (cs : List Char) : List UInt8 := cs.map fun c => UInt8.ofNat c.toNat

/-- A zeroed `char[n]` field after `strncpy(field, src, n - 1)`. -/
def strncpyField (n : ℕ) (src : List UInt8) : List UInt8 :=
  (cstr src).take (n - 1) ++ List.replicate (n - min (n - 1) (cstr src).length) 0

/-- A buffer after `strncpy(dst, src, n)`. -/
def strncpyTo (n : ℕ) (dst src : List UInt8) : List UInt8 :=
  (cstr src).take n ++ List.replicate (n - (cstr src).length) 0 ++ dst.drop n

theorem zero_notMem_cstr (s : List UInt8) : (0 : UInt8) ∉ cstr s := by
  intro h
  simpa using List.mem_takeWhile_imp h

theorem cstr_eq_self {s : List UInt8} (h : (0 : UInt8) ∉ s) : cstr s = s := by
  apply List.takeWhile_eq_self_iff.mpr
  intro b hb
  have hne : b ≠ 0 := fun h0 => h (h0 ▸ hb)
  simpa using hne

theorem cstr_append_replicate {s : List UInt8} (h : (0 : UInt8) ∉ s) (k : ℕ) :
    cstr (s ++ List.replicate k 0) = s := by
  have hs : ∀ b ∈ s, (b != 0) = true := by
    intro b hb
    have hne : b ≠ 0 := fun h0 => h (h0 ▸ hb)
    simpa using hne
  rw [cstr, List.takeWhile_append_of_pos hs]
  cases k with
  | zero => simp
  | succ k => simp [List.replicate_succ]

@[simp] theorem cstr_strncpyField (n : ℕ) (src : List UInt8) :
    cstr (strncpyField n src) = (cstr src).take (n - 1) := by
  have h : (0 : UInt8) ∉ (cstr src).take (n - 1) := fun hmem =>
    zero_notMem_cstr src (List.mem_of_mem_take hmem)
  exact cstr_append_replicate h _

@[simp] theorem length_strncpyField (n : ℕ) (src : List UInt8) :
    (strncpyField n src).length = n := by
  simp only [strncpyField, List.length_append, List.length_take,
    List.length_replicate]
  omega

theorem strncpyTo_zeroed (n : ℕ) (src : List UInt8) :
    strncpyTo n (List.replicate (n + 1) 0) src = strncpyField (n + 1) src := by
  have hlast : (List.replicate (n + 1) (0 : UInt8)).drop n = List.replicate 1 0 := by
    simp
  rw [strncpyTo, strncpyField, hlast, List.append_assoc,
    List.replicate_append_replicate]
  congr 2
  omega

theorem strcmpEq_iff {a b : List UInt8} :
    strcmpEq a b = true ↔ cstr a = cstr b := by
  simp [strcmpEq]

theorem strncmpEq_iff {n : ℕ} {a b : List UInt8}
    (ha : (cstr a).length < n) (hb : (cstr b).length < n) :
    strncmpEq n a b = true ↔ cstr a = cstr b := by
  simp only [strncmpEq, beq_iff_eq]
  rw [List.take_of_length_le ha.le, List.take_of_length_le hb.le]

end CString

end Shinigami
