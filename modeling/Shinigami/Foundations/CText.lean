import Mathlib.Algebra.Order.Ring.Nat
import Mathlib.Data.List.DropRight
import Shinigami.Foundations.CString

/-!
# Reading text in C

Lines and numbers as the C library reads them, in the C locale. `fgetsLines` cuts
a file into the pieces that successive calls of `fgets` return, and `strtol` reads
a number in a base up to ten, stopping at the limits of a 64-bit `long`. `decimal`
is the text that a number is printed as, and determines it.
-/

namespace Shinigami

namespace CString

/-- The bytes of a string literal. -/
def literal (s : String) : List UInt8 := ascii s.toList

def newline : UInt8 := 10

/-- `isspace`. -/
def isspace (b : UInt8) : Bool := b == 32 || (9 ≤ b && b ≤ 13)

/-- The pieces that `fgets(line, size, f)` returns, with `size - 1 = width`: a piece
ends behind a newline, with `width` bytes, or with the file. `piece` has been read
so far, and `room` more bytes fit. -/
def fgetsFrom (width : ℕ) : ℕ → List UInt8 → List UInt8 → List (List UInt8)
  | _, [], [] => []
  | _, piece, [] => [piece]
  | room, piece, b :: s =>
      if b == newline || room ≤ 1 then (piece ++ [b]) :: fgetsFrom width width [] s
      else fgetsFrom width (room - 1) (piece ++ [b]) s

def fgetsLines (size : ℕ) (s : List UInt8) : List (List UInt8) :=
  fgetsFrom (size - 1) (size - 1) [] s

def digitValue (base : ℕ) (b : UInt8) : Option ℕ :=
  if 48 ≤ b.toNat ∧ b.toNat < 48 + base then some (b.toNat - 48) else none

def hexDigit (b : UInt8) : Option ℕ :=
  if 48 ≤ b ∧ b ≤ 57 then some (b.toNat - 48)
  else if 65 ≤ b ∧ b ≤ 70 then some (b.toNat - 55)
  else if 97 ≤ b ∧ b ≤ 102 then some (b.toNat - 87)
  else none

def digitsValue (base : ℕ) : ℕ → List UInt8 → ℕ
  | acc, [] => acc
  | acc, b :: s =>
      match digitValue base b with
      | none => acc
      | some d => digitsValue base (acc * base + d) s

/-- `strtol(s, NULL, base)` for a base up to ten. -/
def strtol (base : ℕ) (s : List UInt8) : ℤ :=
  let s := (cstr s).dropWhile isspace
  let value : ℤ :=
    match s with
    | 45 :: s => -digitsValue base 0 s
    | 43 :: s => digitsValue base 0 s
    | s => digitsValue base 0 s
  max (-9223372036854775808) (min 9223372036854775807 value)

/-- `atoi`: the result of `strtol`, cast to `int`. -/
def atoi (s : List UInt8) : Int32 := Int32.ofInt (strtol 10 s)

/-- `strtoul(s, NULL, base)` for a base up to ten: a minus sign negates in `unsigned long`. -/
def strtoul (base : ℕ) (s : List UInt8) : UInt64 :=
  let cap := fun v : ℕ => min 18446744073709551615 v
  match (cstr s).dropWhile isspace with
  | 45 :: s =>
      let v := digitsValue base 0 s
      if v ≤ 18446744073709551615 then -UInt64.ofNat v else UInt64.ofNat (cap v)
  | 43 :: s => UInt64.ofNat (cap (digitsValue base 0 s))
  | s => UInt64.ofNat (cap (digitsValue base 0 s))

/-- `strtol` and `strtoul` convert something: `end` is not the start of the string. -/
def converts (base : ℕ) (s : List UInt8) : Bool :=
  let startsWithDigit := fun s : List UInt8 =>
    match s with
    | [] => false
    | b :: _ => (digitValue base b).isSome
  match (cstr s).dropWhile isspace with
  | 45 :: s => startsWithDigit s
  | 43 :: s => startsWithDigit s
  | s => startsWithDigit s

/-- `tolower`. -/
def tolower (b : UInt8) : UInt8 := if 65 ≤ b ∧ b ≤ 90 then b + 32 else b

/-- `toupper`. -/
def toupper (b : UInt8) : UInt8 := if 97 ≤ b ∧ b ≤ 122 then b - 32 else b

/-- `strcasecmp(a, b) == 0`. -/
def strcasecmpEq (a b : List UInt8) : Bool := (cstr a).map tolower == (cstr b).map tolower

/-- `strncasecmp(a, b, n) == 0`. -/
def strncasecmpEq (n : ℕ) (a b : List UInt8) : Bool :=
  ((cstr a).map tolower).take n == ((cstr b).map tolower).take n

/-- The conversion `%ns` of `sscanf` with a width: the word, and what is left. -/
def scanWord (width : ℕ) (s : List UInt8) : Option (List UInt8 × List UInt8) :=
  let s := s.dropWhile isspace
  let word := (s.takeWhile fun b => !isspace b).take width
  if word = [] then none else some (word, s.drop word.length)

/-- What `snprintf` prints for `%u`, and for `%d` of a number that is not negative. -/
def decimal (n : ℕ) : List UInt8 := ascii (Nat.toDigits 10 n)

theorem isDigit_toNat_lt {c : Char} (h : c.isDigit = true) : c.toNat < 256 := by
  have hle : c.val ≤ 57 := by
    simp only [Char.isDigit, Bool.and_eq_true, decide_eq_true_eq] at h
    exact h.2
  exact Nat.lt_of_le_of_lt (UInt32.le_iff_toNat_le.mp hle) (by decide)

theorem ascii_injOn {cs cs' : List Char} (h : ∀ c ∈ cs, c.toNat < 256)
    (h' : ∀ c ∈ cs', c.toNat < 256) (heq : ascii cs = ascii cs') : cs = cs' := by
  have hback : ∀ {ds : List Char}, (∀ c ∈ ds, c.toNat < 256) →
      (ascii ds).map (fun b => Char.ofNat b.toNat) = ds := by
    intro ds hds
    rw [ascii, List.map_map]
    refine (List.map_congr_left fun c hc => ?_).trans (List.map_id ds)
    have hmod : (UInt8.ofNat c.toNat).toNat = c.toNat :=
      UInt8.toNat_ofNat_of_lt' (hds c hc)
    rw [Function.comp_apply, hmod, Char.ofNat_toNat, id]
  rw [← hback h, heq, hback h']

theorem decimal_injective : Function.Injective decimal := by
  intro m n heq
  have hdigits : ∀ k, ∀ c ∈ Nat.toDigits 10 k, c.toNat < 256 := fun k c hc =>
    isDigit_toNat_lt (Nat.isDigit_of_mem_toDigits (by decide) (by decide) hc)
  have hsame := ascii_injOn (hdigits m) (hdigits n) heq
  rw [← Nat.ofDigitChars_ten_toDigits (n := m), hsame, Nat.ofDigitChars_ten_toDigits]

theorem length_decimal_le_iff {n k : ℕ} (hk : 0 < k) : (decimal n).length ≤ k ↔ n < 10 ^ k := by
  rw [decimal, ascii, List.length_map, Nat.length_toDigits_le_iff (by decide) hk]

theorem digit_of_mem_decimal {n : ℕ} {b : UInt8} (h : b ∈ decimal n) : 48 ≤ b ∧ b ≤ 57 := by
  obtain ⟨c, hc, rfl⟩ := List.mem_map.mp h
  have hdigit : c.isDigit = true := Nat.isDigit_of_mem_toDigits (by decide) (by decide) hc
  have hnat : (UInt8.ofNat c.toNat).toNat = c.toNat :=
    UInt8.toNat_ofNat_of_lt' (isDigit_toNat_lt hdigit)
  simp only [Char.isDigit, Bool.and_eq_true, decide_eq_true_eq] at hdigit
  obtain ⟨hlow, hhigh⟩ := hdigit
  rw [UInt8.le_iff_toNat_le, UInt8.le_iff_toNat_le, hnat]
  exact ⟨UInt32.le_iff_toNat_le.mp hlow, UInt32.le_iff_toNat_le.mp hhigh⟩

theorem decimal_ne_nil (n : ℕ) : decimal n ≠ [] := by
  simp [decimal, ascii, Nat.toDigits_ne_nil]

theorem decimal_of_lt {n : ℕ} (h : n < 10) : decimal n = [UInt8.ofNat (48 + n)] := by
  rw [decimal, Nat.toDigits_of_lt_base h, ascii, List.map_singleton,
    Nat.toNat_digitChar_of_lt_ten h]

theorem decimal_of_le {n : ℕ} (h : 10 ≤ n) :
    decimal n = decimal (n / 10) ++ [UInt8.ofNat (48 + n % 10)] := by
  rw [decimal, Nat.toDigits_of_base_le (by decide) h, ascii, List.map_append, List.map_singleton,
    Nat.toNat_digitChar_of_lt_ten (Nat.mod_lt _ (by decide))]
  rfl

theorem digitValue_ofNat {k : ℕ} (hk : k < 10) :
    digitValue 10 (UInt8.ofNat (48 + k)) = some k := by
  have hnat : (UInt8.ofNat (48 + k)).toNat = 48 + k := UInt8.toNat_ofNat_of_lt' (by
    have hsize : UInt8.size = 256 := rfl
    omega)
  rw [digitValue, hnat, if_pos (by omega)]
  congr
  omega

theorem digitsValue_append_singleton {base : ℕ} {s : List UInt8} {b : UInt8} {k : ℕ}
    (hs : ∀ d ∈ s, (digitValue base d).isSome) (hb : digitValue base b = some k) (acc : ℕ) :
    digitsValue base acc (s ++ [b]) = digitsValue base acc s * base + k := by
  induction s generalizing acc with
  | nil =>
      simp only [List.nil_append, digitsValue, hb]
  | cons d s ih =>
      obtain ⟨j, hj⟩ := Option.isSome_iff_exists.mp (hs d (by simp))
      rw [List.cons_append, digitsValue, digitsValue, hj]
      exact ih (fun d' hd' => hs d' (by simp [hd'])) _

theorem isSome_digitValue_of_mem_decimal {n : ℕ} : ∀ d ∈ decimal n, (digitValue 10 d).isSome := by
  intro d hd
  obtain ⟨hlow, hhigh⟩ := digit_of_mem_decimal hd
  rw [UInt8.le_iff_toNat_le] at hlow hhigh
  rw [digitValue, if_pos ⟨hlow, Nat.lt_succ_of_le hhigh⟩]
  rfl

theorem digitsValue_decimal (n : ℕ) : digitsValue 10 0 (decimal n) = n := by
  induction n using Nat.strong_induction_on with
  | h n ih =>
      by_cases hn : n < 10
      · rw [decimal_of_lt hn, digitsValue, digitValue_ofNat hn]
        exact (Nat.zero_add _)
      · rw [decimal_of_le (by omega), digitsValue_append_singleton
          isSome_digitValue_of_mem_decimal (digitValue_ofNat (Nat.mod_lt _ (by decide))),
          ih _ (by omega)]
        omega

theorem eq_zero_of_head?_decimal {n : ℕ} (h : (decimal n).head? = some 48) : n = 0 := by
  induction n using Nat.strong_induction_on with
  | h n ih =>
      by_cases hn : n < 10
      · rw [decimal_of_lt hn, List.head?_cons, Option.some.injEq] at h
        have hvalue := digitValue_ofNat hn
        rw [h] at hvalue
        exact (Option.some.inj hvalue).symm
      · rw [decimal_of_le (by omega), List.head?_append_of_ne_nil _ (decimal_ne_nil _)] at h
        have hzero := ih _ (by omega) h
        omega

/-- What `snprintf` prints for `%d` and `%ld`. -/
def signedDecimal (x : ℤ) : List UInt8 :=
  if x < 0 then 45 :: decimal x.natAbs else decimal x.toNat

theorem length_signedDecimal_le {x : ℤ} {k : ℕ} (hk : 0 < k) (h : x.natAbs < 10 ^ k) :
    (signedDecimal x).length ≤ k + 1 := by
  unfold signedDecimal
  split
  · exact Nat.succ_le_succ ((length_decimal_le_iff hk).mpr h)
  · have hnat : x.toNat < 10 ^ k := by omega
    exact Nat.le_succ_of_le ((length_decimal_le_iff hk).mpr hnat)

theorem sign_or_digit_of_mem_signedDecimal {x : ℤ} {b : UInt8} (h : b ∈ signedDecimal x) :
    b = 45 ∨ (48 ≤ b ∧ b ≤ 57) := by
  unfold signedDecimal at h
  split at h
  · rcases List.mem_cons.mp h with rfl | h
    · exact Or.inl rfl
    · exact Or.inr (digit_of_mem_decimal h)
  · exact Or.inr (digit_of_mem_decimal h)

/-- The string in a buffer of `n` bytes after `snprintf`. -/
def snprintf (n : ℕ) (text : List UInt8) : List UInt8 := text.take (n - 1)

theorem snprintf_of_lt {n : ℕ} {text : List UInt8} (h : text.length < n) :
    snprintf n text = text :=
  List.take_of_length_le (Nat.le_sub_one_of_lt h)

end CString

end Shinigami
