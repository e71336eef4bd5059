import Shinigami.ServiceManager.Lifecycle.ManagementRequest
import Shinigami.ServiceManager.Security.Crypto

/-!
# Digests of the management interface

`hex_to_bytes` hands two characters at a time to `sscanf` with `%2hhx`, and
`verify_request_auth` compares the bytes with the HMAC of the request. `sscanf` has a
grammar of its own, `sscanfHex2`: white space in front, also past the pair, a sign, and a
single digit in front of another character. So more texts are read than those that are
made of digits; `hexBytes` is the reading of these alone. A digest has another spelling as
soon as one of its bytes is small (`not_acceptsOnlyDigits_respelt`). The pointers are not
null.
-/

namespace Shinigami

namespace ServiceManager

namespace Management

open CString

/-! ## Two digits -/

/-- What `%2hhx` reads behind white space: two bytes at most, of which the first can be a
sign. The prefix `0x` without a digit is no number, as the C standard has it (glibc reads it
as 0). -/
def scanHexItem : List UInt8 → Option UInt8
  | [] => none
  | a :: s =>
      if a = 43 then (s.head?.bind hexDigit).map UInt8.ofNat
      else if a = 45 then (s.head?.bind hexDigit).map fun d => -UInt8.ofNat d
      else
        match hexDigit a with
        | none => none
        | some d =>
            match s with
            | [] => some (UInt8.ofNat d)
            | b :: _ =>
                match hexDigit b with
                | some e => some (UInt8.ofNat (d * 16 + e))
                | none => if d = 0 ∧ toupper b = 88 then none else some (UInt8.ofNat d)

/-- `sscanf(s, "%2hhx", &byte)`; `none` when it does not return 1. -/
def sscanfHex2 (s : List UInt8) : Option UInt8 := scanHexItem ((cstr s).dropWhile CString.isspace)

def scanPairs : List UInt8 → List UInt8 × Bool
  | a :: b :: s =>
      match sscanfHex2 (a :: b :: s) with
      | none => ([], false)
      | some byte => (byte :: (scanPairs s).1, (scanPairs s).2)
  | _ => ([], true)

/-- The return code, and the bytes that are written from the start of `out`. -/
structure HexResult where
  code : Int32
  out : List UInt8
deriving DecidableEq

/-- `hex_to_bytes`. -/
def hexToBytes (hexStr : List UInt8) (maxLen : ℕ) : HexResult :=
  if maxLen < 1 then ⟨-1, []⟩
  else
    let len := (cstr hexStr).length
    if len % 2 ≠ 0 ∨ len / 2 > maxLen then ⟨-1, []⟩
    else
      match scanPairs (cstr hexStr) with
      | (out, false) => ⟨-1, out⟩
      | (out, true) => ⟨Int32.ofNat (len / 2), out⟩

/-! ## The header -/

def authScheme : List UInt8 := literal "HMAC-SHA256 "

/-- `auth_data`: `METHOD|PATH|BODY`. -/
def authData (req : HttpRequest) (body : Option (List UInt8)) : List UInt8 :=
  cstr req.method ++ 124 :: cstr req.path ++ 124 :: cstr (body.getD [])

/-- `verify_request_auth`, with the result of `sm_crypto_get_key` and of `malloc`. -/
def verifyRequestAuth (key : Option (List UInt8)) (mallocOk : Bool) (req : HttpRequest)
    (body : Option (List UInt8)) : ℤ :=
  if cstr req.authHeader = [] then -1
  else if ¬strncmpEq 12 req.authHeader authScheme then -1
  else
    let digest := hexToBytes ((cstr req.authHeader).drop 12) smHmacSize
    if digest.code ≠ Int32.ofNat smHmacSize then -1
    else if ¬mallocOk then -1
    else
      match key with
      | none => -1
      | some key => if smHmacVerify key (authData req body) digest.out ≠ 0 then -1 else 0

/-! ## What is to be read -/

def hexBytes : List UInt8 → Option (List UInt8)
  | [] => some []
  | [_] => none
  | a :: b :: s =>
      match hexDigit a, hexDigit b with
      | some d, some e => (hexBytes s).map (UInt8.ofNat (d * 16 + e) :: ·)
      | _, _ => none

def HexDigits (s : List UInt8) : Prop := ∀ b ∈ s, (hexDigit b).isSome

instance (s : List UInt8) : Decidable (HexDigits s) :=
  List.decidableBAll _ s

/-- A text is accepted exactly if it consists of pairs of digits that fit, and then its bytes
are counted and written. -/
def HexCorrect (hexStr : List UInt8) (maxLen : ℕ) : Prop :=
  (0 ≤ (hexToBytes hexStr maxLen).code ↔
    ∃ bytes, hexBytes (cstr hexStr) = some bytes ∧ bytes.length ≤ maxLen) ∧
  ∀ bytes, hexBytes (cstr hexStr) = some bytes → bytes.length ≤ maxLen →
    (hexToBytes hexStr maxLen).code.toInt = bytes.length ∧ (hexToBytes hexStr maxLen).out = bytes

/-- A header that is accepted is the scheme with 64 digits. -/
def AcceptsOnlyDigits (key : Option (List UInt8)) (mallocOk : Bool) (req : HttpRequest)
    (body : Option (List UInt8)) : Prop :=
  verifyRequestAuth key mallocOk req body = 0 →
    ∃ digest, cstr req.authHeader = authScheme ++ digest ∧ digest.length = 64 ∧ HexDigits digest

/-- What `sscanf` reads at the even offsets of a text. -/
def readings (s : List UInt8) : List (Option UInt8) :=
  (List.range (s.length / 2)).map fun i => sscanfHex2 (s.drop (2 * i))

/-- The text has no pairs or too many, or only digits and a number of pairs that is an `int`,
or else an offset at which `sscanf` reads nothing; or the number of pairs wraps to a negative
one. -/
def HexReadable (s : List UInt8) (maxLen : ℕ) : Prop :=
  s.length % 2 = 1 ∨ maxLen < s.length / 2 ∨
    if HexDigits s then s.length / 2 < 2 ^ 31
    else none ∈ readings s ∨ 2 ^ 31 ≤ s.length / 2 % 2 ^ 32

/-- The scheme is followed by 64 characters, not all of them digits, that `sscanf` reads as
the HMAC of the request. -/
def Misspelt (key : Option (List UInt8)) (mallocOk : Bool) (req : HttpRequest)
    (body : Option (List UInt8)) : Prop :=
  mallocOk = true ∧ ∃ digest k, cstr req.authHeader = authScheme ++ digest ∧
    digest.length = 64 ∧ ¬HexDigits digest ∧ key = some k ∧
    readings digest = (smHmacSha256 k (authData req body)).map some

/-! ## The pairs of a text -/

theorem le_of_hexDigit {a : UInt8} {d : ℕ} (h : hexDigit a = some d) : 48 ≤ a.toNat := by
  unfold hexDigit at h
  split at h
  · rename_i hdigit
    exact UInt8.le_iff_toNat_le.mp hdigit.1
  · split at h
    · rename_i hupper
      exact Nat.le_trans (by decide) (UInt8.le_iff_toNat_le.mp hupper.1)
    · split at h
      · rename_i hlower
        exact Nat.le_trans (by decide) (UInt8.le_iff_toNat_le.mp hlower.1)
      · cases h

theorem isspace_eq_false {a : UInt8} (h : 48 ≤ a.toNat) : CString.isspace a = false := by
  have hblank : a ≠ 32 := by
    rintro rfl
    exact absurd h (by decide)
  have hrange : ¬(9 ≤ a ∧ a ≤ 13) := by
    rintro ⟨-, hle⟩
    have := UInt8.le_iff_toNat_le.mp hle
    simp only [UInt8.reduceToNat] at this
    omega
  simpa [CString.isspace, hblank] using hrange

theorem sscanfHex2_digits {a b : UInt8} {d e : ℕ} (ha : hexDigit a = some d)
    (hb : hexDigit b = some e) (s : List UInt8) :
    sscanfHex2 (a :: b :: s) = some (UInt8.ofNat (d * 16 + e)) := by
  have hle := le_of_hexDigit ha
  have hne : ∀ c : UInt8, c.toNat < 48 → a ≠ c := by
    rintro c hc rfl
    omega
  have hb0 : b ≠ 0 := by
    rintro rfl
    cases hb
  have hcstr : cstr (a :: b :: s) = a :: b :: cstr s := by
    rw [cstr, List.takeWhile_cons_of_pos (by simpa using hne 0 (by decide)),
      List.takeWhile_cons_of_pos (by simpa using hb0), cstr]
  rw [sscanfHex2, hcstr, List.dropWhile_cons_of_neg (by simp [isspace_eq_false hle]), scanHexItem,
    if_neg (hne 43 (by decide)), if_neg (hne 45 (by decide)), ha]
  dsimp only
  rw [hb]

theorem readings_cons (a b : UInt8) (s : List UInt8) :
    readings (a :: b :: s) = sscanfHex2 (a :: b :: s) :: readings s := by
  have hlen : (a :: b :: s).length / 2 = s.length / 2 + 1 := by
    rw [List.length_cons, List.length_cons]
    omega
  rw [readings, hlen, List.range_succ_eq_map, List.map_cons, List.map_map]
  rfl

theorem length_lt_two {s : List UInt8} (h : ∀ a b t, s = a :: b :: t → False) : s.length < 2 := by
  rcases s with - | ⟨a, - | ⟨b, t⟩⟩
  · exact Nat.zero_lt_two
  · exact Nat.one_lt_two
  · exact (h a b t rfl).elim

theorem readings_of_length_lt_two {s : List UInt8} (h : s.length < 2) : readings s = [] := by
  rw [readings, Nat.div_eq_of_lt h]
  rfl

/-- The loop reads every pair exactly when every reading is a number, and then writes them. -/
theorem scanPairs_eq_iff {s out : List UInt8} :
    scanPairs s = (out, true) ↔ readings s = out.map some := by
  induction s using scanPairs.induct generalizing out with
  | case1 a b s hnone =>
      rw [readings_cons, scanPairs, hnone]
      cases out with
      | nil => simp
      | cons byte out => simp
  | case2 a b s byte hbyte ih =>
      rw [readings_cons, scanPairs, hbyte]
      cases out with
      | nil => simp
      | cons byte' out =>
          rw [List.map_cons, List.cons.injEq, Option.some.injEq, ← ih, Prod.ext_iff,
            List.cons.injEq, Prod.ext_iff, and_assoc]
  | case3 s hshort =>
      rw [readings_of_length_lt_two (length_lt_two hshort), scanPairs, Prod.mk.injEq]
      · constructor
        · rintro ⟨rfl, -⟩
          rfl
        · intro hnil
          exact ⟨(List.map_eq_nil_iff.mp hnil.symm).symm, rfl⟩
      · exact hshort

theorem scanPairs_eq_false_iff {s : List UInt8} :
    (scanPairs s).2 = false ↔ none ∈ readings s := by
  induction s using scanPairs.induct with
  | case1 a b s hnone => simp [readings_cons, scanPairs, hnone]
  | case2 a b s byte hbyte ih => simp [readings_cons, scanPairs, hbyte, ih]
  | case3 s hshort =>
      rw [readings_of_length_lt_two (length_lt_two hshort), scanPairs]
      · simp
      · exact hshort

theorem length_scanPairs_le (s : List UInt8) : (scanPairs s).1.length ≤ s.length / 2 := by
  induction s using scanPairs.induct with
  | case1 a b s hnone => simp [scanPairs, hnone]
  | case2 a b s byte hbyte ih =>
      simp only [scanPairs, hbyte, List.length_cons]
      omega
  | case3 s hshort =>
      rw [scanPairs]
      · exact Nat.zero_le _
      · exact hshort

theorem length_out_hexToBytes_le (hexStr : List UInt8) (maxLen : ℕ) :
    (hexToBytes hexStr maxLen).out.length ≤ maxLen := by
  have hle := length_scanPairs_le (cstr hexStr)
  unfold hexToBytes
  dsimp only
  split
  · exact Nat.zero_le _
  · split
    · exact Nat.zero_le _
    · rename_i hpairs
      have hfits : (cstr hexStr).length / 2 ≤ maxLen := by omega
      cases hscan : scanPairs (cstr hexStr) with
      | mk out ok =>
          rw [hscan] at hle
          cases ok with
          | false => exact hle.trans hfits
          | true => exact hle.trans hfits

theorem readings_of_hexBytes {s bytes : List UInt8} (h : hexBytes s = some bytes) :
    readings s = bytes.map some ∧ s.length = 2 * bytes.length ∧ HexDigits s := by
  induction s using hexBytes.induct generalizing bytes with
  | case1 =>
      cases h
      exact ⟨rfl, rfl, List.forall_mem_nil _⟩
  | case2 a => cases h
  | case3 a b s d e he hd ih =>
      rw [hexBytes, hd, he] at h
      obtain ⟨bytes', hbytes', rfl⟩ := Option.map_eq_some_iff.mp h
      obtain ⟨hreadings, hlen, hdigits⟩ := ih hbytes'
      refine ⟨?_, ?_, ?_⟩
      · rw [readings_cons, sscanfHex2_digits hd he, hreadings, List.map_cons]
      · rw [List.length_cons, List.length_cons, List.length_cons, hlen]
        omega
      · exact List.forall_mem_cons.mpr ⟨by rw [hd]; rfl,
          List.forall_mem_cons.mpr ⟨by rw [he]; rfl, hdigits⟩⟩
  | case4 a b s hnone =>
      rw [hexBytes] at h
      split at h
      · rename_i d e hd he
        exact (hnone d e hd he).elim
      · cases h

theorem exists_hexBytes {s : List UInt8} (heven : s.length % 2 = 0) (hdigits : HexDigits s) :
    ∃ bytes, hexBytes s = some bytes := by
  induction s using hexBytes.induct with
  | case1 => exact ⟨[], rfl⟩
  | case2 a => cases heven
  | case3 a b s d e he hd ih =>
      rw [List.length_cons, List.length_cons] at heven
      obtain ⟨bytes, hbytes⟩ := ih (by omega) fun c hc => hdigits c (by simp [hc])
      exact ⟨UInt8.ofNat (d * 16 + e) :: bytes, by rw [hexBytes, hd, he, hbytes]; rfl⟩
  | case4 a b s hnone =>
      obtain ⟨d, hd⟩ := Option.isSome_iff_exists.mp (hdigits a (by simp))
      obtain ⟨e, he⟩ := Option.isSome_iff_exists.mp (hdigits b (by simp))
      exact (hnone d e hd he).elim

/-! ## `hex_to_bytes` -/

theorem int32_ofNat_nonneg_iff (k : ℕ) : 0 ≤ Int32.ofNat k ↔ k % 2 ^ 32 < 2 ^ 31 := by
  have hsize : Int32.size = 2 ^ 32 := rfl
  rw [Int32.le_iff_toInt_le, Int32.toInt_ofNat', Int32.toInt_zero, Int.bmod_def, hsize]
  omega

theorem int32_ofNat_toInt_iff (k : ℕ) : (Int32.ofNat k).toInt = k ↔ k < 2 ^ 31 := by
  have hsize : Int32.size = 2 ^ 32 := rfl
  rw [Int32.toInt_ofNat', Int.bmod_def, hsize]
  omega

theorem pairs_of_hexBytes {s bytes : List UInt8} {maxLen : ℕ} (h : hexBytes s = some bytes)
    (hle : bytes.length ≤ maxLen) : ¬(s.length % 2 = 1 ∨ maxLen < s.length / 2) := by
  obtain ⟨-, hlen, -⟩ := readings_of_hexBytes h
  omega

theorem hexToBytes_of_pairs {hexStr : List UInt8} {maxLen : ℕ} (hmax : 1 ≤ maxLen)
    (hpairs : ¬((cstr hexStr).length % 2 = 1 ∨ maxLen < (cstr hexStr).length / 2)) :
    hexToBytes hexStr maxLen =
      match scanPairs (cstr hexStr) with
      | (out, false) => ⟨-1, out⟩
      | (out, true) => ⟨Int32.ofNat ((cstr hexStr).length / 2), out⟩ := by
  unfold hexToBytes
  dsimp only
  rw [if_neg (by omega), if_neg (by omega)]

theorem hexCorrect_iff_of_digits {hexStr bytes : List UInt8} {maxLen : ℕ} (hmax : 1 ≤ maxLen)
    (hpairs : ¬((cstr hexStr).length % 2 = 1 ∨ maxLen < (cstr hexStr).length / 2))
    (hbytes : hexBytes (cstr hexStr) = some bytes) :
    HexCorrect hexStr maxLen ↔ (cstr hexStr).length / 2 < 2 ^ 31 := by
  obtain ⟨hreadings, hlen, -⟩ := readings_of_hexBytes hbytes
  have hcount : (cstr hexStr).length / 2 = bytes.length := by omega
  have hfits : bytes.length ≤ maxLen := by omega
  have hresult : hexToBytes hexStr maxLen = ⟨Int32.ofNat bytes.length, bytes⟩ := by
    rw [hexToBytes_of_pairs hmax hpairs, scanPairs_eq_iff.mpr hreadings, hcount]
  rw [HexCorrect, hresult, hcount]
  constructor
  · rintro ⟨-, hvalue⟩
    exact (int32_ofNat_toInt_iff _).mp (hvalue bytes hbytes hfits).1
  · intro hsmall
    have hmod : bytes.length % 2 ^ 32 < 2 ^ 31 := by omega
    refine ⟨iff_of_true ((int32_ofNat_nonneg_iff _).mpr hmod) ⟨bytes, hbytes, hfits⟩, ?_⟩
    intro bytes' hbytes' _
    rw [hbytes] at hbytes'
    cases hbytes'
    exact ⟨(int32_ofNat_toInt_iff _).mpr hsmall, rfl⟩

theorem hexCorrect_iff_of_not_digits {hexStr : List UInt8} {maxLen : ℕ} (hmax : 1 ≤ maxLen)
    (hpairs : ¬((cstr hexStr).length % 2 = 1 ∨ maxLen < (cstr hexStr).length / 2))
    (hdigits : ¬HexDigits (cstr hexStr)) :
    HexCorrect hexStr maxLen ↔
      none ∈ readings (cstr hexStr) ∨ 2 ^ 31 ≤ (cstr hexStr).length / 2 % 2 ^ 32 := by
  have hnone : ∀ bytes, hexBytes (cstr hexStr) ≠ some bytes := fun bytes hbytes =>
    hdigits (readings_of_hexBytes hbytes).2.2
  have hcorrect : HexCorrect hexStr maxLen ↔ ¬0 ≤ (hexToBytes hexStr maxLen).code := by
    constructor
    · rintro ⟨hiff, -⟩ hnonneg
      obtain ⟨bytes, hbytes, -⟩ := hiff.mp hnonneg
      exact hnone bytes hbytes
    · intro hneg
      exact ⟨iff_of_false hneg fun ⟨bytes, hbytes, _⟩ => hnone bytes hbytes,
        fun bytes hbytes => (hnone bytes hbytes).elim⟩
  rw [hcorrect, hexToBytes_of_pairs hmax hpairs, ← scanPairs_eq_false_iff]
  obtain ⟨out, ok⟩ := scanPairs (cstr hexStr)
  cases ok with
  | false =>
      have hneg : ¬(0 : Int32) ≤ -1 := by decide
      exact iff_of_true hneg (Or.inl rfl)
  | true =>
      dsimp only
      rw [int32_ofNat_nonneg_iff, Nat.not_lt]
      simp

theorem hexCorrect_iff {hexStr : List UInt8} {maxLen : ℕ} (hmax : 1 ≤ maxLen) :
    HexCorrect hexStr maxLen ↔ HexReadable (cstr hexStr) maxLen := by
  by_cases hpairs : (cstr hexStr).length % 2 = 1 ∨ maxLen < (cstr hexStr).length / 2
  · refine iff_of_true ?_ (or_assoc.mp (Or.inl hpairs))
    have hresult : hexToBytes hexStr maxLen = ⟨-1, []⟩ := by
      unfold hexToBytes
      dsimp only
      rw [if_neg (by omega), if_pos (by omega)]
    rw [HexCorrect, hresult]
    refine ⟨iff_of_false (by decide) ?_, ?_⟩
    · rintro ⟨bytes, hbytes, hle⟩
      exact pairs_of_hexBytes hbytes hle hpairs
    · intro bytes hbytes hle
      exact (pairs_of_hexBytes hbytes hle hpairs).elim
  · have hreadable : HexReadable (cstr hexStr) maxLen ↔
        if HexDigits (cstr hexStr) then (cstr hexStr).length / 2 < 2 ^ 31
        else none ∈ readings (cstr hexStr) ∨ 2 ^ 31 ≤ (cstr hexStr).length / 2 % 2 ^ 32 := by
      rw [HexReadable, ← or_assoc]
      exact or_iff_right hpairs
    rw [hreadable]
    by_cases hdigits : HexDigits (cstr hexStr)
    · obtain ⟨bytes, hbytes⟩ := exists_hexBytes (by omega) hdigits
      rw [if_pos hdigits]
      exact hexCorrect_iff_of_digits hmax hpairs hbytes
    · rw [if_neg hdigits]
      exact hexCorrect_iff_of_not_digits hmax hpairs hdigits

/-! ## `verify_request_auth` -/

theorem code_hexToBytes_iff {digest : List UInt8} :
    (hexToBytes digest smHmacSize).code = Int32.ofNat smHmacSize ↔
      (cstr digest).length = 64 ∧ ∃ out : List UInt8, readings (cstr digest) = out.map some := by
  have hne : (-1 : Int32) ≠ Int32.ofNat smHmacSize := by decide
  by_cases hpairs : (cstr digest).length % 2 = 1 ∨ smHmacSize < (cstr digest).length / 2
  · have hresult : hexToBytes digest smHmacSize = ⟨-1, []⟩ := by
      unfold hexToBytes
      dsimp only
      rw [if_neg (by decide), if_pos (by omega)]
    rw [hresult]
    refine iff_of_false hne ?_
    rintro ⟨hlen, -⟩
    rw [hlen] at hpairs
    exact absurd hpairs (by decide)
  · rw [hexToBytes_of_pairs (by decide) hpairs]
    cases hscan : scanPairs (cstr digest) with
    | mk out ok =>
        cases ok with
        | false =>
            refine iff_of_false hne ?_
            rintro ⟨-, out', hread⟩
            rw [scanPairs_eq_iff.mpr hread] at hscan
            cases hscan
        | true =>
            have hread := scanPairs_eq_iff.mp hscan
            have hsize : smHmacSize = 32 := rfl
            have hsmall : (cstr digest).length / 2 < 2 ^ 31 := by omega
            dsimp only
            constructor
            · intro heq
              have hcount := congrArg Int32.toInt heq
              rw [(int32_ofNat_toInt_iff _).mpr hsmall,
                (int32_ofNat_toInt_iff _).mpr (by decide)] at hcount
              exact ⟨by omega, out, hread⟩
            · rintro ⟨hlen, -⟩
              rw [hlen]
              rfl

theorem out_hexToBytes {digest out : List UInt8} (hlen : (cstr digest).length = 64)
    (hread : readings (cstr digest) = out.map some) : (hexToBytes digest smHmacSize).out = out := by
  have hpairs : ¬((cstr digest).length % 2 = 1 ∨ smHmacSize < (cstr digest).length / 2) := by
    rw [hlen]
    decide
  rw [hexToBytes_of_pairs (by decide) hpairs, scanPairs_eq_iff.mpr hread]

theorem length_of_readings {s out : List UInt8} (hread : readings s = out.map some) :
    out.length = s.length / 2 := by
  have hlen := congrArg List.length hread
  rw [readings, List.length_map, List.length_map, List.length_range] at hlen
  exact hlen.symm

theorem strncmpEq_authScheme_iff {header : List UInt8} :
    strncmpEq 12 header authScheme = true ↔
      cstr header = authScheme ++ (cstr header).drop 12 := by
  have hscheme : (cstr authScheme).take 12 = authScheme := by decide
  have hlen : authScheme.length = 12 := by decide
  rw [strncmpEq, hscheme, beq_iff_eq]
  constructor
  · intro htake
    nth_rewrite 1 [← List.take_append_drop 12 (cstr header), htake]
    rfl
  · intro heq
    rw [heq, List.take_append_of_le_length hlen.ge, List.take_of_length_le hlen.le]

theorem verifyRequestAuth_eq_zero_iff_checks {key : Option (List UInt8)} {mallocOk : Bool}
    {req : HttpRequest} {body : Option (List UInt8)} :
    verifyRequestAuth key mallocOk req body = 0 ↔
      cstr req.authHeader ≠ [] ∧ strncmpEq 12 req.authHeader authScheme = true ∧
        (hexToBytes ((cstr req.authHeader).drop 12) smHmacSize).code = Int32.ofNat smHmacSize ∧
        mallocOk = true ∧ ∃ k, key = some k ∧
          smHmacVerify k (authData req body)
            (hexToBytes ((cstr req.authHeader).drop 12) smHmacSize).out = 0 := by
  have hne : (-1 : ℤ) ≠ 0 := by decide
  constructor
  · intro haccepted
    unfold verifyRequestAuth at haccepted
    dsimp only at haccepted
    split at haccepted
    · exact (hne haccepted).elim
    · rename_i hnil
      split at haccepted
      · exact (hne haccepted).elim
      · rename_i hscheme
        split at haccepted
        · exact (hne haccepted).elim
        · rename_i hcode
          split at haccepted
          · exact (hne haccepted).elim
          · rename_i hmalloc
            split at haccepted
            · exact (hne haccepted).elim
            · rename_i k
              split at haccepted
              · exact (hne haccepted).elim
              · rename_i hmac
                exact ⟨hnil, not_not.mp hscheme, not_not.mp hcode, not_not.mp hmalloc, k, rfl,
                  not_not.mp hmac⟩
  · rintro ⟨hnil, hscheme, hcode, hmalloc, k, rfl, hmac⟩
    unfold verifyRequestAuth
    dsimp only
    rw [if_neg hnil, if_neg (not_not.mpr hscheme), if_neg (not_not.mpr hcode),
      if_neg (not_not.mpr hmalloc), if_neg (not_not.mpr hmac)]

/-- A request is accepted exactly if 64 characters behind the scheme are read as its HMAC. -/
theorem verifyRequestAuth_eq_zero_iff {key : Option (List UInt8)} {mallocOk : Bool}
    {req : HttpRequest} {body : Option (List UInt8)} :
    verifyRequestAuth key mallocOk req body = 0 ↔
      mallocOk = true ∧ ∃ digest k, cstr req.authHeader = authScheme ++ digest ∧
        digest.length = 64 ∧ key = some k ∧
        readings digest = (smHmacSha256 k (authData req body)).map some := by
  have hcstr : cstr ((cstr req.authHeader).drop 12) = (cstr req.authHeader).drop 12 :=
    cstr_eq_self fun hmem => zero_notMem_cstr _ (List.mem_of_mem_drop hmem)
  rw [verifyRequestAuth_eq_zero_iff_checks, code_hexToBytes_iff, strncmpEq_authScheme_iff]
  constructor
  · rintro ⟨-, hscheme, ⟨hlen, out, hread⟩, hmalloc, k, hkey, hmac⟩
    rw [out_hexToBytes hlen hread] at hmac
    rw [hcstr] at hlen hread
    have hsize : out.length = smHmacSize := by
      rw [length_of_readings hread, hlen]
      rfl
    rw [(smHmacVerify_eq_zero_iff hsize).mp hmac] at hread
    exact ⟨hmalloc, _, k, hscheme, hlen, hkey, hread⟩
  · rintro ⟨hmalloc, digest, k, hheader, hlen, hkey, hread⟩
    have hdrop : (cstr req.authHeader).drop 12 = digest := by
      rw [hheader]
      rfl
    have hnil : cstr req.authHeader ≠ [] := by
      rw [hheader]
      exact List.append_ne_nil_of_left_ne_nil (by decide) _
    rw [hdrop] at hcstr ⊢
    rw [← hcstr] at hlen hread
    rw [out_hexToBytes hlen hread]
    exact ⟨hnil, hheader, ⟨hlen, _, hread⟩, hmalloc, k, hkey, smHmacVerify_self _ _⟩

/-! ## Another spelling of a digest -/

def hexChar (n : ℕ) : UInt8 := if n < 10 then UInt8.ofNat (48 + n) else UInt8.ofNat (87 + n)

def respelt (b : UInt8) : List UInt8 :=
  if b < 16 then [43, hexChar b.toNat] else [hexChar (b.toNat / 16), hexChar (b.toNat % 16)]

theorem hexDigit_hexChar {n : ℕ} (hn : n < 16) : hexDigit (hexChar n) = some n := by
  have hall : ∀ n < 16, hexDigit (hexChar n) = some n := by decide
  exact hall n hn

theorem sscanfHex2_plus {b : UInt8} {d : ℕ} (hb : hexDigit b = some d) (s : List UInt8) :
    sscanfHex2 (43 :: b :: s) = some (UInt8.ofNat d) := by
  have hb0 : b ≠ 0 := by
    rintro rfl
    cases hb
  have hcstr : cstr (43 :: b :: s) = 43 :: b :: cstr s := by
    rw [cstr, List.takeWhile_cons_of_pos (by decide),
      List.takeWhile_cons_of_pos (by simpa using hb0), cstr]
  rw [sscanfHex2, hcstr, List.dropWhile_cons_of_neg (by decide), scanHexItem, if_pos rfl,
    List.head?_cons, Option.bind_some, hb, Option.map_some]

theorem sscanfHex2_respelt (b : UInt8) (s : List UInt8) :
    sscanfHex2 (respelt b ++ s) = some b := by
  have hlt := b.toNat_lt
  unfold respelt
  split
  · rename_i hsmall
    have hdigit := hexDigit_hexChar (UInt8.lt_iff_toNat_lt.mp hsmall)
    rw [List.cons_append, List.cons_append, sscanfHex2_plus hdigit, UInt8.ofNat_toNat]
  · have hhigh := hexDigit_hexChar (n := b.toNat / 16) (by omega)
    have hlow := hexDigit_hexChar (n := b.toNat % 16) (by omega)
    rw [List.cons_append, List.cons_append, sscanfHex2_digits hhigh hlow, Nat.div_add_mod',
      UInt8.ofNat_toNat]

theorem exists_respelt (b : UInt8) : ∃ c d, respelt b = [c, d] := by
  unfold respelt
  split
  · exact ⟨_, _, rfl⟩
  · exact ⟨_, _, rfl⟩

theorem readings_respelt (bytes : List UInt8) :
    readings (bytes.flatMap respelt) = bytes.map some := by
  induction bytes with
  | nil => rfl
  | cons b bytes ih =>
      obtain ⟨c, d, hpair⟩ := exists_respelt b
      have hread := sscanfHex2_respelt b (bytes.flatMap respelt)
      rw [hpair] at hread
      rw [List.flatMap_cons, hpair, List.map_cons, ← ih, ← hread]
      exact readings_cons c d _

theorem length_respelt (bytes : List UInt8) :
    (bytes.flatMap respelt).length = 2 * bytes.length := by
  induction bytes with
  | nil => rfl
  | cons b bytes ih =>
      obtain ⟨c, d, hpair⟩ := exists_respelt b
      rw [List.flatMap_cons, hpair, List.length_append, ih]
      simp only [List.length_cons, List.length_nil]
      omega

theorem zero_notMem_respelt (bytes : List UInt8) : (0 : UInt8) ∉ bytes.flatMap respelt := by
  have hchar : ∀ n < 16, (0 : UInt8) ≠ hexChar n := by decide
  intro hmem
  obtain ⟨b, -, hb⟩ := List.mem_flatMap.mp hmem
  have hlt := b.toNat_lt
  unfold respelt at hb
  split at hb
  · rename_i hsmall
    have hne := hchar b.toNat (UInt8.lt_iff_toNat_lt.mp hsmall)
    simp [hne] at hb
  · have hhigh := hchar (b.toNat / 16) (by omega)
    have hlow := hchar (b.toNat % 16) (by omega)
    simp [hhigh, hlow] at hb

/-- Every request whose HMAC has a byte below 16 has a header with a sign in it that is
accepted. -/
theorem not_acceptsOnlyDigits_respelt (k : List UInt8) (req : HttpRequest)
    (body : Option (List UInt8)) (hsmall : ∃ b ∈ smHmacSha256 k (authData req body), b < 16) :
    ¬AcceptsOnlyDigits (some k) true
      { req with authHeader :=
          authScheme ++ (smHmacSha256 k (authData req body)).flatMap respelt } body := by
  intro honly
  have hcstr : cstr (authScheme ++ (smHmacSha256 k (authData req body)).flatMap respelt) =
      authScheme ++ (smHmacSha256 k (authData req body)).flatMap respelt := by
    refine cstr_eq_self fun hmem => ?_
    rcases List.mem_append.mp hmem with hscheme | hdigest
    · exact absurd hscheme (by decide)
    · exact zero_notMem_respelt _ hdigest
  have hlen : ((smHmacSha256 k (authData req body)).flatMap respelt).length = 64 := by
    rw [length_respelt, length_smHmacSha256]
    rfl
  obtain ⟨digest, hheader, -, hdigits⟩ := honly
    (verifyRequestAuth_eq_zero_iff.mpr ⟨rfl, _, k, hcstr, hlen, rfl, readings_respelt _⟩)
  rw [← List.append_cancel_left (hcstr.symm.trans hheader)] at hdigits
  obtain ⟨b, hb, hlt⟩ := hsmall
  have hplus : (43 : UInt8) ∈ (smHmacSha256 k (authData req body)).flatMap respelt := by
    refine List.mem_flatMap.mpr ⟨b, hb, ?_⟩
    rw [respelt, if_pos hlt]
    exact List.mem_cons_self
  exact absurd (hdigits 43 hplus) (by decide)

/-- Which texts are read as they should be, and which headers let a request pass that does
not spell its HMAC with digits. -/
theorem digestParsing_iff (hexStr : List UInt8) (maxLen : ℕ) (hmax : 1 ≤ maxLen)
    (key : Option (List UInt8)) (mallocOk : Bool) (req : HttpRequest)
    (body : Option (List UInt8)) :
    (HexCorrect hexStr maxLen ↔ HexReadable (cstr hexStr) maxLen) ∧
      (AcceptsOnlyDigits key mallocOk req body ↔ ¬Misspelt key mallocOk req body) := by
  refine ⟨hexCorrect_iff hmax, ?_⟩
  rw [AcceptsOnlyDigits, verifyRequestAuth_eq_zero_iff]
  constructor
  · rintro hdigits ⟨hmalloc, digest, k, hheader, hlen, hnot, hkey, hread⟩
    obtain ⟨digest', hheader', -, hdigits'⟩ :=
      hdigits ⟨hmalloc, digest, k, hheader, hlen, hkey, hread⟩
    rw [hheader] at hheader'
    rw [List.append_cancel_left hheader'] at hnot
    exact hnot hdigits'
  · rintro hspelt ⟨hmalloc, digest, k, hheader, hlen, hkey, hread⟩
    refine ⟨digest, hheader, hlen, ?_⟩
    by_contra hnot
    exact hspelt ⟨hmalloc, digest, k, hheader, hlen, hnot, hkey, hread⟩

/-- Three bytes in digits, and a request whose header has 64 of them. -/
theorem digestParsing_iff_digits :
    1 ≤ 32 ∧ HexCorrect (literal "0aFf10") 32 ∧
      AcceptsOnlyDigits (some (literal "secret")) true
        ⟨literal "POST", literal "/restart", authScheme ++ List.replicate 64 48, 7⟩
        (some (literal "audio:1")) := by
  obtain ⟨hhex, hauth⟩ := digestParsing_iff (literal "0aFf10") 32 (by decide)
    (some (literal "secret")) true
    ⟨literal "POST", literal "/restart", authScheme ++ List.replicate 64 48, 7⟩
    (some (literal "audio:1"))
  refine ⟨by decide, hhex.mpr (.inr (.inr ?_)), hauth.mpr ?_⟩
  · decide
  · rintro ⟨-, digest, k, hheader, -, hnot, -⟩
    have hcstr : cstr (authScheme ++ List.replicate 64 48) =
        authScheme ++ List.replicate 64 48 := by
      decide
    rw [← List.append_cancel_left (hcstr.symm.trans hheader)] at hnot
    exact hnot (by decide)

/-- A digit in front of another letter is read as a byte. -/
theorem not_hexCorrect_oneDigit : ¬HexCorrect (literal "1g") 32 := by
  rintro ⟨hiff, -⟩
  have hnone : hexBytes (cstr (literal "1g")) = none := by decide
  obtain ⟨bytes, hbytes, -⟩ := hiff.mp (by decide)
  rw [hnone] at hbytes
  cases hbytes

end Management

end ServiceManager

end Shinigami
