import Mathlib.Algebra.Order.Ring.Nat
import Shinigami.Foundations.Escaping
import Shinigami.Foundations.Json

/-!
# Strings of the structured log

`json_escape_string` writes a string as the body of a JSON string into a buffer. Control
characters without an escape are dropped. An escape pair that does not fit is passed over,
but the loop goes on, so with one byte left a later plain character is still written.
`escapesPrefix_iff` says for which strings and buffers this happens.
-/

namespace Shinigami

namespace ServiceManager

namespace StructuredLog

open CString

def backslash : UInt8 := 92

/-- The letter behind the backslash: a quote, a backslash, `n`, `r` and `t`. -/
def jsonLetter (c : UInt8) : Option UInt8 :=
  if c = 34 then some 34
  else if c = backslash then some backslash
  else if c = 10 then some 110
  else if c = 13 then some 114
  else if c = 9 then some 116
  else none

/-- The loop of `json_escape_string`, with the rest of the input and the output so far. The
index of the source is an `int`, which is not left by inputs of less than 2 ^ 31 bytes. -/
def jsonEscapeFrom (outlen : ℕ) : List UInt8 → List UInt8 → List UInt8
  | [], output => output
  | c :: input, output =>
      if output.length < outlen - 1 then
        match jsonLetter c with
        | some letter =>
            if output.length + 2 < outlen then
              jsonEscapeFrom outlen input (output ++ [backslash, letter])
            else jsonEscapeFrom outlen input output
        | none =>
            if c < 32 then jsonEscapeFrom outlen input output
            else jsonEscapeFrom outlen input (output ++ [c])
      else output

/-- `json_escape_string`: the string in the buffer of `outlen` bytes. The input `none` is a
null pointer. -/
def jsonEscapeString (input : Option (List UInt8)) (outlen : ℕ) : List UInt8 :=
  match input with
  | none => []
  | some input => if outlen = 0 then [] else jsonEscapeFrom outlen (cstr input) []

def Kept (c : UInt8) : Prop := 32 ≤ c ∨ (jsonLetter c).isSome

instance : DecidablePred Kept := fun _ => inferInstanceAs (Decidable (_ ∨ _))

/-- The string without the control characters other than newline, carriage return and
tab. -/
def printable (input : List UInt8) : List UInt8 := (cstr input).filter fun c => decide (Kept c)

def escapedForm (s : List UInt8) : List UInt8 :=
  Escaping.encode (Escaping.token backslash jsonLetter) s

/-- The buffer holds the body of a JSON string that stands for a prefix of the string. -/
def EscapesPrefix (input : List UInt8) (outlen : ℕ) : Prop :=
  (jsonEscapeString (some input) outlen).length < outlen ∧
    ∃ s, Json.StringBody (jsonEscapeString (some input) outlen) (s.map .byte) ∧
      s <+: printable input

/-- Behind a character whose escape pair meets the last free byte of the buffer there are
only characters with escape pairs. -/
def CutsNoPair (input : List UInt8) (outlen : ℕ) : Prop :=
  ∀ before c after, printable input = before ++ c :: after → (jsonLetter c).isSome →
    (escapedForm before).length + 2 = outlen → ∀ x ∈ after, (jsonLetter x).isSome

theorem kept_of_jsonLetter {c letter : UInt8} (h : jsonLetter c = some letter) : Kept c :=
  Or.inr (by rw [h]; rfl)

theorem kept_iff_of_jsonLetter {c : UInt8} (h : jsonLetter c = none) : Kept c ↔ 32 ≤ c := by
  simp [Kept, h]

theorem length_token_of_isSome {c : UInt8} (h : (jsonLetter c).isSome) :
    (Escaping.token backslash jsonLetter c).length = 2 := by
  rw [Escaping.length_token, if_pos h]

theorem length_token_of_not_isSome {c : UInt8} (h : ¬(jsonLetter c).isSome) :
    (Escaping.token backslash jsonLetter c).length = 1 := by
  rw [Escaping.length_token, if_neg h]

theorem jsonEscapeFrom_of_full {outlen : ℕ} {output : List UInt8}
    (h : outlen - 1 ≤ output.length) (input : List UInt8) :
    jsonEscapeFrom outlen input output = output := by
  cases input with
  | nil => rfl
  | cons c input => exact if_neg (not_lt.mpr h)

/-- One round of the loop: a character that is kept is written if its token fits. -/
theorem jsonEscapeFrom_cons (outlen : ℕ) (c : UInt8) (input output : List UInt8) :
    jsonEscapeFrom outlen (c :: input) output =
      if Kept c then
        if (Escaping.token backslash jsonLetter c).length ≤ outlen - 1 - output.length then
          jsonEscapeFrom outlen input (output ++ Escaping.token backslash jsonLetter c)
        else jsonEscapeFrom outlen input output
      else jsonEscapeFrom outlen input output := by
  by_cases hroom : output.length < outlen - 1
  · rw [jsonEscapeFrom, if_pos hroom]
    cases hletter : jsonLetter c with
    | some letter =>
        have htoken : Escaping.token backslash jsonLetter c = [backslash, letter] := by
          rw [Escaping.token, hletter]
        have hlen : [backslash, letter].length = 2 := rfl
        rw [htoken, hlen, if_pos (kept_of_jsonLetter hletter)]
        by_cases hfits : output.length + 2 < outlen
        · have htwo : 2 ≤ outlen - 1 - output.length := by omega
          simp only [hfits, htwo, if_true]
        · have htwo : ¬2 ≤ outlen - 1 - output.length := by omega
          simp only [hfits, htwo, if_false]
    | none =>
        have htoken : Escaping.token backslash jsonLetter c = [c] := by
          rw [Escaping.token, hletter]
        have hone : [c].length ≤ outlen - 1 - output.length := by
          simp only [List.length_cons, List.length_nil]
          omega
        rw [htoken, if_pos hone]
        by_cases hcontrol : c < 32
        · have hdropped : ¬Kept c := fun hkept =>
            UInt8.not_lt.mpr ((kept_iff_of_jsonLetter hletter).mp hkept) hcontrol
          simp only [hcontrol, hdropped, if_true, if_false]
        · have hkept : Kept c :=
            (kept_iff_of_jsonLetter hletter).mpr (UInt8.not_lt.mp hcontrol)
          simp only [hcontrol, hkept, if_true, if_false]
  · -- the loop has ended
    have hfull := not_lt.mp hroom
    have hlen : 1 ≤ (Escaping.token backslash jsonLetter c).length := by
      rw [Escaping.length_token]
      split <;> decide
    have hnone : ¬(Escaping.token backslash jsonLetter c).length ≤
        outlen - 1 - output.length := by omega
    rw [jsonEscapeFrom_of_full hfull, jsonEscapeFrom_of_full hfull, if_neg hnone, ite_self]

theorem jsonEscapeFrom_eq (outlen : ℕ) (input output : List UInt8) :
    jsonEscapeFrom outlen input output =
      output ++ escapedForm
        (Escaping.fitEach (Escaping.token backslash jsonLetter)
          (outlen - 1 - output.length) (input.filter fun c => decide (Kept c))) := by
  induction input generalizing output with
  | nil => exact (List.append_nil output).symm
  | cons c input ih =>
      rw [jsonEscapeFrom_cons]
      by_cases hkept : Kept c
      · rw [List.filter_cons_of_pos (by simpa using hkept), Escaping.fitEach, if_pos hkept]
        split
        · rw [ih, escapedForm, escapedForm, Escaping.encode_cons, ← List.append_assoc,
            List.length_append, Nat.sub_add_eq]
        · exact ih output
      · rw [List.filter_cons_of_neg (by simpa using hkept), if_neg hkept]
        exact ih output

theorem jsonEscapeString_eq (input : List UInt8) {outlen : ℕ} (h : 1 ≤ outlen) :
    jsonEscapeString (some input) outlen =
      escapedForm (Escaping.fitEach (Escaping.token backslash jsonLetter) (outlen - 1)
        (printable input)) := by
  have hpos : outlen ≠ 0 := by omega
  rw [jsonEscapeString]
  simp only [hpos, if_false]
  rw [jsonEscapeFrom_eq]
  rfl

theorem simpleEscape_of_jsonLetter {c letter : UInt8} (h : jsonLetter c = some letter) :
    Json.simpleEscape letter = some c := by
  unfold jsonLetter at h
  split_ifs at h with hquote hbackslash hnewline hreturn htab
  · cases h
    rw [hquote]
    decide
  · cases h
    rw [hbackslash]
    decide
  · cases h
    rw [hnewline]
    decide
  · cases h
    rw [hreturn]
    decide
  · cases h
    rw [htab]
    decide

theorem plainByte_of_kept {c : UInt8} (hkept : Kept c) (h : jsonLetter c = none) :
    Json.PlainByte c := by
  refine ⟨(kept_iff_of_jsonLetter h).mp hkept, ?_, ?_⟩
  · rintro rfl
    exact absurd h (by decide)
  · rintro rfl
    exact absurd h (by decide)

theorem stringBody_escapedForm {s : List UInt8} (h : ∀ c ∈ s, Kept c) :
    Json.StringBody (escapedForm s) (s.map .byte) := by
  induction s with
  | nil => exact .nil
  | cons c s ih =>
      have hs := ih fun c' hc' => h c' (by simp [hc'])
      rw [escapedForm, Escaping.encode_cons]
      cases hletter : jsonLetter c with
      | some letter =>
          have htoken : Escaping.token backslash jsonLetter c = [backslash, letter] := by
            rw [Escaping.token, hletter]
          rw [htoken]
          exact .escape (simpleEscape_of_jsonLetter hletter) hs
      | none =>
          have htoken : Escaping.token backslash jsonLetter c = [c] := by
            rw [Escaping.token, hletter]
          rw [htoken]
          exact .plain (plainByte_of_kept (h c (by simp)) hletter) hs

/-- Whatever is dropped, the buffer holds the body of a string made of characters of the
input, with room for the terminator. -/
theorem stringBody_jsonEscapeString (input : List UInt8) {outlen : ℕ} (h : 1 ≤ outlen) :
    (jsonEscapeString (some input) outlen).length < outlen ∧
      Json.StringBody (jsonEscapeString (some input) outlen)
        ((Escaping.fitEach (Escaping.token backslash jsonLetter) (outlen - 1)
          (printable input)).map .byte) := by
  rw [jsonEscapeString_eq input h]
  constructor
  · have hlen := Escaping.length_encode_fitEach_le (Escaping.token backslash jsonLetter)
      (outlen - 1) (printable input)
    rw [escapedForm]
    omega
  · apply stringBody_escapedForm
    intro c hc
    have hmem := (Escaping.fitEach_sublist _ _ _).mem hc
    simpa using (List.mem_filter.mp hmem).2

/-- A buffer tells a prefix of the string exactly when what fits of it is one. -/
theorem escapesPrefix_iff_fitEach (input : List UInt8) {outlen : ℕ} (h : 1 ≤ outlen) :
    EscapesPrefix input outlen ↔
      Escaping.fitEach (Escaping.token backslash jsonLetter) (outlen - 1) (printable input) <+:
        printable input := by
  obtain ⟨hlen, hbody⟩ := stringBody_jsonEscapeString input h
  constructor
  · rintro ⟨-, s, hs, hpre⟩
    have hinj : Function.Injective Json.StrPart.byte := fun _ _ heq => by cases heq; rfl
    rw [List.map_injective_iff.mpr hinj (hbody.det hs)]
    exact hpre
  · intro hpre
    exact ⟨hlen, _, hbody, hpre⟩

/-- The string in the buffer is a JSON body for a prefix of the input exactly when no plain
character follows an escape pair that was cut. -/
theorem escapesPrefix_iff (input : List UInt8) {outlen : ℕ} (h : 1 ≤ outlen) :
    EscapesPrefix input outlen ↔ CutsNoPair input outlen := by
  rw [escapesPrefix_iff_fitEach input h, Escaping.fitEach_prefix_iff]
  constructor
  · intro hfit before c after hsplit hc hlen x hx
    have hroom := hfit before c after hsplit
    rw [length_token_of_isSome hc, ← escapedForm] at hroom
    by_contra hplain
    have hx' := hroom (by omega) (by omega) x hx
    rw [length_token_of_not_isSome hplain] at hx'
    omega
  · intro hcut before c after hsplit hle hlt x hx
    rw [← escapedForm] at hle hlt ⊢
    have hpos : 1 ≤ (Escaping.token backslash jsonLetter x).length := by
      rw [Escaping.length_token]
      split <;> decide
    by_cases hfull : (escapedForm before).length = outlen - 1
    · omega
    · -- one byte is left, and the pair of `c` is cut
      have hc : (jsonLetter c).isSome := by
        by_contra hplain
        rw [length_token_of_not_isSome hplain] at hlt
        omega
      rw [length_token_of_isSome hc] at hlt
      have hx' := hcut before c after hsplit hc (by omega) x hx
      rw [length_token_of_isSome hx']
      omega

/-- The pair of a line feed is cut, and only pairs would follow it. -/
theorem escapesPrefix_iff_cut :
    EscapesPrefix (literal "say \"hi\"\n\t\"") 12 ∧ CutsNoPair (literal "say \"hi\"\n\t\"") 12 := by
  have htold : EscapesPrefix (literal "say \"hi\"\n\t\"") 12 :=
    (escapesPrefix_iff_fitEach _ (by decide)).mpr (by decide)
  exact ⟨htold, (escapesPrefix_iff _ (by decide)).mp htold⟩

/-- Two bytes of room, a quote and a letter: the quote is passed over and the letter is
written. -/
theorem not_escapesPrefix_quote : ¬EscapesPrefix (literal "\"a") 2 := by
  rw [escapesPrefix_iff_fitEach _ (by decide)]
  decide

end StructuredLog

end ServiceManager

end Shinigami
