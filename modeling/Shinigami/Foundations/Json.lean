import Mathlib.Algebra.Field.Rat
import Shinigami.Foundations.CText

/-!
# JSON texts

The grammar of JSON over bytes. `StringBody` is the text between the quotes of a string
together with what it stands for, and `Denotes` a text together with its value; white space
stands between the tokens. Bytes from 128 on are parts of characters and stand for
themselves.
-/

namespace Shinigami

namespace Json

open CString

/-- A part of a decoded string: a byte, or a code unit that was given by its number. -/
inductive StrPart
  | byte (b : UInt8)
  | unit (digits : List ℕ)
deriving DecidableEq

def simpleEscape (e : UInt8) : Option UInt8 :=
  if e = 34 ∨ e = 47 ∨ e = 92 then some e
  else if e = 98 then some 8
  else if e = 102 then some 12
  else if e = 110 then some 10
  else if e = 114 then some 13
  else if e = 116 then some 9
  else none

def PlainByte (b : UInt8) : Prop := 32 ≤ b ∧ b ≠ 34 ∧ b ≠ 92

instance : DecidablePred PlainByte := fun _ => inferInstanceAs (Decidable (_ ∧ _))

inductive StringBody : List UInt8 → List StrPart → Prop
  | nil : StringBody [] []
  | plain {b : UInt8} {s : List UInt8} {ps : List StrPart} (hb : PlainByte b)
      (hs : StringBody s ps) : StringBody (b :: s) (.byte b :: ps)
  | escape {e b : UInt8} {s : List UInt8} {ps : List StrPart} (he : simpleEscape e = some b)
      (hs : StringBody s ps) : StringBody (92 :: e :: s) (.byte b :: ps)
  | unicode {e₁ e₂ e₃ e₄ : UInt8} {d₁ d₂ d₃ d₄ : ℕ} {s : List UInt8} {ps : List StrPart}
      (h₁ : hexDigit e₁ = some d₁) (h₂ : hexDigit e₂ = some d₂) (h₃ : hexDigit e₃ = some d₃)
      (h₄ : hexDigit e₄ = some d₄) (hs : StringBody s ps) :
      StringBody (92 :: 117 :: e₁ :: e₂ :: e₃ :: e₄ :: s) (.unit [d₁, d₂, d₃, d₄] :: ps)

theorem not_plainByte_backslash : ¬PlainByte 92 := by decide

theorem StringBody.det {s : List UInt8} {ps qs : List StrPart} (hps : StringBody s ps)
    (hqs : StringBody s qs) : ps = qs := by
  induction hps generalizing qs with
  | nil =>
      cases hqs
      rfl
  | plain hb hs ih =>
      cases hqs with
      | plain _ hs' => rw [ih hs']
      | escape _ _ => exact absurd hb not_plainByte_backslash
      | unicode _ _ _ _ _ => exact absurd hb not_plainByte_backslash
  | escape he hs ih =>
      cases hqs with
      | plain hb _ => exact absurd hb not_plainByte_backslash
      | escape he' hs' =>
          rw [he] at he'
          cases he'
          rw [ih hs']
      | unicode _ _ _ _ _ => cases he
  | unicode h₁ h₂ h₃ h₄ hs ih =>
      cases hqs with
      | plain hb _ => exact absurd hb not_plainByte_backslash
      | escape he _ => cases he
      | unicode h₁' h₂' h₃' h₄' hs' =>
          rw [h₁] at h₁'
          rw [h₂] at h₂'
          rw [h₃] at h₃'
          rw [h₄] at h₄'
          cases h₁'
          cases h₂'
          cases h₃'
          cases h₄'
          rw [ih hs']

theorem plain_of_all {s : List UInt8} (h : s.all (fun b => decide (PlainByte b)) = true) :
    ∀ b ∈ s, PlainByte b := by
  intro b hb
  exact of_decide_eq_true (List.all_eq_true.mp h b hb)

theorem stringBody_of_plain {s : List UInt8} (h : ∀ b ∈ s, PlainByte b) :
    StringBody s (s.map .byte) := by
  induction s with
  | nil => exact .nil
  | cons b s ih => exact .plain (h b (by simp)) (ih fun b' hb' => h b' (by simp [hb']))

theorem StringBody.head {s : List UInt8} {b : UInt8} {ps : List StrPart}
    (h : StringBody s (.byte b :: ps)) : s.head? = some b ∨ s.head? = some 92 := by
  cases h with
  | plain _ _ => exact Or.inl rfl
  | escape _ _ => exact Or.inr rfl

def Digits (ds : List UInt8) : Prop := ds ≠ [] ∧ ∀ d ∈ ds, (digitValue 10 d).isSome

def WholePart (ds : List UInt8) : Prop := Digits ds ∧ (ds.head? = some 48 → ds.length = 1)

inductive Fraction : List UInt8 → List UInt8 → Prop
  | none : Fraction [] []
  | some {ds : List UInt8} (hds : Digits ds) : Fraction (46 :: ds) ds

inductive Exponent : List UInt8 → ℤ → Prop
  | none : Exponent [] 0
  | plain {e : UInt8} {ds : List UInt8} (he : tolower e = 101) (hds : Digits ds) :
      Exponent (e :: ds) (digitsValue 10 0 ds)
  | plus {e : UInt8} {ds : List UInt8} (he : tolower e = 101) (hds : Digits ds) :
      Exponent (e :: 43 :: ds) (digitsValue 10 0 ds)
  | minus {e : UInt8} {ds : List UInt8} (he : tolower e = 101) (hds : Digits ds) :
      Exponent (e :: 45 :: ds) (-digitsValue 10 0 ds)

inductive Magnitude : List UInt8 → ℚ → Prop
  | mk {whole fraction digits exponent : List UInt8} {x : ℤ} (hwhole : WholePart whole)
      (hfraction : Fraction fraction digits) (hexponent : Exponent exponent x) :
      Magnitude (whole ++ fraction ++ exponent)
        (digitsValue 10 0 (whole ++ digits) * 10 ^ (x - digits.length))

inductive Number : List UInt8 → ℚ → Prop
  | positive {s : List UInt8} {q : ℚ} (h : Magnitude s q) : Number s q
  | negative {s : List UInt8} {q : ℚ} (h : Magnitude s q) : Number (45 :: s) (-q)

inductive Value
  | null
  | bool (b : Bool)
  | number (q : ℚ)
  | string (ps : List StrPart)
  | array (vs : List Value)
  | object (ms : List (List StrPart × Value))

def quoted (s : List UInt8) : List UInt8 := 34 :: (s ++ [34])

def WhiteByte (b : UInt8) : Prop := b = 32 ∨ b = 9 ∨ b = 10 ∨ b = 13

instance : DecidablePred WhiteByte := fun _ => inferInstanceAs (Decidable (_ ∨ _))

def White (s : List UInt8) : Prop := ∀ b ∈ s, WhiteByte b

mutual

inductive Denotes : List UInt8 → Value → Prop
  | null : Denotes (literal "null") .null
  | true : Denotes (literal "true") (.bool true)
  | false : Denotes (literal "false") (.bool false)
  | number {s : List UInt8} {q : ℚ} (h : Number s q) : Denotes s (.number q)
  | string {s : List UInt8} {ps : List StrPart} (h : StringBody s ps) :
      Denotes (quoted s) (.string ps)
  | emptyArray {w : List UInt8} (hw : White w) : Denotes (91 :: (w ++ [93])) (.array [])
  | array {s : List UInt8} {vs : List Value} (h : Elements s vs) :
      Denotes (91 :: (s ++ [93])) (.array vs)
  | emptyObject {w : List UInt8} (hw : White w) : Denotes (123 :: (w ++ [125])) (.object [])
  | object {s : List UInt8} {ms : List (List StrPart × Value)} (h : Members s ms) :
      Denotes (123 :: (s ++ [125])) (.object ms)

inductive Text : List UInt8 → Value → Prop
  | mk {w s w' : List UInt8} {v : Value} (hw : White w) (hs : Denotes s v) (hw' : White w') :
      Text (w ++ s ++ w') v

inductive Elements : List UInt8 → List Value → Prop
  | one {s : List UInt8} {v : Value} (h : Text s v) : Elements s [v]
  | cons {s t : List UInt8} {v : Value} {vs : List Value} (h : Text s v) (ht : Elements t vs) :
      Elements (s ++ 44 :: t) (v :: vs)

inductive Members : List UInt8 → List (List StrPart × Value) → Prop
  | one {w k w' s : List UInt8} {ps : List StrPart} {v : Value} (hw : White w)
      (hk : StringBody k ps) (hw' : White w') (h : Text s v) :
      Members (w ++ quoted k ++ w' ++ 58 :: s) [(ps, v)]
  | cons {w k w' s t : List UInt8} {ps : List StrPart} {v : Value}
      {ms : List (List StrPart × Value)} (hw : White w) (hk : StringBody k ps) (hw' : White w')
      (h : Text s v) (ht : Members t ms) :
      Members (w ++ quoted k ++ w' ++ 58 :: s ++ 44 :: t) ((ps, v) :: ms)

end

theorem white_nil : White [] := List.forall_mem_nil _

theorem Denotes.text {s : List UInt8} {v : Value} (h : Denotes s v) : Text s v := by
  have htext := Text.mk white_nil h white_nil
  rwa [List.nil_append, List.append_nil] at htext

theorem Members.of_plain {k s : List UInt8} {v : Value} (hk : ∀ b ∈ k, PlainByte b)
    (h : Text s v) : Members (quoted k ++ 58 :: s) [(k.map .byte, v)] := by
  have hone := Members.one white_nil (stringBody_of_plain hk) white_nil h
  rwa [List.nil_append, List.append_nil] at hone

theorem Members.cons_of_plain {k s t : List UInt8} {v : Value}
    {ms : List (List StrPart × Value)} (hk : ∀ b ∈ k, PlainByte b) (h : Text s v)
    (ht : Members t ms) :
    Members (quoted k ++ 58 :: s ++ 44 :: t) ((k.map .byte, v) :: ms) := by
  have hcons := Members.cons white_nil (stringBody_of_plain hk) white_nil h ht
  rwa [List.nil_append, List.append_nil] at hcons

theorem exists_of_denotes_object {s : List UInt8} {ms : List (List StrPart × Value)}
    (h : Denotes s (.object ms)) :
    ∃ t, s = 123 :: (t ++ [125]) ∧ (White t ∧ ms = [] ∨ Members t ms) := by
  cases h with
  | emptyObject hw => exact ⟨_, rfl, Or.inl ⟨hw, rfl⟩⟩
  | object hms => exact ⟨_, rfl, Or.inr hms⟩

theorem getLast?_text_object {s : List UInt8} {ms : List (List StrPart × Value)}
    (h : Text s (.object ms)) : ∃ b, s.getLast? = some b ∧ (b = 125 ∨ WhiteByte b) := by
  cases h with
  | mk hw hs hw' =>
      rename_i w t w'
      obtain ⟨t, rfl, -⟩ := exists_of_denotes_object hs
      rw [List.getLast?_append]
      cases hlast : w'.getLast? with
      | none =>
          refine ⟨125, ?_, Or.inl rfl⟩
          rw [Option.none_or, ← List.cons_append, ← List.append_assoc, List.getLast?_concat]
      | some b =>
          exact ⟨b, rfl, Or.inr (hw' b (List.mem_of_getLast? hlast))⟩

theorem White.eq_nil {w s t : List UInt8} {c : UInt8} (hw : White w) (hc : ¬WhiteByte c)
    (h : w ++ s = c :: t) : w = [] := by
  cases w with
  | nil => rfl
  | cons b w =>
      obtain ⟨rfl, -⟩ := List.cons.inj h
      exact (hc (hw b (by simp))).elim

theorem exists_key_of_members {s : List UInt8} {k : List StrPart} {v : Value}
    {ms : List (List StrPart × Value)} (h : Members s ((k, v) :: ms)) :
    ∃ w body rest, White w ∧ StringBody body k ∧ s = w ++ quoted body ++ rest := by
  cases h with
  | one hw hk _ _ => exact ⟨_, _, _, hw, hk, List.append_assoc _ _ _⟩
  | @cons w key w' s t _ _ _ hw hk _ _ _ =>
      refine ⟨w, key, w' ++ 58 :: s ++ 44 :: t, hw, hk, ?_⟩
      simp only [List.append_assoc]

/-- When the text starts with a brace and a quote, the first key comes next. -/
theorem head?_key_of_text_object {t : List UInt8} {b : UInt8} {ps : List StrPart} {v : Value}
    {ms : List (List StrPart × Value)}
    (h : Text (123 :: 34 :: t) (.object ((.byte b :: ps, v) :: ms))) :
    t.head? = some b ∨ t.head? = some 92 := by
  generalize htext : (123 : UInt8) :: 34 :: t = s at h
  cases h with
  | mk hw hs hw' =>
      obtain ⟨u, rfl, hmembers⟩ := exists_of_denotes_object hs
      rcases hmembers with ⟨-, hnil⟩ | hmembers
      · cases hnil
      · obtain ⟨w, body, rest, hwhite, hbody, rfl⟩ := exists_key_of_members hmembers
        rw [List.append_assoc] at htext
        have hnil := hw.eq_nil (by decide) htext.symm
        rw [hnil, List.nil_append, List.cons_append, List.cons.injEq] at htext
        simp only [List.append_assoc] at htext
        have hnil' := hwhite.eq_nil (by decide) htext.2.symm
        rw [hnil', List.nil_append, quoted, List.cons_append, List.cons.injEq] at htext
        have hne : body ≠ [] := by
          rintro rfl
          cases hbody
        rw [htext.2.2, List.append_assoc, List.head?_append_of_ne_nil _ hne]
        exact hbody.head

theorem number_signedDecimal (x : ℤ) : Number (signedDecimal x) x := by
  have hmagnitude : ∀ n : ℕ, Magnitude (decimal n) n := by
    intro n
    have hwhole : WholePart (decimal n) := by
      refine ⟨⟨decimal_ne_nil n, isSome_digitValue_of_mem_decimal⟩, fun hhead => ?_⟩
      rw [eq_zero_of_head?_decimal hhead]
      rfl
    have h := Magnitude.mk hwhole Fraction.none Exponent.none
    simpa [digitsValue_decimal] using h
  unfold signedDecimal
  split
  · rename_i hneg
    have hint : -(x.natAbs : ℤ) = x := by omega
    have hx : (x : ℚ) = -(x.natAbs : ℚ) := by
      calc (x : ℚ) = ((-(x.natAbs : ℤ) : ℤ) : ℚ) := by rw [hint]
        _ = -(x.natAbs : ℚ) := by rw [Int.cast_neg, Int.cast_natCast]
    rw [hx]
    exact Number.negative (hmagnitude _)
  · rename_i hnonneg
    have hint : (x.toNat : ℤ) = x := by omega
    have hx : (x : ℚ) = (x.toNat : ℚ) := by
      calc (x : ℚ) = ((x.toNat : ℤ) : ℚ) := by rw [hint]
        _ = (x.toNat : ℚ) := Int.cast_natCast _
    rw [hx]
    exact Number.positive (hmagnitude _)

end Json

end Shinigami
