import Mathlib.Algebra.Order.Ring.Nat
import Shinigami.Foundations.CText
import Shinigami.Foundations.Escaping

/-!
# Audit lines

A line of the audit log consists of eight fields with `|` between them. The service and the
details come from clients, and `escape_audit_field` replaces the characters that mean
something in the file. The escaped fields are short enough for the buffer of the line
(`length_auditLine_lt`), so a line is never cut and its fields are read back
(`smAuditLog_unforged`).
-/

namespace Shinigami

namespace ServiceManager

namespace Audit

open CString

def pipe : UInt8 := 124

def backslash : UInt8 := 92

def questionMark : UInt8 := 63

/-- `audit_action_t`. -/
inductive AuditAction
  | register
  | unregister
  | heartbeat
  | lookup
  | crash
  | restart
  | authFail
  | other
deriving DecidableEq

/-- `action_name`. -/
def actionName : AuditAction → List UInt8
  | .register => literal "REGISTER"
  | .unregister => literal "UNREGISTER"
  | .heartbeat => literal "HEARTBEAT"
  | .lookup => literal "LOOKUP"
  | .crash => literal "CRASH"
  | .restart => literal "RESTART"
  | .authFail => literal "AUTH_FAIL"
  | .other => literal "UNKNOWN"

/-- The letter behind the backslash: `\p`, `\n`, `\r` and `\\`. -/
def auditLetter (c : UInt8) : Option UInt8 :=
  if c = pipe then some 112
  else if c = 10 then some 110
  else if c = 13 then some 114
  else if c = backslash then some backslash
  else none

/-- The loop of `escape_audit_field`, with the rest of the input and the output so far. -/
def escapeAuditFrom (outlen : ℕ) : List UInt8 → List UInt8 → List UInt8
  | [], output => output
  | c :: input, output =>
      if output.length < outlen - 1 then
        match auditLetter c with
        | some letter =>
            if output.length + 1 < outlen - 1 then
              escapeAuditFrom outlen input (output ++ [backslash, letter])
            else output
        | none =>
            if c < 32 then escapeAuditFrom outlen input (output ++ [questionMark])
            else escapeAuditFrom outlen input (output ++ [c])
      else output

/-- `escape_audit_field`; the input `none` is a null pointer. -/
def escapeAuditField (input : Option (List UInt8)) (outlen : ℕ) : List UInt8 :=
  match input with
  | none => []
  | some input => if outlen < 2 then [] else escapeAuditFrom outlen (cstr input) []

/-- `sizeof(escaped_service)`. -/
def escapedServiceSize : ℕ := 128

/-- `sizeof(escaped_details)`. -/
def escapedDetailsSize : ℕ := 256

/-- `sizeof(buf)`. -/
def auditBufSize : ℕ := 512

section Line

variable (now : Int64) (action : AuditAction) (service : Option (List UInt8))
  (svcPid actorPid : Int32) (uid : UInt32) (result : Int32) (details : Option (List UInt8))

/-- What the format of `sm_audit_log` asks for. -/
def auditLine : List UInt8 :=
  signedDecimal now.toInt ++ [pipe] ++
    actionName action ++ [pipe] ++
    escapeAuditField service escapedServiceSize ++ [pipe] ++
    signedDecimal svcPid.toInt ++ [pipe] ++
    signedDecimal actorPid.toInt ++ [pipe] ++
    signedDecimal uid.toInt32.toInt ++ [pipe] ++
    signedDecimal result.toInt ++ [pipe] ++
    escapeAuditField details escapedDetailsSize ++ [newline]

/-- `sm_audit_log`: the text that is handed to `write`. The arguments say whether the log is
open, and whether it still is after the rotation. -/
def smAuditLog (auditOpen rotatedOpen : Bool) : Option (List UInt8) :=
  if !auditOpen then none
  else if !rotatedOpen then none
  else
    some (snprintf auditBufSize
      (auditLine now action service svcPid actorPid uid result details))

def auditFields : List (List UInt8) :=
  [signedDecimal now.toInt, actionName action, escapeAuditField service escapedServiceSize,
    signedDecimal svcPid.toInt, signedDecimal actorPid.toInt,
    signedDecimal uid.toInt32.toInt, signedDecimal result.toInt,
    escapeAuditField details escapedDetailsSize]

end Line

def auditUnletter (letter : UInt8) : Option UInt8 :=
  if letter = 112 then some pipe
  else if letter = 110 then some 10
  else if letter = 114 then some 13
  else if letter = backslash then some backslash
  else none

def unescapeAudit (field : List UInt8) : Option (List UInt8) :=
  Escaping.unescape backslash auditUnletter field

/-- The string without control characters other than newline and carriage return. -/
def sanitize (c : UInt8) : UInt8 := if c < 32 ∧ c ≠ 10 ∧ c ≠ 13 then questionMark else c

def sanitized (input : Option (List UInt8)) : List UInt8 := (cstr (input.getD [])).map sanitize

def escapedForm (s : List UInt8) : List UInt8 :=
  Escaping.encode (Escaping.token backslash auditLetter) s

/-- The field gives a prefix of the string back, and all of it if its escaped form fits. -/
def Recovers (room : ℕ) (input : Option (List UInt8)) (field : List UInt8) : Prop :=
  ∃ s, unescapeAudit field = some s ∧ s <+: sanitized input ∧
    ((escapedForm (sanitized input)).length ≤ room → s = sanitized input)

theorem lawful_auditLetter : Escaping.Lawful backslash auditLetter auditUnletter where
  unpair_of_pair c d h := by
    unfold auditLetter at h
    split_ifs at h with hpipe hnewline hreturn hbackslash
    · cases h
      exact congrArg some hpipe.symm
    · cases h
      exact congrArg some hnewline.symm
    · cases h
      exact congrArg some hreturn.symm
    · cases h
      exact congrArg some hbackslash.symm
  pair_esc := by decide

theorem auditLetter_questionMark : auditLetter questionMark = none := by decide

theorem sanitize_of_auditLetter {c d : UInt8} (h : auditLetter c = some d) : sanitize c = c := by
  unfold auditLetter at h
  split_ifs at h with hpipe hnewline hreturn hbackslash
  · rw [hpipe]
    decide
  · rw [hnewline]
    decide
  · rw [hreturn]
    decide
  · rw [hbackslash]
    decide

/-- A character without a letter is one byte, the replacement of a control character. -/
theorem token_sanitize_of_none {c : UInt8} (h : auditLetter c = none) :
    Escaping.token backslash auditLetter (sanitize c) = [if c < 32 then questionMark else c] := by
  have hnewline : c ≠ 10 := by
    rintro rfl
    exact absurd h (by decide)
  have hreturn : c ≠ 13 := by
    rintro rfl
    exact absurd h (by decide)
  by_cases hcontrol : c < 32
  · rw [sanitize, if_pos ⟨hcontrol, hnewline, hreturn⟩, if_pos hcontrol, Escaping.token,
      auditLetter_questionMark]
  · rw [sanitize, if_neg fun hall => hcontrol hall.1, if_neg hcontrol, Escaping.token, h]

/-- One round of the loop: the token of the character is written if it fits, and ends the
loop otherwise. -/
theorem escapeAuditFrom_cons (outlen : ℕ) (c : UInt8) (input output : List UInt8) :
    escapeAuditFrom outlen (c :: input) output =
      if (Escaping.token backslash auditLetter (sanitize c)).length ≤
          outlen - 1 - output.length then
        escapeAuditFrom outlen input
          (output ++ Escaping.token backslash auditLetter (sanitize c))
      else output := by
  rw [escapeAuditFrom]
  cases hletter : auditLetter c with
  | some letter =>
      have htoken : Escaping.token backslash auditLetter (sanitize c) = [backslash, letter] := by
        rw [sanitize_of_auditLetter hletter, Escaping.token, hletter]
      have hlen : [backslash, letter].length = 2 := rfl
      rw [htoken, hlen]
      by_cases hfits : output.length + 1 < outlen - 1
      · have hlt : output.length < outlen - 1 := by omega
        have htwo : 2 ≤ outlen - 1 - output.length := by omega
        simp only [hlt, hfits, htwo, if_true]
      · have htwo : ¬2 ≤ outlen - 1 - output.length := by omega
        simp only [hfits, htwo, if_false, ite_self]
  | none =>
      have hlen : [if c < 32 then questionMark else c].length = 1 := rfl
      rw [token_sanitize_of_none hletter, hlen]
      by_cases hfits : output.length < outlen - 1
      · have hone : 1 ≤ outlen - 1 - output.length := by omega
        by_cases hcontrol : c < 32
        · simp only [hfits, hone, hcontrol, if_true]
        · simp only [hfits, hone, hcontrol, if_true, if_false]
      · have hone : ¬1 ≤ outlen - 1 - output.length := by omega
        simp only [hfits, hone, if_false]

/-- The loop writes the tokens of the sanitised characters up to the first that does not
fit. -/
theorem escapeAuditFrom_eq (outlen : ℕ) (input output : List UInt8) :
    escapeAuditFrom outlen input output =
      output ++ escapedForm
        (Escaping.fitWhile (Escaping.token backslash auditLetter)
          (outlen - 1 - output.length) (input.map sanitize)) := by
  induction input generalizing output with
  | nil => exact (List.append_nil output).symm
  | cons c input ih =>
      rw [escapeAuditFrom_cons, List.map_cons, Escaping.fitWhile]
      split
      · rw [ih, escapedForm, escapedForm, Escaping.encode_cons, ← List.append_assoc,
          List.length_append, Nat.sub_add_eq]
      · exact (List.append_nil output).symm

theorem escapeAuditField_eq (input : Option (List UInt8)) {outlen : ℕ} (h : 2 ≤ outlen) :
    escapeAuditField input outlen =
      escapedForm (Escaping.fitWhile (Escaping.token backslash auditLetter) (outlen - 1)
        (sanitized input)) := by
  cases input with
  | none => rfl
  | some input =>
      rw [escapeAuditField]
      simp only [not_lt.mpr h, if_false]
      rw [escapeAuditFrom_eq, List.nil_append]
      rfl

theorem length_escapeAuditField_le (input : Option (List UInt8)) {outlen : ℕ}
    (h : 2 ≤ outlen) : (escapeAuditField input outlen).length ≤ outlen - 1 := by
  rw [escapeAuditField_eq input h]
  exact Escaping.length_encode_fitWhile_le _ _ _

theorem recovers_escapeAuditField (input : Option (List UInt8)) {outlen : ℕ}
    (h : 2 ≤ outlen) : Recovers (outlen - 1) input (escapeAuditField input outlen) := by
  rw [escapeAuditField_eq input h]
  exact ⟨_, Escaping.unescape_encode lawful_auditLetter _, Escaping.fitWhile_prefix _ _ _,
    fun hfits => Escaping.fitWhile_eq_self _ hfits⟩

def FieldByte (b : UInt8) : Prop := b ≠ pipe ∧ b ≠ newline

instance : DecidablePred FieldByte := fun _ => inferInstanceAs (Decidable (_ ∧ _))

theorem fieldByte_of_mem_signedDecimal {x : ℤ} {b : UInt8} (h : b ∈ signedDecimal x) :
    FieldByte b := by
  rcases sign_or_digit_of_mem_signedDecimal h with rfl | ⟨hlow, hhigh⟩
  · decide
  · constructor
    · rintro rfl
      exact absurd hhigh (by decide)
    · rintro rfl
      exact absurd hlow (by decide)

theorem fieldByte_of_mem_actionName {action : AuditAction} {b : UInt8}
    (h : b ∈ actionName action) : FieldByte b := by
  have hall : (actionName action).all (fun b => decide (FieldByte b)) = true := by
    cases action <;> decide
  exact of_decide_eq_true (List.all_eq_true.mp hall b h)

theorem fieldByte_of_auditLetter {c letter : UInt8} (h : auditLetter c = some letter) :
    FieldByte letter := by
  unfold auditLetter at h
  split_ifs at h <;> cases h <;> decide

theorem fieldByte_of_auditLetter_eq_none {c : UInt8} (h : auditLetter c = none) :
    FieldByte c := by
  constructor
  · rintro rfl
    exact absurd h (by decide)
  · rintro rfl
    exact absurd h (by decide)

theorem fieldByte_of_mem_escapeAuditField {input : Option (List UInt8)} {outlen : ℕ}
    (houtlen : 2 ≤ outlen) {b : UInt8} (h : b ∈ escapeAuditField input outlen) :
    FieldByte b := by
  rw [escapeAuditField_eq input houtlen] at h
  exact Escaping.forall_mem_encode (by decide) (fun _ _ _ => fieldByte_of_auditLetter)
    (fun _ _ => fieldByte_of_auditLetter_eq_none) b h

theorem count_intercalate_pipe {fields : List (List UInt8)}
    (h : ∀ field ∈ fields, pipe ∉ field) :
    ([pipe].intercalate fields).count pipe = fields.length - 1 := by
  induction fields with
  | nil => rfl
  | cons field fields ih =>
      have hfield : field.count pipe = 0 := List.count_eq_zero.mpr (h field (by simp))
      have hfields := ih fun field' hmem => h field' (by simp [hmem])
      cases fields with
      | nil => simpa using hfield
      | cons field' fields =>
          rw [List.intercalate_cons_cons, List.count_append, List.count_append, hfield, hfields]
          simp only [List.count_singleton_self, List.length_cons]
          omega

section Line

variable (now : Int64) (action : AuditAction) (service : Option (List UInt8))
  (svcPid actorPid : Int32) (uid : UInt32) (result : Int32) (details : Option (List UInt8))

theorem auditLine_eq :
    auditLine now action service svcPid actorPid uid result details =
      [pipe].intercalate
          (auditFields now action service svcPid actorPid uid result details) ++
        [newline] := by
  simp only [auditLine, auditFields, List.intercalate_cons_cons, List.intercalate_singleton,
    List.append_assoc]

theorem fieldByte_of_mem_auditFields {field : List UInt8}
    (hfield : field ∈ auditFields now action service svcPid actorPid uid result details)
    {b : UInt8} (hb : b ∈ field) : FieldByte b := by
  simp only [auditFields, List.mem_cons, List.not_mem_nil, or_false] at hfield
  rcases hfield with rfl | rfl | rfl | rfl | rfl | rfl | rfl | rfl
  · exact fieldByte_of_mem_signedDecimal hb
  · exact fieldByte_of_mem_actionName hb
  · exact fieldByte_of_mem_escapeAuditField (by decide) hb
  · exact fieldByte_of_mem_signedDecimal hb
  · exact fieldByte_of_mem_signedDecimal hb
  · exact fieldByte_of_mem_signedDecimal hb
  · exact fieldByte_of_mem_signedDecimal hb
  · exact fieldByte_of_mem_escapeAuditField (by decide) hb

theorem newline_notMem_intercalate {fields : List (List UInt8)}
    (h : ∀ field ∈ fields, newline ∉ field) : newline ∉ [pipe].intercalate fields := by
  induction fields with
  | nil => simp
  | cons field fields ih =>
      have hfields := ih fun field' hmem => h field' (by simp [hmem])
      cases fields with
      | nil => simpa using h field (by simp)
      | cons field' fields =>
          rw [List.intercalate_cons_cons, List.mem_append, List.mem_append, not_or, not_or]
          exact ⟨⟨h field (by simp), by decide⟩, hfields⟩

theorem length_signedDecimal_int32_le (x : Int32) : (signedDecimal x.toInt).length ≤ 11 := by
  have hlow := x.le_toInt
  have hhigh := x.toInt_lt
  exact length_signedDecimal_le (by decide) (by omega)

theorem length_signedDecimal_int64_le (x : Int64) : (signedDecimal x.toInt).length ≤ 20 := by
  have hlow := x.le_toInt
  have hhigh := x.toInt_lt
  exact length_signedDecimal_le (by decide) (by omega)

theorem length_actionName_le (action : AuditAction) : (actionName action).length ≤ 10 := by
  cases action <;> decide

theorem length_auditLine_lt :
    (auditLine now action service svcPid actorPid uid result details).length <
      auditBufSize := by
  have hnow := length_signedDecimal_int64_le now
  have haction := length_actionName_le action
  have hservice := length_escapeAuditField_le service (by decide : 2 ≤ escapedServiceSize)
  have hsvcPid := length_signedDecimal_int32_le svcPid
  have hactorPid := length_signedDecimal_int32_le actorPid
  have huid := length_signedDecimal_int32_le uid.toInt32
  have hresult := length_signedDecimal_int32_le result
  have hdetails := length_escapeAuditField_le details (by decide : 2 ≤ escapedDetailsSize)
  simp only [auditLine, List.length_append, List.length_cons, List.length_nil]
  simp only [escapedServiceSize, escapedDetailsSize, auditBufSize] at hservice hdetails ⊢
  omega

/-- What `sm_audit_log` writes is one line with seven separators, and the fields between them
tell the service and the details: all of them if the escaped form fits, and a prefix
otherwise. -/
theorem smAuditLog_unforged (auditOpen rotatedOpen : Bool) {text : List UInt8}
    (h : smAuditLog now action service svcPid actorPid uid result details auditOpen
      rotatedOpen = some text) :
    ∃ body serviceField detailsField, text = body ++ [newline] ∧ newline ∉ body ∧
      text.count pipe = 7 ∧
      body.splitOn pipe =
        [signedDecimal now.toInt, actionName action, serviceField,
          signedDecimal svcPid.toInt, signedDecimal actorPid.toInt,
          signedDecimal uid.toInt32.toInt, signedDecimal result.toInt, detailsField] ∧
      Recovers 127 service serviceField ∧ Recovers 255 details detailsField := by
  have htext : text = auditLine now action service svcPid actorPid uid result details := by
    unfold smAuditLog at h
    split_ifs at h
    rw [← Option.some.inj h]
    exact snprintf_of_lt (length_auditLine_lt _ _ _ _ _ _ _ _)
  have hbytes : ∀ field ∈ auditFields now action service svcPid actorPid uid result details,
      pipe ∉ field ∧ newline ∉ field := fun field hfield =>
    ⟨fun hmem => (fieldByte_of_mem_auditFields _ _ _ _ _ _ _ _ hfield hmem).1 rfl,
      fun hmem => (fieldByte_of_mem_auditFields _ _ _ _ _ _ _ _ hfield hmem).2 rfl⟩
  have hpipe := fun field hfield => (hbytes field hfield).1
  refine ⟨[pipe].intercalate (auditFields now action service svcPid actorPid uid result details),
    escapeAuditField service escapedServiceSize, escapeAuditField details escapedDetailsSize,
    htext.trans (auditLine_eq _ _ _ _ _ _ _ _),
    newline_notMem_intercalate fun field hfield => (hbytes field hfield).2, ?_, ?_,
    recovers_escapeAuditField service (by decide), recovers_escapeAuditField details (by decide)⟩
  · rw [htext, auditLine_eq, List.count_append, count_intercalate_pipe hpipe]
    rfl
  · exact List.splitOn_intercalate pipe hpipe (by simp [auditFields])

end Line

/-- A service name with a separator and a newline in it. -/
theorem smAuditLog_unforged_injection :
    let text := auditLine 0 .lookup (some (literal "a|b\nc")) 1 2 3 0 none
    ∃ body serviceField detailsField, text = body ++ [newline] ∧ newline ∉ body ∧
      text.count pipe = 7 ∧
      body.splitOn pipe =
        [signedDecimal (0 : Int64).toInt, actionName .lookup, serviceField,
          signedDecimal (1 : Int32).toInt, signedDecimal (2 : Int32).toInt,
          signedDecimal (3 : UInt32).toInt32.toInt, signedDecimal (0 : Int32).toInt,
          detailsField] ∧
      Recovers 127 (some (literal "a|b\nc")) serviceField ∧ Recovers 255 none detailsField :=
  smAuditLog_unforged 0 .lookup (some (literal "a|b\nc")) 1 2 3 0 none true true
    (congrArg some (snprintf_of_lt (length_auditLine_lt _ _ _ _ _ _ _ _)))

end Audit

end ServiceManager

end Shinigami
