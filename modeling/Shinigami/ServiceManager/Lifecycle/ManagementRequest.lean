import Mathlib.Algebra.Order.Ring.Nat
import Shinigami.Foundations.CText
import Shinigami.Foundations.TextLines

/-!
# Requests to the management interface

`parse_http_request` on a text in memory. Pointers are positions in the text, and a result
lists the accesses that were made on the way (`Access`). The value of a header is found by
skipping white space, also across the end of the line; its length is computed from the
original line without a sign, so that a value behind the line comes out too long
(`authHeader_headerLine`).

The end of the headers is looked for in two ways, one after the other, over the whole text.
So the loop can run past the first empty line; `requestParsed_iff` says when this matters.
-/

namespace Shinigami

namespace ServiceManager

namespace Management

open CString TextLines

def carriageReturn : UInt8 := 13

/-- `http_request_t`; the strings in its arrays. -/
structure HttpRequest where
  method : List UInt8
  path : List UInt8
  authHeader : List UInt8
  contentLength : Int32
deriving DecidableEq

/-- What is read of the text, as a position and a number of bytes, and how many bytes are
written from the start of an array. -/
inductive Access
  | text (position count : ℕ)
  | requestLine (count : ℕ)
  | method (count : ℕ)
  | path (count : ℕ)
  | authHeader (count : ℕ)
deriving DecidableEq

def Access.InBounds (length : ℕ) : Access → Prop
  | .text position count => position + count ≤ length + 1
  | .requestLine count => count ≤ 512
  | .method count => count ≤ 16
  | .path count => count ≤ 256
  | .authHeader count => count ≤ 256

/-! ## The request line -/

def requestLineText (text : List UInt8) (firstLineLen : ℕ) : List UInt8 :=
  let line := text.take firstLineLen
  if line.getLast? = some carriageReturn then line.dropLast else line

/-- The method, the path and the start of the headers, if the request line is accepted. -/
def parseRequestLine (text : List UInt8) : Option (List UInt8 × List UInt8 × ℕ) :=
  match findChar newline text with
  | none => none
  | some firstLineLen =>
      if firstLineLen > 511 then none
      else
        match scanWord 15 (requestLineText text firstLineLen) with
        | none => none
        | some (method, rest) =>
            match scanWord 255 rest with
            | none => none
            | some (path, _) => some (method, path, firstLineLen + 1)

def requestLineLog (text : List UInt8) : List Access :=
  match findChar newline text with
  | none => [.text 0 (text.length + 1)]
  | some firstLineLen =>
      .text 0 (firstLineLen + 1) ::
        if firstLineLen > 511 then []
        else
          [.text 0 firstLineLen, .requestLine (firstLineLen + 1)] ++
            match scanWord 15 (requestLineText text firstLineLen) with
            | none => []
            | some (method, rest) =>
                .method (method.length + 1) ::
                  match scanWord 255 rest with
                  | none => []
                  | some (path, _) => [.path (path.length + 1)]

/-! ## The headers -/

/-- `headers_end`. -/
def findHeadersEnd (text : List UInt8) (headersStart : ℕ) : Option ℕ :=
  let headers := text.drop headersStart
  ((findPattern [carriageReturn, newline, carriageReturn, newline] headers).or
    (findPattern [newline, newline] headers)).map (headersStart + ·)

structure HeaderState where
  authHeader : List UInt8
  contentLength : Int32
  log : List Access

def blanksAt (text : List UInt8) (position : ℕ) : ℕ :=
  ((text.drop position).takeWhile CString.isspace).length

/-- The accesses of a comparison with a name of `n` bytes; it ends at the terminator at the
latest. -/
def compareLog (text : List UInt8) (current n : ℕ) : List Access :=
  [.text current (min n (text.length + 1 - current))]

/-- The part of the loop for `Authorization:`. -/
def authorizationHeader (text : List UInt8) (current lineLen : ℕ) (st : HeaderState) :
    HeaderState :=
  let log := st.log ++ compareLog text current 14
  if strncasecmpEq 14 (text.drop current) (literal "Authorization:") then
    let valueStart := current + 14 + blanksAt text (current + 14)
    let log := log ++ [.text (current + 14) (blanksAt text (current + 14) + 1)]
    let valueLen := UInt64.ofNat lineLen - UInt64.ofNat (valueStart - current)
    if valueLen > 0 ∧ valueLen < 255 then
      { st with
        authHeader := (text.drop valueStart).take valueLen.toNat
        log := log ++ [.text valueStart valueLen.toNat, .authHeader (valueLen.toNat + 1)] }
    else { st with log := log }
  else { st with log := log }

/-- The part of the loop for `Content-Length:`. -/
def contentLengthHeader (text : List UInt8) (current : ℕ) (st : HeaderState) : HeaderState :=
  let log := st.log ++ compareLog text current 15
  if strncasecmpEq 15 (text.drop current) (literal "Content-Length:") then
    let valueStart := current + 15 + blanksAt text (current + 15)
    { st with
      contentLength := atoi (text.drop valueStart)
      log := log ++ [.text (current + 15) (blanksAt text (current + 15) + 1),
        .text valueStart (text.length + 1 - valueStart)] }
  else { st with log := log }

/-- A round of the loop, for the line from `current` to `lineEnd`. -/
def headerLine (text : List UInt8) (current lineEnd : ℕ) (st : HeaderState) : HeaderState :=
  let st := { st with log := st.log ++ [.text current (lineEnd - current + 1)] }
  let lineLen := lineEnd - current
  if lineLen < 2 then st
  else
    let st := { st with log := st.log ++ [.text (lineEnd - 1) 1] }
    let lineLen :=
      if (text.drop (lineEnd - 1)).head? = some carriageReturn then lineLen - 1 else lineLen
    contentLengthHeader text current (authorizationHeader text current lineLen st)

structure Parsed where
  code : ℤ
  req : HttpRequest
  log : List Access

/-- `parse_http_request`; `none` stands for a loop that does not end. -/
def parseHttpRequest (raw : List UInt8) : Option Parsed :=
  let text := cstr raw
  match parseRequestLine text with
  | none => some ⟨-1, ⟨[], [], [], 0⟩, requestLineLog text⟩
  | some (method, path, headersStart) =>
      let log := requestLineLog text ++ [.text headersStart (text.length + 1 - headersStart)]
      match findHeadersEnd text headersStart with
      | none => some ⟨-1, ⟨method, path, [], 0⟩, log⟩
      | some headersEnd =>
          (walk newline text headersEnd (headerLine text) (text.length + 1) headersStart
            ⟨[], 0, log⟩).map fun st =>
              ⟨0, ⟨method, path, st.authHeader, st.contentLength⟩, st.log⟩

/-! ## What the header is to be -/

def lineText (line : List UInt8) : List UInt8 :=
  if line.getLast? = some carriageReturn then line.dropLast else line

/-- The value of an `Authorization:` line, if it is not blank and short enough. -/
def authValue (line : List UInt8) : Option (List UInt8) :=
  if strncasecmpEq 14 line (literal "Authorization:") then
    let value := ((lineText line).drop 14).dropWhile CString.isspace
    if value ≠ [] ∧ value.length < 255 then some value else none
  else none

def lastAuth (lines : List (List UInt8)) : Option (List UInt8) :=
  (lines.filterMap authValue).getLast?

def headerBlock (text : List UInt8) : List (List UInt8) :=
  ((text.splitOn newline).drop 1).takeWhile fun line => ¬Blank carriageReturn line

/-- The parser ends, stays inside its memory, and a header that it accepts is the value of
the last `Authorization:` line of the header block. -/
def RequestParsed (raw : List UInt8) : Prop :=
  ∃ p, parseHttpRequest raw = some p ∧ (∀ a ∈ p.log, a.InBounds (cstr raw).length) ∧
    (p.code = 0 → p.req.authHeader ≠ [] →
      lastAuth (headerBlock (cstr raw)) = some p.req.authHeader)

/-- The lines that the loop reads: those that start in front of the end it has found. -/
def linesRead (text : List UInt8) : List (List UInt8) :=
  match parseRequestLine text with
  | none => []
  | some (_, _, headersStart) =>
      match findHeadersEnd text headersStart with
      | none => []
      | some headersEnd =>
          linesWithin (headersEnd - headersStart) ((text.drop headersStart).splitOn newline)

/-- An `Authorization:` line that is read from behind the first empty line says the same as
the header block. -/
def AuthBehindAgrees (text : List UInt8) : Prop :=
  ∀ value,
    lastAuth ((linesRead text).dropWhile fun line => ¬Blank carriageReturn line) = some value →
      lastAuth (headerBlock text) = some value

/-! ## Lengths -/

theorem valueLen_iff {a b : ℕ} (ha : a ≤ 4095) (hb : b ≤ 4095) :
    (UInt64.ofNat a - UInt64.ofNat b > 0 ∧ UInt64.ofNat a - UInt64.ofNat b < 255) ↔
      b < a ∧ a - b < 255 := by
  simp only [gt_iff_lt, UInt64.lt_iff_toNat_lt, UInt64.toNat_sub, UInt64.toNat_ofNat',
    UInt64.reduceToNat]
  omega

theorem valueLen_toNat {a b : ℕ} (ha : a ≤ 4095) (hlt : b < a) :
    (UInt64.ofNat a - UInt64.ofNat b).toNat = a - b := by
  simp only [UInt64.toNat_sub, UInt64.toNat_ofNat']
  omega

theorem length_scanWord_le {width : ℕ} {s word rest : List UInt8}
    (h : scanWord width s = some (word, rest)) : word.length ≤ width := by
  unfold scanWord at h
  dsimp only at h
  split at h
  · cases h
  · cases h
    exact List.length_take_le _ _

theorem add_blanksAt_le {text : List UInt8} {position : ℕ} (h : position ≤ text.length) :
    position + blanksAt text position ≤ text.length := by
  have hle := (List.takeWhile_sublist (l := text.drop position) CString.isspace).length_le
  rw [List.length_drop] at hle
  rw [blanksAt]
  omega

theorem le_length_of_strncasecmpEq {n : ℕ} {s name : List UInt8} (hname : n ≤ (cstr name).length)
    (h : strncasecmpEq n s name = true) : n ≤ s.length := by
  have hlen := congrArg List.length (beq_iff_eq.mp h)
  have hcstr : (cstr s).length ≤ s.length := (List.takeWhile_sublist _).length_le
  simp only [List.length_take, List.length_map] at hlen
  omega

theorem add_le_of_strncasecmpEq {n current : ℕ} {text name : List UInt8} (hpos : 0 < n)
    (hname : n ≤ (cstr name).length) (h : strncasecmpEq n (text.drop current) name = true) :
    current + n ≤ text.length := by
  have hle := le_length_of_strncasecmpEq hname h
  rw [List.length_drop] at hle
  omega

theorem authorizationHeader_of_name {text : List UInt8} {current lineLen : ℕ}
    (hlen : text.length ≤ 4095) (hline : lineLen ≤ 4095) (st : HeaderState)
    (hname : strncasecmpEq 14 (text.drop current) (literal "Authorization:") = true) :
    authorizationHeader text current lineLen st =
      let blanks := blanksAt text (current + 14)
      let log := st.log ++ compareLog text current 14 ++ [.text (current + 14) (blanks + 1)]
      if 14 + blanks < lineLen ∧ lineLen - (14 + blanks) < 255 then
        { st with
          authHeader := (text.drop (current + (14 + blanks))).take (lineLen - (14 + blanks))
          log := log ++ [.text (current + (14 + blanks)) (lineLen - (14 + blanks)),
            .authHeader (lineLen - (14 + blanks) + 1)] }
      else { st with log := log } := by
  have hle := add_le_of_strncasecmpEq (by decide) (by decide) hname
  have hblanks := add_blanksAt_le hle
  have hoffset : current + 14 + blanksAt text (current + 14) - current =
      14 + blanksAt text (current + 14) := by omega
  have hiff := valueLen_iff hline (b := 14 + blanksAt text (current + 14)) (by omega)
  unfold authorizationHeader
  dsimp only
  rw [if_pos hname, hoffset]
  by_cases hshort : 14 + blanksAt text (current + 14) < lineLen ∧
      lineLen - (14 + blanksAt text (current + 14)) < 255
  · rw [if_pos hshort, if_pos (hiff.mpr hshort), valueLen_toNat hline hshort.1, Nat.add_assoc]
  · rw [if_neg hshort, if_neg (fun h => hshort (hiff.mp h))]

/-! ## The accesses -/

def LogInBounds (length : ℕ) (log : List Access) : Prop := ∀ a ∈ log, a.InBounds length

theorem logInBounds_append {length : ℕ} {a b : List Access} :
    LogInBounds length (a ++ b) ↔ LogInBounds length a ∧ LogInBounds length b :=
  List.forall_mem_append

@[simp] theorem logInBounds_nil (length : ℕ) : LogInBounds length [] := List.forall_mem_nil _

theorem logInBounds_cons {length : ℕ} {a : Access} {log : List Access} :
    LogInBounds length (a :: log) ↔ a.InBounds length ∧ LogInBounds length log :=
  List.forall_mem_cons

theorem logInBounds_singleton {length : ℕ} {a : Access} :
    LogInBounds length [a] ↔ a.InBounds length :=
  List.forall_mem_singleton

theorem LogInBounds.concat {length : ℕ} {log : List Access} {a : Access}
    (h : LogInBounds length log) (ha : a.InBounds length) : LogInBounds length (log ++ [a]) :=
  logInBounds_append.mpr ⟨h, logInBounds_singleton.mpr ha⟩

theorem LogInBounds.concat_pair {length : ℕ} {log : List Access} {a b : Access}
    (h : LogInBounds length log) (ha : a.InBounds length) (hb : b.InBounds length) :
    LogInBounds length (log ++ [a, b]) :=
  logInBounds_append.mpr ⟨h, logInBounds_cons.mpr ⟨ha, logInBounds_singleton.mpr hb⟩⟩

theorem inBounds_text_iff {length position count : ℕ} :
    (Access.text position count).InBounds length ↔ position + count ≤ length + 1 :=
  Iff.rfl

theorem requestLineLog_inBounds (text : List UInt8) :
    LogInBounds text.length (requestLineLog text) := by
  unfold requestLineLog
  cases hfind : findChar newline text with
  | none => exact logInBounds_singleton.mpr (Nat.le_of_eq (Nat.zero_add _))
  | some firstLineLen =>
      obtain ⟨l, rest, htext, -, rfl⟩ := exists_line_of_findChar hfind
      have hlt : l.length < text.length := by
        rw [htext, List.length_append, List.length_cons]
        omega
      refine logInBounds_cons.mpr ⟨by simp only [Access.InBounds]; omega, ?_⟩
      split
      · exact logInBounds_nil _
      · refine logInBounds_append.mpr ⟨logInBounds_cons.mpr ⟨?_, logInBounds_singleton.mpr ?_⟩, ?_⟩
        · simp only [Access.InBounds]
          omega
        · simp only [Access.InBounds]
          omega
        · cases hmethod : scanWord 15 (requestLineText text l.length) with
          | none => exact logInBounds_nil _
          | some found =>
              obtain ⟨method, rest⟩ := found
              refine logInBounds_cons.mpr ⟨Nat.succ_le_succ (length_scanWord_le hmethod), ?_⟩
              cases hpath : scanWord 255 rest with
              | none => exact logInBounds_nil _
              | some found =>
                  exact logInBounds_singleton.mpr (Nat.succ_le_succ (length_scanWord_le hpath))

theorem LogInBounds.compareLog {text : List UInt8} {current : ℕ} {log : List Access}
    (h : LogInBounds text.length log) (hcurrent : current ≤ text.length) (n : ℕ) :
    LogInBounds text.length (log ++ Management.compareLog text current n) := by
  refine h.concat (inBounds_text_iff.mpr ?_)
  omega

theorem authorizationHeader_inBounds {text : List UInt8} {current lineLen : ℕ}
    (hlen : text.length ≤ 4095) (hline : current + lineLen ≤ text.length) {st : HeaderState}
    (h : LogInBounds text.length st.log) :
    LogInBounds text.length (authorizationHeader text current lineLen st).log := by
  have hcompared := h.compareLog (Nat.le_of_add_right_le hline) 14
  by_cases hname : strncasecmpEq 14 (text.drop current) (literal "Authorization:") = true
  · have hle := add_le_of_strncasecmpEq (by decide) (by decide) hname
    have hblanks := add_blanksAt_le hle
    have hskip : (Access.text (current + 14)
        (blanksAt text (current + 14) + 1)).InBounds text.length :=
      inBounds_text_iff.mpr (Nat.succ_le_succ hblanks)
    have hlog := hcompared.concat hskip
    rw [authorizationHeader_of_name hlen (by omega) st hname]
    dsimp only
    split
    · -- the value ends with its line, and is shorter than the array
      rename_i hshort
      refine hlog.concat_pair (inBounds_text_iff.mpr ?_) ?_
      · omega
      · exact Nat.succ_le_of_lt (Nat.lt_succ_of_lt hshort.2)
    · exact hlog
  · unfold authorizationHeader
    dsimp only
    rw [if_neg hname]
    exact hcompared

theorem contentLengthHeader_inBounds {text : List UInt8} {current : ℕ}
    (hcurrent : current ≤ text.length) {st : HeaderState} (h : LogInBounds text.length st.log) :
    LogInBounds text.length (contentLengthHeader text current st).log := by
  have hcompared := h.compareLog hcurrent 15
  unfold contentLengthHeader
  dsimp only
  split
  · rename_i hname
    have hle := add_le_of_strncasecmpEq (by decide) (by decide) hname
    have hblanks := add_blanksAt_le hle
    refine hcompared.concat_pair (inBounds_text_iff.mpr (Nat.succ_le_succ hblanks))
      (inBounds_text_iff.mpr ?_)
    omega
  · exact hcompared

theorem headerLine_inBounds {text : List UInt8} {current : ℕ} {l rest : List UInt8}
    (hlen : text.length ≤ 4095) (hline : text.drop current = l ++ newline :: rest)
    {st : HeaderState} (h : LogInBounds text.length st.log) :
    LogInBounds text.length (headerLine text current (current + l.length) st).log := by
  obtain ⟨-, hlt⟩ := drop_line hline
  have hsub : current + l.length - current = l.length := by omega
  have hread : LogInBounds text.length (st.log ++ [.text current (l.length + 1)]) :=
    h.concat (inBounds_text_iff.mpr (Nat.succ_le_succ hlt.le))
  have hlast : (Access.text (current + l.length - 1) 1).InBounds text.length :=
    inBounds_text_iff.mpr (by omega)
  unfold headerLine
  dsimp only
  rw [hsub]
  split
  · exact hread
  · refine contentLengthHeader_inBounds (by omega)
      (authorizationHeader_inBounds hlen ?_ (hread.concat hlast))
    split <;> omega

/-! ## The value of a line -/

theorem exists_space_behind (l rest : List UInt8) :
    ∃ b w, l ++ newline :: rest = lineText l ++ b :: w ∧ CString.isspace b = true := by
  unfold lineText
  split
  · rename_i hlast
    refine ⟨carriageReturn, newline :: rest, ?_, by decide⟩
    have hl := List.dropLast_append_getLast? _ hlast
    calc l ++ newline :: rest = l.dropLast ++ [carriageReturn] ++ newline :: rest := by rw [hl]
      _ = l.dropLast ++ carriageReturn :: newline :: rest := by simp
  · exact ⟨newline, rest, rfl, by decide⟩

theorem strncasecmpEq_line {n : ℕ} {l rest name : List UInt8} (hl : (0 : UInt8) ∉ l)
    (hname : newline ∉ ((cstr name).map tolower).take n)
    (hlen : n ≤ (cstr name).length) :
    strncasecmpEq n (l ++ newline :: rest) name = strncasecmpEq n l name := by
  have hcstr : cstr (l ++ newline :: rest) = l ++ newline :: cstr rest := by
    have hall : ∀ b ∈ l, (b != 0) = true := by
      intro b hb
      simpa using fun h0 : b = 0 => hl (h0 ▸ hb)
    rw [cstr, List.takeWhile_append_of_pos hall, List.takeWhile_cons_of_pos (by decide), cstr]
  unfold strncasecmpEq
  rw [hcstr, cstr_eq_self hl, List.map_append, List.map_cons]
  by_cases hshort : n ≤ l.length
  · rw [List.take_append_of_le_length (by simpa using hshort)]
  · -- a line that is too short ends within the comparison
    have hleft : ¬(l.map tolower ++ tolower newline :: (cstr rest).map tolower).take n =
        ((cstr name).map tolower).take n := by
      intro heq
      apply hname
      rw [← heq]
      have hmem : newline ∈ (tolower newline :: (cstr rest).map tolower).take
          (n - (l.map tolower).length) := by
        have hsucc : n - l.length = n - l.length - 1 + 1 := by omega
        rw [List.length_map, hsucc]
        exact List.mem_cons_self
      rw [List.take_append]
      exact List.mem_append_right _ hmem
    have hright : ¬(l.map tolower).take n = ((cstr name).map tolower).take n := by
      intro heq
      have := congrArg List.length heq
      simp only [List.length_take, List.length_map] at this
      omega
    rw [Bool.eq_iff_iff, beq_iff_eq, beq_iff_eq]
    exact iff_of_false hleft hright

theorem le_length_lineText_of_name {l : List UInt8} (hl : (0 : UInt8) ∉ l)
    (hname : strncasecmpEq 14 l (literal "Authorization:") = true) :
    14 ≤ (lineText l).length := by
  have hle := le_length_of_strncasecmpEq (by decide) hname
  unfold lineText
  split
  · rename_i hlast
    rw [List.length_dropLast]
    by_cases hlen : l.length = 14
    · have heq := beq_iff_eq.mp hname
      rw [cstr_eq_self hl, List.take_of_length_le (by simp [hlen])] at heq
      have hgetLast := congrArg List.getLast? heq
      rw [List.getLast?_map, hlast] at hgetLast
      exact absurd hgetLast (by decide)
    · omega
  · exact hle

/-- The blanks behind a name reach to the value, and across the end of the line when there
is none. -/
theorem takeWhile_isspace_line {v w : List UInt8} {b : UInt8} (hb : CString.isspace b = true) :
    if v.dropWhile CString.isspace = [] then
      v.length < ((v ++ b :: w).takeWhile CString.isspace).length
    else (v ++ b :: w).takeWhile CString.isspace = v.takeWhile CString.isspace := by
  have hsplit := List.takeWhile_append_dropWhile (p := CString.isspace) (l := v)
  split
  · rename_i hblank
    have hall : ∀ c ∈ v, CString.isspace c = true := by
      rw [hblank, List.append_nil] at hsplit
      exact List.takeWhile_eq_self_iff.mp hsplit
    rw [List.takeWhile_append_of_pos hall, List.takeWhile_cons_of_pos hb, List.length_append,
      List.length_cons]
    omega
  · rename_i hvalue
    rw [List.takeWhile_append, if_neg]
    intro hlen
    have hlength := congrArg List.length hsplit
    rw [List.length_append] at hlength
    exact hvalue (List.length_eq_zero_iff.mp (by omega))

/-- What the part for `Authorization:` finds, when the text goes on with white space behind
its line. -/
theorem authHeader_authorizationHeader {text : List UInt8} {current : ℕ} {line w : List UInt8}
    {b : UInt8} (hlen : text.length ≤ 4095) (hline : text.drop current = line ++ b :: w)
    (hb : CString.isspace b = true) (hlong : 14 ≤ line.length) (st : HeaderState)
    (hname : strncasecmpEq 14 (text.drop current) (literal "Authorization:") = true) :
    (authorizationHeader text current line.length st).authHeader =
      let value := (line.drop 14).dropWhile CString.isspace
      if value ≠ [] ∧ value.length < 255 then value else st.authHeader := by
  have hlength := congrArg List.length hline
  rw [List.length_drop, List.length_append, List.length_cons] at hlength
  have hdrop : text.drop (current + 14) = line.drop 14 ++ b :: w := by
    rw [← List.drop_drop, hline, List.drop_append_of_le_length hlong]
  have hblanks := takeWhile_isspace_line (v := line.drop 14) (w := w) hb
  rw [authorizationHeader_of_name hlen (by omega) st hname]
  dsimp only
  rw [blanksAt, hdrop]
  by_cases hvalue : (line.drop 14).dropWhile CString.isspace = []
  · -- the blanks go past the line, and the length wraps
    rw [if_pos hvalue, List.length_drop] at hblanks
    rw [if_neg (fun h => by omega), if_neg (fun h => h.1 hvalue)]
  · rw [if_neg hvalue] at hblanks
    rw [hblanks]
    have hsplit := List.takeWhile_append_dropWhile (p := CString.isspace) (l := line.drop 14)
    generalize (line.drop 14).takeWhile CString.isspace = blanks at hsplit ⊢
    generalize (line.drop 14).dropWhile CString.isspace = value at hsplit hvalue ⊢
    have hparts := congrArg List.length hsplit
    rw [List.length_append, List.length_drop] at hparts
    have hpos := List.length_pos_iff.mpr hvalue
    have hcount : line.length - (14 + blanks.length) = value.length := by omega
    have hrest : text.drop (current + (14 + blanks.length)) = value ++ b :: w := by
      rw [← Nat.add_assoc, ← List.drop_drop, hdrop, ← hsplit, List.append_assoc, List.drop_left]
    have htake : (text.drop (current + (14 + blanks.length))).take value.length = value := by
      rw [hrest, List.take_left]
    rw [hcount]
    by_cases hshort : value.length < 255
    · rw [if_pos ⟨by omega, hshort⟩, if_pos ⟨hvalue, hshort⟩]
      exact htake
    · rw [if_neg (fun h => hshort h.2), if_neg (fun h => hshort h.2)]

theorem authHeader_contentLengthHeader (text : List UInt8) (current : ℕ) (st : HeaderState) :
    (contentLengthHeader text current st).authHeader = st.authHeader := by
  unfold contentLengthHeader
  dsimp only
  split
  · rfl
  · rfl

/-- The byte that is looked at for a carriage return is the last one of the line. -/
theorem head?_drop_line {text l rest : List UInt8} {current : ℕ}
    (hline : text.drop current = l ++ newline :: rest) (hpos : 0 < l.length) :
    (text.drop (current + l.length - 1)).head? = l.getLast? := by
  have hadd : current + l.length - 1 = current + (l.length - 1) := by omega
  rw [hadd, ← List.drop_drop, hline, List.head?_drop, List.getElem?_append_left (by omega),
    List.getLast?_eq_getElem?]

theorem authHeader_headerLine {text : List UInt8} {current : ℕ} {l rest : List UInt8}
    (hlen : text.length ≤ 4095) (hzero : (0 : UInt8) ∉ text)
    (hline : text.drop current = l ++ newline :: rest) (st : HeaderState) :
    (headerLine text current (current + l.length) st).authHeader =
      (authValue l).getD st.authHeader := by
  have hl : (0 : UInt8) ∉ l := by
    intro hmem
    apply hzero
    apply List.mem_of_mem_drop (i := current)
    rw [hline]
    exact List.mem_append_left _ hmem
  have hcompare : strncasecmpEq 14 (text.drop current) (literal "Authorization:") =
      strncasecmpEq 14 l (literal "Authorization:") := by
    rw [hline]
    exact strncasecmpEq_line hl (by decide) (by decide)
  have hsub : current + l.length - current = l.length := by omega
  unfold headerLine
  dsimp only
  rw [hsub]
  by_cases hname : strncasecmpEq 14 l (literal "Authorization:") = true
  · have hlong := le_length_lineText_of_name hl hname
    have hle := le_length_of_strncasecmpEq (by decide) hname
    have hlast := head?_drop_line hline (by omega)
    have hlineLen : (if (text.drop (current + l.length - 1)).head? = some carriageReturn then
        l.length - 1 else l.length) = (lineText l).length := by
      rw [hlast, lineText]
      split
      · rw [List.length_dropLast]
      · rfl
    obtain ⟨b, w, hspace, hb⟩ := exists_space_behind l rest
    rw [if_neg (by omega), authHeader_contentLengthHeader, hlineLen,
      authHeader_authorizationHeader hlen (hline.trans hspace) hb hlong _ (hcompare.trans hname),
      authValue, if_pos hname]
    dsimp only
    split
    · rfl
    · rfl
  · rw [authValue, if_neg hname]
    split
    · rfl
    · rw [authHeader_contentLengthHeader, authorizationHeader, if_neg (by rwa [hcompare])]
      rfl

/-! ## The whole request -/

theorem foldl_getD_authValue (lines : List (List UInt8)) (header : List UInt8) :
    lines.foldl (fun header line => (authValue line).getD header) header =
      (lastAuth lines).getD header := by
  induction lines generalizing header with
  | nil => rfl
  | cons line lines ih =>
      rw [List.foldl_cons, ih, lastAuth, lastAuth]
      cases hvalue : authValue line with
      | none => rw [List.filterMap_cons_none hvalue, Option.getD_none]
      | some value =>
          rw [List.filterMap_cons_some hvalue, List.getLast?_cons, Option.getD_some]
          rfl

theorem lastAuth_append (a b : List (List UInt8)) :
    lastAuth (a ++ b) = (lastAuth b).or (lastAuth a) := by
  rw [lastAuth, List.filterMap_append, List.getLast?_append]
  rfl

theorem ne_nil_of_lastAuth {lines : List (List UInt8)} {value : List UInt8}
    (h : lastAuth lines = some value) : value ≠ [] := by
  obtain ⟨line, -, hvalue⟩ := List.mem_filterMap.mp (List.mem_of_getLast? h)
  unfold authValue at hvalue
  split at hvalue
  · dsimp only at hvalue
    split at hvalue
    · rename_i hne
      cases hvalue
      exact hne.1
    · cases hvalue
  · cases hvalue

theorem line_of_parseRequestLine {text method path : List UInt8} {headersStart : ℕ}
    (h : parseRequestLine text = some (method, path, headersStart)) :
    headersStart ≤ text.length ∧
      (text.splitOn newline).drop 1 = (text.drop headersStart).splitOn newline := by
  unfold parseRequestLine at h
  cases hfind : findChar newline text with
  | none => simp [hfind] at h
  | some firstLineLen =>
      obtain ⟨l, rest, htext, hl, rfl⟩ := exists_line_of_findChar hfind
      have hstart : headersStart = l.length + 1 := by
        simp only [hfind] at h
        split at h
        · cases h
        · split at h
          · cases h
          · split at h
            · cases h
            · cases h
              rfl
      have hfirst : text.drop 0 = l ++ newline :: rest := by rw [List.drop_zero, htext]
      obtain ⟨hdrop, hlt⟩ := drop_line hfirst
      rw [Nat.zero_add] at hdrop hlt
      rw [hstart, hdrop]
      refine ⟨hlt, ?_⟩
      rw [htext, splitOn_line hl, List.drop_one, List.tail_cons]

theorem breaksAt_of_findHeadersEnd {text : List UInt8} {headersStart headersEnd : ℕ}
    (h : findHeadersEnd text headersStart = some headersEnd) :
    BreaksAt newline carriageReturn (text.drop headersStart) (headersEnd - headersStart) := by
  obtain ⟨d, hd, rfl⟩ := Option.map_eq_some_iff.mp h
  rw [Nat.add_sub_cancel_left]
  rcases Option.or_eq_some_iff.mp hd with hcrlf | ⟨-, hlf⟩
  · exact Or.inl (prefix_drop_of_findPattern hcrlf)
  · exact Or.inr (prefix_drop_of_findPattern hlf)

theorem linesRead_of_end {text method path : List UInt8} {headersStart headersEnd : ℕ}
    (hline : parseRequestLine text = some (method, path, headersStart))
    (hend : findHeadersEnd text headersStart = some headersEnd) :
    linesRead text =
      linesWithin (headersEnd - headersStart) ((text.drop headersStart).splitOn newline) := by
  simp only [linesRead, hline, hend]

theorem exists_lines_of_findHeadersEnd {text method path : List UInt8}
    {headersStart headersEnd : ℕ}
    (hline : parseRequestLine text = some (method, path, headersStart))
    (hend : findHeadersEnd text headersStart = some headersEnd) :
    ∃ blank more, (text.drop headersStart).splitOn newline = linesRead text ++ blank :: more ∧
      Blank carriageReturn blank := by
  rw [linesRead_of_end hline hend]
  exact exists_blank_of_break (by decide) (breaksAt_of_findHeadersEnd hend)

theorem headerBlock_eq_takeWhile {text method path : List UInt8} {headersStart headersEnd : ℕ}
    (hline : parseRequestLine text = some (method, path, headersStart))
    (hend : findHeadersEnd text headersStart = some headersEnd) :
    headerBlock text =
      (linesRead text).takeWhile fun line => ¬Blank carriageReturn line := by
  obtain ⟨blank, more, hlines, hblank⟩ := exists_lines_of_findHeadersEnd hline hend
  rw [headerBlock, (line_of_parseRequestLine hline).2, hlines, List.takeWhile_append]
  split
  · rename_i hall
    rw [(List.takeWhile_prefix _).eq_of_length hall,
      List.takeWhile_cons_of_neg (by simpa using hblank), List.append_nil]
  · rfl

/-- The loop ends, stays inside, and leaves the last value of the lines that it reads. -/
theorem exists_walk_headerLine {text method path : List UInt8} {headersStart headersEnd : ℕ}
    (hlen : text.length ≤ 4095) (hzero : (0 : UInt8) ∉ text)
    (hline : parseRequestLine text = some (method, path, headersStart))
    (hend : findHeadersEnd text headersStart = some headersEnd) {log : List Access}
    (hlog : LogInBounds text.length log) :
    ∃ st, walk newline text headersEnd (headerLine text) (text.length + 1) headersStart
        ⟨[], 0, log⟩ = some st ∧
      LogInBounds text.length st.log ∧ st.authHeader = (lastAuth (linesRead text)).getD [] := by
  obtain ⟨hstart, -⟩ := line_of_parseRequestLine hline
  obtain ⟨st, hst⟩ : ∃ st, walk newline text headersEnd (headerLine text) (text.length + 1)
      headersStart ⟨[], 0, log⟩ = some st :=
    exists_walk_eq_some hstart (by omega) _
  refine ⟨st, hst, ?_, ?_⟩
  · exact walk_invariant (P := fun st => LogInBounds text.length st.log)
      (fun _ _ _ _ hcurrent _ h => headerLine_inBounds hlen hcurrent h) hlog hst
  · obtain ⟨blank, more, hlines, -⟩ := exists_lines_of_findHeadersEnd hline hend
    have hread := linesRead_of_end hline hend
    have hfold : st.authHeader = (linesWithin (headersEnd - headersStart)
        ((text.drop headersStart).splitOn newline)).foldl
          (fun header line => (authValue line).getD header) [] :=
      walk_eq_foldl
        (fun _ _ _ st hcurrent _ => authHeader_headerLine hlen hzero hcurrent st)
        (List.cons_ne_nil blank more) (hread ▸ hlines) hst
    rw [foldl_getD_authValue, ← hread] at hfold
    exact hfold

theorem parseHttpRequest_spec {raw : List UInt8} (hlen : (cstr raw).length ≤ 4095) :
    ∃ p, parseHttpRequest raw = some p ∧ LogInBounds (cstr raw).length p.log ∧
      (p.code = 0 →
        headerBlock (cstr raw) =
          ((linesRead (cstr raw)).takeWhile fun line => ¬Blank carriageReturn line) ∧
        p.req.authHeader = (lastAuth (linesRead (cstr raw))).getD []) ∧
      (p.code ≠ 0 → linesRead (cstr raw) = []) := by
  have hlog := requestLineLog_inBounds (cstr raw)
  have hrefused : (-1 : ℤ) ≠ 0 := by decide
  unfold parseHttpRequest
  dsimp only
  cases hline : parseRequestLine (cstr raw) with
  | none =>
      refine ⟨_, rfl, hlog, fun hcode => absurd hcode hrefused, fun _ => ?_⟩
      simp only [linesRead, hline]
  | some found =>
      obtain ⟨method, path, headersStart⟩ := found
      obtain ⟨hstart, -⟩ := line_of_parseRequestLine hline
      have hlog' := hlog.concat (a := .text headersStart ((cstr raw).length + 1 - headersStart))
        (inBounds_text_iff.mpr (by omega))
      dsimp only
      cases hend : findHeadersEnd (cstr raw) headersStart with
      | none =>
          refine ⟨_, rfl, hlog', fun hcode => absurd hcode hrefused, fun _ => ?_⟩
          simp only [linesRead, hline, hend]
      | some headersEnd =>
          obtain ⟨st, hst, hin, hheader⟩ :=
            exists_walk_headerLine hlen (zero_notMem_cstr raw) hline hend hlog'
          dsimp only
          rw [hst]
          exact ⟨_, rfl, hin, fun _ => ⟨headerBlock_eq_takeWhile hline hend, hheader⟩,
            fun hcode => absurd rfl hcode⟩

/-- The parser always ends and stays inside its memory, and its header is that of the header
block exactly when no line behind the block says otherwise. -/
theorem requestParsed_iff (raw : List UInt8) (hlen : (cstr raw).length ≤ 4095) :
    RequestParsed raw ↔ AuthBehindAgrees (cstr raw) := by
  obtain ⟨p, hp, hlog, haccepted, hrefused⟩ := parseHttpRequest_spec hlen
  by_cases hcode : p.code = 0
  · obtain ⟨hblock, hheader⟩ := haccepted hcode
    have hsplit := List.takeWhile_append_dropWhile
      (p := fun line => decide ¬Blank carriageReturn line) (l := linesRead (cstr raw))
    rw [← hsplit, lastAuth_append, ← hblock] at hheader
    constructor
    · rintro ⟨p', hp', -, hparsed⟩ value hvalue
      rw [hp] at hp'
      cases hp'
      rw [hvalue, Option.some_or, Option.getD_some] at hheader
      rw [hheader] at hparsed
      exact hparsed hcode (ne_nil_of_lastAuth hvalue)
    · intro hagrees
      refine ⟨p, hp, hlog, fun _ hne => ?_⟩
      cases hbehind : lastAuth ((linesRead (cstr raw)).dropWhile
          fun line => decide ¬Blank carriageReturn line) with
      | none =>
          rw [hbehind, Option.none_or] at hheader
          cases hauth : lastAuth (headerBlock (cstr raw)) with
          | none =>
              rw [hauth] at hheader
              exact absurd hheader hne
          | some value =>
              rw [hauth] at hheader
              rw [hheader, Option.getD_some]
      | some value =>
          rw [hbehind, Option.some_or, Option.getD_some] at hheader
          rw [hheader]
          exact hagrees value hbehind
  · constructor
    · intro _ value hvalue
      rw [hrefused hcode] at hvalue
      cases hvalue
    · intro _
      exact ⟨p, hp, hlog, fun h => absurd h hcode⟩

/-- A request with one header. -/
theorem requestParsed_iff_one :
    (cstr (literal "GET / HTTP/1.1\r\nAuthorization: a\r\n\r\n")).length ≤ 4095 ∧
      (RequestParsed (literal "GET / HTTP/1.1\r\nAuthorization: a\r\n\r\n") ↔
        AuthBehindAgrees (cstr (literal "GET / HTTP/1.1\r\nAuthorization: a\r\n\r\n"))) :=
  ⟨by decide, requestParsed_iff _ (by decide)⟩

/-- An empty line right behind the request line is not seen, and the body is read as headers. -/
theorem not_requestParsed_of_body :
    ¬RequestParsed (literal "GET / HTTP/1.1\r\n\r\nAuthorization: a\r\n\r\n") := by
  rintro ⟨p, hp, -, hparsed⟩
  have hauth : (parseHttpRequest (literal "GET / HTTP/1.1\r\n\r\nAuthorization: a\r\n\r\n")).map
      (fun p => (p.code, p.req.authHeader)) = some (0, literal "a") := by decide
  have hblock : lastAuth (headerBlock
      (cstr (literal "GET / HTTP/1.1\r\n\r\nAuthorization: a\r\n\r\n"))) = none := by decide
  rw [hp, Option.map_some, Option.some.injEq, Prod.mk.injEq] at hauth
  have hsome := hparsed hauth.1 (by rw [hauth.2]; decide)
  rw [hblock] at hsome
  cases hsome

end Management

end ServiceManager

end Shinigami
