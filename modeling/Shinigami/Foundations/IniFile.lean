import Shinigami.Foundations.CText
import Shinigami.Foundations.TextLines

/-!
# Files of sections and keys

The meaning of a file with lines `[section]` and `key = value`, blank lines, comments
behind `#` or `;` at the start of a line and behind `;` in a value: a list of assignments,
each in the section that was opened last, of which the last one for a name counts
(`lastValue`). Names are compared without regard to case. Lines with no other character
than those of the file read by `fgets` into a buffer that they fit are the lines of the file
(`assignments_fgetsLines`).
-/

namespace Shinigami

namespace Ini

open CString

/-- What a line says. -/
inductive Line where
  | skipped
  | heading (name : List UInt8)
  | assignment (key value : List UInt8)
deriving DecidableEq

def trim (s : List UInt8) : List UInt8 := (s.dropWhile isspace).rdropWhile isspace

/-- A text up to its first `;`. -/
def uncommented (s : List UInt8) : List UInt8 := s.takeWhile (· != 59)

/-- A line; one without `]` or `=` where it needs it is skipped. -/
def readLine (line : List UInt8) : Line :=
  let s := trim line
  if s = [] ∨ s.head? = some 35 ∨ s.head? = some 59 then .skipped
  else if s.head? = some 91 then
    if 93 ∈ s then .heading (trim ((s.takeWhile (· != 93)).drop 1)) else .skipped
  else if 61 ∈ s then
    .assignment (trim (s.takeWhile (· != 61)))
      (trim (uncommented ((s.dropWhile (· != 61)).drop 1)))
  else .skipped

structure Assignment where
  sectionName : List UInt8
  key : List UInt8
  value : List UInt8
deriving DecidableEq

def assignments : List UInt8 → List (List UInt8) → List Assignment
  | _, [] => []
  | sectionName, line :: lines =>
      match readLine line with
      | .skipped => assignments sectionName lines
      | .heading name => assignments name lines
      | .assignment key value => ⟨sectionName, key, value⟩ :: assignments sectionName lines

def fileAssignments (file : List UInt8) : List Assignment :=
  assignments [] (file.splitOn newline)

/-- A section and a key, without regard to case. -/
def folded (sectionName key : List UInt8) : List UInt8 × List UInt8 :=
  (sectionName.map tolower, key.map tolower)

/-- The section and the key of an assignment. -/
def Assignment.name (a : Assignment) : List UInt8 × List UInt8 := folded a.sectionName a.key

def lastValue (as : List Assignment) (name : List UInt8 × List UInt8) : Option (List UInt8) :=
  (as.filter (·.name = name)).getLast?.map Assignment.value

theorem trim_append_of_isspace {s spaces : List UInt8} (h : ∀ b ∈ spaces, isspace b = true) :
    trim (s ++ spaces) = trim s := by
  have hrdrop : ∀ t : List UInt8,
      (t ++ spaces).rdropWhile isspace = t.rdropWhile isspace := by
    intro t
    have hreverse : ∀ b ∈ spaces.reverse, isspace b = true := fun b hb =>
      h b (List.mem_reverse.mp hb)
    rw [List.rdropWhile, List.reverse_append, List.dropWhile_append_of_pos hreverse,
      ← List.rdropWhile]
  unfold trim
  rw [List.dropWhile_append]
  split_ifs with hempty
  · rw [List.isEmpty_iff.mp hempty, List.dropWhile_eq_nil_iff.mpr h]
  · exact hrdrop _

theorem trim_append_left_of_isspace {s spaces : List UInt8}
    (h : ∀ b ∈ spaces, isspace b = true) : trim (spaces ++ s) = trim s := by
  rw [trim, List.dropWhile_append_of_pos h, ← trim]

theorem exists_eq_append_trim (s : List UInt8) :
    ∃ before after, s = before ++ trim s ++ after ∧ (∀ b ∈ before, isspace b = true) ∧
      ∀ b ∈ after, isspace b = true := by
  refine ⟨s.takeWhile isspace, (s.dropWhile isspace).rtakeWhile isspace, ?_, ?_, ?_⟩
  · rw [trim, List.append_assoc, List.rdropWhile_append_rtakeWhile,
      List.takeWhile_append_dropWhile]
  · exact fun b hb => List.mem_takeWhile_imp hb
  · exact fun b hb => List.mem_rtakeWhile_imp hb

theorem ne_semicolon_of_isspace {b : UInt8} (h : isspace b = true) : (b != 59) = true := by
  rw [bne_iff_ne]
  rintro rfl
  exact absurd h (by decide)

/-- It makes no difference whether a value is trimmed before its comment is cut off. -/
theorem trim_uncommented_trim (s : List UInt8) :
    trim (uncommented (trim s)) = trim (uncommented s) := by
  obtain ⟨before, after, hs, hbefore, hafter⟩ := exists_eq_append_trim s
  have hlead : uncommented s = before ++ uncommented (trim s ++ after) := by
    conv_lhs => rw [hs]
    rw [uncommented, List.append_assoc,
      List.takeWhile_append_of_pos fun b hb => ne_semicolon_of_isspace (hbefore b hb),
      ← uncommented]
  have hspaces : after.takeWhile (· != 59) = after :=
    List.takeWhile_eq_self_iff.mpr fun b hb => ne_semicolon_of_isspace (hafter b hb)
  rw [hlead, trim_append_left_of_isspace hbefore, uncommented, uncommented, List.takeWhile_append]
  split_ifs with hall
  · have hself : (trim s).takeWhile (· != 59) = trim s :=
      (List.takeWhile_prefix _).eq_of_length hall
    rw [hspaces, hself, trim_append_of_isspace hafter]
  · rfl

theorem readLine_append_newline (line : List UInt8) :
    readLine (line ++ [newline]) = readLine line := by
  have hspace : ∀ b ∈ [newline], isspace b = true := fun b hb => by
    rw [List.mem_singleton.mp hb]
    rfl
  unfold readLine
  rw [trim_append_of_isspace hspace]

theorem assignments_cons_of_skipped {sectionName line : List UInt8} {lines : List (List UInt8)}
    (h : readLine line = .skipped) :
    assignments sectionName (line :: lines) = assignments sectionName lines := by
  rw [assignments, h]

theorem assignments_cons_congr {sectionName line line' : List UInt8}
    {lines lines' : List (List UInt8)} (h : readLine line = readLine line')
    (hlines : ∀ sectionName, assignments sectionName lines = assignments sectionName lines') :
    assignments sectionName (line :: lines) = assignments sectionName (line' :: lines') := by
  rw [assignments, assignments, h]
  cases readLine line' with
  | skipped => exact hlines _
  | heading name => exact hlines _
  | assignment key value =>
      dsimp only
      rw [hlines]

theorem fgetsFrom_last {width room : ℕ} {piece s : List UInt8} (hs : newline ∉ s)
    (hroom : s.length ≤ room) (hne : piece ++ s ≠ []) :
    fgetsFrom width room piece s = [piece ++ s] := by
  induction s generalizing room piece with
  | nil =>
      rw [List.append_nil] at hne ⊢
      cases piece with
      | nil => exact absurd rfl hne
      | cons b piece => rfl
  | cons b s ih =>
      rw [List.mem_cons, not_or] at hs
      rw [List.length_cons] at hroom
      rw [fgetsFrom]
      split_ifs with hend
      · have hb : (b == newline) = false := beq_eq_false_iff_ne.mpr (Ne.symm hs.1)
        rw [hb, Bool.false_or, decide_eq_true_iff] at hend
        have hnil : s = [] := List.length_eq_zero_iff.mp (by omega)
        rw [hnil]
        rfl
      · rw [Bool.or_eq_true, decide_eq_true_iff, not_or] at hend
        rw [ih hs.2 (by omega) (by simp), List.append_assoc, List.singleton_append]

/-- A line that fits with its newline is a piece; one that just fits without it is a piece
as well, and its newline the next one. -/
theorem fgetsFrom_line (width room : ℕ) (piece : List UInt8) {l : List UInt8}
    (rest : List UInt8) (hl : newline ∉ l) (hroom : l.length ≤ room) (hpos : 0 < room) :
    fgetsFrom width room piece (l ++ newline :: rest) =
        (piece ++ l ++ [newline]) :: fgetsFrom width width [] rest ∨
      l ≠ [] ∧ fgetsFrom width room piece (l ++ newline :: rest) =
        (piece ++ l) :: [newline] :: fgetsFrom width width [] rest := by
  induction l generalizing room piece with
  | nil =>
      left
      rw [List.nil_append, fgetsFrom, if_pos (by simp), List.append_nil]
  | cons b l ih =>
      rw [List.mem_cons, not_or] at hl
      rw [List.length_cons] at hroom
      have hb : (b == newline) = false := beq_eq_false_iff_ne.mpr (Ne.symm hl.1)
      rw [List.cons_append, fgetsFrom, hb, Bool.false_or]
      split_ifs with hend
      · rw [decide_eq_true_iff] at hend
        have hnil : l = [] := List.length_eq_zero_iff.mp (by omega)
        subst hnil
        right
        refine ⟨List.cons_ne_nil _ _, ?_⟩
        rw [List.nil_append, fgetsFrom, if_pos (by simp), List.nil_append]
      · rw [decide_eq_true_iff] at hend
        rcases ih (room - 1) (piece ++ [b]) hl.2 (by omega) (by omega) with
          hwhole | ⟨-, hcut⟩
        · left
          rw [hwhole]
          simp
        · right
          refine ⟨List.cons_ne_nil _ _, ?_⟩
          rw [hcut]
          simp

theorem assignments_fgetsLines {size : ℕ} (hsize : 1 < size) (sectionName file : List UInt8)
    (hlines : ∀ line ∈ file.splitOn newline, line.length < size) :
    assignments sectionName (fgetsLines size file) =
      assignments sectionName (file.splitOn newline) := by
  have hskipped : readLine [newline] = .skipped := by decide
  induction file using TextLines.lines_induction newline generalizing sectionName with
  | last s hs =>
      rw [List.splitOn_eq_singleton hs] at hlines ⊢
      have hlen := hlines s (by simp)
      rw [fgetsLines]
      by_cases hne : s = []
      · subst hne
        rfl
      · rw [fgetsFrom_last hs (by omega) (by simpa using hne), List.nil_append]
  | line l rest hl ih =>
      rw [TextLines.splitOn_line hl] at hlines ⊢
      have hlen := hlines l (by simp)
      have hrest : ∀ sectionName, assignments sectionName (fgetsLines size rest) =
          assignments sectionName (rest.splitOn newline) := fun sectionName =>
        ih sectionName fun line hline => hlines line (by simp [hline])
      rw [fgetsLines]
      rcases fgetsFrom_line (size - 1) (size - 1) [] rest hl (by omega) (by omega) with
        hwhole | ⟨-, hcut⟩
      · rw [hwhole, List.nil_append]
        exact assignments_cons_congr (readLine_append_newline l) hrest
      · rw [hcut, List.nil_append]
        refine assignments_cons_congr rfl fun sectionName => ?_
        rw [assignments_cons_of_skipped hskipped]
        exact hrest sectionName

theorem mem_of_mem_fgetsFrom {width room : ℕ} {piece s line : List UInt8} {b : UInt8}
    (hline : line ∈ fgetsFrom width room piece s) (hb : b ∈ line) : b ∈ piece ∨ b ∈ s := by
  induction s generalizing room piece with
  | nil =>
      cases piece with
      | nil => cases hline
      | cons c piece =>
          rw [fgetsFrom, List.mem_singleton] at hline
          · exact Or.inl (hline ▸ hb)
          · exact List.cons_ne_nil _ _
  | cons c s ih =>
      rw [fgetsFrom] at hline
      split_ifs at hline
      · rcases List.mem_cons.mp hline with rfl | hline
        · rcases List.mem_append.mp hb with hb | hb
          · exact Or.inl hb
          · exact Or.inr (by simp [List.mem_singleton.mp hb])
        · rcases ih hline with hb | hb
          · cases hb
          · exact Or.inr (List.mem_cons_of_mem _ hb)
      · rcases ih hline with hb | hb
        · rcases List.mem_append.mp hb with hb | hb
          · exact Or.inl hb
          · exact Or.inr (by simp [List.mem_singleton.mp hb])
        · exact Or.inr (List.mem_cons_of_mem _ hb)

end Ini

end Shinigami
