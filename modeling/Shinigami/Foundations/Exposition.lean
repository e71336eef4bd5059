import Shinigami.Foundations.CText
import Shinigami.Foundations.TextLines

/-!
# The text format for metrics

A text in which each line is empty, a comment, the help or the type of a metric, or a
sample: the name of a metric, labels with quoted values, and a number. A reader for it,
without optional white space and timestamps (`readText`), reads what is written line by line
(`readText_flatMap`), and a sample in which nothing needs an escape as itself
(`readRow_row`). In an exposition, a metric has one type, and its samples stand behind that
type, before the next one (`Grouped`).
-/

namespace Shinigami

namespace Exposition

open CString

def isDigit (b : UInt8) : Bool := 48 ≤ b && b ≤ 57

def isLetter (b : UInt8) : Bool := (65 ≤ b && b ≤ 90) || (97 ≤ b && b ≤ 122)

def isNameByte (b : UInt8) : Bool := isLetter b || isDigit b || b == 95 || b == 58

def isMetricName (s : List UInt8) : Bool :=
  match s with
  | [] => false
  | b :: _ => !isDigit b && s.all isNameByte

def isLabelName (s : List UInt8) : Bool := isMetricName s && !s.contains 58

def isDecimal (s : List UInt8) : Bool :=
  let whole := s.takeWhile isDigit
  let rest := s.dropWhile isDigit
  whole ≠ [] &&
    (rest = [] || (rest.head? = some 46 && rest.drop 1 ≠ [] && (rest.drop 1).all isDigit))

def isNumber (s : List UInt8) : Bool :=
  let size := if s.head? = some 45 then s.drop 1 else s
  s = literal "nan" || size = literal "inf" || isDecimal size

structure Sample where
  name : List UInt8
  labels : List (List UInt8 × List UInt8)
  value : List UInt8
deriving DecidableEq

inductive Item where
  | blank
  | comment
  | help (name : List UInt8)
  | type (name kind : List UInt8)
  | sample (s : Sample)
deriving DecidableEq

def unescaped (b : UInt8) : Option UInt8 :=
  if b = 92 ∨ b = 34 then some b else if b = 110 then some newline else none

/-- The value of a label behind its opening quote, and what stands behind the closing one. -/
def readQuoted : List UInt8 → Option (List UInt8 × List UInt8)
  | [] => none
  | 34 :: s => some ([], s)
  | [92] => none
  | 92 :: b :: s => (unescaped b).bind fun c => (readQuoted s).map fun r => (c :: r.1, r.2)
  | b :: s => if b = newline then none else (readQuoted s).map fun r => (b :: r.1, r.2)

def readLabels : ℕ → List UInt8 → Option (List (List UInt8 × List UInt8) × List UInt8)
  | 0, _ => none
  | fuel + 1, s =>
      let name := s.takeWhile isNameByte
      if isLabelName name then
        match s.drop name.length with
        | 61 :: 34 :: s =>
            (readQuoted s).bind fun value =>
              match value.2 with
              | 44 :: s => (readLabels fuel s).map fun r => ((name, value.1) :: r.1, r.2)
              | 125 :: s => some ([(name, value.1)], s)
              | _ => none
        | _ => none
      else none

def readValue (name : List UInt8) (labels : List (List UInt8 × List UInt8)) (s : List UInt8) :
    Option Item :=
  match s with
  | 32 :: value => if isNumber value then some (.sample ⟨name, labels, value⟩) else none
  | _ => none

def readSample (s : List UInt8) : Option Item :=
  let name := s.takeWhile isNameByte
  if isMetricName name then
    match s.drop name.length with
    | 123 :: s => (readLabels (s.length + 1) s).bind fun r => readValue name r.1 r.2
    | s => readValue name [] s
  else none

def kinds : List (List UInt8) :=
  [literal "counter", literal "gauge", literal "histogram", literal "summary", literal "untyped"]

/-- A line that starts with `#`. -/
def readComment (s : List UInt8) : Option Item :=
  if literal "# HELP " <+: s then
    let name := (s.drop 7).takeWhile (· ≠ 32)
    if isMetricName name then some (.help name) else none
  else if literal "# TYPE " <+: s then
    let name := (s.drop 7).takeWhile (· ≠ 32)
    let kind := (s.drop 7).drop (name.length + 1)
    if isMetricName name ∧ kind ∈ kinds then some (.type name kind) else none
  else some .comment

def readRow (s : List UInt8) : Option Item :=
  if s = [] then some .blank
  else if s.head? = some 35 then readComment s
  else readSample s

def readRows : List (List UInt8) → Option (List Item)
  | [] => some []
  | row :: rows => (readRow row).bind fun item => (readRows rows).map (item :: ·)

def readText (text : List UInt8) : Option (List Item) :=
  let rows := text.splitOn newline
  if rows.getLast? = some [] then readRows rows.dropLast else none

def Item.toSample? : Item → Option Sample
  | .sample s => some s
  | _ => none

def samples (items : List Item) : List Sample := items.filterMap Item.toSample?

def Item.typed? : Item → Option (List UInt8)
  | .type name _ => some name
  | _ => none

/-- A sample of the metric: under its name, or one of the series of a histogram. -/
def Belongs (family : Option (List UInt8 × List UInt8)) (name : List UInt8) : Prop :=
  ∃ metric kind, family = some (metric, kind) ∧
    (name = metric ∨ (kind = literal "histogram" ∧
      name ∈ [metric ++ literal "_bucket", metric ++ literal "_sum", metric ++ literal "_count"]))

inductive InGroups : Option (List UInt8 × List UInt8) → List Item → Prop
  | nil (family : Option (List UInt8 × List UInt8)) : InGroups family []
  | type {family : Option (List UInt8 × List UInt8)} {name kind : List UInt8}
      {items : List Item} (h : InGroups (some (name, kind)) items) :
      InGroups family (.type name kind :: items)
  | sample {family : Option (List UInt8 × List UInt8)} {s : Sample} {items : List Item}
      (hname : Belongs family s.name) (h : InGroups family items) :
      InGroups family (.sample s :: items)
  | other {family : Option (List UInt8 × List UInt8)} {item : Item} {items : List Item}
      (htyped : item.typed? = none) (hsample : item.toSample? = none)
      (h : InGroups family items) : InGroups family (item :: items)

structure Grouped (items : List Item) : Prop where
  inGroups : InGroups none items
  types : (items.filterMap Item.typed?).Nodup

theorem mem_of_isDecimal {s : List UInt8} (h : isDecimal s = true) :
    ∀ b ∈ s, isDigit b = true ∨ b = 46 := by
  intro b hb
  simp only [isDecimal, Bool.and_eq_true, Bool.or_eq_true, decide_eq_true_eq] at h
  obtain ⟨-, hrest⟩ := h
  rw [← List.takeWhile_append_dropWhile (p := isDigit) (l := s), List.mem_append] at hb
  rcases hb with hb | hb
  · exact Or.inl (List.mem_takeWhile_imp hb)
  · cases hdrop : s.dropWhile isDigit with
    | nil =>
        rw [hdrop] at hb
        cases hb
    | cons c rest =>
        rw [hdrop] at hb hrest
        obtain ⟨⟨hpoint, -⟩, hdigits⟩ := hrest.resolve_left (List.cons_ne_nil _ _)
        rcases List.mem_cons.mp hb with rfl | hb
        · exact Or.inr (Option.some.inj hpoint)
        · exact Or.inl (List.all_eq_true.mp hdigits b hb)

theorem mem_of_isNumber {s : List UInt8} (h : isNumber s = true) :
    ∀ b ∈ s, isNameByte b = true ∨ b = 45 ∨ b = 46 := by
  have hsize : ∀ {size : List UInt8}, size = literal "inf" ∨ isDecimal size = true →
      ∀ b ∈ size, isNameByte b = true ∨ b = 46 := by
    rintro size (rfl | hdecimal) b hb
    · have hall : (literal "inf").all isNameByte = true := by decide
      exact Or.inl (List.all_eq_true.mp hall b hb)
    · rcases mem_of_isDecimal hdecimal b hb with hdigit | hpoint
      · exact Or.inl (by simp [isNameByte, hdigit])
      · exact Or.inr hpoint
  intro b hb
  simp only [isNumber, Bool.or_eq_true, decide_eq_true_eq, or_assoc] at h
  rcases h with rfl | h
  · have hall : (literal "nan").all isNameByte = true := by decide
    exact Or.inl (List.all_eq_true.mp hall b hb)
  · split at h
    · rename_i hsign
      cases s with
      | nil => cases hb
      | cons c s =>
          rcases List.mem_cons.mp hb with rfl | hb
          · exact Or.inr (Or.inl (Option.some.inj hsign))
          · exact (hsize h b hb).imp_right Or.inr
    · exact (hsize h b hb).imp_right Or.inr

theorem isDigit_of_mem_decimal {n : ℕ} {b : UInt8} (hb : b ∈ decimal n) : isDigit b = true := by
  obtain ⟨hlow, hhigh⟩ := digit_of_mem_decimal hb
  rw [isDigit, decide_eq_true hlow, decide_eq_true hhigh]
  rfl

theorem isNumber_decimal (n : ℕ) : isNumber (decimal n) = true := by
  have hdigit : ∀ b ∈ decimal n, isDigit b = true := fun b hb => isDigit_of_mem_decimal hb
  have hsign : (decimal n).head? ≠ some 45 := by
    intro hhead
    exact absurd (hdigit 45 (List.mem_of_mem_head? hhead)) (by decide)
  have hdecimal : isDecimal (decimal n) = true := by
    have hrest : (decimal n).dropWhile isDigit = [] := List.dropWhile_eq_nil_iff.mpr hdigit
    have hwhole : (decimal n).takeWhile isDigit = decimal n :=
      List.takeWhile_eq_self_iff.mpr hdigit
    simp [isDecimal, hrest, hwhole, decimal_ne_nil]
  rw [isNumber, if_neg hsign, hdecimal, Bool.or_true]

def Unescaped (b : UInt8) : Prop := b ≠ 34 ∧ b ≠ 92 ∧ b ≠ newline

instance : DecidablePred Unescaped := fun _ => inferInstanceAs (Decidable (_ ∧ _))

theorem unescaped_of_all {s : List UInt8} (h : (s.all fun b => Unescaped b) = true) :
    ∀ b ∈ s, Unescaped b := fun b hb => of_decide_eq_true (List.all_eq_true.mp h b hb)

def labelRow (label : List UInt8 × List UInt8) : List UInt8 :=
  label.1 ++ [61, 34] ++ label.2 ++ [34]

def Sample.row (s : Sample) : List UInt8 :=
  s.name ++
    (if s.labels = [] then [] else [123] ++ [44].intercalate (s.labels.map labelRow) ++ [125]) ++
    [32] ++ s.value

def Sample.LabelsPlain (s : Sample) : Prop := ∀ label ∈ s.labels, ∀ b ∈ label.2, Unescaped b

structure Sample.Plain (s : Sample) : Prop where
  name : isMetricName s.name
  labelName : ∀ label ∈ s.labels, isLabelName label.1
  labelValue : s.LabelsPlain
  value : isNumber s.value

theorem isNameByte_of_isMetricName {s : List UInt8} (h : isMetricName s = true) :
    ∀ b ∈ s, isNameByte b = true := by
  unfold isMetricName at h
  split at h
  · cases h
  · rw [Bool.and_eq_true] at h
    exact List.all_eq_true.mp h.2

theorem ne_nil_of_isMetricName {s : List UInt8} (h : isMetricName s = true) : s ≠ [] := by
  rintro rfl
  cases h

theorem isMetricName_of_isLabelName {s : List UInt8} (h : isLabelName s = true) :
    isMetricName s = true := by
  rw [isLabelName, Bool.and_eq_true] at h
  exact h.1

theorem takeWhile_name {s : List UInt8} (h : isMetricName s = true) {b : UInt8}
    (hb : isNameByte b = false) (rest : List UInt8) :
    (s ++ b :: rest).takeWhile isNameByte = s := by
  rw [List.takeWhile_append_of_pos (isNameByte_of_isMetricName h),
    List.takeWhile_cons_of_neg (by simp [hb]), List.append_nil]

theorem notMem_intercalate {b c : UInt8} (hbc : b ≠ c) {rows : List (List UInt8)}
    (h : ∀ row ∈ rows, b ∉ row) : b ∉ [c].intercalate rows := by
  induction rows with
  | nil => exact List.not_mem_nil
  | cons row rows ih =>
      obtain ⟨hrow, hrows⟩ := List.forall_mem_cons.mp h
      cases rows with
      | nil => simpa using hrow
      | cons next rows =>
          rw [List.intercalate_cons_cons, List.mem_append, List.mem_append, not_or, not_or]
          exact ⟨⟨hrow, by simpa using hbc⟩, ih hrows⟩

/-- The bytes of a sample are those of its parts, and six marks between them. -/
theorem Sample.notMem_row {s : Sample} {b : UInt8} (hmark : b ∉ [32, 34, 44, 61, 123, 125])
    (hname : b ∉ s.name) (hlabels : ∀ label ∈ s.labels, b ∉ label.1 ∧ b ∉ label.2)
    (hvalue : b ∉ s.value) : b ∉ s.row := by
  simp only [List.mem_cons, List.not_mem_nil, or_false, not_or] at hmark
  obtain ⟨hblank, hquote, hcomma, hequals, hopen, hclose⟩ := hmark
  have hrows : ∀ row ∈ s.labels.map labelRow, b ∉ row := by
    rw [List.forall_mem_map]
    intro label hlabel
    obtain ⟨hfirst, hsecond⟩ := hlabels label hlabel
    simp [labelRow, hfirst, hsecond, hequals, hquote]
  have hinside := notMem_intercalate hcomma hrows
  unfold Sample.row
  split_ifs
  · simp [hname, hblank, hvalue]
  · simp [hname, hblank, hvalue, hopen, hclose, hinside]

theorem readQuoted_append {value : List UInt8} (h : ∀ b ∈ value, Unescaped b)
    (rest : List UInt8) : readQuoted (value ++ 34 :: rest) = some (value, rest) := by
  induction value with
  | nil => simp only [List.nil_append, readQuoted]
  | cons b value ih =>
      obtain ⟨⟨hquote, hslash, hnewline⟩, hvalue⟩ := List.forall_mem_cons.mp h
      rw [List.cons_append, readQuoted, if_neg hnewline, ih hvalue, Option.map_some]
      all_goals simp_all

theorem readLabels_append {labels : List (List UInt8 × List UInt8)} (hne : labels ≠ [])
    (hname : ∀ label ∈ labels, isLabelName label.1 = true)
    (hvalue : ∀ label ∈ labels, ∀ b ∈ label.2, Unescaped b) {fuel : ℕ}
    (hfuel : labels.length ≤ fuel) (rest : List UInt8) :
    readLabels fuel ([44].intercalate (labels.map labelRow) ++ 125 :: rest) =
      some (labels, rest) := by
  induction labels generalizing fuel with
  | nil => exact absurd rfl hne
  | cons label labels ih =>
      obtain ⟨hlabel, hnames⟩ := List.forall_mem_cons.mp hname
      obtain ⟨hplain, hvalues⟩ := List.forall_mem_cons.mp hvalue
      rw [List.length_cons] at hfuel
      obtain ⟨fuel, rfl⟩ : ∃ k, fuel = k + 1 := ⟨fuel - 1, by omega⟩
      have hread : ∀ more : List UInt8, (labelRow label ++ more).takeWhile isNameByte = label.1 ∧
          (labelRow label ++ more).drop label.1.length = 61 :: 34 :: (label.2 ++ 34 :: more) := by
        intro more
        have hrow : labelRow label ++ more = label.1 ++ 61 :: 34 :: (label.2 ++ 34 :: more) := by
          simp [labelRow]
        rw [hrow]
        exact ⟨takeWhile_name (isMetricName_of_isLabelName hlabel) (by decide) _,
          List.drop_left⟩
      cases labels with
      | nil =>
          obtain ⟨htake, hdrop⟩ := hread (125 :: rest)
          simp only [List.map_cons, List.map_nil, List.intercalate_singleton, readLabels, htake,
            hdrop, hlabel, if_true, readQuoted_append hplain, Option.bind_some]
      | cons next labels =>
          obtain ⟨htake, hdrop⟩ :=
            hread (44 :: ([44].intercalate ((next :: labels).map labelRow) ++ 125 :: rest))
          have hsplit : [44].intercalate ((label :: next :: labels).map labelRow) ++ 125 :: rest =
              labelRow label ++
                44 :: ([44].intercalate ((next :: labels).map labelRow) ++ 125 :: rest) := by
            simp [List.intercalate_cons_cons]
          have hrest := ih (List.cons_ne_nil _ _) hnames hvalues (Nat.le_of_succ_le_succ hfuel)
          rw [hsplit, readLabels]
          simp only [htake, hdrop, hlabel, if_true, readQuoted_append hplain, Option.bind_some,
            hrest, Option.map_some]

theorem length_le_intercalate (labels : List (List UInt8 × List UInt8)) :
    labels.length ≤ ([44].intercalate (labels.map labelRow)).length := by
  induction labels with
  | nil => exact Nat.zero_le _
  | cons label labels ih =>
      have hlabel : 1 ≤ (labelRow label).length := by
        simp only [labelRow, List.length_append, List.length_singleton]
        omega
      cases labels with
      | nil => simpa using hlabel
      | cons next labels =>
          rw [List.map_cons, List.map_cons, List.intercalate_cons_cons, List.length_append,
            List.length_append, ← List.map_cons]
          have hcomma : [(44 : UInt8)].length = 1 := rfl
          rw [List.length_cons, hcomma]
          omega

theorem readSample_row {s : Sample} (h : s.Plain) : readSample s.row = some (.sample s) := by
  obtain ⟨name, labels, value⟩ := s
  obtain ⟨hname, hlabelName, hlabelValue, hvalue⟩ := h
  dsimp only at hname hlabelName hlabelValue hvalue
  by_cases hne : labels = []
  · have hrow : Sample.row ⟨name, labels, value⟩ = name ++ 32 :: value := by
      simp [Sample.row, hne]
    rw [hrow, readSample]
    simp only [takeWhile_name hname (by decide : isNameByte 32 = false), hname, if_true,
      List.drop_left]
    rw [hne]
    exact if_pos hvalue
  · have hrow : Sample.row ⟨name, labels, value⟩ =
        name ++ 123 :: ([44].intercalate (labels.map labelRow) ++ 125 :: 32 :: value) := by
      simp [Sample.row, hne]
    have hlen : labels.length ≤
        ([44].intercalate (labels.map labelRow) ++ 125 :: 32 :: value).length + 1 := by
      have hlabels := length_le_intercalate labels
      rw [List.length_append]
      omega
    rw [hrow, readSample]
    simp only [takeWhile_name hname (by decide : isNameByte 123 = false), hname, if_true,
      List.drop_left, readLabels_append hne hlabelName hlabelValue hlen, Option.bind_some]
    exact if_pos hvalue

theorem head?_append_of_isMetricName {name : List UInt8} (h : isMetricName name = true)
    (rest : List UInt8) : (name ++ rest).head? ≠ some 35 := by
  rw [List.head?_append_of_ne_nil _ (ne_nil_of_isMetricName h)]
  intro hhead
  have hbyte := isNameByte_of_isMetricName h 35 (List.mem_of_mem_head? hhead)
  exact absurd hbyte (by decide)

theorem readRow_row {s : Sample} (h : s.Plain) : readRow s.row = some (.sample s) := by
  have hne : s.row ≠ [] := by
    have hname := ne_nil_of_isMetricName h.name
    simp [Sample.row, hname]
  have hhead : s.row.head? ≠ some 35 := by
    rw [Sample.row, List.append_assoc, List.append_assoc]
    exact head?_append_of_isMetricName h.name _
  rw [readRow, if_neg hne, if_neg hhead, readSample_row h]

theorem takeWhile_word {s : List UInt8} (h : isMetricName s = true) (rest : List UInt8) :
    (s ++ 32 :: rest).takeWhile (· ≠ 32) = s := by
  have hall : ∀ b ∈ s, decide (b ≠ 32) = true := by
    intro b hb
    have hbyte := isNameByte_of_isMetricName h b hb
    exact decide_eq_true fun heq => absurd (heq ▸ hbyte) (by decide)
  rw [List.takeWhile_append_of_pos hall, List.takeWhile_cons_of_neg (by decide), List.append_nil]

theorem readRow_help {name : List UInt8} (h : isMetricName name = true) (help : List UInt8) :
    readRow (literal "# HELP " ++ (name ++ 32 :: help)) = some (.help name) := by
  have hne : literal "# HELP " ++ (name ++ 32 :: help) ≠ [] :=
    List.append_ne_nil_of_left_ne_nil (by decide) _
  have hhead : (literal "# HELP " ++ (name ++ 32 :: help)).head? = some 35 :=
    List.head?_append_of_ne_nil _ (by decide)
  have hdrop : (literal "# HELP " ++ (name ++ 32 :: help)).drop 7 = name ++ 32 :: help :=
    List.drop_left' (by decide)
  rw [readRow, if_neg hne, if_pos hhead, readComment, if_pos (List.prefix_append _ _)]
  simp only [hdrop, takeWhile_word h, h, if_true]

theorem readRow_type {name kind : List UInt8} (h : isMetricName name = true)
    (hkind : kind ∈ kinds) :
    readRow (literal "# TYPE " ++ (name ++ 32 :: kind)) = some (.type name kind) := by
  have hne : literal "# TYPE " ++ (name ++ 32 :: kind) ≠ [] :=
    List.append_ne_nil_of_left_ne_nil (by decide) _
  have hhelp : ¬literal "# HELP " <+: literal "# TYPE " ++ (name ++ 32 :: kind) := by
    intro hprefix
    have hsame := List.prefix_of_prefix_length_le hprefix (List.prefix_append _ _) (by decide)
    exact absurd hsame (by decide)
  have hhead : (literal "# TYPE " ++ (name ++ 32 :: kind)).head? = some 35 :=
    List.head?_append_of_ne_nil _ (by decide)
  have hdrop : (literal "# TYPE " ++ (name ++ 32 :: kind)).drop 7 = name ++ 32 :: kind :=
    List.drop_left' (by decide)
  have hrest : (name ++ 32 :: kind).drop (name.length + 1) = kind := by
    rw [← List.drop_drop, List.drop_left, List.drop_one, List.tail_cons]
  rw [readRow, if_neg hne, if_pos hhead, readComment, if_neg hhelp,
    if_pos (List.prefix_append _ _)]
  simp only [hdrop, takeWhile_word h, hrest, h, hkind, and_self, if_true]

theorem readText_flatMap {rows : List (List UInt8)} (h : ∀ row ∈ rows, newline ∉ row) :
    readText (rows.flatMap (· ++ [newline])) = readRows rows := by
  have hsplit : (rows.flatMap (· ++ [newline])).splitOn newline = rows ++ [[]] := by
    rw [← List.append_nil (rows.flatMap _), TextLines.splitOn_flatMap_lines h]
    rfl
  rw [readText, hsplit, List.getLast?_concat, if_pos rfl, List.dropLast_concat]

theorem readRows_append {rows rows' : List (List UInt8)} {items items' : List Item}
    (h : readRows rows = some items) (h' : readRows rows' = some items') :
    readRows (rows ++ rows') = some (items ++ items') := by
  induction rows generalizing items with
  | nil =>
      cases h
      exact h'
  | cons row rows ih =>
      obtain ⟨item, hitem, hrest⟩ := Option.bind_eq_some_iff.mp h
      obtain ⟨more, hmore, rfl⟩ := Option.map_eq_some_iff.mp hrest
      rw [List.cons_append, readRows, hitem, Option.bind_some, ih hmore, Option.map_some]
      rfl

theorem isNumber_of_readRow {row : List UInt8} {s : Sample} (h : readRow row = some (.sample s)) :
    isNumber s.value = true := by
  have hvalue : ∀ {name : List UInt8} {labels : List (List UInt8 × List UInt8)}
      {rest : List UInt8}, readValue name labels rest = some (.sample s) →
        isNumber s.value = true := by
    intro name labels rest h
    unfold readValue at h
    split at h
    · split at h
      · rename_i hnumber
        cases h
        exact hnumber
      · cases h
    · cases h
  unfold readRow at h
  split_ifs at h
  · cases h
  · -- a comment is no sample
    unfold readComment at h
    dsimp only at h
    split_ifs at h <;> cases h
  · unfold readSample at h
    dsimp only at h
    split_ifs at h
    split at h
    · obtain ⟨r, -, hr⟩ := Option.bind_eq_some_iff.mp h
      exact hvalue hr
    · exact hvalue h

theorem isNumber_of_mem_samples {text : List UInt8} {items : List Item}
    (h : readText text = some items) : ∀ s ∈ samples items, isNumber s.value = true := by
  have hrows : ∀ {rows : List (List UInt8)} {items : List Item}, readRows rows = some items →
      ∀ s ∈ samples items, isNumber s.value = true := by
    intro rows
    induction rows with
    | nil =>
        rintro items h s hs
        cases h
        cases hs
    | cons row rows ih =>
        rintro items h s hs
        obtain ⟨item, hitem, hrest⟩ := Option.bind_eq_some_iff.mp h
        obtain ⟨more, hmore, rfl⟩ := Option.map_eq_some_iff.mp hrest
        obtain ⟨item', hmem, hsample⟩ := List.mem_filterMap.mp hs
        rcases List.mem_cons.mp hmem with rfl | hmem
        · cases item' with
          | sample s' =>
              cases hsample
              exact isNumber_of_readRow hitem
          | _ => cases hsample
        · exact ih hmore s (List.mem_filterMap.mpr ⟨item', hmem, hsample⟩)
  unfold readText at h
  dsimp only at h
  split_ifs at h
  exact hrows h

/-- Behind a type that a part gives itself, the one in front of it does not matter. -/
theorem InGroups.append {items items' : List Item} {family : Option (List UInt8 × List UInt8)}
    (h : InGroups family items) (h' : ∀ family, InGroups family items') :
    InGroups family (items ++ items') := by
  induction h with
  | nil family => exact h' family
  | type _ ih => exact .type ih
  | sample hname _ ih => exact .sample hname ih
  | other htyped hsample _ ih => exact .other htyped hsample ih

end Exposition

end Shinigami
