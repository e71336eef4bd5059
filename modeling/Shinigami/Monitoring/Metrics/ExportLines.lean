import Shinigami.Foundations.Exposition
import Shinigami.Monitoring.Metrics.Prometheus

/-!
# The lines of the Prometheus exporter

`prometheus_render` appends lines whose fixed parts are well formed whatever the names are
(`wellFormed_prometheusLines`). Of `printf` it is used that it prints a floating-point number
as a number, or as one that is not a number, maybe with a sign (`PrintsNumbers`).
-/

namespace Shinigami

namespace Monitoring

open CString Exposition

/-- What `printf` is documented to print for `%.nf`. -/
def PrintsNumbers (fixed : FixedFormat) : Prop :=
  ∀ digits x, isNumber (fixed digits x) = true ∨ fixed digits x = literal "-nan"

/-- What `printf` prints for a zero. -/
def zeroFixed : FixedFormat := fun digits _ =>
  if digits = 0 then literal "0" else literal "0." ++ List.replicate digits 48

theorem printsNumbers_zeroFixed : PrintsNumbers zeroFixed := by
  intro digits x
  left
  unfold zeroFixed
  split_ifs with hdigits
  · decide
  · have hhead : (literal "0." ++ List.replicate digits 48).head? ≠ some 45 := by
      simp [literal, ascii]
    have hwhole : (literal "0." ++ List.replicate digits 48).takeWhile isDigit = [48] := rfl
    have hrest : (literal "0." ++ List.replicate digits 48).dropWhile isDigit =
        46 :: List.replicate digits 48 := rfl
    have hdecimal : isDecimal (literal "0." ++ List.replicate digits 48) = true := by
      simp [isDecimal, hwhole, hrest, hdigits, show isDigit 48 = true from rfl]
    rw [isNumber, if_neg hhead, hdecimal, Bool.or_true]

/-- The text of a snapshot. -/
def expositionText (fixed : FixedFormat) (snap : MonSnapshot) : List UInt8 :=
  (prometheusLines snap).flatMap (Line.text fixed)

section Render

variable {fixed : FixedFormat} {snap : MonSnapshot} {bufsiz : UInt32}

theorem prometheusRender_of_fits (h : (expositionText fixed snap).length < bufsiz.toNat) :
    (prometheusRender fixed snap bufsiz).ret.toNat = (expositionText fixed snap).length ∧
      (prometheusRender fixed snap bufsiz).buf = expositionText fixed snap := by
  have hrender : prometheusRender fixed snap bufsiz =
      ⟨UInt32.ofNat (expositionText fixed snap).length, expositionText fixed snap⟩ :=
    prometheusRender_of_lt h
  rw [hrender]
  dsimp only
  exact ⟨UInt32.toNat_ofNat_of_lt' (h.trans bufsiz.toNat_lt), Eq.refl _⟩

theorem prometheusRender_of_le (hbufsiz : 1 ≤ bufsiz)
    (h : bufsiz.toNat ≤ (expositionText fixed snap).length) :
    prometheusRender fixed snap bufsiz =
      ⟨4294967295, (expositionText fixed snap).take (bufsiz.toNat - 1)⟩ := by
  have hne : bufsiz ≠ 0 := by
    rintro rfl
    exact absurd hbufsiz (by decide)
  rw [prometheusRender, if_neg hne]
  exact if_neg (Nat.not_lt.mpr h)

end Render

def sampleOf (fixed : FixedFormat) (name : String) (labels : List (String × Value))
    (value : Value) : Sample where
  name := literal name
  labels := labels.map fun label => (literal label.1, label.2.text fixed)
  value := value.text fixed

def Line.rows (fixed : FixedFormat) : Line → List (List UInt8)
  | .announce f =>
      [literal "# HELP " ++ (literal f.name ++ 32 :: literal f.help),
        literal "# TYPE " ++ (literal f.name ++ 32 :: literal f.type)]
  | .sample name labels value => [(sampleOf fixed name labels value).row]
  | .blank => [[]]
  | .eof => [literal "# EOF"]

theorem literal_append (s t : String) : literal (s ++ t) = literal s ++ literal t := by
  rw [literal, String.toList_append, ascii, List.map_append]
  rfl

theorem labelsText_eq (fixed : FixedFormat) (labels : List (String × Value)) :
    labelsText fixed labels =
      [44].intercalate ((labels.map fun label => (literal label.1, label.2.text fixed)).map
        labelRow) := by
  rw [labelsText, List.map_map]
  refine congrArg (List.intercalate [44]) (List.map_congr_left fun label _ => ?_)
  have hquote : literal (label.1 ++ "=\x22") = literal label.1 ++ [61, 34] := literal_append _ _
  exact congrArg (· ++ label.2.text fixed ++ [34]) hquote

theorem Line.text_eq (fixed : FixedFormat) (line : Line) :
    line.text fixed = (line.rows fixed).flatMap (· ++ [newline]) := by
  cases line with
  | announce f =>
      have htext : (Line.announce f).text fixed = literal ("# HELP " ++ f.name ++ " " ++ f.help ++
        "\n" ++ "# TYPE " ++ f.name ++ " " ++ f.type ++ "\n") := rfl
      have hblank : literal " " = [32] := rfl
      have hnewline : literal "\n" = [newline] := rfl
      rw [htext]
      simp only [literal_append, hblank, hnewline, Line.rows, List.flatMap_cons,
        List.flatMap_nil, List.append_nil, List.nil_append, List.append_assoc,
        List.cons_append]
  | sample name labels value =>
      have hnil : labels.map (fun label => (literal label.1, label.2.text fixed)) = [] ↔
          labels = [] := List.map_eq_nil_iff
      simp only [Line.text, labelsText_eq, Line.rows, sampleOf, Sample.row, hnil,
        List.flatMap_cons, List.flatMap_nil, List.append_nil]
      rfl
  | blank => rfl
  | eof => rfl

theorem expositionText_eq (fixed : FixedFormat) (snap : MonSnapshot) :
    expositionText fixed snap =
      ((prometheusLines snap).flatMap (Line.rows fixed)).flatMap (· ++ [newline]) := by
  rw [List.flatMap_assoc, expositionText, funext (Line.text_eq fixed)]

def Value.NulFree : Value → Prop
  | .str s => 0 ∉ s
  | .unsigned _ => True
  | .fixed _ _ => True

def Value.IsNumeric : Value → Prop
  | .str _ => False
  | .unsigned _ => True
  | .fixed _ _ => True

def LabelWellFormed (label : String × Value) : Prop :=
  isLabelName (literal label.1) ∧ label.2.NulFree

/-- The parts of a line that no name enters are well formed. -/
def Line.WellFormed : Line → Prop
  | .announce f =>
      isMetricName (literal f.name) ∧ (0 ∉ literal f.help ∧ newline ∉ literal f.help) ∧
        literal f.type ∈ kinds
  | .sample name labels value =>
      isMetricName (literal name) ∧
        (∀ label ∈ labels, LabelWellFormed label) ∧ value.IsNumeric
  | _ => True

def AllWellFormed (lines : List Line) : Prop := ∀ line ∈ lines, line.WellFormed

theorem allWellFormed_append {lines lines' : List Line} :
    AllWellFormed (lines ++ lines') ↔ AllWellFormed lines ∧ AllWellFormed lines' :=
  List.forall_mem_append

theorem allWellFormed_flatMap {α : Type} {f : α → List Line} {l : List α} :
    AllWellFormed (l.flatMap f) ↔ ∀ a ∈ l, AllWellFormed (f a) :=
  List.forall_mem_flatMap

theorem allWellFormed_single {f : Family} {value : Value} (hf : (Line.announce f).WellFormed)
    (hvalue : value.IsNumeric) : AllWellFormed (single f value) := by
  simp only [AllWellFormed, single, List.forall_mem_cons]
  exact ⟨hf, ⟨hf.1, List.forall_mem_nil _, hvalue⟩, trivial, List.forall_mem_nil _⟩

theorem allWellFormed_table {α : Type} {f : Family} {entries : List α}
    {labels : α → List (String × Value)} {value : α → Value}
    (hf : (Line.announce f).WellFormed)
    (hlabels : ∀ a, ∀ label ∈ labels a, LabelWellFormed label)
    (hvalue : ∀ a, (value a).IsNumeric) : AllWellFormed (table f entries labels value) := by
  simp only [AllWellFormed, table, List.forall_mem_append, List.forall_mem_cons,
    List.forall_mem_map]
  exact ⟨⟨hf, fun a _ => ⟨hf.1, hlabels a, hvalue a⟩⟩, trivial, List.forall_mem_nil _⟩

theorem labelWellFormed_str {key : String} (hkey : isLabelName (literal key) = true)
    {s : List UInt8} (hs : 0 ∉ s) : LabelWellFormed (key, .str s) := ⟨hkey, hs⟩

theorem labels_name {key : String} (hkey : isLabelName (literal key) = true) (s : List UInt8) :
    ∀ label ∈ [(key, Value.str (cstr s))], LabelWellFormed label :=
  List.forall_mem_singleton.mpr (labelWellFormed_str hkey (zero_notMem_cstr s))

theorem labels_name_number {key key' : String} (hkey : isLabelName (literal key) = true)
    (hkey' : isLabelName (literal key') = true) (s : List UInt8) (n : ℕ) :
    ∀ label ∈ [(key, Value.str (cstr s)), (key', .unsigned n)], LabelWellFormed label := by
  rw [List.forall_mem_cons, List.forall_mem_singleton]
  exact ⟨labelWellFormed_str hkey (zero_notMem_cstr s), hkey', trivial⟩

theorem allWellFormed_system (snap : MonSnapshot) : AllWellFormed (systemLines snap) := by
  simp only [systemLines, allWellFormed_append]
  refine ⟨⟨⟨⟨⟨?_, ?_⟩, ?_⟩, ?_⟩, ?_⟩, ?_⟩
  all_goals exact allWellFormed_single ⟨by decide, by decide, by decide⟩ trivial

theorem allWellFormed_service (snap : MonSnapshot) :
    AllWellFormed (serviceMetrics.flatMap fun metric => metric.lines snap) := by
  rw [allWellFormed_flatMap]
  simp only [serviceMetrics, List.forall_mem_cons]
  refine ⟨?_, ?_, ?_, ?_, ?_, List.forall_mem_nil _⟩
  case refine_4 | refine_5 =>
    exact allWellFormed_table ⟨by decide, by decide, by decide⟩
      (fun svc => labels_name (by decide) svc.name) fun _ => trivial
  all_goals
    exact allWellFormed_table ⟨by decide, by decide, by decide⟩
      (fun svc => labels_name_number (by decide) (by decide) svc.name _) fun _ => trivial

theorem allWellFormed_memoryPool (snap : MonSnapshot) :
    AllWellFormed (memoryPoolLines snap) := by
  simp only [memoryPoolLines, allWellFormed_append]
  refine ⟨⟨?_, ?_⟩, ?_⟩
  all_goals
    exact allWellFormed_table ⟨by decide, by decide, by decide⟩
      (fun p => labels_name_number (by decide) (by decide) p.name _) fun _ => trivial

theorem allWellFormed_histogram (u : UringMetrics) : AllWellFormed (histogramLines u) := by
  simp only [AllWellFormed, histogramLines, List.forall_mem_append, List.forall_mem_cons,
    List.forall_mem_map]
  have hloop := labels_name (by decide : isLabelName (literal "loop") = true) u.name
  have hle : ∀ value : Value, value.NulFree →
      ∀ label ∈ [("loop", Value.str (cstr u.name)), ("le", value)], LabelWellFormed label := by
    intro value hvalue
    have hkey : isLabelName (literal "le") = true := by decide
    rw [List.forall_mem_cons, List.forall_mem_singleton]
    exact ⟨hloop _ List.mem_cons_self, hkey, hvalue⟩
  have hinf : (Value.str (ascii "+Inf".toList)).NulFree := by
    rw [Value.NulFree]
    decide
  exact ⟨fun b _ => ⟨by decide, hle _ trivial, trivial⟩, ⟨by decide, hle _ hinf, trivial⟩,
    ⟨by decide, hloop, trivial⟩, ⟨by decide, hloop, trivial⟩, trivial, List.forall_mem_nil _⟩

theorem allWellFormed_uring (snap : MonSnapshot) : AllWellFormed (uringLines snap) := by
  rw [uringLines, allWellFormed_append]
  refine ⟨allWellFormed_table ⟨by decide, by decide, by decide⟩
    (fun u => labels_name (by decide) u.name) fun _ => trivial, ?_⟩
  rw [AllWellFormed, List.forall_mem_cons]
  exact ⟨⟨by decide, by decide, by decide⟩,
    allWellFormed_flatMap.mpr fun u _ => allWellFormed_histogram u⟩

theorem allWellFormed_ringbuf (snap : MonSnapshot) : AllWellFormed (ringbufLines snap) := by
  rw [ringbufLines, allWellFormed_append]
  refine ⟨?_, ?_⟩
  all_goals
    exact allWellFormed_table ⟨by decide, by decide, by decide⟩
      (fun r => labels_name (by decide) r.name) fun _ => trivial

theorem unescaped_serviceNameByIdx (i : ℕ) :
    (0 : UInt8) ∉ literal (serviceNameByIdx i) ∧
      ∀ b ∈ literal (serviceNameByIdx i), Unescaped b := by
  have hall : ((literal (serviceNameByIdx i)).all fun b => b ≠ 0 ∧ Unescaped b) = true := by
    match i with
    | 0 | 1 | 2 | 3 => decide
    | n + 4 =>
        change ((literal "unknown").all fun b => b ≠ 0 ∧ Unescaped b) = true
        decide
  simp only [List.all_eq_true, decide_eq_true_eq] at hall
  exact ⟨fun hzero => (hall 0 hzero).1 rfl, fun b hb => (hall b hb).2⟩

theorem allWellFormed_security (snap : MonSnapshot) : AllWellFormed (securityLines snap) := by
  have hline : ∀ (i : ℕ) {type : String} (n : UInt32), 0 ∉ literal type →
      (violationLine i type n).WellFormed := by
    intro i type n htype
    refine ⟨by decide, List.forall_mem_cons.mpr ⟨?_, ?_⟩, trivial⟩
    · exact labelWellFormed_str (by decide) (unescaped_serviceNameByIdx i).1
    · exact List.forall_mem_singleton.mpr (labelWellFormed_str (by decide) htype)
  simp only [AllWellFormed, securityLines, List.forall_mem_append, List.forall_mem_cons,
    List.forall_mem_flatMap]
  exact ⟨⟨⟨by decide, by decide, by decide⟩, fun i _ =>
    ⟨hline i _ (by decide), hline i _ (by decide), hline i _ (by decide),
      List.forall_mem_nil _⟩⟩, trivial, List.forall_mem_nil _⟩

theorem allWellFormed_sm (snap : MonSnapshot) : AllWellFormed (smLines snap) := by
  rw [smLines, allWellFormed_append]
  refine ⟨?_, ?_⟩
  all_goals exact allWellFormed_single ⟨by decide, by decide, by decide⟩ trivial

theorem allWellFormed_alert (snap : MonSnapshot) : AllWellFormed (alertLines snap) := by
  simp only [AllWellFormed, alertLines, List.forall_mem_cons]
  refine ⟨⟨by decide, by decide, by decide⟩, ⟨by decide, ?_, trivial⟩, ⟨by decide, ?_, trivial⟩,
    trivial, List.forall_mem_nil _⟩
  all_goals
    exact List.forall_mem_singleton.mpr (labelWellFormed_str (by decide) (by decide))

theorem allWellFormed_watchdog (snap : MonSnapshot) : AllWellFormed (watchdogLines snap) :=
  allWellFormed_table ⟨by decide, by decide, by decide⟩
    (fun w => labels_name (by decide) w.serviceName) fun _ => trivial

/-- A channel label is cut from a name, and a byte is replaced by another one only. -/
theorem labelWellFormed_channelLabel (excluded : List Char) (name : List UInt8) :
    LabelWellFormed ("channel", channelLabel excluded name) := by
  refine labelWellFormed_str (by decide) fun hmem => ?_
  obtain ⟨c, hc, hzero⟩ := List.mem_map.mp hmem
  split_ifs at hzero
  · cases hzero
  · exact zero_notMem_cstr name (hzero ▸ List.mem_of_mem_take hc)

theorem allWellFormed_ipc (snap : MonSnapshot) : AllWellFormed (ipcLines snap) := by
  rw [ipcLines, allWellFormed_append]
  refine ⟨?_, ?_⟩
  all_goals
    exact allWellFormed_table ⟨by decide, by decide, by decide⟩
      (fun ch => List.forall_mem_singleton.mpr (labelWellFormed_channelLabel _ ch.name))
      fun _ => trivial

theorem wellFormed_prometheusLines (snap : MonSnapshot) : AllWellFormed (prometheusLines snap) := by
  simp only [prometheusLines, allWellFormed_append]
  exact ⟨⟨⟨⟨⟨⟨⟨⟨⟨⟨allWellFormed_system snap, allWellFormed_service snap⟩,
    allWellFormed_memoryPool snap⟩, allWellFormed_uring snap⟩, allWellFormed_ringbuf snap⟩,
    allWellFormed_security snap⟩, allWellFormed_sm snap⟩, allWellFormed_alert snap⟩,
    allWellFormed_watchdog snap⟩, allWellFormed_ipc snap⟩, List.forall_mem_singleton.mpr trivial⟩

section Text

variable {fixed : FixedFormat} {b : UInt8}

theorem notMem_fixed (hfixed : PrintsNumbers fixed) (hname : isNameByte b = false)
    (hsign : b ≠ 45) (hpoint : b ≠ 46) (digits : ℕ) (x : Number) : b ∉ fixed digits x := by
  intro hmem
  rcases hfixed digits x with h | h
  · rcases mem_of_isNumber h b hmem with hbyte | rfl | rfl
    · exact absurd (hname.symm.trans hbyte) Bool.false_ne_true
    · exact hsign rfl
    · exact hpoint rfl
  · have hall : (literal "-nan").all fun c => isNameByte c = true ∨ c = 45 := by decide
    rcases of_decide_eq_true (List.all_eq_true.mp hall b (h ▸ hmem)) with hbyte | rfl
    · exact absurd (hname.symm.trans hbyte) Bool.false_ne_true
    · exact hsign rfl

theorem Value.text_unsigned (n : ℕ) : (Value.unsigned n).text fixed = decimal n := by
  rw [Value.text, Nat.repr, String.toList_ofList, decimal]

theorem Value.notMem_text (hfixed : PrintsNumbers fixed) (hname : isNameByte b = false)
    (hsign : b ≠ 45) (hpoint : b ≠ 46) {value : Value} (h : value.IsNumeric) :
    b ∉ value.text fixed := by
  cases value with
  | str s => exact h.elim
  | unsigned n =>
      rw [Value.text_unsigned]
      intro hmem
      have hbyte : isNameByte b = true := by
        simp [isNameByte, isDigit_of_mem_decimal hmem]
      exact absurd (hname.symm.trans hbyte) Bool.false_ne_true
  | fixed digits x => exact notMem_fixed hfixed hname hsign hpoint digits x

theorem Value.zero_notMem_text (hfixed : PrintsNumbers fixed) {value : Value}
    (h : value.NulFree) : 0 ∉ value.text fixed := by
  cases value with
  | str s => exact h
  | unsigned n => exact notMem_text hfixed (by decide) (by decide) (by decide) trivial
  | fixed digits x => exact notMem_text hfixed (by decide) (by decide) (by decide) trivial

theorem notMem_name {s : List UInt8} (h : isMetricName s = true) (hname : isNameByte b = false) :
    b ∉ s := by
  intro hmem
  exact absurd (hname.symm.trans (isNameByte_of_isMetricName h b hmem)) Bool.false_ne_true

theorem notMem_row (hfixed : PrintsNumbers fixed) (hb : b = 0 ∨ b = newline) {name : String}
    {labels : List (String × Value)} {value : Value}
    (h : (Line.sample name labels value).WellFormed)
    (hlabels : ∀ label ∈ labels, b ∉ label.2.text fixed) :
    ∀ row ∈ (Line.sample name labels value).rows fixed, b ∉ row := by
  obtain ⟨hmetric, hlabel, hvalue⟩ := h
  have hname : isNameByte b = false := by rcases hb with rfl | rfl <;> decide
  have hmark : b ∉ [32, 34, 44, 61, 123, 125] := by rcases hb with rfl | rfl <;> decide
  have hnumber : b ≠ 45 ∧ b ≠ 46 := by rcases hb with rfl | rfl <;> decide
  rw [Line.rows, List.forall_mem_singleton]
  refine Sample.notMem_row hmark (notMem_name hmetric hname) ?_
    (Value.notMem_text hfixed hname hnumber.1 hnumber.2 hvalue)
  rw [sampleOf, List.forall_mem_map]
  intro label hmem
  have hkey := isMetricName_of_isLabelName (hlabel label hmem).1
  exact ⟨notMem_name hkey hname, hlabels label hmem⟩

theorem notMem_announce (hb : b = 0 ∨ b = newline) {f : Family}
    (h : (Line.announce f).WellFormed) : ∀ row ∈ (Line.announce f).rows fixed, b ∉ row := by
  obtain ⟨hmetric, hhelp, htype⟩ := h
  have hbyte : b ∉ literal f.name :=
    notMem_name hmetric (by rcases hb with rfl | rfl <;> decide)
  have hstart : b ∉ literal "# HELP " ∧ b ∉ literal "# TYPE " ∧ b ≠ 32 := by
    rcases hb with rfl | rfl <;> decide
  have hkind : b ∉ literal f.type := by
    have hall : kinds.all fun kind => 0 ∉ kind ∧ newline ∉ kind := by decide
    have hnot := List.all_eq_true.mp hall _ htype
    rw [decide_eq_true_eq] at hnot
    rcases hb with rfl | rfl
    · exact hnot.1
    · exact hnot.2
  have htext : b ∉ literal f.help := by
    rcases hb with rfl | rfl
    · exact hhelp.1
    · exact hhelp.2
  rw [Line.rows, List.forall_mem_cons, List.forall_mem_singleton]
  simp only [List.mem_append, List.mem_cons, not_or]
  exact ⟨⟨hstart.1, hbyte, hstart.2.2, htext⟩, ⟨hstart.2.1, hbyte, hstart.2.2, hkind⟩⟩

theorem Line.zero_notMem_text (hfixed : PrintsNumbers fixed) {line : Line}
    (h : line.WellFormed) : 0 ∉ line.text fixed := by
  have hrows : ∀ row ∈ line.rows fixed, 0 ∉ row := by
    cases line with
    | announce f => exact notMem_announce (Or.inl rfl) h
    | sample name labels value =>
        exact notMem_row hfixed (Or.inl rfl) h fun label hlabel =>
          Value.zero_notMem_text hfixed (h.2.1 label hlabel).2
    | blank => simp [Line.rows]
    | eof =>
        rw [Line.rows, List.forall_mem_singleton]
        decide
  rw [Line.text_eq, List.mem_flatMap]
  rintro ⟨row, hrow, hzero⟩
  rcases List.mem_append.mp hzero with hzero | hzero
  · exact hrows row hrow hzero
  · exact absurd hzero (by decide)

theorem zero_notMem_expositionText (hfixed : PrintsNumbers fixed) (snap : MonSnapshot) :
    0 ∉ expositionText fixed snap := by
  rw [expositionText, List.mem_flatMap]
  rintro ⟨line, hline, hzero⟩
  exact Line.zero_notMem_text hfixed (wellFormed_prometheusLines snap line hline) hzero

end Text

end Monitoring

end Shinigami
