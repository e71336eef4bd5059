import Shinigami.Foundations.Binary64

/-!
# Rendering a trace

`trace_render_waterfall` prints a row for each span of a trace. It goes on as long as a row
of 256 bytes fits, in an unsigned type: with a buffer of less than 256 bytes it always goes
on. Nothing bounds the number of spans by the length of their array
(`staysInside_iff`).
-/

namespace Shinigami

namespace Monitoring

open Binary64 CString

/-- `TRACE_SPAN_MAX`. -/
def traceSpanMax : ℕ := 16

/-- `trace_span_t`, with strings that end in their fields. -/
structure TraceSpan where
  component : List UInt8
  enterUs : UInt64
  exitUs : UInt64
  status : UInt32
  annotation : List UInt8
  length_component : (cstr component).length < 16
  length_annotation : (cstr annotation).length < 64

/-- What the renderer reads of a `trace_record_t`. -/
structure TraceRecord where
  spanCount : UInt8
  spans : Vector TraceSpan traceSpanMax

def rowText (span : TraceSpan) : List UInt8 :=
  let durationUs := span.exitUs - span.enterUs
  let durationMs := toBinary64 (toBinary64 durationUs.toNat / 1000)
  let statusStr := if span.status = 0 then "OK" else if span.status = 1 then "SLOW" else "ERROR"
  literal "  " ++ cstr span.component ++ literal ": " ++ fixed1 durationMs ++ literal "ms [" ++
    literal statusStr ++ literal "] " ++ cstr span.annotation ++ literal "\n"

/-- The spans that are read, the offsets and lengths of what is written, and the return
value. -/
structure Rendering where
  reads : List ℕ
  writes : List (ℕ × ℕ)
  written : UInt32

/-- What `snprintf` of a text of length `len` writes at an offset, with `n` bytes of room. -/
def snprintfWrites (offset n len : ℕ) : List (ℕ × ℕ) :=
  if n = 0 then [] else [(offset, min len (n - 1) + 1)]

/-- The rounds of the loop from span `i` on. Past the array it is not known what is read, and
the rounds end. -/
def renderRounds (trace : TraceRecord) (size : UInt32) : ℕ → ℕ → UInt32 → Rendering
  | 0, _, written => ⟨[], [], written⟩
  | rounds + 1, i, written =>
      if written < size - 256 then
        match trace.spans[i]? with
        | none => ⟨[i], [], written⟩
        | some span =>
            let text := rowText span
            let rest := renderRounds trace size rounds (i + 1)
              (written + UInt32.ofNat text.length)
            ⟨i :: rest.reads,
              snprintfWrites written.toNat (size - written).toNat text.length ++ rest.writes,
              rest.written⟩
      else ⟨[], [], written⟩

/-- `trace_render_waterfall`. -/
def traceRenderWaterfall (trace : TraceRecord) (size : UInt32) : Rendering :=
  renderRounds trace size trace.spanCount.toNat 0 0

/-- Only spans of the array are read, only bytes of the buffer are written, and no more than
its size is returned. -/
structure Rendering.StaysInside (size : UInt32) (r : Rendering) : Prop where
  reads : ∀ i ∈ r.reads, i < traceSpanMax
  writes : ∀ w ∈ r.writes, w.1 + w.2 ≤ size.toNat
  written : r.written ≤ size

/-- The length of the first `k` rows. -/
def rowsLength (trace : TraceRecord) (k : ℕ) : ℕ :=
  ((trace.spans.toList.take k).map fun span => (rowText span).length).sum

theorem length_durationMs_le (durationUs : UInt64) :
    (fixed1 (toBinary64 (toBinary64 durationUs.toNat / 1000))).length ≤ 22 := by
  have hnat : (durationUs.toNat : ℚ) < 2 ^ 64 := by exact_mod_cast durationUs.toNat_lt
  have hconvert := toBinary64_le (Nat.cast_nonneg (α := ℚ) durationUs.toNat)
  have hnonneg := toBinary64_nonneg (Nat.cast_nonneg (α := ℚ) durationUs.toNat)
  have hdivide := toBinary64_le (div_nonneg hnonneg (by norm_num : (0 : ℚ) ≤ 1000))
  refine length_fixed1_le (by norm_num : 0 < 20) ?_
  linarith

theorem length_rowText_lt (span : TraceSpan) : (rowText span).length < 256 := by
  have hduration := length_durationMs_le (span.exitUs - span.enterUs)
  have hcomponent := span.length_component
  have hannotation := span.length_annotation
  have hindent : (literal "  ").length = 2 := rfl
  have hcolon : (literal ": ").length = 2 := rfl
  have hopen : (literal "ms [").length = 4 := rfl
  have hclose : (literal "] ").length = 2 := rfl
  have hnewline : (literal "\n").length = 1 := rfl
  have hstatus : (literal (if span.status = 0 then "OK"
      else if span.status = 1 then "SLOW" else "ERROR")).length ≤ 5 := by
    split_ifs <;> decide
  simp only [rowText, List.length_append]
  omega

theorem length_rowText_ge (span : TraceSpan) :
    (cstr span.component).length + (cstr span.annotation).length ≤ (rowText span).length := by
  simp only [rowText, List.length_append]
  omega

section Rounds

variable {trace : TraceRecord} {size written : UInt32} {i : ℕ}

theorem rowsLength_succ (hi : i < traceSpanMax) :
    rowsLength trace (i + 1) = rowsLength trace i + (rowText trace.spans[i]).length := by
  have hlen : i < trace.spans.toList.length := by rwa [Vector.length_toList]
  rw [rowsLength, List.take_succ_eq_append_getElem hlen, List.map_append, List.sum_append,
    List.map_singleton, List.sum_singleton, Vector.getElem_toList, rowsLength]

theorem rowsLength_mono (trace : TraceRecord) : Monotone (rowsLength trace) := by
  refine monotone_nat_of_le_succ fun k => ?_
  rcases Nat.lt_or_ge k traceSpanMax with hk | hk
  · rw [rowsLength_succ hk]
    exact Nat.le_add_right _ _
  · have hlen : trace.spans.toList.length ≤ k := by rwa [Vector.length_toList]
    rw [rowsLength, rowsLength, List.take_of_length_le hlen,
      List.take_of_length_le (hlen.trans (Nat.le_succ k))]

theorem rowsLength_le (trace : TraceRecord) (k : ℕ) : rowsLength trace k ≤ 256 * k := by
  have hrows := List.sum_le_card_nsmul
    ((trace.spans.toList.take k).map fun span => (rowText span).length) 256 (by
      intro n hn
      obtain ⟨span, -, rfl⟩ := List.mem_map.mp hn
      exact (length_rowText_lt span).le)
  rw [List.length_map, nsmul_eq_mul, Nat.cast_id] at hrows
  have hlen := List.length_take_le k trace.spans.toList
  unfold rowsLength
  omega

theorem renderRounds_of_lt (hi : i < traceSpanMax) (hroom : written < size - 256) (rounds : ℕ) :
    (renderRounds trace size (rounds + 1) i written).StaysInside size ↔
      (∀ w ∈ snprintfWrites written.toNat (size - written).toNat
          (rowText trace.spans[i]).length, w.1 + w.2 ≤ size.toNat) ∧
        (renderRounds trace size rounds (i + 1)
          (written + UInt32.ofNat (rowText trace.spans[i]).length)).StaysInside size := by
  have hspan : trace.spans[i]? = some trace.spans[i] := Vector.getElem?_eq_getElem hi
  rw [renderRounds, if_pos hroom, hspan]
  constructor
  · rintro ⟨hreads, hwrites, hwritten⟩
    exact ⟨fun w hw => hwrites w (List.mem_append_left _ hw),
      fun j hj => hreads j (List.mem_cons_of_mem _ hj),
      fun w hw => hwrites w (List.mem_append_right _ hw), hwritten⟩
  · rintro ⟨hrow, hreads, hwrites, hwritten⟩
    refine ⟨fun j hj => ?_, fun w hw => ?_, hwritten⟩
    · rcases List.mem_cons.mp hj with rfl | hj
      · exact hi
      · exact hreads j hj
    · exact (List.mem_append.mp hw).elim (hrow w) (hwrites w)

theorem not_staysInside_of_le (hi : traceSpanMax ≤ i) (hroom : written < size - 256)
    (rounds : ℕ) : ¬(renderRounds trace size (rounds + 1) i written).StaysInside size := by
  have hspan : trace.spans[i]? = none := Vector.getElem?_eq_none hi
  rw [renderRounds, if_pos hroom, hspan]
  exact fun h => (h.reads i (List.mem_singleton_self i)).not_ge hi

theorem staysInside_of_full (hroom : ¬written < size - 256) (hwritten : written ≤ size)
    (rounds : ℕ) : (renderRounds trace size rounds i written).StaysInside size := by
  have hend : renderRounds trace size rounds i written = ⟨[], [], written⟩ := by
    cases rounds with
    | zero => rfl
    | succ rounds => rw [renderRounds, if_neg hroom]
  rw [hend]
  exact ⟨List.forall_mem_nil _, List.forall_mem_nil _, hwritten⟩

theorem toNat_add_rowText (hwritten : written.toNat = rowsLength trace i)
    (hi : i < traceSpanMax) :
    (written + UInt32.ofNat (rowText trace.spans[i]).length).toNat = rowsLength trace (i + 1) := by
  have hrows := rowsLength_le trace (i + 1)
  rw [rowsLength_succ hi] at hrows ⊢
  have hmax : traceSpanMax = 16 := rfl
  have hlen : (UInt32.ofNat (rowText trace.spans[i]).length).toNat =
      (rowText trace.spans[i]).length :=
    UInt32.toNat_ofNat_of_lt' (by have : UInt32.size = 2 ^ 32 := rfl; omega)
  rw [UInt32.toNat_add, hlen, hwritten, Nat.mod_eq_of_lt (by omega)]

theorem snprintfWrites_le {n len : ℕ} (hn : written.toNat + n ≤ size.toNat) :
    ∀ w ∈ snprintfWrites written.toNat n len, w.1 + w.2 ≤ size.toNat := by
  unfold snprintfWrites
  split_ifs with hzero
  · exact List.forall_mem_nil _
  · refine List.forall_mem_singleton.mpr ?_
    dsimp only
    omega

theorem toNat_sub_written (hle : written ≤ size) :
    written.toNat + (size - written).toNat = size.toNat := by
  rw [UInt32.toNat_sub_of_le _ _ hle]
  rw [UInt32.le_iff_toNat_le] at hle
  omega

/-- With a buffer of at least the reserve, the rounds stay inside when they are as many as
the spans or the rows of all spans reach the reserve. -/
theorem staysInside_iff_of_le (hsize : 256 ≤ size) {rounds : ℕ} (hi : i ≤ traceSpanMax)
    (hle : written ≤ size) (hwritten : written.toNat = rowsLength trace i) :
    (renderRounds trace size rounds i written).StaysInside size ↔
      i + rounds ≤ traceSpanMax ∨ size.toNat - 256 ≤ rowsLength trace traceSpanMax := by
  have hreserve : (size - 256).toNat = size.toNat - 256 := UInt32.toNat_sub_of_le _ _ hsize
  have hsize' : 256 ≤ size.toNat := UInt32.le_iff_toNat_le.mp hsize
  induction rounds generalizing i written with
  | zero =>
      exact iff_of_true ⟨List.forall_mem_nil _, List.forall_mem_nil _, hle⟩ (.inl hi)
  | succ rounds ih =>
      have hround : i + (rounds + 1) = i + 1 + rounds := by omega
      have hmono := rowsLength_mono trace hi
      by_cases hroom : written < size - 256
      · have hroom' := UInt32.lt_iff_toNat_lt.mp hroom
        rcases hi.lt_or_eq with hlt | rfl
        · have hnext := toNat_add_rowText hwritten hlt
          have hrow := length_rowText_lt trace.spans[i]
          have hle' : written + UInt32.ofNat (rowText trace.spans[i]).length ≤ size := by
            rw [UInt32.le_iff_toNat_le, hnext, rowsLength_succ hlt]
            omega
          rw [renderRounds_of_lt hlt hroom, hround,
            and_iff_right (snprintfWrites_le (toNat_sub_written hle).le)]
          exact ih hlt hle' hnext
        · refine iff_of_false (not_staysInside_of_le le_rfl hroom rounds) ?_
          omega
      · rw [UInt32.lt_iff_toNat_lt] at hroom
        refine iff_of_true (staysInside_of_full ?_ hle _) (.inr (by omega))
        rwa [UInt32.lt_iff_toNat_lt]

/-- With a smaller buffer, all spans are to exist and their rows are to fit. -/
theorem staysInside_iff_of_lt (hsize : size < 256) {rounds : ℕ} (hi : i ≤ traceSpanMax)
    (hwritten : written.toNat = rowsLength trace i) :
    (renderRounds trace size rounds i written).StaysInside size ↔
      i + rounds ≤ traceSpanMax ∧ rowsLength trace (i + rounds) ≤ size.toNat := by
  have hmax : traceSpanMax = 16 := rfl
  have hsize' : size.toNat < 256 := UInt32.lt_iff_toNat_lt.mp hsize
  have hreserve : (size - 256).toNat = size.toNat + 2 ^ 32 - 256 := by
    have h256 : (256 : UInt32).toNat = 256 := rfl
    rw [UInt32.toNat_sub, h256]
    omega
  induction rounds generalizing i written with
  | zero =>
      rw [Nat.add_zero, and_iff_right hi, ← hwritten, ← UInt32.le_iff_toNat_le]
      exact ⟨fun h => h.written, fun hle => ⟨List.forall_mem_nil _, List.forall_mem_nil _, hle⟩⟩
  | succ rounds ih =>
      have hround : i + (rounds + 1) = i + 1 + rounds := by omega
      have hroom : written < size - 256 := by
        have hrows := rowsLength_le trace i
        rw [UInt32.lt_iff_toNat_lt, hreserve]
        omega
      rcases hi.lt_or_eq with hlt | rfl
      · have hnext := toNat_add_rowText hwritten hlt
        rw [renderRounds_of_lt hlt hroom, hround]
        refine (and_congr_right' (ih hlt hnext)).trans (and_iff_right_of_imp fun hfits => ?_)
        refine snprintfWrites_le (toNat_sub_written ?_).le
        rw [UInt32.le_iff_toNat_le, hwritten]
        exact (rowsLength_mono trace (by omega)).trans hfits.2
      · refine iff_of_false (not_staysInside_of_le le_rfl hroom rounds) ?_
        omega

end Rounds

/-- The renderer stays inside its buffer exactly when, with at least the reserve, the spans
exist or the rows of the existing ones reach the reserve, and with less, the spans exist and
their rows fit. -/
theorem staysInside_iff (trace : TraceRecord) (size : UInt32) :
    (traceRenderWaterfall trace size).StaysInside size ↔
      if 256 ≤ size then trace.spanCount.toNat ≤ traceSpanMax ∨
        size.toNat - 256 ≤ rowsLength trace traceSpanMax
      else trace.spanCount.toNat ≤ traceSpanMax ∧
        rowsLength trace trace.spanCount.toNat ≤ size.toNat := by
  have hzero : (0 : UInt32).toNat = rowsLength trace 0 := rfl
  unfold traceRenderWaterfall
  split_ifs with hsize
  · rw [staysInside_iff_of_le hsize (Nat.zero_le _) UInt32.zero_le hzero, Nat.zero_add]
  · rw [staysInside_iff_of_lt (UInt32.not_le.mp hsize) (Nat.zero_le _) hzero, Nat.zero_add]

def longSpan : TraceSpan where
  component := List.replicate 15 97 ++ [0]
  enterUs := 0
  exitUs := 1500
  status := 0
  annotation := List.replicate 63 98 ++ [0]
  length_component := by decide
  length_annotation := by decide

/-- Two rows of such spans do not fit into 100 bytes. -/
theorem not_staysInside_longSpan :
    ¬∀ (trace : TraceRecord) (size : UInt32),
      (traceRenderWaterfall trace size).StaysInside size := by
  intro hlaw
  have hinside := hlaw ⟨2, Vector.replicate traceSpanMax longSpan⟩ 100
  rw [traceRenderWaterfall, staysInside_iff_of_lt (by decide) (Nat.zero_le _) rfl] at hinside
  have hrow : 78 ≤ (rowText longSpan).length := length_rowText_ge longSpan
  have hrows : rowsLength ⟨2, Vector.replicate traceSpanMax longSpan⟩ 2 =
      (rowText longSpan).length + (rowText longSpan).length := rfl
  have hfits : rowsLength ⟨2, Vector.replicate traceSpanMax longSpan⟩ 2 ≤ 100 := hinside.2
  omega

end Monitoring

end Shinigami
