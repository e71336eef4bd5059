import Mathlib.Data.List.Basic

/-!
# Walking through the lines of a text

A text is read line by line up to a position: `walk` is the loop that looks for the end of
the line it is at, hands the line to its body and goes on behind it. Its rules are that it
ends (`exists_walk_eq_some`), that an invariant of the body is one of the loop
(`walk_invariant`), and that its result is a fold over the lines that start in front of the
position (`walk_eq_foldl`). A position at which a text has an empty line cuts the text
between two of its lines (`exists_blank_of_break`).
-/

namespace Shinigami

namespace TextLines

variable {α : Type*} [DecidableEq α]

/-- The position of the first `c`. -/
def findChar (c : α) (s : List α) : Option ℕ :=
  if c ∈ s then some (s.takeWhile (· ≠ c)).length else none

def findPattern (pat : List α) : List α → Option ℕ
  | [] => if pat = [] then some 0 else none
  | c :: s => if pat <+: c :: s then some 0 else (findPattern pat s).map (· + 1)

def linesWithin : ℕ → List (List α) → List (List α)
  | _, [] => []
  | d, l :: ls => if d = 0 then [] else l :: linesWithin (d - (l.length + 1)) ls

/-- The loop over the lines that start in front of `stop`: the body gets the positions of
the line and of its end. -/
def walk {σ : Type*} (nl : α) (text : List α) (stop : ℕ) (body : ℕ → ℕ → σ → σ) :
    ℕ → ℕ → σ → Option σ
  | 0, _, _ => none
  | fuel + 1, current, st =>
      if current < stop then
        match findChar nl (text.drop current) with
        | none => some st
        | some n => walk nl text stop body fuel (current + n + 1) (body current (current + n) st)
      else some st

theorem lines_induction (nl : α) {P : List α → Prop} (last : ∀ s, nl ∉ s → P s)
    (line : ∀ l rest, nl ∉ l → P rest → P (l ++ nl :: rest)) (s : List α) : P s := by
  by_cases hmem : nl ∈ s
  · obtain ⟨l, rest, hs, hl⟩ := List.eq_append_cons_of_mem hmem
    rw [hs]
    exact line l rest hl (lines_induction nl last line rest)
  · exact last s hmem
termination_by s.length
decreasing_by
  rw [hs, List.length_append, List.length_cons]
  omega

theorem findChar_line {nl : α} {l : List α} (hl : nl ∉ l) (rest : List α) :
    findChar nl (l ++ nl :: rest) = some l.length := by
  have hall : ∀ c ∈ l, decide (c ≠ nl) = true := by
    intro c hc
    simpa using fun heq : c = nl => hl (heq ▸ hc)
  rw [findChar, if_pos (by simp), List.takeWhile_append_of_pos hall]
  simp

theorem findChar_eq_none {nl : α} {s : List α} (h : nl ∉ s) : findChar nl s = none := if_neg h

theorem exists_line_of_findChar {nl : α} {s : List α} {n : ℕ} (h : findChar nl s = some n) :
    ∃ l rest, s = l ++ nl :: rest ∧ nl ∉ l ∧ l.length = n := by
  by_cases hmem : nl ∈ s
  · obtain ⟨l, rest, rfl, hl⟩ := List.eq_append_cons_of_mem hmem
    rw [findChar_line hl] at h
    exact ⟨l, rest, rfl, hl, Option.some.inj h⟩
  · rw [findChar_eq_none hmem] at h
    cases h

theorem prefix_drop_of_findPattern {pat s : List α} {d : ℕ} (h : findPattern pat s = some d) :
    pat <+: s.drop d := by
  induction s generalizing d with
  | nil =>
      unfold findPattern at h
      split at h
      · rename_i hpat
        rw [hpat]
        exact List.nil_prefix
      · cases h
  | cons c s ih =>
      unfold findPattern at h
      split at h
      · rename_i hpat
        cases h
        exact hpat
      · obtain ⟨d', hd', rfl⟩ := Option.map_eq_some_iff.mp h
        exact ih hd'

theorem splitOn_line {nl : α} {l : List α} (hl : nl ∉ l) (rest : List α) :
    (l ++ nl :: rest).splitOn nl = l :: rest.splitOn nl :=
  List.splitOn_append_cons_self_of_not_mem hl rest

theorem splitOn_flatMap_lines {nl : α} {lines : List (List α)} (hlines : ∀ l ∈ lines, nl ∉ l)
    (rest : List α) :
    (lines.flatMap (· ++ [nl]) ++ rest).splitOn nl = lines ++ rest.splitOn nl := by
  induction lines with
  | nil => rfl
  | cons l lines ih =>
      rw [List.flatMap_cons, List.append_assoc, List.append_assoc, List.singleton_append,
        splitOn_line (hlines l (by simp)), ih fun l' hl' => hlines l' (by simp [hl']),
        List.cons_append]

omit [DecidableEq α] in
@[simp] theorem linesWithin_zero (ls : List (List α)) : linesWithin 0 ls = [] := by
  cases ls <;> rfl

omit [DecidableEq α] in
theorem linesWithin_pos {d : ℕ} (hd : 0 < d) (l : List α) (ls : List (List α)) :
    linesWithin d (l :: ls) = l :: linesWithin (d - (l.length + 1)) ls :=
  if_neg (Nat.ne_of_gt hd)

/-- The text has an empty line at the position: two line ends, or two line ends with a
carriage return in front of each. -/
def BreaksAt (nl cr : α) (s : List α) (d : ℕ) : Prop :=
  [cr, nl, cr, nl] <+: s.drop d ∨ [nl, nl] <+: s.drop d

def Blank (cr : α) (l : List α) : Prop := l = [] ∨ l = [cr]

instance (cr : α) : DecidablePred (Blank cr) := fun _ => inferInstanceAs (Decidable (_ ∨ _))

omit [DecidableEq α] in
theorem line_of_prefix {nl c : α} {l rest pat : List α} (hl : nl ∉ l)
    (h : c :: pat <+: l ++ nl :: rest) :
    (c = nl ∧ l = [] ∧ pat <+: rest) ∨ (c ≠ nl ∧ ∃ l', l = c :: l' ∧ pat <+: l' ++ nl :: rest) := by
  cases l with
  | nil =>
      obtain ⟨rfl, hpat⟩ := List.cons_prefix_cons.mp h
      exact Or.inl ⟨rfl, rfl, hpat⟩
  | cons b l' =>
      obtain ⟨rfl, hpat⟩ := List.cons_prefix_cons.mp h
      exact Or.inr ⟨fun heq => hl (by simp [heq]), l', rfl, hpat⟩

theorem blank_of_breaksAt_zero {nl cr : α} (hne : cr ≠ nl) {s : List α}
    (h : BreaksAt nl cr s 0) : ∃ blank more, s.splitOn nl = blank :: more ∧ Blank cr blank := by
  rcases h with ⟨more, hs⟩ | ⟨more, hs⟩
  · rw [List.drop_zero] at hs
    have hcr : nl ∉ [cr] := by simpa using hne.symm
    rw [← hs]
    exact ⟨[cr], _, splitOn_line hcr ([cr, nl] ++ more), Or.inr rfl⟩
  · rw [List.drop_zero] at hs
    rw [← hs]
    exact ⟨[], _, splitOn_line List.not_mem_nil ([nl] ++ more), Or.inl rfl⟩

/-- An empty line that is found at a position behind the start of a line follows a line that
reaches to it. -/
theorem breaksAt_line {nl cr : α} (hne : cr ≠ nl) {l rest : List α} (hl : nl ∉ l) {d : ℕ}
    (hd : d ≤ l.length) (h : BreaksAt nl cr (l ++ nl :: rest) d) :
    ∃ blank more, rest.splitOn nl = blank :: more ∧ Blank cr blank := by
  have hdrop : (l ++ nl :: rest).drop d = l.drop d ++ nl :: rest :=
    List.drop_append_of_le_length hd
  have hmem : nl ∉ l.drop d := fun hmem => hl (List.mem_of_mem_drop hmem)
  rw [BreaksAt, hdrop] at h
  rcases h with h | h
  · obtain ⟨heq, -⟩ | ⟨-, l', hl', h⟩ := line_of_prefix hmem h
    · exact absurd heq hne
    · rw [hl'] at hmem
      have hmem' : nl ∉ l' := fun hm => hmem (List.mem_cons_of_mem _ hm)
      obtain ⟨-, -, ⟨more, h⟩⟩ | ⟨hfalse, -⟩ := line_of_prefix hmem' h
      · have hcr : nl ∉ [cr] := by simpa using hne.symm
        rw [← h]
        exact ⟨[cr], _, splitOn_line hcr more, Or.inr rfl⟩
      · exact absurd rfl hfalse
  · obtain ⟨-, -, ⟨more, h⟩⟩ | ⟨hfalse, -⟩ := line_of_prefix hmem h
    · rw [← h]
      exact ⟨[], _, splitOn_line List.not_mem_nil more, Or.inl rfl⟩
    · exact absurd rfl hfalse

theorem exists_blank_of_break {nl cr : α} (hne : cr ≠ nl) {s : List α} {d : ℕ}
    (h : BreaksAt nl cr s d) :
    ∃ blank more, s.splitOn nl = linesWithin d (s.splitOn nl) ++ blank :: more ∧
      Blank cr blank := by
  induction s using lines_induction nl generalizing d with
  | last s hs =>
      have hmem : nl ∈ s.drop d := by
        rcases h with h | h
        · exact h.subset (by simp)
        · exact h.subset (by simp)
      exact absurd (List.mem_of_mem_drop hmem) hs
  | line l rest hl ih =>
      rw [splitOn_line hl]
      by_cases hzero : d = 0
      · subst hzero
        obtain ⟨blank, more, hsplit, hblank⟩ := blank_of_breaksAt_zero hne h
        rw [splitOn_line hl] at hsplit
        exact ⟨blank, more, by rw [hsplit, linesWithin_zero, List.nil_append], hblank⟩
      · rw [linesWithin_pos (by omega)]
        by_cases hd : d ≤ l.length
        · obtain ⟨blank, more, hsplit, hblank⟩ := breaksAt_line hne hl hd h
          refine ⟨blank, more, ?_, hblank⟩
          rw [Nat.sub_eq_zero_of_le (by omega), linesWithin_zero, hsplit]
          rfl
        · have hrest : BreaksAt nl cr rest (d - (l.length + 1)) := by
            have hdrop : (l ++ nl :: rest).drop d = rest.drop (d - (l.length + 1)) := by
              have hsub : d - l.length = d - (l.length + 1) + 1 := by omega
              rw [List.drop_append, List.drop_eq_nil_of_le (by omega), List.nil_append, hsub,
                List.drop_succ_cons]
            rwa [BreaksAt, hdrop] at h
          obtain ⟨blank, more, hsplit, hblank⟩ := ih hrest
          exact ⟨blank, more, by rw [List.cons_append, ← hsplit], hblank⟩

section Walk

variable {σ : Type*} {nl : α} {text : List α} {stop : ℕ} {body : ℕ → ℕ → σ → σ}

omit [DecidableEq α] in
theorem drop_line {current : ℕ} {l rest : List α} (h : text.drop current = l ++ nl :: rest) :
    text.drop (current + l.length + 1) = rest ∧ current + l.length < text.length := by
  have hlen := congrArg List.length h
  rw [List.length_drop, List.length_append, List.length_cons] at hlen
  refine ⟨?_, by omega⟩
  rw [Nat.add_assoc, ← List.drop_drop, h, List.drop_append, List.drop_eq_nil_of_le (by omega)]
  simp

theorem exists_walk_eq_some {fuel current : ℕ} (hcurrent : current ≤ text.length)
    (hfuel : text.length < fuel + current) (st : σ) :
    ∃ st', walk nl text stop body fuel current st = some st' := by
  induction fuel generalizing current st with
  | zero => omega
  | succ fuel ih =>
      unfold walk
      split
      · cases hfind : findChar nl (text.drop current) with
        | none => exact ⟨st, rfl⟩
        | some n =>
            obtain ⟨l, rest, hline, -, rfl⟩ := exists_line_of_findChar hfind
            obtain ⟨-, hlt⟩ := drop_line hline
            exact ih (by omega) (by omega) _
      · exact ⟨st, rfl⟩

theorem walk_invariant {P : σ → Prop}
    (hbody : ∀ current l rest st, text.drop current = l ++ nl :: rest → nl ∉ l → P st →
      P (body current (current + l.length) st))
    {fuel current : ℕ} {st st' : σ} (hst : P st)
    (h : walk nl text stop body fuel current st = some st') : P st' := by
  induction fuel generalizing current st with
  | zero => cases h
  | succ fuel ih =>
      unfold walk at h
      split at h
      · cases hfind : findChar nl (text.drop current) with
        | none =>
            rw [hfind] at h
            cases h
            exact hst
        | some n =>
            rw [hfind] at h
            obtain ⟨l, rest, hline, hl, rfl⟩ := exists_line_of_findChar hfind
            exact ih (hbody current l rest st hline hl hst) h
      · cases h
        exact hst

/-- When a round changes the value `out` as its line says, the loop folds over the lines that
start in front of its end; all of them must be complete. -/
theorem walk_eq_foldl {τ : Type*} {out : σ → τ} {f : τ → List α → τ}
    (hbody : ∀ current l rest st, text.drop current = l ++ nl :: rest → nl ∉ l →
      out (body current (current + l.length) st) = f (out st) l)
    {fuel current : ℕ} {st st' : σ} {more : List (List α)} (hmore : more ≠ [])
    (hlines : (text.drop current).splitOn nl =
      linesWithin (stop - current) ((text.drop current).splitOn nl) ++ more)
    (h : walk nl text stop body fuel current st = some st') :
    out st' =
      (linesWithin (stop - current) ((text.drop current).splitOn nl)).foldl f (out st) := by
  induction fuel generalizing current st with
  | zero => cases h
  | succ fuel ih =>
      unfold walk at h
      split at h
      · rename_i hlt
        cases hfind : findChar nl (text.drop current) with
        | none =>
            have hlast : nl ∉ text.drop current := by
              intro hmem
              rw [findChar, if_pos hmem] at hfind
              cases hfind
            rw [List.splitOn_eq_singleton hlast, linesWithin_pos (by omega)] at hlines
            have hlen := congrArg List.length hlines
            have hpos := List.length_pos_iff.mpr hmore
            simp only [List.length_cons, List.length_append, List.length_nil] at hlen
            omega
        | some n =>
            rw [hfind] at h
            obtain ⟨l, rest, hline, hl, rfl⟩ := exists_line_of_findChar hfind
            obtain ⟨hdrop, -⟩ := drop_line hline
            have hstop : stop - current - (l.length + 1) =
                stop - (current + l.length + 1) := by omega
            rw [hline, splitOn_line hl, linesWithin_pos (by omega), hstop] at hlines ⊢
            rw [List.foldl_cons, ← hbody current l rest st hline hl]
            have htail : rest.splitOn nl =
                linesWithin (stop - (current + l.length + 1)) (rest.splitOn nl) ++ more :=
              List.cons_injective hlines
            rw [← hdrop] at htail ⊢
            exact ih htail h
      · rename_i hge
        cases h
        rw [Nat.sub_eq_zero_of_le (Nat.not_lt.mp hge), linesWithin_zero, List.foldl_nil]

end Walk

end TextLines

end Shinigami
