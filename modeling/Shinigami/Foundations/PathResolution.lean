import Shinigami.Foundations.Run
import Shinigami.Foundations.TextLines

/-!
# Resolving paths without a file system

A path is cut at its slashes, and its components are entered one after the other, from the
root on: an empty component and a dot stay where they are, two dots go to the parent, and
any other component goes down. A directory is the list of the names that lead to it. Only
two dots can lead out of a directory (`prefix_run_enter`), so that a path below a directory
without such a component stays below it all along (`staysBelow_append`).
-/

namespace Shinigami

namespace PathResolution

variable {α : Type*} [DecidableEq α]

/-- The components of a path. -/
def components (slash : α) (path : List α) : List (List α) := path.splitOn slash

/-- The directory behind a component. -/
def enter (dot : α) (dir : List (List α)) (c : List α) : List (List α) :=
  if c = [] ∨ c = [dot] then dir
  else if c = [dot, dot] then dir.dropLast
  else dir ++ [c]

/-- Where components lead to from the root. -/
def resolve (dot : α) (cs : List (List α)) : List (List α) := run (enter dot) [] cs

/-- From the end of the components of `dir` on, every result of the resolution of `path` is
what `dir` resolves to or lies below it. -/
def StaysBelow (slash dot : α) (dir path : List α) : Prop :=
  ∀ n, (components slash dir).length ≤ n →
    resolve dot (components slash dir) <+: resolve dot ((components slash path).take n)

section Resolution

variable {slash dot : α}

theorem infix_of_mem_components {path c : List α} (hc : c ∈ components slash path) :
    c <:+: path := by
  induction path using TextLines.lines_induction slash with
  | last path hpath =>
      rw [components, List.splitOn_eq_singleton hpath, List.mem_singleton] at hc
      exact hc ▸ List.infix_rfl
  | line l rest hl ih =>
      rw [components, TextLines.splitOn_line hl, List.mem_cons] at hc
      rcases hc with rfl | hc
      · exact List.infix_append' [] c (slash :: rest)
      · have hrest : rest <:+: l ++ slash :: rest := ⟨l ++ [slash], [], by simp⟩
        exact (ih hc).trans hrest

theorem components_append (dir rest : List α) :
    components slash (dir ++ slash :: rest) =
      components slash dir ++ components slash rest :=
  List.splitOn_append_cons_self dir rest

/-- Every component but two dots stays below the directories that it starts below. -/
theorem prefix_enter {dir start : List (List α)} {c : List α} (hc : c ≠ [dot, dot])
    (h : dir <+: start) : dir <+: enter dot start c := by
  unfold enter
  split_ifs
  · exact h
  · exact h.trans (List.prefix_append start [c])

theorem prefix_run_enter {dir start : List (List α)} {cs : List (List α)}
    (hcs : ∀ c ∈ cs, c ≠ [dot, dot]) (h : dir <+: start) : dir <+: run (enter dot) start cs :=
  run_invariant (I := (dir <+: ·)) (P := (· ≠ [dot, dot])) (fun _ _ hc => prefix_enter hc) h hcs

theorem staysBelow_append {dir rest : List α} (hrest : ¬[dot, dot] <:+: rest) :
    StaysBelow slash dot dir (dir ++ slash :: rest) := by
  intro n hn
  rw [components_append, List.take_append, List.take_of_length_le hn, resolve, resolve,
    run_append]
  refine prefix_run_enter (fun c hc => ?_) List.prefix_rfl
  rintro rfl
  exact hrest (infix_of_mem_components (List.mem_of_mem_take hc))

end Resolution

end PathResolution

end Shinigami
