import Mathlib.Logic.Function.Iterate

/-!
# Classic packet-filter programs

A program is a list of instructions over one accumulator: loads of a word of the data,
comparisons with a constant that jump forward, and returns. `Bpf.step` is the machine with
its program counter, and `Bpf.Returns` says that a run from the start ends with a value.
Jumps only go forward, so a run is also an evaluation along the list (`Bpf.eval`), in which a
jump skips instructions; `Bpf.returns_iff` is the agreement of the two. The rules for `eval`
are those for a rule that answers one constant (`Bpf.eval_matchRule`) and for a sequence of
such rules (`Bpf.eval_matchRules`).
-/

namespace Shinigami

namespace Bpf

/-- The instructions: `BPF_LD | BPF_W | BPF_ABS`, `BPF_JMP | BPF_JEQ | BPF_K` and
`BPF_RET | BPF_K`. -/
inductive Insn
  | ldAbs (k : ℕ)
  | jeq (k : UInt32) (jt jf : ℕ)
  | ret (k : UInt32)
deriving DecidableEq

/-- The machine is at an instruction, has returned, or has left the program or the data. -/
inductive State
  | running (pc : ℕ) (acc : UInt32)
  | returned (k : UInt32)
  | fault
deriving DecidableEq

section Machine

variable (load : ℕ → Option UInt32) (p : List Insn)

/-- One instruction; a jump is relative to the next one. -/
def step : State → State
  | .running pc acc =>
      match p[pc]? with
      | none => .fault
      | some (.ldAbs k) =>
          match load k with
          | none => .fault
          | some word => .running (pc + 1) word
      | some (.jeq k jt jf) => .running (pc + 1 + if acc = k then jt else jf) acc
      | some (.ret k) => .returned k
  | s => s

/-- The program, started with a cleared accumulator, ends with the value. -/
def Returns (value : UInt32) : Prop := ∃ n, (step load p)^[n] (.running 0 0) = .returned value

/-- The value of a program without its first `skip` instructions. -/
def eval : ℕ → List Insn → UInt32 → Option UInt32
  | _, [], _ => none
  | skip + 1, _ :: rest, acc => eval skip rest acc
  | 0, .ldAbs k :: rest, _ => (load k).bind fun word => eval 0 rest word
  | 0, .jeq k jt jf :: rest, acc => eval (if acc = k then jt else jf) rest acc
  | 0, .ret k :: _, _ => some k

end Machine

section Agreement

variable {load : ℕ → Option UInt32} {p : List Insn}

def State.ofEval : Option UInt32 → State
  | some k => .returned k
  | none => .fault

theorem step_ofEval (r : Option UInt32) :
    step load p (.ofEval r) = .ofEval r := by
  cases r <;> rfl

theorem step_running_nil (pre : List Insn) (skip : ℕ) (acc : UInt32) :
    step load pre (.running (pre.length + skip) acc) = .fault := by
  have hnone : pre[pre.length + skip]? = none :=
    List.getElem?_eq_none (Nat.le_add_right _ _)
  simp only [step, hnone]

theorem step_running_append (pre rest : List Insn) (insn : Insn) (acc : UInt32) :
    step load (pre ++ insn :: rest) (.running pre.length acc) =
      match insn with
      | .ldAbs k =>
          match load k with
          | none => .fault
          | some word => .running (pre.length + 1) word
      | .jeq k jt jf => .running (pre.length + 1 + if acc = k then jt else jf) acc
      | .ret k => .returned k := by
  have hget : (pre ++ insn :: rest)[pre.length]? = some insn := by simp
  simp only [step, hget]
  cases insn <;> rfl

/-- The machine at an instruction ends as the evaluation from there says. -/
theorem exists_iterate_eq_ofEval (pre rest : List Insn) (skip : ℕ) (acc : UInt32) :
    ∃ n, (step load (pre ++ rest))^[n] (.running (pre.length + skip) acc) =
      .ofEval (eval load skip rest acc) := by
  induction rest generalizing pre skip acc with
  | nil =>
      refine ⟨1, ?_⟩
      rw [List.append_nil, Function.iterate_one, step_running_nil]
      cases skip <;> rfl
  | cons insn rest ih =>
      have hnext : pre ++ insn :: rest = (pre ++ [insn]) ++ rest := by simp
      have hlen : (pre ++ [insn]).length = pre.length + 1 := by simp
      cases skip with
      | succ skip =>
          obtain ⟨n, hn⟩ := ih (pre ++ [insn]) skip acc
          rw [hlen, ← hnext, Nat.add_assoc, Nat.add_comm 1 skip] at hn
          exact ⟨n, hn⟩
      | zero =>
          have hstep := @step_running_append load pre rest insn acc
          cases insn with
          | ldAbs k =>
              cases hload : load k with
              | none =>
                  refine ⟨1, ?_⟩
                  simpa [hload, eval, State.ofEval] using hstep
              | some word =>
                  obtain ⟨n, hn⟩ := ih (pre ++ [.ldAbs k]) 0 word
                  rw [hlen, ← hnext] at hn
                  refine ⟨n + 1, ?_⟩
                  simp only [hload] at hstep
                  rw [Function.iterate_succ_apply, Nat.add_zero, hstep]
                  simpa [eval, hload] using hn
          | jeq k jt jf =>
              obtain ⟨n, hn⟩ := ih (pre ++ [.jeq k jt jf]) (if acc = k then jt else jf) acc
              rw [hlen, ← hnext] at hn
              refine ⟨n + 1, ?_⟩
              rw [Function.iterate_succ_apply, Nat.add_zero, hstep]
              exact hn
          | ret k => exact ⟨1, hstep⟩

theorem returns_iff {value : UInt32} :
    Returns load p value ↔ eval load 0 p 0 = some value := by
  obtain ⟨n, hn⟩ := @exists_iterate_eq_ofEval load [] p 0 0
  rw [List.nil_append, List.length_nil, Nat.add_zero] at hn
  constructor
  · rintro ⟨m, hm⟩
    have hreturned : (step load p)^[n + m] (.running 0 0) = .returned value := by
      rw [Function.iterate_add_apply, hm]
      exact Function.iterate_fixed rfl n
    rw [Nat.add_comm, Function.iterate_add_apply, hn,
      Function.iterate_fixed (step_ofEval _)] at hreturned
    cases heval : eval load 0 p 0 with
    | none =>
        rw [heval] at hreturned
        cases hreturned
    | some k =>
        rw [heval] at hreturned
        cases hreturned
        rfl
  · intro heval
    rw [heval] at hn
    exact ⟨n, hn⟩

end Agreement

section Rules

variable {load : ℕ → Option UInt32}

theorem eval_ldAbs {k : ℕ} {word : UInt32} (h : load k = some word) (rest : List Insn)
    (acc : UInt32) : eval load 0 (.ldAbs k :: rest) acc = eval load 0 rest word := by
  rw [eval, h]
  rfl

theorem eval_jeq (k : UInt32) (jt jf : ℕ) (rest : List Insn) (acc : UInt32) :
    eval load 0 (.jeq k jt jf :: rest) acc =
      eval load (if acc = k then jt else jf) rest acc := rfl

def matchRule (value k : UInt32) : List Insn := [.jeq k 0 1, .ret value]

theorem eval_matchRule (value k : UInt32) (rest : List Insn) (acc : UInt32) :
    eval load 0 (matchRule value k ++ rest) acc =
      if acc = k then some value else eval load 0 rest acc := by
  by_cases h : acc = k
  · simp [matchRule, eval, h]
  · simp [matchRule, eval, h]

theorem eval_matchRules (value : UInt32) (ks : List UInt32) (rest : List Insn)
    (acc : UInt32) :
    eval load 0 (ks.flatMap (matchRule value) ++ rest) acc =
      if acc ∈ ks then some value else eval load 0 rest acc := by
  induction ks with
  | nil => simp
  | cons k ks ih =>
      rw [List.flatMap_cons, List.append_assoc, eval_matchRule, ih]
      by_cases h : acc = k
      · simp [h]
      · simp [h]

end Rules

end Bpf

end Shinigami
