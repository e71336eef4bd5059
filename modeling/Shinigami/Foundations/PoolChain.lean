import Mathlib.Data.List.Basic
import Mathlib.Logic.Function.Basic

/-!
# Chains in a node pool

Singly linked lists whose nodes live in a pool and point at each other by pool
index. `Chain pool b link l` says that following `link` visits the values `l`
and reaches the end of the list, and that the visited nodes have decreasing
indices below `b`: this is the shape a bump allocator produces when it inserts
at the head, and it is what makes a walk end. A walk with fuel `b` is therefore
a complete walk, which is `find?_eq_of_chain`.
-/

namespace Shinigami

namespace PoolChain

structure Node (α : Type*) where
  val : α
  next : Option ℕ

/-- Following `link` visits the values `l` and ends; the visited nodes have
decreasing indices below `b`. -/
inductive Chain {α : Type*} (pool : ℕ → Node α) : ℕ → Option ℕ → List α → Prop
  | nil (b : ℕ) : Chain pool b none []
  | cons {b p : ℕ} {l : List α} (hp : p < b)
      (tail : Chain pool p (pool p).next l) :
      Chain pool b (some p) ((pool p).val :: l)

/-- The first value of a list that passes the test, walking at most `fuel`
nodes. -/
def find? {α : Type*} (pool : ℕ → Node α) (test : α → Bool) :
    ℕ → Option ℕ → Option α
  | 0, _ => none
  | _ + 1, none => none
  | fuel + 1, some p =>
      if test (pool p).val then some (pool p).val
      else find? pool test fuel (pool p).next

/-- The place a link is stored in: the head of the list or the `next` field of
a node. -/
inductive Cursor
  | head
  | node (p : ℕ)

/-- The walk that unlinks the first node passing the test. The cursor is the
pointer to the link under inspection; the result is the pool and the head. -/
def unlink {α : Type*} (pool : ℕ → Node α) (head : Option ℕ) (test : α → Bool) :
    ℕ → Cursor → (ℕ → Node α) × Option ℕ
  | 0, _ => (pool, head)
  | fuel + 1, cur =>
      let link := match cur with
        | .head => head
        | .node q => (pool q).next
      match link with
      | none => (pool, head)
      | some p =>
          if test (pool p).val then
            match cur with
            | .head => (pool, (pool p).next)
            | .node q =>
                (Function.update pool q { pool q with next := (pool p).next },
                  head)
          else unlink pool head test fuel (.node p)

variable {α : Type*} {pool pool' : ℕ → Node α}

theorem Chain.mono {b b' : ℕ} {link : Option ℕ} {l : List α}
    (h : Chain pool b link l) (hb : b ≤ b') : Chain pool b' link l := by
  cases h with
  | nil => exact .nil b'
  | cons hp tail => exact .cons (Nat.lt_of_lt_of_le hp hb) tail

theorem Chain.congr {b : ℕ} {link : Option ℕ} {l : List α}
    (h : Chain pool b link l) (hpool : ∀ p < b, pool' p = pool p) :
    Chain pool' b link l := by
  induction h with
  | nil b => exact .nil b
  | @cons b p l hp tail ih =>
      have htail := ih fun q hq => hpool q (Nat.lt_trans hq hp)
      rw [← hpool p hp] at htail ⊢
      exact .cons hp htail

theorem Chain.insert {b : ℕ} {link : Option ℕ} {l : List α} (v : α)
    (h : Chain pool b link l) :
    Chain (Function.update pool b ⟨v, link⟩) (b + 1) (some b) (v :: l) := by
  have htail : Chain (Function.update pool b ⟨v, link⟩) b link l := by
    apply h.congr
    intro p hp
    rw [Function.update_of_ne (Nat.ne_of_lt hp)]
  have hnode : Function.update pool b (⟨v, link⟩ : Node α) b = ⟨v, link⟩ := by
    simp
  have hcons : Chain (Function.update pool b ⟨v, link⟩) (b + 1) (some b)
      ((Function.update pool b ⟨v, link⟩ b).val :: l) :=
    .cons (Nat.lt_succ_self b) (by rw [hnode]; exact htail)
  rwa [hnode] at hcons

theorem Chain.update {b : ℕ} {link : Option ℕ} {l : List α} (node : Node α)
    (h : Chain pool b link l) :
    Chain (Function.update pool b node) (b + 1) link l := by
  refine (h.congr ?_).mono (Nat.le_succ b)
  intro p hp
  rw [Function.update_of_ne (Nat.ne_of_lt hp)]

/-- A walk whose fuel is the bound of the chain looks at the whole chain. -/
theorem find?_eq_of_chain {b fuel : ℕ} {link : Option ℕ} {l : List α}
    (h : Chain pool b link l) (test : α → Bool) (hfuel : b ≤ fuel) :
    find? pool test fuel link = l.find? test := by
  induction h generalizing fuel with
  | nil b => cases fuel <;> rfl
  | @cons b p l hp tail ih =>
      obtain _ | fuel := fuel
      · omega
      · by_cases ht : test (pool p).val = true
        · simp [find?, ht]
        · simp only [find?, ht, Bool.false_eq_true, if_false]
          rw [List.find?_cons_of_neg ht]
          exact ih (by omega)

end PoolChain

end Shinigami
