import Mathlib.Data.List.Basic

/-!
# Byte streams as their two ends see them

A reader sees a stream as a list of arrivals: fragments, interrupted calls,
timeouts, and an end or an error. `bytesOf` is the content of such a list and
`timeouts` lists how many bytes stand in front of each timeout. `Consumed as got rest`
says that reading `got` from the arrivals `as` has left `rest`; the timeouts on the
way lie inside `got`. A writer sees a list of `Room`s, one for each call.
-/

namespace Shinigami

namespace ByteStream

variable {α : Type*}

/-- What a read of the stream meets next. A fragment is not empty. -/
inductive Arrival (α : Type*) where
  | data (b : α) (bs : List α)
  | interrupted
  | again
  | closed
  | failed
deriving DecidableEq

/-- What a write meets next; room for `k` bytes and one more. -/
inductive Room where
  | accepts (k : ℕ)
  | interrupted
  | failed
deriving DecidableEq

/-- The bytes of the fragments. -/
def bytesOf : List (Arrival α) → List α
  | [] => []
  | .data b bs :: as => b :: bs ++ bytesOf as
  | _ :: as => bytesOf as

/-- How many bytes have arrived at each timeout, after `pos` bytes before. -/
def timeouts : ℕ → List (Arrival α) → List ℕ
  | _, [] => []
  | pos, .data _ bs :: as => timeouts (pos + (bs.length + 1)) as
  | pos, .again :: as => pos :: timeouts pos as
  | pos, _ :: as => timeouts pos as

def AllOpen (as : List (Arrival α)) : Prop := ∀ a ∈ as, a ≠ .closed ∧ a ≠ .failed

/-- How many calls find room. -/
def accepted : List Room → ℕ
  | [] => 0
  | .accepts _ :: rooms => accepted rooms + 1
  | _ :: rooms => accepted rooms

@[simp] theorem bytesOf_nil : bytesOf ([] : List (Arrival α)) = [] := rfl

@[simp] theorem bytesOf_data (b : α) (bs : List α) (as : List (Arrival α)) :
    bytesOf (.data b bs :: as) = b :: bs ++ bytesOf as := rfl

@[simp] theorem timeouts_data (pos : ℕ) (b : α) (bs : List α) (as : List (Arrival α)) :
    timeouts pos (.data b bs :: as) = timeouts (pos + (bs.length + 1)) as := rfl

@[simp] theorem timeouts_again (pos : ℕ) (as : List (Arrival α)) :
    timeouts pos (.again :: as) = pos :: timeouts pos as := rfl

theorem AllOpen.tail {a : Arrival α} {as : List (Arrival α)} (h : AllOpen (a :: as)) :
    AllOpen as :=
  fun a' h' => h a' (List.mem_cons_of_mem a h')

theorem AllOpen.cons_data {as : List (Arrival α)} (h : AllOpen as) (b : α) (bs : List α) :
    AllOpen (.data b bs :: as) := by
  intro a ha
  rcases List.mem_cons.mp ha with rfl | ha
  · exact ⟨nofun, nofun⟩
  · exact h a ha

theorem le_of_mem_timeouts {pos p : ℕ} {as : List (Arrival α)} (h : p ∈ timeouts pos as) :
    pos ≤ p := by
  induction as generalizing pos with
  | nil => cases h
  | cons a as ih =>
      cases a with
      | data b bs =>
          rw [timeouts_data] at h
          exact Nat.le_trans (Nat.le_add_right _ _) (ih h)
      | again =>
          rw [timeouts_again, List.mem_cons] at h
          rcases h with rfl | h
          · exact Nat.le_refl _
          · exact ih h
      | interrupted => exact ih h
      | closed => exact ih h
      | failed => exact ih h

theorem not_mem_timeouts_data (pos : ℕ) (b : α) (bs : List α) (as : List (Arrival α)) :
    pos ∉ timeouts pos (.data b bs :: as) := by
  intro h
  rw [timeouts_data] at h
  have hle := le_of_mem_timeouts h
  omega

theorem timeouts_eq_nil {as : List (Arrival α)} (h : Arrival.again ∉ as) (pos : ℕ) :
    timeouts pos as = [] := by
  induction as generalizing pos with
  | nil => rfl
  | cons a as ih =>
      have htail : Arrival.again ∉ as := fun hmem => h (List.mem_cons_of_mem a hmem)
      cases a with
      | again => exact absurd (List.mem_cons_self ..) h
      | data b bs => exact ih htail _
      | interrupted => exact ih htail pos
      | closed => exact ih htail pos
      | failed => exact ih htail pos

/-- Reading `got` from the arrivals `as` has left `rest`. -/
structure Consumed (as : List (Arrival α)) (got : List α) (rest : List (Arrival α)) :
    Prop where
  bytesOf_eq : bytesOf as = got ++ bytesOf rest
  timeouts_eq : ∀ pos, ∃ passed, timeouts pos as = passed ++ timeouts (pos + got.length) rest ∧
    ∀ p ∈ passed, p < pos + got.length
  open_rest : AllOpen as → AllOpen rest

namespace Consumed

variable {as rest : List (Arrival α)} {got : List α}

theorem refl (as : List (Arrival α)) : Consumed as [] as where
  bytesOf_eq := rfl
  timeouts_eq _ := ⟨[], rfl, nofun⟩
  open_rest h := h

theorem data (h : Consumed as got rest) (b : α) (bs : List α) :
    Consumed (.data b bs :: as) (b :: bs ++ got) rest where
  bytesOf_eq := by rw [bytesOf_data, h.bytesOf_eq, List.append_assoc]
  timeouts_eq pos := by
    obtain ⟨passed, heq, hlt⟩ := h.timeouts_eq (pos + (bs.length + 1))
    have hpos : pos + (b :: bs ++ got).length = pos + (bs.length + 1) + got.length := by
      rw [List.length_append, List.length_cons]
      omega
    exact ⟨passed, by rw [timeouts_data, heq, hpos], fun p hp => hpos ▸ hlt p hp⟩
  open_rest hopen := h.open_rest hopen.tail

theorem split {b c : α} {bs cs : List α} (hsplit : b :: bs = got ++ c :: cs)
    (as : List (Arrival α)) : Consumed (.data b bs :: as) got (.data c cs :: as) where
  bytesOf_eq := by rw [bytesOf_data, bytesOf_data, hsplit, List.append_assoc]
  timeouts_eq pos := by
    have hlen : bs.length + 1 = got.length + (cs.length + 1) := by
      simpa using congrArg List.length hsplit
    refine ⟨[], ?_, nofun⟩
    rw [timeouts_data, timeouts_data, hlen, List.nil_append, Nat.add_assoc]
  open_rest hopen := hopen.tail.cons_data c cs

theorem interrupted (h : Consumed as got rest) : Consumed (.interrupted :: as) got rest where
  bytesOf_eq := h.bytesOf_eq
  timeouts_eq := h.timeouts_eq
  open_rest hopen := h.open_rest hopen.tail

theorem again (h : Consumed as got rest) (hgot : got ≠ []) :
    Consumed (.again :: as) got rest where
  bytesOf_eq := h.bytesOf_eq
  timeouts_eq pos := by
    obtain ⟨passed, heq, hlt⟩ := h.timeouts_eq pos
    refine ⟨pos :: passed, by rw [timeouts_again, heq, List.cons_append], fun p hp => ?_⟩
    rcases List.mem_cons.mp hp with rfl | hp
    · exact Nat.lt_add_of_pos_right (List.length_pos_iff.mpr hgot)
    · exact hlt p hp
  open_rest hopen := h.open_rest hopen.tail

theorem trans {mid : List (Arrival α)} {got' : List α} (h : Consumed as got mid)
    (h' : Consumed mid got' rest) : Consumed as (got ++ got') rest where
  bytesOf_eq := by rw [h.bytesOf_eq, h'.bytesOf_eq, List.append_assoc]
  timeouts_eq pos := by
    obtain ⟨passed, heq, hlt⟩ := h.timeouts_eq pos
    obtain ⟨passed', heq', hlt'⟩ := h'.timeouts_eq (pos + got.length)
    have hpos : pos + (got ++ got').length = pos + got.length + got'.length := by
      rw [List.length_append, Nat.add_assoc]
    refine ⟨passed ++ passed', by rw [heq, heq', hpos, List.append_assoc], fun p hp => ?_⟩
    rw [hpos]
    rcases List.mem_append.mp hp with hp | hp
    · exact Nat.lt_add_right _ (hlt p hp)
    · exact hlt' p hp
  open_rest hopen := h'.open_rest (h.open_rest hopen)

end Consumed

end ByteStream

end Shinigami
