import Mathlib.Data.List.Basic

/-!
# Writes that come out short

A buffered stream gets items one after the other and takes a front part of each: `taken i`
says how much of the `i`-th item at most. `takeEach` is what the stream has got in the end,
and `flush` the part of it that reaches the file. The content is complete exactly when no
write came out short (`flush_takeEach_eq_flatten_iff`).
-/

namespace Shinigami

variable {α : Type*}

def takeEach (taken : ℕ → ℕ) : List (List α) → List α
  | [] => []
  | item :: items => item.take (taken 0) ++ takeEach (fun i => taken (i + 1)) items

/-- What reaches the file when the stream is closed; `none` is a complete flush. -/
def flush (stream : List α) : Option ℕ → List α
  | none => stream
  | some k => stream.take k

def TakesWhole (taken : ℕ → ℕ) (items : List (List α)) : Prop :=
  ∀ i (h : i < items.length), (items[i]).length ≤ taken i

section ShortWrites

variable {taken : ℕ → ℕ}

theorem takesWhole_cons {item : List α} {items : List (List α)} :
    TakesWhole taken (item :: items) ↔
      item.length ≤ taken 0 ∧ TakesWhole (fun i => taken (i + 1)) items := by
  constructor
  · intro h
    exact ⟨h 0 (by simp), fun i hi => h (i + 1) (by simpa using hi)⟩
  · rintro ⟨hhead, htail⟩ i hi
    cases i with
    | zero => exact hhead
    | succ i => exact htail i (by simpa using hi)

theorem length_takeEach_le (taken : ℕ → ℕ) (items : List (List α)) :
    (takeEach taken items).length ≤ items.flatten.length := by
  induction items generalizing taken with
  | nil => exact Nat.le_refl _
  | cons item items ih =>
      have htail := ih fun i => taken (i + 1)
      simp only [takeEach, List.flatten_cons, List.length_append, List.length_take]
      omega

theorem takeEach_eq_flatten_iff {items : List (List α)} :
    takeEach taken items = items.flatten ↔ TakesWhole taken items := by
  induction items generalizing taken with
  | nil => exact iff_of_true rfl fun i hi => absurd hi (Nat.not_lt_zero i)
  | cons item items ih =>
      rw [takesWhole_cons, takeEach, List.flatten_cons]
      constructor
      · intro heq
        have htail := length_takeEach_le (fun i => taken (i + 1)) items
        have hlen := congrArg List.length heq
        simp only [List.length_append, List.length_take] at hlen
        have hwhole : item.length ≤ taken 0 := by omega
        rw [List.take_of_length_le hwhole, List.append_cancel_left_eq] at heq
        exact ⟨hwhole, ih.mp heq⟩
      · rintro ⟨hhead, htail⟩
        rw [List.take_of_length_le hhead, ih.mpr htail]

theorem length_flush_le (stream : List α) (flushed : Option ℕ) :
    (flush stream flushed).length ≤ stream.length := by
  cases flushed with
  | none => exact Nat.le_refl _
  | some k =>
      rw [flush, List.length_take]
      exact Nat.min_le_right _ _

theorem flush_eq_self_iff {stream : List α} {flushed : Option ℕ} :
    flush stream flushed = stream ↔ ∀ k ∈ flushed, stream.length ≤ k := by
  cases flushed with
  | none => simp [flush]
  | some k =>
      simp only [flush, Option.mem_some_iff, forall_eq']
      constructor
      · intro heq
        have hlen := congrArg List.length heq
        rw [List.length_take] at hlen
        omega
      · exact List.take_of_length_le

/-- The file holds the items in full exactly when no write comes out short and the stream
is flushed to its end. -/
theorem flush_takeEach_eq_flatten_iff {items : List (List α)} {flushed : Option ℕ} :
    flush (takeEach taken items) flushed = items.flatten ↔
      TakesWhole taken items ∧ ∀ k ∈ flushed, items.flatten.length ≤ k := by
  constructor
  · intro heq
    -- neither step can make up for what the other one drops
    have hflush := length_flush_le (takeEach taken items) flushed
    have htake := length_takeEach_le taken items
    rw [heq] at hflush
    have hpre : takeEach taken items = items.flatten := by
      cases flushed with
      | none => exact heq
      | some k =>
          have hlen : (takeEach taken items).length ≤ k := by
            have hmin := congrArg List.length heq
            rw [flush, List.length_take] at hmin
            omega
          rwa [flush, List.take_of_length_le hlen] at heq
    rw [hpre, flush_eq_self_iff] at heq
    exact ⟨takeEach_eq_flatten_iff.mp hpre, heq⟩
  · rintro ⟨hwhole, hflushed⟩
    rw [takeEach_eq_flatten_iff.mpr hwhole, flush_eq_self_iff]
    exact hflushed

end ShortWrites

end Shinigami
