import Mathlib.Data.List.Basic

/-!
# Escaping into a buffer

A string is written character by character, each as its token: an escape pair, or the
character itself. Of the tokens only those that fit into the room that is left are written.
`fitWhile` are the characters that are written when the writer stops at the first token
without room, `fitEach` those when it passes over it and goes on. The first are always a
prefix of the string, the second only under a condition (`fitEach_prefix_iff`). A text made of
whole tokens is read back by `unescape` (`unescape_encode`).
-/

namespace Shinigami

namespace Escaping

variable {α β : Type*}

def encode (token : α → List β) (s : List α) : List β := s.flatMap token

def fitWhile (token : α → List β) : ℕ → List α → List α
  | _, [] => []
  | room, c :: s =>
      if (token c).length ≤ room then c :: fitWhile token (room - (token c).length) s
      else []

def fitEach (token : α → List β) : ℕ → List α → List α
  | _, [] => []
  | room, c :: s =>
      if (token c).length ≤ room then c :: fitEach token (room - (token c).length) s
      else fitEach token room s

section Tokens

variable (token : α → List β)

@[simp] theorem encode_nil : encode token [] = [] := rfl

@[simp] theorem encode_cons (c : α) (s : List α) :
    encode token (c :: s) = token c ++ encode token s := List.flatMap_cons

theorem decode_encode {γ : Type*} (decode : List β → Option (List γ)) (read : α → γ)
    (hnil : decode [] = some []) {s : List α}
    (hcons : ∀ c ∈ s, ∀ rest, decode (token c ++ rest) = (decode rest).map (read c :: ·)) :
    decode (encode token s) = some (s.map read) := by
  induction s with
  | nil => exact hnil
  | cons c s ih =>
      rw [encode_cons, hcons c (by simp), ih fun c' hc' => hcons c' (by simp [hc'])]
      rfl

theorem fitWhile_prefix (room : ℕ) (s : List α) : fitWhile token room s <+: s := by
  induction s generalizing room with
  | nil => exact List.prefix_rfl
  | cons c s ih =>
      unfold fitWhile
      split
      · exact (List.prefix_cons_inj c).mpr (ih _)
      · exact List.nil_prefix

theorem length_encode_fitWhile_le (room : ℕ) (s : List α) :
    (encode token (fitWhile token room s)).length ≤ room := by
  induction s generalizing room with
  | nil => exact Nat.zero_le _
  | cons c s ih =>
      unfold fitWhile
      split
      · rename_i hfits
        have hrest := ih (room - (token c).length)
        rw [encode_cons, List.length_append]
        omega
      · exact Nat.zero_le _

theorem fitWhile_eq_self {room : ℕ} {s : List α} (h : (encode token s).length ≤ room) :
    fitWhile token room s = s := by
  induction s generalizing room with
  | nil => rfl
  | cons c s ih =>
      rw [encode_cons, List.length_append] at h
      rw [fitWhile, if_pos (by omega), ih (by omega)]

theorem length_encode_fitEach_le (room : ℕ) (s : List α) :
    (encode token (fitEach token room s)).length ≤ room := by
  induction s generalizing room with
  | nil => exact Nat.zero_le _
  | cons c s ih =>
      unfold fitEach
      split
      · rename_i hfits
        have hrest := ih (room - (token c).length)
        rw [encode_cons, List.length_append]
        omega
      · exact ih room

theorem fitEach_sublist (room : ℕ) (s : List α) : (fitEach token room s).Sublist s := by
  induction s generalizing room with
  | nil => exact List.Sublist.refl _
  | cons c s ih =>
      unfold fitEach
      split
      · exact (ih _).cons_cons c
      · exact (ih _).cons c

theorem fitEach_eq_nil_iff {room : ℕ} {s : List α} :
    fitEach token room s = [] ↔ ∀ c ∈ s, room < (token c).length := by
  induction s with
  | nil => simp [fitEach]
  | cons c s ih =>
      unfold fitEach
      split
      · rename_i hfits
        simp [Nat.not_lt.mpr hfits]
      · rename_i hfits
        simp [ih, Nat.not_le.mp hfits]

theorem length_token_le_of_mem_fitEach {room : ℕ} {s : List α} {c : α}
    (h : c ∈ fitEach token room s) : (token c).length ≤ room := by
  induction s generalizing room with
  | nil => cases h
  | cons d s ih =>
      unfold fitEach at h
      split at h
      · rename_i hfits
        rcases List.mem_cons.mp h with rfl | h
        · exact hfits
        · exact Nat.le_trans (ih h) (Nat.sub_le _ _)
      · exact ih h

theorem fitEach_prefix_cons_iff {room : ℕ} {c : α} {s : List α}
    (hc : room < (token c).length) :
    fitEach token room s <+: c :: s ↔ fitEach token room s = [] := by
  constructor
  · intro hpre
    cases hfit : fitEach token room s with
    | nil => rfl
    | cons x xs =>
        have hx : (token x).length ≤ room :=
          length_token_le_of_mem_fitEach token (s := s) (by simp [hfit])
        rw [hfit] at hpre
        obtain ⟨rfl, -⟩ := List.cons_prefix_cons.mp hpre
        omega
  · intro hfit
    rw [hfit]
    exact List.nil_prefix

/-- Nothing is lost from the middle exactly when behind the first token without room no
token fits. -/
theorem fitEach_prefix_iff {room : ℕ} {s : List α} :
    fitEach token room s <+: s ↔
      ∀ before c after, s = before ++ c :: after → (encode token before).length ≤ room →
        room < (encode token before).length + (token c).length →
        ∀ x ∈ after, room < (encode token before).length + (token x).length := by
  induction s generalizing room with
  | nil => simp [fitEach]
  | cons c s ih =>
      unfold fitEach
      split
      · rename_i hfits
        rw [List.prefix_cons_inj, ih]
        constructor
        · intro h before d after hsplit hroom hd x hx
          cases before with
          | nil =>
              obtain ⟨rfl, -⟩ := List.cons_eq_cons.mp hsplit
              simp only [encode_nil, List.length_nil] at hd
              omega
          | cons b before =>
              obtain ⟨rfl, htail⟩ := List.cons_eq_cons.mp hsplit
              rw [encode_cons, List.length_append] at hroom hd ⊢
              have hx' := h before d after htail (by omega) (by omega) x hx
              omega
        · intro h before d after hsplit hroom hd x hx
          have hx' := h (c :: before) d after (by rw [hsplit, List.cons_append])
          rw [encode_cons, List.length_append] at hx'
          have hlast := hx' (by omega) (by omega) x hx
          omega
      · rename_i hfits
        rw [fitEach_prefix_cons_iff token (Nat.not_le.mp hfits), fitEach_eq_nil_iff]
        constructor
        · intro h before d after hsplit hroom hd x hx
          cases before with
          | nil =>
              obtain ⟨rfl, rfl⟩ := List.cons_eq_cons.mp hsplit
              simpa using h x hx
          | cons b before =>
              obtain ⟨rfl, -⟩ := List.cons_eq_cons.mp hsplit
              rw [encode_cons, List.length_append] at hroom
              omega
        · intro h x hx
          simpa using h [] c s rfl (Nat.zero_le _) (by simpa using hfits) x hx

end Tokens

/-- A character with a pair is written as the escape character and its letter, every other
one as itself. -/
def token (esc : α) (pair : α → Option α) (c : α) : List α :=
  match pair c with
  | some d => [esc, d]
  | none => [c]

structure Lawful (esc : α) (pair unpair : α → Option α) : Prop where
  unpair_of_pair : ∀ c d, pair c = some d → unpair d = some c
  pair_esc : pair esc ≠ none

section Pairs

variable [DecidableEq α] {esc : α} {pair unpair : α → Option α}

/-- Undoing the escapes; `none` when a pair is cut or has an unknown letter. -/
def unescape (esc : α) (unpair : α → Option α) : List α → Option (List α)
  | [] => some []
  | [c] => if c = esc then none else some [c]
  | c :: d :: s =>
      if c = esc then (unpair d).bind fun c => (unescape esc unpair s).map (c :: ·)
      else (unescape esc unpair (d :: s)).map (c :: ·)

theorem unescape_cons_of_ne {c : α} (h : c ≠ esc) (s : List α) :
    unescape esc unpair (c :: s) = (unescape esc unpair s).map (c :: ·) := by
  cases s with
  | nil => simp [unescape, h]
  | cons d s => rw [unescape, if_neg h]

theorem unescape_token_append (hlawful : Lawful esc pair unpair) (c : α) (s : List α) :
    unescape esc unpair (token esc pair c ++ s) =
      (unescape esc unpair s).map (c :: ·) := by
  cases hpair : pair c with
  | some d =>
      simp only [token, hpair, List.cons_append, List.nil_append]
      rw [unescape, if_pos rfl, hlawful.unpair_of_pair c d hpair]
      rfl
  | none =>
      have hne : c ≠ esc := fun heq => hlawful.pair_esc (heq ▸ hpair)
      simp only [token, hpair, List.cons_append, List.nil_append]
      exact unescape_cons_of_ne hne s

theorem unescape_encode (hlawful : Lawful esc pair unpair) (s : List α) :
    unescape esc unpair (encode (token esc pair) s) = some s := by
  have hread := decode_encode (token esc pair) (unescape esc unpair) id rfl (s := s)
    fun c _ rest => unescape_token_append hlawful c rest
  rwa [List.map_id] at hread

omit [DecidableEq α] in
theorem length_token (esc : α) (pair : α → Option α) (c : α) :
    (token esc pair c).length = if (pair c).isSome then 2 else 1 := by
  unfold token
  cases pair c <;> rfl

omit [DecidableEq α] in
/-- What holds of the escape character, of the letters and of the characters without a
pair holds of a text. -/
theorem forall_mem_encode {P : α → Prop} (hesc : P esc) {s : List α}
    (hletter : ∀ c ∈ s, ∀ d, pair c = some d → P d)
    (hplain : ∀ c ∈ s, pair c = none → P c) :
    ∀ b ∈ encode (token esc pair) s, P b := by
  intro b hb
  obtain ⟨c, hc, hbc⟩ := List.mem_flatMap.mp hb
  cases hpair : pair c with
  | some d =>
      simp only [token, hpair, List.mem_cons, List.not_mem_nil, or_false] at hbc
      rcases hbc with rfl | rfl
      · exact hesc
      · exact hletter c hc b hpair
  | none =>
      simp only [token, hpair, List.mem_singleton] at hbc
      exact hbc ▸ hplain c hc hpair

end Pairs

end Escaping

end Shinigami
