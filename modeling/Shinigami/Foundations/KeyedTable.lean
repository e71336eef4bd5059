import Mathlib.Data.Finset.Card
import Mathlib.Data.Finset.Dedup
import Shinigami.Foundations.FirstMatch

/-!
# Tables of keyed entries

A table with room for so many entries, in which the first entry with a key holds its value:
a value is stored by a change of that entry, or in a new entry behind the others as long as
there is room. As long as the room suffices this is a map (`lookup_store`), and a list of
values stored one after the other leaves each key with its last one (`lookup_storeAll`,
`foldl_update_apply`).
-/

namespace Shinigami

namespace KeyedTable

variable {α κ β π : Type*} [DecidableEq κ]

/-- The value of the first entry with a key. -/
def lookup (key : α → κ) (value : α → β) (l : List α) (k : κ) : Option β :=
  (l.find? (key · = k)).map value

/-- A value is stored: `change` is done to the first entry with the key, or `new` is added. -/
def store (key : α → κ) (room : ℕ) (change : α → α) (new : α) (k : κ) (l : List α) : List α :=
  match l.findIdx? (key · = k) with
  | some i => l.modify i change
  | none => if l.length ≥ room then l else l ++ [new]

structure Gives (key : α → κ) (value : α → β) (change : α → α) (new : α) (k : κ) (v : β) :
    Prop where
  key_change : ∀ a, key (change a) = key a
  value_change : ∀ a, value (change a) = v
  key_new : key new = k
  value_new : value new = v

section Store

variable {key : α → κ} {value : α → β} {room : ℕ} {change : α → α} {new : α} {k : κ} {v : β}
  {l : List α}

theorem findIdx?_eq_none_iff_notMem : l.findIdx? (key · = k) = none ↔ k ∉ l.map key := by
  rw [List.findIdx?_eq_none_iff]
  simp [eq_comm]

theorem lookup_store (h : Gives key value change new k v)
    (hroom : k ∈ l.map key ∨ l.length < room) :
    lookup key value (store key room change new k l) =
      Function.update (lookup key value l) k (some v) := by
  funext k'
  unfold store lookup
  cases hfind : l.findIdx? (key · = k) with
  | some i =>
      dsimp only
      by_cases hk : k' = k
      · subst hk
        rw [find?_modify_self hfind (fun a => by simp only [h.key_change]), Function.update_self,
          find?_eq_some_getD hfind new, Option.map_some, Option.map_some, h.value_change]
      · rw [find?_modify_of_disjoint hfind (fun a => by simp only [h.key_change]),
          Function.update_of_ne hk]
        intro a ha
        have hkey := of_decide_eq_true ha
        exact decide_eq_false fun heq => hk (heq.symm.trans hkey)
  | none =>
      have hnot := findIdx?_eq_none_iff_notMem.mp hfind
      have hlt : ¬l.length ≥ room := Nat.not_le.mpr (hroom.resolve_left hnot)
      dsimp only
      rw [if_neg hlt]
      by_cases hk : k' = k
      · subst hk
        rw [find?_append_of_none (find?_eq_none_of_findIdx? hfind), if_pos (by simp [h.key_new]),
          Option.map_some, h.value_new, Function.update_self]
      · have hne : (decide (key new = k')) = false := by
          rw [h.key_new]
          exact decide_eq_false (Ne.symm hk)
        rw [List.find?_append, List.find?_cons_of_neg (by simp [hne]), List.find?_nil,
          Option.or_none, Function.update_of_ne hk]

/-- The keys of a table, after a value is stored where there is room for it. -/
theorem map_key_store (h : Gives key value change new k v)
    (hroom : k ∈ l.map key ∨ l.length < room) :
    (store key room change new k l).map key =
      if k ∈ l.map key then l.map key else l.map key ++ [k] := by
  unfold store
  cases hfind : l.findIdx? (key · = k) with
  | some i =>
      have hmem : k ∈ l.map key := by
        by_contra hnot
        rw [findIdx?_eq_none_iff_notMem.mpr hnot] at hfind
        cases hfind
      dsimp only
      rw [if_pos hmem]
      apply List.ext_getElem
      · simp
      · intro j hj _
        simp only [List.getElem_map, List.getElem_modify]
        split_ifs
        · exact h.key_change _
        · rfl
  | none =>
      have hnot := findIdx?_eq_none_iff_notMem.mp hfind
      have hlt : ¬l.length ≥ room := Nat.not_le.mpr (hroom.resolve_left hnot)
      dsimp only
      rw [if_neg hlt, if_neg hnot, List.map_append, List.map_singleton, h.key_new]

omit [DecidableEq κ] in
theorem nodup_append_singleton {ks : List κ} (hks : ks.Nodup) (hk : k ∉ ks) :
    (ks ++ [k]).Nodup := by
  rw [← List.concat_eq_append]
  exact hks.concat hk

theorem nodup_map_key_store (h : Gives key value change new k v)
    (hroom : k ∈ l.map key ∨ l.length < room) (hnodup : (l.map key).Nodup) :
    ((store key room change new k l).map key).Nodup := by
  rw [map_key_store h hroom]
  split_ifs with hmem
  · exact hnodup
  · exact nodup_append_singleton hnodup hmem

end Store

def storeAll (key : α → κ) (room : ℕ) (change : π → α → α) (new : π → α) (k : π → κ)
    (ps : List π) (l : List α) : List α :=
  ps.foldl (fun l p => store key room (change p) (new p) (k p) l) l

section StoreAll

variable {key : α → κ} {value : α → β} {room : ℕ} {change : π → α → α} {new : π → α}
  {k : π → κ} {v : π → β}

/-- With room for all the keys, the values go into the map one after the other. -/
theorem lookup_storeAll {ps : List π} {l : List α}
    (h : ∀ p ∈ ps, Gives key value (change p) (new p) (k p) (v p))
    (hnodup : (l.map key).Nodup) (hroom : (l.map key ++ ps.map k).toFinset.card ≤ room) :
    lookup key value (storeAll key room change new k ps l) =
      ps.foldl (fun m p => Function.update m (k p) (some (v p))) (lookup key value l) := by
  induction ps generalizing l with
  | nil => rfl
  | cons p ps ih =>
      have hp := h p (by simp)
      have hspace : k p ∈ l.map key ∨ l.length < room := by
        by_cases hmem : k p ∈ l.map key
        · exact Or.inl hmem
        · right
          have hsub : (l.map key ++ [k p]).toFinset ⊆ (l.map key ++ (p :: ps).map k).toFinset := by
            intro x hx
            rw [List.mem_toFinset, List.mem_append] at hx ⊢
            rcases hx with hx | hx
            · exact Or.inl hx
            · rw [List.mem_singleton.mp hx, List.map_cons]
              exact Or.inr List.mem_cons_self
          have hcard := (Finset.card_le_card hsub).trans hroom
          rw [List.toFinset_card_of_nodup (nodup_append_singleton hnodup hmem), List.length_append,
            List.length_map, List.length_singleton] at hcard
          exact hcard
      have hkeys : ((store key room (change p) (new p) (k p) l).map key ++ ps.map k).toFinset ⊆
          (l.map key ++ (p :: ps).map k).toFinset := by
        rw [map_key_store hp hspace]
        intro x hx
        rw [List.mem_toFinset, List.mem_append] at hx ⊢
        rw [List.map_cons, List.mem_cons]
        rcases hx with hx | hx
        · split_ifs at hx
          · exact Or.inl hx
          · rcases List.mem_append.mp hx with hx | hx
            · exact Or.inl hx
            · exact Or.inr (Or.inl (List.mem_singleton.mp hx))
        · exact Or.inr (Or.inr hx)
      rw [storeAll, List.foldl_cons, List.foldl_cons, ← lookup_store hp hspace]
      exact ih (fun q hq => h q (by simp [hq])) (nodup_map_key_store hp hspace hnodup)
        ((Finset.card_le_card hkeys).trans hroom)

theorem foldl_update_apply (ps : List π) (m : κ → Option β) (x : κ) :
    ps.foldl (fun m p => Function.update m (k p) (some (v p))) m x =
      ((ps.filter (k · = x)).getLast?.map v).or (m x) := by
  induction ps using List.reverseRecOn with
  | nil => rfl
  | append_singleton ps p ih =>
      rw [List.foldl_append, List.foldl_cons, List.foldl_nil, List.filter_append]
      by_cases hx : k p = x
      · subst hx
        simp
      · rw [Function.update_of_ne (Ne.symm hx), ih, List.filter_singleton]
        simp [hx]

end StoreAll

end KeyedTable

end Shinigami
