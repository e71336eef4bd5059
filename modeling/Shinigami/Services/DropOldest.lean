import Mathlib.Data.List.Sort
import Shinigami.Foundations.RingIndex
import Shinigami.Services.AudioLoop

/-!
# Order of the frames when the producer drops

Which interleavings keep the frames of the audio ring in order. The frames that
have been copied into slots are numbered in the order of their writes
(`View.written`), `head` stands at the number of accepted ones, and `tail` at the
one position of the last lap that lies in its slot. The consumer may store an old
`tail`, by which that position only jumps forward, over frames that are lost. It
moves back in two cases only: when the producer ends a drop that the consumer has
overtaken, and when the consumer has copied a frame whose write has not ended.

What the steps change is a `View`; the local variables of both sides are looked
at separately.
-/

namespace Shinigami

namespace Services

open Shinigami.Core RingIndex

variable {β : Type*}

structure View (β : Type*) where
  rb : RingBuffer (Frame β)
  produced : List (Frame β)
  accepted : List (Frame β)
  written : List (Frame β)
  obtained : List (Frame β)

def ProducerPhase.unfinished : ProducerPhase β → List (Frame β)
  | .write (.storeHead frame _) _ => [frame]
  | _ => []

theorem unfinished_idle : (ProducerPhase.idle : ProducerPhase β).unfinished = [] :=
  rfl

theorem unfinished_storeHead (frame : Frame β) (nextHead : UInt32)
    (retry : Bool) :
    (ProducerPhase.write (.storeHead frame nextHead) retry).unfinished = [frame] := rfl

def AudioState.view (s : AudioState β) : View β :=
  ⟨s.rb, s.produced, s.accepted, s.accepted ++ s.producer.unfinished, s.obtained⟩

namespace View

def cap (v : View β) : ℕ := v.rb.capacity.toNat

/-- All frames that the consumer has got lie before position `x`. -/
def Behind (v : View β) (x : ℕ) : Prop :=
  ∀ f ∈ v.obtained, ∃ k < x, v.written[k]? = some f

/-- The consumer has got the frame whose write has not ended, and all others lie
before position `x`, a lap behind the next one. -/
def BehindUnfinished (v : View β) (x : ℕ) : Prop :=
  v.written.length = v.accepted.length + 1 ∧ x + v.cap = v.accepted.length + 1 ∧
    ∀ f ∈ v.obtained, ∃ k, (k < x ∨ k = v.accepted.length) ∧ v.written[k]? = some f

def Clear (v : View β) (x : ℕ) : Prop :=
  x ≤ v.accepted.length ∧ (v.Behind x ∨ v.BehindUnfinished x)

/-- The position of `tail`. -/
structure TailAt (v : View β) (x : ℕ) : Prop where
  slot : v.rb.tail.toNat = x % v.cap
  lap : v.accepted.length < x + v.cap
  clear : v.Clear x

structure Inv (v : View β) : Prop where
  cap_pos : 0 < v.cap
  numbered : ∀ (i : ℕ) (f : Frame β), v.produced[i]? = some f → f.seq = i
  accepted : v.accepted <+: v.written
  unfinished : v.written.length ≤ v.accepted.length + 1
  known : ∀ f ∈ v.written, f ∈ v.produced
  sorted : v.written.Pairwise fun f g => f.seq < g.seq
  obtained_sorted : v.obtained.Pairwise fun f g => f.seq < g.seq
  head : v.rb.head.toNat = v.accepted.length % v.cap
  tail : ∃ x, v.TailAt x
  slots : ∀ (k : ℕ) (f : Frame β), v.written[k]? = some f →
    v.written.length ≤ k + v.cap → v.rb.slots (k % v.cap) = f

def Fresh (v : View β) (f : Frame β) : Prop :=
  f ∈ v.produced ∧ ∀ g ∈ v.accepted, g.seq < f.seq

def ProducerInv (v : View β) : ProducerPhase β → Prop
  | .idle => True
  | .write (.loadTail frame head) _ => v.Fresh frame ∧ head = v.rb.head
  | .write (.copy frame head nextHead) _ =>
      v.Fresh frame ∧ head = v.rb.head ∧ nextHead = (v.rb.head + 1) % v.rb.capacity
  | .write (.storeHead _ nextHead) _ => nextHead = (v.rb.head + 1) % v.rb.capacity
  | .dropBegin frame => v.Fresh frame
  | .drop frame (.loadHead tail) => v.Fresh frame ∧ ∃ x, tail.toNat = x % v.cap ∧
      x ≤ v.accepted.length ∧ v.accepted.length < x + v.cap
  | .drop frame (.copy tail) => v.Fresh frame ∧ ∃ x, tail.toNat = x % v.cap ∧
      x < v.accepted.length ∧ v.accepted.length < x + v.cap
  | .drop frame (.storeTail tail item) => v.Fresh frame ∧ ∃ x,
      tail.toNat = x % v.cap ∧ v.accepted.length < x + v.cap ∧
        v.accepted[x]? = some item
  | .retryBegin frame => v.Fresh frame

def ConsumerInv (v : View β) : ReadPhase (Frame β) → Prop
  | .loadHead tail => ∃ x, tail.toNat = x % v.cap ∧ v.Clear x
  | .copy tail => ∃ x, tail.toNat = x % v.cap ∧ x < v.accepted.length ∧ v.Behind x
  | .storeTail tail item => ∃ x k, tail.toNat = k % v.cap ∧ k % v.cap = x % v.cap ∧
      x ≤ k ∧ x < v.accepted.length ∧ v.Behind x ∧ v.written[k]? = some item

theorem Behind.mono {v : View β} {x y : ℕ} (h : v.Behind x) (hle : x ≤ y) :
    v.Behind y := by
  intro f hf
  obtain ⟨k, hk, hget⟩ := h f hf
  exact ⟨k, hk.trans_le hle, hget⟩

theorem Behind.grow {v v' : View β} {x : ℕ} (h : v.Behind x)
    (hobtained : v'.obtained = v.obtained) (hwritten : v.written <+: v'.written) :
    v'.Behind x := by
  intro f hf
  rw [hobtained] at hf
  obtain ⟨k, hk, hget⟩ := h f hf
  exact ⟨k, hk, getElem?_of_prefix hwritten hget⟩

namespace Inv

variable {v : View β}

theorem seq_lt (h : v.Inv) {j k : ℕ} {f g : Frame β} (hlt : j < k)
    (hf : v.written[j]? = some f) (hg : v.written[k]? = some g) : f.seq < g.seq := by
  obtain ⟨hj, rfl⟩ := List.getElem?_eq_some_iff.mp hf
  obtain ⟨hk, rfl⟩ := List.getElem?_eq_some_iff.mp hg
  exact List.pairwise_iff_getElem.mp h.sorted j k hj hk hlt

theorem pos_le (h : v.Inv) {j k : ℕ} {f g : Frame β} (hle : f.seq ≤ g.seq)
    (hf : v.written[j]? = some f) (hg : v.written[k]? = some g) : j ≤ k := by
  by_contra hlt
  exact absurd (h.seq_lt (not_le.mp hlt) hg hf) (not_lt.mpr hle)

theorem getElem?_written (h : v.Inv) {k : ℕ} {f : Frame β}
    (hget : v.accepted[k]? = some f) : v.written[k]? = some f :=
  getElem?_of_prefix h.accepted hget

theorem lt_cap (h : v.Inv) (x : ℕ) : x % v.cap < v.cap := Nat.mod_lt _ h.cap_pos

theorem next_head (h : v.Inv) : ((v.rb.head + 1) % v.rb.capacity).toNat =
    (v.accepted.length + 1) % v.cap := by
  rw [toNat_next (by rw [h.head]; exact h.lt_cap _), h.head]
  exact succ_mod _ _

theorem next_tail (h : v.Inv) {tail : UInt32} {x : ℕ} (ht : tail.toNat = x % v.cap) :
    ((tail + 1) % v.rb.capacity).toNat = (x + 1) % v.cap := by
  rw [toNat_next (by rw [ht]; exact h.lt_cap _), ht]
  exact succ_mod _ _

theorem obtained_written (h : v.Inv) {f : Frame β} (hf : f ∈ v.obtained) :
    ∃ k : ℕ, v.written[k]? = some f := by
  obtain ⟨x, hx⟩ := h.tail
  rcases hx.clear.2 with hbehind | hunfinished
  · obtain ⟨k, -, hget⟩ := hbehind f hf
    exact ⟨k, hget⟩
  · obtain ⟨k, -, hget⟩ := hunfinished.2.2 f hf
    exact ⟨k, hget⟩

end Inv

/-! ## What the steps do to a view -/

def putFrame (v : View β) (f : Frame β) : View β :=
  { v with
    rb := { v.rb with slots := Function.update v.rb.slots v.rb.head.toNat f }
    written := v.written ++ [f] }

def acceptFrame (v : View β) : View β :=
  { v with
    rb := { v.rb with head := (v.rb.head + 1) % v.rb.capacity }
    accepted := v.written }

def moveTail (v : View β) (tail : UInt32) : View β :=
  { v with rb := { v.rb with tail := (tail + 1) % v.rb.capacity } }

def obtainFrame (v : View β) (tail : UInt32) (f : Frame β) : View β :=
  { v with
    rb := { v.rb with tail := (tail + 1) % v.rb.capacity }
    obtained := v.obtained ++ [f] }

def produceFrame (v : View β) (f : Frame β) : View β :=
  { v with produced := v.produced ++ [f] }

section Steps

variable {v : View β}

theorem Clear.putFrame {x : ℕ} (h : v.Clear x) (heq : v.written = v.accepted)
    (f : Frame β) : (v.putFrame f).Clear x := by
  refine ⟨h.1, .inl ?_⟩
  rcases h.2 with hbehind | hunfinished
  · exact hbehind.grow rfl (List.prefix_append _ _)
  · have := hunfinished.1
    rw [heq] at this
    omega

/-- The slots of the last lap agree with the frames, the one just copied included. -/
theorem Inv.slots_putFrame (h : v.Inv) {f : Frame β} (heq : v.written = v.accepted) {k : ℕ}
    {g : Frame β} (hget : (v.putFrame f).written[k]? = some g)
    (hlap : (v.putFrame f).written.length ≤ k + v.cap) :
    (v.putFrame f).rb.slots (k % v.cap) = g := by
  have hlen : (v.putFrame f).written.length = v.written.length + 1 := by
    simp [View.putFrame]
  rw [hlen] at hlap
  have hhead : v.rb.head.toNat = v.written.length % v.cap := by rw [h.head, heq]
  change Function.update v.rb.slots v.rb.head.toNat f (k % v.cap) = g
  rw [hhead]
  rcases Nat.lt_trichotomy k v.written.length with hlt | rfl | hgt
  · have hne : k % v.cap ≠ v.written.length % v.cap := by
      intro hslot
      have := eq_of_mod_eq hlt.le (by omega) hslot
      omega
    have hold : v.written[k]? = some g := by
      rwa [View.putFrame, List.getElem?_append_left hlt] at hget
    rw [Function.update_of_ne hne]
    exact h.slots k g hold (by omega)
  · rw [Function.update_self]
    simpa [View.putFrame] using hget
  · have := (List.getElem?_eq_some_iff.mp hget).1
    omega

theorem Inv.putFrame (h : v.Inv) {f : Frame β} (hfresh : v.Fresh f)
    (heq : v.written = v.accepted) : (v.putFrame f).Inv := by
  obtain ⟨x, hx⟩ := h.tail
  refine ⟨h.cap_pos, h.numbered, h.accepted.trans (List.prefix_append _ _), ?_, ?_, ?_,
    h.obtained_sorted, h.head, ⟨x, hx.slot, hx.lap, hx.clear.putFrame heq f⟩, ?_⟩
  · simp [View.putFrame, heq]
  · intro g hg
    rcases List.mem_append.mp hg with hold | hnew
    · exact h.known g hold
    · rw [List.mem_singleton.mp hnew]
      exact hfresh.1
  · refine List.pairwise_append.mpr ⟨h.sorted, List.pairwise_singleton _ _, ?_⟩
    intro g hg f' hf'
    rw [List.mem_singleton.mp hf']
    exact hfresh.2 g (heq ▸ hg)
  · exact fun k g hget hlap => h.slots_putFrame heq hget hlap

theorem ConsumerInv.putFrame {phase : ReadPhase (Frame β)} (h : v.ConsumerInv phase)
    (heq : v.written = v.accepted) (f : Frame β) : (v.putFrame f).ConsumerInv phase := by
  have hgrow : v.written <+: (v.putFrame f).written := List.prefix_append _ _
  cases phase with
  | loadHead tail =>
      obtain ⟨x, hslot, hclear⟩ := h
      exact ⟨x, hslot, hclear.putFrame heq f⟩
  | copy tail =>
      obtain ⟨x, hslot, hlt, hbehind⟩ := h
      exact ⟨x, hslot, hlt, hbehind.grow rfl hgrow⟩
  | storeTail tail item =>
      obtain ⟨x, k, hslot, hsame, hle, hlt, hbehind, hget⟩ := h
      exact ⟨x, k, hslot, hsame, hle, hlt, hbehind.grow rfl hgrow,
        getElem?_of_prefix hgrow hget⟩

/-- When the write of the last frame ends, a position stays clear, or it moves on
by a lap. -/
theorem Clear.acceptFrame {x : ℕ} (h : v.Clear x)
    (hlen : v.written.length = v.accepted.length + 1) :
    (v.acceptFrame.Behind x ∧ x ≤ v.acceptFrame.accepted.length) ∨
      x + v.cap = v.acceptFrame.accepted.length ∧ v.acceptFrame.Behind (x + v.cap) := by
  have hacc : v.acceptFrame.accepted.length = v.accepted.length + 1 := hlen
  have hle := h.1
  rcases h.2 with hbehind | ⟨-, hlap, hall⟩
  · exact .inl ⟨hbehind, by omega⟩
  · refine .inr ⟨by omega, fun f hf => ?_⟩
    obtain ⟨k, hk, hget⟩ := hall f hf
    exact ⟨k, by omega, hget⟩

theorem Inv.acceptFrame (h : v.Inv)
    (hlen : v.written.length = v.accepted.length + 1) : v.acceptFrame.Inv := by
  have hacc : v.acceptFrame.accepted.length = v.accepted.length + 1 := hlen
  have hcap : v.acceptFrame.cap = v.cap := rfl
  have hwritten : v.acceptFrame.written = v.written := rfl
  refine ⟨h.cap_pos, h.numbered, List.prefix_rfl, Nat.le_succ _, h.known, h.sorted,
    h.obtained_sorted, ?_, ?_, h.slots⟩
  · rw [hacc]
    exact h.next_head
  · obtain ⟨x, hslot, hlap, hclear⟩ := h.tail
    have hpos := h.cap_pos
    rcases hclear.acceptFrame hlen with ⟨hbehind, hle⟩ | ⟨heq, hbehind⟩
    · by_cases hroom : v.accepted.length + 1 < x + v.cap
      · exact ⟨x, hslot, by omega, hle, .inl hbehind⟩
      · refine ⟨x + v.cap, ?_, by omega, by omega, .inl (hbehind.mono (by omega))⟩
        rw [hcap, Nat.add_mod_right]
        exact hslot
    · refine ⟨x + v.cap, ?_, by omega, heq.le, .inl hbehind⟩
      rw [hcap, Nat.add_mod_right]
      exact hslot

theorem ConsumerInv.acceptFrame {phase : ReadPhase (Frame β)} (h : v.ConsumerInv phase)
    (hlen : v.written.length = v.accepted.length + 1) :
    v.acceptFrame.ConsumerInv phase := by
  have hacc : v.acceptFrame.accepted.length = v.accepted.length + 1 := hlen
  cases phase with
  | loadHead tail =>
      obtain ⟨x, hslot, hclear⟩ := h
      rcases hclear.acceptFrame hlen with ⟨hbehind, hle⟩ | ⟨heq, hbehind⟩
      · exact ⟨x, hslot, hle, .inl hbehind⟩
      · refine ⟨x + v.cap, ?_, heq.le, .inl hbehind⟩
        change _ = (x + v.cap) % v.cap
        rwa [Nat.add_mod_right]
  | copy tail =>
      obtain ⟨x, hslot, hlt, hbehind⟩ := h
      exact ⟨x, hslot, by omega, hbehind⟩
  | storeTail tail item =>
      obtain ⟨x, k, hslot, hsame, hle, hlt, hbehind, hget⟩ := h
      exact ⟨x, k, hslot, hsame, hle, by omega, hbehind, hget⟩

theorem Inv.moveTail (h : v.Inv) {tail : UInt32} {x : ℕ} {item : Frame β}
    (hslot : tail.toNat = x % v.cap) (hlap : v.accepted.length < x + v.cap)
    (hget : v.accepted[x]? = some item) (horder : ∀ f ∈ v.obtained, f.seq ≤ item.seq) :
    (v.moveTail tail).Inv := by
  have hlt := (List.getElem?_eq_some_iff.mp hget).1
  have hbehind : v.Behind (x + 1) := by
    intro f hf
    obtain ⟨k, hk⟩ := h.obtained_written hf
    have := h.pos_le (horder f hf) hk (h.getElem?_written hget)
    exact ⟨k, by omega, hk⟩
  have htail : (v.moveTail tail).TailAt (x + 1) := by
    refine ⟨h.next_tail hslot, ?_, hlt, .inl hbehind⟩
    change v.accepted.length < x + 1 + v.cap
    omega
  exact ⟨h.cap_pos, h.numbered, h.accepted, h.unfinished, h.known, h.sorted,
    h.obtained_sorted, h.head, ⟨x + 1, htail⟩, h.slots⟩

theorem tailAt_of_accepted (hpos : 0 < v.cap) {k : ℕ}
    (hslot : v.rb.tail.toNat = (k + 1) % v.cap) (hk : k < v.accepted.length)
    (hall : ∀ f ∈ v.obtained, ∃ j ≤ k, v.written[j]? = some f) : ∃ y, v.TailAt y := by
  obtain ⟨y, hky, hylt, hlap, hy⟩ :=
    exists_latest hpos (show k + 1 < v.accepted.length + 1 by omega)
  refine ⟨y, hslot.trans hy.symm, ?_, Nat.lt_succ_iff.mp hylt, .inl ?_⟩
  · omega
  · intro f hf
    obtain ⟨j, hj, hfj⟩ := hall f hf
    exact ⟨j, by omega, hfj⟩

/-- A tail right behind the frame whose write has not ended lies a lap behind the
next position. -/
theorem tailAt_of_unfinished (hpos : 0 < v.cap) {x : ℕ}
    (hslot : v.rb.tail.toNat = (v.accepted.length + 1) % v.cap)
    (hlen : v.written.length = v.accepted.length + 1)
    (hlap : x + v.cap ≤ v.accepted.length)
    (hall : ∀ f ∈ v.obtained, ∃ j, (j < x ∨ j = v.accepted.length) ∧
      v.written[j]? = some f) : ∃ y, v.TailAt y := by
  obtain ⟨y, hy⟩ := Nat.exists_eq_add_of_le (show v.cap ≤ v.accepted.length + 1 by omega)
  refine ⟨y, ?_, ?_, ?_, .inr ⟨hlen, ?_, ?_⟩⟩
  · rw [hslot, hy, Nat.add_comm, Nat.add_mod_right]
  · omega
  · omega
  · omega
  · intro f hf
    obtain ⟨j, hj, hfj⟩ := hall f hf
    exact ⟨j, by omega, hfj⟩

theorem Inv.obtainFrame (h : v.Inv) {tail : UInt32} {item : Frame β}
    (hphase : v.ConsumerInv (.storeTail tail item)) : (v.obtainFrame tail item).Inv := by
  obtain ⟨x, k, hslot, hsame, hle, hlt, hbehind, hget⟩ := hphase
  have hklen := (List.getElem?_eq_some_iff.mp hget).1
  have hunf := h.unfinished
  have hpos := h.cap_pos
  have hnext : (v.obtainFrame tail item).rb.tail.toNat = (k + 1) % v.cap :=
    h.next_tail hslot
  have hall : ∀ f ∈ (v.obtainFrame tail item).obtained,
      ∃ j, (j < x ∨ j = k) ∧ v.written[j]? = some f := by
    intro f hf
    rcases List.mem_append.mp hf with hold | hnew
    · obtain ⟨j, hj, hfj⟩ := hbehind f hold
      exact ⟨j, .inl hj, hfj⟩
    · rw [List.mem_singleton.mp hnew]
      exact ⟨k, .inr rfl, hget⟩
  have htail : ∃ y, (v.obtainFrame tail item).TailAt y := by
    rcases Nat.lt_or_ge k v.accepted.length with hacc | hun
    · refine tailAt_of_accepted hpos hnext hacc fun f hf => ?_
      obtain ⟨j, hj, hfj⟩ := hall f hf
      exact ⟨j, by omega, hfj⟩
    · -- The slot was written again since the consumer looked, so a lap has passed.
      obtain rfl : k = v.accepted.length := by omega
      have hlap : x + v.cap ≤ v.accepted.length := by
        by_contra hshort
        have := eq_of_mod_eq hle (by omega) hsame.symm
        omega
      have hlen : v.written.length = v.accepted.length + 1 := by omega
      exact tailAt_of_unfinished hpos hnext hlen hlap hall
  refine ⟨hpos, h.numbered, h.accepted, hunf, h.known, h.sorted, ?_, h.head, htail,
    h.slots⟩
  refine List.pairwise_append.mpr ⟨h.obtained_sorted, List.pairwise_singleton _ _, ?_⟩
  intro f hf g hg
  rw [List.mem_singleton.mp hg]
  obtain ⟨j, hj, hfj⟩ := hbehind f hf
  exact h.seq_lt (by omega) hfj hget

theorem Inv.produceFrame (h : v.Inv) (content : β) :
    (v.produceFrame ⟨v.produced.length, content⟩).Inv := by
  refine ⟨h.cap_pos, ?_, h.accepted, h.unfinished, ?_, h.sorted, h.obtained_sorted,
    h.head, ?_, h.slots⟩
  · intro i f hf
    rcases Nat.lt_trichotomy i v.produced.length with hlt | rfl | hgt
    · rw [View.produceFrame, List.getElem?_append_left hlt] at hf
      exact h.numbered i f hf
    · simp only [View.produceFrame, List.getElem?_concat_length,
        Option.some.injEq] at hf
      rw [← hf]
    · have := (List.getElem?_eq_some_iff.mp hf).1
      simp only [View.produceFrame, List.length_append, List.length_singleton] at this
      omega
  · exact fun f hf => List.mem_append_left _ (h.known f hf)
  · obtain ⟨x, hx⟩ := h.tail
    exact ⟨x, hx.slot, hx.lap, hx.clear⟩

theorem Inv.fresh_produceFrame (h : v.Inv) (content : β) :
    (v.produceFrame ⟨v.produced.length, content⟩).Fresh
      ⟨v.produced.length, content⟩ := by
  refine ⟨by simp [View.produceFrame], fun g hg => ?_⟩
  obtain ⟨i, hi, hget⟩ := List.mem_iff_getElem.mp (h.known g (h.accepted.subset hg))
  have hseq := h.numbered i g (by rw [List.getElem?_eq_getElem hi, hget])
  change g.seq < v.produced.length
  omega

end Steps

end View

/-! ## The steps -/

structure AudioInv (s : AudioState β) : Prop where
  view : s.view.Inv
  producer : s.view.ProducerInv s.producer
  consumer : ∀ phase ∈ s.consumer, s.view.ConsumerInv phase

section Steps

variable {s : AudioState β}

theorem audioInv_start {rb : RingBuffer (Frame β)} (hhead : rb.head = 0)
    (htail : rb.tail = 0) (hcap : 0 < rb.capacity.toNat) :
    AudioInv (AudioState.start rb) := by
  refine ⟨⟨hcap, by simp [AudioState.view, AudioState.start], List.prefix_append _ _,
    ?_, ?_, ?_, List.Pairwise.nil, ?_, ⟨0, ?_, ?_, Nat.zero_le _, .inl ?_⟩, ?_⟩,
    trivial, by simp [AudioState.start]⟩
  · simp [AudioState.view, AudioState.start, ProducerPhase.unfinished]
  · simp [AudioState.view, AudioState.start, ProducerPhase.unfinished]
  · simp [AudioState.view, AudioState.start, ProducerPhase.unfinished]
  · simp [AudioState.view, AudioState.start, hhead]
  · simp [AudioState.view, AudioState.start, htail]
  · simpa [AudioState.view, AudioState.start, View.cap] using hcap
  · intro f hf
    simp [AudioState.view, AudioState.start] at hf
  · simp [AudioState.view, AudioState.start, ProducerPhase.unfinished]

theorem view_written_of_unfinished (h : s.producer.unfinished = []) :
    s.view.written = s.view.accepted := by
  simp [AudioState.view, h]

theorem audioInv_produce (h : AudioInv s) (content : β) :
    AudioInv (audioStep s (.produce content)) := by
  unfold audioStep
  cases hp : s.producer with
  | idle =>
      have hview : AudioState.view { s with
          producer := .write (writeBegin s.rb ⟨s.produced.length, content⟩) false
          produced := s.produced ++ [⟨s.produced.length, content⟩] } =
          s.view.produceFrame ⟨s.view.produced.length, content⟩ := by
        simp [AudioState.view, View.produceFrame, hp, ProducerPhase.unfinished,
          writeBegin]
      refine ⟨hview ▸ h.view.produceFrame content, ?_, ?_⟩
      · exact hview ▸ ⟨h.view.fresh_produceFrame content, rfl⟩
      · intro phase hphase
        rw [hview]
        have hold := h.consumer phase hphase
        cases phase with
        | loadHead tail => exact hold
        | copy tail => exact hold
        | storeTail tail item => exact hold
  | write phase retry => exact h
  | dropBegin frame => exact h
  | drop frame phase => exact h
  | retryBegin frame => exact h

theorem audioInv_consume (h : AudioInv s) : AudioInv (audioStep s .consume) := by
  unfold audioStep
  cases hc : s.consumer with
  | some phase => exact h
  | none =>
      refine ⟨h.view, h.producer, ?_⟩
      obtain ⟨x, hx⟩ := h.view.tail
      intro phase hphase
      cases hphase
      exact ⟨x, hx.slot, hx.clear⟩

theorem AudioInv.of_producer (h : AudioInv s) {phase : ProducerPhase β}
    (hunf : phase.unfinished = s.producer.unfinished)
    (hphase : s.view.ProducerInv phase) : AudioInv { s with producer := phase } := by
  have hview : AudioState.view { s with producer := phase } = s.view := by
    simp [AudioState.view, hunf]
  exact ⟨hview ▸ h.view, hview ▸ hphase, fun phase' hc => hview ▸ h.consumer phase' hc⟩

theorem audioInv_write (h : AudioInv s) {phase : WritePhase (Frame β)} {retry : Bool}
    (hp : s.producer = .write phase retry) : AudioInv (producerStep s) := by
  have hphase := h.producer
  rw [hp] at hphase
  unfold producerStep
  rw [hp]
  cases phase with
  | loadTail frame head =>
      obtain ⟨hfresh, rfl⟩ := hphase
      dsimp only [writeStep]
      split_ifs with hfull
      · simp only [show rbErrorFull ≠ rbSuccess by decide, if_false, true_and]
        split_ifs
        · exact h.of_producer (by rw [hp]; rfl) hfresh
        · exact h.of_producer (by rw [hp]; rfl) trivial
      · exact h.of_producer (by rw [hp]; rfl) ⟨hfresh, rfl, rfl⟩
  | copy frame head nextHead =>
      have hunf : s.producer.unfinished = [] := by rw [hp]; rfl
      obtain ⟨hfresh, rfl, rfl⟩ := hphase
      have heq : s.view.written = s.view.accepted := view_written_of_unfinished hunf
      dsimp only [writeStep]
      have hview : AudioState.view { s with
          rb := { s.rb with
            slots := Function.update s.rb.slots s.rb.head.toNat frame }
          producer := .write (.storeHead frame
            ((s.rb.head + 1) % s.rb.capacity)) retry } = s.view.putFrame frame := by
        simp [AudioState.view, View.putFrame, hunf, unfinished_storeHead]
      refine ⟨hview ▸ h.view.putFrame hfresh heq, hview ▸ rfl, ?_⟩
      intro phase hc
      exact hview ▸ (h.consumer phase hc).putFrame heq frame
  | storeHead frame nextHead =>
      have hunf : s.producer.unfinished = [frame] := by rw [hp]; rfl
      obtain rfl := hphase
      have hlen : s.view.written.length = s.view.accepted.length + 1 := by
        simp [AudioState.view, hunf]
      simp only [writeStep, if_true, WritePhase.item,
        show rbSuccess ≠ rbErrorFull by decide, false_and, if_false]
      have hview : AudioState.view { s with
          rb := { s.rb with head := (s.rb.head + 1) % s.rb.capacity }
          producer := .idle
          accepted := s.accepted ++ [frame] } = s.view.acceptFrame := by
        simp [AudioState.view, View.acceptFrame, hunf, unfinished_idle]
      refine ⟨hview ▸ h.view.acceptFrame hlen, trivial, ?_⟩
      intro phase hc
      exact hview ▸ (h.consumer phase hc).acceptFrame hlen

theorem audioInv_drop (h : AudioInv s) {frame : Frame β} {phase : ReadPhase (Frame β)}
    (hp : s.producer = .drop frame phase) (horder : StepInOrder s .producerStep) :
    AudioInv (producerStep s) := by
  have hphase := h.producer
  rw [hp] at hphase
  have heq : s.view.written = s.view.accepted :=
    view_written_of_unfinished (by rw [hp]; rfl)
  unfold producerStep
  rw [hp]
  cases phase with
  | loadHead tail =>
      obtain ⟨hfresh, x, hslot, hle, hlap⟩ := hphase
      dsimp only [readStep]
      split_ifs with hempty
      · exact h.of_producer (by rw [hp]; rfl) hfresh
      · refine h.of_producer (by rw [hp]; rfl) ⟨hfresh, x, hslot, ?_, hlap⟩
        refine lt_of_le_of_ne hle fun hx => hempty (UInt32.toNat_inj.mp ?_)
        rw [hslot, hx]
        exact h.view.head.symm
  | copy tail =>
      obtain ⟨hfresh, x, hslot, hlt, hlap⟩ := hphase
      dsimp only [readStep]
      refine h.of_producer (by rw [hp]; rfl) ⟨hfresh, x, hslot, hlap, ?_⟩
      have hget := List.getElem?_eq_getElem hlt
      rw [hget, hslot]
      congr 1
      refine (h.view.slots x _ (h.view.getElem?_written hget) ?_).symm
      rw [heq]
      exact hlap.le
  | storeTail tail item =>
      obtain ⟨hfresh, x, hslot, hlap, hget⟩ := hphase
      have hnewer : ∀ f ∈ s.obtained, f.seq ≤ item.seq := by
        simpa [StepInOrder, hp] using horder
      dsimp only [readStep]
      have hview : AudioState.view { s with
          rb := { s.rb with tail := (tail + 1) % s.rb.capacity }
          producer := .retryBegin frame } = s.view.moveTail tail := by
        simp [AudioState.view, View.moveTail, hp, ProducerPhase.unfinished]
      refine ⟨hview ▸ h.view.moveTail hslot hlap hget hnewer, hview ▸ hfresh, ?_⟩
      intro phase hc
      rw [hview]
      have hold := h.consumer phase hc
      cases phase with
      | loadHead tail => exact hold
      | copy tail => exact hold
      | storeTail tail item => exact hold

theorem audioInv_producerStep (h : AudioInv s)
    (horder : StepInOrder s .producerStep) : AudioInv (producerStep s) := by
  cases hp : s.producer with
  | idle =>
      unfold producerStep
      rw [hp]
      exact h
  | write phase retry => exact audioInv_write h hp
  | dropBegin frame =>
      have hfresh := h.producer
      rw [hp] at hfresh
      obtain ⟨x, hx⟩ := h.view.tail
      unfold producerStep
      rw [hp]
      exact h.of_producer (by rw [hp]; rfl) ⟨hfresh, x, hx.slot, hx.clear.1, hx.lap⟩
  | drop frame phase => exact audioInv_drop h hp horder
  | retryBegin frame =>
      have hfresh := h.producer
      rw [hp] at hfresh
      unfold producerStep
      rw [hp]
      exact h.of_producer (by rw [hp]; rfl) ⟨hfresh, rfl⟩

/-- A non-empty ring, found after the write of the last frame got has ended, has
all frames got behind its tail. -/
theorem behind_of_stepInOrder {tail : UInt32} {x : ℕ}
    (hc : s.consumer = some (.loadHead tail)) (hclear : s.view.Clear x)
    (hne : tail ≠ s.rb.head) (horder : StepInOrder s .consumerStep) :
    s.view.Behind x := by
  rcases hclear.2 with hbehind | ⟨hlen, -, hall⟩
  · exact hbehind
  · -- The frame whose write has not ended has not been got.
    obtain ⟨frame, nextHead, retry, hp⟩ : ∃ frame nextHead retry,
        s.producer = .write (.storeHead frame nextHead) retry := by
      have hunf : s.producer.unfinished ≠ [] := by
        intro hnil
        simp [AudioState.view, hnil] at hlen
      unfold ProducerPhase.unfinished at hunf
      split at hunf
      · rename_i frame nextHead retry hp
        exact ⟨frame, nextHead, retry, hp⟩
      · exact absurd rfl hunf
    have hnot : frame ∉ s.obtained := by
      unfold StepInOrder at horder
      rw [hc, hp] at horder
      exact horder hne
    intro f hf
    obtain ⟨k, hk, hget⟩ := hall f hf
    refine ⟨k, hk.resolve_right ?_, hget⟩
    rintro rfl
    have hframe : frame = f := by
      simpa [AudioState.view, hp, ProducerPhase.unfinished] using hget
    exact hnot (hframe ▸ hf)

theorem audioInv_consumerStep (h : AudioInv s)
    (horder : StepInOrder s .consumerStep) : AudioInv (consumerStep s) := by
  unfold consumerStep
  cases hc : s.consumer with
  | none => exact h
  | some phase =>
      have hphase := h.consumer phase (by rw [hc]; rfl)
      cases phase with
      | loadHead tail =>
          obtain ⟨x, hslot, hclear⟩ := hphase
          dsimp only [readStep]
          split_ifs with hempty
          · have hnone : ({ s with
                consumer := none, obtained := s.obtained ++ [] } : AudioState β) =
                { s with consumer := none } := by simp
            change AudioInv { s with consumer := none, obtained := s.obtained ++ [] }
            rw [hnone]
            exact ⟨h.view, h.producer, by simp⟩
          · have hbehind := behind_of_stepInOrder hc hclear hempty horder
            refine ⟨h.view, h.producer, ?_⟩
            rintro phase ⟨⟩
            refine ⟨x, hslot, lt_of_le_of_ne hclear.1 fun hx => ?_, hbehind⟩
            refine hempty (UInt32.toNat_inj.mp ?_)
            rw [hslot, hx]
            exact h.view.head.symm
      | copy tail =>
          obtain ⟨x, hslot, hlt, hbehind⟩ := hphase
          dsimp only [readStep]
          refine ⟨h.view, h.producer, ?_⟩
          rintro phase ⟨⟩
          have hle := h.view.accepted.length_le
          obtain ⟨k, hxk, hk, hlap, hsame⟩ :=
            exists_latest h.view.cap_pos (hlt.trans_le hle)
          have hget := List.getElem?_eq_getElem hk
          refine ⟨x, k, hslot.trans hsame.symm, hsame, hxk, hlt, hbehind, ?_⟩
          rw [hslot, ← hsame]
          exact hget.trans (congrArg some (h.view.slots k _ hget hlap).symm)
      | storeTail tail item =>
          have hview : AudioState.view { s with
              rb := { s.rb with tail := (tail + 1) % s.rb.capacity }
              consumer := none
              obtained := s.obtained ++ [item] } = s.view.obtainFrame tail item := rfl
          refine ⟨hview ▸ h.view.obtainFrame hphase, ?_, ?_⟩
          · have hold := h.producer
            change (s.view.obtainFrame tail item).ProducerInv s.producer
            exact hold
          · rintro phase ⟨⟩

theorem audioInv_audioStep (s : AudioState β) (ev : AudioEvent β)
    (horder : StepInOrder s ev) (h : AudioInv s) : AudioInv (audioStep s ev) := by
  cases ev with
  | produce content => exact audioInv_produce h content
  | producerStep => exact audioInv_producerStep h horder
  | consume => exact audioInv_consume h
  | consumerStep => exact audioInv_consumerStep h horder

end Steps

/-! ## The stream -/

theorem sublist_of_seq {l l' : List (Frame β)}
    (hl : l.Pairwise fun f g => f.seq < g.seq)
    (hl' : l'.Pairwise fun f g => f.seq < g.seq) (hsub : l ⊆ l') : l.Sublist l' := by
  have : Std.Antisymm fun f g : Frame β => f.seq < g.seq :=
    ⟨fun _ _ hab hba => absurd hab (lt_asymm hba)⟩
  have hnodup : l.Nodup := hl.imp fun hlt heq => by simp [heq] at hlt
  exact List.sublist_of_subperm_of_pairwise (List.subperm_of_subset hnodup hsub) hl hl'

theorem AudioInv.keepsOrder {s : AudioState β} (h : AudioInv s) : KeepsOrder s := by
  have hproduced : s.produced.Pairwise fun f g => f.seq < g.seq := by
    rw [List.pairwise_iff_getElem]
    intro i j hi hj hlt
    rw [h.view.numbered i _ (List.getElem?_eq_getElem hi),
      h.view.numbered j _ (List.getElem?_eq_getElem hj)]
    exact hlt
  refine ⟨sublist_of_seq h.view.obtained_sorted hproduced ?_, ?_, ?_⟩
  · intro f hf
    obtain ⟨k, hk⟩ := h.view.obtained_written hf
    exact h.view.known f (List.mem_of_getElem? hk)
  · exact h.view.obtained_sorted.imp fun hlt heq => by simp [heq] at hlt
  · intro f hf hheld
    obtain ⟨x, hslot, hlap, hclear⟩ := h.view.tail
    obtain ⟨j, hj, rfl⟩ := List.mem_map.mp hheld
    have hcount : (ringBufferCount s.rb).toNat = s.view.accepted.length - x :=
      toNat_ringBufferCount hslot h.view.head hclear.1 hlap
    have hjlt : x + j < s.view.accepted.length := by
      have := List.mem_range.mp hj
      rw [hcount] at this
      omega
    have hpos : (s.rb.tail.toNat + j) % s.rb.capacity.toNat = (x + j) % s.view.cap := by
      have htail : s.rb.tail.toNat = x % s.rb.capacity.toNat := hslot
      rw [htail]
      exact Nat.mod_add_mod _ _ _
    have hget := h.view.getElem?_written (List.getElem?_eq_getElem hjlt)
    have hunf := h.view.unfinished
    have hslots := h.view.slots (x + j) _ hget (by omega)
    rw [hpos] at hf
    change s.view.rb.slots _ ∈ s.obtained at hf
    rw [hslots] at hf
    have hplace : ∀ k, s.view.written[k]? = some s.view.accepted[x + j] → k = x + j :=
      fun k hk => le_antisymm (h.view.pos_le le_rfl hk hget)
        (h.view.pos_le le_rfl hget hk)
    rcases hclear.2 with hbehind | ⟨-, -, hall⟩
    · obtain ⟨k, hk, hgetk⟩ := hbehind _ hf
      have := hplace k hgetk
      omega
    · obtain ⟨k, hk, hgetk⟩ := hall _ hf
      have := hplace k hgetk
      omega

/-- In every interleaving whose steps are in order the consumer gets produced
frames in their order, each at most once, and the ring does not go back to a
frame that the consumer has got. The copy of a slot is one step of either side. -/
theorem keepsOrder_run {nameOk sysOk : Bool} {capacity itemSize : UInt32}
    {slots : ℕ → Frame β} {rb : RingBuffer (Frame β)}
    (hcreate : ringBufferCreate nameOk capacity itemSize sysOk slots = some rb)
    {evs : List (AudioEvent β)}
    (hevs : Guarded audioStep StepInOrder (AudioState.start rb) evs) :
    KeepsOrder (run audioStep (AudioState.start rb) evs) := by
  obtain ⟨rfl, hcap⟩ := ringBufferCreate_eq_some hcreate
  exact (run_invariant_of_guarded audioInv_audioStep
    (audioInv_start rfl rfl hcap) hevs).keepsOrder

def wholeWrite : List (AudioEvent Unit) :=
  [.produce (), .producerStep, .producerStep, .producerStep]

def wholeRead : List (AudioEvent Unit) :=
  [.consume, .consumerStep, .consumerStep, .consumerStep]

/-- A ring of two slots in which the producer drops its first frame. -/
theorem keepsOrder_run_drop :
    let s := run audioStep (AudioState.start ⟨0, 0, 2, 4, fun _ => ⟨0, ()⟩⟩)
      (wholeWrite ++ [.produce (), .producerStep, .producerStep, .producerStep,
        .producerStep, .producerStep] ++ wholeRead)
    KeepsOrder s ∧ s.rb.tail = 1 := by
  refine ⟨keepsOrder_run (rfl : ringBufferCreate true 2 4 true _ = some _) ?_, rfl⟩
  exact ⟨trivial, trivial, trivial, trivial, trivial, trivial, trivial, trivial, trivial,
    nofun, trivial, trivial, trivial, trivial, trivial⟩

/-- The ring of the audio service. -/
def audioRing : RingBuffer (Frame Unit) := ⟨0, 0, ringCapacity, ringItemSize, fun _ => ⟨0, ()⟩⟩

/-- The ring is full. The producer is about to end the drop of frame 0 when the
consumer reads frames 0 and 1; then the producer stores its tail, and the
consumer reads again. -/
def overtakenDrop : List (AudioEvent Unit) :=
  (List.replicate 63 wholeWrite).flatten ++
    [.produce (), .producerStep, .producerStep, .producerStep, .producerStep] ++
    wholeRead ++ wholeRead ++ [.producerStep] ++ wholeRead

/-- The consumer gets frame 1 twice. -/
theorem frame_obtained_twice :
    ringBufferCreate true ringCapacity ringItemSize true (fun _ => ⟨0, ()⟩) =
        some audioRing ∧
      ¬KeepsOrder (run audioStep (AudioState.start audioRing) overtakenDrop) := by
  refine ⟨rfl, fun h => ?_⟩
  have hobtained : (run audioStep (AudioState.start audioRing) overtakenDrop).obtained =
      [⟨0, ()⟩, ⟨1, ()⟩, ⟨1, ()⟩] := by
    decide +kernel
  have hnodup := h.nodup
  rw [hobtained] at hnodup
  revert hnodup
  decide

end Services

end Shinigami
