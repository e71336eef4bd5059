import Mathlib.Data.List.Sort
import Shinigami.Core.RingBuffer
import Shinigami.Foundations.Run

/-!
# Audio frames through the ring buffer

The producer of `audio_service_loop.c` and one consumer of its ring buffer, in
any interleaving of their atomic operations. `on_hal_data` writes a frame; if the
ring is full it reads the oldest frame itself, throws it away, and writes again,
whatever both calls return. So the producer is a second reader, and `tail` has
two sides that load it, copy a slot and store it.

A frame carries the number it was produced under. That number and the logs of the
state are not part of the program: `produced` holds every frame given to
`on_hal_data`, `accepted` those whose write has ended, and `obtained` those the
consumer has got.
-/

namespace Shinigami

namespace Services

open Shinigami.Core

/-- The arguments of `ring_buffer_create` in `audio_service_loop_run`. -/
def ringCapacity : UInt32 := 64

def ringItemSize : UInt32 := 4096

/-- A frame of samples with its production number. -/
structure Frame (β : Type*) where
  seq : ℕ
  content : β
deriving DecidableEq

variable {β : Type*}

/-- Where `on_hal_data` stands: in its first or second write, before or in the
read that drops a frame, or before its second write. -/
inductive ProducerPhase (β : Type*)
  | idle
  | write (phase : WritePhase (Frame β)) (retry : Bool)
  | dropBegin (frame : Frame β)
  | drop (frame : Frame β) (phase : ReadPhase (Frame β))
  | retryBegin (frame : Frame β)

structure AudioState (β : Type*) where
  rb : RingBuffer (Frame β)
  producer : ProducerPhase β
  consumer : Option (ReadPhase (Frame β))
  produced : List (Frame β)
  accepted : List (Frame β)
  obtained : List (Frame β)

inductive AudioEvent (β : Type*)
  | produce (content : β)
  | producerStep
  | consume
  | consumerStep

def AudioState.start (rb : RingBuffer (Frame β)) : AudioState β :=
  ⟨rb, .idle, none, [], [], []⟩

/-- One step of `on_hal_data`. -/
def producerStep (s : AudioState β) : AudioState β :=
  match s.producer with
  | .idle => s
  | .write phase retry =>
      match writeStep s.rb phase with
      | (rb, .next phase') => { s with rb := rb, producer := .write phase' retry }
      | (rb, .done rc) =>
          { s with
            rb := rb
            producer :=
              if rc = rbErrorFull ∧ retry = false then .dropBegin phase.item else .idle
            accepted :=
              if rc = rbSuccess then s.accepted ++ [phase.item] else s.accepted }
  | .dropBegin frame => { s with producer := .drop frame (readBegin s.rb) }
  | .drop frame phase =>
      match readStep s.rb phase with
      | (rb, .next phase') => { s with rb := rb, producer := .drop frame phase' }
      | (rb, .done _) => { s with rb := rb, producer := .retryBegin frame }
  | .retryBegin frame => { s with producer := .write (writeBegin s.rb frame) true }

def consumerStep (s : AudioState β) : AudioState β :=
  match s.consumer with
  | none => s
  | some phase =>
      match readStep s.rb phase with
      | (rb, .next phase') => { s with rb := rb, consumer := some phase' }
      | (rb, .done result) =>
          { s with rb := rb, consumer := none, obtained := s.obtained ++ result.toList }

/-- One step of either side; a side that has nothing to do stays where it is. -/
def audioStep (s : AudioState β) : AudioEvent β → AudioState β
  | .produce content =>
      match s.producer with
      | .idle =>
          let frame : Frame β := ⟨s.produced.length, content⟩
          { s with
            producer := .write (writeBegin s.rb frame) false
            produced := s.produced ++ [frame] }
      | _ => s
  | .producerStep => producerStep s
  | .consume =>
      match s.consumer with
      | some _ => s
      | none => { s with consumer := some (readBegin s.rb) }
  | .consumerStep => consumerStep s

/-- The frames between `tail` and `head`, from the oldest on. -/
def heldFrames (rb : RingBuffer (Frame β)) : List (Frame β) :=
  (List.range (ringBufferCount rb).toNat).map fun k =>
    rb.slots ((rb.tail.toNat + k) % rb.capacity.toNat)

/-- The consumer gets produced frames in their order, each at most once, and the
ring does not go back to a frame that the consumer has got. -/
structure KeepsOrder (s : AudioState β) : Prop where
  sublist : s.obtained.Sublist s.produced
  nodup : s.obtained.Nodup
  not_again : ∀ f ∈ s.obtained, f ∉ heldFrames s.rb

/-- A step is in order when it does not undo progress of the consumer: the
producer ends a drop only if the consumer has not got a newer frame than the one
it drops, and the consumer finds the ring non-empty only after the write of the
frame it got last has ended. -/
def StepInOrder (s : AudioState β) : AudioEvent β → Prop
  | .producerStep =>
      match s.producer with
      | .drop _ (.storeTail _ item) => ∀ f ∈ s.obtained, f.seq ≤ item.seq
      | _ => True
  | .consumerStep =>
      match s.consumer, s.producer with
      | some (.loadHead tail), .write (.storeHead frame _) _ =>
          tail ≠ s.rb.head → frame ∉ s.obtained
      | _, _ => True
  | _ => True

end Services

end Shinigami
