import Mathlib.Data.Int.Notation
import Shinigami.Foundations.CString
import Shinigami.Foundations.RingHistory
import Shinigami.Foundations.Run

/-!
# Event history

The history that `sm_eventbus.c` keeps of the events published last. An event is
recorded under the lock, before it is delivered; what the callbacks publish is recorded
behind it. The ring is written at the slot behind the current one, and a reader counts
its slots back from there in signed arithmetic.
-/

namespace Shinigami

namespace ServiceManager

open CString

def maxEventHistory : ℕ := 512

/-- `sm_event_priority_t`. -/
inductive SmEventPriority
  | low
  | normal
  | high
  | critical
deriving DecidableEq

/-- `sm_event_t`. -/
structure SmEvent where
  eventType : List UInt8
  publisherService : List UInt8
  eventData : List UInt8
  priority : SmEventPriority
  timestamp : ℤ
  eventId : UInt64
deriving DecidableEq

/-- An event in zeroed memory. -/
def SmEvent.zero : SmEvent where
  eventType := List.replicate 128 0
  publisherService := List.replicate 64 0
  eventData := List.replicate 512 0
  priority := .low
  timestamp := 0
  eventId := 0

/-- `event_history_t`. -/
structure EventHistory where
  events : ℕ → SmEvent
  eventCount : ℤ
  currentIdx : ℤ

def EventHistory.zero : EventHistory := ⟨fun _ => .zero, 0, 0⟩

/-- `g_eventbus`, without its subscribers and statistics. -/
structure EventBus where
  history : EventHistory
  nextEventId : UInt64
  initialized : Bool

def EventBus.zero : EventBus := ⟨.zero, 0, false⟩

/-- `sm_eventbus_init`; `lockOk` is the outcome of `pthread_rwlock_init`. -/
def smEventbusInit (s : EventBus) (maxSubscribersPerEvent : ℤ) (lockOk : Bool) :
    EventBus × ℤ :=
  if s.initialized then (s, 0)
  else if maxSubscribersPerEvent ≤ 0 ∨ maxSubscribersPerEvent > 512 then (s, -1)
  else if !lockOk then (.zero, -1)
  else ({ EventBus.zero with nextEventId := 1, initialized := true }, 0)

def EventHistory.add (h : EventHistory) (event : SmEvent) : EventHistory :=
  let currentIdx := (h.currentIdx + 1).tmod maxEventHistory
  { events := Function.update h.events currentIdx.toNat event
    eventCount := if h.eventCount < maxEventHistory then h.eventCount + 1 else h.eventCount
    currentIdx := currentIdx }

def newEvent (s : EventBus) (eventType publisherService : List UInt8)
    (eventData : Option (List UInt8)) (priority : SmEventPriority) (now : ℤ) : SmEvent where
  eventType := strncpyField 128 eventType
  publisherService := strncpyField 64 publisherService
  eventData := strncpyField 512 (eventData.getD [])
  priority := priority
  timestamp := now
  eventId := s.nextEventId

/-- The event that `sm_eventbus_publish` records, if it records one. -/
def publishedEvent (s : EventBus) (eventType publisherService eventData : Option (List UInt8))
    (priority : SmEventPriority) (now : ℤ) : Option SmEvent :=
  if !s.initialized then none
  else
    match eventType, publisherService with
    | some eventType, some publisherService =>
        some (newEvent s eventType publisherService eventData priority now)
    | _, _ => none

/-- `sm_eventbus_publish`, up to the delivery; a string `none` is a null pointer. -/
def smEventbusPublish (s : EventBus) (eventType publisherService eventData : Option (List UInt8))
    (priority : SmEventPriority) (now : ℤ) : EventBus × UInt64 :=
  match publishedEvent s eventType publisherService eventData priority now with
  | none => (s, 0)
  | some event =>
      ({ s with history := s.history.add event, nextEventId := s.nextEventId + 1 },
        event.eventId)

/-- `sm_eventbus_clear_history`. -/
def smEventbusClearHistory (s : EventBus) : EventBus × ℤ :=
  if !s.initialized then (s, -1) else ({ s with history := .zero }, 0)

/-- `sm_eventbus_cleanup`. -/
def smEventbusCleanup (s : EventBus) : EventBus := if !s.initialized then s else .zero

/-- The filter of `sm_eventbus_get_event_history`; `none` is a null pointer. -/
def matchesType (eventType : Option (List UInt8)) (event : SmEvent) : Bool :=
  match eventType with
  | none => true
  | some eventType => strcmpEq eventType event.eventType

/-- The slot that the reader looks at in round `i`. -/
def historyIdx (h : EventHistory) (i : ℕ) : ℤ :=
  (h.currentIdx - h.eventCount + i + 1).tmod maxEventHistory

/-- The memory at an index of `events`; `outside` is what lies around the array. -/
def readEvent (h : EventHistory) (outside : ℤ → SmEvent) (idx : ℤ) : SmEvent :=
  if 0 ≤ idx ∧ idx < maxEventHistory then h.events idx.toNat else outside idx

structure HistoryRead where
  accessed : List ℤ
  buffer : List SmEvent

def historyRound (h : EventHistory) (outside : ℤ → SmEvent) (eventType : Option (List UInt8))
    (maxEvents : ℤ) (r : HistoryRead) (i : ℕ) : HistoryRead :=
  if (r.buffer.length : ℤ) < maxEvents then
    let event := readEvent h outside (historyIdx h i)
    { accessed := r.accessed ++ [historyIdx h i]
      buffer := if matchesType eventType event then r.buffer ++ [event] else r.buffer }
  else r

/-- `sm_eventbus_get_event_history` with a buffer of `maxEvents` events. -/
def smEventbusGetEventHistory (s : EventBus) (outside : ℤ → SmEvent)
    (eventType : Option (List UInt8)) (maxEvents : ℤ) : HistoryRead :=
  if maxEvents ≤ 0 then ⟨[], []⟩
  else
    (List.range s.history.eventCount.toNat).foldl
      (historyRound s.history outside eventType maxEvents) ⟨[], []⟩

/-- The calls that change the history. -/
inductive BusCall
  | init (maxSubscribersPerEvent : ℤ) (lockOk : Bool)
  | publish (eventType publisherService eventData : Option (List UInt8))
      (priority : SmEventPriority) (now : ℤ)
  | clearHistory
  | cleanup

structure BusState where
  bus : EventBus
  sinceClear : List SmEvent

def BusState.start : BusState := ⟨.zero, []⟩

def busStep (s : BusState) : BusCall → BusState
  | .init maxSubscribersPerEvent lockOk =>
      ⟨(smEventbusInit s.bus maxSubscribersPerEvent lockOk).1, s.sinceClear⟩
  | .publish eventType publisherService eventData priority now =>
      ⟨(smEventbusPublish s.bus eventType publisherService eventData priority now).1,
        s.sinceClear ++
          (publishedEvent s.bus eventType publisherService eventData priority now).toList⟩
  | .clearHistory =>
      ⟨(smEventbusClearHistory s.bus).1, if s.bus.initialized then [] else s.sinceClear⟩
  | .cleanup => ⟨smEventbusCleanup s.bus, if s.bus.initialized then [] else s.sinceClear⟩

/-- A reader stays in the array and gets the matching ones of the last events, the
oldest first. -/
structure HistoryCorrect (sinceClear : List SmEvent) (eventType : Option (List UInt8))
    (r : HistoryRead) : Prop where
  accessed : ∀ idx ∈ r.accessed, 0 ≤ idx ∧ idx < maxEventHistory
  buffer : r.buffer =
    (sinceClear.drop (sinceClear.length - maxEventHistory)).filter (matchesType eventType)

/-- The ring holds the events since the history was last cleared, from slot 1 on. -/
structure HistoryInv (h : EventHistory) (sinceClear : List SmEvent) : Prop where
  events : h.events = ringWrites maxEventHistory (fun _ => .zero) 1 sinceClear
  eventCount : h.eventCount = min sinceClear.length maxEventHistory
  currentIdx : h.currentIdx = (sinceClear.length % maxEventHistory : ℕ)

structure BusInv (s : BusState) : Prop where
  history : HistoryInv s.bus.history s.sinceClear
  uninitialized : s.bus.initialized = false → s.sinceClear = []

section Runs

theorem historyInv_zero : HistoryInv .zero [] := ⟨rfl, rfl, rfl⟩

theorem HistoryInv.add {h : EventHistory} {sinceClear : List SmEvent}
    (hinv : HistoryInv h sinceClear) (event : SmEvent) :
    HistoryInv (h.add event) (sinceClear ++ [event]) := by
  have hnext : (h.currentIdx + 1).tmod maxEventHistory =
      ((1 + sinceClear.length) % maxEventHistory : ℕ) := by
    rw [hinv.currentIdx, Int.tmod_eq_emod_of_nonneg (by omega)]
    simp only [maxEventHistory]
    omega
  constructor
  · simp only [EventHistory.add, hnext, Int.toNat_natCast]
    rw [ringWrites_concat, hinv.events]
  · simp only [EventHistory.add, hinv.eventCount, List.length_append, List.length_singleton,
      maxEventHistory]
    split_ifs
    · omega
    · omega
  · simp only [EventHistory.add, hnext, List.length_append, List.length_singleton,
      Nat.add_comm 1]

theorem busInv_step (s : BusState) (call : BusCall) (h : BusInv s) : BusInv (busStep s call) := by
  cases call with
  | init maxSubscribersPerEvent lockOk =>
      simp only [busStep, smEventbusInit]
      split_ifs with hinit
      · exact h
      · exact h
      · have hempty := h.uninitialized (by simpa using hinit)
        exact ⟨hempty ▸ historyInv_zero, fun _ => hempty⟩
      · have hempty := h.uninitialized (by simpa using hinit)
        exact ⟨hempty ▸ historyInv_zero, fun _ => hempty⟩
  | publish eventType publisherService eventData priority now =>
      simp only [busStep, smEventbusPublish]
      cases hevent : publishedEvent s.bus eventType publisherService eventData priority now with
      | none => simpa using h
      | some event =>
          refine ⟨h.history.add event, fun hinit => ?_⟩
          have hoff : s.bus.initialized = false := hinit
          simp [publishedEvent, hoff] at hevent
  | clearHistory =>
      simp only [busStep, smEventbusClearHistory]
      cases hinit : s.bus.initialized with
      | false => simpa using h
      | true => exact ⟨historyInv_zero, fun _ => rfl⟩
  | cleanup =>
      simp only [busStep, smEventbusCleanup]
      cases hinit : s.bus.initialized with
      | false => simpa using h
      | true => exact ⟨historyInv_zero, fun _ => rfl⟩

theorem busInv_run (calls : List BusCall) : BusInv (run busStep .start calls) :=
  run_invariant (P := fun _ => True) (fun s call _ h => busInv_step s call h)
    ⟨historyInv_zero, fun _ => rfl⟩ (fun _ _ => trivial)

end Runs

section Reader

variable {h : EventHistory} {sinceClear : List SmEvent} {outside : ℤ → SmEvent}
  {eventType : Option (List UInt8)} {maxEvents : ℤ}

theorem foldl_historyRound {n : ℕ} (hroom : (n : ℤ) ≤ maxEvents) :
    (List.range n).foldl (historyRound h outside eventType maxEvents) ⟨[], []⟩ =
      { accessed := (List.range n).map (historyIdx h)
        buffer := ((List.range n).map fun i => readEvent h outside (historyIdx h i)).filter
          (matchesType eventType) } := by
  induction n with
  | zero => rfl
  | succ n ih =>
      have hlen : ((((List.range n).map fun i => readEvent h outside (historyIdx h i)).filter
          (matchesType eventType)).length : ℤ) < maxEvents := by
        have hle := List.length_filter_le (matchesType eventType)
          ((List.range n).map fun i => readEvent h outside (historyIdx h i))
        rw [List.length_map, List.length_range] at hle
        omega
      rw [List.range_succ, List.foldl_append, ih (by omega), List.foldl_cons, List.foldl_nil,
        historyRound, if_pos hlen, List.map_append, List.map_append, List.filter_append]
      by_cases hmatch : matchesType eventType (readEvent h outside (historyIdx h n)) = true
      · simp [hmatch]
      · simp [hmatch]

/-- The slot of round `i`, while the ring is not full or the current slot is the
last one. -/
theorem historyIdx_eq (hinv : HistoryInv h sinceClear)
    (hwhole : sinceClear.length < maxEventHistory ∨
      sinceClear.length % maxEventHistory = maxEventHistory - 1) {i : ℕ}
    (hi : i < min sinceClear.length maxEventHistory) :
    historyIdx h i =
      ((1 + (sinceClear.length - min sinceClear.length maxEventHistory) + i) %
        maxEventHistory : ℕ) := by
  rw [historyIdx, hinv.currentIdx, hinv.eventCount]
  simp only [maxEventHistory] at hwhole hi ⊢
  rw [Int.tmod_eq_emod_of_nonneg (by omega)]
  omega

/-- Round 0 of a full ring looks in front of the array, unless the current slot is the
last one. -/
theorem historyIdx_zero_neg (hinv : HistoryInv h sinceClear)
    (hfull : maxEventHistory ≤ sinceClear.length)
    (hcur : sinceClear.length % maxEventHistory ≠ maxEventHistory - 1) :
    historyIdx h 0 < 0 := by
  have hlt := Nat.mod_lt sinceClear.length (by decide : 0 < maxEventHistory)
  have hback : h.currentIdx - h.eventCount + (0 : ℕ) + 1 =
      -((maxEventHistory - 1 - sinceClear.length % maxEventHistory : ℕ) : ℤ) := by
    rw [hinv.currentIdx, hinv.eventCount]
    simp only [maxEventHistory] at hfull hlt ⊢
    omega
  rw [historyIdx, hback, Int.neg_tmod, Int.tmod_eq_of_lt (by omega) (by omega)]
  simp only [maxEventHistory] at hcur hlt ⊢
  omega

theorem historyCorrect_iff (hinv : HistoryInv h sinceClear)
    (hmax : (maxEventHistory : ℤ) ≤ maxEvents) :
    HistoryCorrect sinceClear eventType
        ((List.range h.eventCount.toNat).foldl (historyRound h outside eventType maxEvents)
          ⟨[], []⟩) ↔
      sinceClear.length < maxEventHistory ∨
        sinceClear.length % maxEventHistory = maxEventHistory - 1 := by
  have hcount : h.eventCount.toNat = min sinceClear.length maxEventHistory := by
    rw [hinv.eventCount]
    omega
  rw [hcount, foldl_historyRound (by omega)]
  constructor
  · intro hcorrect
    by_contra hwhole
    rw [not_or, Nat.not_lt] at hwhole
    have hneg := historyIdx_zero_neg hinv hwhole.1 hwhole.2
    have hmem : historyIdx h 0 ∈
        (List.range (min sinceClear.length maxEventHistory)).map (historyIdx h) :=
      List.mem_map_of_mem (List.mem_range.mpr (by simp only [maxEventHistory] at hwhole ⊢; omega))
    have hnonneg := (hcorrect.accessed _ hmem).1
    omega
  · intro hwhole
    have hidx : ∀ i < min sinceClear.length maxEventHistory, historyIdx h i =
        ((1 + (sinceClear.length - min sinceClear.length maxEventHistory) + i) %
          maxEventHistory : ℕ) := fun i hi => historyIdx_eq hinv hwhole hi
    constructor
    · intro idx hmem
      obtain ⟨i, hi, rfl⟩ := List.mem_map.mp hmem
      rw [hidx i (List.mem_range.mp hi)]
      have hlt := Nat.mod_lt
        (1 + (sinceClear.length - min sinceClear.length maxEventHistory) + i)
        (by decide : 0 < maxEventHistory)
      omega
    · have hlast : sinceClear.length - maxEventHistory =
          sinceClear.length - min sinceClear.length maxEventHistory := by omega
      rw [hlast, ← map_ringWrites (fun _ => SmEvent.zero) 1 (Nat.min_le_left _ _)
        (Nat.min_le_right _ _)]
      refine congrArg (List.filter (matchesType eventType))
        (List.map_congr_left fun i hi => ?_)
      have hlt := Nat.mod_lt
        (1 + (sinceClear.length - min sinceClear.length maxEventHistory) + i)
        (by decide : 0 < maxEventHistory)
      rw [hidx i (List.mem_range.mp hi), readEvent, if_pos (by omega), Int.toNat_natCast,
        hinv.events]

end Reader

/-- After any run the history is read correctly exactly when the ring has not been
filled, or its current slot is the last one. The type of an event is the field of its
record, which keeps 127 characters. -/
theorem eventHistory_correct_iff (calls : List BusCall) (outside : ℤ → SmEvent)
    (eventType : Option (List UInt8)) (maxEvents : ℤ)
    (hmax : (maxEventHistory : ℤ) ≤ maxEvents) :
    let s := run busStep .start calls
    HistoryCorrect s.sinceClear eventType
        (smEventbusGetEventHistory s.bus outside eventType maxEvents) ↔
      s.sinceClear.length < maxEventHistory ∨
        s.sinceClear.length % maxEventHistory = maxEventHistory - 1 := by
  intro s
  have hpos : ¬maxEvents ≤ 0 := by
    simp only [maxEventHistory] at hmax
    omega
  rw [smEventbusGetEventHistory, if_neg hpos]
  exact historyCorrect_iff (busInv_run calls).history hmax

/-- A publication by `svc`. -/
def publishTick : BusCall :=
  .publish (some (ascii ['t', 'i', 'c', 'k'])) (some (ascii ['s', 'v', 'c'])) none .normal 0

theorem busStep_publishTick {s : BusState} (hinit : s.bus.initialized = true) :
    (busStep s publishTick).sinceClear.length = s.sinceClear.length + 1 ∧
      (busStep s publishTick).bus.initialized = true := by
  simp [publishTick, busStep, publishedEvent, smEventbusPublish, hinit]

theorem length_run_publishTick (n : ℕ) :
    (run busStep .start (.init 16 true :: List.replicate n publishTick)).sinceClear.length = n ∧
      (run busStep .start (.init 16 true :: List.replicate n publishTick)).bus.initialized =
        true := by
  induction n with
  | zero => exact ⟨rfl, rfl⟩
  | succ n ih =>
      have hsplit : BusCall.init 16 true :: List.replicate (n + 1) publishTick =
          (.init 16 true :: List.replicate n publishTick) ++ [publishTick] := by
        rw [List.replicate_succ', List.cons_append]
      have hstep := busStep_publishTick ih.2
      rw [hsplit, run_concat]
      exact ⟨hstep.1.trans (congrArg (· + 1) ih.1), hstep.2⟩

/-- With 1023 publications the ring is full, and its last slot is the current one. -/
theorem eventHistory_correct_lap :
    let s := run busStep .start (.init 16 true :: List.replicate 1023 publishTick)
    s.sinceClear.length = 1023 ∧
      HistoryCorrect s.sinceClear (some (ascii ['t', 'i', 'c', 'k']))
        (smEventbusGetEventHistory s.bus (fun _ => .zero)
          (some (ascii ['t', 'i', 'c', 'k'])) 600) := by
  have hlen := (length_run_publishTick 1023).1
  refine ⟨hlen, (eventHistory_correct_iff _ (fun _ => .zero) _ 600 (by decide)).mpr (.inr ?_)⟩
  rw [hlen]
  decide

/-- Behind the 512th publication the reader starts 511 events in front of the array. -/
theorem not_eventHistory_correct_full :
    ¬∀ (calls : List BusCall) (outside : ℤ → SmEvent) (eventType : Option (List UInt8))
        (maxEvents : ℤ), (maxEventHistory : ℤ) ≤ maxEvents →
      HistoryCorrect (run busStep .start calls).sinceClear eventType
        (smEventbusGetEventHistory (run busStep .start calls).bus outside eventType
          maxEvents) := by
  intro h
  have hcorrect := h (.init 16 true :: List.replicate 512 publishTick) (fun _ => .zero) none
    maxEventHistory (Int.le_refl _)
  rw [smEventbusGetEventHistory, if_neg (by decide),
    historyCorrect_iff (busInv_run _).history (Int.le_refl _),
    (length_run_publishTick 512).1] at hcorrect
  exact absurd hcorrect (by decide)

end ServiceManager

end Shinigami
