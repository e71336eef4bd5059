import Shinigami.ServiceManager.Enterprise.EventHistory
import Mathlib.Data.List.Nodup
import Mathlib.Data.List.Perm.Subperm

/-!
# Admission of subscriptions

The subscribers of the event bus: `sm_eventbus_subscribe` takes the next slot of a table of
`MAX_SUBSCRIBERS_GLOBAL`, `sm_eventbus_unsubscribe` marks a slot inactive. Slots are never
taken again, and the limit for one event type that `sm_eventbus_init` stores is not looked
at. The ghost field `live` lists the subscriptions that were admitted and have not been
cancelled, under the event type that was asked for; `subscriptionsCorrect_iff` says for which
calls the admission is the one that the two limits describe.
-/

namespace Shinigami

namespace ServiceManager

namespace Subscriptions

open CString

variable {κ : Type}

/-- `MAX_SUBSCRIBERS_GLOBAL`. -/
def maxSubscribersGlobal : ℕ := 4096

/-- `subscriber_t`; the callback `none` is a null pointer. -/
structure Subscriber (κ : Type) where
  subscriptionId : ℤ
  eventType : List UInt8
  callback : Option κ
  userdata : ℕ
  active : Bool

/-- A slot in zeroed memory. -/
def Subscriber.zero : Subscriber κ := ⟨0, List.replicate 128 0, none, 0, false⟩

structure Subscription (κ : Type) where
  id : ℤ
  eventType : List UInt8
  callback : κ
  userdata : ℕ

/-- `g_eventbus`, without its statistics; `live` is ghost. -/
structure SubscriberBus (κ : Type) where
  bus : EventBus
  subscribers : ℕ → Subscriber κ
  subscriberCount : ℕ
  maxSubsPerEvent : ℤ
  live : List (Subscription κ)

def SubscriberBus.zero : SubscriberBus κ := ⟨.zero, fun _ => .zero, 0, 0, []⟩

/-- `sm_eventbus_init`; `lockOk` is the outcome of `pthread_rwlock_init`. -/
def initSubscribers (s : SubscriberBus κ) (maxSubscribersPerEvent : ℤ) (lockOk : Bool) :
    SubscriberBus κ × ℤ :=
  if s.bus.initialized then (s, 0)
  else if maxSubscribersPerEvent ≤ 0 ∨ maxSubscribersPerEvent > 512 then (s, -1)
  else if !lockOk then (.zero, -1)
  else
    ({ SubscriberBus.zero with
        bus := { EventBus.zero with nextEventId := 1, initialized := true }
        maxSubsPerEvent := maxSubscribersPerEvent }, 0)

def SubscriberBus.admitted (s : SubscriberBus κ) (eventType : List UInt8) (callback : κ)
    (userdata : ℕ) : SubscriberBus κ :=
  let subId := s.subscriberCount
  let sub : Subscriber κ :=
    { subscriptionId := subId
      eventType := strncpyField 128 eventType
      callback := some callback
      userdata := userdata
      active := true }
  { s with
    subscribers := Function.update s.subscribers subId sub
    subscriberCount := s.subscriberCount + 1
    live := s.live ++ [⟨subId, cstr eventType, callback, userdata⟩] }

/-- `sm_eventbus_subscribe`; an event type or a callback `none` is a null pointer. -/
def smEventbusSubscribe (s : SubscriberBus κ) (eventType : Option (List UInt8))
    (callback : Option κ) (userdata : ℕ) : SubscriberBus κ × ℤ :=
  if !s.bus.initialized then (s, -1)
  else
    match eventType, callback with
    | some eventType, some callback =>
        if s.subscriberCount ≥ maxSubscribersGlobal then (s, -1)
        else (s.admitted eventType callback userdata, s.subscriberCount)
    | _, _ => (s, -1)

/-- `sm_eventbus_unsubscribe`. -/
def smEventbusUnsubscribe (s : SubscriberBus κ) (subscriptionId : ℤ) : SubscriberBus κ × ℤ :=
  if !s.bus.initialized then (s, -1)
  else if subscriptionId < 0 ∨ subscriptionId ≥ s.subscriberCount then (s, -1)
  else
    let i := subscriptionId.toNat
    ({ s with
        subscribers := Function.update s.subscribers i { s.subscribers i with active := false }
        live := s.live.filter fun sub => sub.id ≠ subscriptionId }, 0)

/-- The calls of the clients. -/
inductive Call (κ : Type)
  | subscribe (eventType : Option (List UInt8)) (callback : Option κ) (userdata : ℕ)
  | unsubscribe (subscriptionId : ℤ)

def step (s : SubscriberBus κ) : Call κ → SubscriberBus κ
  | .subscribe eventType callback userdata =>
      (smEventbusSubscribe s eventType callback userdata).1
  | .unsubscribe subscriptionId => (smEventbusUnsubscribe s subscriptionId).1

/-- The history and the flags of the bus are those of its own initialisation. -/
theorem bus_initSubscribers (s : SubscriberBus κ) (m : ℤ) (lockOk : Bool) :
    (initSubscribers s m lockOk).1.bus = (smEventbusInit s.bus m lockOk).1 := by
  unfold initSubscribers smEventbusInit
  split_ifs <;> rfl

def liveOfType (s : SubscriberBus κ) (eventType : List UInt8) : List (Subscription κ) :=
  s.live.filter fun sub => sub.eventType = cstr eventType

/-- There is room for one more subscription of the type, with at most `m` for a type. -/
def HasRoom (m : ℤ) (s : SubscriberBus κ) (eventType : List UInt8) : Prop :=
  s.live.length < maxSubscribersGlobal ∧ ((liveOfType s eventType).length : ℤ) < m

def AdmissionCorrect (m : ℤ) (s : SubscriberBus κ) : Call κ → Prop
  | .subscribe (some eventType) (some callback) userdata =>
      0 ≤ (smEventbusSubscribe s (some eventType) (some callback) userdata).2 ↔
        HasRoom m s eventType
  | _ => True

def Identifies (s : SubscriberBus κ) (sub : Subscription κ) : Prop :=
  ∃ i < s.subscriberCount, sub.id = i ∧
    s.subscribers i =
      ⟨sub.id, strncpyField 128 sub.eventType, some sub.callback, sub.userdata, true⟩

structure IdsIdentify (s : SubscriberBus κ) : Prop where
  identifies : ∀ sub ∈ s.live, Identifies s sub
  nodup : (s.live.map Subscription.id).Nodup

/-- What is asked of a call, in the state that it meets. -/
def CallCorrect (m : ℤ) (s : SubscriberBus κ) (call : Call κ) : Prop :=
  AdmissionCorrect m s call ∧ IdsIdentify (step s call)

/-- The calls at which the admission is right: while slots are left the type has room, and
when none is left the bus is full or the type has none; a bus whose initialisation failed
must not have been given a positive limit. -/
def AdmissionFits (m : ℤ) (s : SubscriberBus κ) : Call κ → Prop
  | .subscribe (some eventType) (some _) _ =>
      if s.bus.initialized then
        if s.subscriberCount < maxSubscribersGlobal then
          ((liveOfType s eventType).length : ℤ) < m
        else
          maxSubscribersGlobal ≤ s.live.length ∨ m ≤ (liveOfType s eventType).length
      else m ≤ 0
  | _ => True

structure SubscriptionInv (s : SubscriberBus κ) : Prop where
  ids : IdsIdentify s
  count_le : s.subscriberCount ≤ maxSubscribersGlobal
  idle : s.bus.initialized = false → s.live = []

theorem Identifies.id_lt {s : SubscriberBus κ} {sub : Subscription κ} (h : Identifies s sub) :
    sub.id < s.subscriberCount := by
  obtain ⟨i, hi, hid, -⟩ := h
  omega

theorem Identifies.update {s s' : SubscriberBus κ} {sub : Subscription κ} {i : ℕ}
    {slot : Subscriber κ} (h : Identifies s sub) (hne : sub.id ≠ i)
    (hsubscribers : s'.subscribers = Function.update s.subscribers i slot)
    (hcount : s.subscriberCount ≤ s'.subscriberCount) : Identifies s' sub := by
  obtain ⟨j, hj, hid, hslot⟩ := h
  have hji : j ≠ i := fun heq => hne (heq ▸ hid)
  refine ⟨j, by omega, hid, ?_⟩
  rw [hsubscribers, Function.update_of_ne hji, hslot]

theorem strncpyField_cstr (n : ℕ) (s : List UInt8) :
    strncpyField n (cstr s) = strncpyField n s := by
  simp [strncpyField, cstr_eq_self (zero_notMem_cstr s)]

theorem smEventbusSubscribe_cases (s : SubscriberBus κ) (eventType : Option (List UInt8))
    (callback : Option κ) (userdata : ℕ) :
    smEventbusSubscribe s eventType callback userdata = (s, -1) ∨
      ∃ et cb, eventType = some et ∧ callback = some cb ∧ s.bus.initialized = true ∧
        s.subscriberCount < maxSubscribersGlobal ∧
        smEventbusSubscribe s eventType callback userdata =
          (s.admitted et cb userdata, (s.subscriberCount : ℤ)) := by
  unfold smEventbusSubscribe
  split
  · exact Or.inl rfl
  · rename_i hinit
    split
    · rename_i et cb
      split
      · exact Or.inl rfl
      · rename_i hfull
        exact Or.inr ⟨et, cb, rfl, rfl, by simpa using hinit, not_le.mp hfull, rfl⟩
    · exact Or.inl rfl

theorem smEventbusUnsubscribe_cases (s : SubscriberBus κ) (subscriptionId : ℤ) :
    (smEventbusUnsubscribe s subscriptionId).1 = s ∨
      ∃ i : ℕ, subscriptionId = i ∧ i < s.subscriberCount ∧ s.bus.initialized = true ∧
        (smEventbusUnsubscribe s subscriptionId).1 =
          { s with
            subscribers := Function.update s.subscribers i
              { s.subscribers i with active := false }
            live := s.live.filter fun sub => sub.id ≠ i } := by
  unfold smEventbusUnsubscribe
  split
  · exact Or.inl rfl
  · rename_i hinit
    split
    · exact Or.inl rfl
    · rename_i hrange
      refine Or.inr ⟨subscriptionId.toNat, by omega, by omega, by simpa using hinit, ?_⟩
      have hid : ((subscriptionId.toNat : ℕ) : ℤ) = subscriptionId := by omega
      rw [hid]

section Admit

variable (s : SubscriberBus κ) (eventType : List UInt8) (callback : κ) (userdata : ℕ)

@[simp] theorem SubscriberBus.bus_admit :
    (s.admitted eventType callback userdata).bus = s.bus := rfl

@[simp] theorem SubscriberBus.subscriberCount_admit :
    (s.admitted eventType callback userdata).subscriberCount = s.subscriberCount + 1 := rfl

theorem SubscriberBus.live_admit :
    (s.admitted eventType callback userdata).live =
      s.live ++ [⟨s.subscriberCount, cstr eventType, callback, userdata⟩] := rfl

theorem SubscriberBus.subscribers_admit_self :
    (s.admitted eventType callback userdata).subscribers s.subscriberCount =
      ⟨s.subscriberCount, strncpyField 128 eventType, some callback, userdata, true⟩ :=
  Function.update_self _ _ _

end Admit

theorem SubscriptionInv.admitted {s : SubscriberBus κ} (h : SubscriptionInv s)
    (hinit : s.bus.initialized = true) (hfree : s.subscriberCount < maxSubscribersGlobal)
    (et : List UInt8) (cb : κ) (userdata : ℕ) : SubscriptionInv (s.admitted et cb userdata) := by
  have hfresh : ∀ sub ∈ s.live, sub.id ≠ s.subscriberCount := fun sub hmem =>
    (h.ids.identifies sub hmem).id_lt.ne
  refine ⟨⟨?_, ?_⟩, hfree, ?_⟩
  · intro sub hmem
    rw [SubscriberBus.live_admit] at hmem
    rcases List.mem_append.mp hmem with hold | hnew
    · exact (h.ids.identifies sub hold).update (hfresh sub hold) rfl (Nat.le_succ _)
    · rw [List.mem_singleton.mp hnew]
      refine ⟨s.subscriberCount, Nat.lt_succ_self _, rfl, ?_⟩
      rw [SubscriberBus.subscribers_admit_self, strncpyField_cstr]
  · rw [SubscriberBus.live_admit, List.map_append, List.nodup_append]
    refine ⟨h.ids.nodup, List.nodup_singleton _, ?_⟩
    intro a ha b hb
    obtain ⟨sub, hmem, rfl⟩ := List.mem_map.mp ha
    rw [List.map_singleton, List.mem_singleton] at hb
    exact hb ▸ hfresh sub hmem
  · intro hnot
    rw [SubscriberBus.bus_admit, hinit] at hnot
    cases hnot

theorem SubscriptionInv.subscribe {s : SubscriberBus κ} (h : SubscriptionInv s)
    (eventType : Option (List UInt8)) (callback : Option κ) (userdata : ℕ) :
    SubscriptionInv (smEventbusSubscribe s eventType callback userdata).1 := by
  rcases smEventbusSubscribe_cases s eventType callback userdata with
    hsame | ⟨et, cb, -, -, hinit, hfree, hnew⟩
  · rw [hsame]
    exact h
  · rw [hnew]
    exact h.admitted hinit hfree et cb userdata

theorem SubscriptionInv.unsubscribe {s : SubscriberBus κ} (h : SubscriptionInv s)
    (subscriptionId : ℤ) : SubscriptionInv (smEventbusUnsubscribe s subscriptionId).1 := by
  rcases smEventbusUnsubscribe_cases s subscriptionId with
    hsame | ⟨i, -, -, hinit, hcancelled⟩
  · rw [hsame]
    exact h
  · rw [hcancelled]
    refine ⟨⟨?_, ?_⟩, h.count_le, ?_⟩
    · intro sub hmem
      obtain ⟨hlive, hne⟩ := List.mem_filter.mp hmem
      exact (h.ids.identifies sub hlive).update (by simpa using hne) rfl le_rfl
    · exact h.ids.nodup.sublist (List.filter_sublist.map _)
    · intro hnot
      rw [hinit] at hnot
      cases hnot

theorem SubscriptionInv.step {s : SubscriberBus κ} (h : SubscriptionInv s) (call : Call κ) :
    SubscriptionInv (step s call) := by
  cases call with
  | subscribe eventType callback userdata => exact h.subscribe eventType callback userdata
  | unsubscribe subscriptionId => exact h.unsubscribe subscriptionId

/-- The ids of the live subscriptions are below the count, each taken once. -/
theorem SubscriptionInv.length_live_le {s : SubscriberBus κ} (h : SubscriptionInv s) :
    s.live.length ≤ s.subscriberCount := by
  have hsub : (s.live.map Subscription.id) ⊆
      (List.range s.subscriberCount).map fun i : ℕ => (i : ℤ) := by
    intro id hid
    obtain ⟨sub, hmem, rfl⟩ := List.mem_map.mp hid
    obtain ⟨i, hi, heq, -⟩ := h.ids.identifies sub hmem
    exact List.mem_map.mpr ⟨i, List.mem_range.mpr hi, heq.symm⟩
  have hle := (List.subperm_of_subset h.ids.nodup hsub).length_le
  simpa using hle

/-- A call with a type and a callback is admitted as long as slots are left. -/
theorem nonneg_smEventbusSubscribe_iff (s : SubscriberBus κ) (et : List UInt8) (cb : κ)
    (userdata : ℕ) :
    0 ≤ (smEventbusSubscribe s (some et) (some cb) userdata).2 ↔
      s.bus.initialized = true ∧ s.subscriberCount < maxSubscribersGlobal := by
  unfold smEventbusSubscribe
  by_cases hinit : s.bus.initialized = true
  · by_cases hfree : s.subscriberCount < maxSubscribersGlobal
    · simp [hinit, hfree, not_le.mpr hfree]
    · simp [hinit, hfree, not_lt.mp hfree]
  · simp [hinit]

theorem SubscriptionInv.admissionCorrect_iff {s : SubscriberBus κ} (h : SubscriptionInv s)
    (m : ℤ) (call : Call κ) : AdmissionCorrect m s call ↔ AdmissionFits m s call := by
  match call with
  | .subscribe (some et) (some cb) userdata =>
      simp only [AdmissionCorrect, AdmissionFits, nonneg_smEventbusSubscribe_iff, HasRoom]
      have hlive := h.length_live_le
      by_cases hinit : s.bus.initialized = true
      · rw [if_pos hinit, and_iff_right hinit]
        by_cases hfree : s.subscriberCount < maxSubscribersGlobal
        · rw [if_pos hfree, iff_true_left hfree, and_iff_right (by omega)]
        · rw [if_neg hfree, iff_false_left hfree, not_and_or, not_lt, not_lt]
      · -- nothing was ever admitted
        have hnone : s.live = [] := h.idle (by simpa using hinit)
        have hrefused : ¬(s.bus.initialized = true ∧ s.subscriberCount < maxSubscribersGlobal) :=
          fun hadmit => hinit hadmit.1
        rw [if_neg hinit, iff_false_left hrefused, liveOfType, hnone]
        simp [maxSubscribersGlobal]
  | .subscribe none _ _ => exact Iff.rfl
  | .subscribe (some _) none _ => exact Iff.rfl
  | .unsubscribe _ => exact Iff.rfl

theorem subscriptionInv_zero : SubscriptionInv (SubscriberBus.zero : SubscriberBus κ) :=
  ⟨⟨by simp [SubscriberBus.zero], by simp [SubscriberBus.zero]⟩, Nat.zero_le _, fun _ => rfl⟩

theorem subscriptionInv_initSubscribers (m : ℤ) (lockOk : Bool) :
    SubscriptionInv (initSubscribers (SubscriberBus.zero : SubscriberBus κ) m lockOk).1 := by
  unfold initSubscribers
  split_ifs
  · exact subscriptionInv_zero
  · exact subscriptionInv_zero
  · exact subscriptionInv_zero
  · exact ⟨⟨by simp [SubscriberBus.zero], by simp [SubscriberBus.zero]⟩, Nat.zero_le _,
      fun _ => rfl⟩

theorem idsIdentify_run (m : ℤ) (lockOk : Bool) (calls : List (Call κ)) :
    IdsIdentify (run step (initSubscribers SubscriberBus.zero m lockOk).1 calls) :=
  (run_invariant (I := SubscriptionInv) (P := fun _ => True) (fun _ call _ h => h.step call)
    (subscriptionInv_initSubscribers m lockOk) fun _ _ => trivial).ids

theorem subscriberCount_le_step (s : SubscriberBus κ) (call : Call κ) :
    s.subscriberCount ≤ (step s call).subscriberCount := by
  cases call with
  | subscribe eventType callback userdata =>
      rcases smEventbusSubscribe_cases s eventType callback userdata with
        hsame | ⟨_, _, -, -, -, -, hnew⟩
      · simp [step, hsame]
      · simp [step, hnew]
  | unsubscribe subscriptionId =>
      rcases smEventbusUnsubscribe_cases s subscriptionId with
        hsame | ⟨_, -, -, -, hcancelled⟩
      · simp [step, hsame]
      · simp [step, hcancelled]

/-- A bus that has used up its slots admits nobody any more, however many subscriptions
are cancelled. -/
theorem smEventbusSubscribe_refused_of_full {s : SubscriberBus κ}
    (hfull : maxSubscribersGlobal ≤ s.subscriberCount) (calls : List (Call κ))
    (et : List UInt8) (cb : κ) (userdata : ℕ) :
    (smEventbusSubscribe (run step s calls) (some et) (some cb) userdata).2 < 0 := by
  have hcount : maxSubscribersGlobal ≤ (run step s calls).subscriberCount :=
    run_invariant (I := fun s' : SubscriberBus κ => maxSubscribersGlobal ≤ s'.subscriberCount)
      (P := fun _ => True) (fun s' call _ h => h.trans (subscriberCount_le_step s' call))
      hfull fun _ _ => trivial
  rw [← not_le, nonneg_smEventbusSubscribe_iff]
  exact fun hadmit => absurd hcount (not_le.mpr hadmit.2)

/-- All calls of a run are answered as the two limits say exactly when each of them meets a
state in which the number of slots ever used gives the same answer. -/
theorem subscriptionsCorrect_iff (m : ℤ) (lockOk : Bool) (calls : List (Call κ)) :
    Guarded step (CallCorrect m) (initSubscribers SubscriberBus.zero m lockOk).1 calls ↔
      Guarded step (AdmissionFits m) (initSubscribers SubscriberBus.zero m lockOk).1 calls := by
  refine guarded_congr (I := SubscriptionInv) (P := fun _ => True)
    (fun _ call _ h => h.step call) ?_ (subscriptionInv_initSubscribers m lockOk)
    fun _ _ => trivial
  intro s call _ h
  rw [CallCorrect, and_iff_left (h.step call).ids]
  exact h.admissionCorrect_iff m call

/-- With a limit of one, a second subscription to the same type is admitted. -/
theorem not_subscriptionsCorrect :
    ¬∀ calls : List (Call ℕ),
      Guarded step (CallCorrect 1) (initSubscribers SubscriberBus.zero 1 true).1 calls := by
  intro h
  have hcalls := h [.subscribe (some (ascii ['a'])) (some 1) 0,
    .subscribe (some (ascii ['a'])) (some 2) 0]
  have hsecond := hcalls.2.1.1
  have hadmitted := hsecond.mp (by decide)
  exact absurd hadmitted.2 (by decide)

end Subscriptions

end ServiceManager

end Shinigami
