import Shinigami.Foundations.FirstMatch
import Shinigami.ServiceManager.Enterprise.Discovery

/-!
# Deliveries of the service discovery

Which notifications a subscription of `sm_discovery.c` receives in a run. The match
takes the events as bits of the mask, while `sm_discovery_event_t` counts them up, and
compares the name with the part of the filter that its field holds. A subscription
receives what it asks for exactly as long as no event tells the two apart
(`receivedBy_eq_wanted_iff`).
-/

namespace Shinigami

namespace ServiceManager

namespace Discovery

open CString

variable {κ : Type}

/-- The calls that a subscription has received. -/
def receivedBy (d : DiscoverySystem κ) (id : ℕ) : List (Delivery κ) :=
  d.delivered.filter fun r => r.subscriptionId = id

def Wants (filter : Option (List UInt8)) (eventMask : UInt32) (args : PublishArgs) : Prop :=
  (eventMask = 0 ∨ args.eventType = eventMask) ∧
    (cstr (filter.getD []) = [] ∨ args.name = cstr (filter.getD []))

instance (filter : Option (List UInt8)) (eventMask : UInt32) (args : PublishArgs) :
    Decidable (Wants filter eventMask args) :=
  inferInstanceAs (Decidable (_ ∧ _))

/-- What a subscription is to receive of a call while it is active. -/
def wanted (id : ℕ) (filter : Option (List UInt8)) (eventMask : UInt32) (callback : κ)
    (d : DiscoverySystem κ) : Event κ → Option (Delivery κ)
  | .publish args =>
      if Accepted d args ∧ Wants filter eventMask args then
        some ⟨id, callback, d.published.length, args.notification⟩
      else none
  | _ => none

def Event.unsubscribes (id : ℕ) : Event κ → Bool
  | .unsubscribe subscriptionId => subscriptionId = id
  | _ => false

/-- The calls up to the end of the subscription. -/
def whileActive (id : ℕ) (evs : List (Event κ)) : List (Event κ) :=
  evs.takeWhile fun ev => !ev.unsubscribes id

/-- The event is not of another type that shares a bit with the mask, under a name that
passes; and where the filter does not fit its field, it is under neither of its two
readings. -/
def Distinguished (filter : Option (List UInt8)) (eventMask : UInt32)
    (d : DiscoverySystem κ) : Event κ → Prop
  | .publish args => Accepted d args →
      (eventMask ≠ 0 → args.eventType ≠ eventMask → eventMask &&& args.eventType ≠ 0 →
        ¬(cstr (filter.getD []) = [] ∨ args.name = (cstr (filter.getD [])).take 63)) ∧
      (63 < (cstr (filter.getD [])).length →
        eventMask = 0 ∨ args.eventType = eventMask →
          args.name ≠ cstr (filter.getD []) ∧
            args.name ≠ (cstr (filter.getD [])).take 63)
  | _ => True

def received (id : ℕ) (d : DiscoverySystem κ) : Event κ → Option (Delivery κ)
  | .publish args =>
      if Accepted d args then
        (d.subscriptions[id]?.filter (·.matchesEvent args)).map fun sub =>
          ⟨sub.subscriptionId, sub.callback, d.published.length, args.notification⟩
      else none
  | _ => none

/-- Every subscription stands under its number, and calls are made to subscriptions
only. -/
structure Numbered (d : DiscoverySystem κ) : Prop where
  subscriptionId : ∀ i (sub : Subscription κ), d.subscriptions[i]? = some sub →
    sub.subscriptionId = i
  delivered : ∀ r ∈ d.delivered, r.subscriptionId < d.subscriptions.length

theorem subscriptions_publish (d : DiscoverySystem κ) (args : PublishArgs) :
    (smDiscoveryPublish d args).1.subscriptions = d.subscriptions := by
  by_cases h : Accepted d args
  · rw [smDiscoveryPublish_of_accepted h]
  · rw [smDiscoveryPublish_of_not_accepted h]

theorem Numbered.publish {d : DiscoverySystem κ} (h : Numbered d) (args : PublishArgs) :
    Numbered (smDiscoveryPublish d args).1 := by
  by_cases haccepted : Accepted d args
  · rw [smDiscoveryPublish_of_accepted haccepted]
    refine ⟨h.subscriptionId, fun r hr => ?_⟩
    rcases List.mem_append.mp hr with hr | hr
    · exact h.delivered r hr
    · obtain ⟨sub, hsub, rfl⟩ := List.mem_map.mp hr
      obtain ⟨i, hi⟩ := List.getElem?_of_mem (List.mem_filter.mp hsub).1
      obtain ⟨hlt, -⟩ := List.getElem?_eq_some_iff.mp hi
      exact (h.subscriptionId i sub hi).symm ▸ hlt
  · rw [smDiscoveryPublish_of_not_accepted haccepted]
    exact h

theorem Numbered.subscribe {d : DiscoverySystem κ} (h : Numbered d)
    (filter : Option (List UInt8)) (eventMask : UInt32) (callback : Option κ) :
    Numbered (smDiscoverySubscribe d filter eventMask callback).1 := by
  rcases smDiscoverySubscribe_cases d filter eventMask callback with heq | ⟨cb, -, heq⟩
  · rw [heq]
    exact h
  · rw [heq]
    refine ⟨fun i sub hi => ?_, fun r hr => ?_⟩
    · rw [List.getElem?_append] at hi
      split_ifs at hi with hlt
      · exact h.subscriptionId i sub hi
      · rw [List.getElem?_singleton] at hi
        split_ifs at hi with hlast
        obtain rfl := Option.some.inj hi
        dsimp only
        omega
    · have hlt := h.delivered r hr
      rw [List.length_append, List.length_singleton]
      omega

theorem Numbered.unsubscribe {d : DiscoverySystem κ} (h : Numbered d)
    (subscriptionId : ℤ) : Numbered (smDiscoveryUnsubscribe d subscriptionId).1 := by
  unfold smDiscoveryUnsubscribe
  split_ifs
  · exact h
  · refine ⟨fun i sub hi => ?_, fun r hr => ?_⟩
    · rw [List.getElem?_modify] at hi
      obtain ⟨old, hold, rfl⟩ := Option.map_eq_some_iff.mp hi
      rw [← h.subscriptionId i old hold]
      split_ifs <;> rfl
    · rw [List.length_modify]
      exact h.delivered r hr

theorem Numbered.step {d : DiscoverySystem κ} (h : Numbered d) (ev : Event κ) :
    Numbered (step d ev) := by
  cases ev with
  | publish args => exact h.publish args
  | subscribe filter eventMask callback => exact h.subscribe filter eventMask callback
  | unsubscribe subscriptionId => exact h.unsubscribe subscriptionId

theorem receivedBy_step {d : DiscoverySystem κ} (h : Numbered d) (id : ℕ)
    (ev : Event κ) :
    receivedBy (step d ev) id = receivedBy d id ++ (received id d ev).toList := by
  cases ev with
  | publish args =>
      change receivedBy (smDiscoveryPublish d args).1 id = _
      by_cases haccepted : Accepted d args
      · have hfound : d.subscriptions.filter (fun sub => sub.subscriptionId = id) =
            d.subscriptions[id]?.toList := filter_index_eq h.subscriptionId id
        rw [smDiscoveryPublish_of_accepted haccepted, received, if_pos haccepted]
        unfold receivedBy
        rw [List.filter_append, List.filter_map, List.append_cancel_left_eq]
        change List.map _ (List.filter
          (fun sub : Subscription κ => decide (sub.subscriptionId = id)) _) = _
        rw [List.filter_comm, hfound]
        cases d.subscriptions[id]? with
        | none => rfl
        | some sub => cases hmatch : sub.matchesEvent args <;> simp [Option.filter, hmatch]
      · rw [smDiscoveryPublish_of_not_accepted haccepted, received, if_neg haccepted]
        simp
  | subscribe filter eventMask callback =>
      change receivedBy (smDiscoverySubscribe d filter eventMask callback).1 id = _
      rcases smDiscoverySubscribe_cases d filter eventMask callback with
        heq | ⟨cb, -, heq⟩ <;> rw [heq] <;> simp [received, receivedBy]
  | unsubscribe subscriptionId =>
      change receivedBy (smDiscoveryUnsubscribe d subscriptionId).1 id = _
      unfold smDiscoveryUnsubscribe
      split_ifs <;> simp [received, receivedBy]

theorem receivedBy_run {d : DiscoverySystem κ} (h : Numbered d) (id : ℕ)
    (evs : List (Event κ)) :
    receivedBy (run step d evs) id = receivedBy d id ++ runTrace step (received id) d evs := by
  induction evs generalizing d with
  | nil => simp [runTrace]
  | cons ev evs ih =>
      rw [run_cons, ih (h.step ev), receivedBy_step h, runTrace, List.append_assoc]

theorem getElem?_subscriptions_step {d : DiscoverySystem κ} {id : ℕ}
    {sub : Subscription κ} (h : d.subscriptions[id]? = some sub) (ev : Event κ) :
    (step d ev).subscriptions[id]? =
      some (if ev.unsubscribes id then { sub with active := false } else sub) := by
  obtain ⟨hlt, -⟩ := List.getElem?_eq_some_iff.mp h
  cases ev with
  | publish args =>
      change (smDiscoveryPublish d args).1.subscriptions[id]? = some sub
      rw [subscriptions_publish, h]
  | subscribe filter eventMask callback =>
      change (smDiscoverySubscribe d filter eventMask callback).1.subscriptions[id]? =
        some sub
      rcases smDiscoverySubscribe_cases d filter eventMask callback with
        heq | ⟨cb, -, heq⟩
      · rw [heq, h]
      · rw [heq, List.getElem?_append_left hlt, h]
  | unsubscribe subscriptionId =>
      change (smDiscoveryUnsubscribe d subscriptionId).1.subscriptions[id]? =
        some (if decide (subscriptionId = id) then _ else sub)
      unfold smDiscoveryUnsubscribe
      split_ifs with hrange hsame hsame
      · rw [decide_eq_true_iff] at hsame
        omega
      · exact h
      · rw [decide_eq_true_iff] at hsame
        rw [List.getElem?_modify, h, hsame]
        simp
      · rw [decide_eq_true_iff] at hsame
        have hne : subscriptionId.toNat ≠ id := by omega
        rw [List.getElem?_modify, h]
        simp [hne]

theorem runTrace_received_of_inactive {d : DiscoverySystem κ} {id : ℕ}
    {sub : Subscription κ} (h : d.subscriptions[id]? = some sub)
    (hinactive : sub.active = false) (evs : List (Event κ)) :
    runTrace step (received id) d evs = [] := by
  induction evs generalizing d sub with
  | nil => rfl
  | cons ev evs ih =>
      have hnone : received id d ev = none := by
        cases ev <;> simp [received, h, Subscription.matchesEvent, hinactive]
      have hnext := getElem?_subscriptions_step h ev
      rw [runTrace, hnone, ih hnext (by split_ifs <;> trivial)]
      rfl

theorem runTrace_received_eq_whileActive {d : DiscoverySystem κ} {id : ℕ}
    {sub : Subscription κ} (h : d.subscriptions[id]? = some sub) (evs : List (Event κ)) :
    runTrace step (received id) d evs =
      runTrace step (received id) d (whileActive id evs) := by
  induction evs generalizing d sub with
  | nil => rfl
  | cons ev evs ih =>
      have hnext := getElem?_subscriptions_step h ev
      cases hends : ev.unsubscribes id with
      | false =>
          rw [whileActive, List.takeWhile_cons_of_pos (by rw [hends]; rfl), runTrace,
            ih hnext]
          rfl
      | true =>
          have hnone : received id d ev = none := by
            cases ev <;> first | rfl | cases hends
          have hnil : runTrace step (received id) d (ev :: evs) = [] := by
            rw [runTrace, hnone, runTrace_received_of_inactive hnext (by rw [hends]; rfl)]
            rfl
          rw [hnil, whileActive, List.takeWhile_cons_of_neg (by rw [hends]; decide)]
          rfl

theorem published_length_le_step (d : DiscoverySystem κ) (ev : Event κ) :
    d.published.length ≤ (step d ev).published.length := by
  cases ev with
  | publish args =>
      change _ ≤ (smDiscoveryPublish d args).1.published.length
      by_cases h : Accepted d args
      · rw [smDiscoveryPublish_of_accepted h, List.length_append]
        omega
      · rw [smDiscoveryPublish_of_not_accepted h]
  | subscribe filter eventMask callback =>
      change _ ≤ (smDiscoverySubscribe d filter eventMask callback).1.published.length
      rcases smDiscoverySubscribe_cases d filter eventMask callback with
        heq | ⟨cb, -, heq⟩ <;> rw [heq]
  | unsubscribe subscriptionId =>
      change _ ≤ (smDiscoveryUnsubscribe d subscriptionId).1.published.length
      unfold smDiscoveryUnsubscribe
      split_ifs <;> exact le_refl _

theorem published_length_lt_step {d : DiscoverySystem κ} {args : PublishArgs}
    (h : Accepted d args) :
    d.published.length < (step d (.publish args)).published.length := by
  change _ < (smDiscoveryPublish d args).1.published.length
  rw [smDiscoveryPublish_of_accepted h, List.length_append]
  exact Nat.lt_succ_self _

theorem stamped_received (id : ℕ) :
    Stamped step (fun d : DiscoverySystem κ => d.published.length) Delivery.seq
      (received id) := by
  intro d ev r hr
  cases ev with
  | publish args =>
      rw [received] at hr
      split_ifs at hr with haccepted
      obtain ⟨sub, -, rfl⟩ := Option.map_eq_some_iff.mp hr
      exact ⟨rfl, published_length_lt_step haccepted⟩
  | subscribe filter eventMask callback => cases hr
  | unsubscribe subscriptionId => cases hr

theorem stamped_wanted (id : ℕ) (filter : Option (List UInt8)) (eventMask : UInt32)
    (callback : κ) :
    Stamped step (fun d : DiscoverySystem κ => d.published.length) Delivery.seq
      (wanted id filter eventMask callback) := by
  intro d ev r hr
  cases ev with
  | publish args =>
      rw [wanted] at hr
      split_ifs at hr with haccepted
      obtain rfl := Option.some.inj hr
      exact ⟨rfl, published_length_lt_step haccepted.1⟩
  | subscribe filter eventMask callback => cases hr
  | unsubscribe subscriptionId => cases hr

def Subscribed (id : ℕ) (filter : Option (List UInt8)) (eventMask : UInt32) (callback : κ)
    (d : DiscoverySystem κ) : Prop :=
  d.subscriptions[id]? =
    some ⟨id, strncpyField 64 (filter.getD []), eventMask, callback, true⟩

theorem matchesEvent_iff (id : ℕ) (filter : Option (List UInt8)) (eventMask : UInt32)
    (callback : κ) (args : PublishArgs) :
    (⟨id, strncpyField 64 (filter.getD []), eventMask, callback, true⟩ :
        Subscription κ).matchesEvent args = true ↔
      (eventMask = 0 ∨ eventMask &&& args.eventType ≠ 0) ∧
        (cstr (filter.getD []) = [] ∨ args.name = (cstr (filter.getD [])).take 63) := by
  simp only [Subscription.matchesEvent, Subscription.matchesFilter,
    Subscription.matchesService, Bool.and_eq_true, Bool.or_eq_true, beq_iff_eq, bne_iff_ne,
    strcmpEq_iff, cstr_strncpyField, List.length_eq_zero_iff, true_and]
  refine and_congr_right fun _ => or_congr ?_ eq_comm
  simp [List.take_eq_nil_iff]

theorem PublishArgs.Valid.and_self_ne_zero {args : PublishArgs} (h : args.Valid) :
    args.eventType &&& args.eventType ≠ 0 := by
  rw [UInt32.and_self]
  rintro h0
  have hle := h.2.1
  rw [h0] at hle
  exact absurd hle (by decide)

theorem take_eq_iff_self (f name : List UInt8) :
    (f = [] ∨ name = f.take 63 ↔ f = [] ∨ name = f) ↔
      (63 < f.length → name ≠ f ∧ name ≠ f.take 63) := by
  by_cases hlong : 63 < f.length
  · have hne : f.take 63 ≠ f := by
      intro heq
      have hlength := congrArg List.length heq
      rw [List.length_take] at hlength
      omega
    have hnil : f ≠ [] := by
      rintro rfl
      simp at hlong
    grind
  · rw [List.take_of_length_le (by omega)]
    exact iff_of_true Iff.rfl fun h => absurd h hlong

/-- What passes the match is what is asked for exactly when the event does not tell
the two apart. -/
theorem passes_iff_wants (filter : Option (List UInt8)) (eventMask : UInt32)
    {args : PublishArgs} (hvalid : args.Valid) :
    ((eventMask = 0 ∨ eventMask &&& args.eventType ≠ 0) ∧
        (cstr (filter.getD []) = [] ∨ args.name = (cstr (filter.getD [])).take 63) ↔
      Wants filter eventMask args) ↔
      (eventMask ≠ 0 → args.eventType ≠ eventMask → eventMask &&& args.eventType ≠ 0 →
        ¬(cstr (filter.getD []) = [] ∨ args.name = (cstr (filter.getD [])).take 63)) ∧
      (63 < (cstr (filter.getD [])).length →
        eventMask = 0 ∨ args.eventType = eventMask →
          args.name ≠ cstr (filter.getD []) ∧
            args.name ≠ (cstr (filter.getD [])).take 63) := by
  unfold Wants
  generalize cstr (filter.getD []) = f
  by_cases htype : eventMask = 0 ∨ args.eventType = eventMask
  · -- a type that is asked for: only the name decides
    have hbit : eventMask = 0 ∨ eventMask &&& args.eventType ≠ 0 := by
      apply htype.imp_right
      rintro rfl
      exact hvalid.and_self_ne_zero
    have hname := take_eq_iff_self f args.name
    grind
  · -- any other type: nothing is asked for
    obtain ⟨hmask, hne⟩ := not_or.mp htype
    simp only [hmask, hne, false_or, false_and, iff_false, not_and, ne_eq,
      not_false_eq_true, forall_const, or_self, false_implies, implies_true, and_true]

/-- An active subscription receives of a call what it asks for exactly when the call
does not tell the two apart. -/
theorem received_eq_wanted_iff {id : ℕ} {filter : Option (List UInt8)}
    {eventMask : UInt32} {callback : κ} {d : DiscoverySystem κ}
    (h : Subscribed id filter eventMask callback d) (ev : Event κ) :
    received id d ev = wanted id filter eventMask callback d ev ↔
      Distinguished filter eventMask d ev := by
  cases ev with
  | publish args =>
      rw [Subscribed] at h
      rw [received, wanted, Distinguished, h]
      by_cases haccepted : Accepted d args
      · have hiff := passes_iff_wants filter eventMask haccepted.1
        rw [← matchesEvent_iff id filter eventMask callback] at hiff
        rw [if_pos haccepted, forall_prop_of_true haccepted, ← hiff, Option.filter_some]
        simp only [haccepted, true_and]
        by_cases hmatch : (⟨id, strncpyField 64 (filter.getD []), eventMask, callback, true⟩ :
            Subscription κ).matchesEvent args = true <;>
          by_cases hwants : Wants filter eventMask args <;> simp [hmatch, hwants]
      · rw [if_neg haccepted, if_neg fun hboth => haccepted hboth.1]
        exact iff_of_true rfl fun h => absurd h haccepted
  | subscribe filter' eventMask' callback' => exact iff_of_true rfl trivial
  | unsubscribe subscriptionId => exact iff_of_true rfl trivial

theorem Numbered.run {d : DiscoverySystem κ} (h : Numbered d) (evs : List (Event κ)) :
    Numbered (Shinigami.run Discovery.step d evs) :=
  run_invariant (P := fun _ => True) (fun _ ev _ h => h.step ev) h fun _ _ => trivial

theorem Subscribed.step {id : ℕ} {filter : Option (List UInt8)} {eventMask : UInt32}
    {callback : κ} {d : DiscoverySystem κ} (h : Subscribed id filter eventMask callback d)
    {ev : Event κ} (hev : (!ev.unsubscribes id) = true) :
    Subscribed id filter eventMask callback (Discovery.step d ev) := by
  have hnext := getElem?_subscriptions_step h ev
  rwa [if_neg (by simpa using hev)] at hnext

/-- A successful subscription stands under the number it returns, and has not
received anything. -/
theorem subscribed_of_subscribe {d d' : DiscoverySystem κ} (h : Numbered d)
    {filter : Option (List UInt8)} {eventMask : UInt32} {callback : κ} {id : ℕ}
    (hsub : smDiscoverySubscribe d filter eventMask (some callback) = (d', (id : ℤ))) :
    Subscribed id filter eventMask callback d' ∧ receivedBy d' id = [] := by
  rcases smDiscoverySubscribe_cases d filter eventMask (some callback) with
    heq | ⟨cb, hcb, heq⟩
  · have hid := congrArg Prod.snd (heq.symm.trans hsub)
    dsimp only at hid
    omega
  · obtain rfl := Option.some.inj hcb
    obtain ⟨rfl, hid⟩ := Prod.ext_iff.mp (heq.symm.trans hsub)
    obtain rfl : d.subscriptions.length = id := Int.ofNat.inj hid
    refine ⟨by simp [Subscribed], List.filter_eq_nil_iff.mpr fun r hr hself => ?_⟩
    have hlt := h.delivered r hr
    rw [decide_eq_true_iff] at hself
    omega

/-- A subscription receives the events it asks for, once each and in order, exactly
when the events published while it is active do not tell apart what it asks for and
what the match lets pass. -/
theorem receivedBy_eq_wanted_iff {maxSubscribers : ℤ} {lockOk callocOk callocOk' : Bool}
    {d d' : DiscoverySystem κ}
    (hinit : smDiscoveryInit κ maxSubscribers lockOk callocOk callocOk' = some d)
    {before : List (Event κ)} {filter : Option (List UInt8)} {eventMask : UInt32}
    {callback : κ} {id : ℕ}
    (hsub : smDiscoverySubscribe (run step d before) filter eventMask (some callback) =
      (d', (id : ℤ)))
    (after : List (Event κ)) :
    receivedBy (run step d' after) id =
        runTrace step (wanted id filter eventMask callback) d' (whileActive id after) ↔
      Guarded step (Distinguished filter eventMask) d' (whileActive id after) := by
  obtain rfl := smDiscoveryInit_eq_some hinit
  have hnil : Numbered (⟨[], maxSubscribers.toNat, [], [], []⟩ : DiscoverySystem κ) := by
    constructor <;> simp
  have hbefore := hnil.run before
  have hnumbered : Numbered d' := by
    have hsubscribe := hbefore.subscribe filter eventMask (some callback)
    rwa [hsub] at hsubscribe
  obtain ⟨hsubscribed, hnothing⟩ := subscribed_of_subscribe hbefore hsub
  have hactive : ∀ ev ∈ whileActive id after, (!ev.unsubscribes id) = true :=
    fun ev hev => List.mem_takeWhile_imp (p := fun ev : Event κ => !ev.unsubscribes id) hev
  rw [receivedBy_run hnumbered, hnothing, List.nil_append,
    runTrace_received_eq_whileActive hsubscribed,
    (stamped_received id).runTrace_eq_iff published_length_le_step
      (stamped_wanted id filter eventMask callback)]
  exact guarded_congr (I := Subscribed id filter eventMask callback)
    (P := fun ev => (!ev.unsubscribes id) = true) (fun d ev hev h => h.step hev)
    (fun d ev _ h => received_eq_wanted_iff h ev)
    hsubscribed hactive

/-- A subscription to failures receives one and no readiness. -/
theorem receivedBy_eq_wanted_iff_failed :
    let d : DiscoverySystem Unit := ⟨[], 4, [], [], []⟩
    let d' : DiscoverySystem Unit :=
      ⟨[⟨0, strncpyField 64 (ascii ['a']), serviceFailed, (), true⟩], 4, [], [], []⟩
    let after : List (Event Unit) :=
      [.publish ⟨serviceReady, ascii ['a'], none, 7, 1, 0⟩,
        .publish ⟨serviceFailed, ascii ['a'], none, 7, 1, 0⟩, .unsubscribe 0,
        .publish ⟨serviceFailed, ascii ['a'], none, 7, 1, 0⟩]
    smDiscoveryInit Unit 4 true true true = some d ∧
      smDiscoverySubscribe d (some (ascii ['a'])) serviceFailed (some ()) =
        (d', ((0 : ℕ) : ℤ)) ∧
      (receivedBy (run step d' after) 0 =
          runTrace step (wanted 0 (some (ascii ['a'])) serviceFailed ()) d'
            (whileActive 0 after) ↔
        Guarded step (Distinguished (some (ascii ['a'])) serviceFailed) d'
          (whileActive 0 after)) := by
  intro d d' after
  have hinit : smDiscoveryInit Unit 4 true true true = some d := rfl
  have hsub : smDiscoverySubscribe (run step d []) (some (ascii ['a'])) serviceFailed
      (some ()) = (d', ((0 : ℕ) : ℤ)) := rfl
  exact ⟨hinit, hsub, receivedBy_eq_wanted_iff hinit hsub after⟩

/-- A subscription to registrations receives a readiness. -/
theorem registered_mask_receives_ready :
    let d : DiscoverySystem Unit := ⟨[⟨0, strncpyField 64 [], serviceRegistered, (), true⟩],
      4, [], [], []⟩
    let ready : PublishArgs := ⟨serviceReady, ascii ['a'], none, 7, 1, 0⟩
    smDiscoverySubscribe ⟨[], 4, [], [], []⟩ none serviceRegistered (some ()) = (d, 0) ∧
      receivedBy (run step d [.publish ready]) 0 = [⟨0, (), 0, ready.notification⟩] ∧
      runTrace step (wanted 0 none serviceRegistered ()) d (whileActive 0 [.publish ready]) =
        [] := by
  intro d ready
  exact ⟨rfl, by decide +kernel, by decide +kernel⟩

end Discovery

end ServiceManager

end Shinigami
