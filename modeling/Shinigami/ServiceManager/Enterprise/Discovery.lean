import Shinigami.Foundations.CString
import Shinigami.Foundations.Run

/-!
# Service discovery

The registry and the subscriptions of `sm_discovery.c`. Each call works under the
lock and is one step; the callbacks of a publication, which are called behind the
lock, belong to its step. The arrays are the lists of their used entries: every
string field of a new entry is written to its last byte but one, and the last
byte is never written.

The state records the publications that were accepted, with the full name they
were made under, and the calls of callbacks, with the number of their
publication.
-/

namespace Shinigami

namespace ServiceManager

namespace Discovery

open CString

/-- `MAX_SERVICES`. -/
def maxServices : ℕ := 64

/-- `MAX_EVENT_MASK`. -/
def maxEventMask : UInt32 := 0x3F

/-! `sm_discovery_event_t`. -/

def serviceRegistered : UInt32 := 1
def serviceDeregistered : UInt32 := 2
def serviceReady : UInt32 := 3
def serviceFailed : UInt32 := 4
def serviceUpdated : UInt32 := 5

/-- `sm_discovery_event_notification_t`. -/
structure Notification where
  eventType : UInt32
  timestampNs : UInt64
  serviceName : List UInt8
  socketPath : List UInt8
  pid : ℤ
  priority : ℤ
deriving DecidableEq, Repr

/-- `registered_service_t`. -/
structure RegisteredService where
  serviceName : List UInt8
  socketPath : List UInt8
  pid : ℤ
  priority : ℤ
  registrationTimeNs : UInt64
  lastEvent : UInt32
deriving DecidableEq, Repr

/-- `subscription_t`; `κ` stands for a callback with its user data. -/
structure Subscription (κ : Type) where
  subscriptionId : ℕ
  filterServiceName : List UInt8
  eventMask : UInt32
  callback : κ
  active : Bool
deriving DecidableEq, Repr

/-- `sm_discovery_service_t`. -/
structure DiscoveryService where
  serviceName : List UInt8
  socketPath : List UInt8
  pid : ℤ
  priority : ℤ
  registrationTimeNs : UInt64
deriving DecidableEq, Repr

structure Publication where
  name : List UInt8
  notification : Notification
deriving DecidableEq, Repr

/-- A call of a callback; `seq` is the number of its publication. -/
structure Delivery (κ : Type) where
  subscriptionId : ℕ
  callback : κ
  seq : ℕ
  notification : Notification
deriving DecidableEq, Repr

/-- The arguments of `sm_discovery_publish`, with the clock reading. -/
structure PublishArgs where
  eventType : UInt32
  serviceName : List UInt8
  socketPath : Option (List UInt8)
  pid : ℤ
  priority : ℤ
  now : UInt64
deriving DecidableEq, Repr

/-- The name that is published. -/
def PublishArgs.name (args : PublishArgs) : List UInt8 := cstr args.serviceName

def PublishArgs.notification (args : PublishArgs) : Notification where
  eventType := args.eventType
  timestampNs := args.now
  serviceName := strncpyField 64 args.serviceName
  socketPath := strncpyField 256 (args.socketPath.getD [])
  pid := args.pid
  priority := if args.priority < 0 ∨ 2 < args.priority then 1 else args.priority

def PublishArgs.entry (args : PublishArgs) : RegisteredService where
  serviceName := strncpyField 64 args.serviceName
  socketPath := strncpyField 256 (args.socketPath.getD [])
  pid := args.notification.pid
  priority := args.notification.priority
  registrationTimeNs := args.notification.timestampNs
  lastEvent := args.eventType

end Discovery

open Discovery CString

/-- `discovery_system_t`. -/
structure DiscoverySystem (κ : Type) where
  subscriptions : List (Subscription κ)
  maxSubscribers : ℕ
  services : List RegisteredService
  published : List Publication
  delivered : List (Delivery κ)
deriving DecidableEq, Repr

namespace Discovery

variable {κ : Type}

/-- `sm_discovery_init`; `none` when it fails. -/
def smDiscoveryInit (κ : Type) (maxSubscribers : ℤ) (lockOk callocOk callocOk' : Bool) :
    Option (DiscoverySystem κ) :=
  if maxSubscribers ≤ 0 ∨ 1024 < maxSubscribers then none
  else if !lockOk then none
  else if !callocOk then none
  else if !callocOk' then none
  else some ⟨[], maxSubscribers.toNat, [], [], []⟩

def setLastEvent (name : List UInt8) (eventType : UInt32) :
    List RegisteredService → List RegisteredService
  | [] => []
  | svc :: services =>
      if strcmpEq svc.serviceName name then { svc with lastEvent := eventType } :: services
      else svc :: setLastEvent name eventType services

def updateServices (services : List RegisteredService) (args : PublishArgs) :
    List RegisteredService :=
  if args.eventType = serviceRegistered then services ++ [args.entry]
  else if args.eventType = serviceDeregistered then
    services.eraseP fun svc => strcmpEq svc.serviceName args.serviceName
  else setLastEvent args.serviceName args.eventType services

/-- `matches_filter`. -/
def Subscription.matchesFilter (sub : Subscription κ) (eventType : UInt32) : Bool :=
  sub.eventMask == 0 || sub.eventMask &&& eventType != 0

/-- `matches_service`. -/
def Subscription.matchesService (sub : Subscription κ) (serviceName : List UInt8) : Bool :=
  (cstr sub.filterServiceName).length == 0 ||
    strcmpEq sub.filterServiceName serviceName

def Subscription.matchesEvent (sub : Subscription κ) (args : PublishArgs) : Bool :=
  sub.active && sub.matchesFilter args.eventType && sub.matchesService args.serviceName

/-- The checks of `sm_discovery_publish` in front of the lock. -/
def PublishArgs.Valid (args : PublishArgs) : Prop :=
  args.name.length ≠ 0 ∧ 1 ≤ args.eventType ∧ args.eventType ≤ 5

instance (args : PublishArgs) : Decidable args.Valid :=
  inferInstanceAs (Decidable (_ ∧ _))

def RefusedAsFull (d : DiscoverySystem κ) (args : PublishArgs) : Prop :=
  args.eventType = serviceRegistered ∧ maxServices ≤ d.services.length

instance (d : DiscoverySystem κ) (args : PublishArgs) : Decidable (RefusedAsFull d args) :=
  inferInstanceAs (Decidable (_ ∧ _))

/-- `sm_discovery_publish`. -/
def smDiscoveryPublish (d : DiscoverySystem κ) (args : PublishArgs) :
    DiscoverySystem κ × ℤ :=
  if ¬args.Valid then (d, -1)
  else if RefusedAsFull d args then (d, -1)
  else
    ({ d with
        services := updateServices d.services args
        published := d.published ++ [⟨args.name, args.notification⟩]
        delivered := d.delivered ++
          (d.subscriptions.filter (·.matchesEvent args)).map fun sub =>
            ⟨sub.subscriptionId, sub.callback, d.published.length, args.notification⟩ }, 0)

/-- `sm_discovery_subscribe`; a missing filter or callback is `none`. -/
def smDiscoverySubscribe (d : DiscoverySystem κ) (filter : Option (List UInt8))
    (eventMask : UInt32) (callback : Option κ) : DiscoverySystem κ × ℤ :=
  match callback with
  | none => (d, -1)
  | some callback =>
      if eventMask &&& ~~~maxEventMask ≠ 0 then (d, -1)
      else if d.maxSubscribers ≤ d.subscriptions.length then (d, -1)
      else
        ({ d with
            subscriptions := d.subscriptions ++
              [{ subscriptionId := d.subscriptions.length
                 filterServiceName := strncpyField 64 (filter.getD [])
                 eventMask := eventMask
                 callback := callback
                 active := true }] }, d.subscriptions.length)

/-- `sm_discovery_unsubscribe`. -/
def smDiscoveryUnsubscribe (d : DiscoverySystem κ) (subscriptionId : ℤ) :
    DiscoverySystem κ × ℤ :=
  if subscriptionId < 0 ∨ d.subscriptions.length ≤ subscriptionId then (d, -1)
  else
    ({ d with
        subscriptions := d.subscriptions.modify subscriptionId.toNat
          fun sub => { sub with active := false } }, 0)

def RegisteredService.listed (svc : RegisteredService) : DiscoveryService where
  serviceName := strncpyField 64 svc.serviceName
  socketPath := strncpyField 256 svc.socketPath
  pid := svc.pid
  priority := svc.priority
  registrationTimeNs := svc.registrationTimeNs

/-- `sm_discovery_query_services`; `none` when the list cannot be allocated. -/
def smDiscoveryQueryServices (d : DiscoverySystem κ) (filterName : Option (List UInt8))
    (mallocOk : Bool) : Option (List DiscoveryService) :=
  let found := d.services.filter fun svc =>
    match filterName with
    | none => true
    | some name => (cstr name).length == 0 || strcmpEq svc.serviceName name
  if !mallocOk && found.length > 0 then none
  else some (found.map RegisteredService.listed)

/-- A call of one of the functions above. -/
inductive Event (κ : Type) where
  | publish (args : PublishArgs)
  | subscribe (filter : Option (List UInt8)) (eventMask : UInt32) (callback : Option κ)
  | unsubscribe (subscriptionId : ℤ)
deriving DecidableEq, Repr

def step (d : DiscoverySystem κ) : Event κ → DiscoverySystem κ
  | .publish args => (smDiscoveryPublish d args).1
  | .subscribe filter eventMask callback =>
      (smDiscoverySubscribe d filter eventMask callback).1
  | .unsubscribe subscriptionId => (smDiscoveryUnsubscribe d subscriptionId).1

/-- The publication is accepted. -/
def Accepted (d : DiscoverySystem κ) (args : PublishArgs) : Prop :=
  args.Valid ∧ ¬RefusedAsFull d args

instance (d : DiscoverySystem κ) (args : PublishArgs) : Decidable (Accepted d args) :=
  inferInstanceAs (Decidable (_ ∧ _))

theorem smDiscoveryPublish_of_accepted {d : DiscoverySystem κ} {args : PublishArgs}
    (h : Accepted d args) :
    smDiscoveryPublish d args =
      ({ d with
          services := updateServices d.services args
          published := d.published ++ [⟨args.name, args.notification⟩]
          delivered := d.delivered ++
            (d.subscriptions.filter (·.matchesEvent args)).map fun sub =>
              ⟨sub.subscriptionId, sub.callback, d.published.length,
                args.notification⟩ }, 0) := by
  rw [smDiscoveryPublish, if_neg (not_not.mpr h.1), if_neg h.2]

theorem smDiscoveryPublish_of_not_accepted {d : DiscoverySystem κ} {args : PublishArgs}
    (h : ¬Accepted d args) : smDiscoveryPublish d args = (d, -1) := by
  unfold smDiscoveryPublish
  by_cases hvalid : args.Valid
  · have hfull : RefusedAsFull d args := by
      by_contra hroom
      exact h ⟨hvalid, hroom⟩
    rw [if_neg (not_not.mpr hvalid), if_pos hfull]
  · rw [if_pos hvalid]

theorem smDiscoverySubscribe_cases (d : DiscoverySystem κ) (filter : Option (List UInt8))
    (eventMask : UInt32) (callback : Option κ) :
    smDiscoverySubscribe d filter eventMask callback = (d, -1) ∨
      ∃ cb, callback = some cb ∧ smDiscoverySubscribe d filter eventMask callback =
        ({ d with
            subscriptions := d.subscriptions ++
              [⟨d.subscriptions.length, strncpyField 64 (filter.getD []), eventMask, cb,
                true⟩] }, (d.subscriptions.length : ℤ)) := by
  unfold smDiscoverySubscribe
  cases callback with
  | none => exact .inl rfl
  | some cb =>
      dsimp only
      split_ifs
      · exact .inl rfl
      · exact .inl rfl
      · exact .inr ⟨cb, rfl, rfl⟩

theorem smDiscoveryInit_eq_some {maxSubscribers : ℤ} {lockOk callocOk callocOk' : Bool}
    {d : DiscoverySystem κ}
    (h : smDiscoveryInit κ maxSubscribers lockOk callocOk callocOk' = some d) :
    d = ⟨[], maxSubscribers.toNat, [], [], []⟩ := by
  unfold smDiscoveryInit at h
  split_ifs at h
  exact (Option.some.inj h).symm

end Discovery

end ServiceManager

end Shinigami
