import Shinigami.Foundations.FirstMatch
import Shinigami.ServiceManager.Enterprise.Discovery

/-!
# The registry of the service discovery

What `sm_discovery_query_services` lists in runs of `sm_discovery.c`, against the
last registration of every name among the accepted publications
(`registration`). The registry is read as a table of names and contacts. A
registration appends to it without a look at what is there, so the list is right
exactly as long as no name is registered again while it is registered
(`listsRegistered_iff`).
-/

namespace Shinigami

namespace ServiceManager

namespace Discovery

open CString

variable {κ : Type}

abbrev Contact := List UInt8 × ℤ × ℤ

def Notification.contact (n : Notification) : Contact :=
  (cstr n.socketPath, n.pid, n.priority)

def DiscoveryService.contact (svc : DiscoveryService) : Contact :=
  (cstr svc.socketPath, svc.pid, svc.priority)

/-- The notification of the last registration of the name, unless it has been
deregistered since. -/
def registration (published : List Publication) (name : List UInt8) : Option Notification :=
  ((published.reverse.find? fun p =>
      p.name = name ∧ (p.notification.eventType = serviceRegistered ∨
        p.notification.eventType = serviceDeregistered)).map
    Publication.notification).filter fun n => n.eventType = serviceRegistered

/-- A query without a filter lists the registered names, each once and with the
contact of its registration. -/
def ListsRegistered (d : DiscoverySystem κ) : Prop :=
  ∀ list, smDiscoveryQueryServices d none true = some list → ∀ name,
    valuesOf (list.map fun svc => (cstr svc.serviceName, svc.contact)) name =
      ((registration d.published name).map Notification.contact).toList

/-- No name is registered while it is registered. -/
def RegistersOnce (d : DiscoverySystem κ) : Event κ → Prop
  | .publish args => Accepted d args → args.eventType = serviceRegistered →
      registration d.published args.name = none
  | _ => True

theorem registration_concat_registered (published : List Publication) {p : Publication}
    (hp : p.notification.eventType = serviceRegistered) :
    registration (published ++ [p]) p.name = some p.notification := by
  simp [registration, hp]

theorem registration_concat_deregistered (published : List Publication) {p : Publication}
    (hp : p.notification.eventType = serviceDeregistered) :
    registration (published ++ [p]) p.name = none := by
  simp [registration, hp, serviceRegistered, serviceDeregistered]

theorem registration_concat_of_ne (published : List Publication) {p : Publication}
    {name : List UInt8} (hne : p.name ≠ name) :
    registration (published ++ [p]) name = registration published name := by
  simp [registration, hne]

theorem registration_concat_other (published : List Publication) {p : Publication}
    (name : List UInt8) (hreg : p.notification.eventType ≠ serviceRegistered)
    (hdereg : p.notification.eventType ≠ serviceDeregistered) :
    registration (published ++ [p]) name = registration published name := by
  simp [registration, hreg, hdereg]

/-- Name and contact of a service. -/
def RegisteredService.record (svc : RegisteredService) : List UInt8 × Contact :=
  (cstr svc.serviceName, cstr svc.socketPath, svc.pid, svc.priority)

def records (d : DiscoverySystem κ) : List (List UInt8 × Contact) :=
  d.services.map RegisteredService.record

def FieldsFit (services : List RegisteredService) : Prop :=
  ∀ svc ∈ services, (cstr svc.serviceName).length ≤ 63 ∧ (cstr svc.socketPath).length ≤ 255

theorem fieldsFit_setLastEvent {services : List RegisteredService}
    (h : FieldsFit services) (name : List UInt8) (eventType : UInt32) :
    FieldsFit (setLastEvent name eventType services) := by
  induction services with
  | nil => exact h
  | cons svc services ih =>
      have hhead := h svc (by simp)
      have htail : FieldsFit services := fun svc' hmem => h svc' (by simp [hmem])
      unfold setLastEvent
      split
      · intro svc' hmem
        rcases List.mem_cons.mp hmem with rfl | hmem
        · exact hhead
        · exact htail svc' hmem
      · intro svc' hmem
        rcases List.mem_cons.mp hmem with rfl | hmem
        · exact hhead
        · exact ih htail svc' hmem

theorem FieldsFit.updateServices {services : List RegisteredService}
    (h : FieldsFit services) (args : PublishArgs) :
    FieldsFit (updateServices services args) := by
  unfold Discovery.updateServices
  split_ifs
  · intro svc hmem
    rcases List.mem_append.mp hmem with hold | hnew
    · exact h svc hold
    · rw [List.mem_singleton.mp hnew]
      simp only [PublishArgs.entry, cstr_strncpyField, List.length_take]
      omega
  · exact fun svc hmem => h svc (List.mem_of_mem_eraseP hmem)
  · exact fieldsFit_setLastEvent h _ _

theorem map_record_setLastEvent (name : List UInt8) (eventType : UInt32)
    (services : List RegisteredService) :
    (setLastEvent name eventType services).map RegisteredService.record =
      services.map RegisteredService.record := by
  induction services with
  | nil => rfl
  | cons svc services ih =>
      unfold setLastEvent
      split
      · rfl
      · rw [List.map_cons, ih, List.map_cons]

theorem listsRegistered_iff_records {d : DiscoverySystem κ} (h : FieldsFit d.services) :
    ListsRegistered d ↔ ∀ name,
      valuesOf (records d) name =
        ((registration d.published name).map Notification.contact).toList := by
  have hquery : smDiscoveryQueryServices d none true =
      some (d.services.map RegisteredService.listed) := by
    simp [smDiscoveryQueryServices]
  have hlisted : (d.services.map RegisteredService.listed).map
      (fun svc => (cstr svc.serviceName, svc.contact)) = records d := by
    rw [List.map_map, records]
    refine List.map_congr_left fun svc hmem => ?_
    obtain ⟨hname, hpath⟩ := h svc hmem
    simp [RegisteredService.listed, DiscoveryService.contact, RegisteredService.record,
      List.take_of_length_le hname, List.take_of_length_le hpath]
  unfold ListsRegistered
  rw [hquery]
  simp only [Option.some.injEq, forall_eq', hlisted]

theorem records_publish {d : DiscoverySystem κ} {args : PublishArgs}
    (hfits : args.name.length < 64) (h : Accepted d args) :
    records (smDiscoveryPublish d args).1 =
      if args.eventType = serviceRegistered then
        records d ++ [(args.name, args.notification.contact)]
      else if args.eventType = serviceDeregistered then
        (records d).eraseP fun p => p.1 = args.name
      else records d := by
  have hname : (cstr args.serviceName).take 63 = args.name :=
    List.take_of_length_le (by unfold PublishArgs.name at hfits; omega)
  rw [smDiscoveryPublish_of_accepted h]
  unfold records updateServices
  dsimp only
  split_ifs
  · rw [List.map_append, List.map_singleton]
    congr 2
    simp [RegisteredService.record, PublishArgs.entry, PublishArgs.notification,
      Notification.contact, hname]
  · have htest : (fun svc : RegisteredService =>
        strcmpEq svc.serviceName args.serviceName) =
        (fun p => decide (p.1 = args.name)) ∘ RegisteredService.record := by
      funext svc
      rw [Bool.eq_iff_iff, strcmpEq_iff]
      exact decide_eq_true_iff.symm
    rw [List.eraseP_map, htest]
  · exact map_record_setLastEvent _ _ _

theorem published_publish {d : DiscoverySystem κ} {args : PublishArgs}
    (h : Accepted d args) :
    (smDiscoveryPublish d args).1.published =
      d.published ++ [⟨args.name, args.notification⟩] := by
  rw [smDiscoveryPublish_of_accepted h]

/-- The registry is right after an accepted publication exactly when it registers
no name that is registered. -/
theorem ListsRegistered.publish_iff {d : DiscoverySystem κ} {args : PublishArgs}
    (hfields : FieldsFit d.services) (hfits : args.name.length < 64)
    (haccepted : Accepted d args) (h : ListsRegistered d) :
    ListsRegistered (smDiscoveryPublish d args).1 ↔
      (args.eventType = serviceRegistered → registration d.published args.name = none) := by
  have hfields' : FieldsFit (smDiscoveryPublish d args).1.services := by
    rw [smDiscoveryPublish_of_accepted haccepted]
    exact hfields.updateServices args
  rw [listsRegistered_iff_records hfields] at h
  rw [listsRegistered_iff_records hfields', published_publish haccepted,
    records_publish hfits haccepted]
  split_ifs with hreg hdereg
  · constructor
    · intro hnew _
      have hself := hnew args.name
      rw [valuesOf_append_self, h, registration_concat_registered _ hreg] at hself
      cases hold : registration d.published args.name with
      | none => rfl
      | some n => simp [hold] at hself
    · intro hfree name
      have hnone := hfree hreg
      by_cases heq : args.name = name
      · subst heq
        rw [valuesOf_append_self, h, hnone, registration_concat_registered _ hreg]
        rfl
      · rw [valuesOf_append_of_ne _ heq, h, registration_concat_of_ne _ heq]
  · refine iff_of_true (fun name => ?_) (fun hreg' => absurd hreg' hreg)
    by_cases heq : args.name = name
    · subst heq
      rw [valuesOf_eraseP_self, h, registration_concat_deregistered _ hdereg]
      cases registration d.published args.name <;> rfl
    · rw [valuesOf_eraseP_of_ne _ heq, h, registration_concat_of_ne _ heq]
  · refine iff_of_true (fun name => ?_) (fun hreg' => absurd hreg' hreg)
    rw [h, registration_concat_other _ name hreg hdereg]

/-- The call is no publication under a longer name than the registry can hold. -/
def NameFits : Event κ → Prop
  | .publish args => args.name.length < 64
  | _ => True

theorem subscribe_frame (d : DiscoverySystem κ) (filter : Option (List UInt8))
    (eventMask : UInt32) (callback : Option κ) :
    (smDiscoverySubscribe d filter eventMask callback).1.services = d.services ∧
      (smDiscoverySubscribe d filter eventMask callback).1.published = d.published := by
  rcases smDiscoverySubscribe_cases d filter eventMask callback with heq | ⟨cb, -, heq⟩ <;>
    rw [heq] <;> exact ⟨rfl, rfl⟩

theorem unsubscribe_frame (d : DiscoverySystem κ) (subscriptionId : ℤ) :
    (smDiscoveryUnsubscribe d subscriptionId).1.services = d.services ∧
      (smDiscoveryUnsubscribe d subscriptionId).1.published = d.published := by
  unfold smDiscoveryUnsubscribe
  split_ifs <;> exact ⟨rfl, rfl⟩

theorem ListsRegistered.of_frame {d d' : DiscoverySystem κ} (h : ListsRegistered d)
    (hframe : d'.services = d.services ∧ d'.published = d.published) :
    ListsRegistered d' := by
  unfold ListsRegistered smDiscoveryQueryServices at h ⊢
  rw [hframe.1, hframe.2]
  exact h

theorem FieldsFit.step {d : DiscoverySystem κ} (h : FieldsFit d.services) (ev : Event κ) :
    FieldsFit (step d ev).services := by
  cases ev with
  | publish args =>
      change FieldsFit (smDiscoveryPublish d args).1.services
      by_cases haccepted : Accepted d args
      · rw [smDiscoveryPublish_of_accepted haccepted]
        exact h.updateServices args
      · rw [smDiscoveryPublish_of_not_accepted haccepted]
        exact h
  | subscribe filter eventMask callback =>
      change FieldsFit (smDiscoverySubscribe d filter eventMask callback).1.services
      rw [(subscribe_frame d filter eventMask callback).1]
      exact h
  | unsubscribe subscriptionId =>
      change FieldsFit (smDiscoveryUnsubscribe d subscriptionId).1.services
      rw [(unsubscribe_frame d subscriptionId).1]
      exact h

theorem ListsRegistered.step_iff {d : DiscoverySystem κ} {ev : Event κ}
    (hfields : FieldsFit d.services) (hfits : NameFits ev) (h : ListsRegistered d) :
    ListsRegistered (step d ev) ↔ RegistersOnce d ev := by
  cases ev with
  | publish args =>
      by_cases haccepted : Accepted d args
      · apply (h.publish_iff hfields hfits haccepted).trans
        exact ⟨fun hfree _ => hfree, fun hfree => hfree haccepted⟩
      · refine iff_of_true ?_ (fun h => absurd h haccepted)
        change ListsRegistered (smDiscoveryPublish d args).1
        rw [smDiscoveryPublish_of_not_accepted haccepted]
        exact h
  | subscribe filter eventMask callback =>
      exact iff_of_true (h.of_frame (subscribe_frame d filter eventMask callback)) trivial
  | unsubscribe subscriptionId =>
      exact iff_of_true (h.of_frame (unsubscribe_frame d subscriptionId)) trivial

/-- The registry lists the registered names in every state of a run exactly when no
name is registered while it is registered. -/
theorem listsRegistered_iff {maxSubscribers : ℤ} {lockOk callocOk callocOk' : Bool}
    {d : DiscoverySystem κ}
    (hinit : smDiscoveryInit κ maxSubscribers lockOk callocOk callocOk' = some d)
    {evs : List (Event κ)} (hfits : ∀ ev ∈ evs, NameFits ev) :
    (∀ before, before <+: evs → ListsRegistered (run step d before)) ↔
      Guarded step RegistersOnce d evs := by
  obtain rfl := smDiscoveryInit_eq_some hinit
  refine forall_prefix_iff_guarded (J := fun d => FieldsFit d.services)
    (fun _ ev _ hfields _ _ => hfields.step ev)
    (fun _ _ hev hfields h => h.step_iff hfields hev) ?_ ?_ hfits
  · intro svc hmem
    cases hmem
  · intro list hlist name
    cases hlist
    rfl

/-- Two services, one of which goes. -/
theorem listsRegistered_iff_two :
    let evs : List (Event Unit) :=
      [.publish ⟨serviceRegistered, ascii ['a'], some (ascii ['/', 'a']), 7, 1, 0⟩,
        .publish ⟨serviceRegistered, ascii ['b'], none, 8, 1, 0⟩,
        .publish ⟨serviceDeregistered, ascii ['a'], none, 7, 1, 0⟩]
    smDiscoveryInit Unit 4 true true true = some ⟨[], 4, [], [], []⟩ ∧
      (∀ ev ∈ evs, NameFits ev) ∧
      ((∀ before, before <+: evs → ListsRegistered (run step ⟨[], 4, [], [], []⟩ before)) ↔
        Guarded step RegistersOnce ⟨[], 4, [], [], []⟩ evs) := by
  intro evs
  have hinit : smDiscoveryInit Unit 4 true true true = some ⟨[], 4, [], [], []⟩ := rfl
  have hfits : ∀ ev ∈ evs, NameFits ev := by
    simp [evs, NameFits, PublishArgs.name]
    decide
  exact ⟨hinit, hfits, listsRegistered_iff hinit hfits⟩

/-- A service registers twice and goes once, and is still listed. -/
theorem deregistered_service_listed :
    let evs : List (Event Unit) :=
      [.publish ⟨serviceRegistered, ascii ['a'], some (ascii ['/', 'x']), 7, 1, 0⟩,
        .publish ⟨serviceRegistered, ascii ['a'], some (ascii ['/', 'y']), 8, 1, 0⟩,
        .publish ⟨serviceDeregistered, ascii ['a'], none, 8, 1, 0⟩]
    let d := run step ⟨[], 4, [], [], []⟩ evs
    registration d.published (ascii ['a']) = none ∧
      (∃ svc, smDiscoveryQueryServices d none true = some [svc] ∧
        cstr svc.serviceName = ascii ['a'] ∧ svc.pid = 8) ∧
      ¬ListsRegistered d := by
  intro evs d
  have hnone : registration d.published (ascii ['a']) = none := by decide
  obtain ⟨svc, hquery, hname, hpid⟩ : ∃ svc,
      smDiscoveryQueryServices d none true = some [svc] ∧
        cstr svc.serviceName = ascii ['a'] ∧ svc.pid = 8 := ⟨_, rfl, by decide, rfl⟩
  refine ⟨hnone, ⟨svc, hquery, hname, hpid⟩, fun h => ?_⟩
  have hvalues := h _ hquery (ascii ['a'])
  rw [hnone] at hvalues
  simp [valuesOf, hname] at hvalues

end Discovery

end ServiceManager

end Shinigami
