import Shinigami.Monitoring.Metrics.Prometheus
import Shinigami.Monitoring.Protocol.WireFormat

/-!
# What stale memory shows in a snapshot

The main loop broadcasts a snapshot, and the HTTP server renders one, each from a
variable on the stack that `monitord_state_serialize_snapshot` fills in part. The
broadcast sends the bytes of the packed struct, given by a function `image` of the
snapshot.
-/

namespace Shinigami

namespace Monitoring

open ByteStream

/-- `client_conn_t`, with what its socket has been sent and what its next writes meet. -/
structure ClientConn where
  active : Bool
  lastSeq : UInt64
  stream : List UInt8
  rooms : List Room
deriving DecidableEq

/-- One round of the loop of `monitord_server_broadcast_snapshot`, and what it adds to
the count. -/
def sendSnapshot (image : MonSnapshot → List UInt8) (snapshot : MonSnapshot)
    (c : ClientConn) : Option (ClientConn × ℕ) :=
  if !c.active then some (c, 0)
  else
    let payload := image snapshot
    match monSendMsg .snapshotResp 0 (some payload) (UInt32.ofNat payload.length) c.rooms with
    | none => none
    | some sent =>
        let c' := { c with stream := c.stream ++ sent.written, rooms := sent.rest }
        if sent.rc = .ok then some ({ c' with lastSeq := snapshot.snapshotSeq.toUInt64 }, 1)
        else some ({ c' with active := false }, 0)

/-- `monitord_server_broadcast_snapshot`. -/
def monitordServerBroadcastSnapshot (image : MonSnapshot → List UInt8)
    (snapshot : MonSnapshot) : List ClientConn → Option (List ClientConn × ℕ)
  | [] => some ([], 0)
  | c :: clients =>
      match sendSnapshot image snapshot c with
      | none => none
      | some (c', n) =>
          (monitordServerBroadcastSnapshot image snapshot clients).map fun later =>
            (c' :: later.1, n + later.2)

/-- Two runs on the same state, into memory `a` and into memory `b`, give the same
snapshot, the same frames and the same text. -/
def Determined (image : MonSnapshot → List UInt8) (fixed : FixedFormat)
    (state : MonitordState) (a b : MonSnapshot) : Prop :=
  let snapA := (monitordStateSerializeSnapshot state a).2
  let snapB := (monitordStateSerializeSnapshot state b).2
  snapA = snapB ∧
    (∀ clients, monitordServerBroadcastSnapshot image snapA clients =
      monitordServerBroadcastSnapshot image snapB clients) ∧
    ∀ bufsiz, prometheusRender fixed snapA bufsiz = prometheusRender fixed snapB bufsiz

/-- The snapshot depends on the state alone exactly when the memory agrees in the fields
that are not written. -/
theorem determined_iff (image : MonSnapshot → List UInt8) (fixed : FixedFormat)
    (state : MonitordState) (a b : MonSnapshot) :
    Determined image fixed state a b ↔ a.AgreeUnwritten b := by
  rw [← serializeSnapshot_eq_iff state]
  constructor
  · exact fun h => h.1
  · intro h
    rw [Determined, h]
    exact ⟨rfl, fun _ => rfl, fun _ => rfl⟩

/-- Memory that is zero but for one field. -/
def staleAlerts : MonSnapshot := { MonSnapshot.zeroed with alertsWarn := 7 }

/-- Stale memory in one field changes the snapshot and what is rendered. -/
theorem determined_stale :
    ¬Determined (fun _ => []) (fun _ _ => []) .zeroed .zeroed staleAlerts ∧
      prometheusLines (monitordStateSerializeSnapshot .zeroed .zeroed).2 ≠
        prometheusLines (monitordStateSerializeSnapshot .zeroed staleAlerts).2 := by
  constructor
  · rintro ⟨hsnap, -, -⟩
    have hagree := (serializeSnapshot_eq_iff .zeroed .zeroed staleAlerts).mp hsnap
    exact absurd hagree.alertsWarn (by decide)
  · intro hlines
    rw [prometheusLines, prometheusLines] at hlines
    have hipc := List.append_inj_left' hlines rfl
    have hwatchdog := List.append_inj_left' hipc rfl
    have halert := List.append_inj_right' (List.append_inj_left' hwatchdog rfl) rfl
    simp [alertLines, monitordStateSerializeSnapshot, MonSnapshot.zeroed, staleAlerts] at halert

end Monitoring

end Shinigami
