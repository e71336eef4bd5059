import Mathlib.Data.List.Basic
import Mathlib.Tactic.MkIffOfInductiveProp

/-!
# Snapshots of the monitor state

`monitord_state_serialize_snapshot` fills a `mon_snapshot_t` from the monitor state. A
section has the fields that are read somewhere, the others stand in `rest` as bytes,
and a section of which nothing is read is a list of bytes. A text field may end after
its string. A `float` or `double` is its bit pattern.
-/

namespace Shinigami

namespace Monitoring

def halMaxDevices : ℕ := 8

def serviceMax : ℕ := 4

def poolMax : ℕ := 8

def uringMax : ℕ := 8

def ringbufMax : ℕ := 8

def proxyMax : ℕ := 8

def ipcChanMax : ℕ := 16

def histogramBuckets : ℕ := 16

structure SysinfoMetrics where
  cpuTotalPct : UInt32
  ramTotalBytes : UInt64
  ramUsedBytes : UInt64
  load1 : UInt32
  uptimeS : UInt64
  rest : List UInt8
deriving DecidableEq

structure SmMetrics where
  registeredServices : UInt32
  healthP99Us : UInt32
  rest : List UInt8
deriving DecidableEq

structure WatchdogEntry where
  serviceName : List UInt8
  restartCount : UInt32
  rest : List UInt8
deriving DecidableEq

structure WatchdogMetrics where
  entries : Vector WatchdogEntry serviceMax
  count : UInt32
  rest : List UInt8
deriving DecidableEq

structure ServiceMetrics where
  name : List UInt8
  pid : UInt32
  cpuPct : UInt32
  rssBytes : UInt64
  fdCount : UInt32
  restartCount : UInt32
  healthScore : UInt32
  rest : List UInt8
deriving DecidableEq

structure PoolMetrics where
  name : List UInt8
  blockSize : UInt32
  usedBlocks : UInt32
  freeBlocks : UInt32
  failCount : UInt64
  rest : List UInt8
deriving DecidableEq

structure UringMetrics where
  name : List UInt8
  sqFillPct : UInt32
  histBuckets : Vector UInt64 histogramBuckets
  histBucketLimits : Vector UInt64 histogramBuckets
  histSumUs : UInt64
  histCount : UInt64
  rest : List UInt8
deriving DecidableEq

structure RingbufMetrics where
  name : List UInt8
  fillPct : UInt32
  dropCount : UInt64
  rest : List UInt8
deriving DecidableEq

structure SecurityMetrics where
  seccompViolations : Vector UInt32 serviceMax
  hmacFailures : Vector UInt32 serviceMax
  replayAttacks : Vector UInt32 serviceMax
  rest : List UInt8
deriving DecidableEq

structure IpcMetrics where
  name : List UInt8
  msgsPerS : UInt64
  dropCount : UInt64
  rest : List UInt8
deriving DecidableEq

structure HealthScore where
  score : UInt8
  rest : List UInt8
deriving DecidableEq

/-- `mon_snapshot_t`. -/
structure MonSnapshot where
  snapshotTsMs : UInt64
  snapshotSeq : UInt32
  collectors : List UInt8
  collectorsLive : UInt32
  collectorsStale : UInt32
  collectorsOffline : UInt32
  configWatches : List UInt8
  configWatchCount : UInt32
  hal : Vector (List UInt8) halMaxDevices
  halCount : UInt32
  ipcChannels : Vector IpcMetrics ipcChanMax
  ipcCount : UInt32
  urings : Vector UringMetrics uringMax
  uringCount : UInt32
  pools : Vector PoolMetrics poolMax
  poolCount : UInt32
  proxies : Vector (List UInt8) proxyMax
  proxyCount : UInt32
  ringBuffers : Vector RingbufMetrics ringbufMax
  ringbufCount : UInt32
  security : SecurityMetrics
  services : Vector ServiceMetrics serviceMax
  serviceCount : UInt32
  sm : SmMetrics
  traces : List UInt8
  traceCount : UInt32
  traceHead : UInt32
  watchdog : WatchdogMetrics
  sysinfo : SysinfoMetrics
  serviceHealth : Vector HealthScore serviceMax
  systemHealth : HealthScore
  alerts : List UInt8
  alertCount : UInt32
  alertsWarn : UInt32
  alertsCrit : UInt32
  deltaMode : UInt8
deriving DecidableEq

/-- The sections of `monitord_state_t` that go into a snapshot, and its counter. -/
structure MonitordState where
  sysinfo : SysinfoMetrics
  sm : SmMetrics
  watchdog : WatchdogMetrics
  hal : Vector (List UInt8) halMaxDevices
  services : Vector ServiceMetrics serviceMax
  pools : Vector PoolMetrics poolMax
  urings : Vector UringMetrics uringMax
  ringbufs : Vector RingbufMetrics ringbufMax
  security : SecurityMetrics
  proxy : Vector (List UInt8) proxyMax
  ipcChannels : Vector IpcMetrics ipcChanMax
  snapshotSeq : UInt64

/-- Memory that is zero in every section. -/
def MonSnapshot.zeroed : MonSnapshot where
  snapshotTsMs := 0
  snapshotSeq := 0
  collectors := []
  collectorsLive := 0
  collectorsStale := 0
  collectorsOffline := 0
  configWatches := []
  configWatchCount := 0
  hal := Vector.replicate _ []
  halCount := 0
  ipcChannels := Vector.replicate _ ⟨[], 0, 0, []⟩
  ipcCount := 0
  urings := Vector.replicate _ ⟨[], 0, Vector.replicate _ 0, Vector.replicate _ 0, 0, 0, []⟩
  uringCount := 0
  pools := Vector.replicate _ ⟨[], 0, 0, 0, 0, []⟩
  poolCount := 0
  proxies := Vector.replicate _ []
  proxyCount := 0
  ringBuffers := Vector.replicate _ ⟨[], 0, 0, []⟩
  ringbufCount := 0
  security := ⟨Vector.replicate _ 0, Vector.replicate _ 0, Vector.replicate _ 0, []⟩
  services := Vector.replicate _ ⟨[], 0, 0, 0, 0, 0, 0, []⟩
  serviceCount := 0
  sm := ⟨0, 0, []⟩
  traces := []
  traceCount := 0
  traceHead := 0
  watchdog := ⟨Vector.replicate _ ⟨[], 0, []⟩, 0, []⟩
  sysinfo := ⟨0, 0, 0, 0, 0, []⟩
  serviceHealth := Vector.replicate _ ⟨0, []⟩
  systemHealth := ⟨0, []⟩
  alerts := []
  alertCount := 0
  alertsWarn := 0
  alertsCrit := 0
  deltaMode := 0

/-- The sections after the `memset` of `monitord_state_init`. -/
def MonitordState.zeroed : MonitordState where
  sysinfo := MonSnapshot.zeroed.sysinfo
  sm := MonSnapshot.zeroed.sm
  watchdog := MonSnapshot.zeroed.watchdog
  hal := MonSnapshot.zeroed.hal
  services := MonSnapshot.zeroed.services
  pools := MonSnapshot.zeroed.pools
  urings := MonSnapshot.zeroed.urings
  ringbufs := MonSnapshot.zeroed.ringBuffers
  security := MonSnapshot.zeroed.security
  proxy := MonSnapshot.zeroed.proxies
  ipcChannels := MonSnapshot.zeroed.ipcChannels
  snapshotSeq := 0

/-- The slot has a name. -/
def ServiceMetrics.Filled (svc : ServiceMetrics) : Prop := svc.name.headD 0 ≠ 0

instance ServiceMetrics.decidableFilled : DecidablePred ServiceMetrics.Filled :=
  fun svc => inferInstanceAs (Decidable (svc.name.headD 0 ≠ 0))

def countServices (services : Vector ServiceMetrics serviceMax) : UInt32 :=
  services.toList.foldl (fun sc svc => if svc.Filled then sc + 1 else sc) 0

/-- `monitord_state_serialize_snapshot` into the memory at `snapshot`. -/
def monitordStateSerializeSnapshot (state : MonitordState) (snapshot : MonSnapshot) :
    MonitordState × MonSnapshot :=
  ({ state with snapshotSeq := state.snapshotSeq + 1 },
    { snapshot with
      sysinfo := state.sysinfo
      sm := state.sm
      watchdog := state.watchdog
      hal := state.hal
      services := state.services
      pools := state.pools
      urings := state.urings
      ringBuffers := state.ringbufs
      security := state.security
      proxies := state.proxy
      ipcChannels := state.ipcChannels
      snapshotSeq := state.snapshotSeq.toUInt32
      serviceCount := countServices state.services })

/-- The snapshots agree where `monitord_state_serialize_snapshot` writes nothing. -/
@[mk_iff]
structure MonSnapshot.AgreeUnwritten (a b : MonSnapshot) : Prop where
  snapshotTsMs : a.snapshotTsMs = b.snapshotTsMs
  collectors : a.collectors = b.collectors
  collectorsLive : a.collectorsLive = b.collectorsLive
  collectorsStale : a.collectorsStale = b.collectorsStale
  collectorsOffline : a.collectorsOffline = b.collectorsOffline
  configWatches : a.configWatches = b.configWatches
  configWatchCount : a.configWatchCount = b.configWatchCount
  halCount : a.halCount = b.halCount
  ipcCount : a.ipcCount = b.ipcCount
  uringCount : a.uringCount = b.uringCount
  poolCount : a.poolCount = b.poolCount
  proxyCount : a.proxyCount = b.proxyCount
  ringbufCount : a.ringbufCount = b.ringbufCount
  traces : a.traces = b.traces
  traceCount : a.traceCount = b.traceCount
  traceHead : a.traceHead = b.traceHead
  serviceHealth : a.serviceHealth = b.serviceHealth
  systemHealth : a.systemHealth = b.systemHealth
  alerts : a.alerts = b.alerts
  alertCount : a.alertCount = b.alertCount
  alertsWarn : a.alertsWarn = b.alertsWarn
  alertsCrit : a.alertsCrit = b.alertsCrit
  deltaMode : a.deltaMode = b.deltaMode

theorem serializeSnapshot_eq_iff (state : MonitordState) (a b : MonSnapshot) :
    (monitordStateSerializeSnapshot state a).2 = (monitordStateSerializeSnapshot state b).2 ↔
      a.AgreeUnwritten b := by
  rw [MonSnapshot.agreeUnwritten_iff]
  simp only [monitordStateSerializeSnapshot, MonSnapshot.mk.injEq, true_and]

end Monitoring

end Shinigami
