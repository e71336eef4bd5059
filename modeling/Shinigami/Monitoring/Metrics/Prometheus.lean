import Shinigami.Foundations.CString
import Shinigami.Foundations.GapFree
import Shinigami.Monitoring.Daemon.Snapshot

/-!
# The Prometheus exporter

`prometheus_render` as the list of lines that it appends to its buffer. What `printf`
makes of a floating-point number is a parameter.
-/

namespace Shinigami

namespace Monitoring

open CString

/-- A floating-point number as it is passed to `printf`. -/
inductive Number where
  | ofFloat (bits : UInt32)
  | ofDouble (bits : UInt64)
  | ofUnsigned (n : UInt64)
  | div (x : Number) (divisor : ℕ)
deriving DecidableEq

inductive Value where
  | str (s : List UInt8)
  | unsigned (n : ℕ)
  | fixed (digits : ℕ) (x : Number)
deriving DecidableEq

/-- A metric as `# HELP` and `# TYPE` announce it. -/
structure Family where
  name : String
  help : String
  type : String
deriving DecidableEq

inductive Line where
  | announce (family : Family)
  | sample (name : String) (labels : List (String × Value)) (value : Value)
  | blank
  | eof
deriving DecidableEq

/-- What `printf` prints for `%.nf`. -/
abbrev FixedFormat := ℕ → Number → List UInt8

def Value.text (fixed : FixedFormat) : Value → List UInt8
  | .str s => s
  | .unsigned n => ascii (Nat.repr n).toList
  | .fixed digits x => fixed digits x

def labelsText (fixed : FixedFormat) (labels : List (String × Value)) : List UInt8 :=
  (ascii [',']).intercalate
    (labels.map fun label =>
      ascii (label.1 ++ "=\x22").toList ++ label.2.text fixed ++ ascii ['\x22'])

def Line.text (fixed : FixedFormat) : Line → List UInt8
  | .announce f =>
      ascii ("# HELP " ++ f.name ++ " " ++ f.help ++ "\n" ++
        "# TYPE " ++ f.name ++ " " ++ f.type ++ "\n").toList
  | .sample name labels value =>
      let braces := if labels = [] then [] else
        ascii ['\x7b'] ++ labelsText fixed labels ++ ascii ['\x7d']
      ascii name.toList ++ braces ++ ascii [' '] ++ value.text fixed ++ ascii ['\n']
  | .blank => ascii ['\n']
  | .eof => ascii "# EOF\n".toList

def single (f : Family) (value : Value) : List Line :=
  [.announce f, .sample f.name [] value, .blank]

/-- The entries that a loop `i < count && i < MAX` visits. -/
def visited {α : Type} {n : ℕ} (entries : Vector α n) (count : UInt32) : List α :=
  entries.toList.take count.toNat

def table {α : Type} (f : Family) (entries : List α) (labels : α → List (String × Value))
    (value : α → Value) : List Line :=
  .announce f :: entries.map (fun a => .sample f.name (labels a) (value a)) ++ [.blank]

structure ServiceMetric where
  family : Family
  labels : ServiceMetrics → List (String × Value)
  value : ServiceMetrics → Value

def ServiceMetric.line (metric : ServiceMetric) (svc : ServiceMetrics) : Line :=
  .sample metric.family.name (metric.labels svc) (metric.value svc)

def serviceLabels (svc : ServiceMetrics) : List (String × Value) :=
  [("service", .str (cstr svc.name))]

def servicePidLabels (svc : ServiceMetrics) : List (String × Value) :=
  [("service", .str (cstr svc.name)), ("pid", .unsigned svc.pid.toNat)]

def serviceCpuPercent : ServiceMetric where
  family := ⟨"middleware_service_cpu_percent", "CPU usage percentage per service", "gauge"⟩
  labels := servicePidLabels
  value svc := .fixed 2 (.ofFloat svc.cpuPct)

def serviceRssBytes : ServiceMetric where
  family := ⟨"middleware_service_rss_bytes", "Resident set size per service", "gauge"⟩
  labels := servicePidLabels
  value svc := .unsigned svc.rssBytes.toNat

def serviceFdCount : ServiceMetric where
  family := ⟨"middleware_service_fd_count", "Open file descriptors per service", "gauge"⟩
  labels := servicePidLabels
  value svc := .unsigned svc.fdCount.toNat

def serviceHealthScore : ServiceMetric where
  family := ⟨"middleware_service_health_score", "Per-service health score 0-100", "gauge"⟩
  labels := serviceLabels
  value svc := .unsigned svc.healthScore.toNat

def serviceRestartCount : ServiceMetric where
  family := ⟨"middleware_service_restart_count", "Total restarts per service", "counter"⟩
  labels := serviceLabels
  value svc := .unsigned svc.restartCount.toNat

def serviceMetrics : List ServiceMetric :=
  [serviceCpuPercent, serviceRssBytes, serviceFdCount, serviceHealthScore,
    serviceRestartCount]

def ServiceMetric.lines (metric : ServiceMetric) (snap : MonSnapshot) : List Line :=
  table metric.family (visited snap.services snap.serviceCount) metric.labels metric.value

def systemLines (snap : MonSnapshot) : List Line :=
  single ⟨"middleware_system_cpu_total_percent", "Total CPU usage percent", "gauge"⟩
      (.fixed 2 (.ofFloat snap.sysinfo.cpuTotalPct)) ++
    single ⟨"middleware_system_ram_used_bytes", "RAM used bytes", "gauge"⟩
      (.unsigned snap.sysinfo.ramUsedBytes.toNat) ++
    single ⟨"middleware_system_ram_total_bytes", "RAM total bytes", "gauge"⟩
      (.unsigned snap.sysinfo.ramTotalBytes.toNat) ++
    single ⟨"middleware_system_load_1m", "Load average 1 minute", "gauge"⟩
      (.fixed 2 (.ofFloat snap.sysinfo.load1)) ++
    single ⟨"middleware_system_uptime_seconds", "System uptime in seconds", "counter"⟩
      (.unsigned snap.sysinfo.uptimeS.toNat) ++
    single
      ⟨"middleware_system_health_score", "Composite system health score 0-100", "gauge"⟩
      (.unsigned snap.systemHealth.score.toNat)

def poolLabels (p : PoolMetrics) : List (String × Value) :=
  [("pool", .str (cstr p.name)), ("block_size", .unsigned p.blockSize.toNat)]

def memoryPoolLines (snap : MonSnapshot) : List Line :=
  let pools := visited snap.pools snap.poolCount
  table ⟨"middleware_memory_pool_used_blocks", "Currently used blocks", "gauge"⟩
      pools poolLabels (fun p => .unsigned p.usedBlocks.toNat) ++
    table ⟨"middleware_memory_pool_free_blocks", "Free blocks available", "gauge"⟩
      pools poolLabels (fun p => .unsigned p.freeBlocks.toNat) ++
    table
      ⟨"middleware_memory_pool_alloc_failures_total", "Total allocation failures", "counter"⟩
      pools poolLabels (fun p => .unsigned p.failCount.toNat)

/-- `limit <= 0.0` of a `double`: a zero or a negative number that is not a NaN. -/
def notPositive (bits : UInt64) : Bool :=
  let magnitude := bits.toNat % 0x8000000000000000
  magnitude = 0 ∨ (0x8000000000000000 ≤ bits.toNat ∧ magnitude ≤ 0x7FF0000000000000)

def histogramLines (u : UringMetrics) : List Line :=
  let bucket := "middleware_uring_completion_latency_seconds_bucket"
  ((u.histBucketLimits.toList.zip u.histBuckets.toList).filter fun b => !notPositive b.1).map
      (fun b => .sample bucket
        [("loop", .str (cstr u.name)), ("le", .fixed 6 (.div (.ofDouble b.1) 1000000))]
        (.unsigned b.2.toNat)) ++
    [.sample bucket [("loop", .str (cstr u.name)), ("le", .str (ascii "+Inf".toList))]
        (.unsigned u.histCount.toNat),
      .sample "middleware_uring_completion_latency_seconds_sum" [("loop", .str (cstr u.name))]
        (.fixed 6 (.div (.ofUnsigned u.histSumUs) 1000000)),
      .sample "middleware_uring_completion_latency_seconds_count" [("loop", .str (cstr u.name))]
        (.unsigned u.histCount.toNat),
      .blank]

def uringLines (snap : MonSnapshot) : List Line :=
  let urings := visited snap.urings snap.uringCount
  table ⟨"middleware_uring_sq_fill_ratio", "SQ ring fill ratio 0-1", "gauge"⟩ urings
      (fun u => [("loop", .str (cstr u.name))]) (fun u => .fixed 4 (.div (.ofFloat u.sqFillPct) 100)) ++
    .announce ⟨"middleware_uring_completion_latency_seconds",
        "io_uring completion latency", "histogram"⟩ ::
      urings.flatMap histogramLines

def ringbufLines (snap : MonSnapshot) : List Line :=
  let ringBuffers := visited snap.ringBuffers snap.ringbufCount
  table ⟨"middleware_ringbuf_fill_ratio", "Ring buffer fill ratio 0-1", "gauge"⟩ ringBuffers
      (fun r => [("buffer", .str (cstr r.name))]) (fun r => .fixed 4 (.div (.ofFloat r.fillPct) 100)) ++
    table ⟨"middleware_ringbuf_drops_total", "Total dropped items", "counter"⟩ ringBuffers
      (fun r => [("buffer", .str (cstr r.name))]) (fun r => .unsigned r.dropCount.toNat)

def serviceNameByIdx (i : ℕ) : String :=
  ["audio_service", "camera_service", "sensor_service", "gpio_service"].getD i "unknown"

def securityViolations : Family :=
  ⟨"middleware_security_violations_total", "Security violations by type", "counter"⟩

def violationLine (i : ℕ) (type : String) (n : UInt32) : Line :=
  .sample securityViolations.name
    [("service", .str (ascii (serviceNameByIdx i).toList)), ("type", .str (ascii type.toList))]
    (.unsigned n.toNat)

def securityLines (snap : MonSnapshot) : List Line :=
  .announce securityViolations ::
    (List.range serviceMax).flatMap (fun i =>
      [violationLine i "seccomp" (snap.security.seccompViolations.toList.getD i 0),
        violationLine i "hmac_fail" (snap.security.hmacFailures.toList.getD i 0),
        violationLine i "replay" (snap.security.replayAttacks.toList.getD i 0)]) ++ [.blank]

def smLines (snap : MonSnapshot) : List Line :=
  single ⟨"middleware_sm_health_p99_us", "SM health check P99 latency us", "gauge"⟩
      (.unsigned snap.sm.healthP99Us.toNat) ++
    single ⟨"middleware_sm_registered_services", "Registered services count", "gauge"⟩
      (.unsigned snap.sm.registeredServices.toNat)

def alertsActive : Family :=
  ⟨"middleware_alerts_active", "Active alerts by severity", "gauge"⟩

def alertLines (snap : MonSnapshot) : List Line :=
  [.announce alertsActive,
    .sample alertsActive.name [("severity", .str (ascii "warn".toList))]
      (.unsigned snap.alertsWarn.toNat),
    .sample alertsActive.name [("severity", .str (ascii "crit".toList))]
      (.unsigned snap.alertsCrit.toNat),
    .blank]

def watchdogLines (snap : MonSnapshot) : List Line :=
  table ⟨"middleware_watchdog_restarts_total", "Watchdog-triggered restarts", "counter"⟩
    (visited snap.watchdog.entries snap.watchdog.count)
    (fun w => [("service", .str (cstr w.serviceName))]) (fun w => .unsigned w.restartCount.toNat)

/-- A channel name as a label: at most 47 bytes, the excluded ones replaced by `_`. -/
def channelLabel (excluded : List Char) (name : List UInt8) : Value :=
  .str (((cstr name).take 47).map fun c => if c ∈ ascii excluded then 95 else c)

def ipcLines (snap : MonSnapshot) : List Line :=
  let channels := visited snap.ipcChannels snap.ipcCount
  table ⟨"middleware_ipc_messages_per_second", "IPC channel message rate", "gauge"⟩ channels
      (fun ch => [("channel", channelLabel ['\x22', '\\', '\n'] ch.name)])
      (fun ch => .fixed 1 (.ofDouble ch.msgsPerS)) ++
    table ⟨"middleware_ipc_drop_total", "IPC channel drops total", "counter"⟩ channels
      (fun ch => [("channel", channelLabel ['\x22'] ch.name)])
      (fun ch => .unsigned ch.dropCount.toNat)

/-- Everything that `prometheus_render` appends, in its order. -/
def prometheusLines (snap : MonSnapshot) : List Line :=
  systemLines snap ++ serviceMetrics.flatMap (fun metric => metric.lines snap) ++
    memoryPoolLines snap ++ uringLines snap ++ ringbufLines snap ++ securityLines snap ++
    smLines snap ++ alertLines snap ++ watchdogLines snap ++ ipcLines snap ++ [.eof]

/-- The return value of `prometheus_render` and the text in its buffer. -/
structure Rendered where
  ret : UInt32
  buf : List UInt8
deriving DecidableEq

/-- `prometheus_render`. It returns -1 at the first piece that does not fit, and
`snprintf` leaves of that one what fits. -/
def prometheusRender (fixed : FixedFormat) (snap : MonSnapshot) (bufsiz : UInt32) : Rendered :=
  if bufsiz = 0 then ⟨0, []⟩
  else
    let text := (prometheusLines snap).flatMap (Line.text fixed)
    if text.length < bufsiz.toNat then ⟨UInt32.ofNat text.length, text⟩
    else ⟨UInt32.ofInt (-1), text.take (bufsiz.toNat - 1)⟩

/-- The services with a name, in the order of their slots. -/
def liveServices (state : MonitordState) : List ServiceMetrics :=
  state.services.toList.filter fun svc => svc.Filled

def Line.isSampleOf (name : String) : Line → Bool
  | .sample name' _ _ => name' = name
  | _ => false

/-- A buffer with room for the whole text gets these lines, and among them each metric of
the services has one sample for each live service and no other. -/
def ExportsLive (fixed : FixedFormat) (state : MonitordState) (snapshot : MonSnapshot) :
    Prop :=
  let snap := (monitordStateSerializeSnapshot state snapshot).2
  let text := (prometheusLines snap).flatMap (Line.text fixed)
  (∀ bufsiz : UInt32, text.length < bufsiz.toNat →
      prometheusRender fixed snap bufsiz = ⟨UInt32.ofNat text.length, text⟩) ∧
    ∀ metric ∈ serviceMetrics,
      (prometheusLines snap).filter (Line.isSampleOf metric.family.name) =
        (liveServices state).map metric.line

theorem toNat_foldl_count (l : List ServiceMetrics) {sc : UInt32}
    (hlt : sc.toNat + l.length < 4294967296) :
    (l.foldl (fun sc svc => if svc.Filled then sc + 1 else sc) sc).toNat =
      sc.toNat + l.countP fun svc => svc.Filled := by
  induction l generalizing sc with
  | nil => rfl
  | cons svc l ih =>
      rw [List.length_cons] at hlt
      rw [List.foldl_cons]
      by_cases hfilled : svc.Filled
      · have hone : (sc + 1).toNat = sc.toNat + 1 := by
          rw [UInt32.toNat_add, UInt32.toNat_one, Nat.mod_eq_of_lt (by omega)]
        rw [if_pos hfilled, ih (by omega), hone,
          List.countP_cons_of_pos (by simpa using hfilled)]
        omega
      · rw [if_neg hfilled, ih (by omega), List.countP_cons_of_neg (by simpa using hfilled)]

theorem toNat_countServices (services : Vector ServiceMetrics serviceMax) :
    (countServices services).toNat = services.toList.countP fun svc => svc.Filled := by
  have hlt : (0 : UInt32).toNat + services.toList.length < 4294967296 := by
    rw [Vector.length_toList]
    decide
  rw [countServices, toNat_foldl_count _ hlt, UInt32.toNat_zero, Nat.zero_add]

def serviceMetricNames : List String := serviceMetrics.map fun metric => metric.family.name

def NoServiceSample (lines : List Line) : Prop :=
  ∀ line ∈ lines, ∀ name ∈ serviceMetricNames, line.isSampleOf name = false

theorem isSampleOf_eq_false {name : String} (h : name ∉ serviceMetricNames)
    (labels : List (String × Value)) (value : Value) :
    ∀ name' ∈ serviceMetricNames, (Line.sample name labels value).isSampleOf name' = false := by
  intro name' hmem
  apply decide_eq_false
  rintro rfl
  exact h hmem

theorem noServiceSample_append {lines lines' : List Line} :
    NoServiceSample (lines ++ lines') ↔ NoServiceSample lines ∧ NoServiceSample lines' :=
  List.forall_mem_append

theorem noServiceSample_single (f : Family) (value : Value)
    (h : f.name ∉ serviceMetricNames) : NoServiceSample (single f value) := by
  simp only [NoServiceSample, single, List.forall_mem_cons]
  exact ⟨fun _ _ => rfl, isSampleOf_eq_false h _ _, fun _ _ => rfl, nofun⟩

theorem noServiceSample_system (snap : MonSnapshot) : NoServiceSample (systemLines snap) := by
  simp only [systemLines, noServiceSample_append]
  refine ⟨⟨⟨⟨⟨?_, ?_⟩, ?_⟩, ?_⟩, ?_⟩, ?_⟩
  all_goals exact noServiceSample_single _ _ (by decide)

theorem noServiceSample_table {α : Type} (f : Family) (entries : List α)
    (labels : α → List (String × Value)) (value : α → Value)
    (h : f.name ∉ serviceMetricNames) : NoServiceSample (table f entries labels value) := by
  simp only [NoServiceSample, table, List.forall_mem_append, List.forall_mem_cons,
    List.forall_mem_map]
  exact ⟨⟨fun _ _ => rfl, fun _ _ => isSampleOf_eq_false h _ _⟩, fun _ _ => rfl, nofun⟩

theorem noServiceSample_histogram (u : UringMetrics) : NoServiceSample (histogramLines u) := by
  simp only [NoServiceSample, histogramLines, List.forall_mem_append, List.forall_mem_cons,
    List.forall_mem_map]
  exact ⟨fun _ _ => isSampleOf_eq_false (by decide) _ _,
    isSampleOf_eq_false (by decide) _ _, isSampleOf_eq_false (by decide) _ _,
    isSampleOf_eq_false (by decide) _ _, fun _ _ => rfl, nofun⟩

theorem noServiceSample_uring (snap : MonSnapshot) : NoServiceSample (uringLines snap) := by
  rw [uringLines, noServiceSample_append]
  refine ⟨noServiceSample_table _ _ _ _ (by decide), ?_⟩
  rw [NoServiceSample, List.forall_mem_cons, List.forall_mem_flatMap]
  exact ⟨fun _ _ => rfl, fun u _ => noServiceSample_histogram u⟩

theorem noServiceSample_security (snap : MonSnapshot) :
    NoServiceSample (securityLines snap) := by
  simp only [NoServiceSample, securityLines, List.forall_mem_append, List.forall_mem_cons,
    List.forall_mem_flatMap]
  exact ⟨⟨fun _ _ => rfl, fun _ _ => ⟨isSampleOf_eq_false (by decide) _ _,
    isSampleOf_eq_false (by decide) _ _, isSampleOf_eq_false (by decide) _ _, nofun⟩⟩,
    fun _ _ => rfl, nofun⟩

theorem noServiceSample_alert (snap : MonSnapshot) : NoServiceSample (alertLines snap) := by
  simp only [NoServiceSample, alertLines, List.forall_mem_cons]
  exact ⟨fun _ _ => rfl, isSampleOf_eq_false (by decide) _ _,
    isSampleOf_eq_false (by decide) _ _, fun _ _ => rfl, nofun⟩

theorem noServiceSample_rest (snap : MonSnapshot) :
    NoServiceSample (memoryPoolLines snap) ∧ NoServiceSample (ringbufLines snap) ∧
      NoServiceSample (smLines snap) ∧ NoServiceSample (watchdogLines snap) ∧
      NoServiceSample (ipcLines snap) := by
  simp only [memoryPoolLines, ringbufLines, smLines, watchdogLines, ipcLines,
    noServiceSample_append]
  refine ⟨⟨⟨?_, ?_⟩, ?_⟩, ⟨?_, ?_⟩, ⟨?_, ?_⟩, ?_, ?_, ?_⟩
  case refine_6 => exact noServiceSample_single _ _ (by decide)
  case refine_7 => exact noServiceSample_single _ _ (by decide)
  all_goals exact noServiceSample_table _ _ _ _ (by decide)

theorem NoServiceSample.filter_eq_nil {lines : List Line} (h : NoServiceSample lines)
    {name : String} (hname : name ∈ serviceMetricNames) :
    lines.filter (Line.isSampleOf name) = [] :=
  List.filter_eq_nil_iff.mpr fun line hline => by simp [h line hline name hname]

theorem filter_prometheusLines (snap : MonSnapshot) {name : String}
    (hname : name ∈ serviceMetricNames) :
    (prometheusLines snap).filter (Line.isSampleOf name) =
      serviceMetrics.flatMap fun metric =>
        (metric.lines snap).filter (Line.isSampleOf name) := by
  obtain ⟨hpool, hringbuf, hsm, hwatchdog, hipc⟩ := noServiceSample_rest snap
  have heof : NoServiceSample [.eof] := by simp [NoServiceSample, Line.isSampleOf]
  simp only [prometheusLines, List.filter_append, List.filter_flatMap,
    (noServiceSample_system snap).filter_eq_nil hname, hpool.filter_eq_nil hname,
    (noServiceSample_uring snap).filter_eq_nil hname, hringbuf.filter_eq_nil hname,
    (noServiceSample_security snap).filter_eq_nil hname, hsm.filter_eq_nil hname,
    (noServiceSample_alert snap).filter_eq_nil hname, hwatchdog.filter_eq_nil hname,
    hipc.filter_eq_nil hname, heof.filter_eq_nil hname, List.append_nil, List.nil_append]

theorem filter_lines (metric : ServiceMetric) (snap : MonSnapshot) (name : String) :
    (metric.lines snap).filter (Line.isSampleOf name) =
      if metric.family.name = name then
        (visited snap.services snap.serviceCount).map metric.line
      else [] := by
  have hannounce : ¬(Line.announce metric.family).isSampleOf name = true := by
    simp [Line.isSampleOf]
  have hblank : [Line.blank].filter (Line.isSampleOf name) = [] := rfl
  rw [ServiceMetric.lines, table, List.filter_append, List.filter_cons_of_neg hannounce,
    hblank, List.append_nil]
  split_ifs with hname
  · refine List.filter_eq_self.mpr (List.forall_mem_map.mpr fun svc _ => ?_)
    exact decide_eq_true hname
  · refine List.filter_eq_nil_iff.mpr (List.forall_mem_map.mpr fun svc _ => ?_)
    simpa [Line.isSampleOf] using hname

/-- The samples of a service metric are those of the slots that the count covers. -/
theorem samples_eq (snap : MonSnapshot) {metric : ServiceMetric}
    (hmetric : metric ∈ serviceMetrics) :
    (prometheusLines snap).filter (Line.isSampleOf metric.family.name) =
      (visited snap.services snap.serviceCount).map metric.line := by
  have hname : metric.family.name ∈ serviceMetricNames := List.mem_map_of_mem hmetric
  rw [filter_prometheusLines snap hname]
  simp only [filter_lines]
  simp only [serviceMetrics, List.mem_cons, List.not_mem_nil, or_false] at hmetric
  rcases hmetric with rfl | rfl | rfl | rfl | rfl
  all_goals
    simp [serviceMetrics, serviceCpuPercent, serviceRssBytes, serviceFdCount,
      serviceHealthScore, serviceRestartCount]

theorem filled_iff_cstr_ne_nil (svc : ServiceMetrics) : svc.Filled ↔ cstr svc.name ≠ [] := by
  rw [ServiceMetrics.Filled]
  cases svc.name with
  | nil => simp [cstr]
  | cons b name => by_cases hb : b = 0 <;> simp [cstr, hb]

theorem ServiceMetric.head?_labels {metric : ServiceMetric} (hmetric : metric ∈ serviceMetrics)
    (svc : ServiceMetrics) :
    (metric.labels svc).head? = some ("service", .str (cstr svc.name)) := by
  simp only [serviceMetrics, List.mem_cons, List.not_mem_nil, or_false] at hmetric
  rcases hmetric with rfl | rfl | rfl | rfl | rfl
  all_goals rfl

theorem ServiceMetric.filled_of_line_eq {metric : ServiceMetric}
    (hmetric : metric ∈ serviceMetrics) (a b : ServiceMetrics)
    (h : metric.line a = metric.line b) (ha : a.Filled) : b.Filled := by
  have hlabels : metric.labels a = metric.labels b := (Line.sample.inj h).2.1
  have hname : cstr a.name = cstr b.name := by
    have hhead := congrArg List.head? hlabels
    rw [head?_labels hmetric, head?_labels hmetric] at hhead
    simpa using hhead
  rw [filled_iff_cstr_ne_nil] at ha ⊢
  rwa [← hname]

theorem prometheusRender_of_lt {fixed : FixedFormat} {snap : MonSnapshot} {bufsiz : UInt32}
    (h : ((prometheusLines snap).flatMap (Line.text fixed)).length < bufsiz.toNat) :
    prometheusRender fixed snap bufsiz =
      ⟨UInt32.ofNat ((prometheusLines snap).flatMap (Line.text fixed)).length,
        (prometheusLines snap).flatMap (Line.text fixed)⟩ := by
  have hpos : bufsiz ≠ 0 := by
    rintro rfl
    cases h
  rw [prometheusRender, if_neg hpos]
  dsimp only
  rw [if_pos h]

/-- Every live service is exported exactly when no filled slot has an empty one in front
of it. -/
theorem exportsLive_iff (fixed : FixedFormat) (state : MonitordState)
    (snapshot : MonSnapshot) :
    ExportsLive fixed state snapshot ↔
      GapFree ServiceMetrics.Filled state.services.toList := by
  have hcount : (visited (monitordStateSerializeSnapshot state snapshot).2.services
      (monitordStateSerializeSnapshot state snapshot).2.serviceCount) =
        state.services.toList.take (state.services.toList.countP fun svc => svc.Filled) := by
    rw [← toNat_countServices]
    rfl
  rw [ExportsLive, and_iff_right fun _ => prometheusRender_of_lt]
  constructor
  · intro h
    have hcpu : serviceCpuPercent ∈ serviceMetrics := List.mem_cons_self ..
    have hsamples := h _ hcpu
    rw [samples_eq _ hcpu, hcount] at hsamples
    exact (map_take_countP_iff (ServiceMetric.filled_of_line_eq hcpu)).mp hsamples
  · intro h metric hmetric
    rw [samples_eq _ hmetric, hcount, h.take_countP]
    rfl

def named (name : List Char) : ServiceMetrics := ⟨ascii name, 0, 0, 0, 0, 0, 0, []⟩

/-- The collector of the processes has filled its slots, the one of the service manager has
not. -/
def processesFirst : MonitordState :=
  { MonitordState.zeroed with
    services := #v[named [], named ['A', 'u', 'd', 'i', 'o', 'S', 'v', 'c'],
      named ['G', 'P', 'I', 'O', 'S', 'v', 'c'],
      named ['S', 'e', 'n', 's', 'o', 'r', 'S', 'v', 'c']] }

/-- The empty slot is exported, and the last service is not. -/
theorem exportsLive_gap :
    ¬ExportsLive (fun _ _ => []) processesFirst .zeroed ∧
      (prometheusLines (monitordStateSerializeSnapshot processesFirst .zeroed).2).filter
          (Line.isSampleOf serviceHealthScore.family.name) =
        (processesFirst.services.toList.take 3).map serviceHealthScore.line := by
  have hmem : serviceHealthScore ∈ serviceMetrics := by simp [serviceMetrics]
  have hsamples := samples_eq (monitordStateSerializeSnapshot processesFirst .zeroed).2 hmem
  constructor
  · rintro ⟨-, hlive⟩
    have hwrong := hsamples.symm.trans (hlive _ hmem)
    revert hwrong
    decide +kernel
  · rw [hsamples]
    rfl

end Monitoring

end Shinigami
