import Shinigami.Monitoring.Metrics.ExportLines

/-!
# Reading an export

The text of `prometheus_render` is an exposition with one sample for each metric and entry
when the names need no escape, since they are written as they are; of the names of the
channels, only the first metric replaces all that would need one. `exportValid_iff` has the
exact condition. A number that is not one must have no sign either.
-/

namespace Shinigami

namespace Monitoring

open CString Exposition

/-! ## The samples -/

def perEntry {α : Type} (fixed : FixedFormat) (name : String) (entries : List α)
    (labels : α → List (String × Value)) (value : α → Value) : List Sample :=
  entries.map fun a => sampleOf fixed name (labels a) (value a)

def systemSamples (fixed : FixedFormat) (snap : MonSnapshot) : List Sample :=
  [sampleOf fixed "middleware_system_cpu_total_percent" []
      (.fixed 2 (.ofFloat snap.sysinfo.cpuTotalPct)),
    sampleOf fixed "middleware_system_ram_used_bytes" []
      (.unsigned snap.sysinfo.ramUsedBytes.toNat),
    sampleOf fixed "middleware_system_ram_total_bytes" []
      (.unsigned snap.sysinfo.ramTotalBytes.toNat),
    sampleOf fixed "middleware_system_load_1m" [] (.fixed 2 (.ofFloat snap.sysinfo.load1)),
    sampleOf fixed "middleware_system_uptime_seconds" [] (.unsigned snap.sysinfo.uptimeS.toNat),
    sampleOf fixed "middleware_system_health_score" []
      (.unsigned snap.systemHealth.score.toNat)]

def serviceSamples (fixed : FixedFormat) (services : List ServiceMetrics) : List Sample :=
  perEntry fixed "middleware_service_cpu_percent" services servicePidLabels
      (fun svc => .fixed 2 (.ofFloat svc.cpuPct)) ++
    perEntry fixed "middleware_service_rss_bytes" services servicePidLabels
      (fun svc => .unsigned svc.rssBytes.toNat) ++
    perEntry fixed "middleware_service_fd_count" services servicePidLabels
      (fun svc => .unsigned svc.fdCount.toNat) ++
    perEntry fixed "middleware_service_health_score" services serviceLabels
      (fun svc => .unsigned svc.healthScore.toNat) ++
    perEntry fixed "middleware_service_restart_count" services serviceLabels
      (fun svc => .unsigned svc.restartCount.toNat)

def poolSamples (fixed : FixedFormat) (pools : List PoolMetrics) : List Sample :=
  perEntry fixed "middleware_memory_pool_used_blocks" pools poolLabels
      (fun p => .unsigned p.usedBlocks.toNat) ++
    perEntry fixed "middleware_memory_pool_free_blocks" pools poolLabels
      (fun p => .unsigned p.freeBlocks.toNat) ++
    perEntry fixed "middleware_memory_pool_alloc_failures_total" pools poolLabels
      (fun p => .unsigned p.failCount.toNat)

def histogramSamples (fixed : FixedFormat) (u : UringMetrics) : List Sample :=
  let limits := (u.histBucketLimits.toList.zip u.histBuckets.toList).filter
    fun b => !notPositive b.1
  perEntry fixed "middleware_uring_completion_latency_seconds_bucket" limits
      (fun b => [("loop", .str (cstr u.name)), ("le", .fixed 6 (.div (.ofDouble b.1) 1000000))])
      (fun b => .unsigned b.2.toNat) ++
    [sampleOf fixed "middleware_uring_completion_latency_seconds_bucket"
        [("loop", .str (cstr u.name)), ("le", .str (literal "+Inf"))]
        (.unsigned u.histCount.toNat),
      sampleOf fixed "middleware_uring_completion_latency_seconds_sum"
        [("loop", .str (cstr u.name))] (.fixed 6 (.div (.ofUnsigned u.histSumUs) 1000000)),
      sampleOf fixed "middleware_uring_completion_latency_seconds_count"
        [("loop", .str (cstr u.name))] (.unsigned u.histCount.toNat)]

def uringSamples (fixed : FixedFormat) (urings : List UringMetrics) : List Sample :=
  perEntry fixed "middleware_uring_sq_fill_ratio" urings
      (fun u => [("loop", .str (cstr u.name))])
      (fun u => .fixed 4 (.div (.ofFloat u.sqFillPct) 100)) ++
    urings.flatMap (histogramSamples fixed)

def ringbufSamples (fixed : FixedFormat) (ringBuffers : List RingbufMetrics) : List Sample :=
  perEntry fixed "middleware_ringbuf_fill_ratio" ringBuffers
      (fun r => [("buffer", .str (cstr r.name))])
      (fun r => .fixed 4 (.div (.ofFloat r.fillPct) 100)) ++
    perEntry fixed "middleware_ringbuf_drops_total" ringBuffers
      (fun r => [("buffer", .str (cstr r.name))]) (fun r => .unsigned r.dropCount.toNat)

def securitySamples (fixed : FixedFormat) (security : SecurityMetrics) : List Sample :=
  (List.range serviceMax).flatMap fun i =>
    perEntry fixed "middleware_security_violations_total"
      [("seccomp", security.seccompViolations.toList.getD i 0),
        ("hmac_fail", security.hmacFailures.toList.getD i 0),
        ("replay", security.replayAttacks.toList.getD i 0)]
      (fun v => [("service", .str (literal (serviceNameByIdx i))), ("type", .str (literal v.1))])
      (fun v => .unsigned v.2.toNat)

def channelSamples (fixed : FixedFormat) (channels : List IpcMetrics) : List Sample :=
  perEntry fixed "middleware_ipc_messages_per_second" channels
      (fun ch => [("channel", channelLabel ['\x22', '\\', '\n'] ch.name)])
      (fun ch => .fixed 1 (.ofDouble ch.msgsPerS)) ++
    perEntry fixed "middleware_ipc_drop_total" channels
      (fun ch => [("channel", channelLabel ['\x22'] ch.name)])
      (fun ch => .unsigned ch.dropCount.toNat)

def entrySamples (fixed : FixedFormat) (snap : MonSnapshot) : List Sample :=
  systemSamples fixed snap ++ serviceSamples fixed (visited snap.services snap.serviceCount) ++
    poolSamples fixed (visited snap.pools snap.poolCount) ++
    uringSamples fixed (visited snap.urings snap.uringCount) ++
    ringbufSamples fixed (visited snap.ringBuffers snap.ringbufCount) ++
    securitySamples fixed snap.security ++
    [sampleOf fixed "middleware_sm_health_p99_us" [] (.unsigned snap.sm.healthP99Us.toNat),
      sampleOf fixed "middleware_sm_registered_services" []
        (.unsigned snap.sm.registeredServices.toNat),
      sampleOf fixed "middleware_alerts_active" [("severity", .str (literal "warn"))]
        (.unsigned snap.alertsWarn.toNat),
      sampleOf fixed "middleware_alerts_active" [("severity", .str (literal "crit"))]
        (.unsigned snap.alertsCrit.toNat)] ++
    perEntry fixed "middleware_watchdog_restarts_total"
      (visited snap.watchdog.entries snap.watchdog.count)
      (fun w => [("service", .str (cstr w.serviceName))])
      (fun w => .unsigned w.restartCount.toNat) ++
    channelSamples fixed (visited snap.ipcChannels snap.ipcCount)

/-! ## What is to hold -/

def Line.toSample? (fixed : FixedFormat) : Line → Option Sample
  | .sample name labels value => some (sampleOf fixed name labels value)
  | _ => none

/-- No label that is written needs an escape, the two metrics of a channel label it the same
way, and the text is an exposition with one sample for each metric and entry. -/
structure ExportValid (fixed : FixedFormat) (snap : MonSnapshot) (text : List UInt8) : Prop where
  labels : ∀ s ∈ (prometheusLines snap).filterMap (Line.toSample? fixed), s.LabelsPlain
  channels : ∀ ch ∈ visited snap.ipcChannels snap.ipcCount,
    channelLabel ['\x22', '\\', '\n'] ch.name = channelLabel ['\x22'] ch.name
  samples : ∃ items, readText text = some items ∧ Grouped items ∧
    samples items = entrySamples fixed snap

def PlainName (name : List UInt8) : Prop := ∀ b ∈ cstr name, Unescaped b

/-- The names that are written as they are need no escape, and neither does a channel name up
to its 47th byte, except for quotes. -/
structure PlainNames (snap : MonSnapshot) : Prop where
  services : ∀ svc ∈ visited snap.services snap.serviceCount, PlainName svc.name
  pools : ∀ p ∈ visited snap.pools snap.poolCount, PlainName p.name
  urings : ∀ u ∈ visited snap.urings snap.uringCount, PlainName u.name
  ringBuffers : ∀ r ∈ visited snap.ringBuffers snap.ringbufCount, PlainName r.name
  watchdog : ∀ w ∈ visited snap.watchdog.entries snap.watchdog.count, PlainName w.serviceName
  channels : ∀ ch ∈ visited snap.ipcChannels snap.ipcCount,
    ∀ b ∈ (cstr ch.name).take 47, b ≠ 92 ∧ b ≠ newline

/-- The floating-point numbers that are the values of samples, with their digits. -/
def printedNumbers (snap : MonSnapshot) : List (ℕ × Number) :=
  [(2, .ofFloat snap.sysinfo.cpuTotalPct), (2, .ofFloat snap.sysinfo.load1)] ++
    (visited snap.services snap.serviceCount).map (fun svc => (2, .ofFloat svc.cpuPct)) ++
    (visited snap.urings snap.uringCount).flatMap (fun u =>
      [(4, .div (.ofFloat u.sqFillPct) 100), (6, .div (.ofUnsigned u.histSumUs) 1000000)]) ++
    (visited snap.ringBuffers snap.ringbufCount).map
      (fun r => (4, .div (.ofFloat r.fillPct) 100)) ++
    (visited snap.ipcChannels snap.ipcCount).map (fun ch => (1, .ofDouble ch.msgsPerS))

/-- No value of a sample is printed as one that is not a number with a sign. -/
def NoSignedNan (fixed : FixedFormat) (snap : MonSnapshot) : Prop :=
  ∀ x ∈ printedNumbers snap, fixed x.1 x.2 ≠ literal "-nan"

/-! ## The samples of the lines -/

section Lines

variable {fixed : FixedFormat}

theorem filterMap_entries {α : Type} (name : String) (entries : List α)
    (labels : α → List (String × Value)) (value : α → Value) :
    (entries.map fun a => Line.sample name (labels a) (value a)).filterMap
      (Line.toSample? fixed) = perEntry fixed name entries labels value := by
  rw [List.filterMap_map]
  exact congrFun List.filterMap_eq_map' entries

theorem filterMap_table {α : Type} (f : Family) (entries : List α)
    (labels : α → List (String × Value)) (value : α → Value) :
    (table f entries labels value).filterMap (Line.toSample? fixed) =
      perEntry fixed f.name entries labels value := by
  rw [table, List.filterMap_append, List.filterMap_cons_none rfl, filterMap_entries,
    List.filterMap_cons_none rfl, List.filterMap_nil, List.append_nil]

theorem filterMap_histogramLines (u : UringMetrics) :
    (histogramLines u).filterMap (Line.toSample? fixed) = histogramSamples fixed u := by
  rw [histogramLines, List.filterMap_append, filterMap_entries]
  rfl

theorem filterMap_uringLines (snap : MonSnapshot) :
    (uringLines snap).filterMap (Line.toSample? fixed) =
      uringSamples fixed (visited snap.urings snap.uringCount) := by
  rw [uringLines, List.filterMap_append, filterMap_table, List.filterMap_cons_none rfl,
    List.filterMap_flatMap, funext fun u => filterMap_histogramLines u, uringSamples]

theorem filterMap_securityLines (snap : MonSnapshot) :
    (securityLines snap).filterMap (Line.toSample? fixed) =
      securitySamples fixed snap.security := by
  rw [securityLines, List.filterMap_append, List.filterMap_cons_none rfl, List.filterMap_flatMap,
    List.filterMap_cons_none rfl, List.filterMap_nil, List.append_nil]
  rfl

theorem filterMap_serviceLines (snap : MonSnapshot) :
    (serviceMetrics.flatMap fun metric => metric.lines snap).filterMap (Line.toSample? fixed) =
      serviceSamples fixed (visited snap.services snap.serviceCount) := by
  simp only [serviceMetrics, List.flatMap_cons, List.flatMap_nil, ServiceMetric.lines,
    List.filterMap_append, filterMap_table, List.append_nil, serviceSamples,
    List.append_assoc]
  rfl

theorem filterMap_memoryPoolLines (snap : MonSnapshot) :
    (memoryPoolLines snap).filterMap (Line.toSample? fixed) =
      poolSamples fixed (visited snap.pools snap.poolCount) := by
  simp only [memoryPoolLines, List.filterMap_append, filterMap_table, poolSamples]

theorem filterMap_ringbufLines (snap : MonSnapshot) :
    (ringbufLines snap).filterMap (Line.toSample? fixed) =
      ringbufSamples fixed (visited snap.ringBuffers snap.ringbufCount) := by
  simp only [ringbufLines, List.filterMap_append, filterMap_table, ringbufSamples]

theorem filterMap_ipcLines (snap : MonSnapshot) :
    (ipcLines snap).filterMap (Line.toSample? fixed) =
      channelSamples fixed (visited snap.ipcChannels snap.ipcCount) := by
  simp only [ipcLines, List.filterMap_append, filterMap_table, channelSamples]

theorem filterMap_prometheusLines (snap : MonSnapshot) :
    (prometheusLines snap).filterMap (Line.toSample? fixed) = entrySamples fixed snap := by
  have hsystem : (systemLines snap).filterMap (Line.toSample? fixed) = systemSamples fixed snap :=
    rfl
  have hsm : (smLines snap).filterMap (Line.toSample? fixed) ++
      (alertLines snap).filterMap (Line.toSample? fixed) =
        [sampleOf fixed "middleware_sm_health_p99_us" [] (.unsigned snap.sm.healthP99Us.toNat),
          sampleOf fixed "middleware_sm_registered_services" []
            (.unsigned snap.sm.registeredServices.toNat),
          sampleOf fixed "middleware_alerts_active" [("severity", .str (literal "warn"))]
            (.unsigned snap.alertsWarn.toNat),
          sampleOf fixed "middleware_alerts_active" [("severity", .str (literal "crit"))]
            (.unsigned snap.alertsCrit.toNat)] := rfl
  have heof : [Line.eof].filterMap (Line.toSample? fixed) = [] := rfl
  rw [entrySamples, ← hsm]
  simp only [prometheusLines, List.filterMap_append, hsystem, filterMap_serviceLines,
    filterMap_memoryPoolLines, filterMap_uringLines, filterMap_ringbufLines,
    filterMap_securityLines, watchdogLines, filterMap_table, filterMap_ipcLines, heof,
    List.append_nil, List.append_assoc]

end Lines

/-! ## Reading the lines back -/

def Line.items (fixed : FixedFormat) : Line → List Item
  | .announce f => [.help (literal f.name), .type (literal f.name) (literal f.type)]
  | .sample name labels value => [.sample (sampleOf fixed name labels value)]
  | .blank => [.blank]
  | .eof => [.comment]

section Read

variable {fixed : FixedFormat}

theorem readRows_rows {line : Line} (h : line.WellFormed)
    (hplain : ∀ s, line.toSample? fixed = some s → s.Plain) :
    readRows (line.rows fixed) = some (line.items fixed) := by
  cases line with
  | announce f =>
      obtain ⟨hname, -, hkind⟩ := h
      simp only [Line.rows, readRows, readRow_help hname, readRow_type hname hkind,
        Option.bind_some, Option.map_some, Line.items]
  | sample name labels value =>
      simp only [Line.rows, readRows, readRow_row (hplain _ rfl), Option.bind_some,
        Option.map_some, Line.items]
  | blank => rfl
  | eof =>
      have heof : readRow (literal "# EOF") = some .comment := by decide
      simp only [Line.rows, readRows, heof, Option.bind_some, Option.map_some, Line.items]

theorem readRows_flatMap {lines : List Line} (h : AllWellFormed lines)
    (hplain : ∀ s ∈ lines.filterMap (Line.toSample? fixed), s.Plain) :
    readRows (lines.flatMap (Line.rows fixed)) = some (lines.flatMap (Line.items fixed)) := by
  induction lines with
  | nil => rfl
  | cons line lines ih =>
      obtain ⟨hline, hlines⟩ := List.forall_mem_cons.mp h
      have hfirst := readRows_rows hline fun s hs =>
        hplain s (List.mem_filterMap.mpr ⟨line, List.mem_cons_self, hs⟩)
      have hrest := ih hlines fun s hs => by
        obtain ⟨line', hmem, hs'⟩ := List.mem_filterMap.mp hs
        exact hplain s (List.mem_filterMap.mpr ⟨line', List.mem_cons_of_mem _ hmem, hs'⟩)
      exact readRows_append hfirst hrest

theorem newline_notMem_rows (hfixed : PrintsNumbers fixed) {line : Line} (h : line.WellFormed)
    (hplain : ∀ s, line.toSample? fixed = some s → s.Plain) :
    ∀ row ∈ line.rows fixed, newline ∉ row := by
  cases line with
  | announce f => exact notMem_announce (Or.inr rfl) h
  | sample name labels value =>
      refine notMem_row hfixed (Or.inr rfl) h fun label hlabel hmem => ?_
      have hvalue := (hplain _ rfl).labelValue _ (List.mem_map_of_mem hlabel) newline hmem
      exact hvalue.2.2 rfl
  | blank => simp [Line.rows]
  | eof =>
      rw [Line.rows, List.forall_mem_singleton]
      decide

theorem readText_expositionText (hfixed : PrintsNumbers fixed) {snap : MonSnapshot}
    (hplain : ∀ s ∈ entrySamples fixed snap, s.Plain) :
    readText (expositionText fixed snap) =
      some ((prometheusLines snap).flatMap (Line.items fixed)) := by
  rw [← filterMap_prometheusLines] at hplain
  have hrows : ∀ row ∈ (prometheusLines snap).flatMap (Line.rows fixed), newline ∉ row := by
    rw [List.forall_mem_flatMap]
    intro line hline
    exact newline_notMem_rows hfixed (wellFormed_prometheusLines snap line hline) fun s hs =>
      hplain s (List.mem_filterMap.mpr ⟨line, hline, hs⟩)
  rw [expositionText_eq, readText_flatMap hrows,
    readRows_flatMap (wellFormed_prometheusLines snap) hplain]

theorem samples_items (lines : List Line) :
    samples (lines.flatMap (Line.items fixed)) = lines.filterMap (Line.toSample? fixed) := by
  induction lines with
  | nil => rfl
  | cons line lines ih =>
      rw [List.flatMap_cons, samples, List.filterMap_append]
      rw [samples] at ih
      cases line with
      | sample name labels value => exact congrArg (sampleOf fixed name labels value :: ·) ih
      | _ => exact ih

end Read

/-! ## Groups -/

def GroupedLines (fixed : FixedFormat) (lines : List Line) : Prop :=
  ∀ family, InGroups family (lines.flatMap (Line.items fixed))

section Groups

variable {fixed : FixedFormat}

theorem GroupedLines.append {lines lines' : List Line} (h : GroupedLines fixed lines)
    (h' : GroupedLines fixed lines') : GroupedLines fixed (lines ++ lines') := by
  intro family
  rw [List.flatMap_append]
  exact (h family).append h'

theorem inGroups_items {family : List UInt8 × List UInt8} {lines : List Line}
    (h : ∀ line ∈ lines, line = .blank ∨ ∃ name labels value,
      line = .sample name labels value ∧ Belongs (some family) (literal name)) :
    InGroups (some family) (lines.flatMap (Line.items fixed)) := by
  induction lines with
  | nil => exact .nil _
  | cons line lines ih =>
      obtain ⟨hline, hlines⟩ := List.forall_mem_cons.mp h
      rcases hline with rfl | ⟨name, labels, value, rfl, hname⟩
      · exact .other rfl rfl (ih hlines)
      · exact .sample hname (ih hlines)

theorem groupedLines_announce {f : Family} {lines : List Line}
    (h : ∀ line ∈ lines, line = .blank ∨ ∃ name labels value, line = .sample name labels value ∧
      Belongs (some (literal f.name, literal f.type)) (literal name)) :
    GroupedLines fixed (.announce f :: lines) :=
  fun _ => .other rfl rfl (.type (inGroups_items h))

theorem belongs_self (f : Family) :
    Belongs (some (literal f.name, literal f.type)) (literal f.name) :=
  ⟨_, _, rfl, Or.inl rfl⟩

theorem groupedLines_single (f : Family) (value : Value) :
    GroupedLines fixed (single f value) := by
  apply groupedLines_announce
  rw [List.forall_mem_cons, List.forall_mem_singleton]
  exact ⟨Or.inr ⟨_, _, _, rfl, belongs_self f⟩, Or.inl rfl⟩

theorem groupedLines_table {α : Type} (f : Family) (entries : List α)
    (labels : α → List (String × Value)) (value : α → Value) :
    GroupedLines fixed (table f entries labels value) := by
  rw [table, List.cons_append]
  apply groupedLines_announce
  rw [List.forall_mem_append, List.forall_mem_map, List.forall_mem_singleton]
  exact ⟨fun a _ => Or.inr ⟨_, _, _, rfl, belongs_self f⟩, Or.inl rfl⟩

theorem groupedLines_uring (snap : MonSnapshot) : GroupedLines fixed (uringLines snap) := by
  refine (groupedLines_table _ _ _ _).append (groupedLines_announce ?_)
  rw [List.forall_mem_flatMap]
  intro u _
  have hseries : ∀ suffix ∈ [literal "_bucket", literal "_sum", literal "_count"],
      Belongs (some (literal "middleware_uring_completion_latency_seconds",
        literal "histogram")) (literal "middleware_uring_completion_latency_seconds" ++ suffix) :=
    fun suffix hsuffix => ⟨_, _, rfl, Or.inr ⟨rfl, List.mem_map_of_mem hsuffix⟩⟩
  simp only [List.forall_mem_cons] at hseries
  obtain ⟨hbucket, hsum, hcount, -⟩ := hseries
  rw [histogramLines, List.forall_mem_append, List.forall_mem_map]
  refine ⟨fun b _ => Or.inr ⟨_, _, _, rfl, hbucket⟩, ?_⟩
  rw [List.forall_mem_cons, List.forall_mem_cons, List.forall_mem_cons, List.forall_mem_singleton]
  exact ⟨Or.inr ⟨_, _, _, rfl, hbucket⟩, Or.inr ⟨_, _, _, rfl, hsum⟩,
    Or.inr ⟨_, _, _, rfl, hcount⟩, Or.inl rfl⟩

theorem groupedLines_security (snap : MonSnapshot) :
    GroupedLines fixed (securityLines snap) := by
  rw [securityLines, List.cons_append]
  apply groupedLines_announce
  rw [List.forall_mem_append, List.forall_mem_flatMap, List.forall_mem_singleton]
  refine ⟨fun i _ => ?_, Or.inl rfl⟩
  rw [List.forall_mem_cons, List.forall_mem_cons, List.forall_mem_singleton]
  have hself := belongs_self securityViolations
  exact ⟨Or.inr ⟨_, _, _, rfl, hself⟩, Or.inr ⟨_, _, _, rfl, hself⟩,
    Or.inr ⟨_, _, _, rfl, hself⟩⟩

theorem groupedLines_alert (snap : MonSnapshot) : GroupedLines fixed (alertLines snap) := by
  apply groupedLines_announce
  rw [List.forall_mem_cons, List.forall_mem_cons, List.forall_mem_singleton]
  have hself := belongs_self alertsActive
  exact ⟨Or.inr ⟨_, _, _, rfl, hself⟩, Or.inr ⟨_, _, _, rfl, hself⟩, Or.inl rfl⟩

theorem groupedLines_service (snap : MonSnapshot) :
    GroupedLines fixed (serviceMetrics.flatMap fun metric => metric.lines snap) := by
  simp only [serviceMetrics, List.flatMap_cons, List.flatMap_nil]
  refine .append ?_ (.append ?_ (.append ?_ (.append ?_ (.append ?_ fun _ => .nil _))))
  all_goals exact groupedLines_table _ _ _ _

theorem groupedLines_prometheusLines (snap : MonSnapshot) :
    GroupedLines fixed (prometheusLines snap) := by
  have hsystem : GroupedLines fixed (systemLines snap) := by
    refine .append (.append (.append (.append (.append ?_ ?_) ?_) ?_) ?_) ?_
    all_goals exact groupedLines_single _ _
  have hpool : GroupedLines fixed (memoryPoolLines snap) :=
    ((groupedLines_table _ _ _ _).append (groupedLines_table _ _ _ _)).append
      (groupedLines_table _ _ _ _)
  have hringbuf : GroupedLines fixed (ringbufLines snap) :=
    (groupedLines_table _ _ _ _).append (groupedLines_table _ _ _ _)
  have hsm : GroupedLines fixed (smLines snap) :=
    (groupedLines_single _ _).append (groupedLines_single _ _)
  have hipc : GroupedLines fixed (ipcLines snap) :=
    (groupedLines_table _ _ _ _).append (groupedLines_table _ _ _ _)
  have hwatchdog : GroupedLines fixed (watchdogLines snap) := groupedLines_table _ _ _ _
  have heof : GroupedLines fixed [.eof] := fun _ => .other rfl rfl (.nil _)
  rw [prometheusLines]
  refine .append (.append (.append (.append (.append (.append (.append (.append (.append (.append
    ?_ ?_) ?_) ?_) ?_) ?_) ?_) ?_) ?_) ?_) heof
  · exact hsystem
  · exact groupedLines_service snap
  · exact hpool
  · exact groupedLines_uring snap
  · exact hringbuf
  · exact groupedLines_security snap
  · exact hsm
  · exact groupedLines_alert snap
  · exact hwatchdog
  · exact hipc

/-! ## Types -/

def Line.announced? : Line → Option String
  | .announce f => some f.name
  | _ => none

theorem typed_items (lines : List Line) :
    (lines.flatMap (Line.items fixed)).filterMap Item.typed? =
      (lines.filterMap Line.announced?).map literal := by
  induction lines with
  | nil => rfl
  | cons line lines ih =>
      rw [List.flatMap_cons, List.filterMap_append, ih]
      cases line with
      | _ => rfl

theorem announced_announce (f : Family) (lines : List Line) :
    (Line.announce f :: lines).filterMap Line.announced? =
      f.name :: lines.filterMap Line.announced? := rfl

theorem announced_single (f : Family) (value : Value) :
    (single f value).filterMap Line.announced? = [f.name] := rfl

theorem announced_entries {α : Type} (name : String) (entries : List α)
    (labels : α → List (String × Value)) (value : α → Value) :
    (entries.map fun a => Line.sample name (labels a) (value a)).filterMap Line.announced? =
      [] := by
  rw [List.filterMap_map]
  exact List.filterMap_eq_nil_iff.mpr fun _ _ => rfl

theorem announced_table {α : Type} (f : Family) (entries : List α)
    (labels : α → List (String × Value)) (value : α → Value) :
    (table f entries labels value).filterMap Line.announced? = [f.name] := by
  rw [table, List.filterMap_append, announced_announce, announced_entries]
  rfl

theorem announced_uringLines (snap : MonSnapshot) :
    (uringLines snap).filterMap Line.announced? =
      ["middleware_uring_sq_fill_ratio", "middleware_uring_completion_latency_seconds"] := by
  have hseries : ∀ u : UringMetrics, (histogramLines u).filterMap Line.announced? = [] := by
    intro u
    rw [histogramLines, List.filterMap_append, announced_entries]
    rfl
  rw [uringLines, List.filterMap_append, announced_table, announced_announce,
    List.filterMap_flatMap, funext hseries]
  simp

theorem announced_securityLines (snap : MonSnapshot) :
    (securityLines snap).filterMap Line.announced? = [securityViolations.name] := by
  rw [securityLines, List.filterMap_append, announced_announce, List.filterMap_flatMap]
  rfl

theorem announced_prometheusLines (snap snap' : MonSnapshot) :
    (prometheusLines snap).filterMap Line.announced? =
      (prometheusLines snap').filterMap Line.announced? := by
  simp only [prometheusLines, List.filterMap_append, systemLines, serviceMetrics,
    List.flatMap_cons, List.flatMap_nil, ServiceMetric.lines, memoryPoolLines, ringbufLines,
    smLines, watchdogLines, ipcLines, announced_single, announced_table, announced_uringLines,
    announced_securityLines, List.append_nil]
  rfl

theorem nodup_announced (snap : MonSnapshot) :
    (((prometheusLines snap).filterMap Line.announced?).map literal).Nodup := by
  rw [announced_prometheusLines snap .zeroed]
  decide +kernel

theorem grouped_items (snap : MonSnapshot) :
    Grouped ((prometheusLines snap).flatMap (Line.items fixed)) where
  inGroups := groupedLines_prometheusLines snap none
  types := by
    rw [typed_items]
    exact nodup_announced snap

end Groups

/-! ## Labels -/

section Labels

variable {fixed : FixedFormat}

theorem forall_mem_perEntry {P : Sample → Prop} {α : Type} {name : String} {entries : List α}
    {labels : α → List (String × Value)} {value : α → Value} :
    (∀ s ∈ perEntry fixed name entries labels value, P s) ↔
      ∀ a ∈ entries, P (sampleOf fixed name (labels a) (value a)) :=
  List.forall_mem_map

theorem labelsPlain_sampleOf {name : String} {labels : List (String × Value)} {value : Value} :
    (sampleOf fixed name labels value).LabelsPlain ↔
      ∀ label ∈ labels, ∀ b ∈ label.2.text fixed, Unescaped b :=
  List.forall_mem_map

theorem unescaped_of_isNumeric (hfixed : PrintsNumbers fixed) {value : Value}
    (h : value.IsNumeric) : ∀ b ∈ value.text fixed, Unescaped b := by
  intro b hb
  refine ⟨?_, ?_, ?_⟩
  all_goals
    rintro rfl
    exact Value.notMem_text hfixed (by decide) (by decide) (by decide) h hb

theorem labelsPlain_nil (name : String) (value : Value) :
    (sampleOf fixed name [] value).LabelsPlain := nofun

theorem labelsPlain_name {name key : String} {s : List UInt8} {value : Value} :
    (sampleOf fixed name [(key, .str (cstr s))] value).LabelsPlain ↔ PlainName s := by
  rw [labelsPlain_sampleOf, List.forall_mem_singleton]
  rfl

theorem labelsPlain_name_numeric (hfixed : PrintsNumbers fixed) {name key key' : String}
    {s : List UInt8} {number value : Value} (hnumber : number.IsNumeric) :
    (sampleOf fixed name [(key, .str (cstr s)), (key', number)] value).LabelsPlain ↔
      PlainName s := by
  rw [labelsPlain_sampleOf, List.forall_mem_cons, List.forall_mem_singleton]
  exact and_iff_left (unescaped_of_isNumeric hfixed hnumber)

theorem labelsPlain_name_unsigned (hfixed : PrintsNumbers fixed) {name key key' : String}
    {s : List UInt8} {n : ℕ} {value : Value} :
    (sampleOf fixed name [(key, .str (cstr s)), (key', .unsigned n)] value).LabelsPlain ↔
      PlainName s := by
  have hnumber : (Value.unsigned n).IsNumeric := trivial
  exact labelsPlain_name_numeric hfixed hnumber

theorem labelsPlain_serviceSamples (hfixed : PrintsNumbers fixed)
    {services : List ServiceMetrics} :
    (∀ s ∈ serviceSamples fixed services, s.LabelsPlain) ↔
      ∀ svc ∈ services, PlainName svc.name := by
  simp only [serviceSamples, List.forall_mem_append, forall_mem_perEntry, servicePidLabels,
    serviceLabels, labelsPlain_name, labelsPlain_name_unsigned hfixed, and_self]

theorem labelsPlain_poolSamples (hfixed : PrintsNumbers fixed) {pools : List PoolMetrics} :
    (∀ s ∈ poolSamples fixed pools, s.LabelsPlain) ↔ ∀ p ∈ pools, PlainName p.name := by
  simp only [poolSamples, List.forall_mem_append, forall_mem_perEntry, poolLabels,
    labelsPlain_name_unsigned hfixed, and_self]

theorem labelsPlain_histogramSamples (hfixed : PrintsNumbers fixed) {u : UringMetrics}
    (h : PlainName u.name) : ∀ s ∈ histogramSamples fixed u, s.LabelsPlain := by
  have hloop : ∀ (name : String) (value : Value),
      (sampleOf fixed name [("loop", .str (cstr u.name))] value).LabelsPlain :=
    fun _ _ => labelsPlain_name.mpr h
  have hinf : ∀ (name : String) (value : Value), (sampleOf fixed name
      [("loop", .str (cstr u.name)), ("le", .str (literal "+Inf"))] value).LabelsPlain := by
    intro name value
    have hplain : (literal "+Inf").all fun b => Unescaped b := by decide
    rw [labelsPlain_sampleOf, List.forall_mem_cons, List.forall_mem_singleton]
    exact ⟨h, unescaped_of_all hplain⟩
  rw [histogramSamples, List.forall_mem_append, forall_mem_perEntry, List.forall_mem_cons,
    List.forall_mem_cons, List.forall_mem_singleton]
  refine ⟨fun b _ => ?_, hinf _ _, hloop _ _,
    hloop _ _⟩
  have hle : (Value.fixed 6 (.div (.ofDouble b.1) 1000000)).IsNumeric := trivial
  exact (labelsPlain_name_numeric hfixed hle).mpr h

theorem labelsPlain_uringSamples (hfixed : PrintsNumbers fixed) {urings : List UringMetrics} :
    (∀ s ∈ uringSamples fixed urings, s.LabelsPlain) ↔ ∀ u ∈ urings, PlainName u.name := by
  simp only [uringSamples, List.forall_mem_append, forall_mem_perEntry, labelsPlain_name,
    List.forall_mem_flatMap]
  exact and_iff_left_of_imp fun h u hu => labelsPlain_histogramSamples hfixed (h u hu)

theorem labelsPlain_ringbufSamples {ringBuffers : List RingbufMetrics} :
    (∀ s ∈ ringbufSamples fixed ringBuffers, s.LabelsPlain) ↔
      ∀ r ∈ ringBuffers, PlainName r.name := by
  simp only [ringbufSamples, List.forall_mem_append, forall_mem_perEntry, labelsPlain_name,
    and_self]

theorem labelsPlain_securitySamples (security : SecurityMetrics) :
    ∀ s ∈ securitySamples fixed security, s.LabelsPlain := by
  rw [securitySamples, List.forall_mem_flatMap]
  intro i _
  have hkind : ∀ kind ∈ ["seccomp", "hmac_fail", "replay"], ∀ value : Value,
      (sampleOf fixed "middleware_security_violations_total"
        [("service", .str (literal (serviceNameByIdx i))), ("type", .str (literal kind))]
        value).LabelsPlain := by
    intro kind hmem value
    have hplain : ["seccomp", "hmac_fail", "replay"].all fun kind =>
        (literal kind).all fun b => Unescaped b := by decide
    rw [labelsPlain_sampleOf, List.forall_mem_cons, List.forall_mem_singleton]
    exact ⟨(unescaped_serviceNameByIdx i).2,
      unescaped_of_all (List.all_eq_true.mp hplain kind hmem)⟩
  simp only [List.forall_mem_cons] at hkind
  obtain ⟨hseccomp, hhmac, hreplay, -⟩ := hkind
  rw [forall_mem_perEntry, List.forall_mem_cons, List.forall_mem_cons, List.forall_mem_singleton]
  exact ⟨hseccomp _, hhmac _, hreplay _⟩

theorem labelsPlain_channel {excluded : List Char} {name : String} {s : List UInt8}
    {value : Value} :
    (sampleOf fixed name [("channel", channelLabel excluded s)] value).LabelsPlain ↔
      ∀ b ∈ (cstr s).take 47, b ∈ ascii excluded ∨ Unescaped b := by
  have hreplaced : Unescaped 95 := by decide
  rw [labelsPlain_sampleOf, List.forall_mem_singleton, channelLabel, Value.text,
    List.forall_mem_map]
  refine forall₂_congr fun b _ => ?_
  split_ifs with hexcluded
  · exact iff_of_true hreplaced (Or.inl hexcluded)
  · exact (or_iff_right hexcluded).symm

theorem labelsPlain_channelSamples {channels : List IpcMetrics} :
    (∀ s ∈ channelSamples fixed channels, s.LabelsPlain) ↔
      ∀ ch ∈ channels, ∀ b ∈ (cstr ch.name).take 47, b ≠ 92 ∧ b ≠ newline := by
  have hall : ∀ b : UInt8, b ∈ ascii ['\x22', '\\', '\n'] ∨ Unescaped b := by
    have hmarks : ascii ['\x22', '\\', '\n'] = [34, 92, newline] := rfl
    intro b
    simp only [hmarks, List.mem_cons, List.not_mem_nil, Unescaped]
    tauto
  have hquote : ∀ b : UInt8, (b ∈ ascii ['\x22'] ∨ Unescaped b) ↔ b ≠ 92 ∧ b ≠ newline := by
    have hmark : ascii ['\x22'] = [34] := rfl
    have hother : (34 : UInt8) ≠ 92 ∧ (34 : UInt8) ≠ newline := by decide
    intro b
    simp only [hmark, List.mem_singleton, Unescaped]
    by_cases hb : b = 34
    · subst hb
      exact iff_of_true (Or.inl rfl) hother
    · simp only [hb, false_or, ne_eq, not_false_iff, true_and]
  simp only [channelSamples, List.forall_mem_append, forall_mem_perEntry, labelsPlain_channel,
    hall, hquote, implies_true, true_and]

/-- No label needs an escape exactly when the names that are written need none. -/
theorem labelsPlain_entrySamples (hfixed : PrintsNumbers fixed) {snap : MonSnapshot} :
    (∀ s ∈ entrySamples fixed snap, s.LabelsPlain) ↔ PlainNames snap := by
  have hsystem : ∀ s ∈ systemSamples fixed snap, s.LabelsPlain := by
    simp only [systemSamples, List.forall_mem_cons, labelsPlain_nil, true_and]
    exact nofun
  have hseverity : ∀ severity ∈ ["warn", "crit"], ∀ value : Value,
      (sampleOf fixed "middleware_alerts_active" [("severity", .str (literal severity))]
        value).LabelsPlain := by
    intro severity hmem value
    have hplain : ["warn", "crit"].all fun severity =>
        (literal severity).all fun b => Unescaped b := by decide
    rw [labelsPlain_sampleOf, List.forall_mem_singleton]
    exact unescaped_of_all (List.all_eq_true.mp hplain severity hmem)
  simp only [List.forall_mem_cons] at hseverity
  obtain ⟨hwarn, hcrit, -⟩ := hseverity
  simp only [entrySamples, List.forall_mem_append, List.forall_mem_cons, forall_mem_perEntry,
    labelsPlain_serviceSamples hfixed, labelsPlain_poolSamples hfixed,
    labelsPlain_uringSamples hfixed, labelsPlain_ringbufSamples, labelsPlain_channelSamples,
    labelsPlain_name, labelsPlain_nil, hwarn, hcrit, true_and]
  constructor
  · rintro ⟨⟨⟨⟨⟨⟨⟨⟨-, hservices⟩, hpools⟩, hurings⟩, hringBuffers⟩, -⟩, -⟩, hwatchdog⟩, hchannels⟩
    exact ⟨hservices, hpools, hurings, hringBuffers, hwatchdog, hchannels⟩
  · rintro ⟨hservices, hpools, hurings, hringBuffers, hwatchdog, hchannels⟩
    exact ⟨⟨⟨⟨⟨⟨⟨⟨hsystem, hservices⟩, hpools⟩, hurings⟩, hringBuffers⟩,
      labelsPlain_securitySamples _⟩, nofun⟩, hwatchdog⟩, hchannels⟩

end Labels

/-! ## Values -/

section Values

variable {fixed : FixedFormat}

theorem isNumber_unsigned {name : String} {labels : List (String × Value)} {n : ℕ} :
    isNumber (sampleOf fixed name labels (.unsigned n)).value = true := by
  rw [sampleOf, Value.text_unsigned, isNumber_decimal]

theorem isNumber_fixed_iff (hfixed : PrintsNumbers fixed) {name : String}
    {labels : List (String × Value)} {digits : ℕ} {x : Number} :
    isNumber (sampleOf fixed name labels (.fixed digits x)).value = true ↔
      fixed digits x ≠ literal "-nan" := by
  have hnan : isNumber (literal "-nan") ≠ true := by decide
  constructor
  · intro h heq
    exact hnan (heq ▸ h)
  · exact (hfixed digits x).resolve_right

/-- The values are numbers exactly when no floating-point number is printed with the sign of
one that is not a number. -/
theorem isNumber_entrySamples (hfixed : PrintsNumbers fixed) {snap : MonSnapshot} :
    (∀ s ∈ entrySamples fixed snap, isNumber s.value = true) ↔ NoSignedNan fixed snap := by
  simp only [entrySamples, systemSamples, serviceSamples, poolSamples, uringSamples,
    histogramSamples, ringbufSamples, securitySamples, channelSamples, List.forall_mem_append,
    List.forall_mem_cons, List.forall_mem_flatMap, forall_mem_perEntry, isNumber_unsigned,
    isNumber_fixed_iff hfixed, implies_true, true_and, and_true, NoSignedNan, printedNumbers,
    List.forall_mem_map, List.not_mem_nil, false_implies, forall₂_and]

end Values

/-! ## The condition -/

section Valid

variable {fixed : FixedFormat} {snap : MonSnapshot}

theorem plain_entrySamples (hlabels : ∀ s ∈ entrySamples fixed snap, s.LabelsPlain)
    (hvalues : ∀ s ∈ entrySamples fixed snap, isNumber s.value = true) :
    ∀ s ∈ entrySamples fixed snap, s.Plain := by
  intro s hs
  have hplain := hlabels s hs
  have hvalue := hvalues s hs
  rw [← filterMap_prometheusLines] at hs
  obtain ⟨line, hline, hsample⟩ := List.mem_filterMap.mp hs
  have hwell := wellFormed_prometheusLines snap line hline
  cases line with
  | sample name labels value =>
      cases hsample
      refine ⟨hwell.1, ?_, hplain, hvalue⟩
      rw [sampleOf, List.forall_mem_map]
      exact fun label hlabel => (hwell.2.1 label hlabel).1
  | announce f => cases hsample
  | blank => cases hsample
  | eof => cases hsample

theorem channelLabel_eq {name : List UInt8}
    (h : ∀ b ∈ (cstr name).take 47, b ≠ 92 ∧ b ≠ newline) :
    channelLabel ['\x22', '\\', '\n'] name = channelLabel ['\x22'] name := by
  have hmarks : ascii ['\x22', '\\', '\n'] = [34, 92, newline] := rfl
  have hmark : ascii ['\x22'] = [34] := rfl
  rw [channelLabel, channelLabel, hmarks, hmark]
  refine congrArg Value.str (List.map_congr_left fun b hb => ?_)
  obtain ⟨hslash, hnewline⟩ := h b hb
  simp only [List.mem_cons, List.not_mem_nil, hslash, hnewline, or_false]

theorem exportValid_text_iff (hfixed : PrintsNumbers fixed) :
    ExportValid fixed snap (expositionText fixed snap) ↔
      PlainNames snap ∧ NoSignedNan fixed snap := by
  constructor
  · rintro ⟨hlabels, -, items, hread, -, hsamples⟩
    rw [filterMap_prometheusLines] at hlabels
    refine ⟨(labelsPlain_entrySamples hfixed).mp hlabels,
      (isNumber_entrySamples hfixed).mp ?_⟩
    rw [← hsamples]
    exact isNumber_of_mem_samples hread
  · rintro ⟨hnames, hnumbers⟩
    have hlabels := (labelsPlain_entrySamples hfixed).mpr hnames
    have hvalues := (isNumber_entrySamples hfixed).mpr hnumbers
    have hread := readText_expositionText hfixed (plain_entrySamples hlabels hvalues)
    refine ⟨?_, fun ch hch => channelLabel_eq (hnames.channels ch hch),
      _, hread, grouped_items snap, ?_⟩
    · rw [filterMap_prometheusLines]
      exact hlabels
    · rw [samples_items, filterMap_prometheusLines]

/-- What is rendered with success is valid exactly when the names need no escape, and no number
is printed as one that is not a number with a sign. -/
theorem exportValid_iff (hfixed : PrintsNumbers fixed) (snap : MonSnapshot) {bufsiz : UInt32}
    (hbufsiz : 1 ≤ bufsiz) (hsuccess : (prometheusRender fixed snap bufsiz).ret ≠ 4294967295) :
    ExportValid fixed snap (prometheusRender fixed snap bufsiz).buf ↔
      PlainNames snap ∧ NoSignedNan fixed snap := by
  have hfits : (expositionText fixed snap).length < bufsiz.toNat := by
    by_contra hlong
    exact hsuccess
      (congrArg Rendered.ret (prometheusRender_of_le hbufsiz (Nat.not_lt.mp hlong)))
  rw [(prometheusRender_of_fits hfits).2, exportValid_text_iff hfixed]

/-- One channel with a name, and zeros. -/
def oneChannel (name : List UInt8) : MonSnapshot :=
  { MonSnapshot.zeroed with
    ipcChannels := MonSnapshot.zeroed.ipcChannels.set 0 ⟨name, 0, 0, []⟩
    ipcCount := 1 }

theorem fits_oneChannel : (expositionText zeroFixed (oneChannel (literal "audio\\in"))).length <
    (65536 : UInt32).toNat := by
  rw [expositionText_eq]
  decide +kernel

theorem success_oneChannel :
    (prometheusRender zeroFixed (oneChannel (literal "audio\\in")) 65536).ret ≠ 4294967295 := by
  intro hret
  have hlen := (prometheusRender_of_fits fits_oneChannel).1
  rw [hret] at hlen
  have hlt := hlen.trans_lt fits_oneChannel
  exact absurd hlt (by decide)

theorem exportValid_iff_oneChannel :
    ExportValid zeroFixed (oneChannel (literal "audio\\in"))
        (prometheusRender zeroFixed (oneChannel (literal "audio\\in")) 65536).buf ↔
      PlainNames (oneChannel (literal "audio\\in")) ∧
        NoSignedNan zeroFixed (oneChannel (literal "audio\\in")) :=
  exportValid_iff printsNumbers_zeroFixed _ (by decide) success_oneChannel

/-- The backslash is replaced in one metric of the channel, and written as it is in the other. -/
theorem not_exportValid_oneChannel :
    (prometheusRender zeroFixed (oneChannel (literal "audio\\in")) 65536).ret ≠ 4294967295 ∧
      ¬ExportValid zeroFixed (oneChannel (literal "audio\\in"))
        (prometheusRender zeroFixed (oneChannel (literal "audio\\in")) 65536).buf := by
  refine ⟨success_oneChannel, fun h => ?_⟩
  rw [(prometheusRender_of_fits fits_oneChannel).2,
    exportValid_text_iff printsNumbers_zeroFixed] at h
  have hvisited : (⟨literal "audio\\in", 0, 0, []⟩ : IpcMetrics) ∈
      visited (oneChannel (literal "audio\\in")).ipcChannels
        (oneChannel (literal "audio\\in")).ipcCount := by
    decide
  have hslash : (92 : UInt8) ∈ (cstr (literal "audio\\in")).take 47 := by decide
  exact (h.1.channels _ hvisited 92 hslash).1 rfl

end Valid

end Monitoring

end Shinigami
