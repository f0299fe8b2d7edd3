import RemoteDeviceConsole.Protocol.FieldScan
import RemoteDeviceConsole.Framing.Frames

/-!
# The METRICS line

The snapshot record `ServerMetrics`, `format_metrics_line` and
`parse_metrics_line`.  Encoder and decoder are written independently in the
source, each with its own ten keys; `parseMetricsLine_formatMetricsLine` says
that they agree.  `formatMetricsLine_eq_printFields` is the shape the decoder
sees: the word `METRICS`, ten ` key=digits` groups, a newline.
-/

namespace RemoteDeviceConsole

open Framing

/-- The wire snapshot of the server's counters. -/
structure ServerMetrics where
  uptimeSec : UInt64
  active : UInt64
  accepted : UInt64
  disconnected : UInt64
  devices : UInt64
  received : UInt64
  ackSent : UInt64
  parseErrors : UInt64
  broadcastErrors : UInt64
  msgPerSec : UInt64
  deriving DecidableEq

namespace ServerMetrics

/-- `ServerMetrics{}`. -/
def default : ServerMetrics := ⟨0, 0, 0, 0, 0, 0, 0, 0, 0, 0⟩

def kMetricsPrefix : Bytes := ascii "METRICS"

/-- Assign one field of a snapshot.  A key that no branch knows is ignored. -/
def assignField (metrics : ServerMetrics) (key value : Bytes) : Option ServerMetrics :=
  if key = ascii "uptime_sec" then
    (parseU64 value).map fun n => { metrics with uptimeSec := n }
  else if key = ascii "active" then (parseU64 value).map fun n => { metrics with active := n }
  else if key = ascii "accepted" then
    (parseU64 value).map fun n => { metrics with accepted := n }
  else if key = ascii "disconnected" then
    (parseU64 value).map fun n => { metrics with disconnected := n }
  else if key = ascii "devices" then (parseU64 value).map fun n => { metrics with devices := n }
  else if key = ascii "received" then
    (parseU64 value).map fun n => { metrics with received := n }
  else if key = ascii "ack_sent" then
    (parseU64 value).map fun n => { metrics with ackSent := n }
  else if key = ascii "parse_errors" then
    (parseU64 value).map fun n => { metrics with parseErrors := n }
  else if key = ascii "broadcast_errors" then
    (parseU64 value).map fun n => { metrics with broadcastErrors := n }
  else if key = ascii "msg_per_sec" then
    (parseU64 value).map fun n => { metrics with msgPerSec := n }
  else some metrics

end ServerMetrics

open ServerMetrics (kMetricsPrefix)

/-- `format_metrics_line`. -/
def formatMetricsLine (metrics : ServerMetrics) : Bytes :=
  ascii "METRICS uptime_sec=" ++ toStringU64 metrics.uptimeSec ++
  ascii " active=" ++ toStringU64 metrics.active ++
  ascii " accepted=" ++ toStringU64 metrics.accepted ++
  ascii " disconnected=" ++ toStringU64 metrics.disconnected ++
  ascii " devices=" ++ toStringU64 metrics.devices ++
  ascii " received=" ++ toStringU64 metrics.received ++
  ascii " ack_sent=" ++ toStringU64 metrics.ackSent ++
  ascii " parse_errors=" ++ toStringU64 metrics.parseErrors ++
  ascii " broadcast_errors=" ++ toStringU64 metrics.broadcastErrors ++
  ascii " msg_per_sec=" ++ toStringU64 metrics.msgPerSec ++ [newline]

/-- `parse_metrics_line`. -/
def parseMetricsLine (line : Bytes) : Option ServerMetrics :=
  parseFields kMetricsPrefix ServerMetrics.assignField ServerMetrics.default line

/-! ## The shape of a formatted line -/

/-- The ten keys, in the order of the line. -/
def metricsKeys : List Bytes :=
  [ascii "uptime_sec", ascii "active", ascii "accepted", ascii "disconnected", ascii "devices",
    ascii "received", ascii "ack_sent", ascii "parse_errors", ascii "broadcast_errors",
    ascii "msg_per_sec"]

/-- The keys with their values. -/
def metricsFields (m : ServerMetrics) : List (Bytes × UInt64) :=
  metricsKeys.zip [m.uptimeSec, m.active, m.accepted, m.disconnected, m.devices, m.received,
    m.ackSent, m.parseErrors, m.broadcastErrors, m.msgPerSec]

/-- The fields of the line, with their values in decimal. -/
def metricsTexts (m : ServerMetrics) : List (Bytes × Bytes) :=
  (metricsFields m).map fun field => (field.1, toStringU64 field.2)

/-- The text in front of a value is a space, the key and the sign. -/
theorem ascii_metricsKeys :
    ascii "METRICS uptime_sec=" = kMetricsPrefix ++ space :: (ascii "uptime_sec" ++ [equalsSign]) ∧
    ascii " active=" = space :: (ascii "active" ++ [equalsSign]) ∧
    ascii " accepted=" = space :: (ascii "accepted" ++ [equalsSign]) ∧
    ascii " disconnected=" = space :: (ascii "disconnected" ++ [equalsSign]) ∧
    ascii " devices=" = space :: (ascii "devices" ++ [equalsSign]) ∧
    ascii " received=" = space :: (ascii "received" ++ [equalsSign]) ∧
    ascii " ack_sent=" = space :: (ascii "ack_sent" ++ [equalsSign]) ∧
    ascii " parse_errors=" = space :: (ascii "parse_errors" ++ [equalsSign]) ∧
    ascii " broadcast_errors=" = space :: (ascii "broadcast_errors" ++ [equalsSign]) ∧
    ascii " msg_per_sec=" = space :: (ascii "msg_per_sec" ++ [equalsSign]) := by
  decide +kernel

theorem formatMetricsLine_eq_printFields (m : ServerMetrics) :
    formatMetricsLine m = printFields kMetricsPrefix (metricsTexts m) := by
  obtain ⟨h1, h2, h3, h4, h5, h6, h7, h8, h9, h10⟩ := ascii_metricsKeys
  delta formatMetricsLine
  simp only [h1, h2, h3, h4, h5, h6, h7, h8, h9, h10, metricsTexts, metricsFields, metricsKeys,
    List.zip_cons_cons, List.zip_nil_right, List.map_cons, List.map_nil, printFields, fieldToken,
    List.flatMap_cons, List.flatMap_nil, List.append_nil, List.append_assoc, List.cons_append,
    List.nil_append]

/-- A key of the METRICS grammar has no byte that means something else. -/
theorem cleanKey_of_mem_metricsKeys : ∀ key ∈ metricsKeys, CleanKey key := by
  decide +kernel

theorem exists_of_mem_metricsTexts {m : ServerMetrics} {field : Bytes × Bytes}
    (h : field ∈ metricsTexts m) : field.1 ∈ metricsKeys ∧ ∃ n, field.2 = toStringU64 n := by
  obtain ⟨⟨key, n⟩, hpair, rfl⟩ := List.mem_map.mp h
  exact ⟨(List.of_mem_zip hpair).1, n, rfl⟩

theorem cleanField_of_mem_metricsTexts {m : ServerMetrics} :
    ∀ field ∈ metricsTexts m, CleanField field := by
  intro field hfield
  obtain ⟨hkey, n, hvalue⟩ := exists_of_mem_metricsTexts hfield
  exact ⟨cleanKey_of_mem_metricsKeys _ hkey, hvalue ▸ cleanValue_toStringU64 n⟩

/-- Every key of the line is one that the decoder converts. -/
theorem assignField_of_mem_metricsKeys {key : Bytes} (h : key ∈ metricsKeys)
    (metrics : ServerMetrics) {value : Bytes} (hv : parseU64 value = none) :
    ServerMetrics.assignField metrics key value = none := by
  have hnone : ∀ f : UInt64 → ServerMetrics, (parseU64 value).map f = none := by simp [hv]
  rw [ServerMetrics.assignField]
  -- every branch but the last converts
  iterate 10 refine iteInduction (motive := (· = none)) (fun _ => hnone _) fun _ => ?_
  simp_all [metricsKeys]

/-- The line has one newline, at its end. -/
theorem isFrame_formatMetricsLine (m : ServerMetrics) : IsFrame newline (formatMetricsLine m) := by
  rw [formatMetricsLine_eq_printFields]
  exact isFrame_printFields (by decide) cleanField_of_mem_metricsTexts

theorem exists_formatMetricsLine_eq (m : ServerMetrics) :
    ∃ tail, formatMetricsLine m = kMetricsPrefix ++ space :: tail := by
  rw [formatMetricsLine_eq_printFields, printFields, List.append_assoc]
  exact ⟨_, rfl⟩

/-- No key comes twice, so no branch of the decoder shadows another. -/
theorem nodup_reverse_metricsKeys : metricsKeys.reverse.Nodup := by
  decide +kernel

/-- **Encoder and decoder agree** on every snapshot. -/
theorem parseMetricsLine_formatMetricsLine (m : ServerMetrics) :
    parseMetricsLine (formatMetricsLine m) = some m := by
  rw [parseMetricsLine, formatMetricsLine_eq_printFields,
    parseFields_printFields _ _ (by decide) cleanField_of_mem_metricsTexts]
  have hne := nodup_reverse_metricsKeys
  simp only [metricsKeys, List.reverse_cons, List.reverse_nil, List.nil_append, List.cons_append,
    List.nodup_cons, List.mem_cons, List.not_mem_nil, or_false, not_or] at hne
  simp only [metricsTexts, metricsFields, metricsKeys, List.zip_cons_cons, List.zip_nil_right,
    List.map_cons, List.map_nil, List.foldlM_cons,
    List.foldlM_nil, ServerMetrics.assignField, parseU64_toStringU64, Option.map_some, hne,
    if_true, if_false, Option.bind_eq_bind, Option.bind_some, Option.pure_def]

end RemoteDeviceConsole
