import RemoteDeviceConsole.Viewer.DeviceViews
import RemoteDeviceConsole.Viewer.MetricsChart
import RemoteDeviceConsole.Viewer.NetworkWorker

/-!
# The console

The lambdas of the viewer's `main` that the worker's events and the timers run, together: the
statuses go to the table and the map (`DeviceViews`), the snapshots to the labels and the chart
(`Dashboard`).

A line of metrics goes through a `QString` on its way.  The conversions are parameters, as those
of the table are; `LawfulQtLabels` says that they keep a text of 7-bit characters.

The events of the devices and the lines of the metrics do not meet: `views_run` and
`dashboard_run` take a run of the console apart.

## One handler after another

`Console.handle` takes the handlers one after another.  In the source the lambdas of the timers run
in the UI thread.  Those of the worker's signals have no context object and run in the thread of
the worker, in the order of the signals, but at any moment of a flush.  No timer writes what
`metricsReceived` writes; for `statusReceived`, what then can be lost is said in `DeviceViews`.
-/

namespace RemoteDeviceConsole

open Framing Machine ItemModel

/-! ## The labels -/

/-- The other conversions of `QString`: to a byte string, from an unsigned number, and the
arguments of `%1` and `%2`. -/
class QtLabels (Q : Type) where
  toStdString : Q → Bytes
  numberU64 : UInt64 → Q
  arg₂ : Q → Q → Q → Q

/-- What is relied on of the conversions. -/
class LawfulQtLabels (D : outParam Type) (Q : Type) [QtTexts D Q] [QtLabels Q] : Prop where
  toStdString_fromStdString (text : Bytes) : (∀ b ∈ text, b < 128) →
    QtLabels.toStdString (QtTexts.fromStdString text : Q) = text

/-- Texts as bytes. -/
instance bytesLabels : QtLabels Bytes where
  toStdString := id
  numberU64 := toStringU64
  arg₂ text name value := name ++ (text.drop 2).dropLast.dropLast ++ value

instance : LawfulQtLabels ℤ Bytes where
  toStdString_fromStdString _ _ := rfl

/-- The labels above the chart, and the chart. -/
structure Dashboard (Q : Type) where
  activeMetric : Q
  msgRateMetric : Q
  devicesMetric : Q
  receivedMetric : Q
  ackMetric : Q
  errorsMetric : Q
  metricsChart : MetricsChartWidget
  deriving DecidableEq

namespace Dashboard

variable {D Q : Type} [QtTexts D Q] [QtLabels Q]

/-- `metric_number`. -/
def metricNumber (value : UInt64) : Q := QtLabels.numberU64 value

/-- `set_metric_label`: the text that the label gets. -/
def setMetricLabel (name : String) (value : Q) : Q :=
  QtLabels.arg₂ (QtTexts.literal "%1: %2") (QtTexts.literal name) value

/-- The labels when the window is shown. -/
def start : Dashboard Q where
  activeMetric := QtTexts.literal "Active: 0"
  msgRateMetric := QtTexts.literal "Msg/s: 0"
  devicesMetric := QtTexts.literal "Devices: 0"
  receivedMetric := QtTexts.literal "Received: 0"
  ackMetric := QtTexts.literal "ACK: 0"
  errorsMetric := QtTexts.literal "Errors: 0"
  metricsChart := {}

/-- The lambda of `metricsReceived`, for a snapshot. -/
def showMetrics (d : Dashboard Q) (metrics : ServerMetrics) : Dashboard Q where
  activeMetric := setMetricLabel "Active" (metricNumber metrics.active)
  msgRateMetric := setMetricLabel "Msg/s" (metricNumber metrics.msgPerSec)
  devicesMetric := setMetricLabel "Devices" (metricNumber metrics.devices)
  receivedMetric := setMetricLabel "Received" (metricNumber metrics.received)
  ackMetric := setMetricLabel "ACK" (metricNumber metrics.ackSent)
  errorsMetric :=
    setMetricLabel "Errors" (metricNumber (metrics.parseErrors + metrics.broadcastErrors))
  metricsChart := d.metricsChart.appendSample metrics

/-- The snapshot of a line that comes as a `QString`. -/
def snapshotOf (Q : Type) [QtTexts D Q] [QtLabels Q] (line : Bytes) : Option ServerMetrics :=
  parseMetricsLine (QtLabels.toStdString (QtTexts.fromStdString line : Q))

/-- The lambda of `metricsReceived`. -/
def metricsReceived (d : Dashboard Q) (line : Bytes) : Dashboard Q :=
  match snapshotOf Q line with
  | none => d
  | some metrics => d.showMetrics metrics

/-- What the dashboard shows after some snapshots: the numbers of the last one, and the last 60
in the chart. -/
def after (snapshots : List ServerMetrics) : Dashboard Q :=
  { match snapshots.getLast? with
    | none => start
    | some latest => start.showMetrics latest with
    metricsChart := ⟨trim MetricsChartWidget.kMaxSamples snapshots⟩ }

/-- A new snapshot is shown. -/
theorem showMetrics_after (snapshots : List ServerMetrics) (metrics : ServerMetrics) :
    (after snapshots : Dashboard Q).showMetrics metrics = after (snapshots ++ [metrics]) := by
  have hchart : (after snapshots : Dashboard Q).metricsChart.appendSample metrics =
      ⟨trim MetricsChartWidget.kMaxSamples (snapshots ++ [metrics])⟩ :=
    congrArg MetricsChartWidget.mk (push_trim _ _ _)
  rw [showMetrics, hchart, after]
  simp [showMetrics]

/-- **The dashboard shows the snapshots it was sent.**  A line that is no snapshot changes
nothing. -/
theorem foldl_metricsReceived (lines : List Bytes) :
    lines.foldl metricsReceived (start : Dashboard Q) =
      after (lines.filterMap (snapshotOf Q)) := by
  induction lines using List.reverseRecOn with
  | nil => rfl
  | append_singleton lines line ih =>
    rw [List.foldl_append, ih, List.filterMap_append]
    show (after (lines.filterMap (snapshotOf Q)) : Dashboard Q).metricsReceived line = _
    cases hline : snapshotOf Q line with
    | none => simp [metricsReceived, hline]
    | some metrics =>
      rw [metricsReceived, hline]
      simp [showMetrics_after, hline]

end Dashboard

/-! ## Lines of metrics as `QString` -/

/-- A line of metrics is 7-bit. -/
theorem lt_of_mem_formatMetricsLine {metrics : ServerMetrics} {b : UInt8}
    (h : b ∈ formatMetricsLine metrics) : b < 128 := by
  have hkeys : ∀ key ∈ metricsKeys, ∀ b ∈ key, b < 128 := by decide +kernel
  have hword : ∀ b ∈ ServerMetrics.kMetricsPrefix, b < 128 := by decide +kernel
  have hdigit : ∀ b, isDigit b = true → b < 128 := by
    intro b hb
    simp only [isDigit, Bool.and_eq_true, decide_eq_true_eq, UInt8.le_iff_toNat_le] at hb
    have h57 : (57 : UInt8).toNat = 57 := rfl
    have h128 : (128 : UInt8).toNat = 128 := rfl
    rw [UInt8.lt_iff_toNat_lt]
    omega
  rw [formatMetricsLine_eq_printFields, printFields] at h
  simp only [List.mem_append, List.mem_flatMap, List.mem_cons, fieldToken, List.not_mem_nil,
    or_false] at h
  rcases h with (h | ⟨field, hfield, h⟩) | h
  · exact hword b h
  · obtain ⟨hkey, n, hvalue⟩ := exists_of_mem_metricsTexts hfield
    rcases h with rfl | h | rfl | h
    · decide
    · exact hkeys field.1 hkey b h
    · decide
    · rw [hvalue] at h
      exact hdigit b (isDigit_of_mem_toStringU64 h)
  · rw [h]
    decide

/-- **A snapshot survives the conversions.** -/
theorem snapshotOf_formatMetricsLine {D Q : Type} [QtTexts D Q] [QtLabels Q] [LawfulQtLabels D Q]
    (metrics : ServerMetrics) :
    Dashboard.snapshotOf Q (formatMetricsLine metrics) = some metrics := by
  rw [Dashboard.snapshotOf, LawfulQtLabels.toStdString_fromStdString _
    fun b hb => lt_of_mem_formatMetricsLine hb]
  exact parseMetricsLine_formatMetricsLine metrics

/-! ## The events of the console -/

/-- What the window shows. -/
structure Console (D M Q : Type) where
  views : DeviceViews D M
  dashboard : Dashboard Q

/-- The events that change what the window shows: the events of the worker, and the two
timers. -/
inductive ConsoleEvent (D : Type) where
  | emitted (event : Emitted D)
  | flush (order : IterationOrder Bytes) (tableMs mapMs : ℤ)
  | refreshAges (order : IterationOrder Bytes) (currentMs : ℤ)

namespace ConsoleEvent

variable {D : Type}

/-- The event of the worker. -/
def emitted? : ConsoleEvent D → Option (Emitted D)
  | .emitted event => some event
  | _ => none

/-- The event, for the table and the map. -/
def device? : ConsoleEvent D → Option (DeviceEvent D)
  | .emitted (.statusReceived status) => some (.statusReceived status)
  | .emitted (.metricsReceived _) => none
  | .flush order tableMs mapMs => some (.flush order tableMs mapMs)
  | .refreshAges order currentMs => some (.refreshAges order currentMs)

end ConsoleEvent

/-- The line of metrics of an event of the worker. -/
def Emitted.metricsLine? {D : Type} : Emitted D → Option Bytes
  | .metricsReceived line => some line
  | .statusReceived _ => none

/-- The status of an event of the worker. -/
def Emitted.status? {D : Type} : Emitted D → Option (DeviceStatus D)
  | .metricsReceived _ => none
  | .statusReceived status => some status

/-- The events of the worker among those of the console, in their order. -/
def emittedIn {D : Type} (events : List (ConsoleEvent D)) : List (Emitted D) :=
  events.filterMap ConsoleEvent.emitted?

theorem filterMap_append_singleton {α β : Type} (f : α → Option β) (as : List α) (a : α) :
    (as ++ [a]).filterMap f = as.filterMap f ++ (f a).toList := by
  rw [List.filterMap_append]
  cases ha : f a <;> simp [ha]

namespace Console

variable {D M Q : Type} [ItemModel M Q] [QtTexts D Q] [QtLabels Q] [CharconvDouble D]
  [DecidableEq Q]

/-- One event, its handler run to the end before the next one starts. -/
def handle (c : Console D M Q) : ConsoleEvent D → Console D M Q
  | .emitted (.statusReceived status) => { c with views := c.views.handle (.statusReceived status) }
  | .emitted (.metricsReceived line) => { c with dashboard := c.dashboard.metricsReceived line }
  | .flush order tableMs mapMs => { c with views := c.views.handle (.flush order tableMs mapMs) }
  | .refreshAges order currentMs =>
      { c with views := c.views.handle (.refreshAges order currentMs) }

/-- The window when it is shown. -/
def start : Console D M Q where
  views := .start
  dashboard := .start

def run (events : List (ConsoleEvent D)) : Console D M Q := events.foldl handle start

theorem run_append_singleton (events : List (ConsoleEvent D)) (event : ConsoleEvent D) :
    (run (events ++ [event]) : Console D M Q) = (run events).handle event := by
  rw [run, List.foldl_append]
  rfl

/-- An event is one of the table and the map, or it leaves them. -/
theorem views_handle (c : Console D M Q) (event : ConsoleEvent D) :
    (c.handle event).views = event.device?.toList.foldl DeviceViews.handle c.views := by
  cases event with
  | emitted event => cases event <;> rfl
  | flush order tableMs mapMs => rfl
  | refreshAges order currentMs => rfl

/-- **The table and the map**, by themselves. -/
theorem views_run (events : List (ConsoleEvent D)) :
    (run events : Console D M Q).views =
      DeviceViews.run (events.filterMap ConsoleEvent.device?) := by
  induction events using List.reverseRecOn with
  | nil => rfl
  | append_singleton events event ih =>
    rw [run_append_singleton, views_handle, ih, filterMap_append_singleton, DeviceViews.run,
      DeviceViews.run, List.foldl_append]

/-- An event is a line of metrics, or it leaves the dashboard. -/
theorem dashboard_handle (c : Console D M Q) (event : ConsoleEvent D) :
    (c.handle event).dashboard =
      (event.emitted?.bind Emitted.metricsLine?).toList.foldl Dashboard.metricsReceived
        c.dashboard := by
  cases event with
  | emitted event => cases event <;> rfl
  | flush order tableMs mapMs => rfl
  | refreshAges order currentMs => rfl

/-- **The dashboard**, by itself. -/
theorem dashboard_run (events : List (ConsoleEvent D)) :
    (run events : Console D M Q).dashboard =
      .after (((emittedIn events).filterMap Emitted.metricsLine?).filterMap
        (Dashboard.snapshotOf Q)) := by
  rw [← Dashboard.foldl_metricsReceived, emittedIn, List.filterMap_filterMap]
  induction events using List.reverseRecOn with
  | nil => rfl
  | append_singleton events event ih =>
    rw [run_append_singleton, dashboard_handle, ih, filterMap_append_singleton, List.foldl_append]

omit [CharconvDouble D] in
/-- The statuses that come to the table and the map are those of the worker. -/
theorem received_filterMap_device? (events : List (ConsoleEvent D)) :
    DeviceViews.received (events.filterMap ConsoleEvent.device?) =
      (emittedIn events).filterMap Emitted.status? := by
  rw [DeviceViews.received, emittedIn, List.filterMap_filterMap, List.filterMap_filterMap]
  congr 1
  funext event
  cases event with
  | emitted event => cases event <;> rfl
  | flush order tableMs mapMs => rfl
  | refreshAges order currentMs => rfl

end Console

end RemoteDeviceConsole
