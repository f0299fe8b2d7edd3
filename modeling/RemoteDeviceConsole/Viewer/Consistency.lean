import RemoteDeviceConsole.Server.Conservation
import RemoteDeviceConsole.Viewer.Console
import RemoteDeviceConsole.Viewer.Delivery

/-!
# The viewer and the server

What the window shows, when the sends to the connections of the viewer were complete, in terms of
what the server did.

* `dashboard_agree`: the labels and the chart show the snapshots that the server reported to the
  viewer since its HELLO, exactly those whose lines have arrived in full.
* `views_agree`: after a flush the table and the map have no device that the server does not
  know, and show the entry of the server's store for every device whose last status came to the
  viewer.  For a device that the viewer itself reported, or that was silent since its HELLO, they
  need not.

## Two histories of one device

The window and the store are both the last write of each device, but of different histories: the
store has seen every accepted line since the server started, the window what its connections have
brought since each HELLO.  They agree on a device exactly as far as the ends of the two histories
do.  `LastSeenBy` is the condition on the history of the open connection that makes them agree: the
last accepted status of the device in it was handed to the viewer.  `LastSeenBy.lastOf` says so for
any earlier history in front, which is why nothing has to be known of the connections that are
closed, or of what happened while there was none.

The handlers of the window run one after another here; in the source a status may come in while a
flush runs (see `DeviceViews`).
-/

namespace RemoteDeviceConsole

open Framing Machine Relation

variable {D : Type} [CharconvDouble D]

/-! ## What a session has for a viewer -/

/-- The snapshots that an entry reports to a viewer. -/
def Obs.reported : Obs → List ServerMetrics
  | .report record => [record.metrics]
  | _ => []

/-- The snapshots that were reported in a session, from the line on that asks for the viewer
role. -/
def reportedTo (fd : Fd) (viewer : Bool) : List Obs → List ServerMetrics
  | [] => []
  | x :: obs => (if viewer then x.reported else []) ++ reportedTo fd (viewer || x.asks fd) obs

/-- The snapshots of some events. -/
def snapshotsIn (Q : Type) [QtTexts D Q] [QtLabels Q] (events : List (Emitted D)) :
    List ServerMetrics :=
  (events.filterMap Emitted.metricsLine?).filterMap (Dashboard.snapshotOf Q)

/-- The statuses of some events. -/
def statusesIn (events : List (Emitted D)) : List (DeviceStatus D) :=
  events.filterMap Emitted.status?

theorem sessionEvents_append (fd : Fd) (viewer : Bool) (a b : List Obs) :
    (sessionEvents fd viewer (a ++ b) : List (Emitted D)) =
      sessionEvents fd viewer a ++ sessionEvents fd (viewer || a.any (Obs.asks fd)) b := by
  induction a generalizing viewer with
  | nil => simp [sessionEvents]
  | cons x a ih => simp [sessionEvents, ih, Bool.or_assoc]

section Snapshots

variable {Q : Type} [QtTexts D Q] [QtLabels Q]

omit [CharconvDouble D] in
theorem snapshotsIn_append (a b : List (Emitted D)) :
    snapshotsIn Q (a ++ b) = snapshotsIn Q a ++ snapshotsIn Q b := by
  rw [snapshotsIn, List.filterMap_append, List.filterMap_append]
  rfl

omit [CharconvDouble D] in
theorem snapshotsIn_flatMap {α : Type} (as : List α) (f : α → List (Emitted D)) :
    snapshotsIn Q (as.flatMap f) = (as.map fun a => snapshotsIn Q (f a)).flatten := by
  induction as with
  | nil => rfl
  | cons a as ih => rw [List.flatMap_cons, snapshotsIn_append, ih, List.map_cons, List.flatten_cons]

/-- The snapshots of a session are those that were reported. -/
theorem snapshotsIn_sessionEvents [LawfulQtLabels D Q] (fd : Fd) (viewer : Bool)
    (obs : List Obs) :
    snapshotsIn Q (sessionEvents fd viewer obs : List (Emitted D)) = reportedTo fd viewer obs := by
  induction obs generalizing viewer with
  | nil => rfl
  | cons x obs ih =>
    rw [sessionEvents, snapshotsIn_append, ih, reportedTo]
    congr 1
    cases x with
    | line record =>
      rw [expectedEvents]
      split
      · split <;> simp [snapshotsIn, Emitted.metricsLine?, Obs.reported]
      · simp [snapshotsIn, Obs.reported]
    | report record =>
      cases viewer with
      | false => rfl
      | true =>
        simp [snapshotsIn, expectedEvents, Obs.reported, Emitted.metricsLine?,
          snapshotOf_formatMetricsLine]
    | accepted fd' => cases viewer <;> rfl
    | received fd' data => cases viewer <;> rfl
    | disconnected fd' => cases viewer <;> rfl
    | unknown fd' => cases viewer <;> rfl

/-! ## The dashboard -/

variable {M : Type} [ItemModel M Q] [DecidableEq Q] [LawfulQtLabels D Q]

/-- The bytes of these first entries have all arrived, and no complete line of the others has. -/
def ViewerConnection.Arrived (c : ViewerConnection) (done : List Obs) : Prop :=
  ∃ rest tail, c.obs = done ++ rest ∧ c.chunks.flatten = bytesTo c.fd done ++ tail ∧
    tail <+: bytesTo c.fd rest ∧ newline ∉ tail

/-- What a connection has brought to the dashboard: the snapshots that were reported to it, in
order from its HELLO on, and of them exactly those whose METRICS lines have arrived in full; all
of them when all its bytes have. -/
structure BringsReports (c : ViewerConnection) (snapshots : List ServerMetrics) : Prop where
  upTo : ∃ done, c.Arrived done ∧ snapshots = reportedTo c.fd false done
  all : c.chunks.flatten = bytesTo c.fd c.obs → snapshots = reportedTo c.fd false c.obs

omit [DecidableEq Q] in
theorem Agrees.bringsReports {c : ViewerConnection}
    {events : List (Emitted D)} (h : Agrees c events) : BringsReports c (snapshotsIn Q events) := by
  obtain ⟨done, rest, tail, hobs, hdone, htail, hpartial, hevents⟩ := h.upTo
  constructor
  · exact ⟨done, ⟨rest, tail, hobs, hdone, htail, hpartial⟩, by
      rw [hevents, snapshotsIn_sessionEvents]⟩
  · intro hall
    rw [h.all hall, snapshotsIn_sessionEvents]

/-- **The dashboard agrees with the server.**  When every `send` to the connections of a viewer
took its whole line, the labels show the last of the snapshots that the server reported to these
connections since their HELLO and that have arrived, and the chart shows the last 60 of them. -/
theorem dashboard_agree {nowMs : UInt64} {mqttBridge : MqttBridge} {steps : List LoopStep}
    {s : Server D} (h : ServerRun nowMs mqttBridge steps s) {closed : List ViewerConnection}
    {last : ViewerConnection} (hconns : ∀ c ∈ closed ++ [last], c.DeliveredIn s.trace)
    (hwhole : ∀ c ∈ closed ++ [last], ∀ sent ∈ sendsTo c.fd c.obs, sent.Whole)
    {events : List (ConsoleEvent D)} (hevents : emittedIn events = viewerEvents D closed last) :
    ∃ pieces : List (List ServerMetrics),
      (Console.run events : Console D M Q).dashboard = .after pieces.flatten ∧
      List.Forall₂ BringsReports (closed ++ [last]) pieces := by
  refine ⟨(closed ++ [last]).map fun c =>
    snapshotsIn Q (NetworkWorker.connectionEvents c.chunks : List (Emitted D)), ?_, ?_⟩
  · rw [Console.dashboard_run, hevents, viewerEvents_eq, ← snapshotsIn_flatMap]
    rfl
  · rw [List.forall₂_map_right_iff, List.forall₂_same]
    intro c hc
    exact (agrees_connectionEvents h.reachable (hconns c hc) (hwhole c hc)).bringsReports

end Snapshots

omit [CharconvDouble D] in
/-- The console handles the events of the worker one after another. -/
theorem emittedIn_map_emitted (emitted : List (Emitted D)) :
    emittedIn (emitted.map .emitted) = emitted := by
  rw [emittedIn, List.filterMap_map]
  exact List.filterMap_some

/-- A viewer with one connection, whose bytes have all arrived. -/
theorem deliveredIn_of_session {fd : Fd} {trace obs : List Obs}
    (h : session fd trace = some obs) :
    ∀ c ∈ ([] : List ViewerConnection) ++ [⟨fd, obs, [bytesTo fd obs]⟩], c.DeliveredIn trace := by
  intro c hc
  rw [List.nil_append, List.mem_singleton] at hc
  rw [hc]
  exact ⟨⟨trace, List.prefix_rfl, h⟩, by simp⟩

/-- Three reports are sent to a viewer and the line of the last one has not arrived in full: the
dashboard shows the others. -/
theorem dashboard_agree_two :
    ∃ (steps : List LoopStep) (s : Server ℤ) (c : ViewerConnection) (done : List Obs),
      ServerRun 0 ⟨false⟩ steps s ∧ c.DeliveredIn s.trace ∧
      (reportedTo c.fd false c.obs).length = 3 ∧ (c.chunks.flatten).count newline = 2 ∧
      c.Arrived done ∧
      (Console.run ((viewerEvents ℤ [] c).map .emitted) :
        Console ℤ (GridModel Bytes) Bytes).dashboard = .after (reportedTo c.fd false done) := by
  obtain ⟨s, hrun, hs⟩ := exists_serverRun
    (P := fun s : Server ℤ => (session 5 s.trace).any fun obs =>
      (∀ sent ∈ sendsTo 5 obs, sent.Whole) ∧ (reportedTo 5 false obs).length = 3 ∧
        ((bytesTo 5 obs).dropLast.count newline = 2)) 0 ⟨false⟩
    [ .event (.listening [⟨5, none, none⟩] .EAGAIN), .report (.roomy 1000),
      .event (.client 5 [ascii "HELLO role=viewer\n"] (.failed .EAGAIN) fun _ => .roomy 1),
      .report (.roomy 2000), .report (.roomy 3000), .report (.roomy 4000)]
    (by decide +kernel)
  obtain ⟨obs, hsession, hobs⟩ := (Option.any_eq_true _ _).mp hs
  obtain ⟨hwhole, hlength, hcount⟩ := of_decide_eq_true hobs
  let c : ViewerConnection := ⟨5, obs, [(bytesTo 5 obs).dropLast]⟩
  have hdelivered : c.DeliveredIn s.trace :=
    ⟨⟨s.trace, List.prefix_rfl, hsession⟩, by simpa [c] using List.dropLast_prefix _⟩
  have hconns : ∀ c' ∈ ([] : List ViewerConnection) ++ [c], c'.DeliveredIn s.trace := by
    simpa using hdelivered
  obtain ⟨pieces, hdashboard, hpieces⟩ := dashboard_agree (M := GridModel Bytes) hrun hconns
    (by simpa using hwhole) (emittedIn_map_emitted _)
  obtain ⟨piece, others, hpiece, hnil, rfl⟩ := List.forall₂_cons_left_iff.mp hpieces
  obtain rfl := List.forall₂_nil_left_iff.mp hnil
  obtain ⟨done, hdone, rfl⟩ := hpiece.upTo
  rw [List.flatten_singleton] at hdashboard
  exact ⟨_, s, c, done, hrun, hdelivered, hlength, by simpa [c] using hcount, hdone, hdashboard⟩

/-! ## The devices -/

/-- The last status of the device in the connection came to the viewer from another client. -/
def LastSeenBy (D : Type) [CharconvDouble D] (c : ViewerConnection) (id : Bytes) : Prop :=
  ∃ done record rest, ∃ status : DeviceStatus D, c.obs = done ++ .line record :: rest ∧
    IsViewer c.fd done ∧ record.fd ≠ c.fd ∧ parseStatusLine record.line = some status ∧
    status.deviceId = id ∧ ∀ later ∈ acceptedStatuses D rest, later.deviceId ≠ id

/-- The accepted statuses of a trace are those of its parts. -/
theorem acceptedStatuses_append_list (a b : List Obs) :
    acceptedStatuses D (a ++ b) = acceptedStatuses D a ++ acceptedStatuses D b := by
  rw [acceptedStatuses, handledLines, List.flatMap_append, List.filterMap_append]
  rfl

theorem acceptedStatuses_line {record : LineRecord} {status : DeviceStatus D}
    (hparse : parseStatusLine record.line = some status) (rest : List Obs) :
    acceptedStatuses D (.line record :: rest) = status :: acceptedStatuses D rest := by
  rw [← List.singleton_append, acceptedStatuses_append_list]
  simp [acceptedStatuses, handledLines, Obs.handled, hparse]

/-- The statuses that a session has for a viewer were accepted in it. -/
theorem statusesIn_sessionEvents_sublist (fd : Fd) (viewer : Bool) (obs : List Obs) :
    (statusesIn (sessionEvents fd viewer obs : List (Emitted D))).Sublist
      (acceptedStatuses D obs) := by
  induction obs generalizing viewer with
  | nil => exact List.Sublist.slnil
  | cons x obs ih =>
    rw [sessionEvents, statusesIn, List.filterMap_append, ← List.singleton_append,
      acceptedStatuses_append_list]
    refine List.Sublist.append ?_ (ih _)
    cases x with
    | line record =>
      rw [expectedEvents]
      split
      · split
        · next status hparse =>
          rw [acceptedStatuses_line hparse]
          exact List.Sublist.refl [status]
        · exact List.nil_sublist _
      · exact List.nil_sublist _
    | report record => cases viewer <;> exact List.nil_sublist _
    | accepted fd' => exact List.nil_sublist _
    | received fd' data => exact List.nil_sublist _
    | disconnected fd' => exact List.nil_sublist _
    | unknown fd' => exact List.nil_sublist _

/-- The last status that a session has for a viewer. -/
theorem LastSeenBy.lastOf {c : ViewerConnection} {id : Bytes} (h : LastSeenBy D c id) :
    ∃ status, ∀ earlier,
      lastOf DeviceStatus.deviceId id (earlier ++ acceptedStatuses D c.obs) = some status ∧
      lastOf DeviceStatus.deviceId id
        (earlier ++ statusesIn (sessionEvents c.fd false c.obs)) = some status := by
  obtain ⟨done, record, rest, status, hobs, hviewer, hfd, hparse, rfl, hlater⟩ := h
  refine ⟨status, fun earlier => ⟨?_, ?_⟩⟩
  · rw [hobs, acceptedStatuses_append_list, acceptedStatuses_line hparse, ← List.append_assoc]
    exact lastOf_append_cons hlater
  · have hasks : done.any (Obs.asks c.fd) = true := isViewer_iff_any.mp hviewer
    have hevent : (expectedEvents c.fd true (.line record) : List (Emitted D)) =
        [.statusReceived status] := by
      simp [expectedEvents, hfd, hparse]
    rw [hobs, sessionEvents_append, hasks, Bool.false_or, sessionEvents, hevent, statusesIn,
      List.filterMap_append, List.filterMap_append, ← List.append_assoc]
    refine lastOf_append_cons fun later hmem => hlater later ?_
    exact (statusesIn_sessionEvents_sublist c.fd _ rest).subset hmem

/-- A status that a viewer was sent whole was accepted by the server. -/
theorem mem_acceptedStatuses_of_viewerEvents {s : Server D} (h : Reachable s)
    {closed : List ViewerConnection} {last : ViewerConnection}
    (hconns : ∀ c ∈ closed ++ [last], c.DeliveredIn s.trace)
    (hwhole : ∀ c ∈ closed ++ [last], ∀ sent ∈ sendsTo c.fd c.obs, sent.Whole)
    {status : DeviceStatus D} (hstatus : status ∈ statusesIn (viewerEvents D closed last)) :
    status ∈ acceptedStatuses D s.trace := by
  rw [viewerEvents_eq, statusesIn, List.mem_filterMap] at hstatus
  obtain ⟨event, hevent, hkind⟩ := hstatus
  obtain ⟨c, hc, hmem⟩ := List.mem_flatMap.mp hevent
  obtain ⟨done, rest, -, hobs, -, -, -, hdone⟩ :=
    (agrees_connectionEvents h (hconns c hc) (hwhole c hc)).upTo
  obtain ⟨pre, hpre, hsession⟩ := (hconns c hc).1
  have haccepted : status ∈ acceptedStatuses D done := by
    refine (statusesIn_sessionEvents_sublist c.fd false done).subset ?_
    rw [← hdone]
    exact List.mem_filterMap.mpr ⟨event, hmem, hkind⟩
  -- the entries of the connection are entries of the trace
  obtain ⟨line, hline, hparse⟩ := List.mem_filterMap.mp haccepted
  obtain ⟨x, hx, hhandled⟩ := List.mem_flatMap.mp hline
  have hxtrace : x ∈ s.trace := hpre.subset
    (mem_of_mem_session hsession (hobs ▸ List.mem_append_left rest hx))
  exact List.mem_filterMap.mpr ⟨line, List.mem_flatMap.mpr ⟨x, hxtrace, hhandled⟩, hparse⟩

/-- The statuses of the trace end with those of an open session. -/
theorem exists_acceptedStatuses_eq {fd : Fd} {trace obs : List Obs}
    (h : session fd trace = some obs) :
    ∃ earlier, acceptedStatuses D trace = earlier ++ acceptedStatuses D obs := by
  obtain ⟨pre, x, rfl, hopens, -⟩ := current_eq_some_iff.mp h
  refine ⟨acceptedStatuses D (pre ++ [x]), ?_⟩
  rw [← acceptedStatuses_append_list, List.append_assoc, List.singleton_append]

/-- What a connection has brought of a device that it has seen last, when all bytes have arrived,
is the entry of the store. -/
theorem LastSeenBy.agrees {s : Server D} (h : Reachable s) {last : ViewerConnection} {id : Bytes}
    (hid : LastSeenBy D last id) (hcurrent : session last.fd s.trace = some last.obs)
    (hwhole : ∀ sent ∈ sendsTo last.fd last.obs, sent.Whole)
    (hall : last.chunks.flatten = bytesTo last.fd last.obs) (closed : List ViewerConnection) :
    ∃ status, s.statusStore.find id = some status ∧
      Machine.lastOf DeviceStatus.deviceId id (statusesIn (viewerEvents D closed last)) =
        some status := by
  obtain ⟨status, hlast⟩ := hid.lastOf
  obtain ⟨earlier, htrace⟩ := exists_acceptedStatuses_eq (D := D) hcurrent
  have hdelivered : last.DeliveredIn s.trace :=
    ⟨⟨s.trace, List.prefix_rfl, hcurrent⟩, hall ▸ List.prefix_rfl⟩
  refine ⟨status, ?_, ?_⟩
  · rw [h.find_eq_lastOf, htrace]
    exact (hlast earlier).1
  · rw [viewerEvents_eq, List.flatMap_append, List.flatMap_singleton,
      (agrees_connectionEvents h hdelivered hwhole).all hall, statusesIn, List.filterMap_append]
    exact (hlast _).2

section Devices

variable {M Q : Type} [ItemModel M Q] [LawfulItemModel M Q] [QtTexts D Q] [QtLabels Q]
  [DecidableEq Q]

/-- After a flush the table and the map are kept, and have the last status of each device. -/
theorem Console.views_flush (events : List (ConsoleEvent D)) (order : IterationOrder Bytes)
    (tableMs mapMs : ℤ) :
    let v := (Console.run (events ++ [.flush order tableMs mapMs]) : Console D M Q).views
    v.Kept ∧ ∀ id, shownIn v.tableDevices id =
      lastOf DeviceStatus.deviceId id (statusesIn (emittedIn events)) := by
  intro v
  have hrun : v = DeviceViews.run
      (events.filterMap ConsoleEvent.device? ++ [.flush order tableMs mapMs]) := by
    show (Console.run (events ++ [.flush order tableMs mapMs]) : Console D M Q).views = _
    rw [Console.views_run, filterMap_append_singleton]
    rfl
  refine ⟨hrun ▸ (DeviceViews.kept_run _).1, fun id => ?_⟩
  rw [hrun, DeviceViews.shownIn_flush, Console.received_filterMap_device?]
  rfl

omit [CharconvDouble D] [LawfulItemModel M Q] [QtLabels Q] [DecidableEq Q] in
/-- What is shown of a device is in the table, in its row, and on the map. -/
theorem DeviceViews.Kept.exists_shown {v : DeviceViews D M} (h : v.Kept) {id : Bytes}
    {status : DeviceStatus D} (hshown : shownIn v.tableDevices id = some status) :
    ∃ info snapshot, v.tableDevices.lookup id = some info ∧ info.status = status ∧
      v.devicesById.lookup id = some snapshot ∧ snapshot.status = status ∧
      ShowsStatus v.model info.row status := by
  obtain ⟨snapshot, hsnapshot, hstatus'⟩ :=
    Option.map_eq_some_iff.mp ((congrFun h.map id).trans hshown)
  obtain ⟨info, hinfo, hstatus⟩ := Option.map_eq_some_iff.mp hshown
  exact ⟨info, snapshot, hinfo, hstatus, hsnapshot, hstatus', hstatus ▸ h.table.shows id info hinfo⟩

/-- **The devices agree with the server's store.**  When every `send` to the connections of a
viewer took its whole line, then after a flush the table and the map have no device that the
server does not know.  When all bytes of the open connection have arrived, they show, for every
device whose last status came to the viewer over it, the entry of the store: the map has its
status, and the row of the table has its id, battery and coordinates. -/
theorem views_agree {nowMs : UInt64} {mqttBridge : MqttBridge} {steps : List LoopStep}
    {s : Server D} (h : ServerRun nowMs mqttBridge steps s) {closed : List ViewerConnection}
    {last : ViewerConnection} (hconns : ∀ c ∈ closed ++ [last], c.DeliveredIn s.trace)
    (hwhole : ∀ c ∈ closed ++ [last], ∀ sent ∈ sendsTo c.fd c.obs, sent.Whole)
    (hcurrent : session last.fd s.trace = some last.obs)
    (hall : last.chunks.flatten = bytesTo last.fd last.obs) {events : List (ConsoleEvent D)}
    (hevents : emittedIn events = viewerEvents D closed last) (order : IterationOrder Bytes)
    (tableMs mapMs : ℤ) :
    let v := (Console.run (events ++ [.flush order tableMs mapMs]) : Console D M Q).views
    (∀ id, id ∈ v.tableDevices ∨ id ∈ v.devicesById → ∃ status,
      s.statusStore.find id = some status) ∧
    ∀ id, LastSeenBy D last id → ∃ status info snapshot,
      s.statusStore.find id = some status ∧
      v.tableDevices.lookup id = some info ∧ info.status = status ∧
      v.devicesById.lookup id = some snapshot ∧ snapshot.status = status ∧
      ShowsStatus v.model info.row status := by
  intro v
  obtain ⟨hkept, hshown⟩ : v.Kept ∧ ∀ id, shownIn v.tableDevices id = _ :=
    Console.views_flush events order tableMs mapMs
  rw [hevents] at hshown
  constructor
  · intro id hid
    have hsome : (shownIn v.tableDevices id).isSome := by
      rcases hid with hid | hid
      · rwa [shownIn, Option.isSome_map, Finmap.lookup_isSome]
      · rwa [← congrFun hkept.map id, Option.isSome_map, Finmap.lookup_isSome]
    rw [hshown] at hsome
    obtain ⟨status, hstatus, rfl⟩ := List.mem_map.mp (isSome_lastOf.mp hsome)
    have haccepted := mem_acceptedStatuses_of_viewerEvents h.reachable hconns hwhole hstatus
    rw [h.reachable.find_eq_lastOf]
    exact Option.isSome_iff_exists.mp
      (isSome_lastOf.mpr (List.mem_map.mpr ⟨status, haccepted, rfl⟩))
  · intro id hid
    obtain ⟨status, hstore, hviewer⟩ :=
      hid.agrees h.reachable hcurrent (hwhole last (by simp)) hall closed
    obtain ⟨info, snapshot, hdevice⟩ := hkept.exists_shown ((hshown id).trans hviewer)
    exact ⟨status, info, snapshot, hstore, hdevice⟩

end Devices

/-- The last report of a device comes to the viewer, whose table then has what the server has. -/
theorem views_agree_one :
    ∃ (steps : List LoopStep) (s : Server ℤ) (events : List (ConsoleEvent ℤ))
      (order : IterationOrder Bytes) (info : TableDeviceInfo ℤ),
      ServerRun 0 ⟨false⟩ steps s ∧ s.statusStore.find (ascii "a") = some info.status ∧
      (Console.run (events ++ [.flush order 0 0]) :
        Console ℤ (GridModel Bytes) Bytes).views.tableDevices.lookup (ascii "a") = some info := by
  let order : IterationOrder Bytes := ⟨Finset.toList, Finset.coe_toList⟩
  obtain ⟨s, hrun, hs⟩ := exists_serverRun
    (P := fun s : Server ℤ => (session 5 s.trace).any fun obs =>
      decide (∀ sent ∈ sendsTo 5 obs, sent.Whole) && decide (IsViewer 5 (obs.take 5)) &&
        obs[5]?.any fun x => decide (Obs.lineOf 5 x = [] ∧
          (acceptedStatuses ℤ [x]).map DeviceStatus.deviceId = [ascii "a"] ∧
          acceptedStatuses ℤ (obs.drop 6) = [])) 0 ⟨false⟩
    [ .event (.listening [⟨5, none, none⟩, ⟨6, none, none⟩] .EAGAIN),
      .event (.client 5 [ascii "HELLO role=viewer\n"] (.failed .EAGAIN) fun _ => .roomy 1),
      .event (.client 6 [ascii "STATUS device_id=a state=OK\nSTATUS device_id=a state=LOW\n"]
        (.failed .EAGAIN) fun _ => .roomy 2)]
    (by decide +kernel)
  obtain ⟨obs, hsession, hobs⟩ := (Option.any_eq_true _ _).mp hs
  rw [Bool.and_eq_true, Bool.and_eq_true] at hobs
  obtain ⟨⟨hwhole, hviewer⟩, hlast⟩ := hobs
  have hseen : LastSeenBy ℤ ⟨5, obs, [bytesTo 5 obs]⟩ (ascii "a") := by
    obtain ⟨x, hx, hdecided⟩ := (Option.any_eq_true _ _).mp hlast
    obtain ⟨hother, hid, hrest⟩ := of_decide_eq_true hdecided
    obtain ⟨hlength, hentry⟩ := List.getElem?_eq_some_iff.mp hx
    have hobs : obs = obs.take 5 ++ x :: obs.drop 6 := by
      rw [← hentry, ← List.drop_eq_getElem_cons hlength, List.take_append_drop]
    cases x with
    | line record =>
      have hfd : record.fd ≠ 5 := fun hfd => by simp [Obs.lineOf, hfd] at hother
      cases hparse : (parseStatusLine record.line : Option (DeviceStatus ℤ)) with
      | none => simp [acceptedStatuses, handledLines, Obs.handled, hparse] at hid
      | some status =>
        rw [acceptedStatuses_line hparse] at hid
        exact ⟨obs.take 5, record, obs.drop 6, status, hobs, of_decide_eq_true hviewer, hfd, hparse,
          (List.cons.inj hid).1, fun later hlater => absurd hlater (by simp [hrest])⟩
    | _ => exact absurd hid (by simp [acceptedStatuses, handledLines, Obs.handled])
  obtain ⟨-, hagree⟩ := views_agree (M := GridModel Bytes) hrun (deliveredIn_of_session hsession)
    (by simpa using of_decide_eq_true hwhole) hsession (by simp) (emittedIn_map_emitted _) order 0 0
  obtain ⟨status, info, -, hstore, hinfo, rfl, -⟩ := hagree _ hseen
  exact ⟨_, s, _, order, info, hrun, hstore, hinfo⟩

end RemoteDeviceConsole
