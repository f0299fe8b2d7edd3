import RemoteDeviceConsole.Machine.LastWrite
import RemoteDeviceConsole.Server.Connections

/-!
# The laws of the counters

`Conserves s` collects what ties the counters and the store to the trace and to
the tables.  `counted_of_move` preserves the part that moves are about
(`Counted`), the tables come from the sessions, and `LoopRun.conservation` states
the laws for the program: in every state in which `print_metrics_if_due` is
called, with the snapshots that were emitted until then.

The two parts have to be kept apart.  `Counted` counts lines and is an invariant by
itself.  That the key set of the buffers is the set of telemetry clients is not: it
holds because all three tables follow the sessions (`AllLinked`), and
`total_accepted` can be compared with the table only by way of the descriptors that
are open.

A snapshot is what the counters are at the time of the report, so its sums are the
laws of the state in which it was taken (`ReportRecord.TakenIn`), and since totals
only grow a bound on the last ones is a bound on all.

`EpollContract` is what rules the branch for unknown descriptors out.  It speaks of
one batch of events and of the state before it, but an event of the batch may close
a descriptor; as no descriptor comes twice, those of the other events stay open
(`unknown_batch`).
-/

namespace RemoteDeviceConsole

open Framing Machine Relation

/-! ## Reading the trace -/

/-- The statuses that were accepted, in order. -/
def acceptedStatuses (D : Type) [CharconvDouble D] (trace : List Obs) : List (DeviceStatus D) :=
  (handledLines trace).filterMap parseStatusLine

def isHello (line : Bytes) : Bool := startsWith line (ascii "HELLO ")

variable {D : Type} [CharconvDouble D]

/-! ## Counters and store -/

/-- What counters and store say about the trace. -/
structure Counted (s : Server D) : Prop where
  accepted : s.counters.totalAccepted = s.counters.totalDisconnected + s.openFds.card
  lines : (handledLines s.trace).length =
    s.counters.statusReceived + s.counters.parseErrors + (handledLines s.trace).countP isHello
  received : s.counters.statusReceived = (acceptedStatuses D s.trace).length
  acks : s.counters.ackSent ≤ (acceptedStatuses D s.trace).countP DeviceStatus.ackRequested
  keys : s.statusStore.statusesById.keys =
    ((acceptedStatuses D s.trace).map DeviceStatus.deviceId).toFinset
  find : ∀ deviceId, s.statusStore.find deviceId =
    ((acceptedStatuses D s.trace).filter fun status => status.deviceId = deviceId).getLast?

theorem counted_start (nowMs : UInt64) (mqttBridge : MqttBridge) :
    Counted (Server.start nowMs mqttBridge : Server D) :=
  ⟨rfl, rfl, rfl, le_rfl, rfl, fun _ => rfl⟩

/-- An entry without an accepted line leaves most of the laws as they are. -/
theorem Counted.of_statuses {s t : Server D} (h : Counted s)
    (hstatuses : acceptedStatuses D t.trace = acceptedStatuses D s.trace)
    (hstore : t.statusStore = s.statusStore)
    (hreceived : t.counters.statusReceived = s.counters.statusReceived)
    (hack : t.counters.ackSent = s.counters.ackSent)
    (haccepted : t.counters.totalAccepted = t.counters.totalDisconnected + t.openFds.card)
    (hlines : (handledLines t.trace).length =
      s.counters.statusReceived + t.counters.parseErrors + (handledLines t.trace).countP isHello) :
    Counted t where
  accepted := haccepted
  lines := by rw [hreceived, hlines]
  received := by rw [hreceived, hstatuses, h.received]
  acks := by rw [hack, hstatuses]; exact h.acks
  keys := by rw [hstore, hstatuses, h.keys]
  find := by rw [hstore, hstatuses]; exact h.find

/-- An entry that handles no line leaves the laws about lines as they are. -/
theorem Counted.of_handledLines {s t : Server D} (h : Counted s)
    (hlines : handledLines t.trace = handledLines s.trace) (hstore : t.statusStore = s.statusStore)
    (hreceived : t.counters.statusReceived = s.counters.statusReceived)
    (hparse : t.counters.parseErrors = s.counters.parseErrors)
    (hack : t.counters.ackSent = s.counters.ackSent)
    (haccepted : t.counters.totalAccepted = t.counters.totalDisconnected + t.openFds.card) :
    Counted t :=
  h.of_statuses (by rw [acceptedStatuses, hlines, acceptedStatuses]) hstore hreceived hack haccepted
    (by rw [hlines, hparse]; exact h.lines)

omit [CharconvDouble D] in
theorem handledLines_append (trace : List Obs) (record : LineRecord) :
    handledLines (trace ++ [.line record]) = handledLines trace ++ [record.line] := by
  simp [handledLines, Obs.handled]

/-- Only accepted lines add a status. -/
theorem acceptedStatuses_append {line : Bytes}
    (h : ∀ status, (lineKind line : LineKind D) ≠ .accepted status) (trace : List Obs)
    {record : LineRecord} (hrecord : record.line = line) :
    acceptedStatuses D (trace ++ [.line record]) = acceptedStatuses D trace := by
  have hnone := parseStatusLine_eq_none_of_lineKind h
  simp [acceptedStatuses, handledLines_append, hrecord, hnone]

theorem isHello_eq_false {line : Bytes}
    (h : ∀ viewer, (lineKind line : LineKind D) ≠ .hello viewer) : isHello line = false := by
  by_contra hyes
  rw [Bool.not_eq_false] at hyes
  exact h _ (lineKind_eq_hello.mpr ⟨hyes, rfl⟩)

theorem counted_handleLine {s : Server D} (h : Counted s) (fd : Fd) (env : LineEnv)
    (line rest : Bytes) : Counted (handleLine fd env line (s.setBuffer fd rest)) := by
  have hline := h.lines
  cases hkind : (lineKind line : LineKind D) with
  | hello viewer =>
    have hhello : isHello line = true := (lineKind_eq_hello.mp hkind).1
    rw [handleLine_hello hkind]
    refine h.of_statuses (acceptedStatuses_append (fun status => by simp [hkind]) _ rfl) rfl rfl
      rfl h.accepted ?_
    simp only [handledLines_append, List.length_append, List.countP_append, List.length_singleton,
      hhello, List.countP_singleton, if_true, Server.setBuffer_trace, Server.setBuffer_counters]
    omega
  | rejected =>
    have hhello : isHello line = false := isHello_eq_false (D := D) fun viewer => by simp [hkind]
    rw [handleLine_rejected hkind]
    refine h.of_statuses (acceptedStatuses_append (fun status => by simp [hkind]) _ rfl) rfl rfl
      rfl h.accepted ?_
    simp only [handledLines_append, List.length_append, List.countP_append, List.length_singleton,
      hhello, List.countP_singleton, Server.setBuffer_trace, Server.setBuffer_counters,
      Bool.false_eq_true, if_false]
    omega
  | accepted status =>
    have hhello : isHello line = false := isHello_eq_false (D := D) fun viewer => by simp [hkind]
    have hsome := lineKind_eq_accepted.mp hkind
    have hstatuses : ∀ record : LineRecord, record.line = line →
        acceptedStatuses D (s.trace ++ [.line record]) = acceptedStatuses D s.trace ++ [status] :=
      fun record hrecord => by simp [acceptedStatuses, handledLines_append, hrecord, hsome]
    obtain ⟨haccepted, -, hrec, hacks, hkeys, hfind⟩ := h
    rw [handleLine_accepted hkind]
    refine ⟨haccepted, ?_, ?_, ?_, ?_, ?_⟩
    · simp only [handledLines_append, List.length_append, List.countP_append,
        List.length_singleton, hhello, List.countP_singleton, Server.setBuffer_trace,
        Server.setBuffer_counters, Bool.false_eq_true, if_false]
      omega
    · rw [Server.setBuffer_trace, hstatuses _ rfl]
      simp [hrec]
    · rw [Server.setBuffer_trace, hstatuses _ rfl, List.countP_append]
      have hone : ((ackSends fd env status).toList.countP fun sent => sent.result.nonNegative) ≤
          [status].countP DeviceStatus.ackRequested := by
        unfold ackSends
        cases hack : status.ackRequested with
        | false => simp
        | true => cases hresult : env.ack.nonNegative <;> simp [hack, hresult]
      simp only [Server.setBuffer_counters]
      omega
    · rw [Server.setBuffer_trace, hstatuses _ rfl, Server.setBuffer_statusStore,
        DeviceStatusStore.keys_upsert, hkeys, List.map_append, List.toFinset_append,
        Finset.union_comm]
      rfl
    · -- the new status is the last one with its id, and no other id is touched
      intro deviceId
      rw [Server.setBuffer_trace, hstatuses _ rfl, List.filter_append, Server.setBuffer_statusStore]
      by_cases hid : status.deviceId = deviceId
      · simp [← hid]
      · rw [DeviceStatusStore.find_upsert_of_ne _ _ (Ne.symm hid), hfind]
        simp [hid]

/-- A move keeps counters and store in step with the trace. -/
theorem counted_of_move {s t : Server D} (hmove : Move s t) (hlinked : AllLinked s)
    (h : Counted s) : Counted t := by
  cases hmove with
  | accepted fd hfresh =>
    refine h.of_handledLines (by simp [handledLines, Obs.handled]) rfl rfl rfl rfl ?_
    have haccepted := h.accepted
    rw [acceptClient_openFds, Finset.card_insert_of_notMem hfresh]
    simp only [acceptClient_counters_totalAccepted, acceptClient_counters_totalDisconnected]
    omega
  | received fd data buffer hbuffer =>
    exact h.of_handledLines (by simp [handledLines, Obs.handled]) rfl rfl rfl rfl h.accepted
  | line fd env line rest hline hbuffer => exact counted_handleLine h fd env line rest
  | report env hdue =>
    rw [printMetricsIfDue_of_due hdue]
    exact h.of_handledLines (by simp [handledLines, Obs.handled]) rfl rfl rfl rfl h.accepted
  | disconnected fd buffer hbuffer hopen =>
    obtain ⟨obs, -, hfd, -⟩ := (hlinked fd).exists_session hbuffer
    refine h.of_handledLines (by simp [removeClient, handledLines, Obs.handled]) rfl rfl rfl rfl ?_
    have haccepted := h.accepted
    have hpos : 0 < s.openFds.card := Finset.card_pos.mpr ⟨fd, hfd⟩
    simp only [removeClient, removeEpollFd_counters, removeEpollFd_openFds,
      Finset.card_erase_of_mem hfd]
    omega
  | unknown fd hbuffer =>
    have hclosed : fd ∉ s.openFds := fun hopen => by
      obtain ⟨-, buffer, -, hsome⟩ := hlinked.exists_buffer hopen
      rw [hbuffer] at hsome
      exact absurd hsome (by simp)
    refine h.of_handledLines (by simp [handledLines, Obs.handled]) rfl rfl rfl rfl ?_
    simpa [Finset.erase_eq_of_notMem hclosed] using h.accepted

theorem Reachable.counted {s : Server D} (h : Reachable s) : Counted s := by
  obtain ⟨nowMs, mqttBridge, hpath⟩ := h
  induction hpath with
  | refl => exact counted_start nowMs mqttBridge
  | tail hu hmove ih =>
    exact counted_of_move hmove (Reachable.allLinked ⟨nowMs, mqttBridge, hu⟩) ih

/-- The store has the last status of each device. -/
theorem Reachable.find_eq_lastOf {s : Server D} (h : Reachable s) (deviceId : Bytes) :
    s.statusStore.find deviceId =
      lastOf DeviceStatus.deviceId deviceId (acceptedStatuses D s.trace) :=
  h.counted.find deviceId

/-! ## Totals only grow -/

theorem totals_mono_of_move {s t : Server D} (hmove : Move s t) :
    s.counters.totalAccepted ≤ t.counters.totalAccepted ∧
      s.counters.statusReceived ≤ t.counters.statusReceived := by
  cases hmove with
  | accepted fd hfresh => exact ⟨Nat.le_succ _, le_rfl⟩
  | received fd data buffer hbuffer => exact ⟨le_rfl, le_rfl⟩
  | line fd env line rest hline hbuffer =>
    cases hkind : (lineKind line : LineKind D) with
    | hello viewer => rw [handleLine_hello hkind]; exact ⟨le_rfl, le_rfl⟩
    | rejected => rw [handleLine_rejected hkind]; exact ⟨le_rfl, le_rfl⟩
    | accepted status => rw [handleLine_accepted hkind]; exact ⟨le_rfl, Nat.le_succ _⟩
  | report env hdue => rw [printMetricsIfDue_of_due hdue]; exact ⟨le_rfl, le_rfl⟩
  | disconnected fd buffer hbuffer hopen => exact ⟨le_rfl, le_rfl⟩
  | unknown fd hbuffer => exact ⟨le_rfl, le_rfl⟩

theorem totals_mono {s t : Server D} (h : ReflTransGen Move s t) :
    s.counters.totalAccepted ≤ t.counters.totalAccepted ∧
      s.counters.statusReceived ≤ t.counters.statusReceived := by
  induction h with
  | refl => exact ⟨le_rfl, le_rfl⟩
  | tail _ hmove ih =>
    have hstep := totals_mono_of_move hmove
    exact ⟨ih.1.trans hstep.1, ih.2.trans hstep.2⟩

/-! ## The laws -/

/-- The conservation laws of the server. -/
structure Conserves (s : Server D) : Prop where
  accepted : s.counters.totalAccepted =
    s.counters.totalDisconnected + s.telemetryClientFds.card
  telemetry : s.telemetryClientFds = s.clientBuffers.keys
  viewers : s.viewerClientFds ⊆ s.telemetryClientFds
  lines : (handledLines s.trace).length =
    s.counters.statusReceived + s.counters.parseErrors + (handledLines s.trace).countP isHello
  acks : s.counters.ackSent ≤ (acceptedStatuses D s.trace).countP DeviceStatus.ackRequested
  requested : (acceptedStatuses D s.trace).countP DeviceStatus.ackRequested ≤
    s.counters.statusReceived
  find : ∀ deviceId, s.statusStore.find deviceId =
    ((acceptedStatuses D s.trace).filter fun status => status.deviceId = deviceId).getLast?
  size : s.statusStore.size = ((acceptedStatuses D s.trace).map DeviceStatus.deviceId).toFinset.card

theorem Reachable.conserves {s : Server D} (h : Reachable s) : Conserves s := by
  obtain ⟨haccepted, hlines, hreceived, hacks, hkeys, hfind⟩ := h.counted
  have htables : ∀ fd, (fd ∈ s.telemetryClientFds ↔ fd ∈ s.openFds) ∧
      (fd ∈ s.clientBuffers ↔ fd ∈ s.openFds) ∧ (fd ∈ s.viewerClientFds → fd ∈ s.openFds) := by
    intro fd
    have hlinked := h.allLinked fd
    rw [← Finmap.lookup_isSome]
    generalize session fd s.trace = o at hlinked
    cases hlinked with
    | closed hopen hbuffer htelemetry hviewer => simp [hopen, hbuffer, htelemetry, hviewer]
    | connected obs buffer hopen hbuffer htelemetry hviewer hline hbytes =>
      simp [hopen, hbuffer, htelemetry]
  have htelemetry : s.telemetryClientFds = s.openFds := Finset.ext fun fd => (htables fd).1
  refine ⟨by rw [htelemetry, haccepted], ?_, ?_, hlines, hacks, ?_, hfind, ?_⟩
  · ext fd
    rw [Finmap.mem_keys, (htables fd).1, (htables fd).2.1]
  · intro fd hfd
    rw [htelemetry]
    exact (htables fd).2.2 hfd
  · rw [hreceived]
    exact List.countP_le_length
  · rw [DeviceStatusStore.size, hkeys]

/-- The numbers of a snapshot add up. -/
structure SnapshotAddsUp (metrics : ServerMetrics) : Prop where
  accepted : metrics.accepted.toNat = metrics.active.toNat + metrics.disconnected.toNat
  devices : metrics.devices ≤ metrics.received
  ackSent : metrics.ackSent ≤ metrics.received

/-- While the totals fit in 64 bits, so does every number of the snapshot. -/
theorem snapshotAddsUp_makeMetrics {s : Server D} (h : Reachable s) (nowMs : UInt64)
    (haccepted : s.counters.totalAccepted < 2 ^ 64)
    (hreceived : s.counters.statusReceived < 2 ^ 64) :
    SnapshotAddsUp (makeMetrics s.counters s.telemetryClientFds s.statusStore nowMs) := by
  have hlaws := h.conserves
  have hsum := hlaws.accepted
  have hacks := hlaws.acks.trans hlaws.requested
  have hdevices : s.statusStore.size ≤ s.counters.statusReceived := by
    rw [hlaws.size, h.counted.received]
    exact (List.toFinset_card_le _).trans_eq (List.length_map _)
  have hofNat : ∀ n : ℕ, n < 2 ^ 64 → (UInt64.ofNat n).toNat = n := fun n hn =>
    UInt64.toNat_ofNat_of_lt' hn
  refine ⟨?_, ?_, ?_⟩
  · simp only [makeMetrics]
    rw [hofNat _ haccepted, hofNat _ (by omega), hofNat _ (by omega)]
    omega
  · rw [UInt64.le_iff_toNat_le]
    simp only [makeMetrics]
    rwa [hofNat _ (by omega), hofNat _ hreceived]
  · rw [UInt64.le_iff_toNat_le]
    simp only [makeMetrics]
    rwa [hofNat _ (by omega), hofNat _ hreceived]

/-- The report was made in this state: the snapshot is that of the counters and tables, and
its line is offered to each viewer once. -/
structure ReportRecord.TakenIn (record : ReportRecord) (s : Server D) : Prop where
  metrics : record.metrics =
    makeMetrics s.counters s.telemetryClientFds s.statusStore record.env.nowMs
  text : ∀ sent ∈ record.broadcast, sent.text = formatMetricsLine record.metrics
  viewers : record.broadcast.map Sent.fd = record.env.order.toList s.viewerClientFds

/-- **Every report was made in a state that obeys the laws.** -/
theorem Reachable.exists_takenIn {s : Server D} (h : Reachable s) {record : ReportRecord}
    (hrecord : .report record ∈ s.trace) :
    ∃ u : Server D, Conserves u ∧ u.trace ++ [.report record] <+: s.trace ∧ record.TakenIn u := by
  obtain ⟨pre, post, htrace⟩ := List.append_of_mem hrecord
  obtain ⟨u, v, hu, hmove, -, rfl, hv⟩ := h.exists_move_of_prefix
    (show pre ++ [.report record] <+: s.trace from ⟨post, by simp [htrace]⟩)
  obtain ⟨-, hmetrics, hbroadcast, -⟩ := hmove.moved hv
  refine ⟨u, hu.conserves, ⟨post, by simp [htrace]⟩, hmetrics, fun sent hsent => ?_, ?_⟩
  · rw [hbroadcast] at hsent
    rw [(fd_mem_of_mem_viewerSends hsent).2.2]
  · rw [hbroadcast, map_fd_viewerSends_report]

/-- **Every snapshot that was emitted adds up.** -/
theorem Reachable.snapshotAddsUp {s : Server D} (h : Reachable s)
    (haccepted : s.counters.totalAccepted < 2 ^ 64)
    (hreceived : s.counters.statusReceived < 2 ^ 64) {record : ReportRecord}
    (hrecord : .report record ∈ s.trace) : SnapshotAddsUp record.metrics := by
  obtain ⟨u, v, hu, hmove, hvs, -, hmetrics, -, -⟩ := h.exists_move_of_mem hrecord
  have hmono := totals_mono (ReflTransGen.head hmove hvs)
  rw [hmetrics]
  exact snapshotAddsUp_makeMetrics hu record.env.nowMs (hmono.1.trans_lt haccepted)
    (hmono.2.trans_lt hreceived)

/-! ## Unknown descriptors -/

/-- The entry is about a descriptor without a buffer. -/
def Obs.isUnknown : Obs → Bool
  | .unknown _ => true
  | _ => false

/-- The event of an open descriptor does not come to the branch for unknown ones. -/
theorem unknown_dispatch {event : Event} {s t : Server D} (hlinked : AllLinked s)
    (hopen : ∀ fd, event.peer = some fd → fd ∈ s.openFds) (h : dispatch event s = .ok t) :
    t.trace.any Obs.isUnknown = s.trace.any Obs.isUnknown := by
  cases event with
  | listening clients last => simp [trace_acceptReadyClients h, List.any_map, Obs.isUnknown]
  | client fd chunks last env =>
    obtain ⟨-, buffer, -, hbuffer⟩ := hlinked.exists_buffer (hopen fd rfl)
    obtain ⟨records, removal, htrace, hremoval⟩ := exists_trace_dispatch_client hbuffer h
    rcases hremoval with rfl | rfl <;> simp [htrace, List.any_map, Obs.isUnknown]

/-- Descriptors of other events of the batch stay open. -/
theorem openFds_dispatch {event : Event} {s t : Server D}
    (hfresh : FreshAccepts s (.event event)) (h : dispatch event s = .ok t) {fd : Fd}
    (hopen : fd ∈ s.openFds) (hpeer : event.peer ≠ some fd) : fd ∈ t.openFds := by
  cases event with
  | listening clients last =>
    exact (sameEntry_acceptReadyClients h fun client hclient heq =>
      hfresh.2 client hclient (heq ▸ hopen)).openFds.mpr hopen
  | client fd' chunks last env =>
    exact (sameEntry_dispatch_client h fun heq => hpeer (by rw [heq]; rfl)).openFds.mpr hopen

/-- **No event of a batch is about an unknown descriptor.** -/
theorem unknown_batch {events : List Event} {s t : Server D} (hs : Reachable s)
    (hepoll : EpollContract s events)
    (hfresh : Admissible loopStep FreshAccepts s (events.map .event))
    (h : events.foldlM (fun s event => dispatch event s) s = .ok t) :
    Reachable t ∧ t.trace.any Obs.isUnknown = s.trace.any Obs.isUnknown := by
  induction events generalizing s with
  | nil =>
    have hst : s = t := by simpa [pure, Except.pure] using h
    exact hst ▸ ⟨hs, rfl⟩
  | cons event events ih =>
    rw [List.foldlM_cons] at h
    cases hu : dispatch event s with
    | error e => rw [hu] at h; exact absurd h (by simp [bind, Except.bind])
    | ok u =>
      rw [hu] at h
      obtain ⟨hnodup, hopen⟩ := hepoll
      have hreach : Reachable u := by
        obtain ⟨nowMs, mqttBridge, hpath⟩ := hs
        exact ⟨nowMs, mqttBridge, hpath.trans (reflTransGen_of_dispatch hfresh.1 hu)⟩
      have hrest : EpollContract u events := by
        cases hpeer : event.peer with
        | none =>
          rw [List.filterMap_cons_none hpeer] at hnodup hopen
          exact ⟨hnodup, fun fd hfd =>
            openFds_dispatch hfresh.1 hu (hopen fd hfd) (by simp [hpeer])⟩
        | some peer =>
          rw [List.filterMap_cons_some hpeer] at hnodup hopen
          rw [List.nodup_cons] at hnodup
          refine ⟨hnodup.2, fun fd hfd =>
            openFds_dispatch hfresh.1 hu (hopen fd (List.mem_cons_of_mem _ hfd)) ?_⟩
          rw [hpeer, Ne, Option.some.injEq]
          rintro rfl
          exact hnodup.1 hfd
      obtain ⟨ht, hunknown⟩ := ih hreach hrest (hfresh.2 u hu) h
      refine ⟨ht, hunknown.trans (unknown_dispatch hs.allLinked (fun fd hfd => ?_) hu)⟩
      exact hopen fd (List.mem_filterMap.mpr ⟨event, by simp, hfd⟩)

omit [CharconvDouble D] in
theorem unknown_printMetricsIfDue (env : ReportEnv) (s : Server D) :
    (printMetricsIfDue env s).trace.any Obs.isUnknown = s.trace.any Obs.isUnknown := by
  by_cases hdue : env.nowMs - s.counters.lastReportMs < 1000
  · rw [printMetricsIfDue, if_pos hdue]
  · rw [printMetricsIfDue_of_due hdue]
    simp [Obs.isUnknown]

theorem Reachable.printMetricsIfDue {s : Server D} (h : Reachable s) (env : ReportEnv) :
    Reachable (printMetricsIfDue env s) := by
  obtain ⟨nowMs, mqttBridge, hpath⟩ := h
  have hstep : loopStep s (.report env) = .ok (RemoteDeviceConsole.printMetricsIfDue env s) := rfl
  have hfresh : FreshAccepts s (.report env) := trivial
  exact ⟨nowMs, mqttBridge, hpath.trans (reflTransGen_of_loopStep hfresh hstep)⟩

/-- Between two iterations no unknown descriptor has been seen. -/
theorem LoopRun.unknown {nowMs : UInt64} {mqttBridge : MqttBridge} {results : List EpollResult}
    {s : Server D} (h : LoopRun nowMs mqttBridge results s) :
    Reachable s ∧ s.trace.any Obs.isUnknown = false := by
  refine Run.invariant
    (P := fun s : Server D => Reachable s ∧ s.trace.any Obs.isUnknown = false)
    ?_ h ⟨⟨nowMs, mqttBridge, ReflTransGen.refl⟩, rfl⟩
  rintro s result t ⟨hs, hno⟩ hok hstep
  cases result with
  | failed errno =>
    rw [loopIteration] at hstep
    split at hstep
    · rw [Except.ok.injEq] at hstep
      exact hstep ▸ ⟨hs, hno⟩
    · exact absurd hstep (by simp)
  | ready events report =>
    obtain ⟨hepoll, hadm⟩ := hok
    rw [loopIteration] at hstep
    cases hu : events.foldlM (fun s event => dispatch event s) s with
    | error e => rw [hu] at hstep; exact absurd hstep (by simp [bind, Except.bind])
    | ok u =>
      rw [hu] at hstep
      have ht : printMetricsIfDue report u = t := by simpa [bind, Except.bind] using hstep
      obtain ⟨hreach, hunknown⟩ := unknown_batch hs hepoll (Admissible.of_append hadm) hu
      exact ht ▸ ⟨hreach.printMetricsIfDue report,
        (unknown_printMetricsIfDue report u).trans (hunknown.trans hno)⟩

/-- **Conservation.**  In every state in which `print_metrics_if_due` is called the
counters, the tables and the store obey the laws and no descriptor was unknown.  Every
report, the one of this call included, was made in a state that obeys the laws, whose
numbers it gives and to whose viewers it went out; and while the totals fit in 64 bits
its snapshot adds up. -/
theorem LoopRun.conservation {nowMs : UInt64} {mqttBridge : MqttBridge}
    {results : List EpollResult} {s₀ s : Server D} (h : LoopRun nowMs mqttBridge results s₀)
    {events : List Event} (hepoll : EpollContract s₀ events)
    (hfresh : Admissible loopStep FreshAccepts s₀ (events.map .event))
    (hevents : events.foldlM (fun s event => dispatch event s) s₀ = .ok s) :
    Conserves s ∧ (∀ fd, .unknown fd ∉ s.trace) ∧
      (∀ env record, .report record ∈ (printMetricsIfDue env s).trace →
        ∃ u : Server D, Conserves u ∧
          u.trace ++ [.report record] <+: (printMetricsIfDue env s).trace ∧ record.TakenIn u) ∧
      (s.counters.totalAccepted < 2 ^ 64 → s.counters.statusReceived < 2 ^ 64 →
        ∀ env record, .report record ∈ (printMetricsIfDue env s).trace →
          SnapshotAddsUp record.metrics) := by
  obtain ⟨hs₀, hno⟩ := h.unknown
  obtain ⟨hs, hunknown⟩ := unknown_batch hs₀ hepoll hfresh hevents
  refine ⟨hs.conserves, fun fd hmem => ?_,
    fun env record hrecord => (hs.printMetricsIfDue env).exists_takenIn hrecord,
    fun haccepted hreceived env record hrecord => ?_⟩
  · have hyes : s.trace.any Obs.isUnknown = true := List.any_eq_true.mpr ⟨_, hmem, rfl⟩
    rw [hunknown, hno] at hyes
    exact absurd hyes (by simp)
  · refine (hs.printMetricsIfDue env).snapshotAddsUp ?_ ?_ hrecord
    · by_cases hdue : env.nowMs - s.counters.lastReportMs < 1000
      · rwa [RemoteDeviceConsole.printMetricsIfDue, if_pos hdue]
      · rwa [printMetricsIfDue_of_due hdue]
    · by_cases hdue : env.nowMs - s.counters.lastReportMs < 1000
      · rwa [RemoteDeviceConsole.printMetricsIfDue, if_pos hdue]
      · rwa [printMetricsIfDue_of_due hdue]

/-- Three clients are accepted, a device reports, and its status is in the snapshot that
goes to the viewer; then another device reports, the third client leaves, and a second
report is due. -/
theorem exists_loopRun_conservation :
    ∃ s : Server ℤ, s.counters.totalAccepted = 3 ∧ s.counters.totalDisconnected = 1 ∧
      Conserves s ∧ (∀ fd, .unknown fd ∉ s.trace) ∧
      ∀ received ∈ ([1, 2] : List UInt64), ∃ record,
        .report record ∈ (printMetricsIfDue (.roomy 3000) s).trace ∧
        record.metrics.received = received ∧ record.broadcast.map Sent.fd = [7] ∧
        (∃ u : Server ℤ, Conserves u ∧ record.TakenIn u) ∧ SnapshotAddsUp record.metrics := by
  let events : List Event := [
    .client 6 [ascii "STATUS device_id=b state=OK\n"] (.failed .EAGAIN) fun _ => .roomy 1600,
    .client 5 [] .closed fun _ => .roomy 1601]
  let reported : UInt64 → Obs → Bool := fun received x => match x with
    | .report record => record.metrics.received = received ∧ record.broadcast.map Sent.fd = [7]
    | _ => false
  let check : Server ℤ → Bool := fun s => s.counters.totalAccepted = 3 ∧
    s.counters.totalDisconnected = 1 ∧ s.counters.statusReceived = 2 ∧
    ([1, 2].all fun received => (printMetricsIfDue (.roomy 3000) s).trace.any (reported received))
  obtain ⟨s₀, hrun, hs₀⟩ := exists_loopRun
    (P := fun s : Server ℤ => EpollContract s events ∧
      Admissible loopStep FreshAccepts s (events.map .event) ∧
      (events.foldlM (fun s event => dispatch event s) s).toOption.any check)
    0 ⟨false⟩
    [.ready [.listening [⟨5, none, none⟩, ⟨6, none, none⟩, ⟨7, none, none⟩] .EAGAIN] (.roomy 4),
      .ready [.client 7 [ascii "HELLO role=viewer\n"] (.failed .EAGAIN) fun _ => .roomy 5,
        .client 6 [ascii "STATUS device_id=a state=OK ack=1\n"] (.failed .EAGAIN)
          fun _ => .roomy 6] (.roomy 1500)]
    (by decide +kernel)
  obtain ⟨hepoll, hfresh, hcheck⟩ := of_decide_eq_true hs₀
  obtain ⟨s, hs, hchecked⟩ := (Option.any_eq_true _ _).mp hcheck
  have hevents : events.foldlM (fun s event => dispatch event s) s₀ = .ok s := by
    cases hfold : events.foldlM (fun s event => dispatch event s) s₀ with
    | error e => rw [hfold] at hs; exact absurd hs (by simp [Except.toOption])
    | ok t => rw [hfold] at hs; rw [Option.some.inj hs]
  obtain ⟨haccepted, hdisconnected, hreceived, hreports⟩ := of_decide_eq_true hchecked
  obtain ⟨hlaws, hunknown, htaken, hsums⟩ := hrun.conservation hepoll hfresh hevents
  refine ⟨s, haccepted, hdisconnected, hlaws, hunknown, fun received hmem => ?_⟩
  obtain ⟨x, hx, hreported⟩ := List.any_eq_true.mp (List.all_eq_true.mp hreports received hmem)
  cases x with
  | report record =>
    obtain ⟨hmetrics, hviewer⟩ := of_decide_eq_true hreported
    obtain ⟨u, hu, -, hrecord⟩ := htaken _ record hx
    exact ⟨record, hx, hmetrics, hviewer, ⟨u, hu, hrecord⟩,
      hsums (by omega) (by omega) _ record hx⟩
  | _ => exact absurd hreported Bool.false_ne_true

end RemoteDeviceConsole
