import RemoteDeviceConsole.Server.Connections

/-!
# The server as a machine on lines

`Reference` is what the server is for: it knows connections and complete lines,
nothing of chunks, buffers or reports.  Its events are read off the trace
(`lineEvents`), so both machines see the same lines in the same order and the
same answers to `send`.

## Why the trace, and not the steps

The two machines do not go in lockstep.  One event of the loop may bring no line
or several ones, and a line may come in the chunks of several events, so there is
no map from the steps of the server to events of the reference machine.  But each
move writes one entry, and an entry is one event of the reference machine or none.
So `refines_of_move` is about one move, and `Reachable.refines` is an induction on
moves in which no chunk has to be cut.

That the lines of the trace are the right ones is then a statement of its own, and
`serverRun_refines_reference` has it beside the refinement: between two steps the
lines of a connection are the complete lines of its bytes, and when a connection
goes, none is left over.

## What is not the same

`send_line` counts a failed METRICS send as well, and the reference machine has no
reports, so `broadcast_errors` is ahead by the failures of the reports
(`broadcastErrors_ne_reference`).

The clock of the reference machine is its own.  It shows only in the `server_ms`
field of an ACK (`Reference.run_sameButServerMs`).
-/

namespace RemoteDeviceConsole

open Framing Machine Relation

/-! ## The reference machine -/

/-- An event of the reference machine. -/
inductive LineEvent where
  | connect (client : Fd)
  | line (client : Fd) (text : Bytes) (env : LineEnv)
  | disconnect (client : Fd)

/-- The state of the reference machine. -/
structure Reference (D : Type) where
  statusStore : DeviceStatusStore D := .empty
  viewers : Finset Fd := ∅
  accepted : ℕ := 0
  disconnected : ℕ := 0
  received : ℕ := 0
  ackSent : ℕ := 0
  parseErrors : ℕ := 0
  broadcastErrors : ℕ := 0
  sent : List Sent := []

namespace Reference

variable {D : Type} [CharconvDouble D]

/-- One event. -/
def step (r : Reference D) : LineEvent → Reference D
  | .connect _ => { r with accepted := r.accepted + 1 }
  | .disconnect client =>
      { r with viewers := r.viewers.erase client, disconnected := r.disconnected + 1 }
  | .line client text env =>
    match lineKind text with
    | .hello viewer => { r with viewers := if viewer then insert client r.viewers else r.viewers }
    | .rejected => { r with parseErrors := r.parseErrors + 1 }
    | .accepted status =>
        let ack := (ackSends client env status).toList
        let broadcast := viewerSends env.order env.viewer r.viewers client text
        { r with
          statusStore := r.statusStore.upsert status
          received := r.received + 1
          ackSent := r.ackSent + ack.countP fun sent => sent.result.nonNegative
          broadcastErrors := r.broadcastErrors + hardErrors broadcast
          sent := r.sent ++ (ack ++ broadcast) }

/-- The events one after another. -/
def run (events : List LineEvent) : Reference D := events.foldl step {}

theorem run_append_singleton (events : List LineEvent) (event : LineEvent) :
    (run (events ++ [event]) : Reference D) = (run events).step event := by
  simp [run]

end Reference

/-- The event of the reference machine that an entry of the trace is. -/
def Obs.lineEvent : Obs → List LineEvent
  | .accepted fd => [.connect fd]
  | .line record => [.line record.fd record.line record.env]
  | .disconnected fd => [.disconnect fd]
  | _ => []

def lineEvents (trace : List Obs) : List LineEvent := trace.flatMap Obs.lineEvent

/-- The calls of `send` that carry an ACK or a STATUS line. -/
def Obs.lineSends : Obs → List Sent
  | .line record => record.ack.toList ++ record.broadcast
  | _ => []

def lineSends (trace : List Obs) : List Sent := trace.flatMap Obs.lineSends

/-- The calls of `send` that carry a METRICS line. -/
def Obs.reportSends : Obs → List Sent
  | .report record => record.broadcast
  | _ => []

def reportSends (trace : List Obs) : List Sent := trace.flatMap Obs.reportSends

variable {D : Type}

/-- The server agrees with a state of the reference machine. -/
structure Refines (s : Server D) (r : Reference D) : Prop where
  statusStore : s.statusStore = r.statusStore
  viewers : s.viewerClientFds = r.viewers
  accepted : s.counters.totalAccepted = r.accepted
  disconnected : s.counters.totalDisconnected = r.disconnected
  received : s.counters.statusReceived = r.received
  ackSent : s.counters.ackSent = r.ackSent
  parseErrors : s.counters.parseErrors = r.parseErrors
  broadcastErrors :
    s.counters.broadcastErrors = r.broadcastErrors + hardErrors (reportSends s.trace)

variable [CharconvDouble D]

/-! ## The simulation -/

/-- The handling of a line is a step of the reference machine. -/
theorem refines_handleLine {s : Server D} {r : Reference D} (h : Refines s r)
    (hsent : lineSends s.trace = r.sent) (fd : Fd) (env : LineEnv) (line rest : Bytes) :
    Refines (handleLine fd env line (s.setBuffer fd rest)) (r.step (.line fd line env)) ∧
      lineSends (handleLine fd env line (s.setBuffer fd rest)).trace =
        (r.step (.line fd line env)).sent := by
  obtain ⟨hstore, hviewers, hacc, hdis, hrec, hack, hparse, hbroad⟩ := h
  simp only [lineSends, reportSends] at hsent hbroad
  cases hkind : (lineKind line : LineKind D) with
  | hello viewer =>
    rw [handleLine_hello hkind]
    simp only [Reference.step, hkind]
    refine ⟨⟨hstore, ?_, hacc, hdis, hrec, hack, hparse, ?_⟩, ?_⟩
    · simp [hviewers]
    · simp [reportSends, Obs.reportSends, hbroad]
    · simp [lineSends, Obs.lineSends, hsent]
  | rejected =>
    rw [handleLine_rejected hkind]
    simp only [Reference.step, hkind]
    refine ⟨⟨hstore, hviewers, hacc, hdis, hrec, hack, ?_, ?_⟩, ?_⟩
    · simp [hparse]
    · simp [reportSends, Obs.reportSends, hbroad]
    · simp [lineSends, Obs.lineSends, hsent]
  | accepted status =>
    rw [handleLine_accepted hkind]
    simp only [Reference.step, hkind]
    refine ⟨⟨?_, hviewers, hacc, hdis, ?_, ?_, hparse, ?_⟩, ?_⟩
    · simp [hstore]
    · simp [hrec]
    · simp [hack]
    · simp [reportSends, Obs.reportSends, hbroad, hviewers]
      omega
    · simp [lineSends, Obs.lineSends, hsent, hviewers]

/-- A move is a step of the reference machine or none. -/
theorem refines_of_move {s t : Server D} (hmove : Move s t)
    (h : Refines s (Reference.run (lineEvents s.trace)))
    (hsent : lineSends s.trace = (Reference.run (lineEvents s.trace) : Reference D).sent) :
    Refines t (Reference.run (lineEvents t.trace)) ∧
      lineSends t.trace = (Reference.run (lineEvents t.trace) : Reference D).sent := by
  cases hmove with
  | accepted fd hfresh =>
    have hevents : lineEvents (acceptClient fd s).trace = lineEvents s.trace ++ [.connect fd] := by
      simp [lineEvents, Obs.lineEvent]
    rw [hevents, Reference.run_append_singleton]
    obtain ⟨hstore, hviewers, hacc, hdis, hrec, hack, hparse, hbroad⟩ := h
    refine ⟨⟨hstore, hviewers, ?_, hdis, hrec, hack, hparse, ?_⟩, ?_⟩
    · simp [hacc, Reference.step]
    · simpa [reportSends, Obs.reportSends, Reference.step] using hbroad
    · simpa [lineSends, Obs.lineSends, Reference.step] using hsent
  | received fd data buffer hbuffer =>
    have hevents : lineEvents ((s.setBuffer fd (buffer ++ data)).log (.received fd data)).trace =
        lineEvents s.trace := by
      simp [lineEvents, Obs.lineEvent]
    rw [hevents]
    obtain ⟨hstore, hviewers, hacc, hdis, hrec, hack, hparse, hbroad⟩ := h
    refine ⟨⟨hstore, hviewers, hacc, hdis, hrec, hack, hparse, ?_⟩, ?_⟩
    · simpa [reportSends, Obs.reportSends] using hbroad
    · simpa [lineSends, Obs.lineSends] using hsent
  | line fd env line rest hline hbuffer =>
    have hevents : lineEvents (handleLine fd env line (s.setBuffer fd rest)).trace =
        lineEvents s.trace ++ [.line fd line env] := by
      simp [trace_handleLine, lineEvents, Obs.lineEvent]
    rw [hevents, Reference.run_append_singleton]
    exact refines_handleLine h hsent fd env line rest
  | report env hdue =>
    rw [printMetricsIfDue_of_due hdue]
    have hevents : ∀ record, lineEvents (s.trace ++ [.report record]) = lineEvents s.trace := by
      simp [lineEvents, Obs.lineEvent]
    rw [hevents]
    obtain ⟨hstore, hviewers, hacc, hdis, hrec, hack, hparse, hbroad⟩ := h
    refine ⟨⟨hstore, hviewers, hacc, hdis, hrec, hack, hparse, ?_⟩, ?_⟩
    · simp [reportSends, Obs.reportSends, hardErrors] at hbroad ⊢
      omega
    · simpa [lineSends, Obs.lineSends] using hsent
  | disconnected fd buffer hbuffer hopen =>
    have hevents :
        lineEvents (removeClient fd s).trace = lineEvents s.trace ++ [.disconnect fd] := by
      simp [removeClient, lineEvents, Obs.lineEvent]
    rw [hevents, Reference.run_append_singleton]
    obtain ⟨hstore, hviewers, hacc, hdis, hrec, hack, hparse, hbroad⟩ := h
    refine ⟨⟨hstore, ?_, hacc, ?_, hrec, hack, hparse, ?_⟩, ?_⟩
    · simp [removeClient, Reference.step, hviewers]
    · simp [removeClient, Reference.step, hdis]
    · simpa [removeClient, reportSends, Obs.reportSends, Reference.step] using hbroad
    · simpa [removeClient, lineSends, Obs.lineSends, Reference.step] using hsent
  | unknown fd hbuffer =>
    have hevents : lineEvents ((removeEpollFd fd s).log (.unknown fd)).trace =
        lineEvents s.trace := by
      simp [lineEvents, Obs.lineEvent]
    rw [hevents]
    obtain ⟨hstore, hviewers, hacc, hdis, hrec, hack, hparse, hbroad⟩ := h
    refine ⟨⟨hstore, hviewers, hacc, hdis, hrec, hack, hparse, ?_⟩, ?_⟩
    · simpa [reportSends, Obs.reportSends] using hbroad
    · simpa [lineSends, Obs.lineSends] using hsent

/-- **The server is the reference machine** on the lines of its trace. -/
theorem Reachable.refines {s : Server D} (h : Reachable s) :
    Refines s (Reference.run (lineEvents s.trace)) ∧
      lineSends s.trace = (Reference.run (lineEvents s.trace) : Reference D).sent := by
  obtain ⟨nowMs, mqttBridge, hpath⟩ := h
  induction hpath with
  | refl => exact ⟨⟨rfl, rfl, rfl, rfl, rfl, rfl, rfl, rfl⟩, rfl⟩
  | tail _ hmove ih => exact refines_of_move hmove ih.1 ih.2

/-! ## The clock of the reference machine -/

/-- The same event, read at a different time. -/
inductive LineEvent.SameButClock : LineEvent → LineEvent → Prop where
  | connect (client : Fd) : SameButClock (.connect client) (.connect client)
  | line (client : Fd) (text : Bytes) (env : LineEnv) (nowMs : UInt64) :
      SameButClock (.line client text env) (.line client text { env with nowMs })
  | disconnect (client : Fd) : SameButClock (.disconnect client) (.disconnect client)

/-- The same call of `send`, but for the `server_ms` field of an ACK. -/
inductive Sent.SameButServerMs : Sent → Sent → Prop where
  | same (sent : Sent) : SameButServerMs sent sent
  | ack (fd : Fd) (deviceId : Bytes) (sequence serverMs serverMs' : UInt64) (result : SendResult) :
      SameButServerMs ⟨fd, ackText deviceId sequence serverMs, result⟩
        ⟨fd, ackText deviceId sequence serverMs', result⟩

theorem LineEvent.SameButClock.refl : ∀ event : LineEvent, SameButClock event event
  | .connect client => .connect client
  | .line client text env => .line client text env env.nowMs
  | .disconnect client => .disconnect client

omit [CharconvDouble D] in
theorem forall₂_ackSends (fd : Fd) (env : LineEnv) (nowMs : UInt64) (status : DeviceStatus D) :
    List.Forall₂ Sent.SameButServerMs (ackSends fd env status).toList
      (ackSends fd { env with nowMs } status).toList := by
  unfold ackSends
  split
  · exact .cons (.ack fd status.deviceId status.sequence env.nowMs nowMs env.ack) .nil
  · exact .nil

omit [CharconvDouble D] in
theorem countP_ackSends (fd : Fd) (env : LineEnv) (nowMs : UInt64) (status : DeviceStatus D) :
    ((ackSends fd { env with nowMs } status).toList.countP fun sent => sent.result.nonNegative) =
      (ackSends fd env status).toList.countP fun sent => sent.result.nonNegative := by
  unfold ackSends
  split <;> simp

/-- Two states of the reference machine that differ in the `server_ms` fields. -/
structure Reference.SameButServerMs (r r' : Reference D) : Prop where
  fields : r' = { r with sent := r'.sent }
  sent : List.Forall₂ Sent.SameButServerMs r.sent r'.sent

theorem Reference.SameButServerMs.step {r r' : Reference D} {event event' : LineEvent}
    (h : r.SameButServerMs r') (he : event.SameButClock event') :
    (r.step event).SameButServerMs (r'.step event') := by
  obtain ⟨hfields, hsent⟩ := h
  generalize r'.sent = calls at hfields hsent
  subst hfields
  cases he with
  | connect client => exact ⟨rfl, hsent⟩
  | disconnect client => exact ⟨rfl, hsent⟩
  | line client text env nowMs =>
    cases hkind : (lineKind text : LineKind D) with
    | hello viewer => simp only [Reference.step, hkind]; exact ⟨rfl, hsent⟩
    | rejected => simp only [Reference.step, hkind]; exact ⟨rfl, hsent⟩
    | accepted status =>
      simp only [Reference.step, hkind, countP_ackSends]
      refine ⟨rfl, List.rel_append hsent (List.rel_append (forall₂_ackSends ..) ?_)⟩
      exact List.forall₂_same.mpr fun sent _ => .same sent

/-- **The clock shows in the ACKs only.** -/
theorem Reference.run_sameButServerMs {events events' : List LineEvent}
    (h : List.Forall₂ LineEvent.SameButClock events events') :
    (Reference.run events : Reference D).SameButServerMs (Reference.run events') := by
  suffices key : ∀ r r' : Reference D, r.SameButServerMs r' →
      (events.foldl Reference.step r).SameButServerMs (events'.foldl Reference.step r') from
    key {} {} ⟨rfl, .nil⟩
  induction h with
  | nil => exact fun r r' hr => hr
  | cons he _ ih => exact fun r r' hr => ih _ _ (hr.step he)

/-! ## Runs of the server -/

/-- **The server refines the machine on lines.**  Fed with the complete lines of the
run, at times of its own, the reference machine has the server's store, viewers
and counters, the failures of the reports apart, and makes the same calls of
`send` apart from `server_ms`.  The lines of a connection are the complete lines
of its bytes, its buffer is the rest, and none is left over when it is removed. -/
theorem serverRun_refines_reference {nowMs : UInt64} {mqttBridge : MqttBridge}
    {steps : List LoopStep} {s : Server D} (h : ServerRun nowMs mqttBridge steps s)
    {events : List LineEvent}
    (hevents : List.Forall₂ LineEvent.SameButClock (lineEvents s.trace) events) :
    Refines s (Reference.run events) ∧
      List.Forall₂ Sent.SameButServerMs (lineSends s.trace)
        (Reference.run events : Reference D).sent ∧
      (∀ fd obs, session fd s.trace = some obs →
        linesOf fd obs = frames newline (bytesOf fd obs) ∧
          s.clientBuffers.lookup fd = some (remainder newline (bytesOf fd obs))) ∧
      (∀ fd pre, pre ++ [.disconnected fd] <+: s.trace →
        ∃ obs, session fd pre = some obs ∧ linesOf fd obs = frames newline (bytesOf fd obs)) := by
  obtain ⟨hrefines, hsent⟩ := h.reachable.refines
  obtain ⟨hfields, hsame⟩ := Reference.run_sameButServerMs (D := D) hevents
  refine ⟨?_, hsent ▸ hsame, fun fd obs hsession => ?_, fun fd pre hpre => ?_⟩
  · rw [hfields]
    exact ⟨hrefines.statusStore, hrefines.viewers, hrefines.accepted, hrefines.disconnected,
      hrefines.received, hrefines.ackSent, hrefines.parseErrors, hrefines.broadcastErrors⟩
  · exact h.settled.framing h.reachable.allLinked hsession
  · exact h.reachable.framing_of_disconnected hpre

/-- Two clients, a line cut into three chunks, a line behind another one in the chunk
that comes with the end of the connection. -/
theorem exists_serverRun_refines_reference :
    ∃ (steps : List LoopStep) (s : Server ℤ), ServerRun 0 ⟨false⟩ steps s ∧
      Refines s (Reference.run (lineEvents s.trace)) ∧
      s.counters.statusReceived = 2 ∧ s.counters.parseErrors = 1 ∧ s.counters.ackSent = 1 ∧
      s.counters.totalDisconnected = 1 := by
  obtain ⟨s, hrun, hs⟩ := exists_serverRun
    (P := fun s : Server ℤ => s.counters.statusReceived = 2 ∧ s.counters.parseErrors = 1 ∧
      s.counters.ackSent = 1 ∧ s.counters.totalDisconnected = 1)
    0 ⟨false⟩
    [ .event (.listening [⟨5, none, none⟩, ⟨6, none, none⟩] .EAGAIN),
      .event (.client 6 [ascii "HELLO role=viewer\n"] (.failed .EAGAIN) fun _ => .roomy 1),
      .event (.client 5 [ascii "STATUS dev", ascii "ice_id=a state=O"] (.failed .EAGAIN)
        fun _ => .roomy 2),
      .event (.client 5 [ascii "K ack=1\nSTATUS\nSTATUS device_id=b state=OK\nSTA"] .closed
        fun _ => .roomy 3)] (by decide +kernel)
  refine ⟨_, s, hrun, ?_, of_decide_eq_true hs⟩
  exact (serverRun_refines_reference hrun
    (List.forall₂_same.mpr fun event _ => LineEvent.SameButClock.refl event)).1

/-- **The reference machine does not count failed reports.**  A viewer whose socket
answers the METRICS line with `EPIPE` puts the server's `broadcast_errors` ahead. -/
theorem broadcastErrors_ne_reference :
    ∃ (steps : List LoopStep) (s : Server ℤ), ServerRun 0 ⟨false⟩ steps s ∧
      s.counters.broadcastErrors ≠
        (Reference.run (lineEvents s.trace) : Reference ℤ).broadcastErrors := by
  obtain ⟨s, hrun, hs⟩ := exists_serverRun
    (P := fun s : Server ℤ => s.counters.broadcastErrors ≠
      (Reference.run (lineEvents s.trace) : Reference ℤ).broadcastErrors)
    0 ⟨false⟩
    [ .event (.listening [⟨5, none, none⟩] .EAGAIN),
      .event (.client 5 [ascii "HELLO role=viewer\n"] (.failed .EAGAIN) fun _ => .roomy 1),
      .report ⟨1000, fun _ => .failed .EPIPE, .increasing⟩] (by decide +kernel)
  exact ⟨_, s, hrun, of_decide_eq_true hs⟩

end RemoteDeviceConsole
