import RemoteDeviceConsole.Machine.Sessions
import RemoteDeviceConsole.Server.AckAccounting
import RemoteDeviceConsole.Server.Conservation

/-!
# Independent clients commute

The loop takes the lines of its clients in the order in which they happen to come.
`connections` lists the connections of a trace, and `SameConnections` says that two
traces interleave the same ones: the lines of each connection are fixed, the
moments at which they come are not, and the kernel may hand out other descriptor
numbers.

`interleavings_agree` compares two such runs.  What it compares is read off the
lines of the connections, so nothing has to be exchanged with anything: the
counters count lines whatever their order is, the status of a device is the last
one of the connection that reports it, a viewer is a viewer because of a line of
its own, and an ACK answers a line of its own.
-/

namespace RemoteDeviceConsole

open Framing Machine

/-! ## The connections of a trace -/

/-- The descriptor of a new connection. -/
def Obs.opened : Obs → Option Fd
  | .accepted fd => some fd
  | _ => none

/-- The connections of a trace, in the order in which they were accepted. -/
def connections (trace : List Obs) : List (Session Fd Obs) :=
  sessions Obs.opened Obs.closes trace

/-- The lines of each connection. -/
def connectionLines (trace : List Obs) : List (List Bytes) :=
  (connections trace).map (Session.items Obs.lineOf)

variable {fd : Fd} {trace : List Obs}

theorem opens_eq (fd : Fd) : Obs.opens fd = fun x => decide (x.opened = some fd) := by
  ext x
  cases x <;> simp [Obs.opens, Obs.opened]

theorem currentOf_eq_session (fd : Fd) (trace : List Obs) :
    currentOf Obs.opened Obs.closes fd trace = session fd trace := by
  rw [session, opens_eq]
  rfl

variable {D : Type} [CharconvDouble D] {s s' : Server D}

/-- **A line belongs to the connection that is open on its descriptor.** -/
theorem Reachable.attributed (h : Reachable s) :
    Attributed Obs.opened Obs.closes Obs.lineOf Obs.handled s.trace := by
  intro pre x hpre
  cases x with
  | line record =>
    obtain ⟨u, v, hu, hmove, -, rfl, hvtrace⟩ := h.exists_move_of_prefix hpre
    obtain ⟨fd, env, line, rest, -, hbuffer, hrec, -⟩ := hmove.moved hvtrace
    obtain ⟨obs, hobs, -⟩ := (hu.allLinked fd).exists_session hbuffer
    have hfd : record.fd = fd := by rw [hrec, lineRecord_fd]
    refine Or.inr ⟨fd, obs, ?_, rfl, rfl, ?_, fun other hother => ?_⟩
    · rw [currentOf_eq_session, hobs]
    · simp [Obs.lineOf, Obs.handled, hfd]
    · simp [Obs.lineOf, hfd, Ne.symm hother]
  | _ => exact Or.inl ⟨rfl, fun _ => rfl⟩

/-- A connection was the open one of its descriptor, in a reachable state. -/
theorem Reachable.exists_of_mem_connections (h : Reachable s) {c : Session Fd Obs}
    (hc : c ∈ connections s.trace) :
    ∃ t : Server D, Reachable t ∧ session c.key t.trace = some c.entries := by
  obtain ⟨pre, hpre, hcurrent⟩ := exists_prefix_of_mem_sessions hc
  obtain ⟨t, ht, rfl⟩ := h.exists_of_prefix hpre
  exact ⟨t, ht, by rw [← currentOf_eq_session, hcurrent]⟩

/-! ## What is compared -/

/-- Two traces interleave the same connections.  A connection that is open at the end has
the descriptor `fd` in the one and `ρ fd` in the other. -/
structure SameConnections (ρ : Equiv.Perm Fd) (trace trace' : List Obs) : Prop where
  lines : (connectionLines trace).Perm (connectionLines trace')
  stillOpen : ∀ fd,
    (session (ρ fd) trace').map (linesOf (ρ fd)) = (session fd trace).map (linesOf fd)

/-- The device ids that lines report. -/
def reportedIds (D : Type) [CharconvDouble D] (lines : List Bytes) : List Bytes :=
  (lines.filterMap (parseStatusLine : Bytes → Option (DeviceStatus D))).map DeviceStatus.deviceId

/-- No device id is reported by two connections. -/
def Independent (D : Type) [CharconvDouble D] (trace : List Obs) : Prop :=
  (connectionLines trace).Pairwise fun lines lines' =>
    ∀ deviceId ∈ reportedIds D lines, deviceId ∉ reportedIds D lines'

instance (trace : List Obs) : Decidable (Independent D trace) :=
  inferInstanceAs (Decidable ((connectionLines trace).Pairwise fun lines lines' =>
    ∀ deviceId ∈ reportedIds D lines, deviceId ∉ reportedIds D lines'))

/-- Every call of `send` takes its whole text. -/
def AllWhole (trace : List Obs) : Prop := ∀ x ∈ trace, ∀ sent ∈ x.sends, sent.Whole

instance (trace : List Obs) : Decidable (AllWhole trace) :=
  inferInstanceAs (Decidable (∀ x ∈ trace, ∀ sent ∈ x.sends, sent.Whole))

/-- Two ACK lines that differ in `server_ms` at most. -/
def SameAck (line line' : Bytes) : Prop :=
  ∃ deviceId sequence serverMs serverMs', newline ∉ deviceId ∧
    line = ackText deviceId sequence serverMs ∧ line' = ackText deviceId sequence serverMs'

/-- Two servers end with the same store, viewers and counters, and every connection that
is no viewer has received the same ACK lines. -/
structure SameOutcome (ρ : Equiv.Perm Fd) (s s' : Server D) : Prop where
  statusStore : s'.statusStore = s.statusStore
  viewers : s'.viewerClientFds = s.viewerClientFds.map ρ.toEmbedding
  statusReceived : s'.counters.statusReceived = s.counters.statusReceived
  parseErrors : s'.counters.parseErrors = s.counters.parseErrors
  ackSent : s'.counters.ackSent = s.counters.ackSent
  acks : ∀ c ∈ connections s.trace, ∀ c' ∈ connections s'.trace,
    linesOf c.key c.entries = linesOf c'.key c'.entries → ¬ IsViewer c.key c.entries →
      ∃ acks acks', List.Forall₂ SameAck acks acks' ∧
        bytesTo c.key c.entries = acks.flatten ∧ bytesTo c'.key c'.entries = acks'.flatten

/-! ## Counters -/

/-- An entry for a line has an ACK if the line asks for one. -/
theorem Reachable.length_ackCalls_of_mem (h : Reachable s) {record : LineRecord}
    (hx : .line record ∈ s.trace) :
    record.ack.toList.length =
      (parseStatusLine record.line : Option (DeviceStatus D)).toList.countP
        DeviceStatus.ackRequested := by
  rw [h.ack_eq (D := D) hx]
  cases (parseStatusLine record.line : Option (DeviceStatus D)) with
  | none => rfl
  | some status => cases hack : status.ackRequested <;> simp [ackSends, hack]

/-- **One call of `send_ack` for each line that asks.** -/
theorem Reachable.length_ackCalls (h : Reachable s) :
    (ackCalls s.trace).length =
      (acceptedStatuses D s.trace).countP DeviceStatus.ackRequested := by
  have hmem : ∀ record, .line record ∈ s.trace → record.ack.toList.length =
      (parseStatusLine record.line : Option (DeviceStatus D)).toList.countP
        DeviceStatus.ackRequested := fun record hx => h.length_ackCalls_of_mem hx
  generalize s.trace = trace at hmem
  induction trace with
  | nil => rfl
  | cons x trace ih =>
    have hrest := ih fun record hrecord => hmem record (List.mem_cons_of_mem _ hrecord)
    have hsplit : acceptedStatuses D (x :: trace) =
        x.handled.filterMap parseStatusLine ++ acceptedStatuses D trace := by
      simp [acceptedStatuses, handledLines]
    rw [hsplit, List.countP_append, ackCalls, List.flatMap_cons, List.length_append, ← hrest]
    refine congrArg (· + _) ?_
    cases x with
    | line record =>
      show record.ack.toList.length = _
      rw [hmem record List.mem_cons_self]
      cases hparse : (parseStatusLine record.line : Option (DeviceStatus D)) <;>
        simp [Obs.handled, hparse]
    | _ => rfl

/-- Without short or failed sends `ack_sent` is the number of lines that asked. -/
theorem Reachable.ackSent_of_whole (h : Reachable s) (hwhole : AllWhole s.trace) :
    s.counters.ackSent = (acceptedStatuses D s.trace).countP DeviceStatus.ackRequested := by
  rw [← h.length_ackCalls, h.ackSent_eq.2, List.countP_eq_length]
  intro sent hsent
  obtain ⟨x, hx, hsentx⟩ := List.mem_flatMap.mp hsent
  refine sent.nonNegative_iff.mpr (Or.inl (hwhole x hx sent ?_))
  cases x with
  | line record => exact List.mem_append_left _ hsentx
  | _ => simp [Obs.ackCalls] at hsentx

/-! ## The store -/

/-- The lines that report a device. -/
def reportsDevice (D : Type) [CharconvDouble D] (deviceId line : Bytes) : Bool :=
  (parseStatusLine line : Option (DeviceStatus D)).any fun status => status.deviceId = deviceId

/-- The statuses of a device are those of the lines that report it. -/
theorem filter_acceptedStatuses (deviceId : Bytes) (trace : List Obs) :
    ((acceptedStatuses D trace).filter fun status => status.deviceId = deviceId) =
      ((handledLines trace).filter (reportsDevice D deviceId)).filterMap parseStatusLine := by
  rw [acceptedStatuses, List.filter_filterMap, List.filterMap_filter]
  refine List.filterMap_congr fun line _ => ?_
  unfold reportsDevice
  cases (parseStatusLine line : Option (DeviceStatus D)) with
  | none => rfl
  | some status => by_cases hid : status.deviceId = deviceId <;> simp [hid]

/-- Independent connections: one at most has lines that report a device. -/
theorem Independent.pairwise_filter (h : Independent D trace) (deviceId : Bytes) :
    (filteredItems Obs.lineOf (reportsDevice D deviceId) (connections trace)).Pairwise
      fun a b => a = [] ∨ b = [] := by
  have hids : ∀ lines : List Bytes, lines.filter (reportsDevice D deviceId) ≠ [] →
      deviceId ∈ reportedIds D lines := by
    intro lines hne
    obtain ⟨line, hline⟩ := List.exists_mem_of_ne_nil _ hne
    obtain ⟨hmem, hreports⟩ := List.mem_filter.mp hline
    obtain ⟨status, hstatus, hid⟩ := (Option.any_eq_true _ _).mp hreports
    exact List.mem_map.mpr ⟨status, List.mem_filterMap.mpr ⟨line, hmem, hstatus⟩,
      of_decide_eq_true hid⟩
  have hmap : filteredItems Obs.lineOf (reportsDevice D deviceId) (connections trace) =
      (connectionLines trace).map (List.filter (reportsDevice D deviceId)) :=
    (List.map_map ..).symm
  rw [hmap, List.pairwise_map]
  refine h.imp fun {a b} hdisjoint => ?_
  by_contra hboth
  obtain ⟨ha, hb⟩ := not_or.mp hboth
  exact hdisjoint deviceId (hids a ha) (hids b hb)

/-! ## Viewers -/

/-- A viewer is an open connection of which a line asked for it. -/
theorem Reachable.mem_viewerClientFds (h : Reachable s) (fd : Fd) :
    fd ∈ s.viewerClientFds ↔
      ∃ lines ∈ (session fd s.trace).map (linesOf fd), ∃ line ∈ lines, asksViewer line = true := by
  have hlinked := h.allLinked fd
  generalize session fd s.trace = o at hlinked
  cases hlinked with
  | closed hopen hbuffer htelemetry hviewer => simp [hviewer]
  | connected obs buffer hopen hbuffer htelemetry hviewer hline hbytes =>
    rw [hviewer]
    simp [IsViewer]

/-! ## ACKs -/

/-- The accepted lines that ask for an ACK. -/
def requests (D : Type) [CharconvDouble D] (lines : List Bytes) : List (DeviceStatus D) :=
  (lines.filterMap parseStatusLine).filter DeviceStatus.ackRequested

/-- The text acknowledges a status. -/
def Acknowledges (status : DeviceStatus D) (text : Bytes) : Prop :=
  ∃ serverMs, text = ackText status.deviceId status.sequence serverMs

theorem requests_append (a b : List Bytes) :
    requests D (a ++ b) = requests D a ++ requests D b := by
  simp [requests]

/-- What is sent for one entry to a connection that is no viewer. -/
theorem forall₂_expectedSends (fd : Fd) (x : Obs) :
    List.Forall₂ Acknowledges (requests D (linesOf fd [x]))
      ((expectedSends D fd false x).map Sent.text) := by
  cases x with
  | line record =>
    rw [linesOf_line]
    by_cases hfd : record.fd = fd
    · rw [if_pos hfd, expectedSends_of_own hfd]
      cases hparse : (parseStatusLine record.line : Option (DeviceStatus D)) with
      | none => simp [requests, hparse]
      | some status =>
        cases hack : status.ackRequested with
        | false => simp [requests, hparse, ackSends, hack]
        | true =>
          have hrequests : requests D [record.line] = [status] := by
            simp [requests, hparse, hack]
          rw [hrequests, Option.bind_some, ackSends, if_pos hack]
          exact .cons ⟨record.env.nowMs, rfl⟩ .nil
    · rw [if_neg hfd, expectedSends_of_other hfd]
      exact .nil
  | _ => exact .nil

/-- What is sent to a connection that never asks for the viewer role: an ACK for each of
its requests. -/
theorem forall₂_sessionSends {obs : List Obs} (hquiet : obs.any (Obs.asks fd) = false) :
    List.Forall₂ Acknowledges (requests D (linesOf fd obs))
      ((sessionSends D fd false obs).map Sent.text) := by
  induction obs with
  | nil => exact .nil
  | cons x obs ih =>
    rw [List.any_cons, Bool.or_eq_false_iff] at hquiet
    rw [sessionSends, hquiet.1, ← List.singleton_append, linesOf_append, requests_append,
      List.map_append]
    exact List.rel_append (forall₂_expectedSends fd x) (ih hquiet.2)

/-- **Requests and ACKs of a connection.**  When every send takes its whole text, a
connection that is no viewer receives one ACK for each of its requests. -/
theorem Reachable.exists_acks (h : Reachable s) (hwhole : AllWhole s.trace)
    {c : Session Fd Obs} (hc : c ∈ connections s.trace) (hviewer : ¬ IsViewer c.key c.entries) :
    ∃ acks, List.Forall₂ Acknowledges (requests D (linesOf c.key c.entries)) acks ∧
      bytesTo c.key c.entries = acks.flatten := by
  obtain ⟨t, ht, hsession⟩ := h.exists_of_mem_connections hc
  refine ⟨(sendsTo c.key c.entries).map Sent.text, ?_, ?_⟩
  · rw [ht.sendsTo_session hsession]
    rw [isViewer_iff_any, Bool.not_eq_true] at hviewer
    exact forall₂_sessionSends hviewer
  · rw [bytesTo, ← List.flatMap_def]
    refine List.flatMap_congr fun sent hsent => Sent.bytes_of_whole ?_
    obtain ⟨x, hx, hsentx⟩ := List.mem_flatMap.mp (List.mem_filter.mp hsent).1
    exact hwhole x ((entries_sublist hc).subset hx) sent hsentx

/-- The requests of a connection name devices without a newline. -/
theorem Reachable.newline_notMem_of_mem_requests (h : Reachable s) {c : Session Fd Obs}
    (hc : c ∈ connections s.trace) {status : DeviceStatus D}
    (hstatus : status ∈ requests D (linesOf c.key c.entries)) : newline ∉ status.deviceId := by
  obtain ⟨line, hline, hparse⟩ := List.mem_filterMap.mp (List.mem_filter.mp hstatus).1
  obtain ⟨t, ht, hsession⟩ := h.exists_of_mem_connections hc
  have hlinked := ht.allLinked c.key
  rw [hsession] at hlinked
  cases hlinked with
  | connected _ buffer hopen hbuffer htelemetry hviewer hframes hbytes =>
    exact newline_notMem_deviceId (hframes line hline) hparse

omit [CharconvDouble D] in
/-- ACKs for the same requests. -/
theorem forall₂_sameAck {statuses : List (DeviceStatus D)} {acks acks' : List Bytes}
    (hids : ∀ status ∈ statuses, newline ∉ status.deviceId)
    (h : List.Forall₂ Acknowledges statuses acks) (h' : List.Forall₂ Acknowledges statuses acks') :
    List.Forall₂ SameAck acks acks' := by
  induction h generalizing acks' with
  | nil =>
    cases h'
    exact .nil
  | @cons status ack statuses acks hack _ ih =>
    cases h' with
    | cons hack' hrest' =>
      obtain ⟨serverMs, rfl⟩ := hack
      obtain ⟨serverMs', rfl⟩ := hack'
      exact .cons ⟨status.deviceId, status.sequence, serverMs, serverMs',
        hids status List.mem_cons_self, rfl, rfl⟩
        (ih (fun other hother => hids other (List.mem_cons_of_mem _ hother)) hrest')

/-! ## Two runs -/

/-- **Independent clients commute.**  Two runs in which every send takes its whole text
and the same connections come, no two of which report the same device, end in the same
way, however the lines of the connections were interleaved. -/
theorem interleavings_agree {nowMs nowMs' : UInt64} {mqttBridge mqttBridge' : MqttBridge}
    {steps steps' : List LoopStep} (h : ServerRun nowMs mqttBridge steps s)
    (h' : ServerRun nowMs' mqttBridge' steps' s') {ρ : Equiv.Perm Fd}
    (hsame : SameConnections ρ s.trace s'.trace) (hindependent : Independent D s.trace)
    (hwhole : AllWhole s.trace) (hwhole' : AllWhole s'.trace) : SameOutcome ρ s s' := by
  have hcounted := h.reachable.counted
  have hcounted' := h'.reachable.counted
  have hattributed := h.reachable.attributed
  have hattributed' := h'.reachable.attributed
  have hlines : (handledLines s.trace).Perm (handledLines s'.trace) :=
    perm_of_sessions hattributed hattributed' hsame.lines
  have hstatuses : (acceptedStatuses D s.trace).Perm (acceptedStatuses D s'.trace) :=
    hlines.filterMap _
  have hreceived : s'.counters.statusReceived = s.counters.statusReceived := by
    rw [hcounted.received, hcounted'.received, hstatuses.length_eq]
  refine ⟨?_, ?_, hreceived, ?_, ?_, fun c hc c' hc' hsameLines hviewer => ?_⟩
  · refine DeviceStatusStore.ext_find fun deviceId => ?_
    have hfilter : (handledLines s.trace).filter (reportsDevice D deviceId) =
        (handledLines s'.trace).filter (reportsDevice D deviceId) :=
      filter_eq_of_sessions hattributed hattributed' hsame.lines
        (hindependent.pairwise_filter deviceId)
    rw [hcounted.find, hcounted'.find, filter_acceptedStatuses, filter_acceptedStatuses, hfilter]
  · ext fd
    obtain ⟨fd, rfl⟩ := ρ.surjective fd
    rw [h'.reachable.mem_viewerClientFds, hsame.stillOpen, ← h.reachable.mem_viewerClientFds]
    simp
  · have hhellos := hlines.countP_eq isHello
    have hcount := hcounted.lines
    have hcount' := hcounted'.lines
    have hlength := hlines.length_eq
    omega
  · rw [h.reachable.ackSent_of_whole hwhole, h'.reachable.ackSent_of_whole hwhole',
      hstatuses.countP_eq]
  · have hviewer' : ¬ IsViewer c'.key c'.entries := by rwa [IsViewer, ← hsameLines]
    obtain ⟨acks, hacks, hbytes⟩ := h.reachable.exists_acks hwhole hc hviewer
    obtain ⟨acks', hacks', hbytes'⟩ := h'.reachable.exists_acks hwhole' hc' hviewer'
    rw [← hsameLines] at hacks'
    exact ⟨acks, acks', forall₂_sameAck
      (fun status hstatus => h.reachable.newline_notMem_of_mem_requests hc hstatus) hacks hacks',
      hbytes, hbytes'⟩

/-- Three clients, of which the first two get each other's descriptors in the second run,
where the lines come in another order and in other chunks. -/
theorem interleavings_agree_swap :
    ∃ (steps steps' : List LoopStep) (s s' : Server ℤ), ServerRun 0 ⟨false⟩ steps s ∧
      ServerRun 50 ⟨true⟩ steps' s' ∧ handledLines s.trace ≠ handledLines s'.trace ∧
      s.counters.ackSent = 2 ∧ s.viewerClientFds = {6} ∧
      SameOutcome (Equiv.swap 5 6) s s' := by
  let hello := ascii "HELLO role=viewer\n"
  let first := ascii "STATUS device_id=a state=OK seq=1 ack=1\n"
  let second := ascii "STATUS device_id=a state=BUSY seq=2 ack=1\n"
  let other := ascii "STATUS device_id=b state=OK\n"
  let noise := ascii "STATUS\n"
  -- by descriptor of the first run
  let stillOpen : List (Option (List Bytes)) :=
    [none, none, none, none, none, some [first, second], some [hello], none]
  obtain ⟨s, hrun, hs⟩ := exists_serverRun
    (P := fun s : Server ℤ => handledLines s.trace = [hello, first, second, other, noise] ∧
      s.counters.ackSent = 2 ∧ s.viewerClientFds = {6} ∧
      (connectionLines s.trace).Perm [[first, second], [hello], [other, noise]] ∧
      ((List.range 8).map fun fd => (session fd s.trace).map (linesOf fd)) = stillOpen ∧
      (∀ fd ∈ s.openFds, fd < 8) ∧ Independent ℤ s.trace ∧ AllWhole s.trace)
    0 ⟨false⟩
    [ .event (.listening [⟨5, none, none⟩, ⟨6, none, none⟩, ⟨7, none, none⟩] .EAGAIN),
      .event (.client 6 [hello] (.failed .EAGAIN) fun _ => .roomy 1),
      .event (.client 5 [first, second] (.failed .EAGAIN) fun _ => .roomy 2),
      .event (.client 7 [other, noise] .closed fun _ => .roomy 3)]
    (by decide +kernel)
  obtain ⟨s', hrun', hs'⟩ := exists_serverRun
    (P := fun s : Server ℤ => handledLines s.trace = [other, first, hello, noise, second] ∧
      (connectionLines s.trace).Perm [[first, second], [hello], [other, noise]] ∧
      ((List.range 8).map fun fd =>
        (session (Equiv.swap 5 6 fd) s.trace).map (linesOf (Equiv.swap 5 6 fd))) = stillOpen ∧
      (∀ fd ∈ s.openFds, fd < 8) ∧ AllWhole s.trace)
    50 ⟨true⟩
    [ .event (.listening [⟨7, none, none⟩] .EAGAIN),
      .event (.client 7 [other, noise.take 3] (.failed .EAGAIN) fun _ => .roomy 60),
      .event (.listening [⟨6, none, none⟩, ⟨5, none, none⟩] .EAGAIN),
      .event (.client 6 [first ++ second.take 9] (.failed .EAGAIN) fun _ => .roomy 61),
      .event (.client 5 [hello] (.failed .EAGAIN) fun _ => .roomy 62),
      .event (.client 7 [noise.drop 3] .closed fun _ => .roomy 63),
      .event (.client 6 [second.drop 9] (.failed .EAGAIN) fun _ => .roomy 64)]
    (by decide +kernel)
  obtain ⟨horder, hacks, hviewers, hlines, hopen, hbound, hindependent, hwhole⟩ :=
    of_decide_eq_true hs
  obtain ⟨horder', hlines', hopen', hbound', hwhole'⟩ := of_decide_eq_true hs'
  have hsame : SameConnections (Equiv.swap 5 6) s.trace s'.trace := by
    refine ⟨hlines.trans hlines'.symm, fun fd => ?_⟩
    by_cases hfd : fd < 8
    · exact List.map_inj_left.mp (hopen'.trans hopen.symm) fd (List.mem_range.mpr hfd)
    · have hswap : Equiv.swap 5 6 fd = fd :=
        Equiv.swap_apply_of_ne_of_ne (fun h => hfd (h ▸ by decide)) fun h => hfd (h ▸ by decide)
      rw [hswap, (hrun.reachable.allLinked fd).session_eq_none fun h => hfd (hbound fd h),
        (hrun'.reachable.allLinked fd).session_eq_none fun h => hfd (hbound' fd h)]
  refine ⟨_, _, s, s', hrun, hrun', ?_, hacks, hviewers,
    interleavings_agree hrun hrun' hsame hindependent hwhole hwhole'⟩
  rw [horder, horder']
  decide +kernel

end RemoteDeviceConsole
