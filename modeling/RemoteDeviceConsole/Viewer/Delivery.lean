import RemoteDeviceConsole.Server.Outgoing
import RemoteDeviceConsole.Viewer.NetworkWorker

/-!
# From the server's `send` to the viewer's events

A `ViewerConnection` is one connection of a viewer: the descriptor the server has
for it, the entries of its session so far, and the chunks in which a prefix of the
bytes the server sent has reached the worker.  The viewer may have had any number
of connections before.

`send_line` drops the tail of a line that the socket has no room for.  As long as
nothing follows a torn line, the bytes of a connection are lines and an unfinished
tail (`exists_lines_of_not_glued`), so that every event comes from one line that
was sent (`statusReceived_authentic`).  When a line is glued to a torn one, the
viewer may show a status that no device reported (`fabricated_status`).

When every `send` takes its whole line, the events are the statuses accepted from
others and the snapshots reported, from the viewer's HELLO on, in order and once
(`viewerEvents_agree`).
-/

namespace RemoteDeviceConsole

open Framing Machine Relation

/-- One connection of a viewer. -/
structure ViewerConnection where
  fd : Fd
  obs : List Obs
  chunks : List Bytes

/-- The session is one of the trace, at some moment, and the chunks spell a prefix of
the bytes that went out on it. -/
def ViewerConnection.DeliveredIn (c : ViewerConnection) (trace : List Obs) : Prop :=
  (∃ pre, pre <+: trace ∧ session c.fd pre = some c.obs) ∧
    c.chunks.flatten <+: bytesTo c.fd c.obs

/-- What the worker has emitted, when these connections were one after another and the
last one is still open. -/
def viewerEvents (D : Type) [CharconvDouble D] (closed : List ViewerConnection)
    (last : ViewerConnection) : List (Emitted D) :=
  (NetworkWorker.run {} (NetworkWorker.viewerSignals
    (closed.map ViewerConnection.chunks) last.chunks)).emitted

variable {D : Type} [CharconvDouble D]

/-- The events are those of the connections. -/
theorem viewerEvents_eq (closed : List ViewerConnection) (last : ViewerConnection) :
    viewerEvents D closed last =
      (closed ++ [last]).flatMap fun c => NetworkWorker.connectionEvents c.chunks := by
  rw [viewerEvents, NetworkWorker.emitted_run_viewerSignals, ← List.map_singleton,
    ← List.map_append, List.flatMap_map]

/-! ## Torn lines -/

/-- A `send` that took some of its text but not all. -/
def Sent.Torn (sent : Sent) : Prop :=
  ∃ n, sent.result = .room n ∧ 0 < n ∧ n < sent.text.length

instance (sent : Sent) : Decidable sent.Torn :=
  match h : sent.result with
  | .room n => decidable_of_iff (0 < n ∧ n < sent.text.length) (by simp [Sent.Torn, h])
  | .failed _ => isFalse (by simp [Sent.Torn, h])

/-- Nothing goes out behind a torn line. -/
def NotGlued (sends : List Sent) : Prop :=
  sends.Pairwise fun earlier later => earlier.Torn → later.bytes = []

instance (sends : List Sent) : Decidable (NotGlued sends) :=
  inferInstanceAs (Decidable (sends.Pairwise fun earlier later => earlier.Torn → later.bytes = []))

omit [CharconvDouble D] in
theorem Sent.whole_or_torn_or_nil (sent : Sent) : sent.Whole ∨ sent.Torn ∨ sent.bytes = [] := by
  cases hresult : sent.result with
  | failed errno => exact Or.inr (Or.inr (by simp [Sent.bytes, hresult]))
  | room n =>
    by_cases hwhole : sent.text.length ≤ n
    · exact Or.inl ⟨n, hresult, hwhole⟩
    · by_cases hzero : n = 0
      · exact Or.inr (Or.inr (by simp [Sent.bytes, hresult, hzero]))
      · exact Or.inr (Or.inl ⟨n, hresult, by omega, by omega⟩)

/-- A torn line has lost its newline. -/
theorem newline_notMem_of_torn {sent : Sent} (hline : IsFrame newline sent.text)
    (h : sent.Torn) : newline ∉ sent.bytes := by
  obtain ⟨n, hresult, -, hlt⟩ := h
  obtain ⟨body, hbody, htext⟩ := hline
  rw [htext, List.length_append, List.length_singleton] at hlt
  rw [Sent.bytes, hresult, htext]
  show newline ∉ (body ++ [newline]).take n
  rw [List.take_append_of_le_length (by omega)]
  exact fun hmem => hbody (List.mem_of_mem_take hmem)

/-- **Without gluing the bytes are lines and a tail.** -/
theorem exists_lines_of_not_glued {sends : List Sent} (h : NotGlued sends)
    (hlines : ∀ sent ∈ sends, IsFrame newline sent.text) :
    ∃ (whole : List Sent) (tail : Bytes), sends.flatMap Sent.bytes =
      (whole.map Sent.text).flatten ++ tail ∧ newline ∉ tail ∧ whole ⊆ sends := by
  induction sends with
  | nil => exact ⟨[], [], rfl, by simp, by simp⟩
  | cons sent sends ih =>
    rw [NotGlued, List.pairwise_cons] at h
    have hrest : ∀ other ∈ sends, IsFrame newline other.text := fun other hother =>
      hlines other (by simp [hother])
    obtain ⟨whole, tail, hbytes, htail, hsub⟩ := ih h.2 hrest
    rcases sent.whole_or_torn_or_nil with hwhole | htorn | hnil
    · refine ⟨sent :: whole, tail, ?_, htail, ?_⟩
      · simp [hbytes, Sent.bytes_of_whole hwhole]
      · exact List.cons_subset_cons sent hsub
    · -- the torn line is the tail, and what follows it is empty
      have hempty : sends.flatMap Sent.bytes = [] := by
        rw [List.flatMap_eq_nil_iff]
        exact fun other hother => h.1 other hother htorn
      exact ⟨[], sent.bytes, by simp [hempty],
        newline_notMem_of_torn (hlines sent (by simp)) htorn, by simp⟩
    · exact ⟨whole, tail, by simp [hnil, hbytes], htail, List.subset_cons_of_subset sent hsub⟩

/-- The lines that arrive are lines that were sent whole. -/
theorem exists_sent_of_mem_frames {sends : List Sent} (h : NotGlued sends)
    (hlines : ∀ sent ∈ sends, IsFrame newline sent.text) {delivered : Bytes}
    (hdelivered : delivered <+: sends.flatMap Sent.bytes) {line : Bytes}
    (hline : line ∈ frames newline delivered) : ∃ sent ∈ sends, sent.text = line := by
  obtain ⟨whole, tail, hbytes, htail, hsub⟩ := exists_lines_of_not_glued h hlines
  have hmem := (frames_of_isPrefix hdelivered).subset hline
  have hwhole : ∀ text ∈ whole.map Sent.text, IsFrame newline text := by
    intro text htext
    obtain ⟨sent, hsent, rfl⟩ := List.mem_map.mp htext
    exact hlines sent (hsub hsent)
  rw [hbytes, frames_flatten_append hwhole, frames_of_notMem htail, List.append_nil] at hmem
  obtain ⟨sent, hsent, htext⟩ := List.mem_map.mp hmem
  exact ⟨sent, hsub hsent, htext⟩

/-! ## Events of the lines that are sent -/

theorem parse_of_statusReceived_mem {line : Bytes} {status : DeviceStatus D}
    (h : .statusReceived status ∈ emittedLine line) : parseStatusLine line = some status := by
  unfold emittedLine at h
  split at h
  · simp at h
  · split at h
    · next parsed hparse =>
      have hstatus : status = parsed := by simpa using h
      rw [hparse, hstatus]
    · simp at h

/-- A line that starts with another letter than the two kinds is not for the viewer. -/
theorem emittedLine_of_head {line : Bytes} {b : UInt8} (h : line.head? = some b) (hm : b ≠ 77)
    (hs : b ≠ 83) : (emittedLine line : List (Emitted D)) = [] := by
  have hmetrics : startsWith line (ascii "METRICS ") = false := by
    by_contra hyes
    rw [Bool.not_eq_false] at hyes
    obtain ⟨rest, rfl⟩ := startsWith_iff.mp hyes
    exact hm (Option.some.inj h).symm
  rw [emittedLine, hmetrics, parseStatusLine_eq_none_of_head h hs]
  rfl

theorem emittedLine_ackText (deviceId : Bytes) (sequence serverMs : UInt64) :
    (emittedLine (ackText deviceId sequence serverMs) : List (Emitted D)) = [] :=
  emittedLine_of_head (b := 65) rfl (by decide) (by decide)

/-- A re-broadcast line is parsed to the same status again. -/
theorem emittedLine_status {line : Bytes} {status : DeviceStatus D}
    (h : parseStatusLine line = some status) : emittedLine line = [.statusReceived status] := by
  have hmetrics : startsWith line (ascii "METRICS ") = false := by
    by_contra hyes
    rw [Bool.not_eq_false] at hyes
    obtain ⟨rest, rfl⟩ := startsWith_iff.mp hyes
    rw [parseStatusLine_eq_none_of_head (b := 77) rfl (by decide)] at h
    exact absurd h (by simp)
  rw [emittedLine, hmetrics, h]
  rfl

theorem startsWith_formatMetricsLine (metrics : ServerMetrics) :
    startsWith (formatMetricsLine metrics) (ascii "METRICS ") = true := by
  have hword : ascii "METRICS " = ServerMetrics.kMetricsPrefix ++ [space] := by decide
  obtain ⟨tail, htail⟩ := exists_formatMetricsLine_eq metrics
  rw [startsWith_iff, htail, hword]
  exact ⟨tail, by simp⟩

theorem emittedLine_metrics (metrics : ServerMetrics) :
    (emittedLine (formatMetricsLine metrics) : List (Emitted D)) =
      [.metricsReceived (formatMetricsLine metrics)] := by
  rw [emittedLine, startsWith_formatMetricsLine]
  rfl

/-- **The METRICS codec.**  On every snapshot the decoder inverts the encoder, so no two
snapshots have the same line.  The line has one newline, at its end, and the first word
`METRICS`, and the worker takes it for one METRICS line. -/
theorem formatMetricsLine_codec :
    (∀ metrics, parseMetricsLine (formatMetricsLine metrics) = some metrics) ∧
    Function.Injective formatMetricsLine ∧
    ∀ metrics, (formatMetricsLine metrics).count newline = 1 ∧
      (formatMetricsLine metrics).getLast? = some newline ∧
      startsWith (formatMetricsLine metrics) (ascii "METRICS ") = true ∧
      ∀ (written : List Bytes) (emitted : List (Emitted D)),
        NetworkWorker.handle ⟨[], written, emitted⟩ (.readyRead (formatMetricsLine metrics)) =
          ⟨[], written, emitted ++ [.metricsReceived (formatMetricsLine metrics)]⟩ := by
  refine ⟨parseMetricsLine_formatMetricsLine, fun m m' h => ?_, fun metrics => ?_⟩
  · have hparse := congrArg parseMetricsLine h
    rw [parseMetricsLine_formatMetricsLine, parseMetricsLine_formatMetricsLine] at hparse
    exact Option.some.inj hparse
  · have hline := isFrame_formatMetricsLine metrics
    refine ⟨hline.count, hline.getLast?, startsWith_formatMetricsLine metrics, ?_⟩
    intro written emitted
    have hframes := frames_frame_append hline []
    have hrest := remainder_frame_append hline []
    rw [List.append_nil, frames_nil] at hframes
    rw [List.append_nil, remainder_nil] at hrest
    rw [NetworkWorker.handle_readyRead, List.nil_append, hframes, hrest]
    simp [emittedLine_metrics]

/-! ## No fabricated status -/

/-- **Where an emitted status comes from.**  When nothing follows a torn line on the
connections of the viewer, every status the worker emits is the parse of a line
that the server accepted and broadcast to the viewer. -/
theorem statusReceived_authentic {nowMs : UInt64} {mqttBridge : MqttBridge}
    {steps : List LoopStep} {s : Server D} (h : ServerRun nowMs mqttBridge steps s)
    {closed : List ViewerConnection} {last : ViewerConnection}
    (hconns : ∀ c ∈ closed ++ [last], c.DeliveredIn s.trace)
    (hglue : ∀ c ∈ closed ++ [last], NotGlued (sendsTo c.fd c.obs)) (status : DeviceStatus D)
    (hstatus : .statusReceived status ∈ viewerEvents D closed last) :
    ∃ c ∈ closed ++ [last], ∃ record, .line record ∈ s.trace ∧
      (∃ sent ∈ record.broadcast, sent.fd = c.fd) ∧
      parseStatusLine record.line = some status := by
  rw [viewerEvents_eq] at hstatus
  obtain ⟨c, hc, hevent⟩ := List.mem_flatMap.mp hstatus
  obtain ⟨line, hline, hemitted⟩ := List.mem_flatMap.mp hevent
  obtain ⟨⟨pre, hpre, hsession⟩, hdelivered⟩ := hconns c hc
  have hwire : ∀ sent ∈ sendsTo c.fd c.obs, WireLine D s.trace sent ∧ sent.fd = c.fd :=
    fun sent hsent => h.reachable.wireLine_of_mem_sendsTo hpre hsession hsent
  obtain ⟨sent, hsent, rfl⟩ := exists_sent_of_mem_frames (hglue c hc)
    (fun sent hsent => (hwire sent hsent).1.isFrame) hdelivered hline
  refine ⟨c, hc, ?_⟩
  obtain ⟨hkind, hfd⟩ := hwire sent hsent
  cases hkind with
  | ack deviceId sequence serverMs hid htext =>
    rw [htext, emittedLine_ackText] at hemitted
    simp at hemitted
  | metrics record hrecord htext =>
    rw [htext, emittedLine_metrics] at hemitted
    simp at hemitted
  | status record accepted hrecord hbroadcast htext hframe hparse =>
    rw [htext] at hemitted
    exact ⟨record, hrecord, ⟨sent, hbroadcast, hfd⟩, parse_of_statusReceived_mem hemitted⟩

/-- Two lines of device `a` go out whole, then the line of device `b` is cut behind its
twentieth byte, and nothing follows it.  The worker emits the two statuses of `a`, each of
them the parse of an accepted line, and none of `b`. -/
theorem statusReceived_authentic_torn :
    ∃ (steps : List LoopStep) (s : Server ℤ) (c : ViewerConnection) (status : DeviceStatus ℤ),
      ServerRun 0 ⟨false⟩ steps s ∧ c.DeliveredIn s.trace ∧
      (∃ torn ∈ sendsTo c.fd c.obs, torn.Torn) ∧ (viewerEvents ℤ [] c).length = 2 ∧
      .statusReceived status ∈ viewerEvents ℤ [] c ∧ status.batteryPercent = 49 ∧
      ∃ record, .line record ∈ s.trace ∧ parseStatusLine record.line = some status := by
  let second : DeviceStatus ℤ := { (DeviceStatus.default : DeviceStatus ℤ) with
    deviceId := ascii "a", state := ascii "OK", batteryPercent := 49 }
  obtain ⟨s, hrun, hs⟩ := exists_serverRun
    (P := fun s : Server ℤ => (session 5 s.trace).any fun obs =>
      NotGlued (sendsTo 5 obs) ∧ (∃ torn ∈ sendsTo 5 obs, torn.Torn) ∧
      (viewerEvents ℤ [] ⟨5, obs, [bytesTo 5 obs]⟩).length = 2 ∧
      .statusReceived second ∈ viewerEvents ℤ [] ⟨5, obs, [bytesTo 5 obs]⟩) 0 ⟨false⟩
    [ .event (.listening [⟨5, none, none⟩, ⟨6, none, none⟩, ⟨7, none, none⟩] .EAGAIN),
      .event (.client 5 [ascii "HELLO role=viewer\n"] (.failed .EAGAIN) fun _ => .roomy 1),
      .event (.client 6 [ascii "STATUS device_id=a battery=50 state=OK\n",
        ascii "STATUS device_id=a battery=49 state=OK\n"] (.failed .EAGAIN) fun _ => .roomy 2),
      .event (.client 7 [ascii "STATUS device_id=b battery=80 state=OK\n"] (.failed .EAGAIN)
        fun _ => ⟨3, .room 1000, fun _ => .room 20, .increasing⟩)]
    (by decide +kernel)
  obtain ⟨obs, hsession, hobs⟩ := (Option.any_eq_true _ _).mp hs
  obtain ⟨hglue, htorn, hlength, hstatus⟩ := of_decide_eq_true hobs
  have hdelivered : (⟨5, obs, [bytesTo 5 obs]⟩ : ViewerConnection).DeliveredIn s.trace :=
    ⟨⟨s.trace, List.prefix_rfl, hsession⟩, by simp⟩
  refine ⟨_, s, _, _, hrun, hdelivered, htorn, hlength, hstatus, rfl, ?_⟩
  obtain ⟨c, -, record, hrecord, -, hparse⟩ := statusReceived_authentic hrun
    (by simpa using hdelivered) (by simpa using hglue) _ hstatus
  exact ⟨record, hrecord, hparse⟩

/-- **A fabricated status.**  The line of device `a` is cut behind `state=O`, the line of
device `b` follows it, and the worker emits a status of `b` with the battery of `a`. -/
theorem fabricated_status :
    ∃ (steps : List LoopStep) (s : Server ℤ) (c : ViewerConnection) (status : DeviceStatus ℤ),
      ServerRun 0 ⟨false⟩ steps s ∧ c.DeliveredIn s.trace ∧
      .statusReceived status ∈ viewerEvents ℤ [] c ∧
      ¬ ∃ record, .line record ∈ s.trace ∧ parseStatusLine record.line = some status := by
  let forged : DeviceStatus ℤ := { (DeviceStatus.default : DeviceStatus ℤ) with
    deviceId := ascii "b", state := ascii "OK", batteryPercent := 50 }
  obtain ⟨s, hrun, hs⟩ := exists_serverRun
    (P := fun s : Server ℤ =>
      ((session 5 s.trace).any fun obs =>
        .statusReceived forged ∈ viewerEvents ℤ [] ⟨5, obs, [bytesTo 5 obs]⟩) ∧
      ∀ line ∈ handledLines s.trace, parseStatusLine line ≠ some forged) 0 ⟨false⟩
    [ .event (.listening [⟨5, none, none⟩, ⟨6, none, none⟩, ⟨7, none, none⟩] .EAGAIN),
      .event (.client 5 [ascii "HELLO role=viewer\n"] (.failed .EAGAIN) fun _ => .roomy 1),
      .event (.client 6 [ascii "STATUS device_id=a battery=50 state=OK\n"] (.failed .EAGAIN)
        fun _ => ⟨2, .room 1000, fun _ => .room 37, .increasing⟩),
      .event (.client 7 [ascii "STATUS device_id=b state=OK\n"] (.failed .EAGAIN)
        fun _ => .roomy 3)]
    (by decide +kernel)
  obtain ⟨hevent, hlines⟩ := of_decide_eq_true hs
  obtain ⟨obs, hsession, hobs⟩ := (Option.any_eq_true _ _).mp hevent
  refine ⟨_, s, ⟨5, obs, [bytesTo 5 obs]⟩, forged, hrun,
    ⟨⟨s.trace, List.prefix_rfl, hsession⟩, by simp⟩, of_decide_eq_true hobs, ?_⟩
  rintro ⟨record, hrecord, hparse⟩
  exact hlines record.line (List.mem_flatMap.mpr ⟨_, hrecord, by simp [Obs.handled]⟩) hparse

/-! ## Agreement when the sends are complete -/

/-- The events that one entry of the trace is for the connection on `fd`: a status
accepted from another connection, or a snapshot, once it is a viewer. -/
def expectedEvents (fd : Fd) (viewer : Bool) : Obs → List (Emitted D)
  | .line record =>
      if viewer ∧ record.fd ≠ fd then
        match parseStatusLine record.line with
        | some status => [.statusReceived status]
        | none => []
      else []
  | .report record =>
      if viewer then [.metricsReceived (formatMetricsLine record.metrics)] else []
  | _ => []

/-- The events of a session, from the line on that asks for the viewer role. -/
def sessionEvents (fd : Fd) (viewer : Bool) : List Obs → List (Emitted D)
  | [] => []
  | x :: obs => expectedEvents fd viewer x ++ sessionEvents fd (viewer || x.asks fd) obs

theorem flatMap_expectedSends (fd : Fd) (viewer : Bool) (x : Obs) :
    ((expectedSends D fd viewer x).flatMap fun sent => emittedLine sent.text) =
      (expectedEvents fd viewer x : List (Emitted D)) := by
  cases x with
  | line record =>
    cases hkind : (lineKind record.line : LineKind D) with
    | hello asks =>
      have hnone : (parseStatusLine record.line : Option (DeviceStatus D)) = none :=
        parseStatusLine_eq_none_of_lineKind fun status => by simp [hkind]
      simp [expectedSends, expectedEvents, hkind, hnone]
    | rejected =>
      have hnone : (parseStatusLine record.line : Option (DeviceStatus D)) = none :=
        parseStatusLine_eq_none_of_lineKind fun status => by simp [hkind]
      simp [expectedSends, expectedEvents, hkind, hnone]
    | accepted status =>
      have hparse := lineKind_eq_accepted.mp hkind
      simp only [expectedSends, expectedEvents, hkind, hparse]
      by_cases hfd : record.fd = fd
      · -- the ACK of an own line is no event
        cases hrequest : status.ackRequested <;>
          simp [hfd, ackSends, hrequest, emittedLine_ackText]
      · cases viewer <;> simp [hfd, emittedLine_status hparse]
  | report record => cases viewer <;> simp [expectedSends, expectedEvents, emittedLine_metrics]
  | accepted fd' => rfl
  | received fd' data => rfl
  | disconnected fd' => rfl
  | unknown fd' => rfl

theorem flatMap_sessionSends (fd : Fd) (viewer : Bool) (obs : List Obs) :
    ((sessionSends D fd viewer obs).flatMap fun sent => emittedLine sent.text) =
      (sessionEvents fd viewer obs : List (Emitted D)) := by
  induction obs generalizing viewer with
  | nil => rfl
  | cons x obs ih =>
    rw [sessionSends, sessionEvents, List.flatMap_append, flatMap_expectedSends, ih]

/-- An entry makes at most one call to a connection. -/
theorem length_expectedSends_le (fd : Fd) (viewer : Bool) (x : Obs) :
    (expectedSends D fd viewer x).length ≤ 1 := by
  cases x with
  | line record =>
    rw [expectedSends]
    split
    · split
      · unfold ackSends
        split <;> simp
      · split <;> simp
    · simp
  | report record => rw [expectedSends]; split <;> simp
  | _ => simp [expectedSends]

/-- The first calls of a session are the calls of its first entries. -/
theorem exists_sessionSends_eq_take (fd : Fd) (viewer : Bool) (obs : List Obs) {n : ℕ}
    (hn : n ≤ (sessionSends D fd viewer obs).length) :
    ∃ done rest, obs = done ++ rest ∧
      sessionSends D fd viewer done = (sessionSends D fd viewer obs).take n := by
  induction obs generalizing viewer n with
  | nil => exact ⟨[], [], rfl, by simp [sessionSends]⟩
  | cons x obs ih =>
    by_cases hzero : n = 0
    · exact ⟨[], x :: obs, rfl, by simp [hzero, sessionSends]⟩
    · have hone := length_expectedSends_le (D := D) fd viewer x
      rw [sessionSends, List.length_append] at hn
      obtain ⟨done, rest, hobs, hdone⟩ :=
        @ih (viewer || x.asks fd) (n - (expectedSends D fd viewer x).length) (by omega)
      have hfirst : (expectedSends D fd viewer x).take n = expectedSends D fd viewer x :=
        List.take_of_length_le (by omega)
      refine ⟨x :: done, rest, by rw [hobs]; rfl, ?_⟩
      simp only [sessionSends]
      rw [hdone, List.take_append, hfirst]

/-- What one connection has shown agrees with what the server did: the events are
those of the entries whose bytes have all arrived, and no complete line of the
others has. -/
structure Agrees (c : ViewerConnection) (events : List (Emitted D)) : Prop where
  upTo : ∃ done rest tail, c.obs = done ++ rest ∧ c.chunks.flatten = bytesTo c.fd done ++ tail ∧
    tail <+: bytesTo c.fd rest ∧ newline ∉ tail ∧ events = sessionEvents c.fd false done
  all : c.chunks.flatten = bytesTo c.fd c.obs → events = sessionEvents c.fd false c.obs

omit [CharconvDouble D] in
theorem flatMap_bytes_of_whole {sends : List Sent} (h : ∀ sent ∈ sends, sent.Whole) :
    sends.flatMap Sent.bytes = (sends.map Sent.text).flatten := by
  rw [List.flatMap_def, List.map_congr_left fun sent hsent => Sent.bytes_of_whole (h sent hsent)]

/-- One connection with complete sends. -/
theorem agrees_connectionEvents {s : Server D} (h : Reachable s) {c : ViewerConnection}
    (hc : c.DeliveredIn s.trace) (hwhole : ∀ sent ∈ sendsTo c.fd c.obs, sent.Whole) :
    Agrees c (NetworkWorker.connectionEvents c.chunks : List (Emitted D)) := by
  obtain ⟨⟨pre, hpre, hsession⟩, hdelivered⟩ := hc
  have hframes : ∀ text ∈ (sendsTo c.fd c.obs).map Sent.text, IsFrame newline text := by
    intro text htext
    obtain ⟨sent, hsent, rfl⟩ := List.mem_map.mp htext
    exact (h.wireLine_of_mem_sendsTo hpre hsession hsent).1.isFrame
  have hsends : sendsTo c.fd c.obs = sessionSends D c.fd false c.obs := by
    obtain ⟨t, ht, htrace⟩ := h.exists_of_prefix hpre
    exact ht.sendsTo_session (htrace ▸ hsession)
  have hbytes : bytesTo c.fd c.obs = ((sendsTo c.fd c.obs).map Sent.text).flatten :=
    flatMap_bytes_of_whole hwhole
  rw [hbytes] at hdelivered
  obtain ⟨n, hn, htake, hsplit⟩ := exists_take_of_prefix_flatten hframes hdelivered
  have hevents : ∀ sends : List Sent, (sends.map Sent.text).flatMap emittedLine =
      (sends.flatMap fun sent => emittedLine sent.text : List (Emitted D)) := fun sends =>
    List.flatMap_map ..
  constructor
  · rw [List.length_map, hsends] at hn
    obtain ⟨done, rest, hobs, hdone⟩ := exists_sessionSends_eq_take c.fd false c.obs hn
    obtain ⟨pre', hpre', hsession'⟩ := exists_session_of_append (hobs ▸ hsession)
    obtain ⟨t, ht, htrace⟩ := h.exists_of_prefix (hpre'.trans hpre)
    have hsends' : sendsTo c.fd done = sessionSends D c.fd false done :=
      ht.sendsTo_session (htrace ▸ hsession')
    have hfirst : sendsTo c.fd done = (sendsTo c.fd c.obs).take n := by
      rw [hsends', hdone, hsends]
    have hbytes' : bytesTo c.fd done = (((sendsTo c.fd c.obs).map Sent.text).take n).flatten := by
      rw [← List.map_take, ← hfirst]
      refine flatMap_bytes_of_whole fun sent hsent => hwhole sent ?_
      rw [hfirst] at hsent
      exact List.mem_of_mem_take hsent
    refine ⟨done, rest, remainder newline c.chunks.flatten, hobs, ?_, ?_, notMem_remainder _ _, ?_⟩
    · rw [hbytes']
      exact hsplit
    · rw [← hbytes, hobs, bytesTo_append, hsplit, ← hbytes'] at hdelivered
      exact (List.prefix_append_right_inj _).mp hdelivered
    · rw [NetworkWorker.connectionEvents, htake, ← List.map_take, ← hfirst, hevents, hsends',
        flatMap_sessionSends]
  · intro hall
    rw [NetworkWorker.connectionEvents, hall, hbytes, frames_flatten hframes, hevents, hsends,
      flatMap_sessionSends]

/-- **Agreement.**  When every `send` to the connections of a viewer takes its whole
line, the worker emits for each connection, in order and once, the statuses the
server accepted from other connections and the snapshots it reported since the
viewer's HELLO was handled, as far as their bytes have arrived; and nothing else. -/
theorem viewerEvents_agree {nowMs : UInt64} {mqttBridge : MqttBridge} {steps : List LoopStep}
    {s : Server D} (h : ServerRun nowMs mqttBridge steps s) {closed : List ViewerConnection}
    {last : ViewerConnection} (hconns : ∀ c ∈ closed ++ [last], c.DeliveredIn s.trace)
    (hwhole : ∀ c ∈ closed ++ [last], ∀ sent ∈ sendsTo c.fd c.obs, sent.Whole) :
    ∃ pieces : List (List (Emitted D)), viewerEvents D closed last = pieces.flatten ∧
      List.Forall₂ Agrees (closed ++ [last]) pieces := by
  refine ⟨(closed ++ [last]).map fun c => NetworkWorker.connectionEvents c.chunks, ?_, ?_⟩
  · rw [viewerEvents_eq, List.flatMap_def]
  · rw [List.forall₂_map_right_iff, List.forall₂_same]
    intro c hc
    exact agrees_connectionEvents h.reachable (hconns c hc) (hwhole c hc)

/-- A viewer leaves after a status, comes back on the same descriptor and sees a snapshot;
its two connections show one event each. -/
theorem viewerEvents_agree_reconnect :
    ∃ (steps : List LoopStep) (s : Server ℤ) (first second : ViewerConnection)
      (pieces : List (List (Emitted ℤ))), ServerRun 0 ⟨false⟩ steps s ∧
      first.fd = second.fd ∧ (viewerEvents ℤ [first] second).length = 2 ∧
      viewerEvents ℤ [first] second = pieces.flatten ∧
      List.Forall₂ Agrees [first, second] pieces := by
  let line : Bytes := ascii "STATUS device_id=a state=OK\n"
  let hello : Bytes := ascii "HELLO role=viewer\n"
  obtain ⟨s, hrun, hs⟩ := exists_serverRun
    (P := fun s : Server ℤ =>
      (session 5 (s.trace.take 6)).any fun obs => (session 5 s.trace).any fun obs' =>
        (∀ sent ∈ sendsTo 5 obs, sent.Whole) ∧ (∀ sent ∈ sendsTo 5 obs', sent.Whole) ∧
        (viewerEvents ℤ [⟨5, obs, [bytesTo 5 obs]⟩] ⟨5, obs', [bytesTo 5 obs']⟩).length = 2)
    0 ⟨false⟩
    [ .event (.listening [⟨5, none, none⟩, ⟨6, none, none⟩] .EAGAIN),
      .event (.client 5 [hello] (.failed .EAGAIN) fun _ => .roomy 1),
      .event (.client 6 [line] (.failed .EAGAIN) fun _ => .roomy 2),
      .event (.client 5 [] .closed fun _ => .roomy 3),
      .event (.listening [⟨5, none, none⟩] .EAGAIN),
      .event (.client 5 [hello] (.failed .EAGAIN) fun _ => .roomy 4),
      .report (.roomy 10000)]
    (by decide +kernel)
  obtain ⟨obs, hsession, hobs⟩ := (Option.any_eq_true _ _).mp hs
  obtain ⟨obs', hsession', hobs'⟩ := (Option.any_eq_true _ _).mp hobs
  obtain ⟨hfirst, hsecond, hlength⟩ := of_decide_eq_true hobs'
  have hconns : ∀ c ∈ [(⟨5, obs, [bytesTo 5 obs]⟩ : ViewerConnection)] ++
      [⟨5, obs', [bytesTo 5 obs']⟩], c.DeliveredIn s.trace := by
    intro c hc
    rcases List.mem_pair.mp hc with rfl | rfl
    · exact ⟨⟨s.trace.take 6, List.take_prefix _ _, hsession⟩, by simp⟩
    · exact ⟨⟨s.trace, List.prefix_rfl, hsession'⟩, by simp⟩
  obtain ⟨pieces, hevents, hagrees⟩ := viewerEvents_agree hrun hconns (by
    intro c hc
    rcases List.mem_pair.mp hc with rfl | rfl
    · exact hfirst
    · exact hsecond)
  exact ⟨_, s, ⟨5, obs, [bytesTo 5 obs]⟩, ⟨5, obs', [bytesTo 5 obs']⟩, pieces, hrun, rfl,
    hlength, hevents, hagrees⟩

end RemoteDeviceConsole
