import RemoteDeviceConsole.Server.EventLoop

/-!
# What the server can do at once

A step of the loop handles a whole event: many clients accepted, many chunks
received, many lines handled.  This file cuts it into moves, each of which writes
one entry of the trace: `Move` lists them, with their guards and the states they
lead to, and `reflTransGen_of_loopStep` says that every step of the loop is a
path of moves.  An invariant of the server is proved once for each move; whole
runs and every moment inside a step then have it (`exists_reachable_of_prefix`).

The one move with cases is the handling of a line.  `lineKind` says which of the
four kinds of line it is, and `handleLine_hello`, `handleLine_rejected` and
`handleLine_accepted` say what the server does with each.
-/

namespace RemoteDeviceConsole

open Framing Machine Relation

variable {D : Type}

/-! ## Broadcasting -/

/-- The calls of `send` of one broadcast. -/
def viewerSends (order : IterationOrder Fd) (answer : Fd → SendResult) (viewers : Finset Fd)
    (sourceFd : ℤ) (line : Bytes) : List Sent :=
  ((order.toList viewers).filter fun v : Fd => (v : ℤ) ≠ sourceFd).map fun v => ⟨v, line, answer v⟩

/-- The calls that failed with an error other than `EAGAIN`. -/
def hardErrors (sends : List Sent) : ℕ := sends.countP fun sent => sent.result.hardError

@[simp] theorem hardErrors_nil : hardErrors [] = 0 := rfl

theorem sendLine_eq (fd : Fd) (line : Bytes) (result : SendResult) (counters : ServerCounters) :
    sendLine fd line result counters =
      (result.nonNegative,
        { counters with
          broadcastErrors := counters.broadcastErrors + hardErrors [⟨fd, line, result⟩] },
        ⟨fd, line, result⟩) := by
  cases result with
  | room n => rfl
  | failed e =>
    cases he : e.wouldBlock with
    | true => simp [sendLine, SendResult.hardError, he, hardErrors]
    | false => simp [sendLine, SendResult.hardError, SendResult.nonNegative, he, hardErrors]

/-- **A broadcast**: the counters and the calls it makes. -/
theorem broadcastToViewers_eq (order : IterationOrder Fd) (answer : Fd → SendResult)
    (viewers : Finset Fd) (sourceFd : ℤ) (line : Bytes) (counters : ServerCounters) :
    broadcastToViewers order answer viewers sourceFd line counters =
      ({ counters with
          broadcastErrors := counters.broadcastErrors +
            hardErrors (viewerSends order answer viewers sourceFd line) },
        viewerSends order answer viewers sourceFd line) := by
  -- the loop has made some calls already when it comes to the rest of the viewers
  suffices key : ∀ (fds : List Fd) (counters : ServerCounters) (sends : List Sent),
      fds.foldl (broadcastStep answer sourceFd line) (counters, sends) =
        ({ counters with
            broadcastErrors := counters.broadcastErrors +
              hardErrors ((fds.filter fun v : Fd => (v : ℤ) ≠ sourceFd).map
                fun v => ⟨v, line, answer v⟩) },
          sends ++ (fds.filter fun v : Fd => (v : ℤ) ≠ sourceFd).map
            fun v => ⟨v, line, answer v⟩) by
    have hall := key (order.toList viewers) counters []
    rw [List.nil_append] at hall
    exact hall
  intro fds
  induction fds with
  | nil => simp
  | cons fd fds ih =>
    intro counters sends
    rw [List.foldl_cons]
    by_cases hfd : (fd : ℤ) = sourceFd
    · rw [broadcastStep, if_pos hfd, ih]
      simp [hfd]
    · simp only [broadcastStep, if_neg hfd, sendLine_eq]
      rw [ih]
      simp [hfd, hardErrors, List.countP_cons, Nat.add_assoc, Nat.add_comm]

/-- Each viewer but the source gets one call. -/
theorem filter_viewerSends (order : IterationOrder Fd) (answer : Fd → SendResult)
    (viewers : Finset Fd) (sourceFd : ℤ) (line : Bytes) (fd : Fd) :
    (viewerSends order answer viewers sourceFd line).filter (fun sent => sent.fd = fd) =
      if fd ∈ viewers ∧ (fd : ℤ) ≠ sourceFd then [⟨fd, line, answer fd⟩] else [] := by
  rw [viewerSends, List.filter_map, List.filter_filter]
  have hsplit : (order.toList viewers).filter
      (fun v : Fd => (((fun sent : Sent => decide (sent.fd = fd)) ∘
        fun v => ⟨v, line, answer v⟩) v && decide ((v : ℤ) ≠ sourceFd))) =
      ((order.toList viewers).filter (· = fd)).filter fun v : Fd => (v : ℤ) ≠ sourceFd := by
    rw [List.filter_filter]
    refine List.filter_congr fun v _ => ?_
    simp [Bool.and_comm]
  rw [hsplit, List.filter_eq, (order.nodup_toList viewers).count]
  by_cases hfd : fd ∈ viewers
  · by_cases hs : (fd : ℤ) = sourceFd
    · simp [hfd, hs]
    · simp [hfd, hs]
  · simp [hfd]

theorem fd_mem_of_mem_viewerSends {order : IterationOrder Fd} {answer : Fd → SendResult}
    {viewers : Finset Fd} {sourceFd : ℤ} {line : Bytes} {sent : Sent}
    (h : sent ∈ viewerSends order answer viewers sourceFd line) :
    sent.fd ∈ viewers ∧ (sent.fd : ℤ) ≠ sourceFd ∧ sent = ⟨sent.fd, line, answer sent.fd⟩ := by
  obtain ⟨v, hv, rfl⟩ := List.mem_map.mp h
  rw [List.mem_filter, IterationOrder.mem_toList] at hv
  exact ⟨hv.1, by simpa using hv.2, rfl⟩

/-- A report goes to every viewer. -/
theorem map_fd_viewerSends_report (order : IterationOrder Fd) (answer : Fd → SendResult)
    (viewers : Finset Fd) (line : Bytes) :
    (viewerSends order answer viewers (-1) line).map Sent.fd = order.toList viewers := by
  have hall : ∀ v ∈ order.toList viewers, decide ((v : ℤ) ≠ -1) = true := fun v _ => by
    simp only [decide_eq_true_eq]
    omega
  rw [viewerSends, List.filter_eq_self.mpr hall, List.map_map]
  exact List.map_id _

/-! ## The handling of a line -/

/-- What a complete line is to the server. -/
inductive LineKind (D : Type) where
  /-- A line that starts with `HELLO `, asking for the viewer role or not. -/
  | hello (viewer : Bool)
  /-- A STATUS line that the parser accepts. -/
  | accepted (status : DeviceStatus D)
  /-- Any other line. -/
  | rejected

variable [CharconvDouble D]

def lineKind (line : Bytes) : LineKind D :=
  if startsWith line (ascii "HELLO ") then .hello (containsText line (ascii "role=viewer"))
  else
    match parseStatusLine line with
    | none => .rejected
    | some status => .accepted status

theorem lineKind_eq_accepted {line : Bytes} {status : DeviceStatus D} :
    lineKind line = .accepted status ↔ parseStatusLine line = some status := by
  unfold lineKind
  split
  · next hhello =>
    -- a HELLO line does not start with the word STATUS
    obtain ⟨rest, rfl⟩ := startsWith_iff.mp hhello
    rw [parseStatusLine_eq_none_of_head (b := 72) rfl (by decide)]
    simp
  · split <;> simp_all

theorem parseStatusLine_eq_none_of_lineKind {line : Bytes}
    (h : ∀ status, (lineKind line : LineKind D) ≠ .accepted status) :
    (parseStatusLine line : Option (DeviceStatus D)) = none := by
  by_contra hsome
  obtain ⟨status, hstatus⟩ := Option.ne_none_iff_exists'.mp hsome
  exact h status (lineKind_eq_accepted.mpr hstatus)

theorem lineKind_eq_hello {line : Bytes} {viewer : Bool} :
    (lineKind line : LineKind D) = .hello viewer ↔
      startsWith line (ascii "HELLO ") = true ∧
        containsText line (ascii "role=viewer") = viewer := by
  unfold lineKind
  split
  · simp_all
  · split <;> simp_all

/-- What the server sends for a line, apart from the broadcast. -/
def ackSends (fd : Fd) (env : LineEnv) (status : DeviceStatus D) : Option Sent :=
  if status.ackRequested then
    some ⟨fd, ackText status.deviceId status.sequence env.nowMs, env.ack⟩
  else none

omit [CharconvDouble D] in
theorem ackSends_eq_some {fd : Fd} {env : LineEnv} {status : DeviceStatus D} {sent : Sent} :
    ackSends fd env status = some sent ↔ status.ackRequested = true ∧
      sent = ⟨fd, ackText status.deviceId status.sequence env.nowMs, env.ack⟩ := by
  unfold ackSends
  cases hack : status.ackRequested with
  | false => simp
  | true => simp [eq_comm]

/-- A HELLO line changes the viewers and nothing else. -/
theorem handleLine_hello {fd : Fd} {env : LineEnv} {line : Bytes} {viewer : Bool}
    (h : (lineKind line : LineKind D) = .hello viewer) (s : Server D) :
    handleLine fd env line s =
      { s with
        viewerClientFds := if viewer then insert fd s.viewerClientFds else s.viewerClientFds
        trace := s.trace ++
          [.line { fd, line, env, ack := none, broadcast := [], published := none }] } := by
  obtain ⟨hstart, hrole⟩ := lineKind_eq_hello.mp h
  subst hrole
  cases hrole : containsText line (ascii "role=viewer") <;>
    simp [handleLine, handleHelloLine, hstart, hrole]

/-- Any other line that is not accepted is counted and nothing else. -/
theorem handleLine_rejected {fd : Fd} {env : LineEnv} {line : Bytes}
    (h : (lineKind line : LineKind D) = .rejected) (s : Server D) :
    handleLine fd env line s =
      { s with
        counters := { s.counters with parseErrors := s.counters.parseErrors + 1 }
        trace := s.trace ++
          [.line { fd, line, env, ack := none, broadcast := [], published := none }] } := by
  unfold lineKind at h
  split at h
  · exact absurd h (by simp)
  · next hstart =>
    split at h
    · next hparse => simp [handleLine, handleHelloLine, handleStatusLine, hstart, hparse]
    · exact absurd h (by simp)

/-- An accepted line is stored, acknowledged on request, broadcast and published. -/
theorem handleLine_accepted {fd : Fd} {env : LineEnv} {line : Bytes} {status : DeviceStatus D}
    (h : lineKind line = .accepted status) (s : Server D) :
    handleLine fd env line s =
      { s with
        statusStore := s.statusStore.upsert status
        counters := { s.counters with
          statusReceived := s.counters.statusReceived + 1
          ackSent := s.counters.ackSent +
            (ackSends fd env status).toList.countP fun sent => sent.result.nonNegative
          broadcastErrors := s.counters.broadcastErrors +
            hardErrors (viewerSends env.order env.viewer s.viewerClientFds fd line) }
        trace := s.trace ++
          [.line {
            fd, line, env
            ack := ackSends fd env status
            broadcast := viewerSends env.order env.viewer s.viewerClientFds fd line
            published := s.mqttBridge.publishStatus status }] } := by
  have hparse := lineKind_eq_accepted.mp h
  have hstart : startsWith line (ascii "HELLO ") = false := by
    by_contra hhello
    rw [lineKind, if_pos (by simpa using hhello)] at h
    exact absurd h (by simp)
  cases hack : status.ackRequested with
  | false =>
    simp [handleLine, handleHelloLine, handleStatusLine, hstart, hparse, ackSends, hack,
      broadcastToViewers_eq]
  | true =>
    cases hr : env.ack.nonNegative with
    | false =>
      simp [handleLine, handleHelloLine, handleStatusLine, hstart, hparse, ackSends, hack,
        broadcastToViewers_eq, sendAck, hr]
    | true =>
      simp [handleLine, handleHelloLine, handleStatusLine, hstart, hparse, ackSends, hack,
        broadcastToViewers_eq, sendAck, hr]

omit [CharconvDouble D] in
/-- A report: the counters, the snapshot and its broadcast. -/
theorem printMetricsIfDue_of_due {env : ReportEnv} {s : Server D}
    (h : ¬ env.nowMs - s.counters.lastReportMs < 1000) :
    printMetricsIfDue env s =
      { s with
        counters := { s.counters with
          lastReportMs := env.nowMs
          lastReportStatusReceived := s.counters.statusReceived
          broadcastErrors := s.counters.broadcastErrors +
            hardErrors (viewerSends env.order env.viewer s.viewerClientFds (-1)
              (makeMetricsLine s.counters s.telemetryClientFds s.statusStore env.nowMs)) }
        trace := s.trace ++ [.report {
          env
          metrics := makeMetrics s.counters s.telemetryClientFds s.statusStore env.nowMs
          broadcast := viewerSends env.order env.viewer s.viewerClientFds (-1)
            (makeMetricsLine s.counters s.telemetryClientFds s.statusStore env.nowMs) }] } := by
  simp only [printMetricsIfDue, if_neg h, broadcastToViewers_eq]

/-! ## Moves -/

/-- The moves of the server.  Each writes one entry of the trace. -/
inductive Move : Server D → Server D → Prop where
  /-- A client is accepted on a descriptor that is not open. -/
  | accepted (s : Server D) (fd : Fd) (hfresh : fd ∉ s.openFds) : Move s (acceptClient fd s)
  /-- Bytes of a client are appended to its buffer. -/
  | received (s : Server D) (fd : Fd) (data buffer : Bytes)
      (hbuffer : s.clientBuffers.lookup fd = some buffer) :
      Move s ((s.setBuffer fd (buffer ++ data)).log (.received fd data))
  /-- The first complete line of a buffer is taken off and handled. -/
  | line (s : Server D) (fd : Fd) (env : LineEnv) (line rest : Bytes)
      (hline : IsFrame newline line) (hbuffer : s.clientBuffers.lookup fd = some (line ++ rest)) :
      Move s (handleLine fd env line (s.setBuffer fd rest))
  /-- A report is made. -/
  | report (s : Server D) (env : ReportEnv)
      (hdue : ¬ env.nowMs - s.counters.lastReportMs < 1000) : Move s (printMetricsIfDue env s)
  /-- A client whose buffer has no complete line left is removed. -/
  | disconnected (s : Server D) (fd : Fd) (buffer : Bytes)
      (hbuffer : s.clientBuffers.lookup fd = some buffer) (hopen : newline ∉ buffer) :
      Move s (removeClient fd s)
  /-- An event comes for a descriptor without a buffer. -/
  | unknown (s : Server D) (fd : Fd) (hbuffer : s.clientBuffers.lookup fd = none) :
      Move s ((removeEpollFd fd s).log (.unknown fd))

/-- The entry that the handling of a line writes. -/
def lineRecord (fd : Fd) (env : LineEnv) (line : Bytes) (s : Server D) : LineRecord :=
  match (lineKind line : LineKind D) with
  | .accepted status =>
      { fd, line, env
        ack := ackSends fd env status
        broadcast := viewerSends env.order env.viewer s.viewerClientFds fd line
        published := s.mqttBridge.publishStatus status }
  | _ => { fd, line, env, ack := none, broadcast := [], published := none }

theorem trace_handleLine (fd : Fd) (env : LineEnv) (line : Bytes) (s : Server D) :
    (handleLine fd env line s).trace = s.trace ++ [.line (lineRecord fd env line s)] := by
  cases h : (lineKind line : LineKind D) with
  | hello viewer => rw [handleLine_hello h, lineRecord, h]
  | accepted status => rw [handleLine_accepted h, lineRecord, h]
  | rejected => rw [handleLine_rejected h, lineRecord, h]

/-- The ACK of an entry is the one its status asks for. -/
theorem lineRecord_ack (fd : Fd) (env : LineEnv) (line : Bytes) (s : Server D) :
    (lineRecord fd env line s).ack =
      (parseStatusLine line : Option (DeviceStatus D)).bind (ackSends fd env) := by
  unfold lineRecord
  split
  · next status hkind => rw [lineKind_eq_accepted.mp hkind, Option.bind_some]
  · next hkind => rw [parseStatusLine_eq_none_of_lineKind hkind, Option.bind_none]

@[simp] theorem lineRecord_fd (fd : Fd) (env : LineEnv) (line : Bytes) (s : Server D) :
    (lineRecord fd env line s).fd = fd := by
  unfold lineRecord
  split <;> rfl

@[simp] theorem lineRecord_line (fd : Fd) (env : LineEnv) (line : Bytes) (s : Server D) :
    (lineRecord fd env line s).line = line := by
  unfold lineRecord
  split <;> rfl

@[simp] theorem lineRecord_env (fd : Fd) (env : LineEnv) (line : Bytes) (s : Server D) :
    (lineRecord fd env line s).env = env := by
  unfold lineRecord
  split <;> rfl

/-- A move writes one entry. -/
theorem Move.exists_trace_eq {s t : Server D} (h : Move s t) :
    ∃ x, t.trace = s.trace ++ [x] := by
  cases h with
  | accepted fd hfresh => exact ⟨_, rfl⟩
  | received fd data buffer hbuffer => exact ⟨_, rfl⟩
  | line fd env line rest hline hbuffer => exact ⟨_, trace_handleLine fd env line _⟩
  | report env hdue => rw [printMetricsIfDue_of_due hdue]; exact ⟨_, rfl⟩
  | disconnected fd buffer hbuffer hopen => exact ⟨_, rfl⟩
  | unknown fd hbuffer => exact ⟨_, rfl⟩

/-- What the move that wrote an entry did. -/
def Moved (s t : Server D) : Obs → Prop
  | .accepted fd => fd ∉ s.openFds ∧ t = acceptClient fd s
  | .received fd data => ∃ buffer, s.clientBuffers.lookup fd = some buffer ∧
      t = (s.setBuffer fd (buffer ++ data)).log (.received fd data)
  | .line record => ∃ fd env line rest, IsFrame newline line ∧
      s.clientBuffers.lookup fd = some (line ++ rest) ∧ record = lineRecord fd env line s ∧
      t = handleLine fd env line (s.setBuffer fd rest)
  | .report record => ¬ record.env.nowMs - s.counters.lastReportMs < 1000 ∧
      record.metrics =
        makeMetrics s.counters s.telemetryClientFds s.statusStore record.env.nowMs ∧
      record.broadcast = viewerSends record.env.order record.env.viewer s.viewerClientFds (-1)
        (formatMetricsLine record.metrics) ∧
      t = printMetricsIfDue record.env s
  | .disconnected fd => ∃ buffer, s.clientBuffers.lookup fd = some buffer ∧ newline ∉ buffer ∧
      t = removeClient fd s
  | .unknown fd => s.clientBuffers.lookup fd = none ∧ t = (removeEpollFd fd s).log (.unknown fd)

/-- **The entry tells the move.** -/
theorem Move.moved {s t : Server D} (h : Move s t) {x : Obs} (hx : t.trace = s.trace ++ [x]) :
    Moved s t x := by
  cases h with
  | accepted fd hfresh =>
    obtain rfl := List.singleton_inj.mp (List.append_inj' hx rfl).2
    exact ⟨hfresh, rfl⟩
  | received fd data buffer hbuffer =>
    obtain rfl := List.singleton_inj.mp (List.append_inj' hx rfl).2
    exact ⟨buffer, hbuffer, rfl⟩
  | line fd env line rest hline hbuffer =>
    rw [trace_handleLine] at hx
    obtain rfl := List.singleton_inj.mp (List.append_inj' hx rfl).2
    exact ⟨fd, env, line, rest, hline, hbuffer, rfl, rfl⟩
  | report env hdue =>
    rw [printMetricsIfDue_of_due hdue] at hx
    obtain rfl := List.singleton_inj.mp (List.append_inj' hx rfl).2
    exact ⟨hdue, rfl, rfl, rfl⟩
  | disconnected fd buffer hbuffer hopen =>
    obtain rfl := List.singleton_inj.mp (List.append_inj' hx rfl).2
    exact ⟨buffer, hbuffer, hopen, rfl⟩
  | unknown fd hbuffer =>
    obtain rfl := List.singleton_inj.mp (List.append_inj' hx rfl).2
    exact ⟨hbuffer, rfl⟩

/-! ## A step of the loop is a path of moves -/

omit [CharconvDouble D] in
theorem receiveAvailableData_eq {chunks : List Bytes} {last : RecvEnd} {inputBuffer : Bytes}
    {result : Bool × Bytes} (h : receiveAvailableData chunks last inputBuffer = .ok result) :
    result.2 = inputBuffer ++ chunks.flatten ∧
      (result.1 = false ∧ last = .closed ∨
        ∃ errno, result.1 = true ∧ last = .failed errno ∧ errno.wouldBlock = true) := by
  induction chunks generalizing inputBuffer with
  | nil =>
    cases last with
    | closed =>
      rw [receiveAvailableData, Except.ok.injEq] at h
      subst h
      exact ⟨by simp, Or.inl ⟨rfl, rfl⟩⟩
    | failed errno =>
      rw [receiveAvailableData] at h
      split at h
      · next hblock =>
        rw [Except.ok.injEq] at h
        subst h
        exact ⟨by simp, Or.inr ⟨errno, rfl, rfl, hblock⟩⟩
      · exact absurd h (by simp)
  | cons data chunks ih =>
    rw [receiveAvailableData] at h
    obtain ⟨hbuffer, hend⟩ := ih h
    exact ⟨by rw [hbuffer, List.flatten_cons, List.append_assoc], hend⟩

omit [CharconvDouble D] in
/-- **The rule for the accept loop**: what every accepted client keeps, the loop keeps. -/
theorem acceptReadyClients_induction {P : Server D → Prop} {clients : List NewClient}
    {last : Errno} {s t : Server D} (h : acceptReadyClients clients last s = .ok t) (hs : P s)
    (hstep : ∀ client ∈ clients, ∀ u, P u → P (acceptClient client.fd u)) : P t := by
  induction clients generalizing s with
  | nil =>
    rw [acceptReadyClients] at h
    split at h
    · exact Except.ok.inj h ▸ hs
    · exact absurd h (by simp)
  | cons client rest ih =>
    rw [acceptReadyClients] at h
    split at h
    · exact absurd h (by simp)
    · split at h
      · exact absurd h (by simp)
      · exact ih h (hstep client (by simp) s hs) fun other hother => hstep other (by simp [hother])

/-- The event of a client with a buffer, up to the end of the loop over its lines: the
bytes are appended to the buffer and the complete lines are handled. -/
def receiveLines (fd : Fd) (env : ℕ → LineEnv) (data buffer : Bytes) (s : Server D) : Server D :=
  handleLines fd env ((s.setBuffer fd (buffer ++ data)).log (.received fd data)) (buffer ++ data)

/-- When the event returns, the connection goes on or has come to its end. -/
theorem dispatch_client_cases {fd : Fd} {chunks : List Bytes} {last : RecvEnd} {env : ℕ → LineEnv}
    {s t : Server D} {buffer : Bytes} (hbuffer : s.clientBuffers.lookup fd = some buffer)
    (h : dispatch (.client fd chunks last env) s = .ok t) :
    t = receiveLines fd env chunks.flatten buffer s ∨
      (last = .closed ∧ t = removeClient fd (receiveLines fd env chunks.flatten buffer s)) := by
  rw [dispatch, hbuffer] at h
  cases hrecv : receiveAvailableData chunks last buffer with
  | error e => simp only [hrecv] at h; exact absurd h (by simp)
  | ok result =>
    obtain ⟨stillConnected, filled⟩ := result
    obtain ⟨rfl, hend⟩ := receiveAvailableData_eq hrecv
    simp only [hrecv, Except.ok.injEq] at h
    rcases hend with ⟨rfl, hclosed⟩ | ⟨errno, rfl, -, -⟩
    · exact Or.inr ⟨hclosed, h.symm⟩
    · exact Or.inl h.symm

theorem dispatch_client_unknown {fd : Fd} {chunks : List Bytes} {last : RecvEnd} {env : ℕ → LineEnv}
    {s : Server D} (hbuffer : s.clientBuffers.lookup fd = none) :
    dispatch (.client fd chunks last env) s = .ok ((removeEpollFd fd s).log (.unknown fd)) := by
  rw [dispatch, hbuffer]

/-! The handling of a line leaves the tables alone, the viewers apart. -/

theorem tables_handleLine (fd : Fd) (env : LineEnv) (line : Bytes) (s : Server D) :
    (handleLine fd env line s).clientBuffers = s.clientBuffers ∧
      (handleLine fd env line s).openFds = s.openFds ∧
      (handleLine fd env line s).telemetryClientFds = s.telemetryClientFds ∧
      (handleLine fd env line s).counters.totalDisconnected = s.counters.totalDisconnected := by
  cases h : (lineKind line : LineKind D) with
  | hello viewer => rw [handleLine_hello h]; exact ⟨rfl, rfl, rfl, rfl⟩
  | accepted status => rw [handleLine_accepted h]; exact ⟨rfl, rfl, rfl, rfl⟩
  | rejected => rw [handleLine_rejected h]; exact ⟨rfl, rfl, rfl, rfl⟩

section Tables

variable (fd : Fd) (env : LineEnv) (line : Bytes) (s : Server D)

@[simp] theorem clientBuffers_handleLine :
    (handleLine fd env line s).clientBuffers = s.clientBuffers :=
  (tables_handleLine fd env line s).1

@[simp] theorem openFds_handleLine : (handleLine fd env line s).openFds = s.openFds :=
  (tables_handleLine fd env line s).2.1

@[simp] theorem telemetryClientFds_handleLine :
    (handleLine fd env line s).telemetryClientFds = s.telemetryClientFds :=
  (tables_handleLine fd env line s).2.2.1

@[simp] theorem totalDisconnected_handleLine :
    (handleLine fd env line s).counters.totalDisconnected = s.counters.totalDisconnected :=
  (tables_handleLine fd env line s).2.2.2

end Tables

/-- The line that makes its sender a viewer. -/
def asksViewer (line : Bytes) : Bool :=
  startsWith line (ascii "HELLO ") && containsText line (ascii "role=viewer")

theorem asksViewer_iff {line : Bytes} :
    asksViewer line = true ↔ (lineKind line : LineKind D) = .hello true := by
  rw [asksViewer, Bool.and_eq_true, lineKind_eq_hello]

theorem viewerClientFds_handleLine (fd : Fd) (env : LineEnv) (line : Bytes) (s : Server D) :
    (handleLine fd env line s).viewerClientFds =
      if asksViewer line then insert fd s.viewerClientFds else s.viewerClientFds := by
  cases h : (lineKind line : LineKind D) with
  | hello viewer =>
    obtain ⟨hstart, hrole⟩ := lineKind_eq_hello.mp h
    rw [handleLine_hello h]
    simp [asksViewer, hstart, hrole]
  | accepted status =>
    rw [handleLine_accepted h, if_neg (by simp [asksViewer_iff (D := D), h])]
  | rejected => rw [handleLine_rejected h, if_neg (by simp [asksViewer_iff (D := D), h])]

/-- The loop over the lines is a path, and empties the buffer of its lines. -/
theorem reflTransGen_of_handleLines (fd : Fd) (env : ℕ → LineEnv) (s : Server D)
    {buffer : Bytes} (hbuffer : s.clientBuffers.lookup fd = some buffer) :
    ReflTransGen Move s (handleLines fd env s buffer) ∧
      (handleLines fd env s buffer).clientBuffers.lookup fd = some (remainder newline buffer) := by
  refine drainFrames_induction (d := newline)
    (P := fun (acc : ℕ × Server D) rest =>
      ReflTransGen Move s acc.2 ∧ acc.2.clientBuffers.lookup fd = some rest)
    (fun acc line rest hline hacc => ⟨?_, ?_⟩) ⟨ReflTransGen.refl, hbuffer⟩
  · exact hacc.1.tail (Move.line acc.2 fd (env acc.1) line rest hline hacc.2)
  · simp [Server.setBuffer]

/-- Accepting fresh descriptors is a path. -/
theorem reflTransGen_of_acceptReadyClients {clients : List NewClient} {last : Errno}
    {s t : Server D} (hnodup : (clients.map NewClient.fd).Nodup)
    (hfresh : ∀ client ∈ clients, client.fd ∉ s.openFds)
    (h : acceptReadyClients clients last s = .ok t) : ReflTransGen Move s t := by
  induction clients generalizing s with
  | nil =>
    rw [acceptReadyClients] at h
    split at h
    · rw [Except.ok.injEq] at h
      rw [h]
    · exact absurd h (by simp)
  | cons client rest ih =>
    rw [acceptReadyClients] at h
    split at h
    · exact absurd h (by simp)
    · split at h
      · exact absurd h (by simp)
      · rw [List.map_cons, List.nodup_cons] at hnodup
        refine ReflTransGen.head (Move.accepted s client.fd (hfresh client (by simp)))
          (ih hnodup.2 (fun other hother => ?_) h)
        -- the descriptors still to come differ from the one just opened
        have hne : other.fd ≠ client.fd := fun heq =>
          hnodup.1 (heq ▸ List.mem_map_of_mem hother)
        simp [acceptClient, hne, hfresh other (by simp [hother])]

/-- Receiving bytes and handling the lines is a path, and empties the buffer of its lines. -/
theorem reflTransGen_of_receiveLines {fd : Fd} (env : ℕ → LineEnv) (data : Bytes) {buffer : Bytes}
    {s : Server D} (hbuffer : s.clientBuffers.lookup fd = some buffer) :
    ReflTransGen Move s (receiveLines fd env data buffer s) ∧
      (receiveLines fd env data buffer s).clientBuffers.lookup fd =
        some (remainder newline (buffer ++ data)) := by
  have hlookup :
      ((s.setBuffer fd (buffer ++ data)).log (.received fd data)).clientBuffers.lookup fd =
        some (buffer ++ data) := Finmap.lookup_insert _
  obtain ⟨hlines, hrest⟩ := reflTransGen_of_handleLines fd env _ hlookup
  exact ⟨ReflTransGen.head (Move.received s fd data buffer hbuffer) hlines, hrest⟩

theorem reflTransGen_of_dispatch {event : Event} {s t : Server D}
    (hadm : FreshAccepts s (.event event)) (h : dispatch event s = .ok t) :
    ReflTransGen Move s t := by
  cases event with
  | listening clients last => exact reflTransGen_of_acceptReadyClients hadm.1 hadm.2 h
  | client fd chunks last env =>
    cases hbuffer : s.clientBuffers.lookup fd with
    | none =>
      rw [dispatch_client_unknown hbuffer, Except.ok.injEq] at h
      rw [← h]
      exact ReflTransGen.single (Move.unknown s fd hbuffer)
    | some buffer =>
      obtain ⟨hpath, hrest⟩ := reflTransGen_of_receiveLines env chunks.flatten hbuffer
      rcases dispatch_client_cases hbuffer h with rfl | ⟨-, rfl⟩
      · exact hpath
      · exact hpath.tail (Move.disconnected _ fd _ hrest (notMem_remainder _ _))

/-- **A step of the loop is a path of moves.** -/
theorem reflTransGen_of_loopStep {step : LoopStep} {s t : Server D}
    (hadm : FreshAccepts s step) (h : loopStep s step = .ok t) : ReflTransGen Move s t := by
  cases step with
  | event event => exact reflTransGen_of_dispatch hadm h
  | report env =>
    rw [loopStep, Except.ok.injEq] at h
    rw [← h]
    by_cases hdue : env.nowMs - s.counters.lastReportMs < 1000
    · rw [printMetricsIfDue, if_pos hdue]
    · exact ReflTransGen.single (Move.report s env hdue)

/-! ## Runs -/

/-- A run is a path of moves from the start. -/
theorem ServerRun.reflTransGen {nowMs : UInt64} {mqttBridge : MqttBridge} {steps : List LoopStep}
    {s : Server D} (h : ServerRun nowMs mqttBridge steps s) :
    ReflTransGen Move (Server.start nowMs mqttBridge) s :=
  Run.reflTransGen (fun _ _ _ hadm hok => reflTransGen_of_loopStep hadm hok) h

/-- **Every moment of the trace was a state**, reached by moves. -/
theorem exists_state_of_trace_prefix {nowMs : UInt64} {mqttBridge : MqttBridge} {s : Server D}
    (h : ReflTransGen Move (Server.start nowMs mqttBridge) s) {pre : List Obs}
    (hpre : pre <+: s.trace) :
    ∃ t, ReflTransGen Move (Server.start nowMs mqttBridge) t ∧ ReflTransGen Move t s ∧
      t.trace = pre :=
  exists_reachable_of_prefix (fun _ _ hmove => hmove.exists_trace_eq) h List.nil_prefix hpre

/-- An iteration of the program is the steps it consists of. -/
theorem foldlM_loopStep_of_loopIteration {result : EpollResult} {s t : Server D}
    (h : loopIteration s result = .ok t) : result.steps.foldlM loopStep s = .ok t := by
  cases result with
  | failed errno =>
    rw [loopIteration] at h
    split at h
    · exact h
    · exact absurd h (by simp)
  | ready events report =>
    rw [loopIteration] at h
    rw [EpollResult.steps, List.foldlM_append, List.foldlM_map]
    exact h

/-- **The program is such a run.**  What `run_event_loop` computes from a list of
`epoll_wait` results, the steps of these results lead to. -/
theorem run_of_runEventLoop {nowMs : UInt64} {mqttBridge : MqttBridge}
    {results : List EpollResult} {s : Server D}
    (hadm : Admissible loopStep FreshAccepts (Server.start nowMs mqttBridge : Server D)
      (results.flatMap EpollResult.steps))
    (h : runEventLoop nowMs mqttBridge results = .ok s) :
    ServerRun nowMs mqttBridge (results.flatMap EpollResult.steps) s := by
  refine run_of_foldlM ?_ hadm
  rw [runEventLoop] at h
  clear hadm
  generalize (Server.start nowMs mqttBridge : Server D) = s₀ at h
  induction results generalizing s₀ with
  | nil => exact h
  | cons result results ih =>
    rw [List.foldlM_cons] at h
    rw [List.flatMap_cons, List.foldlM_append]
    cases hresult : loopIteration s₀ result with
    | error e => rw [hresult] at h; exact absurd h (by simp [bind, Except.bind])
    | ok t =>
      rw [hresult] at h
      rw [foldlM_loopStep_of_loopIteration hresult]
      exact ih t h

/-! ## The entries that a step writes -/

omit [CharconvDouble D] in
theorem trace_acceptReadyClients {clients : List NewClient} {last : Errno} {s t : Server D}
    (h : acceptReadyClients clients last s = .ok t) :
    t.trace = s.trace ++ clients.map fun client => .accepted client.fd := by
  induction clients generalizing s with
  | nil =>
    rw [acceptReadyClients] at h
    split at h
    · simp [← Except.ok.inj h]
    · exact absurd h (by simp)
  | cons client rest ih =>
    rw [acceptReadyClients] at h
    split at h
    · exact absurd h (by simp)
    · split at h
      · exact absurd h (by simp)
      · simp [ih h]

/-- The loop over the lines of a buffer writes one entry for each of them. -/
theorem exists_trace_handleLines (fd : Fd) (env : ℕ → LineEnv) (s : Server D) (buffer : Bytes) :
    ∃ records : List LineRecord,
      (handleLines fd env s buffer).trace = s.trace ++ records.map .line := by
  refine drainFrames_induction (d := newline)
    (P := fun (acc : ℕ × Server D) _ =>
      ∃ records : List LineRecord, acc.2.trace = s.trace ++ records.map .line)
    (fun acc line rest _ ⟨records, hrecords⟩ => ?_) ⟨[], by simp⟩
  exact ⟨records ++ [lineRecord fd (env acc.1) line (acc.2.setBuffer fd rest)],
    by simp [trace_handleLine, hrecords]⟩

/-- **What the event of a client writes**: the bytes that came in, the lines that were handled,
and the removal when the client has closed its end. -/
theorem exists_trace_dispatch_client {fd : Fd} {chunks : List Bytes} {last : RecvEnd}
    {env : ℕ → LineEnv} {s t : Server D} {buffer : Bytes}
    (hbuffer : s.clientBuffers.lookup fd = some buffer)
    (h : dispatch (.client fd chunks last env) s = .ok t) :
    ∃ (records : List LineRecord) (removal : List Obs),
      t.trace = s.trace ++ .received fd chunks.flatten :: (records.map .line ++ removal) ∧
      (removal = [] ∨ removal = [.disconnected fd]) := by
  obtain ⟨records, hrecords⟩ := exists_trace_handleLines fd env
    ((s.setBuffer fd (buffer ++ chunks.flatten)).log (.received fd chunks.flatten))
    (buffer ++ chunks.flatten)
  rcases dispatch_client_cases hbuffer h with rfl | ⟨-, rfl⟩
  · exact ⟨records, [], by simp [receiveLines, hrecords], Or.inl rfl⟩
  · exact ⟨records, [.disconnected fd], by simp [receiveLines, removeClient, hrecords],
      Or.inr rfl⟩

end RemoteDeviceConsole
