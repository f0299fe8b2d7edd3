import RemoteDeviceConsole.Framing.Frames
import RemoteDeviceConsole.Machine.Run
import RemoteDeviceConsole.Protocol.ServerMetrics
import RemoteDeviceConsole.Common.DeviceStatusStore
import RemoteDeviceConsole.Server.Kernel
import RemoteDeviceConsole.Server.MqttBridge

/-!
# The server's event loop

`run_event_loop` and the functions it calls, as functions of the state and of
the kernel's answers.  The state `Server` has the five locals of the loop and the
bridge, and two things the program does not hold itself: `openFds`, the client
descriptors that are open and in the epoll set, and `trace`, the record of what
the server did.

## Granularity

An iteration of the loop handles the events of one `epoll_wait` one after another
and then calls `print_metrics_if_due`.  `LoopStep` is one event or one such call,
and `ServerRun` a run of those in any order; `run_of_runEventLoop` says that the
iterations of the program are such runs.  A step that throws ends the program,
so a run is made of steps that return.

## Buffers

`input_buffer` is a reference into `client_buffers`.  The functions here get the
text of the buffer as an argument and write it back wherever the source changes
it, so between any two calls the map holds what the program's map holds.
-/

namespace RemoteDeviceConsole

open Framing Machine

/-! ## State -/

/-- The counters of the server.  Counts are natural numbers, clock readings are
64-bit values. -/
structure ServerCounters where
  startMs : UInt64
  lastReportMs : UInt64
  lastReportStatusReceived : ℕ := 0
  totalAccepted : ℕ := 0
  totalDisconnected : ℕ := 0
  statusReceived : ℕ := 0
  ackSent : ℕ := 0
  parseErrors : ℕ := 0
  broadcastErrors : ℕ := 0
  deriving DecidableEq

/-- One round of the loop over the lines of a buffer: the client and the line, the
kernel's answers, and the calls that were made. -/
structure LineRecord where
  fd : Fd
  line : Bytes
  env : LineEnv
  ack : Option Sent
  broadcast : List Sent
  published : Option Publication

/-- One report: the kernel's answers, the snapshot and the calls that were made. -/
structure ReportRecord where
  env : ReportEnv
  metrics : ServerMetrics
  broadcast : List Sent

/-- One entry of the trace. -/
inductive Obs where
  /-- `accept` returned a descriptor and it was registered. -/
  | accepted (fd : Fd)
  /-- Bytes were appended to the buffer of a client. -/
  | received (fd : Fd) (data : Bytes)
  /-- A complete line was taken off the buffer of a client and handled. -/
  | line (record : LineRecord)
  /-- A snapshot was printed and broadcast. -/
  | report (record : ReportRecord)
  /-- A client that closed its connection was removed. -/
  | disconnected (fd : Fd)
  /-- An event came for a descriptor without a buffer, and it was closed. -/
  | unknown (fd : Fd)

/-- The state of `run_event_loop`. -/
structure Server (D : Type) where
  statusStore : DeviceStatusStore D
  clientBuffers : Finmap fun _ : Fd => Bytes
  telemetryClientFds : Finset Fd
  viewerClientFds : Finset Fd
  counters : ServerCounters
  mqttBridge : MqttBridge
  openFds : Finset Fd
  trace : List Obs

variable {D : Type}

/-- The locals of `run_event_loop` before the first iteration. -/
@[simps]
def Server.start (nowMs : UInt64) (mqttBridge : MqttBridge) : Server D where
  statusStore := .empty
  clientBuffers := ∅
  telemetryClientFds := ∅
  viewerClientFds := ∅
  counters := { startMs := nowMs, lastReportMs := nowMs }
  mqttBridge := mqttBridge
  openFds := ∅
  trace := []

@[simps]
def Server.setBuffer (s : Server D) (fd : Fd) (buffer : Bytes) : Server D :=
  { s with clientBuffers := s.clientBuffers.insert fd buffer }

@[simps]
def Server.log (s : Server D) (obs : Obs) : Server D :=
  { s with trace := s.trace ++ [obs] }

/-! ## Sockets -/

/-- `epoll_ctl(EPOLL_CTL_DEL)` and `close`.  An error of the former is printed and
nothing else. -/
@[simps]
def removeEpollFd (fd : Fd) (s : Server D) : Server D :=
  { s with openFds := s.openFds.erase fd }

/-- What `accept_ready_clients` does with a client it has registered with epoll. -/
@[simps]
def acceptClient (fd : Fd) (s : Server D) : Server D :=
  { s with
    openFds := insert fd s.openFds
    clientBuffers :=
      if fd ∈ s.clientBuffers then s.clientBuffers else s.clientBuffers.insert fd []
    telemetryClientFds := insert fd s.telemetryClientFds
    counters := { s.counters with totalAccepted := s.counters.totalAccepted + 1 }
    trace := s.trace ++ [.accepted fd] }

/-- `accept_ready_clients`: the clients that `accept` returns, then the error that
ends the loop. -/
def acceptReadyClients : List NewClient → Errno → Server D → Except RuntimeError (Server D)
  | [], errno, s => if errno.wouldBlock then .ok s else .error (.strerror errno)
  | client :: rest, errno, s =>
      match client.setNonBlocking with
      | some e => .error (.strerror e)
      | none =>
        match client.addEpollFd with
        | some e => .error (.strerror e)
        | none => acceptReadyClients rest errno (acceptClient client.fd s)

/-- `receive_available_data`: the chunks that `recv` returns, then what ends the
loop.  The result tells whether the client is still connected. -/
def receiveAvailableData : List Bytes → RecvEnd → Bytes → Except RuntimeError (Bool × Bytes)
  | data :: chunks, last, inputBuffer =>
      receiveAvailableData chunks last (inputBuffer ++ data)
  | [], .closed, inputBuffer => .ok (false, inputBuffer)
  | [], .failed errno, inputBuffer =>
      if errno.wouldBlock then .ok (true, inputBuffer) else .error (.strerror errno)

def takeNextLine (inputBuffer : Bytes) : Option (Bytes × Bytes) := cutFrame newline inputBuffer

/-! ## Acknowledging, storing and broadcasting -/

/-- The text that `send_ack` builds. -/
def ackText (deviceId : Bytes) (sequence nowMs : UInt64) : Bytes :=
  ascii "ACK device_id=" ++ deviceId ++ ascii " seq=" ++ toStringU64 sequence ++
  ascii " server_ms=" ++ toStringU64 nowMs ++ [newline]

/-- `send_ack`: what it returns, and the call of `send`. -/
def sendAck (clientFd : Fd) (nowMs : UInt64) (result : SendResult) (status : DeviceStatus D) :
    Bool × Sent :=
  (result.nonNegative, ⟨clientFd, ackText status.deviceId status.sequence nowMs, result⟩)

/-- `handle_status_line`. -/
def handleStatusLine [CharconvDouble D] (line : Bytes) (statusStore : DeviceStatusStore D)
    (counters : ServerCounters) :
    Option (DeviceStatus D) × DeviceStatusStore D × ServerCounters :=
  match parseStatusLine line with
  | none => (none, statusStore, { counters with parseErrors := counters.parseErrors + 1 })
  | some status =>
      (some status, statusStore.upsert status,
        { counters with statusReceived := counters.statusReceived + 1 })

/-- `send_line`: what it returns, the counters, and the call of `send`. -/
def sendLine (clientFd : Fd) (line : Bytes) (result : SendResult) (counters : ServerCounters) :
    Bool × ServerCounters × Sent :=
  if result.hardError then
    (false, { counters with broadcastErrors := counters.broadcastErrors + 1 },
      ⟨clientFd, line, result⟩)
  else (result.nonNegative, counters, ⟨clientFd, line, result⟩)

/-- One round of the loop of `broadcast_to_viewers`. -/
def broadcastStep (answer : Fd → SendResult) (sourceFd : ℤ) (line : Bytes)
    (acc : ServerCounters × List Sent) (clientFd : Fd) : ServerCounters × List Sent :=
  if (clientFd : ℤ) = sourceFd then acc
  else
    let (_, counters, sent) := sendLine clientFd line (answer clientFd) acc.1
    (counters, acc.2 ++ [sent])

/-- `broadcast_to_viewers`. -/
def broadcastToViewers (order : IterationOrder Fd) (answer : Fd → SendResult)
    (viewerClientFds : Finset Fd) (sourceFd : ℤ) (line : Bytes) (counters : ServerCounters) :
    ServerCounters × List Sent :=
  (order.toList viewerClientFds).foldl (broadcastStep answer sourceFd line) (counters, [])

/-- `handle_hello_line`: whether the line is a HELLO, and the viewers after it. -/
def handleHelloLine (line : Bytes) (clientFd : Fd) (viewerClientFds : Finset Fd) :
    Bool × Finset Fd :=
  if startsWith line (ascii "HELLO ") = false then (false, viewerClientFds)
  else if containsText line (ascii "role=viewer") then (true, insert clientFd viewerClientFds)
  else (true, viewerClientFds)

/-! ## Reporting -/

/-- The snapshot that `make_metrics_line` fills.  Counters are 64 bits wide on the
wire; the rate is computed in exact arithmetic. -/
def makeMetrics (counters : ServerCounters) (activeClientFds : Finset Fd)
    (statusStore : DeviceStatusStore D) (currentMs : UInt64) : ServerMetrics :=
  let elapsedMs := max 1 (currentMs - counters.lastReportMs)
  let messagesDelta := counters.statusReceived - counters.lastReportStatusReceived
  { uptimeSec := (currentMs - counters.startMs) / 1000
    active := .ofNat activeClientFds.card
    accepted := .ofNat counters.totalAccepted
    disconnected := .ofNat counters.totalDisconnected
    devices := .ofNat statusStore.size
    received := .ofNat counters.statusReceived
    ackSent := .ofNat counters.ackSent
    parseErrors := .ofNat counters.parseErrors
    broadcastErrors := .ofNat counters.broadcastErrors
    msgPerSec := .ofNat (messagesDelta * 1000 / elapsedMs.toNat) }

def makeMetricsLine (counters : ServerCounters) (activeClientFds : Finset Fd)
    (statusStore : DeviceStatusStore D) (currentMs : UInt64) : Bytes :=
  formatMetricsLine (makeMetrics counters activeClientFds statusStore currentMs)

/-- `print_metrics_if_due`. -/
def printMetricsIfDue (env : ReportEnv) (s : Server D) : Server D :=
  let currentMs := env.nowMs
  if currentMs - s.counters.lastReportMs < 1000 then s
  else
    let metricsLine := makeMetricsLine s.counters s.telemetryClientFds s.statusStore currentMs
    let (counters, broadcast) :=
      broadcastToViewers env.order env.viewer s.viewerClientFds (-1) metricsLine s.counters
    { s with
      counters := { counters with
        lastReportMs := currentMs
        lastReportStatusReceived := counters.statusReceived }
      trace := s.trace ++ [.report {
        env
        metrics := makeMetrics s.counters s.telemetryClientFds s.statusStore currentMs
        broadcast }] }

/-! ## Events -/

variable [CharconvDouble D]

/-- The body of the loop over the lines of a buffer. -/
def handleLine (fd : Fd) (env : LineEnv) (line : Bytes) (s : Server D) : Server D :=
  match handleHelloLine line fd s.viewerClientFds with
  | (true, viewers) =>
      { s with
        viewerClientFds := viewers
        trace := s.trace ++
          [.line { fd, line, env, ack := none, broadcast := [], published := none }] }
  | (false, _) =>
    match handleStatusLine line s.statusStore s.counters with
    | (none, statusStore, counters) =>
        { s with
          statusStore, counters
          trace := s.trace ++
            [.line { fd, line, env, ack := none, broadcast := [], published := none }] }
    | (some status, statusStore, counters) =>
        let ack := if status.ackRequested then some (sendAck fd env.nowMs env.ack status) else none
        let counters :=
          match ack with
          | some (true, _) => { counters with ackSent := counters.ackSent + 1 }
          | _ => counters
        let (counters, broadcast) :=
          broadcastToViewers env.order env.viewer s.viewerClientFds fd line counters
        { s with
          statusStore, counters
          trace := s.trace ++
            [.line { fd, line, env, ack := ack.map (·.2), broadcast,
                     published := s.mqttBridge.publishStatus status }] }

/-- `while (auto line = take_next_line(input_buffer))`, with the kernel's answers for
the first line, the second, and so on. -/
def handleLines (fd : Fd) (env : ℕ → LineEnv) (s : Server D) (inputBuffer : Bytes) : Server D :=
  (drainFrames newline
    (fun (acc : ℕ × Server D) line rest =>
      (acc.1 + 1, handleLine fd (env acc.1) line (acc.2.setBuffer fd rest)))
    (0, s) inputBuffer).2

/-- The loop ends when no complete line is left. -/
theorem handleLines_of_none {fd : Fd} {env : ℕ → LineEnv} {s : Server D} {inputBuffer : Bytes}
    (h : takeNextLine inputBuffer = none) : handleLines fd env s inputBuffer = s := by
  rw [handleLines, drainFrames_of_notMem (cutFrame_eq_none.mp h)]

/-- One round of the loop: the next line comes off the buffer and is handled. -/
theorem handleLines_of_some {fd : Fd} {env : ℕ → LineEnv} {s : Server D}
    {inputBuffer line rest : Bytes} (h : takeNextLine inputBuffer = some (line, rest)) :
    handleLines fd env s inputBuffer =
      handleLines fd (fun i => env (i + 1)) (handleLine fd (env 0) line (s.setBuffer fd rest))
        rest := by
  obtain ⟨hline, rfl⟩ := cutFrame_eq_some.mp h
  -- the number of lines handled so far only picks the answers
  have hshift : ∀ (buffer : Bytes) (i : ℕ) (t : Server D),
      (drainFrames newline
        (fun (acc : ℕ × Server D) line rest =>
          (acc.1 + 1, handleLine fd (env acc.1) line (acc.2.setBuffer fd rest)))
        (i + 1, t) buffer).2 =
      (drainFrames newline
        (fun (acc : ℕ × Server D) line rest =>
          (acc.1 + 1, handleLine fd (env (acc.1 + 1)) line (acc.2.setBuffer fd rest)))
        (i, t) buffer).2 := by
    intro buffer
    induction buffer using frame_induction (d := newline) with
    | hopen l hl =>
      intro i t
      rw [drainFrames_of_notMem hl, drainFrames_of_notMem hl]
    | hframe f l hf ih =>
      intro i t
      rw [drainFrames_frame_append hf, drainFrames_frame_append hf]
      exact ih _ _
  rw [handleLines, drainFrames_frame_append hline]
  exact hshift rest 0 _

/-- The removal of a client that closed its connection. -/
def removeClient (fd : Fd) (s : Server D) : Server D :=
  removeEpollFd fd
    { s with
      clientBuffers := s.clientBuffers.erase fd
      telemetryClientFds := s.telemetryClientFds.erase fd
      viewerClientFds := s.viewerClientFds.erase fd
      counters := { s.counters with totalDisconnected := s.counters.totalDisconnected + 1 }
      trace := s.trace ++ [.disconnected fd] }

/-- An event of `epoll_wait`, with what the kernel answers while it is handled. -/
inductive Event where
  /-- The listening socket is ready. -/
  | listening (clients : List NewClient) (last : Errno)
  /-- A client socket is ready. -/
  | client (fd : Fd) (chunks : List Bytes) (last : RecvEnd) (env : ℕ → LineEnv)

/-- The client whose event it is. -/
def Event.peer : Event → Option Fd
  | .listening _ _ => none
  | .client fd _ _ _ => some fd

/-- The body of the loop over the events. -/
def dispatch (event : Event) (s : Server D) : Except RuntimeError (Server D) :=
  match event with
  | .listening clients last => acceptReadyClients clients last s
  | .client fd chunks last env =>
    match s.clientBuffers.lookup fd with
    | none => .ok ((removeEpollFd fd s).log (.unknown fd))
    | some inputBuffer =>
      match receiveAvailableData chunks last inputBuffer with
      | .error e => .error e
      | .ok (stillConnected, inputBuffer) =>
          let s := (s.setBuffer fd inputBuffer).log (.received fd chunks.flatten)
          let s := handleLines fd env s inputBuffer
          .ok (if stillConnected then s else removeClient fd s)

/-! ## The loop -/

/-- What one `epoll_wait` returns, with the answers during the report after it. -/
inductive EpollResult where
  | failed (errno : Errno)
  | ready (events : List Event) (report : ReportEnv)

/-- One iteration of `run_event_loop`. -/
def loopIteration (s : Server D) : EpollResult → Except RuntimeError (Server D)
  | .failed errno => if errno = .EINTR then .ok s else .error (.strerror errno)
  | .ready events report => do
      let s ← events.foldlM (fun s event => dispatch event s) s
      .ok (printMetricsIfDue report s)

/-- `run_event_loop`, until the signal that stops it. -/
def runEventLoop (nowMs : UInt64) (mqttBridge : MqttBridge) (results : List EpollResult) :
    Except RuntimeError (Server D) :=
  results.foldlM loopIteration (Server.start nowMs mqttBridge)

/-- One event, or one call of `print_metrics_if_due`. -/
inductive LoopStep where
  | event (event : Event)
  | report (env : ReportEnv)

def loopStep (s : Server D) : LoopStep → Except RuntimeError (Server D)
  | .event event => dispatch event s
  | .report env => .ok (printMetricsIfDue env s)

/-- The steps of one iteration.  An interrupted `epoll_wait` makes none. -/
def EpollResult.steps : EpollResult → List LoopStep
  | .failed _ => []
  | .ready events report => events.map .event ++ [.report report]

/-- `accept` returns descriptors that are not open. -/
def FreshAccepts (s : Server D) : LoopStep → Prop
  | .event (.listening clients _) =>
      (clients.map NewClient.fd).Nodup ∧ ∀ client ∈ clients, client.fd ∉ s.openFds
  | _ => True

instance (s : Server D) (step : LoopStep) : Decidable (FreshAccepts s step) :=
  match step with
  | .event (.listening clients _) =>
      inferInstanceAs (Decidable ((clients.map NewClient.fd).Nodup ∧
        ∀ client ∈ clients, client.fd ∉ s.openFds))
  | .event (.client ..) => isTrue trivial
  | .report _ => isTrue trivial

/-- A run of the server from its start. -/
def ServerRun (nowMs : UInt64) (mqttBridge : MqttBridge) (steps : List LoopStep)
    (s : Server D) : Prop :=
  Run loopStep FreshAccepts (Server.start nowMs mqttBridge) steps s

/-- `epoll_wait` reports registered descriptors, each at most once. -/
def EpollContract (s : Server D) (events : List Event) : Prop :=
  (events.filterMap Event.peer).Nodup ∧ ∀ fd ∈ events.filterMap Event.peer, fd ∈ s.openFds

/-- The kernel keeps its promises during one iteration. -/
def IterationOk (s : Server D) : EpollResult → Prop
  | .failed _ => True
  | .ready events report => EpollContract s events ∧
      Admissible loopStep FreshAccepts s (EpollResult.ready events report).steps

instance (s : Server D) (events : List Event) : Decidable (EpollContract s events) :=
  inferInstanceAs (Decidable ((events.filterMap Event.peer).Nodup ∧
    ∀ fd ∈ events.filterMap Event.peer, fd ∈ s.openFds))

instance (s : Server D) (result : EpollResult) : Decidable (IterationOk s result) :=
  match result with
  | .failed _ => isTrue trivial
  | .ready events report =>
    inferInstanceAs (Decidable (EpollContract s events ∧
      Admissible loopStep FreshAccepts s (EpollResult.ready events report).steps))

/-- A run of the server, iteration by iteration. -/
def LoopRun (nowMs : UInt64) (mqttBridge : MqttBridge) (results : List EpollResult)
    (s : Server D) : Prop :=
  Run loopIteration IterationOk (Server.start nowMs mqttBridge) results s

/-- A computed run that ends in a state with a checked property. -/
theorem exists_serverRun (nowMs : UInt64) (mqttBridge : MqttBridge) (steps : List LoopStep)
    {P : Server D → Bool}
    (h : (runChecked loopStep (fun s step => decide (FreshAccepts s step))
      (Server.start nowMs mqttBridge) steps).any P = true) :
    ∃ s, ServerRun nowMs mqttBridge steps s ∧ P s = true :=
  exists_run_of_runChecked (fun _ _ hc => of_decide_eq_true hc) h

theorem exists_loopRun (nowMs : UInt64) (mqttBridge : MqttBridge) (results : List EpollResult)
    {P : Server D → Bool}
    (h : (runChecked loopIteration (fun s result => decide (IterationOk s result))
      (Server.start nowMs mqttBridge) results).any P = true) :
    ∃ s, LoopRun nowMs mqttBridge results s ∧ P s = true :=
  exists_run_of_runChecked (fun _ _ hc => of_decide_eq_true hc) h

end RemoteDeviceConsole
