import RemoteDeviceConsole.Server.Interleavings
import RemoteDeviceConsole.Server.Socket
import RemoteDeviceConsole.Simulator.Main

/-!
# A run of the simulator

`main` of the simulator with its socket: `connect_to_server`, the line it sends, and
`receive_ack_line`, which is one `recv`.

`Simulator.exchange` is about a run over a connection of the server, with or without `--ack`.  Of
the network it needs that what one end gets is the begin of what the other one gave: `Over`.

The line may arrive in any pieces, and only a part of it.  The server handles lines that are
complete, so its frames are a begin of the frames of the one line that was sent; this is why it
handles that line or none (`Over.linesOf_eq`).  A line that is not the server's HELLO makes the
connection no viewer, so that broadcasts and reports do not go to it, and all that it is sent is
the answer to its request (`Over.sendsTo_eq`).  What the simulator prints behind "Received: " is
the begin of that answer, or nothing, whatever other clients do and however the line was cut.

The simulator does not look into its arguments: an id with a space in it writes further fields into
the line, and a later field replaces an earlier one.  The status that the server accepts is the one
of the command line when no argument is empty or has a separator in it (`Plain`, `Matches`).
-/

namespace RemoteDeviceConsole

open Framing Machine Traced

namespace Simulator

/-! ## The process -/

/-- The kernel's answers to the calls of a run, in their order.  `recv` takes 511 bytes at most. -/
structure Answers where
  nowMs : UInt64
  socket : Except Errno Fd
  inetPton : Bool
  connect : Option Errno
  send : SendResult
  recv : Except Errno Bytes

/-- `connect_to_server`.  The local object is moved into the one that is returned. -/
def connectToServer (answers : Answers) : Traced Handle RuntimeError Socket := do
  let socket ← Socket.construct answers.socket
  withLocal Socket.destroy socket do
    .lift (if answers.inetPton then .ok () else .error (.what (ascii "invalid server address")))
    check answers.connect
    return socket.moveConstruct

/-- `receive_ack_line`: the text it prints. -/
def receiveAckLine : Except Errno Bytes → Except RuntimeError Bytes
  | .error errno => .error (.strerror errno)
  | .ok data => .ok (ascii "Received: " ++ data)

/-- The line of a command line. -/
def statusLine (argv : List Bytes) (nowMs : UInt64) : Bytes :=
  let args := arguments argv
  makeStatusLine args.deviceId args.x args.y args.z args.ackRequested nowMs

/-- What `main` has printed behind its `send`: the line, and what an ACK adds to it. -/
def printed (argv : List Bytes) (answers : Answers) : Bytes × Except RuntimeError Bytes :=
  let sent := ascii "Sent: " ++ statusLine argv answers.nowMs
  (sent, if (arguments argv).ackRequested then (receiveAckLine answers.recv).map (sent ++ ·)
    else .ok sent)

/-- The `try` block of `main`: what it has printed at its end, and with an exception. -/
def run (argv : List Bytes) (answers : Answers) : Traced Handle (Bytes × RuntimeError) Bytes := do
  let socket ← (connectToServer answers).mapError fun e => ([], e)
  withLocal Socket.destroy socket do
    .lift ((sendStatusLine answers.send (statusLine argv answers.nowMs)).mapError fun e => ([], e))
    let (sent, received) := printed argv answers
    let stdout ← .lift (received.mapError fun e => (sent, e))
    return (stdout, socket)

/-- What a run leaves: its output, the exception that is caught and printed, and the exit code. -/
structure Report where
  stdout : Bytes
  error : Option RuntimeError
  exitCode : ℕ
  deriving DecidableEq

/-- `main`. -/
def report (argv : List Bytes) (answers : Answers) : Report :=
  match (run argv answers).result with
  | .ok stdout => ⟨stdout, none, 0⟩
  | .error (stdout, error) => ⟨stdout, some error, 1⟩

theorem holds_connectToServer (answers : Answers) :
    (connectToServer answers).Holds ∅ (fun socket held => ∃ fd, socket = ⟨some fd⟩ ∧
      held = {.fd fd}) fun _ held => held = ∅ := by
  refine (Socket.holds_construct answers.socket).bind fun socket held hsocket => ?_
  obtain ⟨fd, -, rfl, rfl⟩ := hsocket
  refine (Socket.holds_moved ?_).mono (fun socket held h => ⟨fd, h⟩) fun e held h => h
  refine holds_lift_bind (fun _ => ?_) fun e _ => rfl
  exact holds_check_bind (holds_pure ⟨rfl, rfl⟩) fun e => rfl

/-- **The socket is closed**, whichever way the run ends. -/
theorem holds_run (argv : List Bytes) (answers : Answers) :
    (run argv answers).Holds ∅ (fun stdout held => held = ∅ ∧
      (printed argv answers).2 = .ok stdout) fun _ held => held = ∅ := by
  refine ((holds_connectToServer answers).mapError fun e held h => h).bind
    fun socket held hsocket => ?_
  obtain ⟨fd, rfl, rfl⟩ := hsocket
  refine holds_owner (Socket.destroy_some fd) ?_
  refine holds_lift_bind (fun _ => ?_) fun e _ => rfl
  obtain ⟨sent, received⟩ := printed argv answers
  cases received with
  | error e => exact .of_turns (turns_nil _) rfl
  | ok stdout => exact holds_pure ⟨rfl, rfl, rfl⟩

/-- The calls of a run: none, or a socket that is opened and closed. -/
theorem ops_run (argv : List Bytes) (answers : Answers) :
    (run argv answers).ops = [] ∨
      ∃ fd, (run argv answers).ops = [.opened (.fd fd), .closed (.fd fd)] := by
  rw [run]
  generalize printed argv answers = result
  generalize sendStatusLine answers.send (statusLine argv answers.nowMs) = sends
  rw [connectToServer]
  cases answers.socket with
  | error errno => exact .inl rfl
  | ok fd =>
    refine .inr ⟨fd, ?_⟩
    cases answers.inetPton with
    | false => rfl
    | true =>
      cases answers.connect with
      | some errno => rfl
      | none =>
        cases sends with
        | error e => rfl
        | ok _ =>
          obtain ⟨sent, received⟩ := result
          cases received <;> rfl

theorem freshOpens_run (argv : List Bytes) (answers : Answers) :
    FreshOpens ∅ (run argv answers).ops := by
  rcases ops_run argv answers with hops | ⟨fd, hops⟩
  · rw [hops]
    trivial
  · rw [hops]
    exact ⟨Finset.notMem_empty _, trivial, trivial⟩

/-- **How a run ends.**  Its socket is closed, and when its exit code is 0 it has printed all. -/
theorem report_run (argv : List Bytes) (answers : Answers) :
    HeldCloses ∅ (run argv answers).ops ∧ heldAfter ∅ (run argv answers).ops = ∅ ∧
      ((report argv answers).exitCode = 0 →
        (printed argv answers).2 = .ok (report argv answers).stdout) := by
  obtain ⟨hcloses, hends⟩ := (holds_run argv answers).run (freshOpens_run argv answers)
  rw [report]
  cases hresult : (run argv answers).result with
  | error e =>
    rw [hresult] at hends
    exact ⟨hcloses, hends, fun hexit => absurd hexit (by simp)⟩
  | ok stdout =>
    rw [hresult] at hends
    exact ⟨hcloses, hends.1, fun _ => hends.2⟩

/-! ## Its line -/

/-- No argument has a line end in it. -/
def OneLine (argv : List Bytes) : Prop :=
  ∀ text ∈ [(arguments argv).deviceId, (arguments argv).x, (arguments argv).y, (arguments argv).z],
    newline ∉ text

instance (argv : List Bytes) : Decidable (OneLine argv) :=
  inferInstanceAs (Decidable (∀ text ∈ _, _))

theorem isFrame_statusLine {argv : List Bytes} (h : OneLine argv) (nowMs : UInt64) :
    IsFrame newline (statusLine argv nowMs) := by
  have hfixed : newline ∉ ascii "STATUS device_id=" ∧ newline ∉ ascii " state=OK battery=87 x=" ∧
      newline ∉ ascii " y=" ∧ newline ∉ ascii " z=" ∧ newline ∉ ascii " seq=1 sent_ms=" ∧
      newline ∉ ascii " ack=1" := by decide +kernel
  have hnow : newline ∉ toStringU64 nowMs := (cleanValue_toStringU64 nowMs).2 _ (by simp)
  simp only [OneLine, List.forall_mem_cons] at h
  obtain ⟨hid, hx, hy, hz, -⟩ := h
  refine ⟨_, ?_, rfl⟩
  cases hack : (arguments argv).ackRequested <;>
    simp [hid, hx, hy, hz, hnow, hfixed]

theorem asksViewer_statusLine (argv : List Bytes) (nowMs : UInt64) :
    asksViewer (statusLine argv nowMs) = false := by
  rw [asksViewer, Bool.and_eq_false_iff]
  refine .inl ?_
  by_contra hyes
  rw [Bool.not_eq_false] at hyes
  obtain ⟨rest, hrest⟩ := startsWith_iff.mp hyes
  rw [statusLine, makeStatusLine_eq_printFields, printFields, List.append_assoc] at hrest
  exact absurd (congrArg List.head? hrest) (by simp [kStatusPrefix, ascii, charByte])

/-- No argument is empty or has a space in it, and no coordinate has a carriage return. -/
def Plain (argv : List Bytes) : Prop :=
  ((arguments argv).deviceId ≠ [] ∧ space ∉ (arguments argv).deviceId) ∧
    CleanValue (arguments argv).x ∧ CleanValue (arguments argv).y ∧ CleanValue (arguments argv).z

instance (argv : List Bytes) : Decidable (Plain argv) :=
  inferInstanceAs (Decidable ((_ ∧ _) ∧ _))

/-! ## The connection -/

variable {D : Type} [CharconvDouble D]

/-- The status that the command line asks for. -/
structure Matches (argv : List Bytes) (nowMs : UInt64) (status : DeviceStatus D) : Prop where
  deviceId : status.deviceId = (arguments argv).deviceId
  state : status.state = ascii "OK"
  battery : status.batteryPercent = 87
  x : parseDouble (arguments argv).x = some status.x
  y : parseDouble (arguments argv).y = some status.y
  z : parseDouble (arguments argv).z = some status.z
  ackRequested : status.ackRequested = (arguments argv).ackRequested
  sequence : status.sequence = if (arguments argv).ackRequested then 1 else 0
  sentMs : status.sentMs = if (arguments argv).ackRequested then nowMs else 0

/-- **The parser reads off the line what it was made of.** -/
theorem matches_of_parse {argv : List Bytes} (h : Plain argv) {nowMs : UInt64}
    {status : DeviceStatus D} (hparse : parseStatusLine (statusLine argv nowMs) = some status) :
    Matches argv nowMs status := by
  obtain ⟨⟨hid, hspace⟩, hx, hy, hz⟩ := h
  rw [statusLine, parseStatusLine_makeStatusLine _ _ hid hspace hx hy hz] at hparse
  simp only [Option.bind_eq_some_iff, Option.map_eq_some_iff] at hparse
  obtain ⟨dx, hdx, dy, hdy, dz, hdz, rfl⟩ := hparse
  exact ⟨rfl, rfl, rfl, hdx, hdy, hdz, rfl, rfl, rfl⟩

/-- The run is over a connection of the server: what one end gets is the begin of what the other
one gave. -/
structure Over (argv : List Bytes) (answers : Answers) (s : Server D) (c : Session Fd Obs) :
    Prop where
  mem : c ∈ connections s.trace
  up : bytesOf c.key c.entries <+: statusLine argv answers.nowMs
  down : ∀ data, answers.recv = .ok data → data <+: bytesTo c.key c.entries

section Exchange

variable {argv : List Bytes} {answers : Answers} {s : Server D} {c : Session Fd Obs}

/-- The server has handled the line, or none. -/
theorem Over.linesOf_eq (hover : Over argv answers s c) (hserver : Reachable s)
    (hline : OneLine argv) :
    linesOf c.key c.entries = [] ∨ linesOf c.key c.entries = [statusLine argv answers.nowMs] := by
  obtain ⟨t, ht, hsession⟩ := hserver.exists_of_mem_connections hover.mem
  have hlinked := ht.allLinked c.key
  rw [hsession] at hlinked
  cases hlinked with
  | connected _ buffer hopen hbuffer htelemetry hviewer hlines hbytes =>
    have hup := hover.up
    rw [hbytes] at hup
    have hframes := frames_of_isPrefix ((List.prefix_append _ _).trans hup) (d := newline)
    have hone :
        frames newline (statusLine argv answers.nowMs) = [statusLine argv answers.nowMs] := by
      have hflat : frames newline [statusLine argv answers.nowMs].flatten =
          [statusLine argv answers.nowMs] :=
        frames_flatten (by simpa using isFrame_statusLine hline answers.nowMs)
      simpa using hflat
    rw [frames_flatten hlines, hone] at hframes
    obtain ⟨rest, hrest⟩ := hframes
    cases hlinesOf : linesOf c.key c.entries with
    | nil => exact .inl rfl
    | cons line lines =>
      rw [hlinesOf] at hrest
      obtain ⟨rfl, hnil⟩ := List.cons.inj hrest
      rw [(List.append_eq_nil_iff.mp hnil).1]
      exact .inr rfl

/-- The server took the line for this status. -/
structure Accepted (argv : List Bytes) (answers : Answers) (s : Server D) (c : Session Fd Obs)
    (status : DeviceStatus D) : Prop where
  handled : linesOf c.key c.entries = [statusLine argv answers.nowMs]
  parse : parseStatusLine (statusLine argv answers.nowMs) = some status

/-- The server took the line for this status, and answers it. -/
structure Requested (argv : List Bytes) (answers : Answers) (s : Server D) (c : Session Fd Obs)
    (status : DeviceStatus D) : Prop extends Accepted argv answers s c status where
  ackRequested : status.ackRequested = true

theorem Over.not_isViewer (hover : Over argv answers s c) (hserver : Reachable s)
    (hline : OneLine argv) : ¬ IsViewer c.key c.entries := by
  rintro ⟨line, hmem, hasks⟩
  rcases hover.linesOf_eq hserver hline with hlines | hlines
  · rw [hlines] at hmem
    exact absurd hmem (by simp)
  · rw [hlines, List.mem_singleton] at hmem
    rw [hmem, asksViewer_statusLine] at hasks
    exact absurd hasks (by simp)

/-- **The calls of `send`** to the connection: none, or one with the ACK. -/
theorem Over.sendsTo_eq (hover : Over argv answers s c) (hserver : Reachable s)
    (hline : OneLine argv) :
    (sendsTo c.key c.entries = [] ∧ ∀ status, ¬ Requested argv answers s c status) ∨
      ∃ status sent, Requested argv answers s c status ∧ sendsTo c.key c.entries = [sent] ∧
        Acknowledges status sent.text := by
  obtain ⟨t, ht, hsession⟩ := hserver.exists_of_mem_connections hover.mem
  have hquiet : c.entries.any (Obs.asks c.key) = false := by
    have hviewer := hover.not_isViewer hserver hline
    rwa [isViewer_iff_any, Bool.not_eq_true] at hviewer
  have hsends : List.Forall₂ Acknowledges (requests D (linesOf c.key c.entries))
      ((sendsTo c.key c.entries).map Sent.text) := by
    rw [ht.sendsTo_session hsession]
    exact forall₂_sessionSends hquiet
  have hnone : requests D (linesOf c.key c.entries) = [] → sendsTo c.key c.entries = [] := by
    intro hempty
    rw [hempty] at hsends
    simpa using hsends
  rcases hover.linesOf_eq hserver hline with hlines | hlines
  · refine .inl ⟨hnone (by rw [hlines]; rfl), fun status h => ?_⟩
    exact absurd (hlines.symm.trans h.handled) (by simp)
  · cases hparse : (parseStatusLine (statusLine argv answers.nowMs) : Option (DeviceStatus D)) with
    | none =>
      refine .inl ⟨hnone (by simp [hlines, requests, hparse]), fun status h => ?_⟩
      exact absurd (hparse.symm.trans h.parse) (by simp)
    | some status =>
      cases hack : status.ackRequested with
      | false =>
        refine .inl ⟨hnone (by simp [hlines, requests, hparse, hack]), fun other h => ?_⟩
        obtain rfl := Option.some.inj (hparse.symm.trans h.parse)
        exact absurd (hack.symm.trans h.ackRequested) (by simp)
      | true =>
        have hrequests : requests D (linesOf c.key c.entries) = [status] := by
          simp [hlines, requests, hparse, hack]
        rw [hrequests] at hsends
        cases hcalls : sendsTo c.key c.entries with
        | nil => rw [hcalls] at hsends; exact absurd hsends (by simp)
        | cons sent rest =>
          rw [hcalls, List.map_cons, List.forall₂_cons] at hsends
          have hrest : rest = [] := by simpa using hsends.2
          exact .inr ⟨status, sent, ⟨⟨hlines, hparse⟩, hack⟩, by rw [hrest], hsends.1⟩

/-- A status that was accepted on the connection is one of the trace, and the store has its
device. -/
theorem Accepted.stored {status : DeviceStatus D} (h : Accepted argv answers s c status)
    (hserver : Reachable s) (hmem : c ∈ connections s.trace) :
    status ∈ acceptedStatuses D s.trace ∧ (s.statusStore.find status.deviceId).isSome := by
  have hline : statusLine argv answers.nowMs ∈ handledLines s.trace := by
    have hentry : statusLine argv answers.nowMs ∈ linesOf c.key c.entries := by
      rw [h.handled]
      exact List.mem_singleton_self _
    obtain ⟨x, hx, hlineOf⟩ := List.mem_flatMap.mp hentry
    refine List.mem_flatMap.mpr ⟨x, (entries_sublist hmem).subset hx, ?_⟩
    cases x with
    | line record =>
      rw [Obs.lineOf] at hlineOf
      split at hlineOf
      · exact hlineOf
      · exact absurd hlineOf (by simp)
    | _ => exact absurd hlineOf (by simp [Obs.lineOf])
  have haccepted : status ∈ acceptedStatuses D s.trace :=
    List.mem_filterMap.mpr ⟨_, hline, h.parse⟩
  refine ⟨haccepted, ?_⟩
  rw [show s.statusStore.find status.deviceId = _ from hserver.counted.find _,
    Option.isSome_iff_ne_none, Ne, List.getLast?_eq_none_iff, List.filter_eq_nil_iff]
  exact fun hnot => hnot status haccepted (by simp)

/-- **What comes back**: any begin of it that is not empty is one of the ACK for the status that
was requested. -/
theorem Over.exists_ack (hover : Over argv answers s c) (hserver : Reachable s)
    (hline : OneLine argv) {data : Bytes} (hdata : data <+: bytesTo c.key c.entries)
    (hne : data ≠ []) : ∃ status serverMs, Requested argv answers s c status ∧
      data <+: ackText status.deviceId status.sequence serverMs := by
  rcases hover.sendsTo_eq hserver hline with ⟨hnone, -⟩ | ⟨status, sent, hrequested, hone, hack⟩
  · rw [bytesTo, hnone] at hdata
    exact absurd (List.prefix_nil.mp hdata) hne
  · obtain ⟨serverMs, hack⟩ := hack
    rw [bytesTo, hone, List.flatMap_singleton] at hdata
    exact ⟨status, serverMs, hrequested, hack ▸ hdata.trans sent.bytes_isPrefix⟩

/-- **The answer to a status**: nothing, when it asks for no ACK, and else its ACK, which is whole
when every `send` has room. -/
theorem Accepted.answered {status : DeviceStatus D} (h : Accepted argv answers s c status)
    (hover : Over argv answers s c) (hserver : Reachable s) (hline : OneLine argv) :
    (status.ackRequested = false → bytesTo c.key c.entries = []) ∧
    (status.ackRequested = true → (∀ sent ∈ sendsTo c.key c.entries, sent.Whole) →
      ∃ serverMs, bytesTo c.key c.entries =
        ackText status.deviceId status.sequence serverMs) := by
  have hcalls := hover.sendsTo_eq hserver hline
  refine ⟨fun hquiet => ?_, fun hasked hwhole => ?_⟩
  · rcases hcalls with ⟨hnone, -⟩ | ⟨other, sent, hother, -⟩
    · rw [bytesTo, hnone]
      rfl
    · obtain rfl := Option.some.inj (h.parse.symm.trans hother.parse)
      exact absurd (hquiet.symm.trans hother.ackRequested) (by simp)
  · rcases hcalls with ⟨-, hnone⟩ | ⟨other, sent, hother, hone, serverMs, hack⟩
    · exact absurd ⟨h, hasked⟩ (hnone status)
    · obtain rfl := Option.some.inj (h.parse.symm.trans hother.parse)
      refine ⟨serverMs, ?_⟩
      rw [bytesTo, hone, List.flatMap_singleton, ← hack]
      exact Sent.bytes_of_whole (hwhole sent (by simp [hone]))

omit [CharconvDouble D] in
/-- **What is printed** by a run that exits with 0: the line, and what was received. -/
theorem stdout_of_exitCode (h : (report argv answers).exitCode = 0) : ∃ received,
    (report argv answers).stdout =
      ascii "Sent: " ++ statusLine argv answers.nowMs ++ received ∧
    ((arguments argv).ackRequested = false → received = []) ∧
    ((arguments argv).ackRequested = true → ∃ data, answers.recv = .ok data ∧
      received = ascii "Received: " ++ data) := by
  have hprinted := (report_run argv answers).2.2 h
  cases hack : (arguments argv).ackRequested with
  | false =>
    rw [printed, hack] at hprinted
    refine ⟨[], ?_, fun _ => rfl, fun htrue => absurd htrue (by simp)⟩
    rw [List.append_nil]
    exact (Except.ok.inj hprinted).symm
  | true =>
    rw [printed, hack] at hprinted
    cases hrecv : answers.recv with
    | error errno =>
      rw [hrecv] at hprinted
      exact absurd hprinted (by simp [receiveAckLine, Except.map])
    | ok data =>
      rw [hrecv] at hprinted
      exact ⟨ascii "Received: " ++ data, (Except.ok.inj hprinted).symm,
        fun hfalse => absurd hfalse (by simp), fun _ => ⟨data, rfl, rfl⟩⟩

/-- **The simulator and the server.**  On the connection of the simulator the server handles its
line or none.  A status that it accepts is in its trace, the store has the device, and it is the one
that the command line asks for, when no argument is empty or has a separator in it.  The server
sends nothing but the ACK for it, if one is asked for, which is one whole line when every `send` has
room.  When the simulator exits with 0, it has printed the line it sent and, behind "Received: ",
the begin of that ACK, or nothing.  Whichever way it exits, its socket is closed. -/
theorem exchange {nowMs : UInt64} {mqttBridge : MqttBridge} {steps : List LoopStep}
    (h : ServerRun nowMs mqttBridge steps s) (hline : OneLine argv)
    (hover : Over argv answers s c) :
    (linesOf c.key c.entries = [] ∨
      linesOf c.key c.entries = [statusLine argv answers.nowMs]) ∧
    (∀ status, Accepted argv answers s c status → status ∈ acceptedStatuses D s.trace ∧
      (s.statusStore.find status.deviceId).isSome ∧
      (Plain argv → Matches argv answers.nowMs status) ∧
      (status.ackRequested = false → bytesTo c.key c.entries = []) ∧
      (status.ackRequested = true → (∀ sent ∈ sendsTo c.key c.entries, sent.Whole) →
        ∃ serverMs, bytesTo c.key c.entries =
          ackText status.deviceId status.sequence serverMs)) ∧
    (bytesTo c.key c.entries ≠ [] → ∃ status serverMs, Requested argv answers s c status ∧
      bytesTo c.key c.entries <+: ackText status.deviceId status.sequence serverMs) ∧
    ((report argv answers).exitCode = 0 → ∃ received,
      (report argv answers).stdout =
        ascii "Sent: " ++ statusLine argv answers.nowMs ++ received ∧
      ((arguments argv).ackRequested = false → received = []) ∧
      ((arguments argv).ackRequested = true → ∃ data, received = ascii "Received: " ++ data ∧
        (data ≠ [] → ∃ status serverMs, Requested argv answers s c status ∧
          data <+: ackText status.deviceId status.sequence serverMs))) ∧
    heldAfter ∅ (run argv answers).ops = ∅ := by
  have hserver := h.reachable
  refine ⟨hover.linesOf_eq hserver hline, fun status haccepts => ?_,
    hover.exists_ack hserver hline List.prefix_rfl, fun hexit => ?_, (report_run argv answers).2.1⟩
  · obtain ⟨haccepted, hstored⟩ := haccepts.stored hserver hover.mem
    exact ⟨haccepted, hstored, fun hplain => matches_of_parse hplain haccepts.parse,
      haccepts.answered hover hserver hline⟩
  · obtain ⟨received, hstdout, hquiet, hasked⟩ := stdout_of_exitCode hexit
    refine ⟨received, hstdout, hquiet, fun hack => ?_⟩
    obtain ⟨data, hrecv, rfl⟩ := hasked hack
    exact ⟨data, rfl, hover.exists_ack hserver hline (hover.down data hrecv)⟩

end Exchange

/-- A run beside another client, in which the line comes in two parts and the ACK is read whole. -/
theorem exchange_acked :
    ∃ (argv : List Bytes) (answers : Answers) (steps : List LoopStep) (s : Server ℤ)
      (c : Session Fd Obs), ServerRun 0 ⟨false⟩ steps s ∧ Over argv answers s c ∧
      (report argv answers).exitCode = 0 ∧ ∃ data, (report argv answers).stdout =
        ascii "Sent: " ++ statusLine argv answers.nowMs ++ (ascii "Received: " ++ data) ∧
      ∃ status serverMs, Requested argv answers s c status ∧ Matches argv answers.nowMs status ∧
        data <+: ackText status.deviceId status.sequence serverMs := by
  let argv := [ascii "sim-9", ascii "1", ascii "2", ascii "3", ascii "--ack"]
  let line := statusLine argv 40
  let ack := ascii "ACK device_id=sim-9 seq=1 server_ms=7\n"
  let answers : Answers := ⟨40, .ok 3, true, none, .room 1000, .ok ack⟩
  obtain ⟨s, hrun, hs⟩ := exists_serverRun
    (P := fun s : Server ℤ => ∃ c ∈ connections s.trace,
      bytesOf c.key c.entries <+: line ∧ ack <+: bytesTo c.key c.entries) 0 ⟨false⟩
    [ .event (.listening [⟨5, none, none⟩, ⟨6, none, none⟩] .EAGAIN),
      .event (.client 5 [line.take 20] (.failed .EAGAIN) fun _ => .roomy 6),
      .event (.client 6 [ascii "STATUS device_id=b state=OK seq=1 ack=1\n"] (.failed .EAGAIN)
        fun _ => .roomy 6),
      .event (.client 5 [line.drop 20] (.failed .EAGAIN) fun _ => .roomy 7)]
    (by decide +kernel)
  obtain ⟨c, hc, hup, hdown⟩ := of_decide_eq_true hs
  have hover : Over argv answers s c :=
    ⟨hc, hup, fun data hdata => Except.ok.inj hdata ▸ hdown⟩
  have hexit : (report argv answers).exitCode = 0 := by decide +kernel
  have hone : OneLine argv := by decide +kernel
  have hplain : Plain argv := by decide +kernel
  obtain ⟨-, haccepts, -, hprinted, -⟩ := exchange hrun hone hover
  obtain ⟨received, hstdout, -, hreceived⟩ := hprinted hexit
  obtain ⟨data, rfl, hreply⟩ := hreceived (by decide +kernel)
  have hdata : data ≠ [] := by
    rintro rfl
    exact absurd hstdout (by decide +kernel)
  obtain ⟨status, serverMs, hrequested, hbegin⟩ := hreply hdata
  obtain ⟨-, -, hmatches, -⟩ := haccepts status hrequested.toAccepted
  exact ⟨argv, answers, _, s, c, hrun, hover, hexit, data, hstdout, status, serverMs, hrequested,
    hmatches hplain, hbegin⟩

end Simulator

end RemoteDeviceConsole
