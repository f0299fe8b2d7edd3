import RemoteDeviceConsole.Server.Connections
import RemoteDeviceConsole.Server.Socket

/-!
# The server's process

`main` and what it sets up before the loop: `create_listening_socket`, the class `Epoll`, the MQTT
bridge with its library, and the event loop with the calls that open and close descriptors.  Every
call may fail; an exception leaves the scopes one after another, and the destructors run.

`tracedLoop` is the loop of `runEventLoop` with its calls: `result_tracedLoop` says that it ends in
the same way.

## What is left open

`serverMain_handles` is what holds of every way in which the process can end, provided that the
kernel hands out no descriptor that is open and that `epoll_wait` reports registered ones.  Nothing
is closed that is not open, and the listening socket, the epoll descriptor and the MQTT client are
closed.  What is left open are the connections of the clients, which the program closes only when
the peer does, and the state of the MQTT library when it made no client, since the bridge cleans up
only behind a client.

The clients that are left are told by the place where the loop ends.  When it is stopped, they are
those of its last state.  When it throws, the state is gone with the exception, so the place has to
be found in the answers of the kernel: `StopsAt` is the iteration of this run, and in it the event,
that throws, with the state before it.  That state is not yet the whole answer, because one
listening event accepts any number of clients and may throw behind some of them.  Each of those was
opened, and all but the last were registered (`acceptedClients`); `holds_accept` is the induction
over them.

`Matched`, the invariant of the loop, is that the clients with a buffer are those that are open.
It needs `epoll_wait` to report no descriptor twice: a client that has closed would be closed again
by a second event of it.
-/

namespace RemoteDeviceConsole

open Framing Machine Traced

/-! ## Setting up -/

/-- The kernel's answers to the calls of `create_listening_socket`, in their order.  The two calls
of `fcntl` are one answer. -/
structure ListenAnswers where
  socket : Except Errno Fd
  setNonBlocking : Option Errno
  setsockopt : Option Errno
  inetPton : Bool
  bind : Option Errno
  listen : Option Errno

/-- `create_listening_socket`.  The local object is moved into the one that is returned. -/
def createListeningSocket (answers : ListenAnswers) : Traced Handle RuntimeError Socket := do
  let listenSocket ← Socket.construct answers.socket
  withLocal Socket.destroy listenSocket do
    check answers.setNonBlocking
    check answers.setsockopt
    .lift (if answers.inetPton then .ok () else .error (.what (ascii "invalid listen address")))
    check answers.bind
    check answers.listen
    return listenSocket.moveConstruct

/-- The class `Epoll`. -/
structure Epoll where
  fd : Fd

namespace Epoll

/-- The constructor. -/
def construct : Except Errno Fd → Traced Handle RuntimeError Epoll
  | .error errno => .lift (.error (.strerror errno))
  | .ok fd => do
      .calls [.opened (.fd fd)]
      return ⟨fd⟩

/-- The destructor. -/
def destroy (epoll : Epoll) : List (HandleOp Handle) := [.closed (.fd epoll.fd)]

end Epoll

/-! ## The MQTT bridge as an object -/

/-- The answers of the MQTT library to `MqttBridge::start`: whether there is a client, whether it
is connected and whether its thread is started.  `hasMqtt` is `RDVC_HAS_MQTT`. -/
structure MqttAnswers where
  hasMqtt : Bool
  created : Bool
  connected : Bool
  loopStarted : Bool

/-- The object: whether it has a client, and the part that the loop uses. -/
structure MqttSession where
  client : Bool
  bridge : MqttBridge
  client_of_enabled : bridge.enabled = true → client = true

namespace MqttSession

/-- `MqttBridge::start`: the object, and the calls that were made. -/
def start (answers : MqttAnswers) : MqttSession × List (HandleOp Handle) :=
  if answers.hasMqtt = false then (⟨false, ⟨false⟩, id⟩, [])
  else if answers.created = false then (⟨false, ⟨false⟩, id⟩, [.opened .mosquittoLib])
  else (⟨true, ⟨answers.connected && answers.loopStarted⟩, fun _ => rfl⟩,
    [.opened .mosquittoLib, .opened .mosquitto])

/-- The destructor. -/
def destroy (session : MqttSession) : List (HandleOp Handle) :=
  if session.client then [.closed .mosquitto, .closed .mosquittoLib] else []

/-- What is left of the library behind the destructor: its state, when it made no client. -/
def left (answers : MqttAnswers) : Finset Handle :=
  if answers.hasMqtt = true ∧ answers.created = false then {.mosquittoLib} else ∅

/-- `start` and the destructor. -/
theorem turns_start_destroy (answers : MqttAnswers) : ∃ owned,
    Turns (start answers).2 ∅ owned ∧ Turns (start answers).1.destroy owned (left answers) := by
  by_cases hmqtt : answers.hasMqtt = false
  · refine ⟨∅, ?_, ?_⟩
    · rw [start, if_pos hmqtt]
      exact turns_nil ∅
    · rw [start, if_pos hmqtt, left, if_neg (by simp [hmqtt])]
      exact turns_nil ∅
  · rw [start, if_neg hmqtt]
    rw [Bool.not_eq_false] at hmqtt
    by_cases hcreated : answers.created = false
    · rw [if_pos hcreated, left, if_pos ⟨hmqtt, hcreated⟩]
      exact ⟨_, turns_opened _, turns_nil _⟩
    · rw [if_neg hcreated, left, if_neg fun h => hcreated h.2]
      have hopened : Turns [.opened Handle.mosquitto] {.mosquittoLib} {.mosquitto, .mosquittoLib} :=
        turns_opened_insert _ _
      have hclosed : Turns [.closed Handle.mosquitto] {.mosquitto, .mosquittoLib} {.mosquittoLib} :=
        turns_closed_erase (by simp)
      exact ⟨_, (turns_opened Handle.mosquittoLib).append hopened,
        hclosed.append (turns_closed Handle.mosquittoLib)⟩

end MqttSession

/-! ## The event loop, with its calls -/

variable {D : Type}

/-- `accept_ready_clients`: a client whose registration throws stays open. -/
def acceptOps : List NewClient → List (HandleOp Handle)
  | [] => []
  | client :: rest =>
      .opened (.fd client.fd) ::
        match client.setNonBlocking, client.addEpollFd with
        | none, none => acceptOps rest
        | _, _ => []

/-- The calls of one event. -/
def eventOps (s : Server D) : Event → List (HandleOp Handle)
  | .listening clients _ => acceptOps clients
  | .client fd chunks last _ =>
      match s.clientBuffers.lookup fd with
      | none => [.closed (.fd fd)]
      | some inputBuffer =>
        match receiveAvailableData chunks last inputBuffer with
        | .ok (false, _) => [.closed (.fd fd)]
        | _ => []

section Calls

variable [CharconvDouble D]

/-- One event. -/
def tracedEvent (s : Server D) (event : Event) : Traced Handle RuntimeError (Server D) :=
  ⟨eventOps s event, dispatch event s⟩

/-- One iteration of `run_event_loop`. -/
def tracedIteration (s : Server D) : EpollResult → Traced Handle RuntimeError (Server D)
  | .failed errno => .lift (if errno = .EINTR then .ok s else .error (.strerror errno))
  | .ready events report => do
      let s ← events.foldlM tracedEvent s
      return printMetricsIfDue report s

/-- `run_event_loop`. -/
def tracedLoop (nowMs : UInt64) (mqttBridge : MqttBridge) (results : List EpollResult) :
    Traced Handle RuntimeError (Server D) :=
  results.foldlM tracedIteration (Server.start nowMs mqttBridge)

theorem result_tracedIteration (s : Server D) (result : EpollResult) :
    (tracedIteration s result).result = loopIteration s result := by
  cases result with
  | failed errno => rfl
  | ready events report =>
    rw [tracedIteration, result_bind, result_foldlM]
    rfl

/-- **The same loop**, but for the record of its calls. -/
theorem result_tracedLoop (nowMs : UInt64) (mqttBridge : MqttBridge) (results : List EpollResult) :
    (tracedLoop nowMs mqttBridge results : Traced Handle RuntimeError (Server D)).result =
      runEventLoop nowMs mqttBridge results := by
  rw [tracedLoop, result_foldlM, runEventLoop]
  exact congrArg (fun f => List.foldlM f _ results) (funext₂ result_tracedIteration)

end Calls

/-! ## What the loop holds -/

/-- The descriptors of the clients that have a buffer. -/
def Server.handles (s : Server D) : Finset Handle := s.clientBuffers.keys.image Handle.fd

theorem fd_mem_handles {s : Server D} {fd : Fd} :
    Handle.fd fd ∈ s.handles ↔ fd ∈ s.clientBuffers := by
  rw [Server.handles, Finset.mem_image, ← Finmap.mem_keys]
  constructor
  · rintro ⟨fd', hfd', heq⟩
    exact Handle.fd.inj heq ▸ hfd'
  · exact fun hfd => ⟨fd, hfd, rfl⟩

/-- The open clients are those with a buffer. -/
def Matched (s : Server D) : Prop := s.clientBuffers.keys = s.openFds

/-- The registration of a client that was accepted did not throw. -/
def NewClient.Registered (client : NewClient) : Prop :=
  client.setNonBlocking = none ∧ client.addEpollFd = none

instance (client : NewClient) : Decidable client.Registered :=
  inferInstanceAs (Decidable (_ ∧ _))

/-- The clients that are accepted: up to the first one whose registration throws. -/
def acceptedClients : List NewClient → List NewClient
  | [] => []
  | client :: rest => client :: if client.Registered then acceptedClients rest else []

/-- What is open when an event throws: the clients of the state in which it is taken and, when it
accepts connections, those that it has accepted, of which only the last may not be registered. -/
def Event.Leaves (s : Server D) (held : Finset Handle) : Event → Prop
  | .listening clients _ => held =
      s.handles ∪ ((acceptedClients clients).map fun client => Handle.fd client.fd).toFinset
  | .client .. => held = s.handles

variable [CharconvDouble D]

/-- What is open when an iteration throws: the clients of its state, when `epoll_wait` fails, and
otherwise what the event leaves that throws. -/
def EpollResult.Leaves (s : Server D) (e : RuntimeError) (held : Finset Handle) :
    EpollResult → Prop
  | .failed _ => held = s.handles
  | .ready events _ => ∃ t event,
      StopsAt (fun s event => dispatch event s) s events t event e ∧ event.Leaves t held

/-- What is open when the loop throws on these results, in the iteration in which it does. -/
def Leftover (s : Server D) (results : List EpollResult) (e : RuntimeError)
    (held : Finset Handle) : Prop :=
  ∃ t result, StopsAt loopIteration s results t result e ∧ result.Leaves t e held

omit [CharconvDouble D] in
theorem keys_insert {K V : Type} [DecidableEq K] (map : Finmap fun _ : K => V) (key : K)
    (value : V) : (map.insert key value).keys = insert key map.keys := by
  ext other
  simp [Finmap.mem_keys]

omit [CharconvDouble D] in
theorem keys_acceptClient (fd : Fd) (s : Server D) :
    (acceptClient fd s).clientBuffers.keys = insert fd s.clientBuffers.keys := by
  rw [acceptClient_clientBuffers]
  split
  · next hfd => rw [Finset.insert_eq_of_mem (Finmap.mem_keys.mpr hfd)]
  · exact keys_insert _ _ _

/-- What a client receives leaves the keys alone. -/
theorem keys_receiveLines {fd : Fd} (env : ℕ → LineEnv) (data buffer : Bytes) {s : Server D}
    (hfd : fd ∈ s.clientBuffers) :
    (receiveLines fd env data buffer s).clientBuffers.keys = s.clientBuffers.keys ∧
      (receiveLines fd env data buffer s).openFds = s.openFds := by
  have hkeys : insert fd s.clientBuffers.keys = s.clientBuffers.keys :=
    Finset.insert_eq_of_mem (Finmap.mem_keys.mpr hfd)
  refine drainFrames_induction (d := newline)
    (P := fun (acc : ℕ × Server D) _ => acc.2.clientBuffers.keys = s.clientBuffers.keys ∧
      acc.2.openFds = s.openFds) (fun acc line rest _ hacc => ?_) ⟨?_, rfl⟩
  · refine ⟨?_, by simpa using hacc.2⟩
    rw [clientBuffers_handleLine, Server.setBuffer_clientBuffers, keys_insert, hacc.1, hkeys]
  · rw [Server.log_clientBuffers, Server.setBuffer_clientBuffers, keys_insert, hkeys]

/-- What an event leaves: the clients are matched, and those of other events stay. -/
structure Keeps (s : Server D) (peer : Option Fd) (t : Server D) (held : Finset Handle) : Prop where
  matched : Matched t
  held : held = t.handles
  others : ∀ other, other ∈ s.clientBuffers → peer ≠ some other → other ∈ t.clientBuffers

omit [CharconvDouble D] in
theorem Matched.acceptClient {s : Server D} (h : Matched s) (fd : Fd) :
    Matched (acceptClient fd s) := by
  rw [Matched, keys_acceptClient, h]
  rfl

omit [CharconvDouble D] in
/-- **Accepting.**  A client that is accepted is open, also when its registration throws. -/
theorem holds_accept (clients : List NewClient) (last : Errno) {s : Server D} (hs : Matched s) :
    (⟨acceptOps clients, acceptReadyClients clients last s⟩ :
      Traced Handle RuntimeError (Server D)).Holds s.handles (Keeps s none)
      fun _ held => (Event.listening clients last).Leaves s held := by
  induction clients generalizing s with
  | nil =>
    refine .of_turns (turns_nil _) ?_
    show Ends _ _ (acceptReadyClients [] last s) s.handles
    rw [acceptReadyClients]
    split
    · exact ⟨hs, rfl, fun other hother _ => hother⟩
    · exact (Finset.union_empty _).symm
  | cons client rest ih =>
    have hopened : Turns [.opened (.fd client.fd)] s.handles (insert (.fd client.fd) s.handles) :=
      turns_opened_insert _ _
    have hrefused (hnot : ¬ client.Registered) : (Event.listening (client :: rest) last).Leaves s
        (insert (.fd client.fd) s.handles) := by
      rw [Event.Leaves, acceptedClients, if_neg hnot]
      exact (Finset.union_singleton _ _).symm
    rw [acceptOps, acceptReadyClients]
    cases hnon : client.setNonBlocking with
    | some errno =>
      exact .of_turns hopened (hrefused fun h => by simp [NewClient.Registered, hnon] at h)
    | none =>
      cases hadd : client.addEpollFd with
      | some errno =>
        exact .of_turns hopened (hrefused fun h => by simp [NewClient.Registered, hadd] at h)
      | none =>
        have hhandles : (acceptClient client.fd s).handles = insert (.fd client.fd) s.handles := by
          rw [Server.handles, keys_acceptClient, Finset.image_insert]
          rfl
        -- the calls of the rest come behind the one that made this descriptor
        have hrest : (⟨acceptOps rest, acceptReadyClients rest last (acceptClient client.fd s)⟩ :
            Traced Handle RuntimeError (Server D)).Holds (insert (.fd client.fd) s.handles)
            (Keeps s none) fun _ held => (Event.listening (client :: rest) last).Leaves s held := by
          rw [← hhandles]
          refine (ih (hs.acceptClient client.fd)).mono (fun t held ht => ?_) fun e held hleft => ?_
          · refine ⟨ht.matched, ht.held, fun other hother _ => ?_⟩
            refine ht.others other (Finmap.mem_keys.mp ?_) (by simp)
            rw [keys_acceptClient]
            exact Finset.mem_insert_of_mem (Finmap.mem_keys.mpr hother)
          · rw [Event.Leaves] at hleft ⊢
            rw [hleft, hhandles, acceptedClients, if_pos ⟨hnon, hadd⟩, List.map_cons,
              List.toFinset_cons, Finset.union_insert, Finset.insert_union]
        exact (holds_calls hopened).bind fun _ held hheld => hheld ▸ hrest

/-- The event of an open client. -/
theorem holds_client {fd : Fd} {chunks : List Bytes} {last : RecvEnd} {env : ℕ → LineEnv}
    {s : Server D} (hs : Matched s) (hfd : fd ∈ s.clientBuffers) :
    (tracedEvent s (.client fd chunks last env)).Holds s.handles (Keeps s (some fd))
      fun _ held => (Event.client fd chunks last env).Leaves s held := by
  obtain ⟨buffer, hbuffer⟩ := Finmap.mem_iff.mp hfd
  obtain ⟨hkeys, hopen⟩ := keys_receiveLines env chunks.flatten buffer hfd
  rw [tracedEvent, eventOps, dispatch]
  simp only [hbuffer]
  cases hrecv : receiveAvailableData chunks last buffer with
  | error e => exact .of_turns (turns_nil _) rfl
  | ok result =>
    obtain ⟨stillConnected, filled⟩ := result
    obtain ⟨rfl, -⟩ := receiveAvailableData_eq hrecv
    cases stillConnected with
    | true =>
      refine .of_turns (turns_nil _) ?_
      show Keeps s _ (receiveLines fd env chunks.flatten buffer s) _
      refine ⟨?_, ?_, fun other hother _ => ?_⟩
      · rw [Matched, hkeys, hopen, hs]
      · rw [Server.handles, Server.handles, hkeys]
      · rwa [← Finmap.mem_keys, hkeys, Finmap.mem_keys]
    | false =>
      refine .of_turns (turns_closed_erase (fd_mem_handles.mpr hfd)) ?_
      show Keeps s _ (removeClient fd (receiveLines fd env chunks.flatten buffer s)) _
      have herase :
          (removeClient fd (receiveLines fd env chunks.flatten buffer s)).clientBuffers.keys =
            s.clientBuffers.keys.erase fd := by
        show ((receiveLines fd env chunks.flatten buffer s).clientBuffers.erase fd).keys = _
        rw [Finmap.keys_erase, hkeys]
      refine ⟨?_, ?_, fun other hother hne => ?_⟩
      · rw [Matched, herase, hs, ← hopen]
        rfl
      · rw [Server.handles, Server.handles, herase, Finset.image_erase fun a b h => Handle.fd.inj h]
      · rw [← Finmap.mem_keys, herase, Finset.mem_erase, Finmap.mem_keys]
        exact ⟨fun heq => hne (heq ▸ rfl), hother⟩

/-- **One event.** -/
theorem holds_event {event : Event} {s : Server D} (hs : Matched s)
    (hpeer : ∀ fd, event.peer = some fd → fd ∈ s.clientBuffers) :
    (tracedEvent s event).Holds s.handles (Keeps s event.peer)
      fun _ held => event.Leaves s held := by
  cases event with
  | listening clients last => exact holds_accept clients last hs
  | client fd chunks last env => exact holds_client hs (hpeer fd rfl)

/-- **The events of one `epoll_wait`**, which are those of open clients, each at most once. -/
theorem holds_events {events : List Event} {s : Server D} (hs : Matched s)
    (hepoll : EpollContract s events) :
    (events.foldlM tracedEvent s).Holds s.handles (fun t held => Matched t ∧ held = t.handles)
      fun e held => ∃ t event,
        StopsAt (fun s event => dispatch event s) s events t event e ∧ event.Leaves t held := by
  induction events generalizing s with
  | nil => exact holds_pure ⟨hs, rfl⟩
  | cons event events ih =>
    obtain ⟨hnodup, hopen⟩ := hepoll
    have hpeers : ∀ fd ∈ (event :: events).filterMap Event.peer, fd ∈ s.clientBuffers := by
      intro fd hfd
      rw [← Finmap.mem_keys, hs]
      exact hopen fd hfd
    have hone := holds_event hs fun fd hfd =>
      hpeers fd (List.mem_filterMap.mpr ⟨event, List.mem_cons_self, hfd⟩)
    rw [List.foldlM_cons]
    refine (hone.with_result.with_error.mono (fun _ _ h => h) fun e held h => ?_).bind
      fun t held ht => ?_
    · exact ⟨s, event, stopsAt_head h.1 events, h.2⟩
    · obtain ⟨hok, hkeeps⟩ := ht
      rw [hkeeps.held]
      have hrest : EpollContract t events := by
        have hsub : events.filterMap Event.peer ⊆ (event :: events).filterMap Event.peer := by
          rw [← List.singleton_append, List.filterMap_append]
          exact List.subset_append_right _ _
        refine ⟨hnodup.sublist ((List.sublist_cons_self _ _).filterMap _), fun fd hfd => ?_⟩
        rw [← hkeeps.matched, Finmap.mem_keys]
        refine hkeeps.others fd (hpeers fd (hsub hfd)) fun heq => ?_
        rw [List.filterMap_cons_some heq, List.nodup_cons] at hnodup
        exact hnodup.1 hfd
      refine (ih hkeeps.matched hrest).mono (fun u held h => h) fun e held h => ?_
      obtain ⟨u, other, hstops, hleft⟩ := h
      exact ⟨u, other, hstops.cons hok, hleft⟩

/-- `epoll_wait` reports registered descriptors, each at most once. -/
def EpollReports (s : Server D) : EpollResult → Prop
  | .failed _ => True
  | .ready events _ => EpollContract s events

instance (s : Server D) (result : EpollResult) : Decidable (EpollReports s result) :=
  match result with
  | .failed _ => isTrue trivial
  | .ready events _ => inferInstanceAs (Decidable (EpollContract s events))

/-- **One iteration.** -/
theorem holds_iteration {result : EpollResult} {s : Server D} (hs : Matched s)
    (hepoll : EpollReports s result) :
    (tracedIteration s result).Holds s.handles (fun t held => Matched t ∧ held = t.handles)
      fun e held => result.Leaves s e held := by
  cases result with
  | failed errno =>
    refine holds_lift ?_
    split
    · exact ⟨hs, rfl⟩
    · exact rfl
  | ready events report =>
    refine (holds_events hs hepoll).bind fun t held ht => ?_
    obtain ⟨hmatched, rfl⟩ := ht
    have hsame : (printMetricsIfDue report t).clientBuffers = t.clientBuffers ∧
        (printMetricsIfDue report t).openFds = t.openFds := by
      rw [printMetricsIfDue]
      split <;> exact ⟨rfl, rfl⟩
    refine holds_pure ⟨?_, ?_⟩
    · rw [Matched, hsame.1, hsame.2, hmatched]
    · rw [Server.handles, Server.handles, hsame.1]

/-- **The loop.** -/
theorem holds_iterations {results : List EpollResult} {s : Server D} (hs : Matched s)
    (hepoll : Admissible loopIteration EpollReports s results) :
    (results.foldlM tracedIteration s).Holds s.handles
      (fun t held => Matched t ∧ held = t.handles) (Leftover s results) := by
  induction results generalizing s with
  | nil => exact holds_pure ⟨hs, rfl⟩
  | cons result results ih =>
    rw [List.foldlM_cons]
    refine ((holds_iteration hs hepoll.1).with_result.with_error.mono (fun _ _ h => h)
      fun e held h => ?_).bind fun t held ht => ?_
    · rw [result_tracedIteration] at h
      exact ⟨s, result, stopsAt_head h.1 results, h.2⟩
    · obtain ⟨hok, hmatched, rfl⟩ := ht
      rw [result_tracedIteration] at hok
      refine (ih hmatched (hepoll.2 t hok)).mono (fun _ _ h => h) fun e held h => ?_
      obtain ⟨u, other, hstops, hleft⟩ := h
      exact ⟨u, other, hstops.cons hok, hleft⟩

/-! ## The process -/

/-- The answers while the process starts. -/
structure MainAnswers where
  listen : ListenAnswers
  epoll : Except Errno Fd
  addEpollFd : Option Errno
  mqtt : MqttAnswers
  nowMs : UInt64

/-- `main`: the state in which the loop is stopped, or the exception that is caught. -/
def serverMain (D : Type) [CharconvDouble D] (answers : MainAnswers) (results : List EpollResult) :
    Traced Handle RuntimeError (Server D) := do
  let telemetrySocket ← createListeningSocket answers.listen
  withLocal Socket.destroy telemetrySocket do
    let epoll ← Epoll.construct answers.epoll
    let s ← withLocal Epoll.destroy epoll do
      check answers.addEpollFd
      let (mqttBridge, ops) := MqttSession.start answers.mqtt
      calls ops
      let s ← withLocal MqttSession.destroy mqttBridge do
        let s ← tracedLoop answers.nowMs mqttBridge.bridge results
        return (s, mqttBridge)
      return (s, epoll)
    return (s, telemetrySocket)

/-- **The listening socket** is open when the function returns, and closed when it throws. -/
theorem holds_createListeningSocket (answers : ListenAnswers) :
    (createListeningSocket answers).Holds ∅ (fun socket held => ∃ fd, answers.socket = .ok fd ∧
      socket = ⟨some fd⟩ ∧ held = {.fd fd}) fun _ held => held = ∅ := by
  refine (Socket.holds_construct answers.socket).bind fun socket held hsocket => ?_
  obtain ⟨fd, hanswer, rfl, rfl⟩ := hsocket
  refine (Socket.holds_moved ?_).mono (fun socket held h => ⟨fd, hanswer, h⟩) fun e held h => h
  refine holds_check_bind ?_ fun e => rfl
  refine holds_check_bind ?_ fun e => rfl
  refine holds_lift_bind (fun _ => ?_) fun e _ => rfl
  refine holds_check_bind ?_ fun e => rfl
  refine holds_check_bind ?_ fun e => rfl
  exact holds_pure ⟨rfl, rfl⟩

section Process

variable (answers : MainAnswers) (results : List EpollResult)

/-- The loop of the process, from its first state. -/
def MainAnswers.start (D : Type) : Server D :=
  .start answers.nowMs (MqttSession.start answers.mqtt).1.bridge

/-- Everything before the loop succeeds: the listening socket, the epoll descriptor and the
registration of the socket.  The MQTT bridge does not throw. -/
def MainAnswers.Starts (answers : MainAnswers) : Prop :=
  (∃ socket, (createListeningSocket answers.listen).result = .ok socket) ∧
    (∃ fd, answers.epoll = .ok fd) ∧ answers.addEpollFd = none

/-- What is held when the process ends with an exception: nothing when the loop was not reached,
and otherwise what the loop left when it threw, beside what is left of the MQTT library. -/
def Abandoned (D : Type) [CharconvDouble D] (e : RuntimeError) (held : Finset Handle) : Prop :=
  (¬ answers.Starts ∧ held = ∅) ∨ (answers.Starts ∧ ∃ clients,
    Leftover (answers.start D) results e clients ∧ held = clients ∪ MqttSession.left answers.mqtt)

/-- What is held when the process ends without one: the clients, beside what is left of the MQTT
library. -/
def Stopped (s : Server D) (held : Finset Handle) : Prop :=
  answers.Starts ∧
    runEventLoop answers.nowMs (MqttSession.start answers.mqtt).1.bridge results = .ok s ∧
    held = s.handles ∪ MqttSession.left answers.mqtt

variable {answers results}

/-- The scope of the MQTT bridge. -/
theorem holds_bridgeScope (hstarts : answers.Starts)
    (hepoll : Admissible loopIteration EpollReports (answers.start D) results)
    {owned : Finset Handle} (hdestroy : Turns (MqttSession.start answers.mqtt).1.destroy owned
      (MqttSession.left answers.mqtt)) :
    (withLocal MqttSession.destroy (MqttSession.start answers.mqtt).1 do
      let s ← tracedLoop answers.nowMs (MqttSession.start answers.mqtt).1.bridge results
      return (s, (MqttSession.start answers.mqtt).1)).Holds owned
      (Stopped (D := D) answers results) (Abandoned answers results D) := by
  have hmatched : Matched (answers.start D) := rfl
  have hloop := (holds_iterations hmatched hepoll).with_result
  have hbody : (do
      let s ← tracedLoop answers.nowMs (MqttSession.start answers.mqtt).1.bridge results
      return (s, (MqttSession.start answers.mqtt).1) :
        Traced Handle RuntimeError (Server D × MqttSession)).Holds ∅
      (fun result held => result.2 = (MqttSession.start answers.mqtt).1 ∧
        runEventLoop answers.nowMs (MqttSession.start answers.mqtt).1.bridge results =
          .ok result.1 ∧ held = result.1.handles)
      (Leftover (answers.start D) results) := by
    refine hloop.bind fun s held hs => ?_
    obtain ⟨hok, -, rfl⟩ := hs
    refine holds_pure ⟨rfl, ?_, rfl⟩
    rw [← result_tracedLoop]
    exact hok
  rw [← Finset.empty_union owned]
  refine hbody.withLocal (Finset.disjoint_empty_left _) ?_ ?_
  · rintro s object held ⟨rfl, hok, rfl⟩
    exact ⟨_, hdestroy, hstarts, hok, rfl⟩
  · intro e held hleft
    exact ⟨_, hdestroy, .inr ⟨hstarts, held, hleft, rfl⟩⟩

theorem holds_constructEpoll (answer : Except Errno Fd) :
    (Epoll.construct answer).Holds ∅ (fun epoll held => answer = .ok epoll.fd ∧
      held = {.fd epoll.fd}) fun _ held => (∀ fd, answer ≠ .ok fd) ∧ held = ∅ := by
  cases answer with
  | error errno => exact holds_lift ⟨by simp, rfl⟩
  | ok fd => exact (holds_calls (turns_opened _)).bind fun _ held hheld => holds_pure ⟨rfl, hheld⟩

/-- **The process**, whichever way it ends. -/
theorem holds_serverMain
    (hepoll : Admissible loopIteration EpollReports (answers.start D) results) :
    (serverMain D answers results).Holds ∅ (Stopped answers results)
      (Abandoned answers results D) := by
  obtain ⟨owned, hstart, hdestroy⟩ := MqttSession.turns_start_destroy answers.mqtt
  have hlisten : (createListeningSocket answers.listen).Holds ∅ (fun socket held =>
      (createListeningSocket answers.listen).result = .ok socket ∧
        ∃ fd, socket = ⟨some fd⟩ ∧ held = {.fd fd}) (Abandoned answers results D) := by
    refine (holds_createListeningSocket answers.listen).with_result.with_error.mono ?_ ?_
    · rintro socket held ⟨hok, fd, -, hsocket⟩
      exact ⟨hok, fd, hsocket⟩
    · rintro e held ⟨herror, hheld⟩
      refine .inl ⟨fun hstarts => ?_, hheld⟩
      obtain ⟨⟨socket, hok⟩, -⟩ := hstarts
      rw [hok] at herror
      exact absurd herror (by simp)
  have hepollFd : (Epoll.construct answers.epoll).Holds ∅ (fun epoll held =>
      answers.epoll = .ok epoll.fd ∧ held = {.fd epoll.fd}) (Abandoned answers results D) :=
    (holds_constructEpoll answers.epoll).mono (fun _ _ h => h) fun e held h =>
      .inl ⟨fun ⟨_, ⟨fd, hfd⟩, _⟩ => h.1 fd hfd, h.2⟩
  refine hlisten.bind fun socket held hsocket => ?_
  obtain ⟨hsocketOk, fd, rfl, rfl⟩ := hsocket
  refine holds_owner (Socket.destroy_some fd) (hepollFd.bind fun epoll held hheld => ?_)
  obtain ⟨hepollOk, rfl⟩ := hheld
  have hdestruct : epoll.destroy = [.closed (.fd epoll.fd)] := rfl
  refine (holds_owner hdestruct ?_).bind fun s held hs => holds_pure ⟨rfl, hs⟩
  cases hadd : answers.addEpollFd with
  | some errno =>
    refine .of_turns (turns_nil ∅) (.inl ⟨fun hstarts => ?_, rfl⟩)
    exact Option.some_ne_none errno (hadd.symm.trans hstarts.2.2)
  | none =>
    refine (holds_calls (turns_nil ∅)).bind fun _ held hheld => ?_
    rw [hheld]
    refine (holds_calls hstart).bind fun _ held hheld => ?_
    rw [hheld]
    exact (holds_bridgeScope ⟨⟨_, hsocketOk⟩, ⟨_, hepollOk⟩, hadd⟩ hepoll hdestroy).bind
      fun s held hs => holds_pure ⟨rfl, hs⟩

/-- The body of a scope that returns the object gives it back. -/
theorem snd_of_result {A O : Type} {p : Traced Handle RuntimeError A} {object : O}
    {x : A} {object' : O} (h : (p >>= fun x => pure (x, object)).result = .ok (x, object')) :
    object' = object := by
  rw [result_bind] at h
  cases hresult : p.result with
  | error e => rw [hresult] at h; exact absurd h (by simp [bind, Except.bind])
  | ok y =>
    rw [hresult] at h
    exact (Prod.mk.inj (Except.ok.inj h)).2.symm

/-- The calls of the two scopes of descriptors, around the body of the inner one. -/
theorem ops_scopes {A : Type} {socket : Socket} (answer : Except Errno Fd)
    {inner : Epoll → Traced Handle RuntimeError (A × Epoll)}
    (hinner : ∀ epoll x epoll', (inner epoll).result = .ok (x, epoll') → epoll' = epoll) :
    (withLocal Socket.destroy socket do
      let epoll ← Epoll.construct answer
      let x ← withLocal Epoll.destroy epoll (inner epoll)
      return (x, socket)).ops =
      (match answer with
        | .error _ => []
        | .ok fd => .opened (.fd fd) :: (inner ⟨fd⟩).ops ++ [.closed (.fd fd)]) ++
        socket.destroy := by
  cases answer with
  | error errno => rfl
  | ok fd =>
    rw [ops_withLocal, ops_bind]
    · show [.opened (.fd fd)] ++ [] ++
        ((withLocal Epoll.destroy ⟨fd⟩ (inner ⟨fd⟩)) >>= _).ops ++ _ = _
      rw [ops_bind, ops_withLocal fun x epoll' => hinner ⟨fd⟩ x epoll']
      cases (withLocal Epoll.destroy ⟨fd⟩ (inner ⟨fd⟩)).result <;> simp [Epoll.destroy, pure]
    · intro x socket' hresult
      rw [result_bind] at hresult
      exact snd_of_result hresult

/-- The last calls of the process. -/
theorem ops_serverMain {fd : Fd}
    (hlisten : (createListeningSocket answers.listen).result = .ok ⟨some fd⟩) :
    (∃ ops, (serverMain D answers results).ops = ops ++ [.closed (.fd fd)]) ∧
      ∀ epollFd, answers.epoll = .ok epollFd → ∃ ops, (serverMain D answers results).ops =
        ops ++ [.closed (.fd epollFd)] ++ [.closed (.fd fd)] := by
  rw [serverMain, ops_bind, hlisten]
  dsimp only
  rw [ops_scopes answers.epoll]
  · constructor
    · exact ⟨_, (List.append_assoc _ _ _).symm⟩
    · intro epollFd hepoll
      rw [hepoll]
      dsimp only
      apply Exists.intro
      rw [← List.append_assoc, ← List.append_assoc]
      rfl
  · intro epoll x epoll' hresult
    rw [result_bind] at hresult
    cases hcheck : (check answers.addEpollFd).result with
    | error e => rw [hcheck] at hresult; exact absurd hresult (by simp [bind, Except.bind])
    | ok _ =>
      rw [hcheck] at hresult
      exact snd_of_result hresult

/-- **The process keeps its books.**  Suppose that the kernel hands out no descriptor that is open
and that `epoll_wait` reports registered ones.  Whichever way the process ends, and at every moment
before, it has closed nothing that was not open.  At its end the listening socket and the epoll
descriptor are closed, and so is the MQTT client.  When the loop was stopped, exactly the clients
that have a buffer are open; when it threw, exactly those of the state in which it did and those
that the event accepted that threw; when it was not reached, nothing.  Beside the clients the MQTT
library is still there when it made no client.  So every other handle has been closed as often as it
was opened. -/
theorem serverMain_handles
    (hepoll : Admissible loopIteration EpollReports (answers.start D) results)
    (hfresh : FreshOpens ∅ (serverMain D answers results).ops) :
    let process := serverMain D answers results
    HeldCloses ∅ process.ops ∧
    Ends (Stopped answers results) (Abandoned answers results D) process.result
      (heldAfter ∅ process.ops) ∧
    (∀ fd, answers.listen.socket = .ok fd ∨ answers.epoll = .ok fd →
      Handle.fd fd ∉ heldAfter ∅ process.ops) ∧
    ∀ handle, process.ops.count (.closed handle) +
      (if handle ∈ heldAfter ∅ process.ops then 1 else 0) = process.ops.count (.opened handle) := by
  intro process
  obtain ⟨hcloses, hends⟩ := (holds_serverMain hepoll).run hfresh
  refine ⟨hcloses, hends, fun fd hfd => ?_, fun handle => ?_⟩
  · have hops : process.ops = _ := ops_bind (createListeningSocket answers.listen) _
    have hfirst : FreshOpens ∅ (createListeningSocket answers.listen).ops :=
      (along_append.mp (hops ▸ hfresh)).1
    have hlisten := ((holds_createListeningSocket answers.listen).run hfirst).2
    cases hresult : (createListeningSocket answers.listen).result with
    | error e =>
      rw [hresult] at hlisten hops
      rw [hops, List.append_nil, show heldAfter ∅ _ = ∅ from hlisten]
      exact Finset.notMem_empty _
    | ok socket =>
      rw [hresult] at hlisten
      obtain ⟨listenFd, hanswer, rfl, -⟩ := hlisten
      obtain ⟨⟨ops, hlast⟩, hboth⟩ := @ops_serverMain D _ answers results _ hresult
      rcases hfd with hfd | hfd
      · obtain rfl : listenFd = fd := Except.ok.inj (hanswer.symm.trans hfd)
        rw [show process.ops = _ from hlast, heldAfter_append_closed]
        exact Finset.notMem_erase _ _
      · obtain ⟨ops', hlast'⟩ := hboth fd hfd
        rw [show process.ops = _ from hlast', heldAfter_append_closed, heldAfter_append_closed]
        exact fun hmem => Finset.notMem_erase _ _ (Finset.mem_of_mem_erase hmem)
  · simpa using count_closed hfresh hcloses handle

end Process

/-- Two clients come and one goes before the signal. -/
theorem serverMain_handles_stopped : ∃ (answers : MainAnswers) (results : List EpollResult)
    (s : Server ℤ), (serverMain ℤ answers results).result = .ok s ∧
      s.clientBuffers.keys = {6} ∧
      heldAfter ∅ (serverMain ℤ answers results).ops = {.fd 6} ∧
      (serverMain ℤ answers results).ops.count (.closed (.fd 5)) = 1 := by
  let answers : MainAnswers := ⟨⟨.ok 3, none, none, true, none, none⟩, .ok 4, none,
    ⟨true, true, true, true⟩, 0⟩
  let results : List EpollResult :=
    [ .ready [.listening [⟨5, none, none⟩, ⟨6, none, none⟩] .EAGAIN] (.roomy 1),
      .failed .EINTR, .ready [.client 5 [ascii "HELLO \n"] .closed fun _ => .roomy 2] (.roomy 3)]
  have hepoll : Admissible loopIteration EpollReports (answers.start ℤ) results := by
    decide +kernel
  have hfresh : FreshOpens ∅ (serverMain ℤ answers results).ops := by decide +kernel
  have hkeys : (match (serverMain ℤ answers results).result with
      | .ok s => decide (s.clientBuffers.keys = {6})
      | .error _ => false) = true := by decide +kernel
  obtain ⟨-, hends, -, hcount⟩ := serverMain_handles hepoll hfresh
  cases hresult : (serverMain ℤ answers results).result with
  | error e => rw [hresult] at hkeys; exact absurd hkeys (by simp)
  | ok s =>
    rw [hresult] at hkeys hends
    have hsix : s.clientBuffers.keys = {6} := of_decide_eq_true hkeys
    have hheld : heldAfter ∅ (serverMain ℤ answers results).ops = {.fd 6} := by
      rw [hends.2.2, Server.handles, hsix]
      rfl
    refine ⟨answers, results, s, hresult, hsix, hheld, ?_⟩
    have hfive := hcount (.fd 5)
    rw [hheld, if_neg (by decide)] at hfive
    have hopened : (serverMain ℤ answers results).ops.count (.opened (.fd 5)) = 1 := by
      decide +kernel
    omega

end RemoteDeviceConsole
