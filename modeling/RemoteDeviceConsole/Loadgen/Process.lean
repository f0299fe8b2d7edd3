import RemoteDeviceConsole.Loadgen.Balance
import RemoteDeviceConsole.Loadgen.ConnectOutcome
import RemoteDeviceConsole.Loadgen.ParseOptions
import RemoteDeviceConsole.Loadgen.Percentile
import RemoteDeviceConsole.Server.Socket

/-!
# The process of the load generator

`run_loadgen` from `epoll_create1` to its exit code: `connect_clients` and the main loop with the
calls that open and close descriptors, the loop that closes the clients that are left, and the
summary.  The functions with calls end as those without: `result_tracedConnectClients`,
`result_tracedIteration`.

## Exceptions without destructors

The program has no class for a descriptor; what an exception skips stays open.  So the question is
not, as for the server, which destructors run, but where the exception comes from, and the
postcondition for it has to carry that place along.  It can come from three places: from
`epoll_create1`, with nothing open; from the round of the loop that opens the clients whose socket
fails (`LeftOpening`), where the socket is closed again unless `set_non_blocking` or
`add_epoll_fd` is what fails; and from an iteration of the main loop.  An iteration throws while it
sends or when `epoll_wait` fails, before its events, so what is open then are the clients of the
state before it: `holds_iteration`.

The main loop is no fold, because its guard is read between two iterations.  `ComesTo` has its
iterations so far as a prefix of the answers of this run, together with the answers of the one at
which it ends; both ways to end are told by them, the guard that is false or the iteration that
throws.

## What is proved

`runLoadgen_handles` says what is open however the process ends.
-/

namespace RemoteDeviceConsole
namespace Loadgen

open Framing Machine Traced

/-! ## Connecting -/

/-- `close_client`.  An error of `epoll_ctl` is not looked at. -/
def closeClient (fd : Fd) : List (HandleOp Handle) := [.closed (.fd fd)]

/-- `start_connect`.  Its own failures close the socket, one of `set_non_blocking` does not. -/
def tracedStartConnect (answers : SocketAnswers) : Traced Handle RuntimeError Fd :=
  match answers.socket with
  | .error errno => .lift (.error (.strerror errno))
  | .ok fd => do
      .calls [.opened (.fd fd)]
      check answers.setNonBlocking
      if answers.inetPton = false then do
        .calls [.closed (.fd fd)]
        .lift (.error (.what (ascii "invalid --host address")))
      else
        match answers.connect with
        | none => return fd
        | some errno =>
          if errno ≠ .EINPROGRESS then do
            .calls [.closed (.fd fd)]
            .lift (.error (.strerror errno))
          else return fd

/-- One round of the loop that opens the clients. -/
def tracedOpenClient (answers : SocketAnswers) (index : ℕ) (clients : Clients) :
    Traced Handle RuntimeError Clients := do
  let fd ← tracedStartConnect answers
  let clients := if fd ∈ clients then clients else clients.insert fd { fd, index }
  check answers.addEpollFd
  return clients

/-- The calls of an event of a client that may be connecting. -/
def connectEventOps (clients : Clients) (event : ConnectEvent) : List (HandleOp Handle) :=
  match clients.lookup event.fd with
  | none => []
  | some client =>
    match connectEvent event client with
    | .error _ => closeClient event.fd
    | .ok _ => []

def tracedConnectEvent (acc : Clients × ℕ) (event : ConnectEvent) :
    Traced Handle RuntimeError (Clients × ℕ) :=
  ⟨connectEventOps acc.1 event, .ok (handleConnectEvent acc event)⟩

/-- The loop of `connect_clients`. -/
def tracedConnectLoop : Clients × ℕ → List ConnectWait →
    Traced Handle RuntimeError (Option (Clients × ℕ))
  | acc, [] => return if allReady acc.1 then some acc else none
  | acc, wait :: waits =>
      if allReady acc.1 then return some acc
      else
        match wait with
        | .noEvents => return some (acc.1, acc.2 + acc.1.entries.length)
        | .ready events => do
            let acc ← events.foldlM tracedConnectEvent acc
            tracedConnectLoop acc waits

/-- `connect_clients`. -/
def tracedConnectClients (options : Options) (answers : ℕ → SocketAnswers)
    (waits : List ConnectWait) : Traced Handle RuntimeError (Option (Clients × ℕ)) := do
  let clients ← (List.range options.connections.toNat).foldlM
    (fun clients index => tracedOpenClient (answers index) index clients) ∅
  tracedConnectLoop (clients, 0) waits

/-! ## The main loop -/

/-- The calls of an event of the main loop. -/
def eventOps (g : Loadgen) (event : SocketEvent) : List (HandleOp Handle) :=
  match g.clients.lookup event.fd with
  | none => []
  | some client =>
    match clientEvent event client with
    | .error _ => closeClient event.fd
    | .ok _ => []

def tracedEvent (g : Loadgen) (event : SocketEvent) : Traced Handle RuntimeError Loadgen :=
  ⟨eventOps g event, .ok (handleEvent g event)⟩

/-- One iteration of the main loop. -/
def tracedIteration (options : Options) (connectedMs : UInt64) (g : Loadgen) (env : IterationEnv) :
    Traced Handle RuntimeError Loadgen := do
  let g := tick options connectedMs env.currentMs g
  let g ← .lift (sendLoop options connectedMs env.currentMs env.sends g.clients.entries.length 0 g)
  match env.epoll with
  | .failed errno => .lift (if errno = .EINTR then .ok g else .error (.strerror errno))
  | .ready events => events.foldlM tracedEvent g

/-- The main loop, until its guard fails. -/
def tracedMainLoop (options : Options) (connectedMs : UInt64) : Loadgen → List IterationEnv →
    Traced Handle RuntimeError (Option Loadgen)
  | _, [] => return none
  | g, env :: envs =>
      if guard options connectedMs env.guardMs g then do
        let g ← tracedIteration options connectedMs g env
        tracedMainLoop options connectedMs g envs
      else return some g

/-! ## The run -/

/-- The answers of the kernel to `run_loadgen`.  The main loop finds the clients in the order
`order`. -/
structure RunAnswers where
  createEpoll : Except Errno Fd
  startedMs : UInt64
  sockets : ℕ → SocketAnswers
  waits : List ConnectWait
  connectedMs : UInt64
  order : Clients → Clients
  perm_order : ∀ clients, (order clients).entries.Perm clients.entries
  envs : List IterationEnv
  elapsedNowMs : UInt64
  trafficNowMs : UInt64

/-- What a run that returns leaves: the locals of the main loop, the summary and the exit code. -/
structure Outcome where
  last : Loadgen
  summary : Option Summary
  exitCode : ℕ

/-- `create_epoll`. -/
def createEpoll : Except Errno Fd → Traced Handle RuntimeError Fd
  | .error errno => .lift (.error (.strerror errno))
  | .ok fd => do
      .calls [.opened (.fd fd)]
      return fd

/-- What `run_loadgen` does behind its main loop. -/
def finish (options : Options) (answers : RunAnswers) (epollFd : Fd) (g : Loadgen) :
    Traced Handle RuntimeError Outcome := do
  calls (g.clients.keys.flatMap closeClient)
  calls [.closed (.fd epollFd)]
  return {
    last := g
    summary := printSummary options answers.startedMs answers.connectedMs g.sent g.latencies
      g.errors answers.elapsedNowMs answers.trafficNowMs
    exitCode := if g.errors = 0 then 0 else 1 }

/-- `run_loadgen`, when it returns for these answers. -/
def runLoadgen (options : Options) (answers : RunAnswers) :
    Traced Handle RuntimeError (Option Outcome) := do
  let epollFd ← createEpoll answers.createEpoll
  match ← tracedConnectClients options answers.sockets answers.waits with
  | none => return none
  | some (clients, errors) =>
    match ← tracedMainLoop options answers.connectedMs
        (start (answers.order clients) errors answers.connectedMs) answers.envs with
    | none => return none
    | some g => some <$> finish options answers epollFd g

/-! ## The same results -/

theorem result_tracedStartConnect (answers : SocketAnswers) :
    (tracedStartConnect answers).result = startConnect answers := by
  rw [tracedStartConnect, startConnect]
  cases answers.socket with
  | error errno => rfl
  | ok fd =>
    dsimp only
    cases answers.setNonBlocking with
    | some errno => rfl
    | none =>
      by_cases hpton : answers.inetPton = false
      · rw [if_pos hpton, if_pos hpton]
        rfl
      · rw [if_neg hpton, if_neg hpton]
        cases answers.connect with
        | none => rfl
        | some errno =>
          dsimp only
          split <;> rfl

theorem result_tracedOpenClient (answers : SocketAnswers) (index : ℕ) (clients : Clients) :
    (tracedOpenClient answers index clients).result = openClient answers index clients := by
  rw [tracedOpenClient, result_bind, result_tracedStartConnect, openClient]
  cases startConnect answers with
  | error e => rfl
  | ok fd =>
    show ((check answers.addEpollFd) >>= _).result = _
    rw [result_bind]
    cases answers.addEpollFd <;> rfl

theorem result_tracedConnectLoop (waits : List ConnectWait) (acc : Clients × ℕ) :
    (tracedConnectLoop acc waits).result = .ok (connectLoop acc waits) := by
  induction waits generalizing acc with
  | nil => rfl
  | cons wait waits ih =>
    cases wait with
    | noEvents =>
      rw [tracedConnectLoop, connectLoop]
      split <;> rfl
    | ready events =>
      rw [tracedConnectLoop, connectLoop]
      split
      · rfl
      · have hevents : (events.foldlM tracedConnectEvent acc).result =
            .ok (events.foldl handleConnectEvent acc) := by
          rw [result_foldlM]
          exact List.foldlM_pure
        rw [result_bind, hevents]
        exact ih _

/-- **The same clients and errors.** -/
theorem result_tracedConnectClients (options : Options) (answers : ℕ → SocketAnswers)
    (waits : List ConnectWait) :
    (tracedConnectClients options answers waits).result =
      connectClients options answers waits := by
  have hopen : ((List.range options.connections.toNat).foldlM
      (fun clients index => tracedOpenClient (answers index) index clients) ∅).result =
      openClients options answers := by
    rw [result_foldlM, openClients]
    simp only [result_tracedOpenClient]
  rw [tracedConnectClients, result_bind, hopen, connectClients]
  cases openClients options answers with
  | error e => rfl
  | ok clients => exact result_tracedConnectLoop waits (clients, 0)

/-- **The same iteration.** -/
theorem result_tracedIteration (options : Options) (connectedMs : UInt64) (g : Loadgen)
    (env : IterationEnv) :
    (tracedIteration options connectedMs g env).result = iteration options connectedMs g env := by
  rw [tracedIteration, result_bind, iteration]
  show (sendLoop options connectedMs env.currentMs env.sends _ 0 _ >>= _) = _
  cases sendLoop options connectedMs env.currentMs env.sends
      (tick options connectedMs env.currentMs g).clients.entries.length 0
      (tick options connectedMs env.currentMs g) with
  | error e => rfl
  | ok g =>
    show (match env.epoll with
      | .failed errno => .lift (if errno = .EINTR then .ok g else .error (.strerror errno))
      | .ready events => events.foldlM tracedEvent g :
        Traced Handle RuntimeError Loadgen).result = _
    cases env.epoll with
    | failed errno => rfl
    | ready events =>
      dsimp only
      rw [result_foldlM]
      exact List.foldlM_pure

/-! ## What is open -/

/-- The descriptors of the clients. -/
def handles (clients : Clients) : Finset Handle := clients.keys.toFinset.image Handle.fd

theorem handles_eq_of_keys {clients clients' : Clients} (h : clients'.keys = clients.keys) :
    handles clients' = handles clients := by rw [handles, handles, h]

theorem fd_mem_handles {clients : Clients} {fd : Fd} :
    Handle.fd fd ∈ handles clients ↔ fd ∈ clients := by
  rw [handles, Finset.mem_image, AList.mem_keys]
  constructor
  · rintro ⟨fd', hfd', heq⟩
    exact Handle.fd.inj heq ▸ List.mem_toFinset.mp hfd'
  · exact fun hfd => ⟨fd, List.mem_toFinset.mpr hfd, rfl⟩

theorem handles_insert {clients : Clients} {fd : Fd} (hfd : fd ∉ clients) (client : ClientState) :
    handles (clients.insert fd client) = insert (.fd fd) (handles clients) := by
  have hkeys : (clients.insert fd client).keys = fd :: clients.keys := by
    rw [AList.keys_insert, List.erase_of_not_mem fun hmem => hfd (AList.mem_keys.mpr hmem)]
  rw [handles, handles, hkeys, List.toFinset_cons, Finset.image_insert]

theorem handles_erase (clients : Clients) (fd : Fd) :
    handles (clients.erase fd) = (handles clients).erase (.fd fd) := by
  have hkeys : (clients.erase fd).keys.toFinset = clients.keys.toFinset.erase fd := by
    ext other
    rw [List.mem_toFinset, ← AList.mem_keys, AList.mem_erase, Finset.mem_erase,
      List.mem_toFinset, ← AList.mem_keys]
  rw [handles, handles, hkeys, Finset.image_erase fun a b h => Handle.fd.inj h]

/-- The clients of a table are closed one after another. -/
theorem turns_closeClients (clients : Clients) :
    Turns (clients.keys.flatMap closeClient) (handles clients) ∅ := by
  have hops : clients.keys.flatMap closeClient = (clients.keys.map Handle.fd).map .closed := by
    rw [List.map_map]
    exact List.flatMap_pure_eq_map _ _
  have hset : handles clients = (clients.keys.map Handle.fd).toFinset :=
    Finset.ext fun h => by simp [handles]
  rw [hops, hset]
  exact turns_closed_all (clients.keys_nodup.map fun a b h => Handle.fd.inj h)

/-! ## Connecting, with what is open -/

/-- **One socket.**  It is open when `start_connect` returns; when the function throws it is closed,
but for a failure of `set_non_blocking`. -/
theorem holds_startConnect (answers : SocketAnswers) (a : Finset Handle) :
    (tracedStartConnect answers).Holds a
      (fun fd held => Handle.fd fd ∉ a ∧ answers.socket = .ok fd ∧ held = insert (.fd fd) a)
      fun _ held => held = a ∨ ∃ fd, answers.socket = .ok fd ∧ held = insert (.fd fd) a := by
  rw [tracedStartConnect]
  cases hsocket : answers.socket with
  | error errno => exact holds_lift (.inl rfl)
  | ok fd =>
    refine (holds_opened (.fd fd) a).bind fun _ held hheld => ?_
    obtain ⟨hnew, rfl⟩ := hheld
    have hclosed : Turns [.closed (.fd fd)] (insert (.fd fd) a) a := by
      have herase := turns_closed_erase (Finset.mem_insert_self (Handle.fd fd) a)
      rwa [Finset.erase_insert hnew] at herase
    have hfails : ∀ e : RuntimeError, (do
        .calls [.closed (.fd fd)]
        .lift (.error e) : Traced Handle RuntimeError Fd).Holds (insert (.fd fd) a)
        (fun fd' held => Handle.fd fd' ∉ a ∧ (.ok fd : Except Errno Fd) = .ok fd' ∧
          held = insert (.fd fd') a)
        fun _ held => held = a ∨
          ∃ fd', (.ok fd : Except Errno Fd) = .ok fd' ∧ held = insert (.fd fd') a :=
      fun e => (holds_calls hclosed).bind fun _ held hheld => holds_lift (.inl hheld)
    refine holds_check_bind ?_ fun e => .inr ⟨fd, rfl, rfl⟩
    split
    · exact hfails _
    · split
      · exact holds_pure ⟨hnew, rfl, rfl⟩
      · split
        · exact hfails _
        · exact holds_pure ⟨hnew, rfl, rfl⟩

/-- **One client.** -/
theorem holds_openClient (answers : SocketAnswers) (index : ℕ) (clients : Clients) :
    (tracedOpenClient answers index clients).Holds (handles clients)
      (fun clients' held => held = handles clients' ∧
        ∃ fd, fd ∉ clients ∧ clients' = clients.insert fd { fd, index })
      fun _ held => held = handles clients ∨
        ∃ fd, answers.socket = .ok fd ∧ held = insert (.fd fd) (handles clients) := by
  rw [tracedOpenClient]
  refine (holds_startConnect answers (handles clients)).bind fun fd held hheld => ?_
  obtain ⟨hnew, hsocket, rfl⟩ := hheld
  rw [fd_mem_handles] at hnew
  rw [if_neg hnew]
  refine holds_check_bind (holds_pure ⟨?_, fd, hnew, rfl⟩) fun e => .inr ⟨fd, hsocket, rfl⟩
  exact (handles_insert hnew _).symm

/-- The clients of the first rounds. -/
def openFirst (answers : ℕ → SocketAnswers) (k : ℕ) : Except RuntimeError Clients :=
  (List.range k).foldlM (fun clients index => openClient (answers index) index clients) ∅

/-- The clients that are opened: one for each connection, and none of them connected. -/
structure AllOpened (options : Options) (answers : ℕ → SocketAnswers) (clients : Clients) :
    Prop where
  openClients : openClients options answers = .ok clients
  length : clients.entries.length = options.connections.toNat
  phase : ∀ fd client, clients.lookup fd = some client → client.phase = .connecting

/-- When round `k` of the loop that opens the clients throws: those of the rounds before are open,
and maybe the socket of this round. -/
def LeftOpening (options : Options) (answers : ℕ → SocketAnswers) (e : RuntimeError)
    (held : Finset Handle) : Prop :=
  ∃ k < options.connections.toNat, ∃ clients, openFirst answers k = .ok clients ∧
    openClient (answers k) k clients = .error e ∧ (held = handles clients ∨
      ∃ fd, (answers k).socket = .ok fd ∧ held = insert (.fd fd) (handles clients))

/-- **The loop that opens the clients**: one for each connection. -/
theorem holds_openClients (options : Options) (answers : ℕ → SocketAnswers) {n : ℕ}
    (hn : n ≤ options.connections.toNat) :
    ((List.range n).foldlM (fun clients index => tracedOpenClient (answers index) index clients)
      (∅ : Clients)).Holds ∅
      (fun clients held => held = handles clients ∧ openFirst answers n = .ok clients ∧
        clients.entries.length = n ∧
        ∀ fd client, clients.lookup fd = some client → client.phase = .connecting)
      (LeftOpening options answers) := by
  induction n with
  | zero => exact holds_pure ⟨rfl, rfl, rfl, fun fd client h => absurd h (by simp)⟩
  | succ n ih =>
    rw [List.range_succ, List.foldlM_append]
    refine (ih (by omega)).bind fun clients held hclients => ?_
    obtain ⟨rfl, hfirst, hlength, hphase⟩ := hclients
    rw [List.foldlM_cons]
    refine Holds.bind ((holds_openClient (answers n) n clients).with_result.with_error.mono
      (fun _ _ h => h) fun e held hheld => ⟨n, hn, clients, hfirst,
        (result_tracedOpenClient _ _ _).symm.trans hheld.1, hheld.2⟩)
      fun clients' held hclients' => ?_
    obtain ⟨hok, rfl, fd, hfd, rfl⟩ := hclients'
    refine holds_pure ⟨rfl, ?_, ?_, fun other client hclient => ?_⟩
    · rw [result_tracedOpenClient] at hok
      rw [openFirst] at hfirst ⊢
      rw [List.range_succ, List.foldlM_append, hfirst]
      show (openClient (answers n) n clients >>= pure) = _
      rw [hok]
      rfl
    · rw [AList.entries_insert_of_notMem hfd, List.length_cons, hlength]
    · by_cases hother : other = fd
      · subst hother
        rw [AList.lookup_insert, Option.some.injEq] at hclient
        rw [← hclient]
      · rw [AList.lookup_insert_ne hother] at hclient
        exact hphase other client hclient

/-- An event that fails closes its client. -/
theorem holds_connectEvent (acc : Clients × ℕ) (event : ConnectEvent) {e : RuntimeError → Prop} :
    (tracedConnectEvent acc event).Holds (handles acc.1)
      (fun acc' held => held = handles acc'.1) fun err _ => e err := by
  rw [tracedConnectEvent, connectEventOps, handleConnectEvent]
  cases hlookup : acc.1.lookup event.fd with
  | none => exact .of_turns (turns_nil _) rfl
  | some client =>
    dsimp only
    cases connectEvent event client with
    | error err =>
      have hmem : Handle.fd event.fd ∈ handles acc.1 :=
        fd_mem_handles.mpr (AList.lookup_isSome.mp (by rw [hlookup]; rfl))
      exact .of_turns (turns_closed_erase hmem) (handles_erase _ _).symm
    | ok client' =>
      exact .of_turns (turns_nil _) (handles_eq_of_keys (AList.keys_replace _ _ _)).symm

/-- **The loop of `connect_clients`** throws nothing. -/
theorem holds_connectLoop (waits : List ConnectWait) (acc : Clients × ℕ)
    {e : RuntimeError → Prop} :
    (tracedConnectLoop acc waits).Holds (handles acc.1)
      (fun result held => ∀ acc', result = some acc' → held = handles acc'.1)
      fun err _ => e err := by
  induction waits generalizing acc with
  | nil =>
    refine holds_pure fun acc' h => ?_
    split at h
    · rw [← Option.some.inj h]
    · exact absurd h (by simp)
  | cons wait waits ih =>
    cases wait with
    | noEvents =>
      rw [tracedConnectLoop]
      split <;> exact holds_pure fun acc' h => by rw [← Option.some.inj h]
    | ready events =>
      rw [tracedConnectLoop]
      split
      · exact holds_pure fun acc' h => by rw [← Option.some.inj h]
      · have hevents : (events.foldlM tracedConnectEvent acc).Holds (handles acc.1)
            (fun acc' held => held = handles acc'.1) fun err _ => e err :=
          holds_foldlM rfl fun acc event held _ hheld => hheld ▸ holds_connectEvent acc event
        refine hevents.bind fun acc' held hheld => ?_
        rw [hheld]
        exact ih acc'

/-! ## The main loop, with what is open -/

theorem keys_sendRound {env : SendEnv} {goesOn : Bool} {g g' : Loadgen}
    (h : sendRound env g = .ok (goesOn, g')) : g'.clients.keys = g.clients.keys := by
  rcases sendRound_cases h with ⟨-, rfl⟩ | ⟨fd, client, -, -, ⟨-, rfl⟩ | ⟨-, rfl⟩⟩
  · rfl
  · exact AList.keys_replace _ _ _
  · exact AList.keys_replace _ _ _

theorem keys_sendLoop {options : Options} {connectedMs currentMs : UInt64} {sends : ℕ → SendEnv}
    {rounds i : ℕ} {g g' : Loadgen}
    (h : sendLoop options connectedMs currentMs sends rounds i g = .ok g') :
    g'.clients.keys = g.clients.keys := by
  induction rounds generalizing i g with
  | zero => rw [← Except.ok.inj h]
  | succ rounds ih =>
    rw [sendLoop] at h
    split at h
    · split at h
      · exact absurd h (by simp)
      · next next hround => exact (ih h).trans (keys_sendRound hround)
      · next next hround =>
        rw [← Except.ok.inj h]
        exact keys_sendRound hround
    · rw [← Except.ok.inj h]

/-- An event that fails closes its client. -/
theorem holds_event (g : Loadgen) (event : SocketEvent) {e : RuntimeError → Finset Handle → Prop} :
    (tracedEvent g event).Holds (handles g.clients)
      (fun g' held => held = handles g'.clients) e := by
  rw [tracedEvent, eventOps]
  cases hlookup : g.clients.lookup event.fd with
  | none =>
    have hsame : handleEvent g event = g := by rw [handleEvent, hlookup]
    rw [hsame]
    exact .of_turns (turns_nil _) rfl
  | some client =>
    dsimp only
    cases hevent : clientEvent event client with
    | error err =>
      have hmem : Handle.fd event.fd ∈ handles g.clients :=
        fd_mem_handles.mpr (AList.lookup_isSome.mp (by rw [hlookup]; rfl))
      rw [handleEvent_of_error hlookup hevent]
      exact .of_turns (turns_closed_erase hmem) (handles_erase _ _).symm
    | ok reading =>
      have hkeys : (handleEvent g event).clients.keys = g.clients.keys := by
        cases hack : reading.ack with
        | none =>
          rw [handleEvent_of_none hlookup hevent hack]
          exact AList.keys_replace _ _ _
        | some ack =>
          rw [handleEvent_of_some hlookup hevent hack]
          exact AList.keys_replace _ _ _
      exact .of_turns (turns_nil _) (handles_eq_of_keys hkeys).symm

/-- **One iteration.**  It throws before its events. -/
theorem holds_iteration (options : Options) (connectedMs : UInt64) (g : Loadgen)
    (env : IterationEnv) :
    (tracedIteration options connectedMs g env).Holds (handles g.clients)
      (fun g' held => held = handles g'.clients) fun _ held => held = handles g.clients := by
  rw [tracedIteration]
  cases hsend : sendLoop options connectedMs env.currentMs env.sends
      (tick options connectedMs env.currentMs g).clients.entries.length 0
      (tick options connectedMs env.currentMs g) with
  | error e => exact holds_lift rfl
  | ok next =>
    have hsame : next.clients.keys = (tick options connectedMs env.currentMs g).clients.keys :=
      keys_sendLoop hsend
    have hkeys : handles next.clients = handles g.clients := handles_eq_of_keys hsame
    show (match env.epoll with
      | .failed errno => .lift (if errno = .EINTR then .ok next else .error (.strerror errno))
      | .ready events => events.foldlM tracedEvent next :
        Traced Handle RuntimeError Loadgen).Holds _ _ _
    rw [← hkeys]
    cases env.epoll with
    | failed errno =>
      refine holds_lift ?_
      split
      · rfl
      · rfl
    | ready events =>
      exact holds_foldlM rfl fun g event held _ hheld => hheld ▸ holds_event g event

/-- The main loop takes these iterations, its guard true before each. -/
abbrev Iterates (options : Options) (connectedMs : UInt64) :
    Loadgen → List IterationEnv → Loadgen → Prop :=
  Run (iteration options connectedMs) fun g env => guard options connectedMs env.guardMs g = true

/-- The main loop on the answers `envs` has taken the iterations `taken` and comes to the next one,
that of `env`, in the state `g'`. -/
structure ComesTo (options : Options) (connectedMs : UInt64) (g : Loadgen)
    (envs taken : List IterationEnv) (g' : Loadgen) (env : IterationEnv) : Prop where
  run : Iterates options connectedMs g taken g'
  next : taken ++ [env] <+: envs

theorem comesTo_head (options : Options) (connectedMs : UInt64) (g : Loadgen) (env : IterationEnv)
    (envs : List IterationEnv) : ComesTo options connectedMs g (env :: envs) [] g env :=
  ⟨Run.nil, List.prefix_append [env] envs⟩

theorem ComesTo.cons {options : Options} {connectedMs : UInt64} {g next g' : Loadgen}
    {env env' : IterationEnv} {envs taken : List IterationEnv}
    (h : ComesTo options connectedMs next envs taken g' env')
    (hguard : guard options connectedMs env.guardMs g = true)
    (hok : iteration options connectedMs g env = .ok next) :
    ComesTo options connectedMs g (env :: envs) (env :: taken) g' env' := by
  have hfirst : Iterates options connectedMs g [env] next := Run.single hguard hok
  exact ⟨hfirst.append h.run, List.cons_prefix_cons.mpr ⟨rfl, h.next⟩⟩

/-- **The main loop.**  The clients of the map are open, whether it ends or throws. -/
theorem holds_mainLoop (options : Options) (connectedMs : UInt64) (envs : List IterationEnv)
    (g : Loadgen) :
    (tracedMainLoop options connectedMs g envs).Holds (handles g.clients)
      (fun result held => ∀ g', result = some g' → held = handles g'.clients ∧
        ∃ taken env, ComesTo options connectedMs g envs taken g' env ∧
          guard options connectedMs env.guardMs g' = false)
      fun e held => ∃ taken g' env, ComesTo options connectedMs g envs taken g' env ∧
        guard options connectedMs env.guardMs g' = true ∧
        iteration options connectedMs g' env = .error e ∧ held = handles g'.clients := by
  induction envs generalizing g with
  | nil => exact holds_pure fun g' h => absurd h (by simp)
  | cons env envs ih =>
    have hhead := comesTo_head options connectedMs g env envs
    rw [tracedMainLoop]
    by_cases hguard : guard options connectedMs env.guardMs g = true
    · rw [if_pos hguard]
      refine ((holds_iteration options connectedMs g env).with_result.with_error.mono
        (fun _ _ h => h) fun e held hthrown => ?_).bind fun next held hnext => ?_
      · rw [result_tracedIteration] at hthrown
        exact ⟨[], g, env, hhead, hguard, hthrown.1, hthrown.2⟩
      · obtain ⟨hok, rfl⟩ := hnext
        rw [result_tracedIteration] at hok
        refine (ih next).mono (fun result held h g' hg' => ?_) fun e held h => ?_
        · obtain ⟨hheld, taken, stop, hcomes, hend⟩ := h g' hg'
          exact ⟨hheld, _, stop, hcomes.cons hguard hok, hend⟩
        · obtain ⟨taken, g', stop, hcomes, hrest⟩ := h
          exact ⟨_, g', stop, hcomes.cons hguard hok, hrest⟩
    · rw [if_neg hguard]
      refine holds_pure fun g' h => ?_
      obtain rfl := Option.some.inj h
      exact ⟨rfl, [], env, hhead, by simpa using hguard⟩

/-! ## The whole run -/

/-- What an exception leaves open beside the epoll descriptor: when a client could not be opened,
what `LeftOpening` says, and when an iteration of the main loop throws, the clients of the state
before it. -/
def LeftOpen (options : Options) (answers : RunAnswers) (e : RuntimeError)
    (held : Finset Handle) : Prop :=
  LeftOpening options answers.sockets e held ∨
    ∃ clients errors taken g env,
      connectClients options answers.sockets answers.waits = .ok (some (clients, errors)) ∧
      ComesTo options answers.connectedMs
        (start (answers.order clients) errors answers.connectedMs) answers.envs taken g env ∧
      guard options answers.connectedMs env.guardMs g = true ∧
      iteration options answers.connectedMs g env = .error e ∧ held = handles g.clients

/-- A run that returns: its main loop, and what it makes of the last state. -/
structure Returned (options : Options) (answers : RunAnswers) (outcome : Outcome) : Prop where
  opened : ∃ opened, AllOpened options answers.sockets opened
  loop : ∃ clients errors taken env,
    connectClients options answers.sockets answers.waits = .ok (some (clients, errors)) ∧
    ComesTo options answers.connectedMs
      (start (answers.order clients) errors answers.connectedMs) answers.envs taken
      outcome.last env ∧
    guard options answers.connectedMs env.guardMs outcome.last = false
  summary : outcome.summary = printSummary options answers.startedMs answers.connectedMs
    outcome.last.sent outcome.last.latencies outcome.last.errors answers.elapsedNowMs
    answers.trafficNowMs
  exitCode : outcome.exitCode = if outcome.last.errors = 0 then 0 else 1

/-- What is open behind an exception. -/
def Abandoned (options : Options) (answers : RunAnswers) (e : RuntimeError)
    (held : Finset Handle) : Prop :=
  (∃ errno, answers.createEpoll = .error errno ∧ held = ∅) ∨
    ∃ epollFd left, answers.createEpoll = .ok epollFd ∧ LeftOpen options answers e left ∧
      .fd epollFd ∉ left ∧ held = insert (.fd epollFd) left

section Whole

variable {options : Options} {answers : RunAnswers}

theorem handles_order (answers : RunAnswers) (clients : Clients) :
    handles (answers.order clients) = handles clients := by
  have hkeys : (answers.order clients).keys.Perm clients.keys :=
    (answers.perm_order clients).map Sigma.fst
  rw [handles, handles, List.toFinset_eq_of_perm _ _ hkeys]

theorem abandoned_of_frame {epollFd : Fd} (hepoll : answers.createEpoll = .ok epollFd)
    {e : RuntimeError} {held : Finset Handle} (h : ∃ left, LeftOpen options answers e left ∧
      Disjoint left {Handle.fd epollFd} ∧ held = left ∪ {.fd epollFd}) :
    Abandoned options answers e held := by
  obtain ⟨left, hleft, hdisjoint, rfl⟩ := h
  exact .inr ⟨epollFd, left, hepoll, hleft, Finset.disjoint_singleton_right.mp hdisjoint,
    Finset.union_singleton _ _⟩

/-- `connect_clients`. -/
theorem holds_connectClients (options : Options) (answers : RunAnswers) :
    (tracedConnectClients options answers.sockets answers.waits).Holds ∅
      (fun result held => connectClients options answers.sockets answers.waits = .ok result ∧
        (∃ opened, AllOpened options answers.sockets opened) ∧
        ∀ acc, result = some acc → held = handles acc.1)
      (LeftOpen options answers) := by
  have hconnect : (tracedConnectClients options answers.sockets answers.waits).Holds ∅
      (fun result held => (∃ opened, AllOpened options answers.sockets opened) ∧
        ∀ acc, result = some acc → held = handles acc.1)
      (LeftOpen options answers) := by
    refine Holds.bind ((holds_openClients options answers.sockets (Nat.le_refl _)).mono
      (fun _ _ h => h) fun e held h => .inl h) fun clients held hclients => ?_
    obtain ⟨hheld, hopen, hlength, hphase⟩ := hclients
    rw [hheld]
    exact (holds_connectLoop answers.waits (clients, 0)).mono
      (fun result held h => ⟨⟨clients, hopen, hlength, hphase⟩, h⟩)
      fun e held (h : False) => h.elim
  refine hconnect.with_result.mono (fun result held h => ⟨?_, h.2⟩) fun e held h => h
  rw [← result_tracedConnectClients]
  exact h.1

/-- The end of the run closes everything. -/
theorem holds_finish (epollFd : Fd) (g : Loadgen)
    (hdisjoint : Disjoint (handles g.clients) {Handle.fd epollFd})
    {e : RuntimeError → Finset Handle → Prop} :
    (finish options answers epollFd g).Holds (handles g.clients ∪ {.fd epollFd})
      (fun outcome held => held = ∅ ∧ (finish options answers epollFd g).result = .ok outcome)
      e := by
  have hclients := (turns_closeClients g.clients).frame hdisjoint
  rw [Finset.empty_union] at hclients
  have hall : (finish options answers epollFd g).Holds (handles g.clients ∪ {.fd epollFd})
      (fun _ held => held = ∅) e := by
    refine (holds_calls hclients).bind fun _ held hheld => ?_
    rw [hheld]
    refine (holds_calls (turns_closed _)).bind fun _ held hheld => ?_
    exact holds_pure hheld
  exact hall.with_result.mono (fun outcome held h => ⟨h.2, h.1⟩) fun err held h => h

/-- **The whole run**, whichever way it ends. -/
theorem holds_runLoadgen (options : Options) (answers : RunAnswers) :
    (runLoadgen options answers).Holds ∅
      (fun result held => ∀ outcome, result = some outcome →
        held = ∅ ∧ Returned options answers outcome)
      (Abandoned options answers) := by
  rw [runLoadgen]
  cases hepoll : answers.createEpoll with
  | error errno => exact holds_lift (.inl ⟨errno, hepoll, rfl⟩)
  | ok epollFd =>
    have hopened : (createEpoll (.ok epollFd)).Holds ∅ (fun fd held => fd = epollFd ∧
        held = ∅ ∪ {.fd epollFd}) (Abandoned options answers) :=
      (holds_opened (Handle.fd epollFd) ∅).bind fun _ held hheld =>
        holds_pure ⟨rfl, hheld.2.trans (Finset.union_singleton _ _).symm⟩
    refine hopened.bind fun fd held hheld => ?_
    obtain ⟨hfd, rfl⟩ := hheld
    rw [hfd]
    refine (((holds_connectClients options answers).frame (Finset.disjoint_empty_left _)).mono
      (fun _ _ h => h) fun e held h => abandoned_of_frame hepoll h).bind
      fun result held hresult => ?_
    obtain ⟨b, ⟨hconnect, hopened, hb⟩, hdisjoint, rfl⟩ := hresult
    cases result with
    | none => exact holds_pure fun outcome h => absurd h (by simp)
    | some acc =>
      obtain ⟨clients, errors⟩ := acc
      obtain rfl := hb _ rfl
      rw [← handles_order answers] at hdisjoint ⊢
      refine (((holds_mainLoop options answers.connectedMs answers.envs
        (start (answers.order clients) errors answers.connectedMs)).frame hdisjoint).mono
        (fun _ _ h => h) fun e held h => ?_).bind fun result held hresult => ?_
      · obtain ⟨left, ⟨taken, g, env, hcomes, hthrows⟩, hbeside⟩ := h
        exact abandoned_of_frame hepoll ⟨left, .inr ⟨clients, errors, taken, g, env, hconnect,
          hcomes, hthrows⟩, hbeside⟩
      · obtain ⟨b, hb, hbeside, rfl⟩ := hresult
        cases result with
        | none => exact holds_pure fun outcome h => absurd h (by simp)
        | some g =>
          obtain ⟨rfl, taken, env, hcomes, hend⟩ := hb g rfl
          show (finish options answers epollFd g >>= fun outcome => pure (some outcome)).Holds _ _ _
          refine (holds_finish epollFd g hbeside).bind fun outcome held hfinish => ?_
          refine holds_pure fun other h => ?_
          obtain ⟨rfl, hok⟩ := hfinish
          obtain rfl := Option.some.inj h
          obtain rfl := Except.ok.inj hok
          exact ⟨rfl, hopened, ⟨clients, errors, taken, env, hconnect, hcomes, hend⟩, rfl, rfl⟩

end Whole

/-- A run that is computed to return, with a checked property. -/
theorem exists_result_of_any {options : Options} {answers : RunAnswers} {P : Outcome → Bool}
    (h : (runLoadgen options answers).result.toOption.join.any P = true) :
    ∃ outcome, (runLoadgen options answers).result = .ok (some outcome) ∧ P outcome = true := by
  cases hresult : (runLoadgen options answers).result with
  | error e => rw [hresult] at h; exact absurd h (by simp [Except.toOption])
  | ok result =>
    rw [hresult] at h
    cases result with
    | none => exact absurd h (by simp [Except.toOption])
    | some outcome => exact ⟨outcome, rfl, h⟩

/-- A run with one client, which is answered. -/
def soleRun : RunAnswers where
  createEpoll := .ok 3
  startedMs := 0
  sockets := fun _ => ⟨.ok 4, none, true, some .EINPROGRESS, none⟩
  waits := [.ready [⟨4, false, true, .ok true, none⟩]]
  connectedMs := 0
  order := id
  perm_order := fun _ => .refl _
  envs := [
    { guardMs := 0, currentMs := 500, sends := fun _ => ⟨500, .room 1000⟩,
      epoll := .ready [⟨4, false, true, 510, [ascii "ACK device_id=load-0 seq=1 server_ms=9\n"],
        .failed .EAGAIN⟩] },
    { guardMs := 1000, currentMs := 1000, sends := fun _ => ⟨1000, .room 1000⟩,
      epoll := .ready [] } ]
  elapsedNowMs := 1000
  trafficNowMs := 1000

end Loadgen
end RemoteDeviceConsole
