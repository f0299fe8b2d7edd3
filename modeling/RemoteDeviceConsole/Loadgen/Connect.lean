import RemoteDeviceConsole.Loadgen.Client
import RemoteDeviceConsole.Machine.Table

/-!
# Connecting the clients

`start_connect` and `connect_clients`: one socket for each requested connection, then
a loop over `epoll_wait` until every client is ready or an `epoll_wait` brings no
event.

The map of clients is a `Clients` table.  Its order is the iteration order of the hash
map, which `connect_clients` does not depend on; whoever goes on with the map may find
it in any order.
-/

namespace RemoteDeviceConsole
namespace Loadgen

open Framing Machine

/-- The options that `parse_options` fills. -/
structure Options where
  host : Bytes
  port : ℤ
  connections : ℤ
  ratePerSecond : ℤ
  durationSeconds : ℤ

/-- `std::unordered_map<int, ClientState>`. -/
abbrev Clients := AList fun _ : Fd => ClientState

/-! ## Sockets -/

/-- The kernel's answers while one client is opened: the five calls in their order.
`inetPton` tells whether the host is an address. -/
structure SocketAnswers where
  socket : Except Errno Fd
  setNonBlocking : Option Errno
  inetPton : Bool
  connect : Option Errno
  addEpollFd : Option Errno

/-- `start_connect`. -/
def startConnect (answers : SocketAnswers) : Except RuntimeError Fd :=
  match answers.socket with
  | .error errno => .error (.strerror errno)
  | .ok fd =>
    match answers.setNonBlocking with
    | some errno => .error (.strerror errno)
    | none =>
      if answers.inetPton = false then .error (.what (ascii "invalid --host address"))
      else
        match answers.connect with
        | none => .ok fd
        | some errno => if errno ≠ .EINPROGRESS then .error (.strerror errno) else .ok fd

/-- One round of the loop that opens the clients. -/
def openClient (answers : SocketAnswers) (index : ℕ) (clients : Clients) :
    Except RuntimeError Clients :=
  match startConnect answers with
  | .error e => .error e
  | .ok fd =>
    let clients := if fd ∈ clients then clients else clients.insert fd { fd, index }
    match answers.addEpollFd with
    | some errno => .error (.strerror errno)
    | none => .ok clients

/-- The loop that opens the clients. -/
def openClients (options : Options) (answers : ℕ → SocketAnswers) : Except RuntimeError Clients :=
  (List.range options.connections.toNat).foldlM
    (fun clients index => openClient (answers index) index clients) ∅

/-! ## Waiting for the connections -/

/-- An event for a client that may be connecting, with the answers of `getsockopt`
(`true` for no error) and of `epoll_ctl`. -/
structure ConnectEvent where
  fd : Fd
  errorOrHangup : Bool
  writable : Bool
  finishConnect : Except Errno Bool
  modEpollFd : Option Errno

/-- The body of the `try` block for one event. -/
def connectEvent (event : ConnectEvent) (client : ClientState) : Except RuntimeError ClientState :=
  if event.errorOrHangup then .error (.what (ascii "socket error event"))
  else if client.phase = .connecting ∧ event.writable = true then
    match event.finishConnect with
    | .error errno => .error (.strerror errno)
    | .ok false => .error (.what (ascii "connect failed"))
    | .ok true =>
      match event.modEpollFd with
      | some errno => .error (.strerror errno)
      | none => .ok { client with phase := .ready }
  else .ok client

/-- One event, with the failures counted. -/
def handleConnectEvent (acc : Clients × ℕ) (event : ConnectEvent) : Clients × ℕ :=
  match acc.1.lookup event.fd with
  | none => acc
  | some client =>
    match connectEvent event client with
    | .error _ => (acc.1.erase event.fd, acc.2 + 1)
    | .ok client => (acc.1.replace event.fd client, acc.2)

/-- What one `epoll_wait` brings: a count that is not positive, or events. -/
inductive ConnectWait where
  | noEvents
  | ready (events : List ConnectEvent)

/-- The loop is left when there is no client, or when all are ready. -/
def allReady (clients : Clients) : Bool :=
  clients.entries.all fun entry => entry.2.phase = .ready

/-- The loop of `connect_clients`: the clients and the errors when it returns. -/
def connectLoop : Clients × ℕ → List ConnectWait → Option (Clients × ℕ)
  | acc, [] => if allReady acc.1 then some acc else none
  | acc, wait :: waits =>
      if allReady acc.1 then some acc
      else
        match wait with
        | .noEvents => some (acc.1, acc.2 + acc.1.entries.length)
        | .ready events => connectLoop (events.foldl handleConnectEvent acc) waits

/-- `connect_clients`, when it returns for these answers. -/
def connectClients (options : Options) (answers : ℕ → SocketAnswers) (waits : List ConnectWait) :
    Except RuntimeError (Option (Clients × ℕ)) :=
  (openClients options answers).map fun clients => connectLoop (clients, 0) waits

/-! ## What connected clients are -/

/-- A client that has sent nothing yet. -/
structure Fresh (fd : Fd) (client : ClientState) : Prop where
  fd : client.fd = fd
  sequence : client.sequence = 0
  receiveBuffer : client.receiveBuffer = []
  phase : client.phase ≠ .waitingAck

/-- Every client of the table is fresh. -/
def AllFresh (clients : Clients) : Prop :=
  ∀ fd client, clients.lookup fd = some client → Fresh fd client

theorem allFresh_openClient {answers : SocketAnswers} {index : ℕ} {clients clients' : Clients}
    (hfresh : AllFresh clients) (h : openClient answers index clients = .ok clients') :
    AllFresh clients' := by
  rw [openClient] at h
  cases hstart : startConnect answers with
  | error e => rw [hstart] at h; exact absurd h (by simp)
  | ok newFd =>
    simp only [hstart] at h
    cases hadd : answers.addEpollFd with
    | some errno => rw [hadd] at h; exact absurd h (by simp)
    | none =>
      simp only [hadd, Except.ok.injEq] at h
      rw [← h]
      intro fd client hclient
      split at hclient
      · exact hfresh fd client hclient
      · by_cases hfd : fd = newFd
        · subst hfd
          rw [AList.lookup_insert, Option.some.injEq] at hclient
          rw [← hclient]
          exact ⟨rfl, rfl, rfl, by simp⟩
        · rw [AList.lookup_insert_ne hfd] at hclient
          exact hfresh fd client hclient

theorem allFresh_openClients {options : Options} {answers : ℕ → SocketAnswers} {clients : Clients}
    (h : openClients options answers = .ok clients) : AllFresh clients := by
  have hfold : ∀ (indices : List ℕ) (start clients : Clients), AllFresh start →
      indices.foldlM (fun clients index => openClient (answers index) index clients) start =
        .ok clients → AllFresh clients := by
    intro indices
    induction indices with
    | nil =>
      intro start clients hstart hok
      have heq : start = clients := by simpa [pure, Except.pure] using hok
      exact heq ▸ hstart
    | cons index indices ih =>
      intro start clients hstart hok
      rw [List.foldlM_cons] at hok
      cases hopen : openClient (answers index) index start with
      | error e => rw [hopen] at hok; exact absurd hok (by simp [bind, Except.bind])
      | ok next =>
        rw [hopen] at hok
        exact ih next clients (allFresh_openClient hstart hopen) hok
  exact hfold _ ∅ clients (fun fd client hclient => absurd hclient (by simp)) h

theorem allFresh_handleConnectEvent {acc : Clients × ℕ} (hfresh : AllFresh acc.1)
    (event : ConnectEvent) : AllFresh (handleConnectEvent acc event).1 := by
  unfold handleConnectEvent
  split
  · exact hfresh
  · next client hlookup =>
    split
    · intro fd other hother
      by_cases hfd : fd = event.fd
      · rw [hfd, AList.lookup_erase] at hother
        exact absurd hother (by simp)
      · rw [AList.lookup_erase_ne hfd] at hother
        exact hfresh fd other hother
    · next client' hevent =>
      have hclient := hfresh event.fd client hlookup
      have hnext : Fresh event.fd client' := by
        unfold connectEvent at hevent
        split at hevent
        · exact absurd hevent (by simp)
        · split at hevent
          · split at hevent
            · exact absurd hevent (by simp)
            · exact absurd hevent (by simp)
            · split at hevent
              · exact absurd hevent (by simp)
              · rw [← Except.ok.inj hevent]
                exact ⟨hclient.fd, hclient.sequence, hclient.receiveBuffer, by simp⟩
          · rw [← Except.ok.inj hevent]
            exact hclient
      intro fd other hother
      by_cases hfd : fd = event.fd
      · subst hfd
        rw [lookup_replace_self hlookup, Option.some.injEq] at hother
        exact hother ▸ hnext
      · rw [lookup_replace_of_ne hfd] at hother
        exact hfresh fd other hother

/-- **`connect_clients` leaves fresh clients**, however it returns. -/
theorem allFresh_connectClients {options : Options} {answers : ℕ → SocketAnswers}
    {waits : List ConnectWait} {result : Clients × ℕ}
    (h : connectClients options answers waits = .ok (some result)) : AllFresh result.1 := by
  unfold connectClients at h
  cases hopen : openClients options answers with
  | error e => rw [hopen] at h; exact absurd h (by simp [Except.map])
  | ok clients =>
    have hloop : ∀ (waits : List ConnectWait) (acc : Clients × ℕ), AllFresh acc.1 →
        connectLoop acc waits = some result → AllFresh result.1 := by
      intro waits
      induction waits with
      | nil =>
        intro acc hacc hsome
        rw [connectLoop] at hsome
        split at hsome
        · rw [← Option.some.inj hsome]
          exact hacc
        · exact absurd hsome (by simp)
      | cons wait waits ih =>
        intro acc hacc hsome
        cases wait with
        | noEvents =>
          rw [connectLoop] at hsome
          split at hsome
          · exact Option.some.inj hsome ▸ hacc
          · rw [← Option.some.inj hsome]
            exact hacc
        | ready events =>
          rw [connectLoop] at hsome
          split at hsome
          · exact Option.some.inj hsome ▸ hacc
          · refine ih _ ?_ hsome
            exact List.foldlRecOn (motive := fun acc => AllFresh acc.1) events handleConnectEvent
              hacc fun acc hacc event _ => allFresh_handleConnectEvent hacc event
    rw [hopen] at h
    have hsome : connectLoop (clients, 0) waits = some result := by simpa [Except.map] using h
    exact hloop waits (clients, 0) (allFresh_openClients hopen) hsome

end Loadgen
end RemoteDeviceConsole
