import RemoteDeviceConsole.Loadgen.Connect
import RemoteDeviceConsole.Machine.Run
import Mathlib.Data.Rat.Defs
import Mathlib.Algebra.Order.Ring.Rat
import Mathlib.Tactic.Linarith

/-!
# The main loop of the load generator

`run_loadgen` behind `connect_clients`.  The state `Loadgen` has the locals of the
loop, and the `trace` of what the program did: the STATUS lines that went out, the bytes
that came in, the ACKs that `receive_ack` took and the clients that were closed.
`send_credit` is an exact number.

An iteration is a tick, rounds of the sending loop, and the events of one
`epoll_wait`.  `Step` is one of these three, and `GenRun` a run of steps in any order
that the guards of the two loops allow; `exists_steps_of_iteration` says that the
iterations of the program are such runs.  A step that throws out of the loop ends the
program.
-/

namespace RemoteDeviceConsole
namespace Loadgen

open Framing Machine

/-! ## State -/

/-- One ACK: the client when `receive_ack` was called and when it returned, the line it
took, the clock it read and the latency it returned. -/
structure AckRecord where
  before : ClientState
  after : ClientState
  line : Bytes
  nowMs : UInt64
  latency : UInt64
  deriving DecidableEq

/-- What the load generator did. -/
inductive Action where
  /-- The STATUS line of the client went out; the client is as `send_status` leaves it. -/
  | status (client : ClientState)
  /-- The bytes were read from the socket of a client, and no failure with them. -/
  | read (fd : Fd) (data : Bytes)
  | acked (record : AckRecord)
  /-- The client was closed after a failure; it is as the event found it. -/
  | closed (client : ClientState)
  deriving DecidableEq

end Loadgen

open Framing Machine Loadgen

/-- The locals of `run_loadgen` in its main loop. -/
structure Loadgen where
  clients : Clients
  latencies : List UInt64
  errors : ℕ
  sent : ℕ
  nextClientIndex : ℕ
  sendCredit : ℚ
  lastTickMs : UInt64
  trace : List Action

namespace Loadgen

/-- The locals behind `connect_clients`. -/
def start (clients : Clients) (errors : ℕ) (connectedMs : UInt64) : Loadgen where
  clients := clients
  latencies := []
  errors := errors
  sent := 0
  nextClientIndex := 0
  sendCredit := 0
  lastTickMs := connectedMs
  trace := []

/-- `test_end_ms`. -/
def testEndMs (options : Options) (connectedMs : UInt64) : UInt64 :=
  connectedMs + UInt64.ofInt options.durationSeconds * 1000

/-- The guard of the main loop. -/
def guard (options : Options) (connectedMs nowMs : UInt64) (g : Loadgen) : Bool :=
  nowMs < testEndMs options connectedMs ∨ g.latencies.length < g.sent

/-! ## Sending -/

/-- The begin of an iteration: the clock and the credit. -/
def tick (options : Options) (connectedMs currentMs : UInt64) (g : Loadgen) : Loadgen :=
  let deltaMs := currentMs - g.lastTickMs
  { g with
    lastTickMs := currentMs
    sendCredit :=
      if currentMs < testEndMs options connectedMs then
        g.sendCredit + options.ratePerSecond * deltaMs.toNat / 1000
      else g.sendCredit }

/-- The guard of the sending loop. -/
def sendGuard (options : Options) (connectedMs currentMs : UInt64) (g : Loadgen) : Bool :=
  1 ≤ g.sendCredit ∧ g.clients.entries ≠ [] ∧ currentMs < testEndMs options connectedMs

/-- One round of the sending loop; the result tells whether the loop goes on. -/
def sendRound (env : SendEnv) (g : Loadgen) : Except RuntimeError (Bool × Loadgen) :=
  match g.clients.entries[g.nextClientIndex % g.clients.entries.length]? with
  | none => .ok (false, g)
  | some ⟨fd, client⟩ =>
    if client.phase = .ready then
      match sendStatus env client with
      | .error e => .error e
      | .ok (true, client) =>
          .ok (true, { g with
            clients := g.clients.replace fd client
            sent := g.sent + 1
            sendCredit := g.sendCredit - 1
            nextClientIndex := g.nextClientIndex + 1
            trace := g.trace ++ [.status client] })
      | .ok (false, client) => .ok (false, { g with clients := g.clients.replace fd client })
    else .ok (false, g)

/-- The sending loop, for at most `rounds` rounds.  The answers for round `i` are
`sends i`. -/
def sendLoop (options : Options) (connectedMs currentMs : UInt64) (sends : ℕ → SendEnv) :
    ℕ → ℕ → Loadgen → Except RuntimeError Loadgen
  | 0, _, g => .ok g
  | rounds + 1, i, g =>
      if sendGuard options connectedMs currentMs g then
        match sendRound (sends i) g with
        | .error e => .error e
        | .ok (true, g) => sendLoop options connectedMs currentMs sends rounds (i + 1) g
        | .ok (false, g) => .ok g
      else .ok g

/-! ## Events -/

/-- An event of `epoll_wait`, with what the kernel answers while it is handled. -/
structure SocketEvent where
  fd : Fd
  errorOrHangup : Bool
  readable : Bool
  nowMs : UInt64
  chunks : List Bytes
  last : RecvEnd

/-- The body of the `try` block for one event. -/
def clientEvent (event : SocketEvent) (client : ClientState) : Except RuntimeError AckReading :=
  if event.errorOrHangup then .error (.what (ascii "socket error event"))
  else if client.phase = .waitingAck ∧ event.readable = true then
    receiveAck event.nowMs event.chunks event.last client
  else .ok ⟨client, none, []⟩

/-- One event.  A client that fails is counted and closed. -/
def handleEvent (g : Loadgen) (event : SocketEvent) : Loadgen :=
  match g.clients.lookup event.fd with
  | none => g
  | some client =>
    match clientEvent event client with
    | .error _ =>
        { g with
          errors := g.errors + 1
          clients := g.clients.erase event.fd
          trace := g.trace ++ [.closed client] }
    | .ok reading =>
        let g := { g with
          clients := g.clients.replace event.fd reading.client
          trace := g.trace ++ [.read event.fd reading.data] }
        match reading.ack with
        | none => g
        | some (line, latency) =>
            { g with
              latencies := g.latencies ++ [latency]
              trace := g.trace ++
                [.acked { before := client, after := reading.client, line,
                          nowMs := event.nowMs, latency }] }

/-! ## Iterations -/

/-- What one `epoll_wait` returns. -/
inductive EpollAnswer where
  | failed (errno : Errno)
  | ready (events : List SocketEvent)

/-- The answers of the kernel during one iteration: the clock at the guard and behind
it, the answers for the rounds of the sending loop, and `epoll_wait`. -/
structure IterationEnv where
  guardMs : UInt64
  currentMs : UInt64
  sends : ℕ → SendEnv
  epoll : EpollAnswer

/-- One iteration of the main loop.  Every round of the sending loop that goes on makes a
ready client wait, so one round for each client is enough (`sendLoop_add`). -/
def iteration (options : Options) (connectedMs : UInt64) (g : Loadgen) (env : IterationEnv) :
    Except RuntimeError Loadgen :=
  let g := tick options connectedMs env.currentMs g
  match sendLoop options connectedMs env.currentMs env.sends g.clients.entries.length 0 g with
  | .error e => .error e
  | .ok g =>
    match env.epoll with
    | .failed errno => if errno = .EINTR then .ok g else .error (.strerror errno)
    | .ready events => .ok (events.foldl handleEvent g)

/-- What the main loop starts from: the clients that `connect_clients` left, in some
order. -/
def Connected (options : Options) (clients : Clients) (errors : ℕ) : Prop :=
  ∃ answers waits connected, connectClients options answers waits = .ok (some (connected, errors)) ∧
    clients.entries.Perm connected.entries

/-- A run of the main loop, iteration by iteration; the guard holds before each. -/
structure LoopRun (options : Options) (clients : Clients) (errors : ℕ) (connectedMs : UInt64)
    (envs : List IterationEnv) (g : Loadgen) : Prop where
  connected : Connected options clients errors
  run : Run (iteration options connectedMs)
    (fun g env => guard options connectedMs env.guardMs g = true)
    (start clients errors connectedMs) envs g

/-! ## Steps -/

/-- A tick, a round of the sending loop, or an event. -/
inductive Step where
  | tick (guardMs currentMs : UInt64)
  | send (env : SendEnv)
  | event (event : SocketEvent)

def step (options : Options) (connectedMs : UInt64) (g : Loadgen) :
    Step → Except RuntimeError Loadgen
  | .tick _ currentMs => .ok (tick options connectedMs currentMs g)
  | .send env => (sendRound env g).map (·.2)
  | .event event => .ok (handleEvent g event)

/-- The guards of the two loops.  The clock that the sending loop looks at is the one of
the last tick. -/
def Enabled (options : Options) (connectedMs : UInt64) (g : Loadgen) : Step → Prop
  | .tick guardMs _ => guard options connectedMs guardMs g = true
  | .send _ => sendGuard options connectedMs g.lastTickMs g = true
  | .event _ => True

instance (options : Options) (connectedMs : UInt64) (g : Loadgen) (st : Step) :
    Decidable (Enabled options connectedMs g st) :=
  match st with
  | .tick guardMs _ => inferInstanceAs (Decidable (guard options connectedMs guardMs g = true))
  | .send _ => inferInstanceAs (Decidable (sendGuard options connectedMs g.lastTickMs g = true))
  | .event _ => isTrue trivial

/-- A run of the main loop, step by step. -/
structure GenRun (options : Options) (clients : Clients) (errors : ℕ) (connectedMs : UInt64)
    (steps : List Step) (g : Loadgen) : Prop where
  connected : Connected options clients errors
  run : Run (step options connectedMs) (Enabled options connectedMs)
    (start clients errors connectedMs) steps g

theorem Connected.allFresh {options : Options} {clients : Clients} {errors : ℕ}
    (h : Connected options clients errors) : AllFresh clients := by
  obtain ⟨answers, waits, connected, hconnect, hperm⟩ := h
  intro fd client hclient
  rw [AList.perm_lookup hperm] at hclient
  exact allFresh_connectClients hconnect fd client hclient

variable {options : Options} {connectedMs currentMs : UInt64} {g g' : Loadgen}

theorem lastTickMs_of_sendRound {env : SendEnv} {goesOn : Bool}
    (h : sendRound env g = .ok (goesOn, g')) : g'.lastTickMs = g.lastTickMs := by
  unfold sendRound at h
  split at h
  · rw [← (Prod.mk.inj (Except.ok.inj h)).2]
  · split at h
    · split at h
      · exact absurd h (by simp)
      · rw [← (Prod.mk.inj (Except.ok.inj h)).2]
      · rw [← (Prod.mk.inj (Except.ok.inj h)).2]
    · rw [← (Prod.mk.inj (Except.ok.inj h)).2]

/-- The sending loop is a run of rounds. -/
theorem exists_steps_of_sendLoop {sends : ℕ → SendEnv} {rounds i : ℕ}
    (h : sendLoop options connectedMs currentMs sends rounds i g = .ok g')
    (hclock : g.lastTickMs = currentMs) :
    ∃ steps, Run (step options connectedMs) (Enabled options connectedMs) g steps g' ∧
      g'.lastTickMs = currentMs := by
  induction rounds generalizing i g with
  | zero =>
    have heq : g = g' := by simpa [sendLoop] using h
    exact ⟨[], heq ▸ Run.nil, heq ▸ hclock⟩
  | succ rounds ih =>
    rw [sendLoop] at h
    split at h
    · next hguard =>
      have henabled : Enabled options connectedMs g (.send (sends i)) := by
        show sendGuard options connectedMs g.lastTickMs g = true
        rw [hclock]
        exact hguard
      cases hround : sendRound (sends i) g with
      | error e => rw [hround] at h; exact absurd h (by simp)
      | ok result =>
        obtain ⟨goesOn, next⟩ := result
        have hstep : step options connectedMs g (.send (sends i)) = .ok next := by
          simp [step, hround, Except.map]
        have hnext : next.lastTickMs = currentMs := (lastTickMs_of_sendRound hround).trans hclock
        rw [hround] at h
        cases goesOn with
        | true =>
          obtain ⟨steps, hsteps, hlast⟩ := ih h hnext
          exact ⟨_, (Run.single henabled hstep).append hsteps, hlast⟩
        | false =>
          rw [← Except.ok.inj h]
          exact ⟨_, Run.single henabled hstep, hnext⟩
    · rw [← Except.ok.inj h]
      exact ⟨[], Run.nil, hclock⟩

theorem run_events (events : List SocketEvent) (g : Loadgen) :
    Run (step options connectedMs) (Enabled options connectedMs) g (events.map .event)
      (events.foldl handleEvent g) := by
  induction events generalizing g with
  | nil => exact Run.nil
  | cons event events ih =>
    have hone : Run (step options connectedMs) (Enabled options connectedMs) g [.event event]
        (handleEvent g event) := Run.single trivial rfl
    exact hone.append (ih _)

/-- **An iteration of the program is a run of steps.** -/
theorem exists_steps_of_iteration {env : IterationEnv}
    (hguard : guard options connectedMs env.guardMs g = true)
    (h : iteration options connectedMs g env = .ok g') :
    ∃ steps, Run (step options connectedMs) (Enabled options connectedMs) g steps g' := by
  have htick : Run (step options connectedMs) (Enabled options connectedMs) g
      [.tick env.guardMs env.currentMs] (tick options connectedMs env.currentMs g) :=
    Run.single hguard rfl
  rw [iteration] at h
  cases hsend : sendLoop options connectedMs env.currentMs env.sends
      (tick options connectedMs env.currentMs g).clients.entries.length 0
      (tick options connectedMs env.currentMs g) with
  | error e => simp only [hsend] at h; exact absurd h (by simp)
  | ok next =>
    simp only [hsend] at h
    obtain ⟨steps, hsteps, -⟩ := exists_steps_of_sendLoop hsend rfl
    cases hepoll : env.epoll with
    | failed errno =>
      simp only [hepoll] at h
      split at h
      · rw [← Except.ok.inj h]
        exact ⟨_, htick.append hsteps⟩
      · exact absurd h (by simp)
    | ready events =>
      simp only [hepoll] at h
      rw [← Except.ok.inj h]
      exact ⟨_, (htick.append hsteps).append (run_events events next)⟩

/-- Iterations, one after another, are a run of steps. -/
theorem exists_steps_of_iterations {envs : List IterationEnv}
    (h : Run (iteration options connectedMs)
      (fun g env => guard options connectedMs env.guardMs g = true) g envs g') :
    ∃ steps, Run (step options connectedMs) (Enabled options connectedMs) g steps g' := by
  refine Run.invariant (P := fun g' => ∃ steps, Run (step options connectedMs)
    (Enabled options connectedMs) g steps g') ?_ h ⟨[], Run.nil⟩
  intro g env g' hg hguard hok
  obtain ⟨steps, hsteps⟩ := hg
  obtain ⟨more, hmore⟩ := exists_steps_of_iteration hguard hok
  exact ⟨steps ++ more, hsteps.append hmore⟩

/-- **The program's runs are step runs.** -/
theorem LoopRun.exists_genRun {clients : Clients} {errors : ℕ} {envs : List IterationEnv}
    (h : LoopRun options clients errors connectedMs envs g) :
    ∃ steps, GenRun options clients errors connectedMs steps g := by
  obtain ⟨steps, hsteps⟩ := exists_steps_of_iterations h.run
  exact ⟨steps, h.connected, hsteps⟩

/-- The options of a short test with one client. -/
def soleOptions : Options := ⟨ascii "127.0.0.1", 5000, 1, 10, 1⟩

/-- The client of that test once it is connected. -/
def soleClients : Clients := AList.singleton 3 { fd := 3, index := 0, phase := .ready }

theorem connected_sole : Connected soleOptions soleClients 0 :=
  ⟨fun _ => ⟨.ok 3, none, true, none, none⟩, [.ready [⟨3, false, true, .ok true, none⟩]],
    soleClients, rfl, .refl _⟩

/-- A computed run of iterations that ends in a state with a checked property. -/
theorem exists_loopRun {options : Options} {clients : Clients} {errors : ℕ}
    (hconnected : Connected options clients errors) (connectedMs : UInt64)
    (envs : List IterationEnv) {P : Loadgen → Bool}
    (h : (runChecked (iteration options connectedMs)
      (fun g env => guard options connectedMs env.guardMs g)
      (start clients errors connectedMs) envs).any P = true) :
    ∃ g, LoopRun options clients errors connectedMs envs g ∧ P g = true := by
  obtain ⟨g, hrun, hg⟩ := exists_run_of_runChecked (fun _ _ hcheck => hcheck) h
  exact ⟨g, ⟨hconnected, hrun⟩, hg⟩

/-- A computed run of steps that ends in a state with a checked property. -/
theorem exists_genRun {options : Options} {clients : Clients} {errors : ℕ}
    (hconnected : Connected options clients errors) (connectedMs : UInt64)
    (steps : List Step) {P : Loadgen → Bool}
    (h : (runChecked (step options connectedMs)
      (fun g st => decide (Enabled options connectedMs g st))
      (start clients errors connectedMs) steps).any P = true) :
    ∃ g, GenRun options clients errors connectedMs steps g ∧ P g = true := by
  obtain ⟨g, hrun, hg⟩ := exists_run_of_runChecked (fun _ _ hcheck => of_decide_eq_true hcheck) h
  exact ⟨g, ⟨hconnected, hrun⟩, hg⟩

end Loadgen
end RemoteDeviceConsole
