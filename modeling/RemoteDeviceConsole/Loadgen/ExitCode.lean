import RemoteDeviceConsole.Loadgen.Process
import RemoteDeviceConsole.Loadgen.Rotation

/-!
# The exit code of the load generator

The exit code is 0 when no error was counted.  Errors are counted in two loops, and in the first of
them for a client that stays in the map: `connectLoop_errors` and `Tally` say what the count is.

`runLoadgen_exitCode` reads the end of a run off its state.  A run that returns has lost no request,
whatever its exit code is: everything that was sent was acknowledged.  The exit code is 0 exactly
when each of the requested connections is still there and ready.

The second half needs more than the count.  When an `epoll_wait` brings nothing, `connect_clients`
counts one error for every connection and returns with clients that are still connecting.  The
main loop never makes such a client ready, and closes it only with one more error.  So an error
count of 0 rules this way out, and the clients that are left are ready or wait; and since nothing
waits when the loop has come to its end, they are ready.  `Tally` carries through the run what this
argument asks for: the closed clients, counted once each, and the clients that are connecting.
-/

namespace RemoteDeviceConsole
namespace Loadgen

open Framing Machine Traced

/-! ## The errors of the two loops -/

/-- **The errors of `connect_clients`.**  When all clients are ready, those that are missing; when
an `epoll_wait` brought nothing before, one for each connection, ready or not. -/
theorem connectLoop_errors {opened : List Fd} {seen : List ConnectEvent} {acc result : Clients × ℕ}
    {waits : List ConnectWait} (h : ConnectTally opened seen acc)
    (hloop : connectLoop acc waits = some result) :
    allReady result.1 = true ∧ result.1.entries.length + result.2 = opened.length ∨
      allReady result.1 = false ∧ result.2 = opened.length ∧
        result.1.entries.length ≤ opened.length := by
  induction waits generalizing seen acc with
  | nil =>
    rw [connectLoop] at hloop
    split at hloop
    · next hready =>
      obtain rfl := Option.some.inj hloop
      exact .inl ⟨hready, h.count⟩
    · exact absurd hloop (by simp)
  | cons wait waits ih =>
    cases wait with
    | noEvents =>
      rw [connectLoop] at hloop
      split at hloop
      · next hready =>
        obtain rfl := Option.some.inj hloop
        exact .inl ⟨hready, h.count⟩
      · next hready =>
        obtain rfl := Option.some.inj hloop
        have hcount := h.count
        refine .inr ⟨by simpa using hready, ?_, ?_⟩
        · show acc.2 + acc.1.entries.length = opened.length
          omega
        · show acc.1.entries.length ≤ opened.length
          omega
    | ready events =>
      rw [connectLoop] at hloop
      split at hloop
      · next hready =>
        obtain rfl := Option.some.inj hloop
        exact .inl ⟨hready, h.count⟩
      · exact ih (h.foldl events) hloop

/-- The client is still connecting. -/
def ClientState.connects (client : ClientState) : Bool := client.phase = .connecting

/-- How many clients were closed. -/
def closedCount (g : Loadgen) : ℕ := g.trace.countP Action.isClosed

variable {options : Options} {answers : RunAnswers} {clients : Clients} {errors : ℕ}
  {connectedMs : UInt64} {steps : List Step} {g g' : Loadgen}

/-- What became of the clients that the main loop started with: one error for each that was closed,
and the others are there.  A client that is connecting stays so. -/
structure Tally (clients : Clients) (errors : ℕ) (g : Loadgen) : Prop where
  errors : g.errors = errors + closedCount g
  length : g.clients.entries.length + closedCount g = clients.entries.length
  connects_le : countValues ClientState.connects g.clients ≤
    countValues ClientState.connects clients
  le_connects : countValues ClientState.connects clients ≤
    countValues ClientState.connects g.clients + closedCount g

/-- A client that is replaced by one of the same phase, or that was not connecting and is not. -/
theorem Tally.replace (h : Tally clients errors g) {fd : Fd} {client client' : ClientState}
    (hlookup : g.clients.lookup fd = some client) (hconnects : client'.connects = client.connects)
    (hnext : g'.clients = g.clients.replace fd client') (herrors : g'.errors = g.errors)
    (hclosed : closedCount g' = closedCount g) : Tally clients errors g' := by
  have hcount := @countValues_replace _ _ _ _ _ _ ClientState.connects hlookup client'
  rw [hconnects] at hcount
  have hsame := Nat.add_right_cancel hcount
  refine ⟨?_, ?_, ?_, ?_⟩
  · rw [herrors, hclosed, h.errors]
  · rw [hnext, length_replace hlookup, hclosed, h.length]
  · rw [hnext, hsame]
    exact h.connects_le
  · rw [hnext, hsame, hclosed]
    exact h.le_connects

/-- **Every move keeps the tally.** -/
theorem tally_of_move (hmove : Move g g') (h : Tally clients errors g) :
    Tally clients errors g' := by
  cases hmove with
  | idle => exact h
  | ticked currentMs credit => exact ⟨h.errors, h.length, h.connects_le, h.le_connects⟩
  | sent fd client nowMs hlookup hready =>
    refine h.replace hlookup ?_ rfl rfl (by simp [closedCount, Action.isClosed])
    simp [ClientState.connects, sentClient, hready]
  | deferred fd client nowMs hlookup hready =>
    refine h.replace hlookup ?_ rfl rfl rfl
    rfl
  | buffered fd client data buffer hlookup =>
    refine h.replace hlookup ?_ rfl rfl (by simp [closedCount, Action.isClosed])
    rfl
  | acked fd client data line buffer nowMs hlookup hwaiting =>
    refine h.replace hlookup ?_ rfl rfl (by simp [closedCount, Action.isClosed])
    simp [ClientState.connects, hwaiting]
  | closed fd client hlookup =>
    have hcount := @countValues_erase _ _ _ _ _ _ ClientState.connects hlookup
    have hlength := length_erase hlookup
    have hone : ∀ acc, closedCount { g with
        errors := g.errors + 1, clients := acc, trace := g.trace ++ [.closed client] } =
        closedCount g + 1 := fun acc => by simp [closedCount, Action.isClosed]
    refine ⟨?_, ?_, ?_, ?_⟩
    · rw [hone, ← Nat.add_assoc, ← h.errors]
    · rw [hone, ← h.length]
      dsimp only
      omega
    · have hle := h.connects_le
      dsimp only
      omega
    · have hle := h.le_connects
      rw [hone]
      dsimp only
      split at hcount <;> omega

theorem tally_start (clients : Clients) (errors : ℕ) (connectedMs : UInt64) :
    Tally clients errors (start clients errors connectedMs) :=
  ⟨rfl, rfl, Nat.le_refl _, Nat.le_refl _⟩

theorem GenRun.tally (h : GenRun options clients errors connectedMs steps g) :
    Tally clients errors g :=
  h.invariant (tally_start clients errors connectedMs) fun _ _ => tally_of_move

/-! ## The end of a run -/

/-- **Where the main loop ends**, everything that was sent has been acknowledged. -/
theorem GenRun.acked_of_guard (h : GenRun options clients errors connectedMs steps g)
    {nowMs : UInt64} (hguard : guard options connectedMs nowMs g = false) :
    g.latencies.length = g.sent ∧ waitingCount g = 0 := by
  have hbalance := h.balance
  have hless : ¬ g.latencies.length < g.sent := fun hless => by
    rw [guard, decide_eq_false_iff_not] at hguard
    exact hguard (.inr hless)
  constructor <;> omega

theorem opened_of_allOpened {opened : Clients} (h : AllOpened options answers.sockets opened) :
    Opened opened.keys opened where
  length := (List.length_map _).symm
  mem _ := AList.mem_keys
  phase := h.phase

/-- A table without connecting and without waiting clients is one of ready clients. -/
theorem ready_of_counts (hconnects : countValues ClientState.connects clients = 0)
    (hwaits : countValues ClientState.waits clients = 0) (fd : Fd) (client : ClientState)
    (hclient : clients.lookup fd = some client) : client.phase = .ready := by
  have hnot := countValues_eq_zero.mp hconnects fd client hclient
  have hidle := countValues_eq_zero.mp hwaits fd client hclient
  cases hphase : client.phase with
  | connecting => rw [ClientState.connects, hphase] at hnot; exact absurd hnot (by simp)
  | ready => rfl
  | waitingAck => rw [ClientState.waits, hphase] at hidle; exact absurd hidle (by simp)

theorem countValues_connects_of_allReady (h : allReady clients = true) :
    countValues ClientState.connects clients = 0 :=
  countValues_eq_zero.mpr fun fd client hclient => by
    simp [ClientState.connects, allReady_iff.mp h fd client hclient]

/-- What holds of the state at the end of a run that returns. -/
structure Ended (options : Options) (g : Loadgen) : Prop where
  acked : g.latencies.length = g.sent
  waits : ∀ fd client, g.clients.lookup fd = some client → client.phase ≠ .waitingAck
  errors_eq_zero_iff : g.errors = 0 ↔ g.clients.entries.length = options.connections.toNat ∧
    ∀ fd client, g.clients.lookup fd = some client → client.phase = .ready
  missing : options.connections.toNat ≤ g.errors + g.clients.entries.length

/-- **The last state of a run that returns.** -/
theorem Returned.ended {outcome : Outcome} (h : Returned options answers outcome) :
    Ended options outcome.last := by
  obtain ⟨opened, hopened⟩ := h.opened
  obtain ⟨clients, errors, taken, env, hconnect, hcomes, hguard⟩ := h.loop
  have hloop : LoopRun options (answers.order clients) errors answers.connectedMs taken
      outcome.last :=
    ⟨⟨_, _, _, hconnect, answers.perm_order clients⟩, hcomes.run⟩
  obtain ⟨steps, hrun⟩ := hloop.exists_genRun
  obtain ⟨hacked, hwaiting⟩ := hrun.acked_of_guard hguard
  have hsame : (answers.order clients).entries.length = clients.entries.length :=
    (answers.perm_order clients).length_eq
  have hconnects : countValues ClientState.connects (answers.order clients) =
      countValues ClientState.connects clients := (answers.perm_order clients).countP_eq _
  have htally := hrun.tally
  have herrors := htally.errors
  have hlength := htally.length
  have hle := htally.connects_le
  have hge := htally.le_connects
  rw [hsame] at hlength
  rw [hconnects] at hle hge
  -- how `connect_clients` returned
  have hconnectLoop : connectLoop (opened, 0) answers.waits = some (clients, errors) := by
    rw [connectClients, hopened.openClients] at hconnect
    exact Except.ok.inj hconnect
  have hcount : opened.keys.length = options.connections.toNat := by
    rw [← hopened.length]
    exact List.length_map _
  have hreturn := connectLoop_errors (opened_of_allOpened hopened).tally hconnectLoop
  dsimp only at hreturn
  rw [hcount] at hreturn
  refine ⟨hacked, fun fd client hclient => ?_, ?_, ?_⟩
  · have hidle := countValues_eq_zero.mp hwaiting fd client hclient
    simpa [ClientState.waits] using hidle
  · constructor
    · intro hzero
      rcases hreturn with ⟨hready, htotal⟩ | ⟨hnot, htotal, hfew⟩
      · have hnone := countValues_connects_of_allReady hready
        exact ⟨by omega, ready_of_counts (by omega) hwaiting⟩
      · -- an error for each connection, so there is none, and no client that is not ready
        have hempty : clients.entries = [] := List.length_eq_zero_iff.mp (by omega)
        rw [allReady, hempty] at hnot
        exact absurd hnot (by simp)
    · rintro ⟨hthere, hready⟩
      have hnone : countValues ClientState.connects outcome.last.clients = 0 :=
        countValues_connects_of_allReady (allReady_iff.mpr hready)
      rcases hreturn with ⟨-, htotal⟩ | ⟨hnot, htotal, hfew⟩
      · omega
      · -- no client was closed, so the one that was not ready is still connecting
        have hidle : countValues ClientState.waits clients = 0 :=
          countValues_eq_zero.mpr fun fd client hclient => by
            simpa [ClientState.waits] using
              (allFresh_connectClients hconnect fd client hclient).phase
        have hall : allReady clients = true :=
          allReady_iff.mpr (ready_of_counts (by omega) hidle)
        rw [hall] at hnot
        exact absurd hnot (by simp)
  · rcases hreturn with ⟨-, htotal⟩ | ⟨-, htotal, -⟩ <;> omega

/-- **What the exit code certifies.**  Suppose that the kernel hands out no descriptor that is open,
and that the run returns.  Whatever its exit code is, everything that was sent was acknowledged, no
client waits, and the summary, when there are latencies to print, says so.  The exit code is 0
exactly when every requested connection is still there and ready; else the errors that are printed
are at least the connections that are missing. -/
theorem runLoadgen_exitCode (hfresh : FreshOpens ∅ (runLoadgen options answers).ops)
    {outcome : Outcome} (h : (runLoadgen options answers).result = .ok (some outcome)) :
    outcome.last.latencies.length = outcome.last.sent ∧
    (∀ fd client, outcome.last.clients.lookup fd = some client → client.phase ≠ .waitingAck) ∧
    (outcome.exitCode = 0 ↔ outcome.last.clients.entries.length = options.connections.toNat ∧
      ∀ fd client, outcome.last.clients.lookup fd = some client → client.phase = .ready) ∧
    (outcome.exitCode = 0 ∨ outcome.exitCode = 1) ∧
    ∀ summary, outcome.summary = some summary → summary.acked = summary.sent ∧
      (summary.errors = 0 ↔ outcome.exitCode = 0) ∧
      options.connections.toNat ≤ summary.errors + outcome.last.clients.entries.length := by
  have hends := ((holds_runLoadgen options answers).run hfresh).2
  rw [h] at hends
  have hreturned : Returned options answers outcome := (hends outcome rfl).2
  obtain ⟨hacked, hwaits, herrors, hmissing⟩ := hreturned.ended
  have hcode : outcome.exitCode = 0 ↔ outcome.last.errors = 0 := by
    rw [hreturned.exitCode]
    by_cases hzero : outcome.last.errors = 0 <;> simp [hzero]
  refine ⟨hacked, hwaits, hcode.trans herrors, ?_, fun summary hsummary => ?_⟩
  · rw [hreturned.exitCode]
    split <;> simp
  · rw [hreturned.summary] at hsummary
    have hfields : summary.acked = outcome.last.latencies.length ∧
        summary.sent = outcome.last.sent ∧ summary.errors = outcome.last.errors := by
      simp only [printSummary, Option.bind_eq_bind, Option.bind_eq_some_iff] at hsummary
      obtain ⟨_, -, _, -, _, -, hsummary⟩ := hsummary
      rw [← Option.some.inj hsummary]
      exact ⟨rfl, rfl, rfl⟩
    obtain ⟨hackedField, hsentField, herrorsField⟩ := hfields
    rw [hackedField, hsentField, herrorsField, hcode]
    exact ⟨hacked, Iff.rfl, hmissing⟩

/-- One client, one message, exit code 0. -/
theorem runLoadgen_exitCode_sole :
    ∃ outcome, (runLoadgen soleOptions soleRun).result = .ok (some outcome) ∧
      outcome.exitCode = 0 ∧ outcome.last.sent = 1 ∧ outcome.last.latencies.length = 1 := by
  have hfresh : FreshOpens ∅ (runLoadgen soleOptions soleRun).ops := by decide +kernel
  have hcomputed : ((runLoadgen soleOptions soleRun).result.toOption.join.any fun outcome =>
      decide (outcome.exitCode = 0 ∧ outcome.last.sent = 1)) = true := by decide +kernel
  obtain ⟨outcome, houtcome, hchecked⟩ := exists_result_of_any hcomputed
  obtain ⟨hzero, hsent⟩ := of_decide_eq_true hchecked
  obtain ⟨hacked, -⟩ := runLoadgen_exitCode hfresh houtcome
  exact ⟨outcome, houtcome, hzero, hsent, by rw [hacked, hsent]⟩

end Loadgen
end RemoteDeviceConsole
