import RemoteDeviceConsole.Loadgen.Moves

/-!
# The totals of the load generator

A STATUS that went out is acknowledged, waits for its ACK, or was lost with its client:
`GenRun.balance`.  The guard of the main loop compares only the first number with all
of them, so it lets the loop end when no STATUS was lost (`guard_eq_false_iff`).  Once a
client has been closed while it waited, the guard stays true (`guard_of_lost`).

The balance counts three kinds of clients in two places: those that wait are in the map,
those that are lost are only in the trace, as the client that the event found.  A move
changes one client, so `balanced_of_move` compares the counts before and after one entry
of the map was replaced or erased (`countValues`).

Which runs lose nothing is said of their steps, not of the count: `Survivable` looks at the
state before a step and at what the kernel brings, and `takesAck` is the loop of
`receive_ack` without its results.  It has to be, because a chunk that completes an ACK
saves the client from the error that comes behind it.
-/

namespace RemoteDeviceConsole
namespace Loadgen

open Framing Machine

/-- The client waits for an ACK. -/
def ClientState.waits (client : ClientState) : Bool := client.phase = .waitingAck

/-- How many clients wait for an ACK. -/
def waitingCount (g : Loadgen) : ℕ := countValues ClientState.waits g.clients

/-- A client was closed while it waited. -/
def Action.losesAck : Action → Bool
  | .closed client => client.waits
  | _ => false

/-- How many clients were closed while they waited. -/
def lostCount (g : Loadgen) : ℕ := g.trace.countP Action.losesAck

variable {options : Options} {clients : Clients} {errors : ℕ} {connectedMs : UInt64}
  {steps : List Step} {g g' : Loadgen}

/-- The totals agree. -/
def Balanced (g : Loadgen) : Prop := g.sent = g.latencies.length + waitingCount g + lostCount g

/-- **Every move keeps the totals in balance**: one more request waits, or one that
waited is answered or lost. -/
theorem balanced_of_move (hmove : Move g g') (h : Balanced g) : Balanced g' := by
  have hsame : ∀ fd (client client' : ClientState), g.clients.lookup fd = some client →
      client'.phase = client.phase →
      countValues ClientState.waits (g.clients.replace fd client') = waitingCount g := by
    intro fd client client' hlookup hphase
    have hcount := @countValues_replace _ _ _ _ _ _ ClientState.waits hlookup client'
    have hwaits : client'.waits = client.waits := by rw [ClientState.waits, hphase]; rfl
    rw [hwaits] at hcount
    exact Nat.add_right_cancel hcount
  unfold Balanced at h ⊢
  cases hmove with
  | idle => exact h
  | ticked currentMs credit => exact h
  | sent fd client nowMs hlookup hready =>
    have hcount := @countValues_replace _ _ _ _ _ _ ClientState.waits hlookup
      (sentClient nowMs client)
    have hbefore : client.waits = false := by simp [ClientState.waits, hready]
    have hafter : (sentClient nowMs client).waits = true := by
      simp [ClientState.waits, sentClient]
    simp only [hbefore, hafter, if_true, Bool.false_eq_true, if_false] at hcount
    simp only [waitingCount, lostCount, List.countP_append, List.countP_singleton,
      Action.losesAck] at h ⊢
    simp only [Bool.false_eq_true, if_false]
    omega
  | deferred fd client nowMs hlookup hready =>
    have hcount := hsame fd client { client with sentMs := nowMs } hlookup rfl
    simp only [waitingCount, lostCount] at h hcount ⊢
    omega
  | buffered fd client data buffer hlookup =>
    have hcount := hsame fd client { client with receiveBuffer := buffer } hlookup rfl
    simp only [waitingCount, lostCount, List.countP_append, List.countP_singleton,
      Action.losesAck] at h hcount ⊢
    simp only [Bool.false_eq_true, if_false]
    omega
  | acked fd client data line buffer nowMs hlookup hwaiting =>
    have hcount := @countValues_replace _ _ _ _ _ _ ClientState.waits hlookup
      { client with receiveBuffer := buffer, phase := .ready }
    have hbefore : client.waits = true := by simp [ClientState.waits, hwaiting]
    have hafter : ({ client with receiveBuffer := buffer, phase := .ready } :
        ClientState).waits = false := by simp [ClientState.waits]
    simp only [hbefore, hafter, if_true, Bool.false_eq_true, if_false] at hcount
    simp only [waitingCount, lostCount, List.countP_append, List.countP_cons, List.countP_nil,
      Action.losesAck, List.length_append, List.length_singleton] at h ⊢
    simp only [Bool.false_eq_true, if_false]
    omega
  | closed fd client hlookup =>
    have hcount := @countValues_erase _ _ _ _ _ _ ClientState.waits hlookup
    cases hwaits : client.waits with
    | true =>
      simp only [hwaits, if_true] at hcount
      simp only [waitingCount, lostCount, List.countP_append, List.countP_singleton,
        Action.losesAck, hwaits, if_true] at h ⊢
      omega
    | false =>
      simp only [hwaits, Bool.false_eq_true, if_false] at hcount
      simp only [waitingCount, lostCount, List.countP_append, List.countP_singleton,
        Action.losesAck, hwaits, Bool.false_eq_true, if_false] at h ⊢
      omega

theorem balanced_start (hfresh : AllFresh clients) :
    Balanced (start clients errors connectedMs) := by
  have hzero : waitingCount (start clients errors connectedMs) = 0 := by
    refine countValues_eq_zero.mpr fun fd client hclient => ?_
    simpa [ClientState.waits] using (hfresh fd client hclient).phase
  rw [Balanced, hzero]
  rfl

/-- **The totals of a run.** -/
theorem GenRun.balance (h : GenRun options clients errors connectedMs steps g) :
    g.sent = g.latencies.length + waitingCount g + lostCount g :=
  h.invariant (balanced_start h.connected.allFresh) fun _ _ => balanced_of_move

/-! ## Requests that are lost -/

/-- `receive_ack` finds an ACK behind one of the chunks. -/
def takesAck : Bytes → List Bytes → Bool
  | _, [] => false
  | receiveBuffer, data :: chunks =>
      match hasAckLine (receiveBuffer ++ data) with
      | (some _, _) => true
      | (none, rest) => takesAck rest chunks

/-- `recv` had nothing more, but did not fail. -/
def triesAgain : RecvEnd → Bool
  | .closed => false
  | .failed errno => errno.wouldBlock

/-- The step is no event on which a waiting client fails: the event reports neither an
error nor a hangup, and when it is readable, an ACK arrives or `recv` runs dry. -/
def Survivable (g : Loadgen) : Step → Prop
  | .event event => ∀ client, g.clients.lookup event.fd = some client →
      client.phase = .waitingAck → event.errorOrHangup = false ∧
        (event.readable = true →
          takesAck client.receiveBuffer event.chunks = true ∨ triesAgain event.last = true)
  | _ => True

instance (g : Loadgen) (st : Step) : Decidable (Survivable g st) :=
  match st with
  | .tick _ _ => isTrue trivial
  | .send _ => isTrue trivial
  | .event event =>
    match h : g.clients.lookup event.fd with
    | none => isTrue fun client hclient => absurd hclient (by simp [h])
    | some client => decidable_of_iff (client.phase = .waitingAck → event.errorOrHangup = false ∧
        (event.readable = true →
          takesAck client.receiveBuffer event.chunks = true ∨ triesAgain event.last = true))
        (by simp [Survivable, h])

theorem exists_receiveAck_iff {nowMs : UInt64} {chunks : List Bytes} {last : RecvEnd}
    {client : ClientState} :
    (∃ reading, receiveAck nowMs chunks last client = .ok reading) ↔
      takesAck client.receiveBuffer chunks = true ∨ triesAgain last = true := by
  induction chunks generalizing client with
  | nil =>
    cases last with
    | closed => simp [receiveAck, takesAck, triesAgain]
    | failed errno =>
      cases hagain : errno.wouldBlock <;> simp [receiveAck, takesAck, triesAgain, hagain]
  | cons data chunks ih =>
    rw [receiveAck, takesAck]
    cases hline : hasAckLine (client.receiveBuffer ++ data) with
    | mk line buffer =>
      cases line with
      | some line => simp
      | none =>
        rw [← @ih { client with receiveBuffer := buffer }]
        constructor
        · rintro ⟨reading, hreading⟩
          simp only at hreading
          split at hreading
          · exact absurd hreading (by simp)
          · next rest hrest => exact ⟨rest, hrest⟩
        · rintro ⟨rest, hrest⟩
          exact ⟨{ rest with data := data ++ rest.data }, by simp only [hrest]⟩

/-- An event loses a request exactly when its step is not survivable. -/
theorem lostCount_handleEvent (g : Loadgen) (event : SocketEvent) :
    lostCount g ≤ lostCount (handleEvent g event) ∧
      (lostCount (handleEvent g event) = lostCount g ↔ Survivable g (.event event)) := by
  cases hlookup : g.clients.lookup event.fd with
  | none =>
    have hsame : handleEvent g event = g := by rw [handleEvent, hlookup]
    rw [hsame]
    exact ⟨le_refl _, iff_of_true rfl fun client hclient => absurd hclient (by simp [hlookup])⟩
  | some client =>
    have hiff : Survivable g (.event event) ↔
        (client.phase = .waitingAck → ∃ reading, clientEvent event client = .ok reading) := by
      have hone : Survivable g (.event event) ↔ (client.phase = .waitingAck →
          event.errorOrHangup = false ∧ (event.readable = true →
            takesAck client.receiveBuffer event.chunks = true ∨ triesAgain event.last = true)) := by
        simp [Survivable, hlookup]
      rw [hone]
      refine imp_congr_right fun hwaiting => ?_
      cases herror : event.errorOrHangup with
      | true => simp [clientEvent, herror]
      | false =>
        cases hreadable : event.readable with
        | true =>
          have hevent : clientEvent event client =
              receiveAck event.nowMs event.chunks event.last client := by
            rw [clientEvent, herror, hreadable]
            simp [hwaiting]
          simp [hevent, exists_receiveAck_iff]
        | false => simp [clientEvent, herror, hreadable]
    rw [hiff]
    cases hevent : clientEvent event client with
    | error e =>
      rw [handleEvent_of_error hlookup hevent]
      cases hwaits : client.waits with
      | true =>
        have hphase : client.phase = .waitingAck := by simpa [ClientState.waits] using hwaits
        simp [lostCount, Action.losesAck, hwaits, hphase]
      | false =>
        have hphase : client.phase ≠ .waitingAck := by simpa [ClientState.waits] using hwaits
        simp [lostCount, Action.losesAck, hwaits, hphase]
    | ok reading =>
      have hsame : lostCount (handleEvent g event) = lostCount g := by
        rcases clientEvent_cases hevent with ⟨hack, -⟩ | ⟨-, line, buffer, hack, -⟩
        · rw [handleEvent_of_none hlookup hevent hack]
          simp [lostCount, Action.losesAck]
        · rw [handleEvent_of_some hlookup hevent hack]
          simp [lostCount, Action.losesAck]
      exact ⟨hsame.ge, iff_of_true hsame fun _ => ⟨reading, rfl⟩⟩

/-- **Nothing is lost** in a run of survivable steps, and only there. -/
theorem GenRun.lostCount_eq_zero_iff (h : GenRun options clients errors connectedMs steps g) :
    lostCount g = 0 ↔
      Admissible (step options connectedMs) Survivable (start clients errors connectedMs)
        steps := by
  refine h.run.count_eq_zero_iff (fun g st g' _ hok => ?_) rfl
  cases st with
  | tick guardMs currentMs =>
    rw [← Except.ok.inj hok]
    exact ⟨le_refl _, iff_of_true rfl trivial⟩
  | send env =>
    have hsame : lostCount g' = lostCount g := by
      obtain ⟨goesOn, hround⟩ := exists_sendRound_of_step hok
      rcases sendRound_cases hround with ⟨-, rfl⟩ | ⟨fd, client, -, -, ⟨-, rfl⟩ | ⟨-, rfl⟩⟩
      · rfl
      · simp [lostCount, Action.losesAck]
      · rfl
    exact ⟨hsame.ge, iff_of_true hsame trivial⟩
  | event event =>
    rw [← Except.ok.inj hok]
    exact lostCount_handleEvent g event

/-! ## The guard -/

/-- **When the main loop can end.**  After the end of the test, with no client waiting, the
guard is false if and only if no client was closed while it waited. -/
theorem guard_eq_false_iff (h : GenRun options clients errors connectedMs steps g) {nowMs : UInt64}
    (hend : testEndMs options connectedMs ≤ nowMs)
    (hidle : ∀ fd client, g.clients.lookup fd = some client → client.phase ≠ .waitingAck) :
    guard options connectedMs nowMs g = false ↔
      Admissible (step options connectedMs) Survivable (start clients errors connectedMs)
        steps := by
  have hwaiting : waitingCount g = 0 :=
    countValues_eq_zero.mpr fun fd client hclient => by
      simpa [ClientState.waits] using hidle fd client hclient
  have hbalance := h.balance
  have htime : ¬ nowMs < testEndMs options connectedMs := by
    rw [UInt64.lt_iff_toNat_lt]
    rw [UInt64.le_iff_toNat_le] at hend
    omega
  rw [← h.lostCount_eq_zero_iff]
  simp only [guard, htime, false_or, decide_eq_false_iff_not]
  omega

/-- **After a loss the loop does not end**, whatever the clock says. -/
theorem guard_of_lost (h : GenRun options clients errors connectedMs steps g)
    (hlost : lostCount g ≠ 0) (nowMs : UInt64) : guard options connectedMs nowMs g = true := by
  have hbalance := h.balance
  have hless : g.latencies.length < g.sent := by omega
  simp [guard, hless]

/-- The client is answered, and the guard is false at the end of the test. -/
theorem guard_eq_false_of_answered :
    ∃ (steps : List Step) (g : Loadgen), GenRun soleOptions soleClients 0 0 steps g ∧
      g.sent = 1 ∧ guard soleOptions 0 1000 g = false := by
  let steps : List Step :=
    [ .tick 0 500, .send ⟨500, .room 1000⟩,
      .event ⟨3, false, true, 510, [ascii "ACK device_id=load-0 seq=1 server_ms=9\n"],
        .failed .EAGAIN⟩ ]
  obtain ⟨g, hrun, hg⟩ := exists_genRun connected_sole 0 steps
    (P := fun g => g.sent = 1 ∧ waitingCount g = 0) (by decide +kernel)
  obtain ⟨hsent, hwaiting⟩ := of_decide_eq_true hg
  refine ⟨steps, g, hrun, hsent, (guard_eq_false_iff hrun (by decide) ?_).mpr (by decide +kernel)⟩
  intro fd client hclient
  simpa [ClientState.waits] using countValues_eq_zero.mp hwaiting fd client hclient

/-- **A lost client.**  The server closes the connection before the ACK; no client is
left, the test is over, and the guard is still true. -/
theorem guard_of_lost_client :
    ∃ (envs : List IterationEnv) (g : Loadgen), LoopRun soleOptions soleClients 0 0 envs g ∧
      testEndMs soleOptions 0 ≤ 1000 ∧
      (∀ fd client, g.clients.lookup fd = some client → client.phase ≠ .waitingAck) ∧
      guard soleOptions 0 1000 g = true := by
  obtain ⟨g, hrun, hg⟩ := exists_loopRun connected_sole 0
    [ { guardMs := 0, currentMs := 500, sends := fun _ => ⟨500, .room 1000⟩,
        epoll := .ready [⟨3, false, true, 510, [], .closed⟩] } ]
    (P := fun g => g.clients.entries.length = 0 ∧ guard soleOptions 0 1000 g) (by decide +kernel)
  obtain ⟨hempty, hguard⟩ := of_decide_eq_true hg
  refine ⟨_, g, hrun, by decide, fun fd client hclient => ?_, hguard⟩
  have hmem := AList.mem_lookup_iff.mp hclient
  rw [List.length_eq_zero_iff.mp hempty] at hmem
  exact absurd hmem (by simp)

end Loadgen
end RemoteDeviceConsole
