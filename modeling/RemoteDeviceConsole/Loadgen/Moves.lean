import RemoteDeviceConsole.Loadgen.MainLoop

/-!
# The moves of the load generator

`Move g g'` lists what one step of the main loop can do to the state: the clock, one
client of the table, and the totals that go with it.  `move_of_step` says that a step
that returns does one of these, so whatever all moves keep holds in every state of a
run (`GenRun.invariant`).

The functions for one client come first, each with what it can return.  `send_status`
works on a copy of the client with the next sequence and takes the sequence back when the
socket is full; what goes out is the line of the client that it leaves, the phase apart
(`bytes_sendCall`).  `receive_ack` looks at one line for each chunk that it reads.  So when
two lines come in one chunk the second one stays in the buffer, and what a call returns
depends on how the bytes were cut.  The exception is a stream that can only be one ACK line:
`receiveAck_of_prefix` says that then every cut gives the same.

At the end is the bound on the sending loop.  The model gives it one round for each client,
and `sendLoop_add` says that more rounds change nothing, since each round after which the
loop goes on makes one ready client wait.
-/

namespace RemoteDeviceConsole
namespace Loadgen

open Framing Machine

/-! ## Sending and receiving, for one client -/

/-- The client after a `send_status` whose line went out. -/
def sentClient (nowMs : UInt64) (client : ClientState) : ClientState :=
  { client with sequence := client.sequence + 1, sentMs := nowMs, phase := .waitingAck }

/-- `send_status` returns in two ways: the whole line went out, or the socket was full. -/
theorem sendStatus_cases {env : SendEnv} {client client' : ClientState} {sent : Bool}
    (h : sendStatus env client = .ok (sent, client')) :
    (sent = true ∧ client' = sentClient env.nowMs client) ∨
      (sent = false ∧ client' = { client with sentMs := env.nowMs }) := by
  rw [sendStatus] at h
  cases hresult : env.result with
  | failed errno =>
    simp only [hresult] at h
    split at h
    · obtain ⟨hsent, hclient⟩ := Prod.mk.inj (Except.ok.inj h)
      refine Or.inr ⟨hsent.symm, ?_⟩
      rw [← hclient, UInt64.add_sub_cancel]
    · exact absurd h (by simp)
  | room n =>
    simp only [hresult] at h
    split at h
    · exact absurd h (by simp)
    · obtain ⟨hsent, hclient⟩ := Prod.mk.inj (Except.ok.inj h)
      exact Or.inl ⟨hsent.symm, hclient.symm⟩

/-- The call of `send` that `send_status` makes. -/
def sendCall (env : SendEnv) (client : ClientState) : Sent where
  fd := client.fd
  text := makeStatusLine { client with sequence := client.sequence + 1, sentMs := env.nowMs }
  result := env.result

/-- **What went out is the line of the client that `send_status` leaves**, the whole of it or,
when the socket was full, nothing.  The phase is not in the line. -/
theorem bytes_sendCall {env : SendEnv} {client client' : ClientState} {sent : Bool}
    (h : sendStatus env client = .ok (sent, client')) :
    (sendCall env client).bytes = if sent then makeStatusLine client' else [] := by
  rw [sendStatus] at h
  cases hresult : env.result with
  | failed errno =>
    simp only [hresult] at h
    split at h
    · obtain ⟨rfl, -⟩ := Prod.mk.inj (Except.ok.inj h)
      simp [Sent.bytes, sendCall, hresult]
    · exact absurd h (by simp)
  | room n =>
    simp only [hresult] at h
    split at h
    · exact absurd h (by simp)
    · next hroom =>
      obtain ⟨rfl, rfl⟩ := Prod.mk.inj (Except.ok.inj h)
      have hwhole : (sendCall env client).Whole := ⟨n, hresult, Nat.not_lt.mp hroom⟩
      rw [Sent.bytes_of_whole hwhole]
      rfl

/-- A socket with room for the line takes it. -/
theorem sendStatus_of_room {nowMs : UInt64} {n : ℕ} {client : ClientState}
    (h : (makeStatusLine (sentClient nowMs client)).length ≤ n) :
    sendStatus ⟨nowMs, .room n⟩ client = .ok (true, sentClient nowMs client) :=
  @if_neg _ _ (Nat.not_lt.mpr h) _ _ _

/-- `receive_ack` returns in two ways: `recv` had nothing more, or an ACK line was taken
and the client is ready again. -/
theorem receiveAck_cases {nowMs : UInt64} {chunks : List Bytes} {last : RecvEnd}
    {client : ClientState} {reading : AckReading}
    (h : receiveAck nowMs chunks last client = .ok reading) :
    (reading.ack = none ∧ ∃ buffer, reading.client = { client with receiveBuffer := buffer }) ∨
      ∃ line buffer, reading.ack = some (line, nowMs - client.sentMs) ∧
        reading.client = { client with receiveBuffer := buffer, phase := .ready } := by
  induction chunks generalizing client reading with
  | nil =>
    cases last with
    | closed => exact absurd h (by simp [receiveAck])
    | failed errno =>
      rw [receiveAck] at h
      split at h
      · rw [← Except.ok.inj h]
        exact Or.inl ⟨rfl, client.receiveBuffer, rfl⟩
      · exact absurd h (by simp)
  | cons data chunks ih =>
    rw [receiveAck] at h
    cases hline : hasAckLine (client.receiveBuffer ++ data) with
    | mk line buffer =>
      rw [hline] at h
      cases line with
      | some line =>
        rw [← Except.ok.inj h]
        exact Or.inr ⟨line, buffer, rfl, rfl⟩
      | none =>
        simp only at h
        split at h
        · exact absurd h (by simp)
        · next rest hrest =>
          rw [← Except.ok.inj h]
          exact @ih { client with receiveBuffer := buffer } rest hrest

/-- **Reading one ACK.**  When all that can come is the beginning of an ACK line, the client
keeps it until it is complete, and takes it off the buffer then. -/
theorem receiveAck_of_prefix {nowMs : UInt64} {chunks : List Bytes} {last : RecvEnd} {text : Bytes}
    {client : ClientState} {reading : AckReading} (htext : IsFrame newline text)
    (hack : startsWith text (ascii "ACK ") = true) (hbuffer : newline ∉ client.receiveBuffer)
    (h : receiveAck nowMs chunks last client = .ok reading)
    (hpre : client.receiveBuffer ++ reading.data <+: text) :
    (reading.ack = none ∧ newline ∉ client.receiveBuffer ++ reading.data ∧
        reading.client =
          { client with receiveBuffer := client.receiveBuffer ++ reading.data }) ∨
      (reading.ack = some (text, nowMs - client.sentMs) ∧
        client.receiveBuffer ++ reading.data = text ∧
        reading.client = { client with receiveBuffer := [], phase := .ready }) := by
  induction chunks generalizing client reading with
  | nil =>
    cases last with
    | closed => exact absurd h (by simp [receiveAck])
    | failed errno =>
      rw [receiveAck] at h
      split at h
      · rw [← Except.ok.inj h]
        simpa using hbuffer
      · exact absurd h (by simp)
  | cons data chunks ih =>
    rw [receiveAck, hasAckLine] at h
    by_cases hnewline : newline ∈ client.receiveBuffer ++ data
    · -- the chunk completes the line
      have hfull : client.receiveBuffer ++ data = text := by
        refine htext.eq_of_prefix ?_ hnewline
        refine List.IsPrefix.trans ?_ hpre
        rw [List.prefix_append_right_inj]
        cases hcut : cutFrame newline (client.receiveBuffer ++ data) with
        | none => exact absurd hnewline (cutFrame_eq_none.mp hcut)
        | some cut =>
          simp only [hcut] at h
          split at h
          · rw [← Except.ok.inj h]
          · split at h
            · exact absurd h (by simp)
            · rw [← Except.ok.inj h]
              exact List.prefix_append _ _
      have hcut : cutFrame newline text = some (text, []) := by
        simpa using cutFrame_frame_append htext []
      rw [hfull, hcut] at h
      simp only [hack, if_true] at h
      rw [← Except.ok.inj h]
      exact Or.inr ⟨rfl, hfull, rfl⟩
    · rw [cutFrame_of_notMem hnewline] at h
      simp only at h
      split at h
      · exact absurd h (by simp)
      · next rest hrest =>
        rw [← Except.ok.inj h] at hpre ⊢
        have hpre' : client.receiveBuffer ++ data ++ rest.data <+: text := by
          simpa using hpre
        simpa using @ih { client with receiveBuffer := client.receiveBuffer ++ data } rest hnewline
          hrest hpre'

theorem clientEvent_cases {event : SocketEvent} {client : ClientState} {reading : AckReading}
    (h : clientEvent event client = .ok reading) :
    (reading.ack = none ∧ ∃ buffer, reading.client = { client with receiveBuffer := buffer }) ∨
      (client.phase = .waitingAck ∧
        ∃ line buffer, reading.ack = some (line, event.nowMs - client.sentMs) ∧
          reading.client = { client with receiveBuffer := buffer, phase := .ready }) := by
  rw [clientEvent] at h
  split at h
  · exact absurd h (by simp)
  · split at h
    · next hwaiting => exact (receiveAck_cases h).imp_right fun hack => ⟨hwaiting.1, hack⟩
    · rw [← Except.ok.inj h]
      exact Or.inl ⟨rfl, client.receiveBuffer, rfl⟩

/-! ## Moves -/

/-- What a step can do. -/
inductive Move : Loadgen → Loadgen → Prop where
  | idle (g : Loadgen) : Move g g
  | ticked (g : Loadgen) (currentMs : UInt64) (credit : ℚ) :
      Move g { g with lastTickMs := currentMs, sendCredit := credit }
  /-- A STATUS line goes out. -/
  | sent (g : Loadgen) (fd : Fd) (client : ClientState) (nowMs : UInt64)
      (hlookup : g.clients.lookup fd = some client) (hready : client.phase = .ready) :
      Move g { g with
        clients := g.clients.replace fd (sentClient nowMs client)
        sent := g.sent + 1
        sendCredit := g.sendCredit - 1
        nextClientIndex := g.nextClientIndex + 1
        trace := g.trace ++ [.status (sentClient nowMs client)] }
  /-- The socket of a ready client is full. -/
  | deferred (g : Loadgen) (fd : Fd) (client : ClientState) (nowMs : UInt64)
      (hlookup : g.clients.lookup fd = some client) (hready : client.phase = .ready) :
      Move g { g with clients := g.clients.replace fd { client with sentMs := nowMs } }
  /-- A client has read no ACK. -/
  | buffered (g : Loadgen) (fd : Fd) (client : ClientState) (data buffer : Bytes)
      (hlookup : g.clients.lookup fd = some client) :
      Move g { g with
        clients := g.clients.replace fd { client with receiveBuffer := buffer }
        trace := g.trace ++ [.read fd data] }
  /-- A waiting client has read an ACK. -/
  | acked (g : Loadgen) (fd : Fd) (client : ClientState) (data line buffer : Bytes) (nowMs : UInt64)
      (hlookup : g.clients.lookup fd = some client) (hwaiting : client.phase = .waitingAck) :
      Move g { g with
        clients := g.clients.replace fd { client with receiveBuffer := buffer, phase := .ready }
        latencies := g.latencies ++ [nowMs - client.sentMs]
        trace := g.trace ++ [.read fd data, .acked
          { before := client, after := { client with receiveBuffer := buffer, phase := .ready },
            line, nowMs, latency := nowMs - client.sentMs }] }
  /-- A client has failed. -/
  | closed (g : Loadgen) (fd : Fd) (client : ClientState)
      (hlookup : g.clients.lookup fd = some client) :
      Move g { g with
        errors := g.errors + 1
        clients := g.clients.erase fd
        trace := g.trace ++ [.closed client] }

variable {options : Options} {connectedMs : UInt64} {g g' : Loadgen}

theorem handleEvent_of_error {event : SocketEvent} {client : ClientState} {e : RuntimeError}
    (hlookup : g.clients.lookup event.fd = some client) (h : clientEvent event client = .error e) :
    handleEvent g event =
      { g with
        errors := g.errors + 1
        clients := g.clients.erase event.fd
        trace := g.trace ++ [.closed client] } := by
  rw [handleEvent, hlookup]
  simp only [h]

theorem handleEvent_of_none {event : SocketEvent} {client : ClientState} {reading : AckReading}
    (hlookup : g.clients.lookup event.fd = some client) (h : clientEvent event client = .ok reading)
    (hack : reading.ack = none) :
    handleEvent g event =
      { g with
        clients := g.clients.replace event.fd reading.client
        trace := g.trace ++ [.read event.fd reading.data] } := by
  rw [handleEvent, hlookup]
  simp only [h, hack]

theorem handleEvent_of_some {event : SocketEvent} {client : ClientState} {reading : AckReading}
    {line : Bytes} {latency : UInt64} (hlookup : g.clients.lookup event.fd = some client)
    (h : clientEvent event client = .ok reading) (hack : reading.ack = some (line, latency)) :
    handleEvent g event =
      { g with
        clients := g.clients.replace event.fd reading.client
        latencies := g.latencies ++ [latency]
        trace := g.trace ++
          [.read event.fd reading.data,
           .acked { before := client, after := reading.client, line,
                    nowMs := event.nowMs, latency }] } := by
  rw [handleEvent, hlookup]
  simp only [h, hack, List.append_assoc, List.singleton_append]

/-- An event is not about the sending loop. -/
theorem handleEvent_sending (g : Loadgen) (event : SocketEvent) :
    (handleEvent g event).sendCredit = g.sendCredit ∧ (handleEvent g event).sent = g.sent ∧
      (handleEvent g event).lastTickMs = g.lastTickMs ∧
      (handleEvent g event).nextClientIndex = g.nextClientIndex := by
  rw [handleEvent]
  split
  · exact ⟨rfl, rfl, rfl, rfl⟩
  · split
    · exact ⟨rfl, rfl, rfl, rfl⟩
    · split <;> exact ⟨rfl, rfl, rfl, rfl⟩

/-- An event is for one client. -/
theorem lookup_handleEvent_of_ne {event : SocketEvent} {c : Fd} (hc : c ≠ event.fd) :
    (handleEvent g event).clients.lookup c = g.clients.lookup c := by
  cases hlookup : g.clients.lookup event.fd with
  | none => rw [handleEvent, hlookup]
  | some client =>
    cases hevent : clientEvent event client with
    | error e =>
      rw [handleEvent_of_error hlookup hevent]
      exact AList.lookup_erase_ne hc
    | ok reading =>
      cases hack : reading.ack with
      | none =>
        rw [handleEvent_of_none hlookup hevent hack]
        exact lookup_replace_of_ne hc _
      | some ack =>
        rw [handleEvent_of_some hlookup hevent hack]
        exact lookup_replace_of_ne hc _

theorem move_handleEvent (g : Loadgen) (event : SocketEvent) : Move g (handleEvent g event) := by
  cases hlookup : g.clients.lookup event.fd with
  | none =>
    rw [handleEvent, hlookup]
    exact .idle g
  | some client =>
    cases hevent : clientEvent event client with
    | error e =>
      rw [handleEvent_of_error hlookup hevent]
      exact .closed g event.fd client hlookup
    | ok reading =>
      rcases clientEvent_cases hevent with ⟨hack, buffer, hclient⟩ |
        ⟨hwaiting, line, buffer, hack, hclient⟩
      · rw [handleEvent_of_none hlookup hevent hack, hclient]
        exact .buffered g event.fd client reading.data buffer hlookup
      · rw [handleEvent_of_some hlookup hevent hack, hclient]
        exact .acked g event.fd client reading.data line buffer event.nowMs hlookup hwaiting

/-- What a round of the sending loop does, and when the loop goes on. -/
theorem sendRound_cases {env : SendEnv} {goesOn : Bool} (h : sendRound env g = .ok (goesOn, g')) :
    (goesOn = false ∧ g' = g) ∨
      ∃ fd client, g.clients.lookup fd = some client ∧ client.phase = .ready ∧
        ((goesOn = true ∧ g' = { g with
            clients := g.clients.replace fd (sentClient env.nowMs client)
            sent := g.sent + 1
            sendCredit := g.sendCredit - 1
            nextClientIndex := g.nextClientIndex + 1
            trace := g.trace ++ [.status (sentClient env.nowMs client)] }) ∨
          (goesOn = false ∧ g' = { g with
            clients := g.clients.replace fd { client with sentMs := env.nowMs } })) := by
  rw [sendRound] at h
  split at h
  · obtain ⟨hgoes, hg⟩ := Prod.mk.inj (Except.ok.inj h)
    exact Or.inl ⟨hgoes.symm, hg.symm⟩
  · next fd client hentry =>
    have hlookup : g.clients.lookup fd = some client :=
      AList.mem_lookup_iff.mpr (List.mem_of_getElem? hentry)
    split at h
    · next hready =>
      refine Or.inr ⟨fd, client, hlookup, hready, ?_⟩
      split at h
      · exact absurd h (by simp)
      · next client' hsend =>
        obtain ⟨hgoes, hg⟩ := Prod.mk.inj (Except.ok.inj h)
        obtain ⟨-, hclient⟩ | ⟨hfalse, -⟩ := sendStatus_cases hsend
        · exact Or.inl ⟨hgoes.symm, by rw [← hg, hclient]⟩
        · exact absurd hfalse (by simp)
      · next client' hsend =>
        obtain ⟨hgoes, hg⟩ := Prod.mk.inj (Except.ok.inj h)
        obtain ⟨htrue, -⟩ | ⟨-, hclient⟩ := sendStatus_cases hsend
        · exact absurd htrue (by simp)
        · exact Or.inr ⟨hgoes.symm, by rw [← hg, hclient]⟩
    · obtain ⟨hgoes, hg⟩ := Prod.mk.inj (Except.ok.inj h)
      exact Or.inl ⟨hgoes.symm, hg.symm⟩

/-- A round in which the line goes out. -/
theorem sendRound_of_sent {env : SendEnv} {fd : Fd} {client client' : ClientState}
    (hentry : g.clients.entries[g.nextClientIndex % g.clients.entries.length]? =
      some ⟨fd, client⟩)
    (hready : client.phase = .ready) (hsend : sendStatus env client = .ok (true, client')) :
    sendRound env g =
      .ok (true, { g with
        clients := g.clients.replace fd client'
        sent := g.sent + 1
        sendCredit := g.sendCredit - 1
        nextClientIndex := g.nextClientIndex + 1
        trace := g.trace ++ [.status client'] }) := by
  simp only [sendRound, hentry, hready, if_true, hsend]

theorem exists_sendRound_of_step {env : SendEnv}
    (h : step options connectedMs g (.send env) = .ok g') :
    ∃ goesOn, sendRound env g = .ok (goesOn, g') := by
  cases hround : sendRound env g with
  | error e => simp [step, hround, Except.map] at h
  | ok result =>
    obtain ⟨goesOn, next⟩ := result
    have hnext : next = g' := by simpa [step, hround, Except.map] using h
    exact ⟨goesOn, by rw [hnext]⟩

/-- **A step is a move.** -/
theorem move_of_step {st : Step} (h : step options connectedMs g st = .ok g') : Move g g' := by
  cases st with
  | tick guardMs currentMs =>
    rw [← Except.ok.inj h]
    exact .ticked g currentMs _
  | send env =>
    obtain ⟨goesOn, hround⟩ := exists_sendRound_of_step h
    rcases sendRound_cases hround with ⟨-, rfl⟩ |
      ⟨fd, client, hlookup, hready, ⟨-, rfl⟩ | ⟨-, rfl⟩⟩
    · exact .idle _
    · exact .sent g fd client env.nowMs hlookup hready
    · exact .deferred g fd client env.nowMs hlookup hready
  | event event =>
    rw [← Except.ok.inj h]
    exact move_handleEvent g event

/-- **What every move keeps, every run keeps.** -/
theorem GenRun.invariant {clients : Clients} {errors : ℕ} {steps : List Step} {P : Loadgen → Prop}
    (h : GenRun options clients errors connectedMs steps g)
    (hstart : P (start clients errors connectedMs)) (hmove : ∀ g g', Move g g' → P g → P g') :
    P g :=
  Run.invariant (fun _ _ _ hg _ hok => hmove _ _ (move_of_step hok) hg) h.run hstart

/-! ## The sending loop ends -/

/-- How many clients are ready to send. -/
def readyCount (g : Loadgen) : ℕ := countValues (fun client => client.phase = .ready) g.clients

/-- A round after which the loop goes on uses up a ready client. -/
theorem readyCount_of_sendRound {env : SendEnv} (h : sendRound env g = .ok (true, g')) :
    readyCount g' + 1 = readyCount g := by
  rcases sendRound_cases h with ⟨hfalse, -⟩ |
    ⟨fd, client, hlookup, hready, ⟨-, rfl⟩ | ⟨hfalse, -⟩⟩
  · exact absurd hfalse (by simp)
  · have hcount := @countValues_replace _ _ _ _ _ _ (fun client => client.phase = .ready) hlookup
      (sentClient env.nowMs client)
    simpa [hready, sentClient, readyCount] using hcount
  · exact absurd hfalse (by simp)

/-- **As many rounds as there are ready clients are enough**: with more of them the
sending loop does the same. -/
theorem sendLoop_add {currentMs : UInt64} {sends : ℕ → SendEnv} {rounds : ℕ} (i extra : ℕ)
    (h : readyCount g ≤ rounds) :
    sendLoop options connectedMs currentMs sends (rounds + extra) i g =
      sendLoop options connectedMs currentMs sends rounds i g := by
  induction rounds generalizing i g with
  | zero =>
    cases extra with
    | zero => rfl
    | succ extra =>
      rw [Nat.zero_add, sendLoop, sendLoop]
      split
      · cases hround : sendRound (sends i) g with
        | error e =>
          -- only a ready client can throw
          rw [sendRound] at hround
          split at hround
          · exact absurd hround (by simp)
          · next fd client hentry =>
            split at hround
            · next hready =>
              have hnone := countValues_eq_zero.mp (Nat.le_zero.mp h) fd client
                (AList.mem_lookup_iff.mpr (List.mem_of_getElem? hentry))
              exact absurd hready (by simpa using hnone)
            · exact absurd hround (by simp)
        | ok result =>
          obtain ⟨goesOn, next⟩ := result
          rcases sendRound_cases hround with ⟨rfl, rfl⟩ | ⟨fd, client, hlookup, hready, -⟩
          · rfl
          · have hnone := countValues_eq_zero.mp (Nat.le_zero.mp h) fd client hlookup
            exact absurd hready (by simpa using hnone)
      · rfl
  | succ rounds ih =>
    rw [Nat.succ_add, sendLoop, sendLoop]
    split
    · cases hround : sendRound (sends i) g with
      | error e => rfl
      | ok result =>
        obtain ⟨goesOn, next⟩ := result
        cases goesOn with
        | false => rfl
        | true =>
          have hcount := readyCount_of_sendRound hround
          exact ih (i + 1) (by omega)
    · rfl

end Loadgen
end RemoteDeviceConsole
