import RemoteDeviceConsole.Loadgen.Rotation
import RemoteDeviceConsole.Server.Outgoing

/-!
# Failures of one socket

A socket can fail in two places of the main loop.  In the sending loop `send_status` throws
and nothing catches it, so the failure ends the program.  Among the events it is caught: the
client is counted, closed and removed, and the others go on (`Isolated`).

The summary comes when the guard of the main loop is false.  A client that is closed while
it waits for its ACK leaves one STATUS without a latency, and the guard stays true for ever.
So a failure is survived exactly when it comes with an event, hits a client that does not
wait, and no client was lost before (`socketFault_contained_iff`).

## The two directions

That a loss keeps the summary away is the easy one: no move takes a loss back
(`GenRun.not_reachesSummary`).

The other one has to lead the loop to its end from any state without a loss, and one iteration
does: the clock has passed the end of the test, and every client gets its ACK.  The difficulty is
in the buffers.  A state of a run may have any bytes in the buffer of a client, whole lines and
a torn one, and `receive_ack` takes one line off it for each chunk.  So the server's ACK comes
again and again: the first copy ends the torn line, the others move the loop on, and the copy
behind the first is taken at the latest (`takesAck_replicate`).
-/

namespace RemoteDeviceConsole
namespace Loadgen

open Framing Machine

/-! ## What can fail, and what should follow -/

/-- The sending loop is at this client, and it is ready. -/
def Sends (g : Loadgen) (fd : Fd) (client : ClientState) : Prop :=
  g.clients.entries[g.nextClientIndex % g.clients.entries.length]? = some ⟨fd, client⟩ ∧
    client.phase = .ready

/-- The step in which the socket of a client fails. -/
inductive SocketFault (g : Loadgen) (fd : Fd) (client : ClientState) : Step → Prop where
  /-- `send` fails with another error than `EAGAIN`. -/
  | sendFailed (nowMs : UInt64) (errno : Errno) (hsends : Sends g fd client)
      (herrno : errno.wouldBlock = false) : SocketFault g fd client (.send ⟨nowMs, .failed errno⟩)
  /-- `send` takes a part of the line. -/
  | sentShort (nowMs : UInt64) (n : ℕ) (hsends : Sends g fd client)
      (hshort : n < (makeStatusLine (sentClient nowMs client)).length) :
      SocketFault g fd client (.send ⟨nowMs, .room n⟩)
  /-- `EPOLLERR` or `EPOLLHUP`. -/
  | hangup (event : SocketEvent) (hlookup : g.clients.lookup fd = some client)
      (hfd : event.fd = fd) (herror : event.errorOrHangup = true) :
      SocketFault g fd client (.event event)
  /-- `recv` reports the end of the stream or an error before it has brought an ACK. -/
  | receive (event : SocketEvent) (hlookup : g.clients.lookup fd = some client)
      (hfd : event.fd = fd) (herror : event.errorOrHangup = false)
      (hwaiting : client.phase = .waitingAck) (hreadable : event.readable = true)
      (hack : takesAck client.receiveBuffer event.chunks = false)
      (hlast : triesAgain event.last = false) : SocketFault g fd client (.event event)

/-- Exactly this client is counted, closed and removed. -/
structure Isolated (g : Loadgen) (fd : Fd) (client : ClientState) (g' : Loadgen) : Prop where
  closed : g'.trace = g.trace ++ [.closed client]
  removed : g'.clients.lookup fd = none
  others : ∀ c, c ≠ fd → g'.clients.lookup c = g.clients.lookup c
  errors : g'.errors = g.errors + 1
  sent : g'.sent = g.sent
  latencies : g'.latencies = g.latencies

/-- These iterations, which do not throw and whose clock has reached `clockMs`, lead the main
loop to its end. -/
def SummaryAfter (options : Options) (connectedMs clockMs : UInt64) (g : Loadgen)
    (envs : List IterationEnv) : Prop :=
  ∃ (g' : Loadgen) (nowMs : UInt64),
    (∀ env ∈ envs, clockMs ≤ env.guardMs ∧ clockMs ≤ env.currentMs) ∧ clockMs ≤ nowMs ∧
    Run (iteration options connectedMs)
      (fun g env => guard options connectedMs env.guardMs g = true) g envs g' ∧
    guard options connectedMs nowMs g' = false

/-- From here the main loop can come to its end. -/
def ReachesSummary (options : Options) (connectedMs clockMs : UInt64) (g : Loadgen) : Prop :=
  ∃ envs, SummaryAfter options connectedMs clockMs g envs

/-- The ACK of the server for the last STATUS of a client. -/
def ackLine (serverMs : UInt64) (client : ClientState) : Bytes :=
  ackText (deviceIdFor client.index) client.sequence serverMs

/-- All that the sockets bring in this iteration are ACKs of the server, each for the last
STATUS of the client that gets it. -/
def AcksOnly (g : Loadgen) (env : IterationEnv) : Prop :=
  ∀ events, env.epoll = .ready events → ∀ event ∈ events, ∃ client serverMs,
    g.clients.lookup event.fd = some client ∧ ∀ data ∈ event.chunks, data = ackLine serverMs client

/-- One iteration is enough, and the server's ACKs are all it has to bring. -/
def AnsweredToSummary (options : Options) (connectedMs clockMs : UInt64) (g : Loadgen) : Prop :=
  ∃ envs, envs.length ≤ 1 ∧ (∀ env ∈ envs, AcksOnly g env) ∧
    SummaryAfter options connectedMs clockMs g envs

variable {options : Options} {clients : Clients} {errors : ℕ} {connectedMs clockMs nowMs : UInt64}
  {steps : List Step} {st : Step} {g g' : Loadgen} {fd : Fd} {client : ClientState}

/-! ## The effect of a failure -/

/-- A failed send leaves the sending loop, and the main loop with it. -/
theorem sendRound_of_sends {env : SendEnv} {e : RuntimeError} (hsends : Sends g fd client)
    (h : sendStatus env client = .error e) : sendRound env g = .error e := by
  simp only [sendRound, hsends.1, hsends.2, if_true, h]

theorem SocketFault.send {env : SendEnv} (h : SocketFault g fd client (.send env)) :
    ∃ e, sendRound env g = .error e := by
  cases h with
  | sendFailed nowMs errno hsends herrno =>
    exact ⟨.strerror errno, sendRound_of_sends hsends (by simp [sendStatus, herrno])⟩
  | sentShort nowMs n hsends hshort => exact ⟨_, sendRound_of_sends hsends (if_pos hshort)⟩

/-- A failure among the events is thrown inside the `try` block. -/
theorem SocketFault.event {event : SocketEvent} (h : SocketFault g fd client (.event event)) :
    g.clients.lookup fd = some client ∧ event.fd = fd ∧
      ∃ e, clientEvent event client = .error e := by
  cases h with
  | hangup _ hlookup hfd herror => exact ⟨hlookup, hfd, _, if_pos herror⟩
  | receive _ hlookup hfd herror hwaiting hreadable hack hlast =>
    refine ⟨hlookup, hfd, ?_⟩
    have hread : clientEvent event client =
        receiveAck event.nowMs event.chunks event.last client := by
      simp [clientEvent, herror, hwaiting, hreadable]
    rw [hread]
    cases hreceive : receiveAck event.nowMs event.chunks event.last client with
    | error e => exact ⟨e, rfl⟩
    | ok reading =>
      have hok := exists_receiveAck_iff.mp ⟨reading, hreceive⟩
      simp [hack, hlast] at hok

theorem SocketFault.isolated {event : SocketEvent} (h : SocketFault g fd client (.event event)) :
    Isolated g fd client (handleEvent g event) := by
  obtain ⟨hlookup, rfl, e, he⟩ := h.event
  rw [handleEvent_of_error hlookup he]
  exact ⟨rfl, AList.lookup_erase _ _, fun _ hc => AList.lookup_erase_ne hc, rfl, rfl, rfl⟩

theorem Isolated.lostCount_eq (h : Isolated g fd client g') :
    lostCount g' = lostCount g + if client.waits then 1 else 0 := by
  rw [lostCount, h.closed, List.countP_append, List.countP_singleton]
  rfl

/-! ## No way to the summary -/

theorem lostCount_le_of_move (hmove : Move g g') : lostCount g ≤ lostCount g' := by
  have happend : ∀ actions : List Action,
      g.trace.countP Action.losesAck ≤ (g.trace ++ actions).countP Action.losesAck := by
    intro actions
    rw [List.countP_append]
    omega
  cases hmove with
  | idle => exact Nat.le_refl _
  | ticked => exact Nat.le_refl _
  | deferred => exact Nat.le_refl _
  | sent => exact happend _
  | buffered => exact happend _
  | acked => exact happend _
  | closed => exact happend _

/-- **After a loss there is no summary**, whatever happens next. -/
theorem GenRun.not_reachesSummary (h : GenRun options clients errors connectedMs steps g)
    (hlost : lostCount g ≠ 0) : ¬ ReachesSummary options connectedMs clockMs g := by
  rintro ⟨envs, g', nowMs, -, -, hrun, hguard⟩
  obtain ⟨more, hmore⟩ := exists_steps_of_iterations hrun
  have hrun' : GenRun options clients errors connectedMs (steps ++ more) g' :=
    ⟨h.connected, h.run.append hmore⟩
  have hle : lostCount g ≤ lostCount g' :=
    Run.invariant (P := fun g' => lostCount g ≤ lostCount g')
      (fun _ _ _ hg _ hok => hg.trans (lostCount_le_of_move (move_of_step hok))) hmore
      (Nat.le_refl _)
  rw [guard_of_lost hrun' (by omega)] at hguard
  exact absurd hguard (by simp)

/-! ## A way to the summary -/

/-- Each chunk makes `receive_ack` look at one line. -/
theorem takesAck_cons {receiveBuffer data f rest : Bytes} (hf : IsFrame newline f)
    (hsplit : receiveBuffer ++ data = f ++ rest) (chunks : List Bytes) :
    takesAck receiveBuffer (data :: chunks) =
      (startsWith f (ascii "ACK ") || takesAck rest chunks) := by
  have hcut : cutFrame newline (receiveBuffer ++ data) = some (f, rest) :=
    cutFrame_eq_some.mpr ⟨hf, hsplit⟩
  rw [takesAck, hasAckLine, hcut]
  cases hack : startsWith f (ascii "ACK ") <;> simp [hack]

/-- `receive_ack` comes to the `i`-th line of what it has and gets, when it gets enough. -/
theorem takesAck_of_frame {i : ℕ} {receiveBuffer data line : Bytes} {chunks : List Bytes}
    (hline : (frames newline (receiveBuffer ++ data))[i]? = some line)
    (hack : startsWith line (ascii "ACK ") = true) (hi : i ≤ chunks.length) :
    takesAck receiveBuffer (data :: chunks) = true := by
  induction i generalizing receiveBuffer data chunks with
  | zero =>
    obtain ⟨f, rest, hf, hsplit⟩ := exists_frame_append_of_getElem? hline
    rw [hsplit, frames_frame_append hf] at hline
    obtain rfl : f = line := by simpa using hline
    rw [takesAck_cons hf hsplit, hack, Bool.true_or]
  | succ i ih =>
    obtain ⟨f, rest, hf, hsplit⟩ := exists_frame_append_of_getElem? hline
    rw [hsplit, frames_frame_append hf, List.getElem?_cons_succ] at hline
    obtain ⟨data', chunks', rfl⟩ := List.exists_cons_of_length_pos (Nat.zero_lt_of_lt hi)
    have hlonger : (frames newline (rest ++ data'))[i]? = some line := by
      obtain ⟨more, hmore⟩ := frames_of_isPrefix (d := newline) (List.prefix_append rest data')
      have hlt : i < (frames newline rest).length := (List.getElem?_eq_some_iff.mp hline).1
      rw [← hmore, List.getElem?_append_left hlt, hline]
    have hrest := ih hlonger (by simpa using hi)
    rw [takesAck_cons hf hsplit, hrest, Bool.or_true]

/-- **A line that comes again and again is taken**, whatever is in the buffer.  Each chunk moves
`receive_ack` on by one line; the first copy ends the unfinished line of the buffer, and the
second one stands for itself. -/
theorem takesAck_replicate {line : Bytes} (hline : IsFrame newline line)
    (hack : startsWith line (ascii "ACK ") = true) (receiveBuffer : Bytes) :
    takesAck receiveBuffer
      (List.replicate ((frames newline receiveBuffer).length + 2) line) = true := by
  have hends : IsFrame newline (remainder newline receiveBuffer ++ line) := by
    obtain ⟨body, hbody, rfl⟩ := hline
    exact ⟨remainder newline receiveBuffer ++ body,
      by simp [notMem_remainder newline receiveBuffer, hbody], by simp⟩
  have hframes : frames newline (receiveBuffer ++ line) =
      frames newline receiveBuffer ++ [remainder newline receiveBuffer ++ line] := by
    rw [frames_append, ← List.append_nil (remainder newline receiveBuffer ++ line),
      frames_frame_append hends, frames_nil, List.append_nil]
  have hnothing : remainder newline (receiveBuffer ++ line) = [] := by
    rw [remainder_append, ← List.append_nil (remainder newline receiveBuffer ++ line),
      remainder_frame_append hends, remainder_nil]
  obtain ⟨f, rest, hf, hsplit⟩ := exists_frame_append_of_mem
    (List.mem_append_right receiveBuffer hline.mem)
  rw [hsplit, frames_frame_append hf] at hframes
  rw [hsplit, remainder_frame_append hf] at hnothing
  have hcount : (frames newline rest).length = (frames newline receiveBuffer).length := by
    have hlength := congrArg List.length hframes
    simpa using hlength
  -- the copy behind the first one is the last line of the buffer
  have hsecond : (frames newline (rest ++ line))[(frames newline receiveBuffer).length]? =
      some line := by
    rw [frames_append, hnothing, List.nil_append, ← List.append_nil line,
      frames_frame_append hline, frames_nil, ← hcount, List.append_nil]
    simp
  rw [List.replicate_succ, takesAck_cons hf hsplit, List.replicate_succ,
    takesAck_of_frame hsecond hack (by simp), Bool.or_true]

theorem takesAck_ackLine (serverMs : UInt64) (client : ClientState) (receiveBuffer : Bytes) :
    takesAck receiveBuffer (List.replicate ((frames newline receiveBuffer).length + 2)
      (ackLine serverMs client)) = true :=
  takesAck_replicate (isFrame_ackText ((cleanValue_deviceIdFor _).2 newline (by simp)) _ _)
    (startsWith_ackText _ _ _) receiveBuffer

/-- When there is an ACK to take, `receive_ack` takes one. -/
theorem ack_ne_none_of_takesAck {chunks : List Bytes} {last : RecvEnd} {reading : AckReading}
    (hack : takesAck client.receiveBuffer chunks = true)
    (h : receiveAck nowMs chunks last client = .ok reading) : reading.ack ≠ none := by
  induction chunks generalizing client reading with
  | nil => exact absurd hack (by simp [takesAck])
  | cons data chunks ih =>
    rw [takesAck] at hack
    rw [receiveAck] at h
    cases hline : hasAckLine (client.receiveBuffer ++ data) with
    | mk line buffer =>
      cases line with
      | some line =>
        rw [hline] at h
        rw [← Except.ok.inj h]
        simp
      | none =>
        simp only [hline] at h hack
        split at h
        · exact absurd h (by simp)
        · next rest hrest =>
          rw [← Except.ok.inj h]
          exact @ih { client with receiveBuffer := buffer } rest hack hrest

/-- The event that brings its ACK to a client. -/
def ackEvent (nowMs : UInt64) (entry : Sigma fun _ : Fd => ClientState) : SocketEvent where
  fd := entry.1
  errorOrHangup := false
  readable := true
  nowMs := nowMs
  chunks := List.replicate ((frames newline entry.2.receiveBuffer).length + 2)
    (ackLine nowMs entry.2)
  last := .closed

/-- The clients that wait are among these entries. -/
def WaitingIn (entries : List (Sigma fun _ : Fd => ClientState)) (g : Loadgen) : Prop :=
  ∀ fd client, g.clients.lookup fd = some client → client.phase = .waitingAck →
    ⟨fd, client⟩ ∈ entries

/-- The client of the event does not wait any more. -/
theorem phase_of_ackEvent {entry : Sigma fun _ : Fd => ClientState}
    (hlookup : g.clients.lookup entry.1 = some client)
    (hentry : client.phase = .waitingAck → client = entry.2) {after : ClientState}
    (hafter : (handleEvent g (ackEvent nowMs entry)).clients.lookup entry.1 = some after) :
    after.phase ≠ .waitingAck := by
  have hfd : (ackEvent nowMs entry).fd = entry.1 := rfl
  by_cases hwaiting : client.phase = .waitingAck
  · obtain rfl := hentry hwaiting
    have hread : clientEvent (ackEvent nowMs entry) entry.2 =
        receiveAck nowMs (ackEvent nowMs entry).chunks .closed entry.2 := by
      simp [clientEvent, ackEvent, hwaiting]
    have htakes := takesAck_ackLine nowMs entry.2 entry.2.receiveBuffer
    obtain ⟨reading, hreading⟩ : ∃ reading, receiveAck nowMs (ackEvent nowMs entry).chunks
        .closed entry.2 = .ok reading := exists_receiveAck_iff.mpr (Or.inl htakes)
    rcases receiveAck_cases hreading with ⟨hnone, -⟩ | ⟨line, buffer, hsome, hclient⟩
    · exact absurd hnone (ack_ne_none_of_takesAck htakes hreading)
    · rw [handleEvent_of_some hlookup (hread.trans hreading) hsome] at hafter
      have hself := lookup_replace_self hlookup reading.client
      rw [hfd, hself, Option.some.injEq] at hafter
      rw [← hafter, hclient]
      simp
  · have hquiet : clientEvent (ackEvent nowMs entry) client = .ok ⟨client, none, []⟩ := by
      simp [clientEvent, ackEvent, hwaiting]
    rw [handleEvent_of_none hlookup hquiet rfl] at hafter
    have hself := lookup_replace_self hlookup client
    rw [hfd, hself, Option.some.injEq] at hafter
    exact hafter ▸ hwaiting

/-- One event answers its client and loses none. -/
theorem waitingIn_ackEvent {entry : Sigma fun _ : Fd => ClientState}
    {entries : List (Sigma fun _ : Fd => ClientState)}
    (hnodup : (entry :: entries).NodupKeys) (h : WaitingIn (entry :: entries) g) :
    WaitingIn entries (handleEvent g (ackEvent nowMs entry)) ∧
      lostCount (handleEvent g (ackEvent nowMs entry)) = lostCount g := by
  have hentry : ∀ client, g.clients.lookup entry.1 = some client → client.phase = .waitingAck →
      client = entry.2 := by
    intro client hclient hphase
    rcases List.mem_cons.mp (h _ client hclient hphase) with heq | hmem
    · rw [← heq]
    · exact absurd (List.mem_keys_of_mem hmem) (List.nodupKeys_cons.mp hnodup).1
  have hother : ∀ c client, c ≠ entry.1 → g.clients.lookup c = some client →
      client.phase = .waitingAck → ⟨c, client⟩ ∈ entries := by
    intro c client hc hclient hphase
    rcases List.mem_cons.mp (h c client hclient hphase) with heq | hmem
    · exact absurd (congrArg Sigma.fst heq) hc
    · exact hmem
  refine ⟨fun c client hclient hphase => ?_, ?_⟩
  · by_cases hc : c = entry.1
    · subst hc
      exfalso
      cases hlookup : g.clients.lookup entry.1 with
      | none =>
        have hsame : handleEvent g (ackEvent nowMs entry) = g := by
          rw [handleEvent, show (ackEvent nowMs entry).fd = entry.1 from rfl, hlookup]
        rw [hsame, hlookup] at hclient
        exact absurd hclient (by simp)
      | some before => exact phase_of_ackEvent hlookup (hentry before hlookup) hclient hphase
    · have hsame : (handleEvent g (ackEvent nowMs entry)).clients.lookup c = g.clients.lookup c :=
        lookup_handleEvent_of_ne hc
      exact hother c client hc (hsame ▸ hclient) hphase
  · refine (lostCount_handleEvent g (ackEvent nowMs entry)).2.mpr fun client hclient hphase => ?_
    obtain rfl := hentry client hclient hphase
    exact ⟨rfl, fun _ => Or.inl (takesAck_ackLine _ _ _)⟩

/-- **Every client that waits can be answered**: the events answer them all. -/
theorem waitingCount_ackEvents {entries : List (Sigma fun _ : Fd => ClientState)}
    (hnodup : entries.NodupKeys) (h : WaitingIn entries g) :
    waitingCount ((entries.map (ackEvent nowMs)).foldl handleEvent g) = 0 ∧
      lostCount ((entries.map (ackEvent nowMs)).foldl handleEvent g) = lostCount g := by
  induction entries generalizing g with
  | nil =>
    refine ⟨countValues_eq_zero.mpr fun c client hclient => ?_, rfl⟩
    by_contra hwaits
    have hphase : client.phase = .waitingAck := by simpa [ClientState.waits] using hwaits
    exact absurd (h c client hclient hphase) (by simp)
  | cons entry entries ih =>
    obtain ⟨hwaiting, hlost⟩ := @waitingIn_ackEvent nowMs g entry entries hnodup h
    obtain ⟨hzero, hsame⟩ := ih (List.nodupKeys_cons.mp hnodup).2 hwaiting
    exact ⟨hzero, hsame.trans hlost⟩

/-- After the end of the test no line goes out. -/
theorem sendLoop_of_end {currentMs : UInt64} (hend : testEndMs options connectedMs ≤ currentMs)
    (sends : ℕ → SendEnv) (rounds i : ℕ) (g : Loadgen) :
    sendLoop options connectedMs currentMs sends rounds i g = .ok g := by
  have hguard : sendGuard options connectedMs currentMs g = false := by
    rw [UInt64.le_iff_toNat_le] at hend
    simp only [sendGuard, decide_eq_false_iff_not, UInt64.lt_iff_toNat_lt]
    omega
  cases rounds with
  | zero => rfl
  | succ rounds => rw [sendLoop, if_neg (by simp [hguard])]

/-- **Without a loss the summary is in reach**: the test ends, all ACKs arrive, and the guard
is false. -/
theorem GenRun.answeredToSummary (h : GenRun options clients errors connectedMs steps g)
    (hlost : lostCount g = 0) : AnsweredToSummary options connectedMs clockMs g := by
  obtain ⟨T, hclock, hend⟩ : ∃ T, clockMs ≤ T ∧ testEndMs options connectedMs ≤ T := by
    rcases UInt64.le_total clockMs (testEndMs options connectedMs) with hle | hle
    · exact ⟨_, hle, UInt64.le_refl _⟩
    · exact ⟨_, UInt64.le_refl _, hle⟩
  have htime : ¬ T < testEndMs options connectedMs := UInt64.not_lt.mpr hend
  cases hguard : guard options connectedMs T g with
  | false => exact ⟨[], by simp, by simp, g, T, by simp, hclock, Run.nil, hguard⟩
  | true =>
    let events := g.clients.entries.map (ackEvent T)
    let env : IterationEnv :=
      { guardMs := T, currentMs := T, sends := fun _ => ⟨T, .room 0⟩, epoll := .ready events }
    let next := events.foldl handleEvent (tick options connectedMs T g)
    have hiteration : iteration options connectedMs g env = .ok next := by
      rw [iteration]
      simp only [env, sendLoop_of_end hend]
      rfl
    have hrun : Run (iteration options connectedMs)
        (fun g env => guard options connectedMs env.guardMs g = true) g [env] next :=
      Run.single hguard hiteration
    obtain ⟨more, hmore⟩ := exists_steps_of_iterations hrun
    have hbalance := GenRun.balance
      (⟨h.connected, h.run.append hmore⟩ : GenRun options clients errors connectedMs _ next)
    have hanswered : waitingCount next = 0 ∧
        lostCount next = lostCount (tick options connectedMs T g) :=
      waitingCount_ackEvents g.clients.nodupKeys
        fun c client hclient _ => AList.mem_lookup_iff.mp hclient
    have hsame : lostCount (tick options connectedMs T g) = lostCount g := rfl
    have hacks : AcksOnly g env := by
      rintro _ ⟨⟩ event hevent
      obtain ⟨entry, hentry, rfl⟩ := List.mem_map.mp hevent
      exact ⟨entry.2, T, AList.mem_lookup_iff.mpr hentry, fun data hdata =>
        List.eq_of_mem_replicate hdata⟩
    refine ⟨[env], by simp, by simpa using hacks, next, T, by simp [env, hclock], hclock, hrun, ?_⟩
    have hall : ¬ next.latencies.length < next.sent := by omega
    simp [guard, htime, hall]

/-- **When the summary is in reach**: when no waiting client was lost; and then the ACKs of the
server lead to it. -/
theorem GenRun.reachesSummary_iff (h : GenRun options clients errors connectedMs steps g) :
    (ReachesSummary options connectedMs clockMs g ↔ lostCount g = 0) ∧
      (ReachesSummary options connectedMs clockMs g →
        AnsweredToSummary options connectedMs clockMs g) := by
  have hlost : ReachesSummary options connectedMs clockMs g → lostCount g = 0 := fun hreaches =>
    of_not_not fun hnot => h.not_reachesSummary hnot hreaches
  refine ⟨⟨hlost, fun hzero => ?_⟩, fun hreaches => h.answeredToSummary (hlost hreaches)⟩
  have hanswered : AnsweredToSummary options connectedMs clockMs g := h.answeredToSummary hzero
  obtain ⟨envs, -, -, hafter⟩ := hanswered
  exact ⟨envs, hafter⟩

/-! ## The condition -/

/-- **Which failures are contained.**  Among the events, and only there, a failure closes and
removes exactly its client and counts one error.  The loop can then still come to the
summary exactly when that client did not wait for an ACK and the run has lost none before;
and when it can, the ACKs of the server for the clients that wait bring it there. -/
theorem socketFault_contained_iff (h : GenRun options clients errors connectedMs steps g)
    (hfault : SocketFault g fd client st) (clockMs : UInt64) :
    ((∃ g', step options connectedMs g st = .ok g' ∧ Isolated g fd client g') ↔
      ∃ event, st = .event event) ∧
    ((∃ g', step options connectedMs g st = .ok g' ∧ Isolated g fd client g' ∧
        ReachesSummary options connectedMs clockMs g') ↔
      (∃ event, st = .event event) ∧ client.phase ≠ .waitingAck ∧
        Admissible (step options connectedMs) Survivable (start clients errors connectedMs)
          steps) ∧
    ∀ g', step options connectedMs g st = .ok g' →
      ReachesSummary options connectedMs clockMs g' →
      AnsweredToSummary options connectedMs clockMs g' := by
  cases st with
  | tick => cases hfault
  | send env =>
    obtain ⟨e, he⟩ := hfault.send
    have hthrow : step options connectedMs g (.send env) = .error e := by
      simp [step, he, Except.map]
    simp [hthrow]
  | event event =>
    have hisolated := hfault.isolated
    have hrun : GenRun options clients errors connectedMs (steps ++ [.event event])
        (handleEvent g event) :=
      ⟨h.connected, h.run.snoc trivial rfl⟩
    have hsummary : (ReachesSummary options connectedMs clockMs (handleEvent g event) ↔
        lostCount (handleEvent g event) = 0) ∧ _ := hrun.reachesSummary_iff
    have hcontained : ReachesSummary options connectedMs clockMs (handleEvent g event) ↔
        client.phase ≠ .waitingAck ∧ lostCount g = 0 := by
      rw [hsummary.1, hisolated.lostCount_eq]
      by_cases hphase : client.phase = .waitingAck <;> simp [ClientState.waits, hphase]
    rw [← h.lostCount_eq_zero_iff, ← hcontained]
    have hstep : step options connectedMs g (.event event) = .ok (handleEvent g event) := rfl
    refine ⟨iff_of_true ⟨_, hstep, hisolated⟩ ⟨event, rfl⟩, ?_, ?_⟩
    · constructor
      · rintro ⟨g', hok, -, hreaches⟩
        obtain rfl := Except.ok.inj (hstep.symm.trans hok)
        exact ⟨⟨event, rfl⟩, hreaches⟩
      · rintro ⟨-, hreaches⟩
        exact ⟨_, hstep, hisolated, hreaches⟩
    · intro g' hok
      obtain rfl := Except.ok.inj (hstep.symm.trans hok)
      exact hsummary.2

/-- Two clients have sent a STATUS, one of them has its ACK, and then its socket hangs up.
The other one is still to be answered, and the summary can come. -/
theorem socketFault_contained_iff_hangup :
    ∃ (steps : List Step) (g : Loadgen) (client : ClientState),
      GenRun pairOptions pairClients 0 0 steps g ∧ g.sent = 2 ∧ g.latencies = [10] ∧
      SocketFault g 4 client (.event ⟨4, true, false, 600, [], .closed⟩) ∧
      ∃ g', step pairOptions 0 g (.event ⟨4, true, false, 600, [], .closed⟩) = .ok g' ∧
        Isolated g 4 client g' ∧ AnsweredToSummary pairOptions 0 600 g' := by
  let env : SendEnv := ⟨500, .room 1000⟩
  let ack : Bytes := ackText (deviceIdFor 1) 1 9
  let steps : List Step := [.tick 0 500, .send env, .send env,
    .event ⟨4, false, true, 510, [ack.take 20, ack.drop 20], .failed .EAGAIN⟩]
  obtain ⟨g, hrun, hg⟩ := exists_genRun connected_pair 0 steps
    (P := fun g => g.sent = 2 ∧ g.latencies = [10] ∧
      (g.clients.lookup 4).any fun client => client.phase = .ready) (by decide +kernel)
  obtain ⟨hsent, hlatencies, hready⟩ := of_decide_eq_true hg
  obtain ⟨client, hclient, hphase⟩ := (Option.any_eq_true _ _).mp hready
  have hfault : SocketFault g 4 client (.event ⟨4, true, false, 600, [], .closed⟩) :=
    .hangup _ hclient rfl rfl
  have hwaits : client.phase ≠ .waitingAck := by rw [of_decide_eq_true hphase]; decide
  obtain ⟨-, hsummary, hanswered⟩ := socketFault_contained_iff hrun hfault 600
  obtain ⟨g', hok, hisolated, hreaches⟩ := hsummary.mpr ⟨⟨_, rfl⟩, hwaits, by decide +kernel⟩
  exact ⟨steps, g, client, hrun, hsent, hlatencies, hfault, g', hok, hisolated,
    hanswered g' hok hreaches⟩

/-- The client of the short test. -/
def soleClient : ClientState := { fd := 3, index := 0, phase := .ready }

/-- The peer has closed its end when the client sends: the program ends. -/
theorem socketFault_epipe :
    ∃ (steps : List Step) (g : Loadgen) (st : Step), GenRun soleOptions soleClients 0 0 steps g ∧
      Enabled soleOptions 0 g st ∧ SocketFault g 3 soleClient st ∧
      step soleOptions 0 g st = .error (.strerror .EPIPE) ∧
      ¬ ∃ g', step soleOptions 0 g st = .ok g' ∧ Isolated g 3 soleClient g' ∧
        ReachesSummary soleOptions 0 500 g' := by
  let g := tick soleOptions 0 500 (start soleClients 0 0)
  have hrun : GenRun soleOptions soleClients 0 0 [.tick 0 500] g :=
    ⟨connected_sole, Run.single (by decide +kernel) rfl⟩
  have hthrow : step soleOptions 0 g (.send ⟨500, .failed .EPIPE⟩) = .error (.strerror .EPIPE) :=
    rfl
  refine ⟨[.tick 0 500], g, .send ⟨500, .failed .EPIPE⟩, hrun, by decide +kernel,
    .sendFailed _ _ ⟨rfl, rfl⟩ rfl, hthrow, ?_⟩
  rintro ⟨g', hok, -⟩
  exact absurd (hthrow.symm.trans hok) (by simp)

end Loadgen
end RemoteDeviceConsole
