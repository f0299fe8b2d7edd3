import RemoteDeviceConsole.Loadgen.Moves
import RemoteDeviceConsole.Server.Connections

/-!
# The load generator and the server together

A `Net` is the state of both programs and of the connections between them.  A `Link` is
the connection of one client: where the server has its other end, and the bytes under
way in the two directions.  Bytes arrive in order and in pieces of any size.

A step of the whole is a move of the server, which may just as well serve other clients,
or a step of the load generator.  What they put on a link and take from it is what
their traces say.  Each move of the server writes one entry, so its `recv`, the handling
of each line and its `send` interleave with the steps of the load generator in every
way.  The clock of the load generator never goes back.

That the traces may be read so is proved for each program by itself.  The bytes that the
server logs are those of its `recv` calls (`ServerRun.readings`), and the bytes that the
trace of the load generator has of a client are those that its calls of `send` took
(`GenRun.sentBy_eq`), although the trace has the client and not the text.
-/

namespace RemoteDeviceConsole

open Framing Machine Relation

/-! ## Links -/

/-- The server's end of a connection. -/
inductive ServerEnd where
  /-- `accept` has not returned it yet. -/
  | backlog
  | connected (fd : Fd)
  | closed
  deriving DecidableEq

/-- The connection of a client: the bytes that the client has sent and the server has not
received, and the bytes that the server has sent and the client has not read. -/
structure Link where
  serverEnd : ServerEnd := .backlog
  up : Bytes := []
  down : Bytes := []
  deriving DecidableEq

/-- The link whose other end is on `fd`, after the server has written an entry: received
bytes are the first ones under way, and `accept` returns no descriptor that is open. -/
def Link.entry (fd : Fd) (link : Link) : Obs → Option Link
  | .accepted fd' => if fd' = fd then none else some link
  | .received fd' data =>
      if fd' = fd then
        if data <+: link.up then some { link with up := link.up.drop data.length } else none
      else some link
  | .disconnected fd' => if fd' = fd then some { link with serverEnd := .closed } else some link
  | .line record => some { link with down := link.down ++ bytesTo fd [.line record] }
  | .report record => some { link with down := link.down ++ bytesTo fd [.report record] }
  | .unknown _ => some link

/-- A link after the server has written an entry. -/
def Link.observe (x : Obs) (link : Link) : Option Link :=
  match link.serverEnd with
  | .connected fd => link.entry fd x
  | _ => some link

/-- The link of the client on `c` after one action of the load generator. -/
def Link.act (c : Fd) (link : Link) : Loadgen.Action → Option Link
  | .status client =>
      if client.fd = c then some { link with up := link.up ++ Loadgen.makeStatusLine client }
      else some link
  | .read fd data =>
      if fd = c then
        if data <+: link.down then some { link with down := link.down.drop data.length } else none
      else some link
  | .acked _ => some link
  | .closed _ => some link

/-! ## The whole -/

/-- The two programs, the links of the clients by their descriptors in the load
generator, and the last reading of its clock. -/
structure Net (D : Type) where
  server : Server D
  gen : Loadgen
  links : Fd → Link
  clockMs : UInt64

variable {D : Type} [CharconvDouble D]

/-- What a step reads from the clock, in order. -/
def Loadgen.Step.readings : Loadgen.Step → List UInt64
  | .tick guardMs currentMs => [guardMs, currentMs]
  | .send env => [env.nowMs]
  | .event e => [e.nowMs]

/-- One step of the whole. -/
inductive NetStep (options : Loadgen.Options) (connectedMs : UInt64) : Net D → Net D → Prop where
  /-- The server accepts the connection of the client on `c`. -/
  | accept (n : Net D) (c fd : Fd) (links : Fd → Link) (hfresh : fd ∉ n.server.openFds)
      (hbacklog : (n.links c).serverEnd = .backlog)
      (hlink : links c = { n.links c with serverEnd := .connected fd })
      (hlinks : ∀ c', c' ≠ c → (n.links c').observe (.accepted fd) = some (links c')) :
      NetStep options connectedMs n { n with server := acceptClient fd n.server, links }
  /-- The server makes a move; a client that it accepts is not of the load generator. -/
  | server (n : Net D) (t : Server D) (x : Obs) (links : Fd → Link) (hmove : Move n.server t)
      (htrace : t.trace = n.server.trace ++ [x])
      (hlinks : ∀ c, (n.links c).observe x = some (links c)) :
      NetStep options connectedMs n { n with server := t, links }
  /-- The load generator makes a step. -/
  | gen (n : Net D) (st : Loadgen.Step) (g : Loadgen) (actions : List Loadgen.Action)
      (links : Fd → Link) (henabled : Loadgen.Enabled options connectedMs n.gen st)
      (hstep : Loadgen.step options connectedMs n.gen st = .ok g)
      (htrace : g.trace = n.gen.trace ++ actions)
      (hlinks : ∀ c, actions.foldlM (Link.act c) (n.links c) = some (links c))
      (hclock : (n.clockMs :: st.readings).Pairwise (· ≤ ·)) :
      NetStep options connectedMs n
        { n with gen := g, links, clockMs := st.readings.getLast?.getD n.clockMs }

/-- The whole when the load generator is connected: no connection is accepted yet. -/
def Net.start (nowMs : UInt64) (mqttBridge : MqttBridge) (clients : Loadgen.Clients) (errors : ℕ)
    (connectedMs : UInt64) : Net D where
  server := Server.start nowMs mqttBridge
  gen := Loadgen.start clients errors connectedMs
  links := fun _ => {}
  clockMs := connectedMs

/-- States of the whole that steps lead to. -/
def NetReachable (options : Loadgen.Options) (connectedMs : UInt64) (n : Net D) : Prop :=
  ∃ nowMs mqttBridge clients errors, Loadgen.Connected options clients errors ∧
    ReflTransGen (NetStep options connectedMs)
      (Net.start nowMs mqttBridge clients errors connectedMs) n

variable {options : Loadgen.Options} {connectedMs : UInt64} {n n' : Net D}

/-- The server of a whole that is reachable is reachable by itself. -/
theorem NetReachable.server (h : NetReachable options connectedMs n) : Reachable n.server := by
  obtain ⟨nowMs, mqttBridge, clients, errors, -, hpath⟩ := h
  refine ⟨nowMs, mqttBridge, ?_⟩
  induction hpath with
  | refl => exact .refl
  | tail _ hstep ih =>
    cases hstep with
    | accept c fd links hfresh => exact ih.tail (.accepted _ fd hfresh)
    | server t x links hmove => exact ih.tail hmove
    | gen => exact ih

theorem NetReachable.step (h : NetReachable options connectedMs n)
    (hstep : NetStep options connectedMs n n') : NetReachable options connectedMs n' := by
  obtain ⟨nowMs, mqttBridge, clients, errors, hconnected, hpath⟩ := h
  exact ⟨nowMs, mqttBridge, clients, errors, hconnected, hpath.tail hstep⟩

/-! ## What has gone over a link -/

/-- The STATUS lines that the client on `c` has sent. -/
def statusesOf (c : Fd) (trace : List Loadgen.Action) : List Loadgen.ClientState :=
  trace.filterMap fun
    | .status client => if client.fd = c then some client else none
    | _ => none

/-- The ACK lines that it has taken. -/
def acksOf (c : Fd) (trace : List Loadgen.Action) : List Bytes :=
  trace.filterMap fun
    | .acked record => if record.before.fd = c then some record.line else none
    | _ => none

/-- The bytes that it has sent. -/
def sentBy (c : Fd) (trace : List Loadgen.Action) : Bytes :=
  (statusesOf c trace).flatMap Loadgen.makeStatusLine

/-- The bytes that it has read. -/
def readBy (c : Fd) (trace : List Loadgen.Action) : Bytes :=
  trace.flatMap fun
    | .read fd data => if fd = c then data else []
    | _ => []

section Traces

variable (c : Fd) (a b : List Loadgen.Action)

@[simp] theorem statusesOf_append : statusesOf c (a ++ b) = statusesOf c a ++ statusesOf c b :=
  List.filterMap_append

@[simp] theorem acksOf_append : acksOf c (a ++ b) = acksOf c a ++ acksOf c b :=
  List.filterMap_append

@[simp] theorem sentBy_append : sentBy c (a ++ b) = sentBy c a ++ sentBy c b := by
  simp [sentBy]

@[simp] theorem readBy_append : readBy c (a ++ b) = readBy c a ++ readBy c b :=
  List.flatMap_append

end Traces

/-! ## What the load generator has handed to `send` -/

/-- The calls of `send` that a step makes. -/
def stepCalls (g : Loadgen) : Loadgen.Step → List Sent
  | .send env =>
    match g.clients.entries[g.nextClientIndex % g.clients.entries.length]? with
    | some ⟨_, client⟩ => if client.phase = .ready then [Loadgen.sendCall env client] else []
    | none => []
  | _ => []

/-- The bytes that calls of `send` have taken from the client on `c`. -/
def takenFrom (c : Fd) (calls : List Sent) : Bytes :=
  (calls.filter fun call => call.fd = c).flatMap Sent.bytes

theorem takenFrom_append (c : Fd) (a b : List Sent) :
    takenFrom c (a ++ b) = takenFrom c a ++ takenFrom c b := by
  simp [takenFrom]

theorem sentBy_of_sendRound {env : Loadgen.SendEnv} {goesOn : Bool} {g g' : Loadgen}
    (h : Loadgen.sendRound env g = .ok (goesOn, g')) (c : Fd) :
    sentBy c g'.trace = sentBy c g.trace ++ takenFrom c (stepCalls g (.send env)) := by
  rw [Loadgen.sendRound] at h
  split at h
  · next hentry =>
    rw [← (Prod.mk.inj (Except.ok.inj h)).2]
    simp [stepCalls, hentry, takenFrom]
  · next fd client hentry =>
    split at h
    · next hready =>
      have hcalls : stepCalls g (.send env) = [Loadgen.sendCall env client] := by
        simp [stepCalls, hentry, hready]
      rw [hcalls]
      split at h
      · exact absurd h (by simp)
      · next client' hsend =>
        have hbytes := Loadgen.bytes_sendCall hsend
        rcases Loadgen.sendStatus_cases hsend with ⟨-, rfl⟩ | ⟨hfalse, -⟩
        · rw [← (Prod.mk.inj (Except.ok.inj h)).2]
          have hsame : (Loadgen.sendCall env client).fd = client.fd := rfl
          by_cases hfd : client.fd = c <;>
            simp [sentBy, statusesOf, takenFrom, Loadgen.sentClient, hsame, hfd] at hbytes ⊢
          exact hbytes.symm
        · exact absurd hfalse (by simp)
      · next client' hsend =>
        have hbytes : (Loadgen.sendCall env client).bytes = [] := Loadgen.bytes_sendCall hsend
        rw [← (Prod.mk.inj (Except.ok.inj h)).2]
        by_cases hfd : (Loadgen.sendCall env client).fd = c <;> simp [takenFrom, hfd, hbytes]
    · next hready =>
      rw [← (Prod.mk.inj (Except.ok.inj h)).2]
      simp [stepCalls, hentry, hready, takenFrom]

/-- An event sends nothing. -/
theorem sentBy_handleEvent (c : Fd) (g : Loadgen) (event : Loadgen.SocketEvent) :
    sentBy c (Loadgen.handleEvent g event).trace = sentBy c g.trace := by
  rw [Loadgen.handleEvent]
  split
  · rfl
  · split
    · simp [sentBy, statusesOf]
    · split <;> simp [sentBy, statusesOf]

/-- **The log has the bytes of the calls**: what the entries of a run say a client has sent is
what the calls of `send` in its steps have taken. -/
theorem Loadgen.GenRun.sentBy_eq {options : Loadgen.Options} {clients : Loadgen.Clients}
    {errors : ℕ} {connectedMs : UInt64} {steps : List Loadgen.Step} {g : Loadgen}
    (h : Loadgen.GenRun options clients errors connectedMs steps g) (c : Fd) :
    sentBy c g.trace = takenFrom c (outputs (Loadgen.step options connectedMs) stepCalls
      (Loadgen.start clients errors connectedMs) steps) := by
  obtain ⟨-, hrun⟩ := h
  induction hrun with
  | nil => rfl
  | @snoc steps g g' st hrun hadm hok ih =>
    rw [hrun.outputs_append_singleton, takenFrom_append, ← ih]
    cases st with
    | tick guardMs currentMs => simp [← Except.ok.inj hok, Loadgen.tick, stepCalls, takenFrom]
    | send env =>
      obtain ⟨goesOn, hround⟩ := Loadgen.exists_sendRound_of_step hok
      exact sentBy_of_sendRound hround c
    | event event =>
      rw [← Except.ok.inj hok, sentBy_handleEvent]
      simp [stepCalls, takenFrom]

/-- **The two ends of a link**: given what the client has sent and read, the bytes under
way are what is missing at the other end.  The other end is a session of the server:
an empty one while the connection waits for `accept`, the session on its descriptor
while it is open, and an earlier one when it is closed. -/
inductive Carries (trace : List Obs) (sent read : Bytes) (link : Link) (fd : Fd) :
    List Obs → Prop where
  | backlog (hend : link.serverEnd = .backlog) (hup : sent = link.up) (hdown : link.down = [])
      (hread : read = []) : Carries trace sent read link fd []
  | connected (obs : List Obs) (hend : link.serverEnd = .connected fd)
      (hsession : session fd trace = some obs) (hup : sent = bytesOf fd obs ++ link.up)
      (hdown : bytesTo fd obs = read ++ link.down) : Carries trace sent read link fd obs
  | closed (pre obs : List Obs) (hend : link.serverEnd = .closed) (hpre : pre <+: trace)
      (hsession : session fd pre = some obs) (hup : bytesOf fd obs <+: sent)
      (hdown : bytesTo fd obs = read ++ link.down) : Carries trace sent read link fd obs

variable {trace obs : List Obs} {sent read data : Bytes} {link link' : Link} {fd : Fd} {x : Obs}

/-- The session at the other end, and what has gone over the link. -/
theorem Carries.history (h : Carries trace sent read link fd obs) :
    (obs = [] ∨ ∃ pre, pre <+: trace ∧ session fd pre = some obs) ∧ bytesOf fd obs <+: sent ∧
      bytesTo fd obs = read ++ link.down := by
  cases h with
  | backlog hend hup hdown hread => exact ⟨Or.inl rfl, by simp, by simp [hdown, hread, bytesTo]⟩
  | connected _ hend hsession hup hdown =>
    exact ⟨Or.inr ⟨trace, List.prefix_rfl, hsession⟩, ⟨link.up, hup.symm⟩, hdown⟩
  | closed pre _ hend hpre hsession hup hdown => exact ⟨Or.inr ⟨pre, hpre, hsession⟩, hup, hdown⟩

/-- **An entry of the server keeps a link.**  The session at its other end grows, or stays as
it is. -/
theorem Carries.observe (h : Carries trace sent read link fd obs)
    (hlink : link.observe x = some link') :
    ∃ new, Carries (trace ++ [x]) sent read link' fd (obs ++ new) := by
  cases h with
  | backlog hend hup hdown hread =>
    rw [Link.observe, hend, Option.some.injEq] at hlink
    subst hlink
    exact ⟨[], .backlog hend hup hdown hread⟩
  | closed pre _ hend hpre hsession hup hdown =>
    rw [Link.observe, hend, Option.some.injEq] at hlink
    subst hlink
    refine ⟨[], ?_⟩
    rw [List.append_nil]
    exact .closed pre obs hend (hpre.trans (List.prefix_append _ _)) hsession hup hdown
  | connected _ hend hsession hup hdown =>
    simp only [Link.observe, hend] at hlink
    -- an entry that neither opens nor closes joins the session
    have hjoin : x.opens fd = false → x.closes fd = false →
        session fd (trace ++ [x]) = some (obs ++ [x]) := by
      intro hopens hcloses
      simp [session_append_singleton, hopens, hcloses, hsession]
    have hquiet : x.opens fd = false → x.closes fd = false → bytesOf fd [x] = [] →
        link' = { link with down := link.down ++ bytesTo fd [x] } →
        ∃ new, Carries (trace ++ [x]) sent read link' fd (obs ++ new) := by
      intro hopens hcloses hdata heq
      rw [heq]
      exact ⟨[x], .connected _ hend (hjoin hopens hcloses) (by simp [hup, hdata]) (by simp [hdown])⟩
    cases x with
    | accepted fd' =>
      rw [Link.entry] at hlink
      split at hlink
      · exact absurd hlink (by simp)
      · next hfd =>
        exact hquiet (by simp [Obs.opens, hfd]) rfl rfl
          (by simpa [bytesTo, sendsTo, Obs.sends] using (Option.some.inj hlink).symm)
    | received fd' data =>
      rw [Link.entry] at hlink
      split at hlink
      · next hfd =>
        subst hfd
        split at hlink
        · next hpre =>
          rw [← Option.some.inj hlink]
          obtain ⟨rest, hrest⟩ := hpre
          refine ⟨[.received fd' data], .connected _ hend (hjoin rfl rfl) ?_ ?_⟩
          · show sent = bytesOf fd' (obs ++ [.received fd' data]) ++ link.up.drop data.length
            rw [hup, ← hrest]
            simp
          · simpa [bytesTo, sendsTo, Obs.sends] using hdown
        · exact absurd hlink (by simp)
      · next hfd =>
        exact hquiet rfl rfl (by simp [hfd])
          (by simpa [bytesTo, sendsTo, Obs.sends] using (Option.some.inj hlink).symm)
    | disconnected fd' =>
      rw [Link.entry] at hlink
      split at hlink
      · rw [← Option.some.inj hlink]
        refine ⟨[], ?_⟩
        rw [List.append_nil]
        exact .closed trace obs rfl (List.prefix_append _ _) hsession ⟨link.up, hup.symm⟩ hdown
      · next hfd =>
        exact hquiet rfl (by simp [Obs.closes, hfd]) rfl
          (by simpa [bytesTo, sendsTo, Obs.sends] using (Option.some.inj hlink).symm)
    | line record => exact hquiet rfl rfl rfl (Option.some.inj hlink).symm
    | report record => exact hquiet rfl rfl rfl (Option.some.inj hlink).symm
    | unknown fd' =>
      exact hquiet rfl rfl rfl
        (by simpa [bytesTo, sendsTo, Obs.sends] using (Option.some.inj hlink).symm)

/-- The server accepts the connection. -/
theorem Carries.accept {fd' : Fd} (h : Carries trace sent read link fd obs)
    (hend : link.serverEnd = .backlog) :
    obs = [] ∧ Carries (trace ++ [.accepted fd']) sent read
      { link with serverEnd := .connected fd' } fd' [] := by
  cases h with
  | backlog _ hup hdown hread =>
    refine ⟨rfl, .connected [] rfl ?_ (by simpa using hup) (by simp [hdown, hread, bytesTo])⟩
    simp [session_append_singleton, Obs.opens]
  | connected _ hend' => rw [hend] at hend'; exact absurd hend' (by simp)
  | closed pre _ hend' => rw [hend] at hend'; exact absurd hend' (by simp)

/-- The client sends. -/
theorem Carries.sends (h : Carries trace sent read link fd obs) (data : Bytes) :
    Carries trace (sent ++ data) read { link with up := link.up ++ data } fd obs := by
  cases h with
  | backlog hend hup hdown hread => exact .backlog hend (by rw [hup]) hdown hread
  | connected _ hend hsession hup hdown =>
    exact .connected _ hend hsession (by rw [hup, List.append_assoc]) hdown
  | closed pre _ hend hpre hsession hup hdown =>
    exact .closed pre _ hend hpre hsession (hup.trans (List.prefix_append _ _)) hdown

/-- The client reads. -/
theorem Carries.reads (h : Carries trace sent read link fd obs) (hdata : data <+: link.down) :
    Carries trace sent (read ++ data) { link with down := link.down.drop data.length } fd obs := by
  obtain ⟨rest, hrest⟩ := hdata
  have hdrop : link.down.drop data.length = rest := by rw [← hrest, List.drop_left]
  have hmove : read ++ link.down = read ++ data ++ link.down.drop data.length := by
    rw [hdrop, List.append_assoc, hrest]
  cases h with
  | backlog hend hup hdown hread =>
    rw [hdown] at hrest
    obtain ⟨rfl, rfl⟩ := List.append_eq_nil_iff.mp hrest
    exact .backlog hend hup (by simp [hdown]) (by simp [hread])
  | connected _ hend hsession hup hdown =>
    exact .connected _ hend hsession hup (hdown.trans hmove)
  | closed pre _ hend hpre hsession hup hdown =>
    exact .closed pre _ hend hpre hsession hup (hdown.trans hmove)

/-! ## A short test -/

section ShortTest

open Loadgen (connected_sole deviceIdFor makeStatusLine sentClient soleClients soleOptions)

/-- The client of the short test with one client, once its STATUS is out. -/
def soleWaiting : Loadgen.ClientState :=
  sentClient 500 { fd := 3, index := 0, phase := .ready }

/-- The links when only the client on 3 is connected. -/
def soleLinks (link : Link) (c : Fd) : Link := if c = 3 then link else {}

/-- The load generator then. -/
def soleSent : Loadgen where
  clients := soleClients.replace 3 soleWaiting
  latencies := []
  errors := 0
  sent := 1
  nextClientIndex := 1
  sendCredit := 4
  lastTickMs := 500
  trace := [.status soleWaiting]

theorem step_soleSent :
    Loadgen.step soleOptions 0 (Loadgen.tick soleOptions 0 500 (Loadgen.start soleClients 0 0))
      (.send ⟨500, .room 1000⟩) = .ok soleSent := by
  have hcredit :
      (Loadgen.tick soleOptions 0 500 (Loadgen.start soleClients 0 0)).sendCredit - 1 = 4 := by
    decide +kernel
  have hroom : (makeStatusLine soleWaiting).length ≤ 1000 := by decide +kernel
  have hround := @Loadgen.sendRound_of_sent (Loadgen.tick soleOptions 0 500
    (Loadgen.start soleClients 0 0)) ⟨500, .room 1000⟩ 3 _ _ rfl rfl
    (Loadgen.sendStatus_of_room hroom)
  rw [hcredit] at hround
  rw [Loadgen.step, hround]
  rfl

/-- The whole before the server accepts the client. -/
def soleStart (s : Server ℤ) : Net ℤ :=
  { (Net.start 0 ⟨false⟩ soleClients 0 0 : Net ℤ) with server := s }

/-- The server when it has received the STATUS. -/
def soleReceived (s : Server ℤ) : Server ℤ :=
  ((acceptClient 7 s).setBuffer 7 (makeStatusLine soleWaiting)).log
    (.received 7 (makeStatusLine soleWaiting))

/-- The server when it has answered it. -/
def soleServed (s : Server ℤ) : Server ℤ :=
  handleLine 7 (.roomy 9) (makeStatusLine soleWaiting) ((soleReceived s).setBuffer 7 [])

/-- In the short test the server answers the client on 3, whoever else it has accepted before. -/
theorem exists_netReachable_served {s : Server ℤ}
    (h : NetReachable soleOptions 0 (soleStart s)) (hfresh : 7 ∉ s.openFds)
    (hbuffer : s.clientBuffers.lookup 7 = none)
    (hack : bytesTo 7 [.line (lineRecord 7 (.roomy 9) (makeStatusLine soleWaiting)
      ((soleReceived s).setBuffer 7 []))] = ackText (deviceIdFor 0) 1 9) :
    ∃ n : Net ℤ, NetReachable soleOptions 0 n ∧ n.clockMs = 500 ∧ n.gen = soleSent ∧
      n.server = soleServed s ∧
      n.links =
        soleLinks { serverEnd := .connected 7, down := ackText (deviceIdFor 0) 1 9 } := by
  have hobserve : ∀ (x : Obs) (link link' : Link), link.observe x = some link' →
      ∀ c, (soleLinks link c).observe x = some (soleLinks link' c) := by
    intro x link link' hlink c
    by_cases hc : c = 3
    · rw [hc]
      exact hlink
    · rw [soleLinks, soleLinks, if_neg hc, if_neg hc]
      rfl
  have htick : Loadgen.Enabled soleOptions 0 (Loadgen.start soleClients 0 0) (.tick 0 500) := by
    decide +kernel
  have hsend : Loadgen.Enabled soleOptions 0
      (Loadgen.tick soleOptions 0 500 (Loadgen.start soleClients 0 0))
      (.send ⟨500, .room 1000⟩) := by
    decide +kernel
  have haccepted : (acceptClient 7 s).clientBuffers.lookup 7 = some [] := by
    have hnew : 7 ∉ s.clientBuffers := Finmap.lookup_eq_none.mp hbuffer
    simp [acceptClient, hnew]
  -- the server accepts the connection
  have h₁ := h.step (.accept _ 3 7 (soleLinks { serverEnd := .connected 7 }) hfresh rfl rfl
    fun c hc => by rw [soleLinks, if_neg hc]; rfl)
  -- the client sends its STATUS after half a second
  have h₂ := h₁.step (.gen _ (.tick 0 500) _ [] _ htick rfl (List.append_nil _).symm
    (fun c => rfl) (show [0, 0, 500].Pairwise (· ≤ ·) by decide))
  have h₃ := h₂.step (.gen _ (.send ⟨500, .room 1000⟩) soleSent [.status soleWaiting]
    (soleLinks { serverEnd := .connected 7, up := makeStatusLine soleWaiting })
    hsend step_soleSent rfl (fun c => by
      by_cases hc : c = 3
      · rw [hc]
        rfl
      · have hfd : soleWaiting.fd ≠ c := fun h => hc h.symm
        simp [Link.act, hfd, soleLinks, hc]) (show [500, 500].Pairwise (· ≤ ·) by decide))
  -- the server receives it and answers
  have h₄ := h₃.step (.server _ (soleReceived s) (.received 7 (makeStatusLine soleWaiting))
    (soleLinks { serverEnd := .connected 7 })
    (.received _ 7 (makeStatusLine soleWaiting) [] haccepted) rfl
    (hobserve _ _ _ (by decide +kernel)))
  have h₅ := h₄.step (.server _ (soleServed s) _
    (soleLinks { serverEnd := .connected 7, down := ackText (deviceIdFor 0) 1 9 })
    (.line _ 7 (.roomy 9) (makeStatusLine soleWaiting) [] (Loadgen.isFrame_makeStatusLine _)
      (by simp [soleReceived, Server.setBuffer, Server.log])) (trace_handleLine _ _ _ _)
    (hobserve _ _ _ (by
      show some _ = some _
      rw [hack]
      rfl)))
  exact ⟨_, h₅, rfl, rfl, rfl, rfl⟩

/-- The client on 3 still waits then. -/
theorem exists_netReachable_answered :
    ∃ n : Net ℤ, NetReachable soleOptions 0 n ∧ n.clockMs = 500 ∧
      n.gen.clients.lookup 3 = some soleWaiting ∧
      n.links =
        soleLinks { serverEnd := .connected 7, down := ackText (deviceIdFor 0) 1 9 } := by
  have h : NetReachable soleOptions 0 (soleStart (Server.start 0 ⟨false⟩)) :=
    ⟨0, ⟨false⟩, soleClients, 0, connected_sole, .refl⟩
  obtain ⟨n, hn, hclock, hgen, -, hlinks⟩ :=
    exists_netReachable_served h (by decide) (by decide +kernel) (by decide +kernel)
  exact ⟨n, hn, hclock, hgen ▸ by decide +kernel, hlinks⟩

end ShortTest

end RemoteDeviceConsole
