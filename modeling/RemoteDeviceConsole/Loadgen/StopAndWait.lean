import RemoteDeviceConsole.Loadgen.Exchange

/-!
# Stop and wait

`NetInv` says that every client of the load generator is in exchange with its end of the
server.  `NetReachable.netInv` proves it for every reachable state, and
`NetReachable.stop_and_wait` draws the conclusion: at most one STATUS of a client is
without an ACK, and the line that makes a waiting client ready is the reply to its last
STATUS.

## Why the invariant has two parts

`Exchange` is about a client of the map: it speaks of the client's buffer and phase.  A client
that was closed has neither, but its STATUS lines and its ACKs stay in the trace.  What is left
to say of it is the count, so `outstanding` is a part of its own, about every descriptor.

## Where the work is

A move of the server writes one entry, which every link sees in the same way, and
`Exchange.observe` is all there is to it.  A step of the load generator is for one client, but an
event may write two entries, the bytes that were read and the ACK that they completed, and what
the second one says is true only after the first one has been taken off the link.
`NetInv.of_gen` therefore takes the actions of a step as a whole: a client of the new table is an
old one that none of them is about (`Quiet`), or it is in exchange again behind all of them.
-/

namespace RemoteDeviceConsole

open Framing Machine Relation
open Loadgen (ClientState Action deviceIdFor sentClient soleOptions)

variable {D : Type} [CharconvDouble D] {link link' : Link} {c : Fd}

/-! ## The invariant of the whole -/

/-- Every client is in exchange with its end of the server, and no client, closed ones
included, has more than one STATUS without an ACK. -/
structure NetInv (n : Net D) : Prop where
  exchange : ∀ c client, n.gen.clients.lookup c = some client →
    Exchange n.server.trace n.gen.trace (n.links c) n.clockMs c client
  outstanding : ∀ c, (statusesOf c n.gen.trace).length ≤ (acksOf c n.gen.trace).length + 1

/-- The actions are not about the client on `c`. -/
structure Quiet (c : Fd) (actions : List Action) : Prop where
  statuses : statusesOf c actions = []
  acks : acksOf c actions = []
  read : readBy c actions = []

variable {n n' : Net D} {options : Loadgen.Options} {connectedMs : UInt64}

omit [CharconvDouble D] in
theorem netInv_start {nowMs : UInt64} {mqttBridge : MqttBridge} {clients : Loadgen.Clients}
    {errors : ℕ} (hfresh : Loadgen.AllFresh clients) :
    NetInv (Net.start nowMs mqttBridge clients errors connectedMs : Net D) where
  exchange c client hlookup := exchange_start (hfresh c client hlookup) connectedMs
  outstanding c := by simp [Net.start, Loadgen.start, statusesOf, acksOf]

omit [CharconvDouble D] in
/-- A step of the load generator, when each client of the new table is an old one that the
step is not about, or is in exchange again. -/
theorem NetInv.of_gen (h : NetInv n) {g : Loadgen} {actions : List Action} {links : Fd → Link}
    {clockMs : UInt64} (htrace : g.trace = n.gen.trace ++ actions) (hclock : n.clockMs ≤ clockMs)
    (hclients : ∀ c client, g.clients.lookup c = some client →
      (Quiet c actions ∧ n.gen.clients.lookup c = some client ∧ links c = n.links c) ∨
        Exchange n.server.trace (n.gen.trace ++ actions) (links c) clockMs c client)
    (hcounts : ∀ c, (statusesOf c actions).length ≤ (acksOf c actions).length ∨
      (statusesOf c (n.gen.trace ++ actions)).length ≤
        (acksOf c (n.gen.trace ++ actions)).length + 1) :
    NetInv { n with gen := g, links, clockMs } where
  exchange c client hlookup := by
    show Exchange n.server.trace g.trace (links c) clockMs c client
    rw [htrace]
    rcases hclients c client hlookup with ⟨hquiet, hold, hlink⟩ | hnew
    · rw [hlink]
      exact (h.exchange c client hold).of_other hquiet.statuses hquiet.acks hquiet.read hclock
    · exact hnew
  outstanding c := by
    show (statusesOf c g.trace).length ≤ (acksOf c g.trace).length + 1
    rw [htrace]
    rcases hcounts c with hmore | hall
    · have hbefore := h.outstanding c
      rw [statusesOf_append, acksOf_append, List.length_append, List.length_append]
      omega
    · exact hall

theorem quiet_nil (c : Fd) : Quiet c [] := ⟨rfl, rfl, rfl⟩

omit [CharconvDouble D] in
/-- A step of the load generator that does nothing with its clients. -/
theorem NetInv.of_idle (h : NetInv n) {g : Loadgen} {actions : List Action} {links : Fd → Link}
    {clockMs : UInt64} (hsame : g.clients = n.gen.clients ∧ g.trace = n.gen.trace)
    (htrace : g.trace = n.gen.trace ++ actions)
    (hlinks : ∀ c, actions.foldlM (Link.act c) (n.links c) = some (links c))
    (hclock : n.clockMs ≤ clockMs) : NetInv { n with gen := g, links, clockMs } := by
  obtain rfl : actions = [] := by
    rw [hsame.2] at htrace
    exact List.self_eq_append_right.mp htrace
  refine h.of_gen htrace hclock (fun c client hclient => Or.inl ⟨quiet_nil c, ?_, ?_⟩)
    fun c => Or.inl (le_refl _)
  · rwa [hsame.1] at hclient
  · simpa using (hlinks c).symm

omit [CharconvDouble D] in
/-- A round of the sending loop keeps the invariant. -/
theorem netInv_sendRound (h : NetInv n) {env : Loadgen.SendEnv} {goesOn : Bool} {g : Loadgen}
    {actions : List Action} {links : Fd → Link}
    (hround : Loadgen.sendRound env n.gen = .ok (goesOn, g))
    (htrace : g.trace = n.gen.trace ++ actions)
    (hlinks : ∀ c, actions.foldlM (Link.act c) (n.links c) = some (links c))
    (hclock : n.clockMs ≤ env.nowMs) :
    NetInv { n with gen := g, links, clockMs := env.nowMs } := by
  rcases Loadgen.sendRound_cases hround with ⟨-, rfl⟩ |
    ⟨fd, client, hlookup, hready, ⟨-, rfl⟩ | ⟨-, rfl⟩⟩
  · exact h.of_idle ⟨rfl, rfl⟩ htrace hlinks hclock
  · -- a STATUS goes out
    obtain rfl : actions = [.status (sentClient env.nowMs client)] :=
      (List.append_cancel_left htrace).symm
    have hexchange := h.exchange fd client hlookup
    have hfd : (sentClient env.nowMs client).fd = fd := hexchange.fd
    have hother : ∀ c, c ≠ fd → Quiet c [.status (sentClient env.nowMs client)] := by
      intro c hc
      have hne : (sentClient env.nowMs client).fd ≠ c := fun heq => hc (heq.symm.trans hfd)
      exact ⟨by simp [statusesOf, hne], by simp [acksOf], by simp [readBy]⟩
    have hsends := hexchange.sends hready env.nowMs
    refine h.of_gen htrace hclock (fun c client' hclient => ?_) fun c => ?_
    · by_cases hc : c = fd
      · subst hc
        rw [lookup_replace_self hlookup, Option.some.injEq] at hclient
        have hlink := hlinks c
        simp only [List.foldlM_cons, List.foldlM_nil, Link.act, hfd, if_true, Option.pure_def,
          Option.bind_eq_bind, Option.bind_some, Option.some.injEq] at hlink
        rw [← hclient, ← hlink]
        exact Or.inr hsends
      · rw [lookup_replace_of_ne hc] at hclient
        refine Or.inl ⟨hother c hc, hclient, ?_⟩
        have hne : (sentClient env.nowMs client).fd ≠ c := fun heq => hc (heq.symm.trans hfd)
        have hlink := hlinks c
        simp only [List.foldlM_cons, List.foldlM_nil, Link.act, hne, if_false, Option.pure_def,
          Option.bind_eq_bind, Option.bind_some, Option.some.injEq] at hlink
        exact hlink.symm
    · by_cases hc : c = fd
      · subst hc
        obtain ⟨earlier, last, hstatuses, hcount, -⟩ := hsends.waiting rfl
        refine Or.inr ?_
        rw [hstatuses, List.length_append, List.length_singleton, hcount]
      · exact Or.inl (by simp [(hother c hc).statuses])
  · -- the socket is full
    obtain rfl : actions = [] := by simpa using htrace
    have hsame : ∀ c, links c = n.links c := fun c => by simpa using (hlinks c).symm
    refine h.of_gen htrace hclock (fun c client' hclient => ?_) fun c => Or.inl (le_refl _)
    by_cases hc : c = fd
    · subst hc
      simp only at hclient
      rw [lookup_replace_self hlookup, Option.some.injEq] at hclient
      rw [← hclient, hsame, List.append_nil]
      exact Or.inr ((h.exchange c client hlookup).defers hready env.nowMs)
    · simp only at hclient
      rw [lookup_replace_of_ne hc] at hclient
      exact Or.inl ⟨quiet_nil c, hclient, hsame c⟩

/-- What the bytes that were read did to the link. -/
theorem read_of_act {fd : Fd} {data : Bytes} {rest : List Action}
    (hrest : ∀ a ∈ rest, ∃ record, a = .acked record)
    (hlink : (Action.read fd data :: rest).foldlM (Link.act fd) link = some link') :
    data <+: link.down ∧ link' = { link with down := link.down.drop data.length } := by
  have hkeep : ∀ (rest : List Action) (link : Link), (∀ a ∈ rest, ∃ record, a = .acked record) →
      rest.foldlM (Link.act fd) link = some link := by
    intro rest
    induction rest with
    | nil => exact fun link _ => rfl
    | cons a rest ih =>
      intro link hrest
      obtain ⟨record, rfl⟩ := hrest a (by simp)
      exact ih link fun b hb => hrest b (by simp [hb])
  simp only [List.foldlM_cons, Link.act, if_true, Option.bind_eq_bind] at hlink
  split at hlink
  · next hpre =>
    rw [Option.bind_some, hkeep rest _ hrest, Option.some.injEq] at hlink
    exact ⟨hpre, hlink.symm⟩
  · exact absurd hlink (by simp)

/-- An event keeps the invariant. -/
theorem netInv_handleEvent (h : NetInv n) (hserver : Reachable n.server)
    {event : Loadgen.SocketEvent} {actions : List Action} {links : Fd → Link}
    (htrace : (Loadgen.handleEvent n.gen event).trace = n.gen.trace ++ actions)
    (hlinks : ∀ c, actions.foldlM (Link.act c) (n.links c) = some (links c))
    (hclock : n.clockMs ≤ event.nowMs) :
    NetInv { n with gen := Loadgen.handleEvent n.gen event, links, clockMs := event.nowMs } := by
  cases hlookup : n.gen.clients.lookup event.fd with
  | none =>
    have hsame : Loadgen.handleEvent n.gen event = n.gen := by
      rw [Loadgen.handleEvent, hlookup]
    rw [hsame] at htrace ⊢
    exact h.of_idle ⟨rfl, rfl⟩ htrace hlinks hclock
  | some client =>
    have hexchange := h.exchange event.fd client hlookup
    cases hevent : Loadgen.clientEvent event client with
    | error e =>
      rw [Loadgen.handleEvent_of_error hlookup hevent] at htrace ⊢
      obtain rfl : actions = [.closed client] := (List.append_cancel_left htrace).symm
      have hquiet : ∀ c, Quiet c [.closed client] := fun c =>
        ⟨by simp [statusesOf], by simp [acksOf], by simp [readBy]⟩
      refine h.of_gen htrace hclock (fun c client' hclient => ?_)
        fun c => Or.inl (by simp [(hquiet c).statuses])
      by_cases hc : c = event.fd
      · rw [hc, AList.lookup_erase] at hclient
        exact absurd hclient (by simp)
      · rw [AList.lookup_erase_ne hc] at hclient
        exact Or.inl ⟨hquiet c, hclient, by simpa [Link.act] using (hlinks c).symm⟩
    | ok reading =>
      cases hack : reading.ack with
      | none =>
        rw [Loadgen.handleEvent_of_none hlookup hevent hack] at htrace ⊢
        obtain rfl : actions = [.read event.fd reading.data] :=
          (List.append_cancel_left htrace).symm
        refine h.of_gen htrace hclock (fun c client' hclient => ?_)
          fun c => Or.inl (by simp [statusesOf])
        by_cases hc : c = event.fd
        · subst hc
          rw [lookup_replace_self hlookup, Option.some.injEq] at hclient
          obtain ⟨hdata, hlink⟩ := read_of_act (by simp) (hlinks event.fd)
          rw [← hclient, hlink]
          rcases hexchange.event hserver hevent hdata hclock with ⟨-, -, hnew⟩ | ⟨text, hsome, -⟩
          · exact Or.inr hnew
          · rw [hack] at hsome
            exact absurd hsome (by simp)
        · rw [lookup_replace_of_ne hc] at hclient
          have hne : event.fd ≠ c := Ne.symm hc
          exact Or.inl ⟨⟨by simp [statusesOf], by simp [acksOf], by simp [readBy, hne]⟩, hclient,
            by simpa [Link.act, hne] using (hlinks c).symm⟩
      | some ack =>
        obtain ⟨line, latency⟩ := ack
        rw [Loadgen.handleEvent_of_some hlookup hevent hack] at htrace ⊢
        obtain rfl := (List.append_cancel_left htrace).symm
        refine h.of_gen htrace hclock (fun c client' hclient => ?_)
          fun c => Or.inl (by simp [statusesOf])
        by_cases hc : c = event.fd
        · subst hc
          rw [lookup_replace_self hlookup, Option.some.injEq] at hclient
          obtain ⟨hdata, hlink⟩ := read_of_act (by simp) (hlinks event.fd)
          rw [← hclient, hlink]
          rcases hexchange.event hserver hevent hdata hclock with
            ⟨hnone, -⟩ | ⟨text, hsome, -, -, -, hnew⟩
          · rw [hack] at hnone
            exact absurd hnone (by simp)
          · rw [hack, Option.some.injEq, Prod.mk.injEq] at hsome
            exact Or.inr (hnew _ rfl hsome.1)
        · rw [lookup_replace_of_ne hc] at hclient
          have hne : event.fd ≠ c := Ne.symm hc
          have hne' : client.fd ≠ c := fun heq => hc (heq.symm.trans hexchange.fd)
          exact Or.inl ⟨⟨by simp [statusesOf], by simp [acksOf, hne'], by simp [readBy, hne]⟩,
            hclient, by simpa [Link.act, hne] using (hlinks c).symm⟩

/-- **Every step of the whole keeps the invariant.** -/
theorem netInv_of_step (h : NetInv n) (hserver : Reachable n.server)
    (hstep : NetStep options connectedMs n n') : NetInv n' := by
  cases hstep with
  | accept c fd links hfresh hbacklog hlink hlinks =>
    refine ⟨fun c' client hclient => ?_, h.outstanding⟩
    have hold := h.exchange c' client hclient
    show Exchange (n.server.trace ++ [.accepted fd]) n.gen.trace (links c') n.clockMs c' client
    by_cases hc : c' = c
    · subst hc
      rw [hlink]
      exact hold.accept hbacklog fd
    · exact hold.observe (hlinks c' hc)
  | server t x links hmove htrace hlinks =>
    refine ⟨fun c client hclient => ?_, h.outstanding⟩
    show Exchange t.trace n.gen.trace (links c) n.clockMs c client
    rw [htrace]
    exact (h.exchange c client hclient).observe (hlinks c)
  | gen st g actions links henabled hok htrace hlinks hclock =>
    cases st with
    | tick guardMs currentMs =>
      obtain rfl := Except.ok.inj hok
      have hle : n.clockMs ≤ currentMs :=
        List.rel_of_pairwise_cons hclock (by simp [Loadgen.Step.readings])
      exact h.of_idle ⟨rfl, rfl⟩ htrace hlinks hle
    | send env =>
      have hle : n.clockMs ≤ env.nowMs :=
        List.rel_of_pairwise_cons hclock (by simp [Loadgen.Step.readings])
      obtain ⟨goesOn, hround⟩ := Loadgen.exists_sendRound_of_step hok
      exact netInv_sendRound h hround htrace hlinks hle
    | event event =>
      have hle : n.clockMs ≤ event.nowMs :=
        List.rel_of_pairwise_cons hclock (by simp [Loadgen.Step.readings])
      obtain rfl := Except.ok.inj hok
      exact netInv_handleEvent h hserver htrace hlinks hle

/-- **The invariant of every reachable state.** -/
theorem NetReachable.netInv (h : NetReachable options connectedMs n) : NetInv n := by
  obtain ⟨nowMs, mqttBridge, clients, errors, hconnected, hpath⟩ := h
  induction hpath with
  | refl => exact netInv_start hconnected.allFresh
  | tail hbefore hstep ih =>
    have hreach : NetReachable options connectedMs _ :=
      ⟨nowMs, mqttBridge, clients, errors, hconnected, hbefore⟩
    exact netInv_of_step ih hreach.server hstep

/-! ## Stop and wait -/

/-- A round of the sending loop makes no waiting client ready. -/
theorem not_ready_of_sendRound {env : Loadgen.SendEnv} {goesOn : Bool} {g g' : Loadgen}
    (hround : Loadgen.sendRound env g = .ok (goesOn, g')) {client' : ClientState}
    (hclient : g.clients.lookup c = some client) (hwaiting : client.phase = .waitingAck)
    (hafter : g'.clients.lookup c = some client') : client' = client := by
  rcases Loadgen.sendRound_cases hround with ⟨-, rfl⟩ | ⟨fd, other, hlookup, hready, hg⟩
  · rw [hclient, Option.some.injEq] at hafter
    exact hafter.symm
  · have hc : c ≠ fd := by
      rintro rfl
      rw [hclient, Option.some.injEq] at hlookup
      rw [hlookup, hready] at hwaiting
      exact absurd hwaiting (by simp)
    have hsame : g'.clients.lookup c = g.clients.lookup c := by
      rcases hg with ⟨-, rfl⟩ | ⟨-, rfl⟩ <;> exact lookup_replace_of_ne hc _
    rw [hsame, hclient, Option.some.injEq] at hafter
    exact hafter.symm

/-- What it takes for a waiting client to become ready: it reads and takes one line, the
reply to its last STATUS, with nothing left in its buffer, and the latency is the time
since that STATUS was sent. -/
structure Replied (n : Net D) (g : Loadgen) (c : Fd) (client client' : ClientState)
    (record : Loadgen.AckRecord) (status : ClientState) : Prop where
  trace : ∃ data, g.trace = n.gen.trace ++ [.read c data, .acked record]
  before : record.before = client
  after : record.after = client'
  reply : IsReply n.server.trace (statusesOf c n.gen.trace) client' record.line
  buffer : client'.receiveBuffer = []
  lastStatus : (statusesOf c n.gen.trace).getLast? = some status
  sequence : status.sequence = client'.sequence
  sentMs : status.sentMs ≤ record.nowMs
  latency : record.latency.toNat = record.nowMs.toNat - status.sentMs.toNat
  latencies : g.latencies = n.gen.latencies ++ [record.latency]

/-- **An event that makes a waiting client ready** brought the rest of its ACK. -/
theorem reply_of_handleEvent (h : NetInv n) (hserver : Reachable n.server)
    {event : Loadgen.SocketEvent} {actions : List Action} {links : Fd → Link}
    (htrace : (Loadgen.handleEvent n.gen event).trace = n.gen.trace ++ actions)
    (hlinks : ∀ c, actions.foldlM (Link.act c) (n.links c) = some (links c))
    (hclock : n.clockMs ≤ event.nowMs) {client client' : ClientState}
    (hclient : n.gen.clients.lookup c = some client) (hwaiting : client.phase = .waitingAck)
    (hafter : (Loadgen.handleEvent n.gen event).clients.lookup c = some client')
    (hready : client'.phase = .ready) :
    ∃ record status,
      Replied n (Loadgen.handleEvent n.gen event) c client client' record status := by
  by_cases hc : c = event.fd
  · subst hc
    have hexchange := h.exchange event.fd client hclient
    cases hevent : Loadgen.clientEvent event client with
    | error e =>
      rw [Loadgen.handleEvent_of_error hclient hevent] at hafter
      exact absurd hafter (by simp)
    | ok reading =>
      cases hack : reading.ack with
      | none =>
        -- without an ACK the phase stays
        rcases Loadgen.clientEvent_cases hevent with
          ⟨-, buffer, hreading⟩ | ⟨-, line, buffer, hsome, -⟩
        · simp only [Loadgen.handleEvent_of_none hclient hevent hack,
            lookup_replace_self hclient, Option.some.injEq] at hafter
          rw [← hafter, hreading] at hready
          exact absurd (hwaiting.symm.trans hready) (by simp)
        · rw [hack] at hsome
          exact absurd hsome (by simp)
      | some ack =>
        obtain ⟨line, latency⟩ := ack
        rw [Loadgen.handleEvent_of_some hclient hevent hack] at htrace hafter ⊢
        obtain rfl := (List.append_cancel_left htrace).symm
        rw [lookup_replace_self hclient, Option.some.injEq] at hafter
        obtain ⟨hdata, -⟩ := read_of_act (by simp) (hlinks event.fd)
        rcases hexchange.event hserver hevent hdata hclock with
          ⟨hnone, -⟩ | ⟨text, hsome, -, hreading, hreply, -⟩
        · rw [hack] at hnone
          exact absurd hnone (by simp)
        · rw [hack, Option.some.injEq, Prod.mk.injEq] at hsome
          obtain ⟨rfl, rfl⟩ := hsome
          obtain ⟨earlier, status, hstatuses, -, hsequence, hsentMs, hbefore⟩ :=
            hexchange.waiting hwaiting
          have hsent : client.sentMs ≤ event.nowMs := UInt64.le_trans hbefore hclock
          refine ⟨_, status, ⟨reading.data, rfl⟩, rfl, hafter, ?_, ?_, ?_, ?_, ?_, ?_, rfl⟩
          · show IsReply n.server.trace (statusesOf event.fd n.gen.trace) client' line
            rw [← hafter, hreading]
            exact hreply
          · rw [← hafter, hreading]
          · rw [hstatuses]
            simp
          · rw [← hafter, hreading]
            exact hsequence
          · show status.sentMs ≤ event.nowMs
            rw [hsentMs]
            exact hsent
          · show (event.nowMs - client.sentMs).toNat = event.nowMs.toNat - status.sentMs.toNat
            rw [hsentMs]
            exact UInt64.toNat_sub_of_le _ _ hsent
  · -- the event is for another client
    rw [Loadgen.lookup_handleEvent_of_ne hc, hclient, Option.some.injEq] at hafter
    rw [← hafter, hwaiting] at hready
    exact absurd hready (by simp)

/-- **Stop and wait.**  In every reachable state each client has sent at most one STATUS more
than it has taken ACKs.  Whenever a client goes from waiting to ready, it has taken the
ACK that the server sent for its last STATUS, with its id and its current sequence, and
the latency is the time since that STATUS was sent. -/
theorem NetReachable.stop_and_wait (h : NetReachable options connectedMs n) :
    (∀ c, (statusesOf c n.gen.trace).length ≤ (acksOf c n.gen.trace).length + 1) ∧
    ∀ n' c client client', NetStep options connectedMs n n' →
      n.gen.clients.lookup c = some client → client.phase = .waitingAck →
      n'.gen.clients.lookup c = some client' → client'.phase = .ready →
      ∃ record status, Replied n n'.gen c client client' record status := by
  have hinv := h.netInv
  refine ⟨hinv.outstanding, fun n' c client client' hstep hclient hwaiting hafter hready => ?_⟩
  -- only an event of its own makes a waiting client ready
  have hchanged : n'.gen.clients.lookup c ≠ n.gen.clients.lookup c := by
    intro heq
    rw [hafter, hclient, Option.some.injEq] at heq
    rw [heq, hwaiting] at hready
    exact absurd hready (by simp)
  cases hstep with
  | accept c' fd links hfresh hbacklog hlink hlinks => exact absurd rfl hchanged
  | server t x links hmove htrace hlinks => exact absurd rfl hchanged
  | gen st g actions links henabled hok htrace hlinks hclock =>
    cases st with
    | tick guardMs currentMs =>
      obtain rfl := Except.ok.inj hok
      exact absurd rfl hchanged
    | send env =>
      obtain ⟨goesOn, hround⟩ := Loadgen.exists_sendRound_of_step hok
      have hsame := not_ready_of_sendRound hround hclient hwaiting hafter
      exact absurd (hafter.trans (hsame ▸ hclient.symm)) hchanged
    | event event =>
      obtain rfl := Except.ok.inj hok
      have hle : n.clockMs ≤ event.nowMs :=
        List.rel_of_pairwise_cons hclock (by simp [Loadgen.Step.readings])
      exact reply_of_handleEvent hinv h.server htrace hlinks hle hclient hwaiting hafter hready

/-- The client of that test takes the ACK 10 ms after its STATUS. -/
theorem stop_and_wait_answered :
    ∃ n n' : Net ℤ, NetReachable soleOptions 0 n ∧ NetStep soleOptions 0 n n' ∧
      ∃ record, .acked record ∈ n'.gen.trace ∧
        IsReply n.server.trace (statusesOf 3 n.gen.trace) { soleWaiting with phase := .ready }
          record.line ∧
        record.latency = 10 := by
  obtain ⟨n, hn, hclock, hclient, hlinks⟩ := exists_netReachable_answered
  have hevent : Loadgen.clientEvent ⟨3, false, true, 510, [ackText (deviceIdFor 0) 1 9],
      .failed .EAGAIN⟩ soleWaiting =
        .ok ⟨{ soleWaiting with phase := .ready }, some (ackText (deviceIdFor 0) 1 9, 10),
          ackText (deviceIdFor 0) 1 9⟩ := rfl
  have hgen := Loadgen.handleEvent_of_some hclient hevent rfl
  have hstep := @NetStep.gen ℤ _ soleOptions 0 n (.event _) _
    [.read 3 (ackText (deviceIdFor 0) 1 9), .acked _] (soleLinks { serverEnd := .connected 7 })
    trivial (congrArg Except.ok hgen) rfl (fun c => by
      rw [hlinks]
      by_cases hc : c = 3
      · rw [hc]
        rfl
      · have hfd : 3 ≠ c := fun h => hc h.symm
        simp [Link.act, hfd, soleLinks, hc]) (by rw [hclock]; decide)
  obtain ⟨-, hwait⟩ := hn.stop_and_wait
  obtain ⟨record, status, hreplied⟩ :=
    hwait _ 3 _ _ hstep hclient rfl (lookup_replace_self hclient _) rfl
  obtain ⟨data, htrace⟩ := hreplied.trace
  have hrecord := List.append_cancel_left htrace
  simp only [List.cons.injEq, Action.read.injEq, Action.acked.injEq, and_true, true_and] at hrecord
  exact ⟨n, _, hn, hstep, record, htrace ▸ by simp, hreplied.reply, hrecord.2 ▸ rfl⟩

end RemoteDeviceConsole
