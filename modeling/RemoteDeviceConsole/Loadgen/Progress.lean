import RemoteDeviceConsole.Loadgen.StopAndWait

/-!
# No deadlock

A client of the load generator sends its next STATUS when it has the ACK for the last one, and
neither side sends anything twice.  `Answerable` says of a state that the ACK can still come:
the whole line is under way, or the server has not handled the STATUS yet and its end of the
connection is not closed.

`NetReachable.ready_iff_answerable`: some run from a reachable state makes a waiting client
ready exactly when the state is answerable.  So the client waits for ever exactly when the
server has closed the connection too early or when its `send` of the ACK did not take the whole
line; `NetReachable.comes_to_rest` is what is left without such faults.

## The two directions

A client that waits in a state that is not answerable stays so under every step
(`Stuck.step`): by the invariant of the whole nothing that comes over its link can be the line
that it waits for.

From an answerable state the run is given: the server accepts the connection if it has to,
receives the bytes that are under way, handles the lines, and the client reads.  Each of these
steps has to be one that all links allow, and it is, since no two links have the same end at the
server (`LinksApart`).  No other client takes part, so `NetReachable.comes_to_rest` answers one
client after another, by induction on how many of them wait.
-/

namespace RemoteDeviceConsole

open Framing Machine Relation
open Loadgen (ClientState Action AckReading deviceIdFor makeStatusLine soleOptions)

variable {D : Type} [CharconvDouble D] {n n' : Net D} {options : Loadgen.Options}
  {connectedMs : UInt64} {c : Fd} {client : ClientState}

/-! ## The ends of the links -/

/-- The links have different ends at the server, which are open there. -/
structure LinksApart (n : Net D) : Prop where
  isOpen : ∀ c fd, (n.links c).serverEnd = .connected fd →
    (session fd n.server.trace).isSome = true
  injective : ∀ c c' fd, (n.links c).serverEnd = .connected fd →
    (n.links c').serverEnd = .connected fd → c = c'

/-- An entry closes the end of a link, or leaves it as it is; an entry that leaves it open neither
opens nor closes the connection. -/
theorem Link.serverEnd_observe {link link' : Link} {x : Obs} (h : link.observe x = some link') :
    link'.serverEnd = .closed ∨ link'.serverEnd = link.serverEnd ∧
      ∀ fd, link.serverEnd = .connected fd → x.opens fd = false ∧ x.closes fd = false := by
  unfold Link.observe at h
  split at h
  · next fd hend =>
    have hsame : x.opens fd = false → x.closes fd = false → link'.serverEnd = link.serverEnd →
        link'.serverEnd = link.serverEnd ∧
          ∀ fd', link.serverEnd = .connected fd' → x.opens fd' = false ∧ x.closes fd' = false := by
      intro hopens hcloses heq
      refine ⟨heq, fun fd' hend' => ?_⟩
      rw [← ServerEnd.connected.inj (hend.symm.trans hend')]
      exact ⟨hopens, hcloses⟩
    cases x with
    | accepted other =>
      rw [Link.entry] at h
      split at h
      · exact absurd h (by simp)
      · next hne => exact .inr (hsame (by simp [Obs.opens, hne]) rfl (Option.some.inj h ▸ rfl))
    | received other data =>
      rw [Link.entry] at h
      refine .inr (hsame rfl rfl ?_)
      split at h
      · split at h
        · rw [← Option.some.inj h]
        · exact absurd h (by simp)
      · rw [← Option.some.inj h]
    | disconnected other =>
      rw [Link.entry] at h
      split at h
      · rw [← Option.some.inj h]
        exact .inl rfl
      · next hne => exact .inr (hsame rfl (by simp [Obs.closes, hne]) (Option.some.inj h ▸ rfl))
    | line record => exact .inr (hsame rfl rfl (Option.some.inj h ▸ rfl))
    | report record => exact .inr (hsame rfl rfl (Option.some.inj h ▸ rfl))
    | unknown other => exact .inr (hsame rfl rfl (Option.some.inj h ▸ rfl))
  · next hother => exact .inr ⟨Option.some.inj h ▸ rfl, fun fd hend => absurd hend (hother fd)⟩

/-- An entry that leaves the end of a link open neither opens nor closes the connection. -/
theorem Link.serverEnd_of_observe {link link' : Link} {x : Obs} {fd : Fd}
    (h : link.observe x = some link') (hend : link'.serverEnd = .connected fd) :
    link.serverEnd = .connected fd ∧ x.opens fd = false ∧ x.closes fd = false := by
  rcases Link.serverEnd_observe h with hclosed | ⟨hsame, hquiet⟩
  · rw [hclosed] at hend
    exact absurd hend (by simp)
  · exact ⟨hsame ▸ hend, hquiet fd (hsame ▸ hend)⟩

/-- The load generator does nothing to the end of a link. -/
theorem Link.serverEnd_of_act {link link' : Link} {actions : List Action}
    (h : actions.foldlM (Link.act c) link = some link') : link'.serverEnd = link.serverEnd := by
  induction actions generalizing link with
  | nil => rw [← Option.some.inj h]
  | cons a actions ih =>
    rw [List.foldlM_cons, Option.bind_eq_bind, Option.bind_eq_some_iff] at h
    obtain ⟨next, hnext, hrest⟩ := h
    rw [ih hrest]
    cases a with
    | status client =>
      rw [Link.act] at hnext
      split at hnext <;> rw [← Option.some.inj hnext]
    | read fd data =>
      rw [Link.act] at hnext
      split at hnext
      · split at hnext
        · rw [← Option.some.inj hnext]
        · exact absurd hnext (by simp)
      · rw [← Option.some.inj hnext]
    | acked record => rw [← Option.some.inj hnext]
    | closed client => rw [← Option.some.inj hnext]

omit [CharconvDouble D] in
/-- An entry of the server keeps the links apart. -/
theorem LinksApart.observe (h : LinksApart n) {t : Server D} {x : Obs} {links : Fd → Link}
    (htrace : t.trace = n.server.trace ++ [x])
    (hlinks : ∀ c, (n.links c).observe x = some (links c)) :
    LinksApart { n with server := t, links } where
  isOpen c fd hend := by
    obtain ⟨hbefore, hopens, hcloses⟩ := Link.serverEnd_of_observe (hlinks c) hend
    show (session fd t.trace).isSome = true
    rw [htrace, session_append_singleton, hopens, hcloses, if_neg Bool.false_ne_true,
      if_neg Bool.false_ne_true, Option.isSome_map]
    exact h.isOpen c fd hbefore
  injective c c' fd hend hend' :=
    h.injective c c' fd (Link.serverEnd_of_observe (hlinks c) hend).1
      (Link.serverEnd_of_observe (hlinks c') hend').1

/-- **The links stay apart**: `accept` returns no descriptor that is open. -/
theorem LinksApart.step (h : LinksApart n) (hstep : NetStep options connectedMs n n') :
    LinksApart n' := by
  cases hstep with
  | accept c fd links hfresh hbacklog hlink hlinks =>
    -- the other links have other ends
    have hother : ∀ c' fd', c' ≠ c → (links c').serverEnd = .connected fd' →
        (n.links c').serverEnd = .connected fd' ∧ fd' ≠ fd ∧
          (session fd' (n.server.trace ++ [.accepted fd])).isSome = true := by
      intro c' fd' hc hend
      obtain ⟨hbefore, hopens, hcloses⟩ := Link.serverEnd_of_observe (hlinks c' hc) hend
      refine ⟨hbefore, fun hfd => by simp [Obs.opens, hfd] at hopens, ?_⟩
      rw [session_append_singleton, hopens, hcloses, if_neg Bool.false_ne_true,
        if_neg Bool.false_ne_true, Option.isSome_map]
      exact h.isOpen c' fd' hbefore
    have hend : (links c).serverEnd = .connected fd := by rw [hlink]
    constructor
    · intro c' fd' hend'
      by_cases hc : c' = c
      · subst hc
        rw [hend, ServerEnd.connected.injEq] at hend'
        show (session fd' (n.server.trace ++ [.accepted fd])).isSome = true
        rw [session_append_singleton, if_pos (by simp [Obs.opens, hend'])]
        rfl
      · exact (hother c' fd' hc hend').2.2
    · intro c₁ c₂ fd' h₁ h₂
      by_cases hc₁ : c₁ = c
      · by_cases hc₂ : c₂ = c
        · rw [hc₁, hc₂]
        · subst hc₁
          rw [hend, ServerEnd.connected.injEq] at h₁
          exact absurd h₁.symm (hother c₂ fd' hc₂ h₂).2.1
      · by_cases hc₂ : c₂ = c
        · subst hc₂
          rw [hend, ServerEnd.connected.injEq] at h₂
          exact absurd h₂.symm (hother c₁ fd' hc₁ h₁).2.1
        · exact h.injective c₁ c₂ fd' (hother c₁ fd' hc₁ h₁).1 (hother c₂ fd' hc₂ h₂).1
  | server t x links hmove htrace hlinks => exact h.observe htrace hlinks
  | gen st g actions links henabled hok htrace hlinks hclock =>
    have hsame : ∀ c, (links c).serverEnd = (n.links c).serverEnd := fun c =>
      Link.serverEnd_of_act (hlinks c)
    constructor
    · intro c fd hend
      exact h.isOpen c fd (hsame c ▸ hend)
    · intro c c' fd hend hend'
      exact h.injective c c' fd (hsame c ▸ hend) (hsame c' ▸ hend')

theorem NetReachable.linksApart (h : NetReachable options connectedMs n) : LinksApart n := by
  obtain ⟨nowMs, mqttBridge, clients, errors, hconnected, hpath⟩ := h
  induction hpath with
  | refl =>
    refine ⟨fun c fd hend => ?_, fun c c' fd hend => ?_⟩ <;> simp [Net.start] at hend
  | tail _ hstep ih => exact ih.step hstep

/-! ## One ACK for each line -/

/-- The parser accepts the coordinates of the clients. -/
def AcceptsCoordinates (D : Type) [CharconvDouble D] : Prop :=
  ∀ n : ℕ, n < 50 → (parseDouble (toStringInt n) : Option D).isSome = true

/-- Every line of a client is accepted, and asks for an ACK. -/
theorem exists_parse_makeStatusLine (hparse : AcceptsCoordinates D) (client : ClientState) :
    ∃ status : DeviceStatus D, parseStatusLine (makeStatusLine client) = some status ∧
      status.ackRequested = true := by
  obtain ⟨x, hx⟩ := Option.isSome_iff_exists.mp (hparse (client.index % 50)
    (Nat.mod_lt _ (by norm_num)))
  obtain ⟨y, hy⟩ := Option.isSome_iff_exists.mp (hparse (client.index / 50 % 50)
    (Nat.mod_lt _ (by norm_num)))
  obtain ⟨z, hz⟩ := Option.isSome_iff_exists.mp (hparse (client.index % 10)
    ((Nat.mod_lt _ (by norm_num)).trans (by norm_num)))
  have hstatus := Loadgen.parseStatusLine_makeStatusLine (D := D) client
  rw [hx, hy, hz] at hstatus
  exact ⟨_, hstatus, rfl⟩

/-- A connection whose lines all ask for an ACK is sent one for each. -/
theorem Reachable.length_sendsTo {s : Server D} (h : Reachable s) {fd : Fd} {obs : List Obs}
    (hsession : session fd s.trace = some obs)
    (hlines : ∀ line ∈ linesOf fd obs, asksViewer line = false ∧
      ∃ status : DeviceStatus D, parseStatusLine line = some status ∧
        status.ackRequested = true) :
    (sendsTo fd obs).length = (linesOf fd obs).length := by
  rw [h.sendsTo_session hsession]
  clear hsession
  induction obs with
  | nil => rfl
  | cons x obs ih =>
    rw [← List.singleton_append, linesOf_append] at hlines
    rw [← List.singleton_append, linesOf_append, List.length_append, List.singleton_append,
      sessionSends, List.length_append]
    have hasks : x.asks fd = false := by
      rw [Obs.asks, List.any_eq_false]
      intro line hline
      have hmem : line ∈ linesOf fd [x] := by simpa [linesOf] using hline
      simpa using (hlines line (List.mem_append_left _ hmem)).1
    rw [hasks, Bool.or_false, ih fun line hline => hlines line (List.mem_append_right _ hline)]
    congr 1
    cases x with
    | line record =>
      by_cases hfd : record.fd = fd
      · obtain ⟨-, status, hstatus, hack⟩ := hlines record.line (by simp [hfd])
        rw [expectedSends_of_own hfd, hstatus, Option.bind_some, ackSends, if_pos hack]
        simp [hfd]
      · rw [expectedSends_of_other hfd]
        simp [hfd]
    | _ => rfl

variable {trace : List Obs} {actions : List Action} {link : Link} {clockMs : UInt64}

/-- **The other end of a client.**  The lines that the server has handled are the first STATUS
lines of the client, each has been answered by one call of `send`, and the ACKs that the client
has taken are some of these. -/
theorem Carries.answered {s : Server D} (hserver : Reachable s) (hparse : AcceptsCoordinates D)
    {read : Bytes} {fd : Fd} {obs : List Obs}
    (hcarries : Carries s.trace (sentBy c actions) read link fd obs) :
    linesOf fd obs <+: (statusesOf c actions).map makeStatusLine ∧
      (sendsTo fd obs).length = (linesOf fd obs).length := by
  obtain ⟨hobs, hbytes, -⟩ := hcarries.history
  have hlines := linesOf_isPrefix hserver hobs hbytes
  refine ⟨hlines, ?_⟩
  rcases hobs with rfl | ⟨pre, hpre, hsession⟩
  · rfl
  · obtain ⟨t, ht, rfl⟩ := hserver.exists_of_prefix hpre
    refine ht.length_sendsTo hsession fun line hline => ?_
    obtain ⟨status, -, rfl⟩ := List.mem_map.mp (hlines.subset hline)
    exact ⟨asksViewer_makeStatusLine status, exists_parse_makeStatusLine hparse status⟩

/-- What a run leads to is reachable. -/
theorem NetReachable.trans (h : NetReachable options connectedMs n)
    (hpath : ReflTransGen (NetStep options connectedMs) n n') :
    NetReachable options connectedMs n' := by
  obtain ⟨nowMs, mqttBridge, clients, errors, hconnected, hbefore⟩ := h
  exact ⟨nowMs, mqttBridge, clients, errors, hconnected, hbefore.trans hpath⟩

/-! ## Answerable clients -/

/-- The ACK for the last STATUS of a client can still come: the whole line is under way, or the
server can still handle the STATUS. -/
def Answerable (n : Net D) (c : Fd) : Prop :=
  newline ∈ (n.links c).down ∨ (n.links c).serverEnd = .backlog ∨
    ∃ fd obs, (n.links c).serverEnd = .connected fd ∧ session fd n.server.trace = some obs ∧
      (linesOf fd obs).length < (statusesOf c n.gen.trace).length

/-- A run in which the server answers well: it closes no connection, and every `send` of an ACK
takes the whole line. -/
structure Serves (options : Loadgen.Options) (connectedMs : UInt64) (n n' : Net D) : Prop where
  path : ReflTransGen (NetStep options connectedMs) n n'
  whole : ∀ record sent, .line record ∈ n'.server.trace → record.ack = some sent →
    .line record ∈ n.server.trace ∨ sent.Whole
  ends : ∀ c, (n'.links c).serverEnd = .closed → (n.links c).serverEnd = .closed

theorem Serves.trans {m : Net D} (h : Serves options connectedMs n m)
    (h' : Serves options connectedMs m n') : Serves options connectedMs n n' where
  path := h.path.trans h'.path
  whole record sent hrecord hack := by
    rcases h'.whole record sent hrecord hack with hbefore | hwhole
    · exact h.whole record sent hbefore hack
    · exact .inr hwhole
  ends c hend := h.ends c (h'.ends c hend)

/-- A step of the load generator that only the client on `c` is part of. -/
theorem foldlM_act_of_ne {fd : Fd} (hfd : fd ≠ c) (data : Bytes) {records : List Action}
    (hrecords : ∀ a ∈ records, ∃ record, a = .acked record) (link : Link) :
    (Action.read fd data :: records).foldlM (Link.act c) link = some link := by
  rw [List.foldlM_cons, Link.act, if_neg hfd, Option.bind_eq_bind, Option.bind_some]
  induction records with
  | nil => rfl
  | cons a records ih =>
    obtain ⟨record, rfl⟩ := hrecords a (by simp)
    exact ih fun b hb => hrecords b (by simp [hb])

/-- **A whole line under way is read**: the client takes its ACK in one event, to which the
server does nothing. -/
theorem NetReachable.ready_of_newline (h : NetReachable options connectedMs n)
    (hclient : n.gen.clients.lookup c = some client) (hwaiting : client.phase = .waitingAck)
    (hdown : newline ∈ (n.links c).down) :
    ∃ n' client', Serves options connectedMs n n' ∧ client'.phase = .ready ∧
      n'.gen.clients = n.gen.clients.replace c client' ∧
      statusesOf c n'.gen.trace = statusesOf c n.gen.trace ∧ n'.server = n.server ∧
      ∀ c', (n'.links c').serverEnd = (n.links c').serverEnd := by
  have hexchange := h.netInv.exchange c client hclient
  obtain ⟨text, htext, hack, hpre, -⟩ := hexchange.exists_text h.server hwaiting
  have hfull : client.receiveBuffer ++ (n.links c).down = text :=
    htext.eq_of_prefix hpre (List.mem_append_right _ hdown)
  let event : Loadgen.SocketEvent :=
    ⟨c, false, true, n.clockMs, [(n.links c).down], .failed .EAGAIN⟩
  let reading : AckReading := ⟨{ client with receiveBuffer := [], phase := .ready },
    some (text, n.clockMs - client.sentMs), (n.links c).down⟩
  have hevent : Loadgen.clientEvent event client = .ok reading := by
    have hcut : Loadgen.hasAckLine text = (some text, []) := by
      have hcut : cutFrame newline text = some (text, []) := by
        simpa using cutFrame_frame_append htext []
      rw [Loadgen.hasAckLine, hcut]
      simp [hack]
    rw [Loadgen.clientEvent, if_neg Bool.false_ne_true, if_pos ⟨hwaiting, rfl⟩, Loadgen.receiveAck,
      hfull, hcut]
  have hgen := Loadgen.handleEvent_of_some hclient hevent rfl
  let links : Fd → Link := fun c' => if c' = c then { n.links c with down := [] } else n.links c'
  have hends : ∀ c', (links c').serverEnd = (n.links c').serverEnd := by
    intro c'
    by_cases hc : c' = c
    · simp [links, hc]
    · simp [links, hc]
  refine ⟨_, reading.client, ⟨.single (.gen n (.event event) _ _ links trivial
    (congrArg Except.ok hgen) rfl ?_ ?_), fun record sent hrecord _ => .inl hrecord,
    fun c' hend => (hends c').symm.trans hend⟩, rfl, rfl, by simp [statusesOf], rfl, hends⟩
  · intro c'
    by_cases hc : c' = c
    · subst hc
      rw [List.foldlM_cons, Link.act, if_pos rfl, if_pos List.prefix_rfl, List.drop_length]
      simp [links, Link.act]
    · simp only [links, if_neg hc]
      exact foldlM_act_of_ne (Ne.symm hc) _ (by simp) _
  · simp [Loadgen.Step.readings, event]

/-- The handling of a line reaches every link. -/
theorem Link.exists_observe_line (link : Link) (record : LineRecord) :
    ∃ link', link.observe (.line record) = some link' ∧ link'.serverEnd = link.serverEnd ∧
      ∀ fd, link.serverEnd = .connected fd →
        link'.down = link.down ++ bytesTo fd [.line record] := by
  cases hend : link.serverEnd with
  | connected fd =>
    refine ⟨{ link with down := link.down ++ bytesTo fd [.line record] }, ?_, hend, ?_⟩
    · simp [Link.observe, Link.entry, hend]
    · intro fd' hfd
      rw [ServerEnd.connected.inj hfd]
  | backlog => exact ⟨link, by rw [Link.observe, hend], hend, fun fd hfd => absurd hfd (by simp)⟩
  | closed => exact ⟨link, by rw [Link.observe, hend], hend, fun fd hfd => absurd hfd (by simp)⟩

/-- The server handles the line of a client, and sends the ACK when the socket has room. -/
theorem exists_move_answer (hparse : AcceptsCoordinates D) {s : Server D} {fd : Fd}
    (hbuffer : s.clientBuffers.lookup fd = some (makeStatusLine client)) :
    ∃ (t : Server D) (record : LineRecord), Move s t ∧ t.trace = s.trace ++ [.line record] ∧
      newline ∈ bytesTo fd [.line record] ∧ ∀ sent, record.ack = some sent → sent.Whole := by
  obtain ⟨status, hstatus, hack⟩ := exists_parse_makeStatusLine hparse client
  let text := ackText status.deviceId status.sequence 0
  let env : LineEnv := ⟨0, .room text.length, fun _ => .room 0, .increasing⟩
  refine ⟨_, _, .line s fd env (makeStatusLine client) [] (Loadgen.isFrame_makeStatusLine client)
    (by rw [hbuffer, List.append_nil]), trace_handleLine .., ?_, fun sent hsent => ?_⟩
  · rw [bytesTo, sendsTo_lineRecord, expectedSends_of_own (lineRecord_fd ..), lineRecord_line,
      lineRecord_env, hstatus, Option.bind_some, ackSends, if_pos hack]
    have hwhole : (⟨fd, text, .room text.length⟩ : Sent).bytes = text := List.take_length
    show newline ∈ [(⟨fd, text, .room text.length⟩ : Sent)].flatMap Sent.bytes
    rw [List.flatMap_singleton, hwhole]
    exact List.mem_append_right _ (List.mem_singleton_self _)
  · rw [lineRecord_ack, hstatus, Option.bind_some, ackSends, if_pos hack,
      Option.some.injEq] at hsent
    exact hsent ▸ ⟨text.length, rfl, le_refl _⟩

/-- The server receives all that is under way from a client. -/
theorem NetReachable.exists_received (h : NetReachable options connectedMs n) {fd : Fd}
    {buffer : Bytes} (hend : (n.links c).serverEnd = .connected fd)
    (hbuffer : n.server.clientBuffers.lookup fd = some buffer) :
    ∃ n', Serves options connectedMs n n' ∧ n'.gen = n.gen ∧
      (n'.links c).serverEnd = .connected fd ∧
      n'.server.clientBuffers.lookup fd = some (buffer ++ (n.links c).up) := by
  let received : Obs := .received fd (n.links c).up
  let links : Fd → Link := fun c' => if c' = c then { n.links c with up := [] } else n.links c'
  have hobserve : ∀ c', (n.links c').observe received = some (links c') := by
    intro c'
    by_cases hc : c' = c
    · subst hc
      simp only [Link.observe, hend, received, Link.entry, if_true, List.prefix_rfl,
        List.drop_length, links]
    · simp only [links, if_neg hc]
      unfold Link.observe
      split
      · next fd' hend' =>
        have hfd : fd ≠ fd' := by
          rintro rfl
          exact hc (h.linksApart.injective c' c fd hend' hend)
        simp only [received, Link.entry, if_neg hfd]
      · rfl
  refine ⟨_, ⟨.single (.server n _ received links (.received n.server fd (n.links c).up buffer
    hbuffer) rfl hobserve), ?_, ?_⟩, rfl, by simp [links, hend], ?_⟩
  · intro record sent hrecord _
    have hmem : .line record ∈ n.server.trace ++ [received] := hrecord
    exact .inl (by simpa [received] using hmem)
  · intro c' hend'
    by_cases hc : c' = c
    · subst hc
      simpa [links] using hend'
    · simpa [links, hc] using hend'
  · rw [Server.log_clientBuffers, Server.setBuffer_clientBuffers, Finmap.lookup_insert]

/-- The server handles the line of a client that it has received. -/
theorem exists_handled (hparse : AcceptsCoordinates D) {fd : Fd}
    (hend : (n.links c).serverEnd = .connected fd)
    (hbuffer : n.server.clientBuffers.lookup fd = some (makeStatusLine client)) :
    ∃ n', Serves options connectedMs n n' ∧ n'.gen = n.gen ∧ newline ∈ (n'.links c).down := by
  obtain ⟨t, record, hmove, htrace, hack, hwhole⟩ := exists_move_answer hparse hbuffer
  choose links hlinks using fun c' => (n.links c').exists_observe_line record
  refine ⟨_, ⟨.single (.server n t _ links hmove htrace fun c' => (hlinks c').1), ?_, ?_⟩, rfl, ?_⟩
  · intro record' sent hrecord hsent
    have hmem : .line record' ∈ t.trace := hrecord
    rw [htrace, List.mem_append, List.mem_singleton, Obs.line.injEq] at hmem
    rcases hmem with hbefore | rfl
    · exact .inl hbefore
    · exact .inr (hwhole sent hsent)
  · intro c' hend'
    exact (hlinks c').2.1.symm.trans hend'
  · show newline ∈ (links c).down
    rw [(hlinks c).2.2 fd hend]
    exact List.mem_append_right _ hack

/-- **The server answers**: over an open connection it receives what is missing of the last STATUS
and handles it. -/
theorem NetReachable.exists_answered (h : NetReachable options connectedMs n)
    (hparse : AcceptsCoordinates D) (hclient : n.gen.clients.lookup c = some client)
    (hwaiting : client.phase = .waitingAck) {fd : Fd} {obs : List Obs}
    (hend : (n.links c).serverEnd = .connected fd) (hsession : session fd n.server.trace = some obs)
    (hlt : (linesOf fd obs).length < (statusesOf c n.gen.trace).length) :
    ∃ n', Serves options connectedMs n n' ∧ n'.gen = n.gen ∧ newline ∈ (n'.links c).down := by
  have hexchange := h.netInv.exchange c client hclient
  obtain ⟨earlier, last, hstatuses, hcount, -⟩ := hexchange.waiting hwaiting
  -- the connection is the one at the other end
  obtain ⟨hcarries, hreplies⟩ : Carries n.server.trace (sentBy c n.gen.trace)
      (readBy c n.gen.trace) (n.links c) fd obs ∧
      ((sendsTo fd obs).take (acksOf c n.gen.trace).length).map Sent.bytes =
        acksOf c n.gen.trace := by
    obtain ⟨fd', obs', hcarries, hreplies⟩ := hexchange.replies
    cases hcarries with
    | backlog hend' => rw [hend] at hend'; exact absurd hend' (by simp)
    | closed pre _ hend' => rw [hend] at hend'; exact absurd hend' (by simp)
    | connected _ hend' hsession' hup hdown =>
      obtain rfl := ServerEnd.connected.inj (hend.symm.trans hend')
      obtain rfl := Option.some.inj (hsession.symm.trans hsession')
      exact ⟨.connected _ hend hsession hup hdown, hreplies⟩
  obtain ⟨hlines, hlength⟩ := hcarries.answered h.server hparse
  -- all lines but the last have been handled
  have hearlier : linesOf fd obs = earlier.map makeStatusLine := by
    have hacks := congrArg List.length hreplies
    rw [List.length_map, List.length_take] at hacks
    rw [hstatuses, List.length_append, List.length_singleton] at hlt
    rw [hstatuses, List.map_append] at hlines
    refine (List.prefix_of_prefix_length_le hlines (List.prefix_append _ _) ?_).eq_of_length ?_
    · rw [List.length_map]
      omega
    · rw [List.length_map]
      omega
  have hlinked := h.server.allLinked fd
  rw [hsession] at hlinked
  cases hlinked with
  | connected _ buffer hopen hbuffer htelemetry hviewer hframes hbytes =>
    have hrest : buffer ++ (n.links c).up = makeStatusLine last := by
      cases hcarries with
      | backlog hend' => rw [hend] at hend'; exact absurd hend' (by simp)
      | closed pre _ hend' => rw [hend] at hend'; exact absurd hend' (by simp)
      | connected _ hend' hsession' hup hdown =>
        rw [sentBy, hstatuses, List.flatMap_append, List.flatMap_def, hbytes, hearlier,
          List.append_assoc] at hup
        simpa using (List.append_cancel_left hup).symm
    obtain ⟨m, hserves, hgen, hend', hbuffer'⟩ := h.exists_received hend hbuffer
    rw [hrest] at hbuffer'
    obtain ⟨n', hserves', hgen', hdown⟩ :=
      @exists_handled D _ m options connectedMs c last hparse fd hend' hbuffer'
    exact ⟨n', hserves.trans hserves', hgen'.trans hgen, hdown⟩

/-- The server accepts a connection that waits for it. -/
theorem NetReachable.exists_accepted (h : NetReachable options connectedMs n)
    (hend : (n.links c).serverEnd = .backlog) :
    ∃ n' fd, Serves options connectedMs n n' ∧ n'.gen = n.gen ∧
      (n'.links c).serverEnd = .connected fd ∧ session fd n'.server.trace = some [] := by
  obtain ⟨fd, hfresh⟩ := Infinite.exists_notMem_finset n.server.openFds
  let links : Fd → Link := fun c' =>
    if c' = c then { n.links c with serverEnd := .connected fd } else n.links c'
  have hobserve : ∀ c', c' ≠ c → (n.links c').observe (.accepted fd) = some (links c') := by
    intro c' hc
    simp only [links, if_neg hc]
    unfold Link.observe
    split
    · next fd' hend' =>
      have hfd : fd ≠ fd' := by
        rintro rfl
        have hnone := (h.server.allLinked fd).session_eq_none hfresh
        have hopen := h.linksApart.isOpen c' fd hend'
        rw [hnone] at hopen
        exact absurd hopen (by simp)
      rw [Link.entry, if_neg hfd]
    · rfl
  refine ⟨_, fd, ⟨.single (.accept n c fd links hfresh hend (by simp [links]) hobserve), ?_, ?_⟩,
    rfl, by simp [links], ?_⟩
  · intro record sent hrecord _
    have hmem : .line record ∈ n.server.trace ++ [.accepted fd] := hrecord
    exact .inl (by simpa using hmem)
  · intro c' hend'
    by_cases hc : c' = c
    · subst hc
      simp [links] at hend'
    · simpa [links, hc] using hend'
  · show session fd (n.server.trace ++ [.accepted fd]) = some []
    rw [session_append_singleton, if_pos (by simp [Obs.opens])]

/-- **An answerable client becomes ready** in a run in which the server answers well and nothing
else happens. -/
theorem NetReachable.ready_of_answerable (h : NetReachable options connectedMs n)
    (hparse : AcceptsCoordinates D) (hclient : n.gen.clients.lookup c = some client)
    (hwaiting : client.phase = .waitingAck) (hanswerable : Answerable n c) :
    ∃ n' client', Serves options connectedMs n n' ∧ client'.phase = .ready ∧
      n'.gen.clients = n.gen.clients.replace c client' := by
  -- once the line is under way, one event is left
  have hread : ∀ {m : Net D}, Serves options connectedMs n m → m.gen = n.gen →
      newline ∈ (m.links c).down → ∃ n' client', Serves options connectedMs n n' ∧
        client'.phase = .ready ∧ n'.gen.clients = n.gen.clients.replace c client' := by
    intro m hserves hgen hdown
    obtain ⟨n', client', hserves', hready, hclients, -⟩ :=
      (h.trans hserves.path).ready_of_newline (hgen ▸ hclient) hwaiting hdown
    exact ⟨n', client', hserves.trans hserves', hready, by rw [hclients, hgen]⟩
  rcases hanswerable with hdown | hend | ⟨fd, obs, hend, hsession, hlt⟩
  · exact hread ⟨.refl, fun record sent hrecord _ => .inl hrecord, fun _ => id⟩ rfl hdown
  · obtain ⟨m, fd, hserves, hgen, hend', hsession⟩ := h.exists_accepted hend
    have hlt : (linesOf fd []).length < (statusesOf c m.gen.trace).length := by
      obtain ⟨earlier, last, hstatuses, -⟩ := (h.netInv.exchange c client hclient).waiting hwaiting
      rw [hgen, hstatuses]
      simp
    obtain ⟨m', hserves', hgen', hdown⟩ := (h.trans hserves.path).exists_answered hparse
      (hgen ▸ hclient) hwaiting hend' hsession hlt
    exact hread (hserves.trans hserves') (hgen'.trans hgen) hdown
  · obtain ⟨m, hserves, hgen, hdown⟩ :=
      h.exists_answered hparse hclient hwaiting hend hsession hlt
    exact hread hserves hgen hdown

/-! ## Clients that wait for ever -/

/-- A client that waits, and that is not answerable. -/
def Stuck (n : Net D) (c : Fd) : Prop :=
  ∀ client, n.gen.clients.lookup c = some client →
    client.phase = .waitingAck ∧ ¬ Answerable n c

/-- **An entry of the server answers no client that is stuck.** -/
theorem not_answerable_observe (h : NetReachable options connectedMs n)
    (hparse : AcceptsCoordinates D) (hclient : n.gen.clients.lookup c = some client)
    (hwaiting : client.phase = .waitingAck) (hstuck : ¬ Answerable n c) {t : Server D} {x : Obs}
    {links : Fd → Link} (ht : Reachable t) (htrace : t.trace = n.server.trace ++ [x])
    (hlink : (n.links c).observe x = some (links c)) :
    ¬ Answerable { n with server := t, links } c := by
  have hexchange := h.netInv.exchange c client hclient
  obtain ⟨earlier, last, hstatuses, hcount, -⟩ := hexchange.waiting hwaiting
  rw [Answerable, not_or, not_or] at hstuck
  obtain ⟨hdown, hbacklog, hhandled⟩ := hstuck
  have hends := Link.serverEnd_observe hlink
  -- nothing more is sent to the client
  have hquiet : (links c).down = (n.links c).down := by
    obtain ⟨fd, obs, hcarries, -⟩ := hexchange.replies
    obtain ⟨new, hnew⟩ := hcarries.observe hlink
    rw [← htrace] at hnew
    obtain ⟨-, -, hbytes⟩ := hcarries.history
    obtain ⟨-, -, hbytes'⟩ := hnew.history
    obtain ⟨-, hlength⟩ := hcarries.answered h.server hparse
    obtain ⟨hlines, hlength'⟩ := hnew.answered ht hparse
    cases hcarries with
    | backlog hend => exact absurd hend hbacklog
    | closed pre _ hend =>
      rw [Link.observe, hend, Option.some.injEq] at hlink
      rw [← hlink]
    | connected _ hend hsession =>
      have hall : (statusesOf c n.gen.trace).length ≤ (linesOf fd obs).length := by
        by_contra hlt
        exact hhandled ⟨fd, obs, hend, hsession, Nat.lt_of_not_le hlt⟩
      have hle := hlines.length_le
      rw [List.length_map, linesOf_append, List.length_append] at hle
      rw [sendsTo_append, linesOf_append, List.length_append, List.length_append] at hlength'
      have hnone : sendsTo fd new = [] := List.length_eq_zero_iff.mp (by omega)
      rw [bytesTo_append, hbytes, bytesTo, hnone, List.flatMap_nil, List.append_nil] at hbytes'
      exact (List.append_cancel_left hbytes').symm
  rintro (hdown' | hbacklog' | ⟨fd, obs, hend', hsession', hlt⟩)
  · exact hdown (hquiet ▸ hdown')
  · rcases hends with hclosed | ⟨hsame, -⟩
    · exact absurd (hclosed.symm.trans hbacklog') (by simp)
    · exact hbacklog (hsame ▸ hbacklog')
  · obtain ⟨hend, hopens, hcloses⟩ := Link.serverEnd_of_observe hlink hend'
    rw [htrace, session_append_singleton, hopens, hcloses, if_neg Bool.false_ne_true,
      if_neg Bool.false_ne_true, Option.map_eq_some_iff] at hsession'
    obtain ⟨before, hbefore, rfl⟩ := hsession'
    rw [linesOf_append, List.length_append] at hlt
    exact hhandled ⟨fd, before, hend, hbefore, Nat.lt_of_le_of_lt (Nat.le_add_right _ _) hlt⟩

/-- An ACK is taken when its whole line is under way. -/
theorem Exchange.newline_mem {s : Server D} (hserver : Reachable s)
    (h : Exchange s.trace actions link clockMs c client) {event : Loadgen.SocketEvent}
    {reading : AckReading} (hevent : Loadgen.clientEvent event client = .ok reading)
    (hdata : reading.data <+: link.down) (hack : reading.ack ≠ none) : newline ∈ link.down := by
  rw [Loadgen.clientEvent] at hevent
  split at hevent
  · exact absurd hevent (by simp)
  · split at hevent
    · next hreceives =>
      obtain ⟨text, htext, hstart, hpre, -⟩ := h.exists_text hserver hreceives.1
      have hread : client.receiveBuffer ++ reading.data <+: text :=
        ((List.prefix_append_right_inj _).mpr hdata).trans hpre
      rcases Loadgen.receiveAck_of_prefix htext hstart h.buffer hevent hread with
        ⟨hnone, -⟩ | ⟨-, hfull, -⟩
      · exact absurd hnone hack
      · rcases List.mem_append.mp (hfull ▸ htext.mem) with hold | hnew
        · exact absurd hold h.buffer
        · exact hdata.subset hnew
    · rw [← Except.ok.inj hevent] at hack
      exact absurd rfl hack

omit [CharconvDouble D] in
/-- A step of the load generator that sends no STATUS of the client brings it nothing. -/
theorem Stuck.of_gen (h : Stuck n c) {g : Loadgen} {links : Fd → Link} {clockMs : UInt64}
    {actions : List Action} (htrace : g.trace = n.gen.trace ++ actions)
    (hlinks : ∀ c, actions.foldlM (Link.act c) (n.links c) = some (links c))
    (hstatuses : statusesOf c actions = [])
    (hdown : newline ∈ (links c).down → newline ∈ (n.links c).down)
    (hclient : ∀ client', g.clients.lookup c = some client' →
      ∃ client, n.gen.clients.lookup c = some client ∧ client'.phase = client.phase) :
    Stuck { n with gen := g, links, clockMs } c := by
  intro client' hclient'
  obtain ⟨client, hbefore, hphase⟩ := hclient client' hclient'
  obtain ⟨hwaiting, hstuck⟩ := h client hbefore
  refine ⟨hphase.trans hwaiting, fun hanswerable => hstuck ?_⟩
  rcases hanswerable with hnewline | hbacklog | ⟨fd, obs, hend, hsession, hlt⟩
  · exact .inl (hdown hnewline)
  · exact .inr (.inl ((Link.serverEnd_of_act (hlinks c)).symm.trans hbacklog))
  · refine .inr (.inr ⟨fd, obs, (Link.serverEnd_of_act (hlinks c)).symm.trans hend, hsession, ?_⟩)
    have hlt' : (linesOf fd obs).length < (statusesOf c g.trace).length := hlt
    rwa [htrace, statusesOf_append, hstatuses, List.append_nil] at hlt'

omit [CharconvDouble D] in
/-- Nothing happens to the client. -/
theorem Stuck.of_idle (h : Stuck n c) {g : Loadgen} {links : Fd → Link} {clockMs : UInt64}
    {actions : List Action} (htrace : g.trace = n.gen.trace ++ actions)
    (hlinks : ∀ c, actions.foldlM (Link.act c) (n.links c) = some (links c))
    (hstatuses : statusesOf c actions = []) (hlink : links c = n.links c)
    (hclient : g.clients.lookup c = n.gen.clients.lookup c) :
    Stuck { n with gen := g, links, clockMs } c :=
  h.of_gen htrace hlinks hstatuses (fun hdown => hlink ▸ hdown) fun client' hclient' =>
    ⟨client', hclient ▸ hclient', rfl⟩

/-- A round of the sending loop. -/
theorem Stuck.sendRound (h : Stuck n c) (hn : NetReachable options connectedMs n)
    {env : Loadgen.SendEnv} {goesOn : Bool} {g : Loadgen} {links : Fd → Link} {clockMs : UInt64}
    {actions : List Action} (hround : Loadgen.sendRound env n.gen = .ok (goesOn, g))
    (htrace : g.trace = n.gen.trace ++ actions)
    (hlinks : ∀ c, actions.foldlM (Link.act c) (n.links c) = some (links c)) :
    Stuck { n with gen := g, links, clockMs } c := by
  -- a ready client is not the one that is stuck
  have hne : ∀ fd other, n.gen.clients.lookup fd = some other → other.phase = .ready → c ≠ fd := by
    rintro fd other hlookup hready rfl
    have hwaiting := (h other hlookup).1
    rw [hready] at hwaiting
    exact absurd hwaiting (by simp)
  rcases Loadgen.sendRound_cases hround with ⟨-, rfl⟩ |
    ⟨fd, other, hlookup, hready, ⟨-, rfl⟩ | ⟨-, rfl⟩⟩
  · obtain rfl : actions = [] := List.self_eq_append_right.mp htrace
    exact h.of_idle htrace hlinks rfl (Option.some.inj (hlinks c)).symm rfl
  · obtain rfl : actions = [.status (Loadgen.sentClient env.nowMs other)] :=
      (List.append_cancel_left htrace).symm
    have hc := hne fd other hlookup hready
    have hfd : (Loadgen.sentClient env.nowMs other).fd ≠ c := by
      rw [show (Loadgen.sentClient env.nowMs other).fd = fd from
        (hn.netInv.exchange fd other hlookup).fd]
      exact Ne.symm hc
    have hlink := hlinks c
    simp only [List.foldlM_cons, List.foldlM_nil, Link.act, hfd, if_false, Option.pure_def,
      Option.bind_eq_bind, Option.bind_some, Option.some.injEq] at hlink
    exact h.of_idle htrace hlinks (by simp [statusesOf, hfd]) hlink.symm (lookup_replace_of_ne hc _)
  · obtain rfl : actions = [] := by simpa using htrace
    exact h.of_idle htrace hlinks rfl (Option.some.inj (hlinks c)).symm
      (lookup_replace_of_ne (hne fd other hlookup hready) _)

/-- An event. -/
theorem Stuck.handleEvent (h : Stuck n c) (hn : NetReachable options connectedMs n)
    {event : Loadgen.SocketEvent} {links : Fd → Link} {clockMs : UInt64} {actions : List Action}
    (htrace : (Loadgen.handleEvent n.gen event).trace = n.gen.trace ++ actions)
    (hlinks : ∀ c, actions.foldlM (Link.act c) (n.links c) = some (links c)) :
    Stuck { n with gen := Loadgen.handleEvent n.gen event, links, clockMs } c := by
  cases hlookup : n.gen.clients.lookup event.fd with
  | none =>
    have hsame : Loadgen.handleEvent n.gen event = n.gen := by
      rw [Loadgen.handleEvent, hlookup]
    rw [hsame] at htrace ⊢
    obtain rfl : actions = [] := List.self_eq_append_right.mp htrace
    exact h.of_idle htrace hlinks rfl (Option.some.inj (hlinks c)).symm rfl
  | some other =>
    cases hevent : Loadgen.clientEvent event other with
    | error e =>
      rw [Loadgen.handleEvent_of_error hlookup hevent] at htrace ⊢
      obtain rfl : actions = [.closed other] := (List.append_cancel_left htrace).symm
      refine h.of_gen htrace hlinks (by simp [statusesOf])
        (fun hdown => Option.some.inj (hlinks c) ▸ hdown) fun client' hclient' => ?_
      by_cases hc : c = event.fd
      · rw [hc, AList.lookup_erase] at hclient'
        exact absurd hclient' (by simp)
      · exact ⟨client', (AList.lookup_erase_ne hc).symm.trans hclient', rfl⟩
    | ok reading =>
      cases hack : reading.ack with
      | none =>
        rw [Loadgen.handleEvent_of_none hlookup hevent hack] at htrace ⊢
        obtain rfl : actions = [.read event.fd reading.data] :=
          (List.append_cancel_left htrace).symm
        by_cases hc : c = event.fd
        · subst hc
          obtain ⟨-, hlink⟩ := read_of_act (by simp) (hlinks event.fd)
          refine h.of_gen htrace hlinks (by simp [statusesOf])
            (fun hdown => List.mem_of_mem_drop (hlink ▸ hdown)) fun client' hclient' => ?_
          rw [lookup_replace_self hlookup, Option.some.injEq] at hclient'
          refine ⟨other, hlookup, ?_⟩
          rcases Loadgen.clientEvent_cases hevent with ⟨-, buffer, hreading⟩ |
            ⟨-, line, buffer, hsome, -⟩
          · rw [← hclient', hreading]
          · rw [hack] at hsome
            exact absurd hsome (by simp)
        · exact h.of_idle htrace hlinks (by simp [statusesOf])
            (Option.some.inj ((foldlM_act_of_ne (Ne.symm hc) _ (by simp) _).symm.trans
              (hlinks c))).symm (lookup_replace_of_ne hc _)
      | some ack =>
        obtain ⟨line, latency⟩ := ack
        rw [Loadgen.handleEvent_of_some hlookup hevent hack] at htrace ⊢
        obtain rfl := (List.append_cancel_left htrace).symm
        by_cases hc : c = event.fd
        · subst hc
          -- the line would have been under way
          obtain ⟨hdata, -⟩ := read_of_act (by simp) (hlinks event.fd)
          have hexchange := hn.netInv.exchange event.fd other hlookup
          exact absurd (.inl (hexchange.newline_mem hn.server hevent hdata (by simp [hack])))
            (h other hlookup).2
        · exact h.of_idle htrace hlinks (by simp [statusesOf])
            (Option.some.inj ((foldlM_act_of_ne (Ne.symm hc) _ (by simp) _).symm.trans
              (hlinks c))).symm (lookup_replace_of_ne hc _)

/-- **A client that is stuck stays so.** -/
theorem Stuck.step (h : Stuck n c) (hn : NetReachable options connectedMs n)
    (hparse : AcceptsCoordinates D) (hstep : NetStep options connectedMs n n') : Stuck n' c := by
  have hn' := hn.step hstep
  cases hstep with
  | accept c' fd links hfresh hbacklog hlink hlinks =>
    intro client hclient
    obtain ⟨hwaiting, hstuck⟩ := h client hclient
    have hc : c ≠ c' := by
      rintro rfl
      exact hstuck (.inr (.inl hbacklog))
    exact ⟨hwaiting, not_answerable_observe hn hparse hclient hwaiting hstuck hn'.server rfl
      (hlinks c hc)⟩
  | server t x links hmove htrace hlinks =>
    intro client hclient
    obtain ⟨hwaiting, hstuck⟩ := h client hclient
    exact ⟨hwaiting, not_answerable_observe hn hparse hclient hwaiting hstuck hn'.server htrace
      (hlinks c)⟩
  | gen st g actions links henabled hok htrace hlinks hclock =>
    cases st with
    | tick guardMs currentMs =>
      obtain rfl := Except.ok.inj hok
      obtain rfl : actions = [] := List.self_eq_append_right.mp htrace
      exact h.of_idle htrace hlinks rfl (Option.some.inj (hlinks c)).symm rfl
    | send env =>
      obtain ⟨goesOn, hround⟩ := Loadgen.exists_sendRound_of_step hok
      exact h.sendRound hn hround htrace hlinks
    | event event =>
      obtain rfl := Except.ok.inj hok
      exact h.handleEvent hn htrace hlinks

/-- A client that is not answerable over an open connection has lost its ACK: on that connection
the `send` of the server did not take the whole line. -/
theorem NetReachable.exists_lost (h : NetReachable options connectedMs n)
    (hparse : AcceptsCoordinates D) (hclient : n.gen.clients.lookup c = some client)
    (hwaiting : client.phase = .waitingAck) (hstuck : ¬ Answerable n c)
    (hopen : (n.links c).serverEnd ≠ .closed) :
    ∃ fd obs record sent last, (n.links c).serverEnd = .connected fd ∧
      session fd n.server.trace = some obs ∧ .line record ∈ obs ∧ record.fd = fd ∧
      record.ack = some sent ∧ (statusesOf c n.gen.trace).getLast? = some last ∧
      record.line = makeStatusLine last ∧ ¬ sent.Whole := by
  have hexchange := h.netInv.exchange c client hclient
  obtain ⟨earlier, last', hstatuses, hcount, -⟩ := hexchange.waiting hwaiting
  obtain ⟨fd, obs, first, rest, last, hcarries, hsends, hfirst, hlast, hbytes, hrest⟩ :=
    hexchange.exists_rest h.server hwaiting
  rw [Answerable, not_or, not_or] at hstuck
  obtain ⟨hdown, hbacklog, hhandled⟩ := hstuck
  obtain ⟨-, hlength⟩ := hcarries.answered h.server hparse
  cases hcarries with
  | backlog hend => exact absurd hend hbacklog
  | closed pre _ hend => exact absurd hend hopen
  | connected _ hend hsession =>
    have hall : (statusesOf c n.gen.trace).length ≤ (linesOf fd obs).length := by
      by_contra hlt
      exact hhandled ⟨fd, obs, hend, hsession, Nat.lt_of_not_le hlt⟩
    rcases hrest with rfl | ⟨sent, rfl, record, status, hrecord, hfd, hline, hack, hparsed, htext⟩
    · -- every handled line has been answered
      have hacks := congrArg List.length hfirst
      rw [hsends, List.append_nil] at hlength
      rw [List.length_map] at hacks
      rw [hstatuses, List.length_append, List.length_singleton] at hall
      omega
    · refine ⟨fd, obs, record, sent, last, hend, hsession, hrecord, hfd, hack, hlast, hline, ?_⟩
      rintro ⟨room, hresult, hroom⟩
      have hwhole : sent.bytes = sent.text := by
        rw [Sent.bytes, hresult]
        exact List.take_of_length_le hroom
      have hmem : newline ∈ client.receiveBuffer ++ (n.links c).down := by
        rw [hbytes, List.flatMap_singleton, hwhole, htext]
        exact List.mem_append_right _ (List.mem_singleton_self _)
      rcases List.mem_append.mp hmem with hold | hnew
      · exact hexchange.buffer hold
      · exact hdown hnew

/-- **When a waiting client can go on.**  From a reachable state some run makes a waiting client
ready exactly when its ACK can still come; and when it cannot, the server has closed the
connection, or its `send` of the ACK for the last STATUS, on the connection of the client that
is still open, did not take the whole line. -/
theorem NetReachable.ready_iff_answerable (h : NetReachable options connectedMs n)
    (hparse : AcceptsCoordinates D) (hclient : n.gen.clients.lookup c = some client)
    (hwaiting : client.phase = .waitingAck) :
    ((∃ n', ReflTransGen (NetStep options connectedMs) n n' ∧
        ∃ client', n'.gen.clients.lookup c = some client' ∧ client'.phase = .ready) ↔
      Answerable n c) ∧
    (¬ Answerable n c → (n.links c).serverEnd = .closed ∨
      ∃ fd obs record sent last, (n.links c).serverEnd = .connected fd ∧
        session fd n.server.trace = some obs ∧ .line record ∈ obs ∧ record.fd = fd ∧
        record.ack = some sent ∧ (statusesOf c n.gen.trace).getLast? = some last ∧
        record.line = makeStatusLine last ∧ ¬ sent.Whole) := by
  refine ⟨⟨?_, fun hanswerable => ?_⟩, fun hstuck => ?_⟩
  · rintro ⟨n', hpath, client', hclient', hready⟩
    by_contra hlost
    have hstuck : Stuck n c := by
      intro other hother
      rw [hclient, Option.some.injEq] at hother
      exact ⟨hother ▸ hwaiting, hlost⟩
    have hstays : Stuck n' c := by
      clear hclient' hready
      induction hpath with
      | refl => exact hstuck
      | tail hbefore hstep ih => exact ih.step (h.trans hbefore) hparse hstep
    have hphase := (hstays client' hclient').1
    rw [hready] at hphase
    exact absurd hphase (by simp)
  · obtain ⟨n', client', hserves, hready, hclients⟩ :=
      h.ready_of_answerable hparse hclient hwaiting hanswerable
    exact ⟨n', hserves.path, client', hclients ▸ lookup_replace_self hclient _, hready⟩
  · by_cases hopen : (n.links c).serverEnd = .closed
    · exact .inl hopen
    · exact .inr (h.exists_lost hparse hclient hwaiting hstuck hopen)

theorem acceptsCoordinates_int : AcceptsCoordinates ℤ := by
  unfold AcceptsCoordinates
  decide +kernel

/-- The client of the short test, when the ACK is under way. -/
theorem ready_iff_answerable_answered :
    ∃ n n' : Net ℤ, NetReachable soleOptions 0 n ∧ n.gen.clients.lookup 3 = some soleWaiting ∧
      ReflTransGen (NetStep soleOptions 0) n n' ∧
      ∃ client', n'.gen.clients.lookup 3 = some client' ∧ client'.phase = .ready := by
  obtain ⟨n, hn, -, hclient, hlinks⟩ := exists_netReachable_answered
  have hdown : newline ∈ (n.links 3).down := by
    rw [hlinks]
    exact List.mem_append_right _ (List.mem_singleton_self _)
  obtain ⟨n', hpath, hready⟩ :=
    (hn.ready_iff_answerable acceptsCoordinates_int hclient rfl).1.mpr (.inl hdown)
  exact ⟨n, n', hn, hclient, hpath, hready⟩

/-! ## Coming to rest -/

/-- No fault so far: every `send` of an ACK took the whole line, and the server has closed the
connection of no client that the load generator has. -/
structure Faultless (n : Net D) : Prop where
  whole : ∀ record sent, .line record ∈ n.server.trace → record.ack = some sent → sent.Whole
  isOpen : ∀ c client, n.gen.clients.lookup c = some client → (n.links c).serverEnd ≠ .closed

/-- A run in which the server answers well, and that loses no client, makes no fault. -/
theorem Faultless.serves (h : Faultless n) (hserves : Serves options connectedMs n n')
    (hkeys : n'.gen.clients.keys = n.gen.clients.keys) : Faultless n' where
  whole record sent hrecord hack := by
    rcases hserves.whole record sent hrecord hack with hbefore | hwhole
    · exact h.whole record sent hbefore hack
    · exact hwhole
  isOpen c client hclient hend := by
    obtain ⟨old, hold⟩ : ∃ old, n.gen.clients.lookup c = some old := by
      rw [← Option.isSome_iff_exists, AList.lookup_isSome, AList.mem_keys, ← hkeys,
        ← AList.mem_keys, ← AList.lookup_isSome, hclient]
      rfl
    exact h.isOpen c old hold (hserves.ends c hend)

/-- The descriptors of the clients that wait. -/
def waitingFds (n : Net D) : List Fd :=
  n.gen.clients.keys.filter fun c =>
    (n.gen.clients.lookup c).any fun client => client.phase = .waitingAck

omit [CharconvDouble D] in
theorem mem_waitingFds : c ∈ waitingFds n ↔
    ∃ client, n.gen.clients.lookup c = some client ∧ client.phase = .waitingAck := by
  rw [waitingFds, List.mem_filter, Option.any_eq_true]
  constructor
  · rintro ⟨-, client, hclient, hphase⟩
    exact ⟨client, hclient, by simpa using hphase⟩
  · rintro ⟨client, hclient, hphase⟩
    refine ⟨?_, client, hclient, by simpa using hphase⟩
    rw [← AList.mem_keys, ← AList.lookup_isSome, hclient]
    rfl

omit [CharconvDouble D] in
/-- One client less waits. -/
theorem length_waitingFds_of_ready (hclients : n'.gen.clients = n.gen.clients.replace c client)
    (hphase : client.phase ≠ .waitingAck) (hc : c ∈ waitingFds n) :
    (waitingFds n').length = (waitingFds n).length - 1 := by
  obtain ⟨old, hold, -⟩ := mem_waitingFds.mp hc
  have hnodup : (waitingFds n).Nodup := (AList.keys_nodup n.gen.clients).filter _
  have herase : waitingFds n' = (waitingFds n).erase c := by
    rw [hnodup.erase_eq_filter, waitingFds, waitingFds, hclients, AList.keys_replace,
      List.filter_filter]
    refine List.filter_congr fun c' _ => ?_
    by_cases hne : c' = c
    · subst hne
      rw [lookup_replace_self hold]
      simp [hphase]
    · rw [lookup_replace_of_ne hne]
      simp [hne]
  rw [herase, List.length_erase_of_mem hc]

/-- **No deadlock.**  From every reachable state without a fault some run, without one, comes to
rest: it closes no client, and at its end no client waits and every STATUS of every client has
had its ACK. -/
theorem NetReachable.comes_to_rest (h : NetReachable options connectedMs n)
    (hparse : AcceptsCoordinates D) (hfaultless : Faultless n) :
    ∃ n', ReflTransGen (NetStep options connectedMs) n n' ∧ Faultless n' ∧
      n'.gen.clients.keys = n.gen.clients.keys ∧
      ∀ c client, n'.gen.clients.lookup c = some client → client.phase ≠ .waitingAck ∧
        (acksOf c n'.gen.trace).length = (statusesOf c n'.gen.trace).length := by
  -- one waiting client after another becomes ready
  induction hlength : (waitingFds n).length generalizing n with
  | zero =>
    refine ⟨n, .refl, hfaultless, rfl, fun c client hclient => ?_⟩
    have hphase : client.phase ≠ .waitingAck := by
      intro hwaiting
      have hmem : c ∈ waitingFds n := mem_waitingFds.mpr ⟨client, hclient, hwaiting⟩
      rw [List.length_eq_zero_iff.mp hlength] at hmem
      exact absurd hmem (by simp)
    exact ⟨hphase, ((h.netInv.exchange c client hclient).idle hphase).2.symm⟩
  | succ k ih =>
    obtain ⟨c, hc⟩ := List.exists_mem_of_length_pos
      (show 0 < (waitingFds n).length by omega)
    obtain ⟨client, hclient, hwaiting⟩ := mem_waitingFds.mp hc
    have hanswerable : Answerable n c := by
      by_contra hstuck
      obtain ⟨fd, obs, record, sent, last, -, hsession, hrecord, -, hack, -, -, hlost⟩ :=
        h.exists_lost hparse hclient hwaiting hstuck (hfaultless.isOpen c client hclient)
      exact hlost (hfaultless.whole record sent (mem_of_mem_session hsession hrecord) hack)
    obtain ⟨m, client', hserves, hready, hclients⟩ :=
      h.ready_of_answerable hparse hclient hwaiting hanswerable
    have hkeys : m.gen.clients.keys = n.gen.clients.keys := by
      rw [hclients, AList.keys_replace]
    have hless : (waitingFds m).length = k := by
      rw [length_waitingFds_of_ready hclients (by simp [hready]) hc, hlength]
      rfl
    obtain ⟨n', hpath, hrest, hsame, hall⟩ := ih (h.trans hserves.path)
      (hfaultless.serves hserves hkeys) hless
    exact ⟨n', hserves.path.trans hpath, hrest, hsame.trans hkeys, hall⟩

/-- The short test with one client, whose STATUS is out before the server accepts it. -/
theorem comes_to_rest_backlog :
    ∃ n n' : Net ℤ, NetReachable soleOptions 0 n ∧ n.gen.clients.lookup 3 = some soleWaiting ∧
      ReflTransGen (NetStep soleOptions 0) n n' ∧ n'.gen.clients.keys = [3] ∧
      ∀ client, n'.gen.clients.lookup 3 = some client → client.phase ≠ .waitingAck := by
  have h₀ : NetReachable soleOptions 0 (Net.start 0 ⟨false⟩ Loadgen.soleClients 0 0 : Net ℤ) :=
    ⟨0, ⟨false⟩, Loadgen.soleClients, 0, Loadgen.connected_sole, .refl⟩
  have h₁ := h₀.step (.gen _ (.tick 0 500) _ [] _ (by decide +kernel) rfl (List.append_nil _).symm
    (fun c => rfl) (by decide))
  have h₂ := h₁.step (.gen _ (.send ⟨500, .room 1000⟩) soleSent [.status soleWaiting]
    (soleLinks { up := makeStatusLine soleWaiting }) (by decide +kernel) step_soleSent rfl
    (fun c => by
      by_cases hc : c = 3
      · rw [hc]
        rfl
      · have hfd : soleWaiting.fd ≠ c := fun h => hc h.symm
        simp [Link.act, hfd, soleLinks, hc, Net.start]) (by decide))
  obtain ⟨n', hpath, -, hkeys, hall⟩ := h₂.comes_to_rest acceptsCoordinates_int
    ⟨fun record sent hrecord _ => absurd hrecord (by simp [Net.start]), fun c client _ => by
      by_cases hc : c = 3 <;> simp [soleLinks, hc]⟩
  exact ⟨_, n', h₂, rfl, hpath, hkeys.trans rfl, fun client hclient => (hall 3 client hclient).1⟩

end RemoteDeviceConsole
