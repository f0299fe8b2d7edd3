import RemoteDeviceConsole.Loadgen.Network
import RemoteDeviceConsole.Server.Outgoing

/-!
# A client and its end of the server

The load generator takes any line that starts with `ACK ` for the answer to its last
STATUS.  `Exchange` is why it is right: a client that is ready has read every ACK the
server has sent to it, to the last byte, and a client that waits has at most the
beginning of one more.  The server sends at most one ACK for a line and nothing else to
a client that is no viewer (`Reachable.exists_answered`), so whatever a waiting client
reads next belongs to the ACK of its last STATUS (`Exchange.exists_text`).

Every step of the two programs keeps the invariant of each client: `Exchange.observe`
and `Exchange.accept` for the server, `Exchange.sends`, `Exchange.defers` and
`Exchange.event` for the client, `Exchange.of_other` for the steps of other clients.
-/

namespace RemoteDeviceConsole

open Framing Machine Relation
open Loadgen (ClientState Action makeStatusLine deviceIdFor sentClient AckReading)

variable {D : Type} [CharconvDouble D]

/-! ## The invariant of one client -/

/-- What holds between a client and the server's end of its connection. -/
structure Exchange (trace : List Obs) (actions : List Action) (link : Link) (clockMs : UInt64)
    (c : Fd) (client : ClientState) : Prop where
  fd : client.fd = c
  /-- The first calls of `send` took the ACKs that the client has taken off, whole. -/
  replies : ∃ fd obs, Carries trace (sentBy c actions) (readBy c actions) link fd obs ∧
    ((sendsTo fd obs).take (acksOf c actions).length).map Sent.bytes = acksOf c actions
  read : readBy c actions = (acksOf c actions).flatten ++ client.receiveBuffer
  buffer : newline ∉ client.receiveBuffer
  index : ∀ status ∈ statusesOf c actions, status.index = client.index
  /-- A client that does not wait has had an ACK for every STATUS. -/
  idle : client.phase ≠ .waitingAck →
    client.receiveBuffer = [] ∧ (statusesOf c actions).length = (acksOf c actions).length
  /-- A client that waits has had one for all but the last STATUS, which is the current
  one. -/
  waiting : client.phase = .waitingAck → ∃ earlier last,
    statusesOf c actions = earlier ++ [last] ∧ earlier.length = (acksOf c actions).length ∧
      last.sequence = client.sequence ∧ last.sentMs = client.sentMs ∧ client.sentMs ≤ clockMs

variable {trace : List Obs} {actions more : List Action} {link link' : Link}
  {clockMs clockMs' nowMs : UInt64} {c : Fd} {client : ClientState} {x : Obs}

/-- The ACKs taken so far stay the first ones when the session grows. -/
theorem take_sendsTo_append {fd : Fd} {obs new : List Obs} {acks : List Bytes}
    (h : ((sendsTo fd obs).take acks.length).map Sent.bytes = acks) :
    ((sendsTo fd (obs ++ new)).take acks.length).map Sent.bytes = acks := by
  have hlength := congrArg List.length h
  rw [List.length_map, List.length_take] at hlength
  rw [sendsTo_append, List.take_append_of_le_length (by omega)]
  exact h

/-- A connected client that has sent nothing. -/
theorem exchange_start (hfresh : Loadgen.Fresh c client) (clockMs : UInt64) :
    Exchange [] [] {} clockMs c client where
  fd := hfresh.fd
  replies := ⟨0, [], .backlog rfl rfl rfl rfl, rfl⟩
  read := by simp [readBy, acksOf, hfresh.receiveBuffer]
  buffer := by simp [hfresh.receiveBuffer]
  index := by simp [statusesOf]
  idle _ := ⟨hfresh.receiveBuffer, rfl⟩
  waiting hwaiting := absurd hwaiting hfresh.phase

/-- The server writes an entry. -/
theorem Exchange.observe (h : Exchange trace actions link clockMs c client)
    (hlink : link.observe x = some link') :
    Exchange (trace ++ [x]) actions link' clockMs c client := by
  obtain ⟨fd, obs, hcarries, hreplies⟩ := h.replies
  obtain ⟨new, hnew⟩ := hcarries.observe hlink
  exact { h with replies := ⟨fd, obs ++ new, hnew, take_sendsTo_append hreplies⟩ }

/-- The server accepts the connection. -/
theorem Exchange.accept (h : Exchange trace actions link clockMs c client)
    (hend : link.serverEnd = .backlog) (fd' : Fd) :
    Exchange (trace ++ [.accepted fd']) actions { link with serverEnd := .connected fd' } clockMs c
      client := by
  obtain ⟨fd, obs, hcarries, hreplies⟩ := h.replies
  obtain ⟨rfl, hnew⟩ := @Carries.accept _ _ _ _ _ _ fd' hcarries hend
  exact { h with replies := ⟨fd', [], hnew, by simpa using hreplies⟩ }

/-- The load generator does something with another client. -/
theorem Exchange.of_other (h : Exchange trace actions link clockMs c client)
    (hstatuses : statusesOf c more = []) (hacks : acksOf c more = []) (hread : readBy c more = [])
    (hclock : clockMs ≤ clockMs') :
    Exchange trace (actions ++ more) link clockMs' c client := by
  have hsent : sentBy c (actions ++ more) = sentBy c actions := by
    rw [sentBy_append, sentBy, sentBy, hstatuses]
    simp
  constructor
  · exact h.fd
  · simpa [hsent, hacks, hread] using h.replies
  · simpa [hacks, hread] using h.read
  · exact h.buffer
  · simpa [hstatuses] using h.index
  · simpa [hstatuses, hacks] using h.idle
  · intro hwaiting
    obtain ⟨earlier, last, hlast, hcount, hsequence, hsentMs, hle⟩ := h.waiting hwaiting
    exact ⟨earlier, last, by simpa [hstatuses] using hlast, by simpa [hacks] using hcount,
      hsequence, hsentMs, UInt64.le_trans hle hclock⟩

/-- The client sends its next STATUS. -/
theorem Exchange.sends (h : Exchange trace actions link clockMs c client)
    (hready : client.phase = .ready) (nowMs : UInt64) :
    Exchange trace (actions ++ [.status (sentClient nowMs client)])
      { link with up := link.up ++ makeStatusLine (sentClient nowMs client) } nowMs c
      (sentClient nowMs client) := by
  have hfd : (sentClient nowMs client).fd = c := h.fd
  obtain ⟨hbuffer, hcount⟩ := h.idle (by simp [hready])
  have hstatus : statusesOf c [.status (sentClient nowMs client)] = [sentClient nowMs client] := by
    simp [statusesOf, hfd]
  have hacks : acksOf c (actions ++ [.status (sentClient nowMs client)]) = acksOf c actions := by
    simp [acksOf]
  have hread : readBy c (actions ++ [.status (sentClient nowMs client)]) = readBy c actions := by
    simp [readBy]
  have hsent : sentBy c (actions ++ [.status (sentClient nowMs client)]) =
      sentBy c actions ++ makeStatusLine (sentClient nowMs client) := by
    rw [sentBy_append]
    simp [sentBy, hstatus]
  constructor
  · exact hfd
  · obtain ⟨fd, obs, hcarries, hreplies⟩ := h.replies
    refine ⟨fd, obs, ?_, by rw [hacks]; exact hreplies⟩
    rw [hsent, hread]
    exact hcarries.sends _
  · rw [hread, hacks]
    exact h.read
  · exact h.buffer
  · intro status hmem
    rw [statusesOf_append, hstatus, List.mem_append, List.mem_singleton] at hmem
    rcases hmem with hmem | rfl
    · exact h.index status hmem
    · rfl
  · exact fun hphase => absurd rfl hphase
  · intro _
    refine ⟨statusesOf c actions, sentClient nowMs client, ?_, ?_, rfl, rfl, UInt64.le_refl _⟩
    · rw [statusesOf_append, hstatus]
    · rw [hacks]
      exact hcount

/-- A ready client notes the time of a `send` that would block. -/
theorem Exchange.defers (h : Exchange trace actions link clockMs c client)
    (hready : client.phase = .ready) (nowMs : UInt64) :
    Exchange trace actions link nowMs c { client with sentMs := nowMs } :=
  { h with
    idle := h.idle
    waiting := fun hwaiting => absurd (hready.symm.trans hwaiting) (by simp) }

/-- The client reads bytes that are no complete line with what it has. -/
theorem Exchange.reads (h : Exchange trace actions link clockMs c client) {data : Bytes}
    (hdata : data <+: link.down) (hopen : newline ∉ client.receiveBuffer ++ data)
    (hidle : client.phase ≠ .waitingAck → data = []) (hclock : clockMs ≤ clockMs') :
    Exchange trace (actions ++ [.read c data])
      { link with down := link.down.drop data.length } clockMs' c
      { client with receiveBuffer := client.receiveBuffer ++ data } := by
  have hstatus : statusesOf c (actions ++ [.read c data]) = statusesOf c actions := by
    simp [statusesOf]
  have hsent : sentBy c (actions ++ [.read c data]) = sentBy c actions := by
    rw [sentBy, hstatus, sentBy]
  have hacks : acksOf c (actions ++ [.read c data]) = acksOf c actions := by simp [acksOf]
  have hread : readBy c (actions ++ [.read c data]) = readBy c actions ++ data := by simp [readBy]
  constructor
  · exact h.fd
  · obtain ⟨fd, obs, hcarries, hreplies⟩ := h.replies
    refine ⟨fd, obs, ?_, by rw [hacks]; exact hreplies⟩
    rw [hsent, hread]
    exact hcarries.reads hdata
  · rw [hread, hacks, h.read, List.append_assoc]
  · exact hopen
  · rw [hstatus]
    exact h.index
  · intro hphase
    rw [hstatus, hacks, hidle hphase, List.append_nil]
    exact h.idle hphase
  · intro hwaiting
    obtain ⟨earlier, last, hlast, hcount, hsequence, hsentMs, hle⟩ := h.waiting hwaiting
    exact ⟨earlier, last, by rw [hstatus]; exact hlast, by rw [hacks]; exact hcount, hsequence,
      hsentMs, UInt64.le_trans hle hclock⟩

/-! ## What a waiting client can read -/

/-- A line of a client asks for no role. -/
theorem asksViewer_makeStatusLine (client : ClientState) :
    asksViewer (makeStatusLine client) = false := by
  rw [asksViewer, Bool.and_eq_false_iff]
  refine Or.inl ?_
  by_contra hyes
  rw [Bool.not_eq_false] at hyes
  obtain ⟨rest, hrest⟩ := startsWith_iff.mp hyes
  rw [Loadgen.makeStatusLine_eq_printFields, printFields, List.append_assoc] at hrest
  have hhead := congrArg List.head? hrest
  exact absurd hhead (by simp [kStatusPrefix, ascii, charByte])

/-- The parser keeps the id and the sequence of a client. -/
theorem parse_makeStatusLine {status : DeviceStatus D}
    (h : parseStatusLine (makeStatusLine client) = some status) :
    status.deviceId = deviceIdFor client.index ∧ status.sequence = client.sequence := by
  rw [Loadgen.parseStatusLine_makeStatusLine, Option.bind_eq_some_iff] at h
  obtain ⟨x, -, h⟩ := h
  rw [Option.bind_eq_some_iff] at h
  obtain ⟨y, -, h⟩ := h
  rw [Option.map_eq_some_iff] at h
  obtain ⟨z, -, rfl⟩ := h
  exact ⟨rfl, rfl⟩

/-- The lines the server has handled are the first STATUS lines of the client. -/
theorem linesOf_isPrefix {s : Server D} (hserver : Reachable s) {fd : Fd} {obs : List Obs}
    (hobs : obs = [] ∨ ∃ pre, pre <+: s.trace ∧ session fd pre = some obs)
    (hbytes : bytesOf fd obs <+: sentBy c actions) :
    linesOf fd obs <+: (statusesOf c actions).map makeStatusLine := by
  have hframes : ∀ line ∈ (statusesOf c actions).map makeStatusLine, IsFrame newline line := by
    intro line hline
    obtain ⟨status, -, rfl⟩ := List.mem_map.mp hline
    exact Loadgen.isFrame_makeStatusLine status
  rcases hobs with rfl | ⟨pre, hpre, hsession⟩
  · exact List.nil_prefix
  · obtain ⟨t, ht, rfl⟩ := hserver.exists_of_prefix hpre
    have hlinked := ht.allLinked fd
    rw [hsession] at hlinked
    cases hlinked with
    | connected _ buffer hopen hbuffer htelemetry hviewer hlines hsplit =>
      rw [hsplit, sentBy, List.flatMap_def] at hbytes
      have hpre := frames_of_isPrefix ((List.prefix_append _ _).trans hbytes) (d := newline)
      rwa [frames_flatten hlines, frames_flatten hframes] at hpre

/-- **The reply of a waiting client.**  What it has kept and what is under way to it are the
bytes of at most one call of `send`, and that call is the ACK of its last STATUS. -/
theorem Exchange.exists_rest {s : Server D} (hserver : Reachable s)
    (h : Exchange s.trace actions link clockMs c client) (hwaiting : client.phase = .waitingAck) :
    ∃ fd obs first rest last,
      Carries s.trace (sentBy c actions) (readBy c actions) link fd obs ∧
      sendsTo fd obs = first ++ rest ∧ first.map Sent.bytes = acksOf c actions ∧
      (statusesOf c actions).getLast? = some last ∧
      client.receiveBuffer ++ link.down = rest.flatMap Sent.bytes ∧
      (rest = [] ∨ ∃ sent, rest = [sent] ∧ Answers D fd obs (makeStatusLine last) sent) := by
  obtain ⟨fd, obs, hcarries, hreplies⟩ := h.replies
  obtain ⟨earlier, last, hstatuses, hcount, -⟩ := h.waiting hwaiting
  obtain ⟨hobs, hbytesOf, hbytesTo⟩ := hcarries.history
  have hlines := linesOf_isPrefix hserver hobs hbytesOf
  have hquiet : ∀ line ∈ linesOf fd obs, asksViewer line = false := by
    intro line hline
    obtain ⟨status, -, rfl⟩ := List.mem_map.mp (hlines.subset hline)
    exact asksViewer_makeStatusLine status
  obtain ⟨answered, hsub, hanswers⟩ : ∃ answered, answered.Sublist (linesOf fd obs) ∧
      List.Forall₂ (Answers D fd obs) answered (sendsTo fd obs) := by
    rcases hobs with rfl | ⟨pre, hpre, hsession⟩
    · exact ⟨[], List.Sublist.slnil, List.Forall₂.nil⟩
    · obtain ⟨t, ht, rfl⟩ := hserver.exists_of_prefix hpre
      exact ht.exists_answered hsession hquiet
  have hall : answered.Sublist ((statusesOf c actions).map makeStatusLine) :=
    hsub.trans hlines.sublist
  have hlength : (sendsTo fd obs).length ≤ (acksOf c actions).length + 1 := by
    have hle := hall.length_le
    rw [hanswers.length_eq, List.length_map, hstatuses, List.length_append,
      List.length_singleton] at hle
    omega
  have hsplit := List.take_append_drop (acksOf c actions).length (sendsTo fd obs)
  refine ⟨fd, obs, (sendsTo fd obs).take (acksOf c actions).length,
    (sendsTo fd obs).drop (acksOf c actions).length, last, hcarries, hsplit.symm, hreplies,
    by rw [hstatuses]; simp, ?_, ?_⟩
  · -- the bytes behind the ACKs that were taken off
    rw [h.read, List.append_assoc, bytesTo, ← hsplit, List.flatMap_append, List.flatMap_def,
      hreplies] at hbytesTo
    exact (List.append_cancel_left hbytesTo).symm
  · cases hrest : (sendsTo fd obs).drop (acksOf c actions).length with
    | nil => exact Or.inl rfl
    | cons sent rest =>
      have hdrop := congrArg List.length hrest
      rw [List.length_drop, List.length_cons] at hdrop
      have hnil : rest = [] := List.length_eq_zero_iff.mp (by omega)
      subst hnil
      -- every STATUS is answered, so the last answer is for the last STATUS
      have hfull : answered = (statusesOf c actions).map makeStatusLine := by
        refine hall.eq_of_length ?_
        rw [hanswers.length_eq, List.length_map, hstatuses, List.length_append,
          List.length_singleton]
        omega
      have hlast := List.forall₂_drop (acksOf c actions).length hanswers
      rw [hrest, hfull, hstatuses, List.map_append, ← hcount,
        List.drop_append_of_le_length (by simp), List.drop_of_length_le (by simp)] at hlast
      obtain ⟨hone, -⟩ := List.forall₂_cons.mp hlast
      exact Or.inr ⟨sent, rfl, hone⟩

/-- The line is the ACK that the server sent for the last STATUS of the client: it names the
client and its current sequence. -/
def IsReply (trace : List Obs) (statuses : List ClientState) (client : ClientState)
    (line : Bytes) : Prop :=
  ∃ record sent status serverMs, .line record ∈ trace ∧ record.ack = some sent ∧
    sent.text = line ∧ statuses.getLast? = some status ∧ record.line = makeStatusLine status ∧
    line = ackText (deviceIdFor client.index) client.sequence serverMs

/-- **What a waiting client can read** is the beginning of one ACK line, and when it is the
whole line, then that is the reply. -/
theorem Exchange.exists_text {s : Server D} (hserver : Reachable s)
    (h : Exchange s.trace actions link clockMs c client) (hwaiting : client.phase = .waitingAck) :
    ∃ text, IsFrame newline text ∧ startsWith text (ascii "ACK ") = true ∧
      client.receiveBuffer ++ link.down <+: text ∧
      ∀ data, data <+: link.down → client.receiveBuffer ++ data = text →
        IsReply s.trace (statusesOf c actions) client text ∧
        ∃ fd obs, Carries s.trace (sentBy c actions) (readBy c actions) link fd obs ∧
          ((sendsTo fd obs).take ((acksOf c actions).length + 1)).map Sent.bytes =
            acksOf c actions ++ [text] := by
  obtain ⟨fd, obs, first, rest, last, hcarries, hsends, hfirst, hlast, hbytes, hrest⟩ :=
    h.exists_rest hserver hwaiting
  rcases hrest with rfl | ⟨sent, rfl, record, status, hrecord, hfd, hline, hack, hparse, htext⟩
  · -- nothing is under way
    obtain ⟨hbuffer, hdown⟩ := List.append_eq_nil_iff.mp hbytes
    refine ⟨ackText [] 0 0, isFrame_ackText (by simp) 0 0, startsWith_ackText [] 0 0, ?_, ?_⟩
    · rw [hbuffer, hdown]
      exact List.nil_prefix
    · intro data hdata hfull
      rw [hdown] at hdata
      rw [hbuffer, List.prefix_nil.mp hdata] at hfull
      exact absurd hfull.symm (isFrame_ackText (by simp) 0 0).ne_nil
  · have hbytes' : client.receiveBuffer ++ link.down = sent.bytes := by simpa using hbytes
    have hframe : IsFrame newline sent.text := by
      rw [htext]
      exact isFrame_ackText
        (newline_notMem_deviceId (Loadgen.isFrame_makeStatusLine last) hparse) _ _
    refine ⟨sent.text, hframe, by rw [htext]; exact startsWith_ackText _ _ _, ?_, ?_⟩
    · rw [hbytes']
      exact sent.bytes_isPrefix
    · intro data hdata hfull
      have hwhole : sent.bytes = sent.text := by
        refine sent.bytes_isPrefix.eq_of_length_le ?_
        rw [← hbytes', ← hfull, List.length_append, List.length_append]
        have hle := hdata.length_le
        omega
      constructor
      · obtain ⟨earlier, last', hstatuses, -, hsequence, -⟩ := h.waiting hwaiting
        have heq : last' = last := by simpa [hstatuses] using hlast
        have hindex : last.index = client.index :=
          h.index last (List.mem_of_getLast? hlast)
        obtain ⟨hid, hseq⟩ := parse_makeStatusLine hparse
        refine ⟨record, sent, last, record.env.nowMs, ?_, hack, rfl, hlast, hline, ?_⟩
        · rcases hcarries.history.1 with rfl | ⟨pre, hpre, hsession⟩
          · exact absurd hrecord (by simp)
          · exact hpre.subset (mem_of_mem_session hsession hrecord)
        · rw [htext, hid, hseq, hindex, ← hsequence, heq]
      · refine ⟨fd, obs, hcarries, ?_⟩
        have hcount := congrArg List.length hfirst
        rw [List.length_map] at hcount
        rw [hsends, List.take_of_length_le (by simp [hcount]), List.map_append, hfirst,
          List.map_singleton, hwhole]

/-- The client takes off the ACK that it has read. -/
theorem Exchange.takes (h : Exchange trace actions link clockMs c client)
    (hwaiting : client.phase = .waitingAck)
    {data text : Bytes} (hdata : data <+: link.down) (hfull : client.receiveBuffer ++ data = text)
    {record : Loadgen.AckRecord} (hbefore : record.before = client) (hline : record.line = text)
    (hreplies : ∃ fd obs, Carries trace (sentBy c actions) (readBy c actions) link fd obs ∧
      ((sendsTo fd obs).take ((acksOf c actions).length + 1)).map Sent.bytes =
        acksOf c actions ++ [text]) :
    Exchange trace (actions ++ [.read c data, .acked record])
      { link with down := link.down.drop data.length } clockMs' c
      { client with receiveBuffer := [], phase := .ready } := by
  obtain ⟨earlier, last, hstatuses, hcount, -⟩ := h.waiting hwaiting
  have hstatus :
      statusesOf c (actions ++ [.read c data, .acked record]) = statusesOf c actions := by
    simp [statusesOf]
  have hsent : sentBy c (actions ++ [.read c data, .acked record]) = sentBy c actions := by
    rw [sentBy, hstatus, sentBy]
  have hacks :
      acksOf c (actions ++ [.read c data, .acked record]) = acksOf c actions ++ [text] := by
    simp [acksOf, hbefore, hline, h.fd]
  have hread : readBy c (actions ++ [.read c data, .acked record]) = readBy c actions ++ data := by
    simp [readBy]
  constructor
  · exact h.fd
  · obtain ⟨fd, obs, hcarries, htake⟩ := hreplies
    refine ⟨fd, obs, ?_, ?_⟩
    · rw [hsent, hread]
      exact hcarries.reads hdata
    · rw [hacks, List.length_append, List.length_singleton]
      exact htake
  · rw [hread, hacks, h.read, List.append_assoc, hfull]
    simp
  · simp
  · rw [hstatus]
    exact h.index
  · intro _
    refine ⟨rfl, ?_⟩
    rw [hstatus, hacks, hstatuses, List.length_append, List.length_append, hcount]
    rfl
  · exact fun hphase => absurd hphase (by simp)

/-- **An event for a client**: it reads a part of the ACK it waits for, or the last part of
it, and takes the ACK. -/
theorem Exchange.event {s : Server D} (hserver : Reachable s)
    (h : Exchange s.trace actions link clockMs c client) {event : Loadgen.SocketEvent}
    {reading : AckReading} (hevent : Loadgen.clientEvent event client = .ok reading)
    (hdata : reading.data <+: link.down) (hclock : clockMs ≤ clockMs') :
    (reading.ack = none ∧ reading.client.phase = client.phase ∧
        Exchange s.trace (actions ++ [.read c reading.data])
          { link with down := link.down.drop reading.data.length } clockMs' c reading.client) ∨
      ∃ text, reading.ack = some (text, event.nowMs - client.sentMs) ∧
        client.phase = .waitingAck ∧
        reading.client = { client with receiveBuffer := [], phase := .ready } ∧
        IsReply s.trace (statusesOf c actions) client text ∧
        ∀ record : Loadgen.AckRecord, record.before = client → record.line = text →
          Exchange s.trace (actions ++ [.read c reading.data, .acked record])
            { link with down := link.down.drop reading.data.length } clockMs' c reading.client := by
  rw [Loadgen.clientEvent] at hevent
  split at hevent
  · exact absurd hevent (by simp)
  · split at hevent
    · next hreceives =>
      obtain ⟨text, htext, hack, hpre, hreply⟩ := h.exists_text hserver hreceives.1
      have hread : client.receiveBuffer ++ reading.data <+: text :=
        ((List.prefix_append_right_inj _).mpr hdata).trans hpre
      rcases Loadgen.receiveAck_of_prefix htext hack h.buffer hevent hread with
        ⟨hnone, hopen, hclient⟩ | ⟨hsome, hfull, hclient⟩
      · rw [hclient]
        exact Or.inl ⟨hnone, rfl,
          h.reads hdata hopen (fun hphase => absurd hreceives.1 hphase) hclock⟩
      · obtain ⟨hisreply, hreplies⟩ := hreply reading.data hdata hfull
        rw [hclient]
        exact Or.inr ⟨text, hsome, hreceives.1, rfl, hisreply, fun record hbefore hline =>
          h.takes hreceives.1 hdata hfull hbefore hline hreplies⟩
    · -- `recv` is not called
      rw [← Except.ok.inj hevent] at hdata ⊢
      have hsame : { client with receiveBuffer := client.receiveBuffer ++ [] } = client := by
        rw [List.append_nil]
      have hreads := h.reads hdata (by simpa using h.buffer) (fun _ => rfl) hclock
      rw [hsame] at hreads
      exact Or.inl ⟨rfl, rfl, hreads⟩

end RemoteDeviceConsole
