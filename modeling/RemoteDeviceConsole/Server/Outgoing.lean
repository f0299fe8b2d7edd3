import RemoteDeviceConsole.Server.Connections

/-!
# What the server sends

`expectedSends fd viewer x` says which calls of `send` to the connection on `fd`
go with one entry of the trace: the ACK of an accepted line of its own, and, for
a viewer, every accepted line of another connection and every report.
`sendsTo_of_move` says that a move makes just these, and `Reachable.sendsTo_session`
reads off the calls of a whole session: they depend on the entries of the session
alone.

A session has the entries of all connections since its own `accept`, because a
viewer is sent the lines of others.  Whether it is a viewer changes once, with a
line of its own, and never back, so one flag is carried along the entries
(`sessionSends`).

Two things are read off the calls.  Each of them offers one line of three kinds
(`WireLine`), which is what a viewer can rely on; and to a connection that never
becomes a viewer they are ACKs, in the order of its lines and at most one for each
(`Reachable.exists_answered`), which is what the load generator relies on.
-/

namespace RemoteDeviceConsole

open Framing Machine Relation

variable (D : Type) [CharconvDouble D]

/-- The calls of `send` to `fd` that go with one entry, for a connection that is a
viewer or not. -/
def expectedSends (fd : Fd) (viewer : Bool) : Obs → List Sent
  | .line record =>
    match (lineKind record.line : LineKind D) with
    | .accepted status =>
        if record.fd = fd then (ackSends fd record.env status).toList
        else if viewer then [⟨fd, record.line, record.env.viewer fd⟩]
        else []
    | _ => []
  | .report record =>
      if viewer then [⟨fd, formatMetricsLine record.metrics, record.env.viewer fd⟩] else []
  | _ => []

/-- The entry is a line of `fd` that asks for the viewer role. -/
def Obs.asks (fd : Fd) (x : Obs) : Bool := (x.lineOf fd).any asksViewer

/-- The calls of `send` to `fd` that go with the entries of a session. -/
def sessionSends (fd : Fd) (viewer : Bool) : List Obs → List Sent
  | [] => []
  | x :: obs => expectedSends D fd viewer x ++ sessionSends fd (viewer || x.asks fd) obs

variable {D} {fd : Fd} {obs : List Obs} {x : Obs}

omit [CharconvDouble D] in
theorem isViewer_iff_any : IsViewer fd obs ↔ obs.any (Obs.asks fd) = true := by
  induction obs with
  | nil => simp
  | cons x obs ih =>
    rw [List.any_cons, Bool.or_eq_true, ← ih, ← List.singleton_append, isViewer_append]
    refine or_congr_left ?_
    simp [IsViewer, linesOf, Obs.asks]

theorem sessionSends_append (fd : Fd) (viewer : Bool) (a b : List Obs) :
    sessionSends D fd viewer (a ++ b) =
      sessionSends D fd viewer a ++ sessionSends D fd (viewer || a.any (Obs.asks fd)) b := by
  induction a generalizing viewer with
  | nil => simp [sessionSends]
  | cons x a ih => simp [sessionSends, ih, Bool.or_assoc]

/-! ## One entry -/

/-- For its own line a connection is sent the ACK or nothing. -/
theorem expectedSends_of_own {record : LineRecord} (hfd : record.fd = fd) (viewer : Bool) :
    expectedSends D fd viewer (.line record) =
      ((parseStatusLine record.line : Option (DeviceStatus D)).bind
        (ackSends fd record.env)).toList := by
  rw [expectedSends]
  split
  · next status hkind => rw [if_pos hfd, lineKind_eq_accepted.mp hkind, Option.bind_some]
  · next hkind =>
    rw [parseStatusLine_eq_none_of_lineKind hkind]
    rfl

/-- For the line of another connection one that is no viewer is sent nothing. -/
theorem expectedSends_of_other {record : LineRecord} (hfd : record.fd ≠ fd) :
    expectedSends D fd false (.line record) = [] := by
  rw [expectedSends]
  split
  · rw [if_neg hfd, if_neg Bool.false_ne_true]
  · rfl

/-! ## One move -/

theorem sendsTo_line (record : LineRecord) :
    sendsTo fd [.line record] =
      (record.ack.toList.filter fun sent => sent.fd = fd) ++
        record.broadcast.filter fun sent => sent.fd = fd := by
  simp [sendsTo, Obs.sends]

theorem sendsTo_report (record : ReportRecord) :
    sendsTo fd [.report record] = record.broadcast.filter fun sent => sent.fd = fd := by
  simp [sendsTo, Obs.sends]

omit [CharconvDouble D] in
theorem filter_ackSends (fd source : Fd) (env : LineEnv) (status : DeviceStatus D) :
    ((ackSends source env status).toList.filter fun sent => sent.fd = fd) =
      if source = fd then (ackSends fd env status).toList else [] := by
  unfold ackSends
  split
  · by_cases h : source = fd
    · subst h; simp
    · simp [h]
  · simp

theorem sendsTo_lineRecord (source : Fd) (env : LineEnv) (line : Bytes) (s : Server D) (fd : Fd) :
    sendsTo fd [.line (lineRecord source env line s)] =
      expectedSends D fd (fd ∈ s.viewerClientFds) (.line (lineRecord source env line s)) := by
  rw [sendsTo_line, expectedSends, lineRecord_line, lineRecord_fd, lineRecord_env]
  cases h : (lineKind line : LineKind D) with
  | hello viewer => simp [lineRecord, h]
  | rejected => simp [lineRecord, h]
  | accepted status =>
    simp only [lineRecord, h, filter_ackSends, filter_viewerSends]
    by_cases hfd : source = fd
    · simp [hfd]
    · have hne : ¬ (fd : ℤ) = source := fun heq => hfd (by exact_mod_cast heq.symm)
      by_cases hviewer : fd ∈ s.viewerClientFds <;> simp [hfd, hne, hviewer]

/-- **The calls of one move**, connection by connection. -/
theorem sendsTo_of_move {s t : Server D} (hmove : Move s t) (hx : t.trace = s.trace ++ [x])
    (fd : Fd) : sendsTo fd [x] = expectedSends D fd (fd ∈ s.viewerClientFds) x := by
  have hmoved := hmove.moved hx
  cases x with
  | line record =>
    obtain ⟨source, env, line, rest, -, -, hrec, -⟩ := hmoved
    rw [hrec]
    exact sendsTo_lineRecord ..
  | report record =>
    obtain ⟨-, -, hbroadcast, -⟩ := hmoved
    rw [sendsTo_report, hbroadcast, filter_viewerSends, expectedSends]
    have hne : (fd : ℤ) ≠ -1 := by omega
    by_cases hviewer : fd ∈ s.viewerClientFds <;> simp [hne, hviewer]
  | accepted fd' => rfl
  | received fd' data => rfl
  | disconnected fd' => rfl
  | unknown fd' => rfl

/-! ## Sessions -/

/-- **The calls of a session**: what was sent to a connection is what its own
entries ask for. -/
theorem Reachable.sendsTo_session {s : Server D} (h : Reachable s)
    (hsession : session fd s.trace = some obs) : sendsTo fd obs = sessionSends D fd false obs := by
  obtain ⟨nowMs, mqttBridge, hpath⟩ := h
  induction hpath generalizing obs with
  | refl => simp at hsession
  | @tail u v hu hmove ih =>
    obtain ⟨x, hx⟩ := hmove.exists_trace_eq
    rw [hx, session_append_singleton] at hsession
    split at hsession
    · rw [Option.some.injEq] at hsession
      rw [← hsession]
      rfl
    · split at hsession
      · exact absurd hsession (by simp)
      · rw [Option.map_eq_some_iff] at hsession
        obtain ⟨before, hbefore, rfl⟩ := hsession
        have hreach : Reachable u := ⟨nowMs, mqttBridge, hu⟩
        have hlinked := hreach.allLinked fd
        rw [hbefore] at hlinked
        cases hlinked with
        | connected _ buffer hopen hbuffer htelemetry hviewer hlines hbytes =>
          have hflag : decide (fd ∈ u.viewerClientFds) = before.any (Obs.asks fd) := by
            rw [Bool.eq_iff_iff, decide_eq_true_iff, hviewer, isViewer_iff_any]
          rw [sendsTo_append, ih hbefore, sendsTo_of_move hmove hx, sessionSends_append, hflag]
          simp [sessionSends]

/-! ## The texts that are sent -/

/-- An ACK for an id without a newline is a line. -/
theorem isFrame_ackText {deviceId : Bytes} (h : newline ∉ deviceId) (sequence serverMs : UInt64) :
    IsFrame newline (ackText deviceId sequence serverMs) := by
  refine ⟨_, ?_, rfl⟩
  have hdigits : ∀ n : UInt64, newline ∉ toStringU64 n := fun n hmem =>
    absurd (isDigit_of_mem_toStringU64 hmem) (by decide)
  simp only [List.mem_append, not_or]
  exact ⟨⟨⟨⟨⟨by decide, h⟩, by decide⟩, hdigits sequence⟩, by decide⟩, hdigits serverMs⟩

theorem startsWith_ackText (deviceId : Bytes) (sequence serverMs : UInt64) :
    startsWith (ackText deviceId sequence serverMs) (ascii "ACK ") = true := by
  have hword : ascii "ACK device_id=" = ascii "ACK " ++ ascii "device_id=" := by decide
  rw [startsWith_iff, ackText, hword]
  exact ⟨ascii "device_id=" ++ deviceId ++ ascii " seq=" ++ toStringU64 sequence ++
    ascii " server_ms=" ++ toStringU64 serverMs ++ [newline], by simp⟩

/-- What a call of `send` offers: an ACK, an accepted line that is broadcast, or the
snapshot of a report. -/
inductive WireLine (D : Type) [CharconvDouble D] (trace : List Obs) (sent : Sent) : Prop where
  | ack (deviceId : Bytes) (sequence serverMs : UInt64) (hid : newline ∉ deviceId)
      (htext : sent.text = ackText deviceId sequence serverMs) : WireLine D trace sent
  | status (record : LineRecord) (status : DeviceStatus D) (hrecord : .line record ∈ trace)
      (hsent : sent ∈ record.broadcast) (htext : sent.text = record.line)
      (hline : IsFrame newline record.line) (hparse : parseStatusLine record.line = some status) :
      WireLine D trace sent
  | metrics (record : ReportRecord) (hrecord : .report record ∈ trace)
      (htext : sent.text = formatMetricsLine record.metrics) : WireLine D trace sent

/-- **Every call of `send` offers one such line.** -/
theorem Reachable.wireLine {s : Server D} (h : Reachable s) (hx : x ∈ s.trace) {sent : Sent}
    (hsent : sent ∈ x.sends) : WireLine D s.trace sent := by
  obtain ⟨u, v, -, -, -, hmoved⟩ := h.exists_move_of_mem hx
  cases x with
  | line record =>
    obtain ⟨fd, env, line, rest, hline, -, hrec, -⟩ := hmoved
    rcases List.mem_append.mp hsent with hack | hbroadcast
    · rw [hrec, lineRecord_ack, Option.mem_toList] at hack
      obtain ⟨status, hparse, hack⟩ := Option.bind_eq_some_iff.mp hack
      obtain ⟨-, rfl⟩ := ackSends_eq_some.mp hack
      exact .ack status.deviceId status.sequence env.nowMs
        (newline_notMem_deviceId hline hparse) rfl
    · cases hkind : (lineKind line : LineKind D) with
      | hello viewer => simp [hrec, lineRecord, hkind] at hbroadcast
      | rejected => simp [hrec, lineRecord, hkind] at hbroadcast
      | accepted status =>
        have hparse := lineKind_eq_accepted.mp hkind
        have htext : sent.text = record.line := by
          rw [hrec, lineRecord, hkind] at hbroadcast
          rw [(fd_mem_of_mem_viewerSends hbroadcast).2.2, hrec, lineRecord_line]
        have hrecord : record.line = line := by rw [hrec, lineRecord_line]
        exact .status record status hx hbroadcast htext (hrecord ▸ hline) (hrecord ▸ hparse)
  | report record =>
    obtain ⟨-, -, hbroadcast, -⟩ := hmoved
    refine .metrics record hx ?_
    rw [Obs.sends, hbroadcast] at hsent
    rw [(fd_mem_of_mem_viewerSends hsent).2.2]
  | accepted fd => simp [Obs.sends] at hsent
  | received fd data => simp [Obs.sends] at hsent
  | disconnected fd => simp [Obs.sends] at hsent
  | unknown fd => simp [Obs.sends] at hsent

/-- A wire line is a line. -/
theorem WireLine.isFrame {trace : List Obs} {sent : Sent} (h : WireLine D trace sent) :
    IsFrame newline sent.text := by
  cases h with
  | ack deviceId sequence serverMs hid htext => exact htext ▸ isFrame_ackText hid _ _
  | status record status hrecord hsent htext hline hparse => exact htext ▸ hline
  | metrics record hrecord htext => exact htext ▸ isFrame_formatMetricsLine _

/-- The calls to a connection, at any moment of its session, offer wire lines. -/
theorem Reachable.wireLine_of_mem_sendsTo {s : Server D} (h : Reachable s) {pre : List Obs}
    (hpre : pre <+: s.trace) (hsession : session fd pre = some obs) {sent : Sent}
    (hsent : sent ∈ sendsTo fd obs) : WireLine D s.trace sent ∧ sent.fd = fd := by
  obtain ⟨hmem, hfd⟩ := List.mem_filter.mp hsent
  obtain ⟨x, hx, hsentx⟩ := List.mem_flatMap.mp hmem
  exact ⟨h.wireLine (hpre.subset (mem_of_mem_session hsession hx)) hsentx, by simpa using hfd⟩

/-! ## Answers -/

/-- The call of `send` is the ACK for a line of the connection on `fd`. -/
def Answers (D : Type) [CharconvDouble D] (fd : Fd) (obs : List Obs) (line : Bytes)
    (sent : Sent) : Prop :=
  ∃ (record : LineRecord) (status : DeviceStatus D), .line record ∈ obs ∧ record.fd = fd ∧
    record.line = line ∧ record.ack = some sent ∧ parseStatusLine line = some status ∧
    sent.text = ackText status.deviceId status.sequence record.env.nowMs

/-- The ACK of an entry is the one its line asks for. -/
theorem Reachable.ack_eq {s : Server D} (h : Reachable s) {record : LineRecord}
    (hx : .line record ∈ s.trace) :
    record.ack = (parseStatusLine record.line : Option (DeviceStatus D)).bind
      (ackSends record.fd record.env) := by
  obtain ⟨u, v, -, -, -, hmoved⟩ := h.exists_move_of_mem hx
  obtain ⟨fd, env, line, rest, -, -, rfl, -⟩ := hmoved
  rw [lineRecord_line, lineRecord_fd, lineRecord_env, lineRecord_ack]

/-- The calls to a connection that never becomes a viewer. -/
theorem exists_answered_of_quiet {obs : List Obs}
    (hack : ∀ record, .line record ∈ obs → record.ack =
      (parseStatusLine record.line : Option (DeviceStatus D)).bind
        (ackSends record.fd record.env))
    (hquiet : obs.any (Obs.asks fd) = false) :
    ∃ answered, answered.Sublist (linesOf fd obs) ∧
      List.Forall₂ (Answers D fd obs) answered (sessionSends D fd false obs) := by
  induction obs with
  | nil => exact ⟨[], List.Sublist.slnil, List.Forall₂.nil⟩
  | cons x obs ih =>
    rw [List.any_cons, Bool.or_eq_false_iff] at hquiet
    obtain ⟨answered, hsub, hanswers⟩ := ih (fun record hrecord => hack record (by simp [hrecord]))
      hquiet.2
    have hgrow : List.Forall₂ (Answers D fd (x :: obs)) answered (sessionSends D fd false obs) :=
      hanswers.imp fun line sent ⟨record, status, hrecord, hrest⟩ =>
        ⟨record, status, List.mem_cons_of_mem _ hrecord, hrest⟩
    rw [sessionSends, hquiet.1, ← List.singleton_append, linesOf_append]
    have hskip : expectedSends D fd false x = [] → ∃ answered, answered.Sublist
        (linesOf fd [x] ++ linesOf fd obs) ∧ List.Forall₂ (Answers D fd (x :: obs)) answered
          (expectedSends D fd false x ++ sessionSends D fd false obs) := by
      intro hnone
      rw [hnone]
      exact ⟨answered, hsub.trans (List.sublist_append_right _ _), hgrow⟩
    cases x with
    | line record =>
      by_cases hfd : record.fd = fd
      · cases hack' : record.ack with
        | none =>
          refine hskip ?_
          rw [expectedSends_of_own hfd, ← hfd, ← hack record List.mem_cons_self, hack']
          rfl
        | some sent =>
          have hsent : expectedSends D fd false (.line record) = [sent] := by
            rw [expectedSends_of_own hfd, ← hfd, ← hack record List.mem_cons_self, hack']
            rfl
          have hline : linesOf fd [.line record] = [record.line] := by simp [hfd]
          obtain ⟨status, hparse, hcall⟩ :=
            Option.bind_eq_some_iff.mp ((hack record List.mem_cons_self).symm.trans hack')
          obtain ⟨-, htext⟩ := ackSends_eq_some.mp hcall
          refine ⟨record.line :: answered, ?_, ?_⟩
          · rw [hline]
            exact hsub.cons_cons _
          · rw [hsent]
            refine List.Forall₂.cons ?_ hgrow
            exact ⟨record, status, List.mem_cons_self, hfd, rfl, hack', hparse, by rw [htext]⟩
      · exact hskip (expectedSends_of_other hfd)
    | report record => exact hskip rfl
    | accepted fd' => exact hskip rfl
    | received fd' data => exact hskip rfl
    | disconnected fd' => exact hskip rfl
    | unknown fd' => exact hskip rfl

/-- **Request and reply.**  What the server sends to a connection that never asks for the
viewer role is one ACK for each of some of its lines, in their order. -/
theorem Reachable.exists_answered {s : Server D} (h : Reachable s)
    (hsession : session fd s.trace = some obs)
    (hquiet : ∀ line ∈ linesOf fd obs, asksViewer line = false) :
    ∃ answered, answered.Sublist (linesOf fd obs) ∧
      List.Forall₂ (Answers D fd obs) answered (sendsTo fd obs) := by
  rw [h.sendsTo_session hsession]
  refine exists_answered_of_quiet (fun record hrecord =>
    h.ack_eq (mem_of_mem_session hsession hrecord)) ?_
  rw [Bool.eq_false_iff, Ne, ← isViewer_iff_any]
  rintro ⟨line, hline, hasks⟩
  rw [hquiet line hline] at hasks
  exact absurd hasks (by simp)

end RemoteDeviceConsole
