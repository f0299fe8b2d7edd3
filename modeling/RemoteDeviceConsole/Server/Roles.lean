import RemoteDeviceConsole.Server.Outgoing

/-!
# Roles

A connection becomes a viewer by a line of its own and by nothing else, whatever
descriptor it has (`ServerRun.role_separation`).  So a connection that never sent
such a line is offered ACKs for its own lines only, and no connection is sent back
what it sent.

The set of viewers is one of descriptors, and descriptors are used again.  The set
is right all the same because a descriptor leaves it when its connection is removed,
before `accept` can return it for another one; the sessions of the trace carry this
(`AllLinked`).  What is sent to a connection is known entry by entry
(`sessionSends`), so the claim about a whole session is an induction on its entries.
-/

namespace RemoteDeviceConsole

open Framing Machine Relation

variable {D : Type} [CharconvDouble D] {fd : Fd} {obs : List Obs}

/-- A text is an ACK for an accepted line of the session that asked for one. -/
def IsOwnAck (D : Type) [CharconvDouble D] (fd : Fd) (obs : List Obs) (sent : Sent) : Prop :=
  ∃ (record : LineRecord) (status : DeviceStatus D), .line record ∈ obs ∧ record.fd = fd ∧
    parseStatusLine record.line = some status ∧ status.ackRequested = true ∧
    sent = ⟨fd, ackText status.deviceId status.sequence record.env.nowMs, record.env.ack⟩

/-- An entry makes the server send to a connection that is no viewer only to
acknowledge a line of its own. -/
theorem isOwnAck_of_mem_expectedSends {x : Obs} {sent : Sent}
    (h : sent ∈ expectedSends D fd false x) : IsOwnAck D fd [x] sent := by
  cases x with
  | line record =>
    by_cases hfd : record.fd = fd
    · rw [expectedSends_of_own hfd, Option.mem_toList] at h
      obtain ⟨status, hparse, hack⟩ := Option.bind_eq_some_iff.mp h
      obtain ⟨hrequest, hsent⟩ := ackSends_eq_some.mp hack
      exact ⟨record, status, by simp, hfd, hparse, hrequest, hsent⟩
    · rw [expectedSends_of_other hfd] at h
      exact absurd h (by simp)
  | _ => simp [expectedSends] at h

theorem IsOwnAck.append {a b : List Obs} {sent : Sent} (h : IsOwnAck D fd a sent) :
    IsOwnAck D fd (a ++ b) sent ∧ IsOwnAck D fd (b ++ a) sent := by
  obtain ⟨record, status, hmem, hrest⟩ := h
  exact ⟨⟨record, status, List.mem_append_left _ hmem, hrest⟩,
    ⟨record, status, List.mem_append_right _ hmem, hrest⟩⟩

theorem isOwnAck_of_mem_sessionSends {sent : Sent} (hviewer : obs.any (Obs.asks fd) = false)
    (h : sent ∈ sessionSends D fd false obs) : IsOwnAck D fd obs sent := by
  induction obs with
  | nil => simp [sessionSends] at h
  | cons x obs ih =>
    rw [List.any_cons, Bool.or_eq_false_iff] at hviewer
    rw [sessionSends, List.mem_append, hviewer.1] at h
    rcases h with h | h
    · exact (isOwnAck_of_mem_expectedSends h).append.1
    · exact (IsOwnAck.append (b := [x]) (ih hviewer.2 h)).2

/-- A line is broadcast to others only. -/
theorem ne_of_mem_broadcast {s : Server D} (h : Reachable s) {record : LineRecord}
    (hrecord : .line record ∈ s.trace) {sent : Sent} (hsent : sent ∈ record.broadcast) :
    sent.fd ≠ record.fd := by
  obtain ⟨u, v, -, -, -, fd, env, line, rest, -, -, hrec, -⟩ := h.exists_move_of_mem hrecord
  rw [hrec, lineRecord] at hsent
  rw [hrec, lineRecord_fd]
  split at hsent
  · intro heq
    exact (fd_mem_of_mem_viewerSends hsent).2.1 (by exact_mod_cast heq)
  · simp at hsent

/-- **Role separation.**  In every reachable state the viewers are the descriptors
whose open connection has had a line handled that starts with `HELLO ` and contains
`role=viewer`.  A connection without such a line is offered nothing but the ACKs of
its own accepted lines that ask for one, at every moment of the run; and a line is
never broadcast to the connection it came from. -/
theorem ServerRun.role_separation {nowMs : UInt64} {mqttBridge : MqttBridge}
    {steps : List LoopStep} {s : Server D} (h : ServerRun nowMs mqttBridge steps s) :
    (∀ fd, fd ∈ s.viewerClientFds ↔ ∃ obs, session fd s.trace = some obs ∧
      ∃ line ∈ linesOf fd obs, startsWith line (ascii "HELLO ") = true ∧
        containsText line (ascii "role=viewer") = true) ∧
    (∀ fd pre obs, pre <+: s.trace → session fd pre = some obs → ¬ IsViewer fd obs →
      ∀ sent ∈ sendsTo fd obs, IsOwnAck D fd obs sent) ∧
    (∀ record, .line record ∈ s.trace → ∀ sent ∈ record.broadcast, sent.fd ≠ record.fd) := by
  refine ⟨fun fd => ?_, fun fd pre obs hpre hsession hviewer sent hsent => ?_,
    fun record hrecord sent hsent => ne_of_mem_broadcast h.reachable hrecord hsent⟩
  · have hlinked := h.reachable.allLinked fd
    cases hsession : session fd s.trace with
    | none =>
      rw [hsession] at hlinked
      cases hlinked with
      | closed _ _ _ hviewer => simp [hviewer]
    | some obs =>
      rw [hsession] at hlinked
      cases hlinked with
      | connected _ _ _ _ _ hviewer => simpa [IsViewer, asksViewer] using hviewer
  · obtain ⟨t, ht, rfl⟩ := h.reachable.exists_of_prefix hpre
    rw [ht.sendsTo_session hsession] at hsent
    rw [isViewer_iff_any, Bool.not_eq_true] at hviewer
    exact isOwnAck_of_mem_sessionSends hviewer hsent

/-- A viewer leaves and its descriptor is reused by a client that says nothing: no
line of the new connection asked for the role. -/
theorem role_separation_reused :
    ∃ (steps : List LoopStep) (s : Server ℤ), ServerRun 0 ⟨false⟩ steps s ∧ 5 ∈ s.openFds ∧
      ¬ ∃ obs, session 5 s.trace = some obs ∧
        ∃ line ∈ linesOf 5 obs, startsWith line (ascii "HELLO ") = true ∧
          containsText line (ascii "role=viewer") = true := by
  obtain ⟨s, hrun, hs⟩ := exists_serverRun
    (P := fun s : Server ℤ => 5 ∈ s.openFds ∧ 5 ∉ s.viewerClientFds) 0 ⟨false⟩
    [ .event (.listening [⟨5, none, none⟩] .EAGAIN),
      .event (.client 5 [ascii "HELLO role=viewer\n"] .closed fun _ => .roomy 1),
      .event (.listening [⟨5, none, none⟩] .EAGAIN)] (by decide +kernel)
  obtain ⟨hopen, hviewer⟩ := of_decide_eq_true hs
  exact ⟨_, s, hrun, hopen, fun hasked => hviewer ((hrun.role_separation.1 5).mpr hasked)⟩

end RemoteDeviceConsole
