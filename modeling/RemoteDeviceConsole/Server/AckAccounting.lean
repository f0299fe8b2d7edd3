import RemoteDeviceConsole.Server.Outgoing

/-!
# What `ack_sent` counts

`send_ack` reports success whenever `send` returns a count, so an ACK of which
only a prefix went out is counted like a whole one.  `Reachable.ackSent_eq` says
what the counter is, and `ackAccounting_iff` that it is the number of complete ACK
lines, and the ACK bytes of a connection a sequence of them, in exactly the runs
without such a short send.

A call of `send` took the whole text, took a part of it, or failed, and the
counter counts the first two kinds.  So it is the number of whole ACKs plus the
number of short ones (`countP_nonNegative`), and the one direction is arithmetic.
For the other one, calls that failed put nothing on the wire, so without short ones
the bytes are those of whole lines (`exists_lines_of_not_short`).
-/

namespace RemoteDeviceConsole

open Framing Machine Relation

/-- The call of `send` that acknowledges the line of an entry. -/
def Obs.ackCalls : Obs → List Sent
  | .line record => record.ack.toList
  | _ => []

/-- The calls of `send_ack`. -/
def ackCalls (obs : List Obs) : List Sent := obs.flatMap Obs.ackCalls

/-- A complete ACK line. -/
def IsAckLine (text : Bytes) : Prop :=
  IsFrame newline text ∧ ∃ deviceId sequence serverMs, text = ackText deviceId sequence serverMs

/-- The ACK bytes handed to the connection on `fd`. -/
def ackBytesTo (fd : Fd) (obs : List Obs) : Bytes :=
  ((ackCalls obs).filter fun sent => sent.fd = fd).flatMap Sent.bytes

@[simp] theorem ackCalls_append (a b : List Obs) : ackCalls (a ++ b) = ackCalls a ++ ackCalls b :=
  List.flatMap_append

/-! ## The calls of a run -/

variable {D : Type} [CharconvDouble D]

theorem ackCalls_lineRecord {fd : Fd} {env : LineEnv} {line : Bytes} (hline : IsFrame newline line)
    (s : Server D) {sent : Sent} (h : sent ∈ ackCalls [.line (lineRecord fd env line s)]) :
    IsAckLine sent.text := by
  have hcall : (lineRecord fd env line s).ack = some sent := by
    simpa [ackCalls, Obs.ackCalls] using h
  rw [lineRecord_ack] at hcall
  obtain ⟨status, hparse, hack⟩ := Option.bind_eq_some_iff.mp hcall
  obtain ⟨-, rfl⟩ := ackSends_eq_some.mp hack
  exact ⟨isFrame_ackText (newline_notMem_deviceId hline hparse) _ _, _, _, _, rfl⟩

/-- What one move adds: complete ACK lines to the calls, and to the counter the calls
that returned a count. -/
theorem ackCalls_of_move {s t : Server D} (hmove : Move s t) {x : Obs}
    (hx : t.trace = s.trace ++ [x]) :
    (∀ sent ∈ ackCalls [x], IsAckLine sent.text) ∧
      t.counters.ackSent =
        s.counters.ackSent + (ackCalls [x]).countP fun sent => sent.result.nonNegative := by
  have hmoved := hmove.moved hx
  cases x with
  | line record =>
    obtain ⟨fd, env, line, rest, hline, -, hrec, rfl⟩ := hmoved
    refine ⟨fun sent hsent => ackCalls_lineRecord hline s (hrec ▸ hsent), ?_⟩
    rw [hrec]
    cases hkind : (lineKind line : LineKind D) with
    | hello viewer =>
      rw [handleLine_hello hkind]
      simp [ackCalls, Obs.ackCalls, lineRecord, hkind]
    | rejected =>
      rw [handleLine_rejected hkind]
      simp [ackCalls, Obs.ackCalls, lineRecord, hkind]
    | accepted status =>
      rw [handleLine_accepted hkind]
      simp [ackCalls, Obs.ackCalls, lineRecord, hkind]
  | report record =>
    obtain ⟨hdue, -, -, rfl⟩ := hmoved
    rw [printMetricsIfDue_of_due hdue]
    exact ⟨by simp [ackCalls, Obs.ackCalls], rfl⟩
  | accepted fd =>
    obtain ⟨-, rfl⟩ := hmoved
    exact ⟨by simp [ackCalls, Obs.ackCalls], rfl⟩
  | received fd data =>
    obtain ⟨buffer, -, rfl⟩ := hmoved
    exact ⟨by simp [ackCalls, Obs.ackCalls], rfl⟩
  | disconnected fd =>
    obtain ⟨buffer, -, -, rfl⟩ := hmoved
    exact ⟨by simp [ackCalls, Obs.ackCalls], rfl⟩
  | unknown fd =>
    obtain ⟨-, rfl⟩ := hmoved
    exact ⟨by simp [ackCalls, Obs.ackCalls], rfl⟩

/-- **What the counter counts**: the calls of `send_ack` that returned a count.  Each
offered a complete ACK line. -/
theorem Reachable.ackSent_eq {s : Server D} (h : Reachable s) :
    (∀ sent ∈ ackCalls s.trace, IsAckLine sent.text) ∧
      s.counters.ackSent = (ackCalls s.trace).countP fun sent => sent.result.nonNegative := by
  obtain ⟨nowMs, mqttBridge, hpath⟩ := h
  induction hpath with
  | refl => exact ⟨by simp [ackCalls], rfl⟩
  | tail _ hmove ih =>
    obtain ⟨x, hx⟩ := hmove.exists_trace_eq
    obtain ⟨hlines, hcount⟩ := ackCalls_of_move hmove hx
    rw [hx, ackCalls_append, List.countP_append, ← ih.2]
    refine ⟨fun sent hsent => ?_, hcount⟩
    rcases List.mem_append.mp hsent with hsent | hsent
    · exact ih.1 sent hsent
    · exact hlines sent hsent

/-! ## Short sends -/

/-- A call that returned a count took the whole text or was short. -/
theorem countP_nonNegative (calls : List Sent) :
    (calls.countP fun sent => sent.result.nonNegative) =
      (calls.countP fun sent => sent.Whole) + calls.countP fun sent => sent.Short := by
  induction calls with
  | nil => rfl
  | cons sent calls ih =>
    simp only [List.countP_cons, ih, decide_eq_true_eq, Sent.nonNegative_iff]
    by_cases hshort : sent.Short
    · simp [hshort, Sent.not_whole_of_short hshort]
      omega
    · by_cases hwhole : sent.Whole <;> simp [hshort, hwhole]
      omega

/-- Without short sends the bytes that went out are whole texts. -/
theorem exists_lines_of_not_short {calls : List Sent} (h : ∀ sent ∈ calls, ¬ sent.Short) :
    ∃ lines : List Bytes, (∀ line ∈ lines, ∃ sent ∈ calls, sent.text = line) ∧
      calls.flatMap Sent.bytes = lines.flatten := by
  induction calls with
  | nil => exact ⟨[], by simp, rfl⟩
  | cons sent calls ih =>
    obtain ⟨lines, hlines, hbytes⟩ := ih fun other hother => h other (by simp [hother])
    have hcons : ∀ line ∈ lines, ∃ other ∈ sent :: calls, other.text = line := fun line hline => by
      obtain ⟨other, hother, htext⟩ := hlines line hline
      exact ⟨other, by simp [hother], htext⟩
    by_cases hwhole : sent.Whole
    · refine ⟨sent.text :: lines, ?_, ?_⟩
      · intro line hline
        rcases List.mem_cons.mp hline with rfl | hline
        · exact ⟨sent, by simp, rfl⟩
        · exact hcons line hline
      · rw [List.flatMap_cons, hbytes, Sent.bytes_of_whole hwhole, List.flatten_cons]
    · -- neither whole nor short: the call failed
      have hneg : sent.result.nonNegative = false := by
        by_contra hnn
        rcases sent.nonNegative_iff.mp (by simpa using hnn) with hw | hs
        · exact hwhole hw
        · exact h sent (by simp) hs
      have hnone : sent.bytes = [] := by
        unfold Sent.bytes
        cases hresult : sent.result with
        | room n => rw [hresult] at hneg; exact absurd hneg (by simp [SendResult.nonNegative])
        | failed errno => rfl
      exact ⟨lines, hcons, by rw [List.flatMap_cons, hbytes, hnone, List.nil_append]⟩

/-! ## The accounting -/

/-- `ack_sent` is the number of complete ACK lines handed to client sockets, and the ACK
bytes of every connection that is not a viewer are complete ACK lines. -/
structure AckAccounting (s : Server D) : Prop where
  counter : s.counters.ackSent = (ackCalls s.trace).countP fun sent => sent.Whole
  streams : ∀ fd pre obs, pre <+: s.trace → session fd pre = some obs → ¬ IsViewer fd obs →
    ∃ lines : List Bytes, (∀ line ∈ lines, IsAckLine line) ∧ ackBytesTo fd obs = lines.flatten

/-- **When the accounting is right.**  In a reachable state `ack_sent` counts complete
ACK lines, and the ACK bytes of the connections are such lines, if and only if no
`send` of an ACK so far took a proper prefix of its line. -/
theorem ackAccounting_iff {nowMs : UInt64} {mqttBridge : MqttBridge} {steps : List LoopStep}
    {s : Server D} (h : ServerRun nowMs mqttBridge steps s) :
    AckAccounting s ↔ ∀ sent ∈ ackCalls s.trace, ¬ sent.Short := by
  obtain ⟨hlines, hcount⟩ := h.reachable.ackSent_eq
  rw [countP_nonNegative] at hcount
  constructor
  · rintro ⟨hcounter, -⟩ sent hsent hshort
    have hpos : 0 < (ackCalls s.trace).countP fun sent => sent.Short :=
      List.countP_pos_iff.mpr ⟨sent, hsent, by simpa using hshort⟩
    omega
  · intro hno
    refine ⟨?_, fun fd pre obs hpre hsession _ => ?_⟩
    · have hzero : ((ackCalls s.trace).countP fun sent => sent.Short) = 0 :=
        List.countP_eq_zero.mpr fun sent hsent => by simpa using hno sent hsent
      rw [hcount, hzero, Nat.add_zero]
    · have hmem : ∀ sent ∈ (ackCalls obs).filter fun sent => sent.fd = fd,
          sent ∈ ackCalls s.trace := by
        intro sent hsent
        obtain ⟨x, hx, hsentx⟩ := List.mem_flatMap.mp (List.mem_filter.mp hsent).1
        exact List.mem_flatMap.mpr ⟨x, hpre.subset (mem_of_mem_session hsession hx), hsentx⟩
      obtain ⟨lines, htexts, hbytes⟩ := exists_lines_of_not_short
        fun sent hsent => hno sent (hmem sent hsent)
      refine ⟨lines, fun line hline => ?_, hbytes⟩
      obtain ⟨sent, hsent, rfl⟩ := htexts line hline
      exact hlines sent (hmem sent hsent)

/-- An ACK that finds room is counted and is a line. -/
theorem ackAccounting_of_roomy :
    ∃ (steps : List LoopStep) (s : Server ℤ), ServerRun 0 ⟨false⟩ steps s ∧
      s.counters.ackSent = 1 ∧ AckAccounting s := by
  obtain ⟨s, hrun, hs⟩ := exists_serverRun
    (P := fun s : Server ℤ => s.counters.ackSent = 1 ∧ ∀ sent ∈ ackCalls s.trace, ¬ sent.Short)
    0 ⟨false⟩
    [ .event (.listening [⟨5, none, none⟩] .EAGAIN),
      .event (.client 5 [ascii "STATUS device_id=a state=OK seq=1 ack=1\n"] (.failed .EAGAIN)
        fun _ => .roomy 1)]
    (by decide +kernel)
  obtain ⟨hone, hshort⟩ := of_decide_eq_true hs
  exact ⟨_, s, hrun, hone, (ackAccounting_iff hrun).mpr hshort⟩

/-- **A short ACK is counted.**  The socket has room for ten bytes of the ACK line. -/
theorem not_ackAccounting_of_short :
    ∃ (steps : List LoopStep) (s : Server ℤ), ServerRun 0 ⟨false⟩ steps s ∧
      ¬ AckAccounting s := by
  obtain ⟨s, hrun, hs⟩ := exists_serverRun
    (P := fun s : Server ℤ =>
      s.counters.ackSent ≠ (ackCalls s.trace).countP fun sent => sent.Whole) 0 ⟨false⟩
    [ .event (.listening [⟨5, none, none⟩] .EAGAIN),
      .event (.client 5 [ascii "STATUS device_id=a state=OK seq=1 ack=1\n"] (.failed .EAGAIN)
        fun _ => ⟨1, .room 10, fun _ => .room 10, .increasing⟩)]
    (by decide +kernel)
  exact ⟨_, s, hrun, fun haccounting => of_decide_eq_true hs haccounting.counter⟩

end RemoteDeviceConsole
