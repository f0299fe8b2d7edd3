import RemoteDeviceConsole.Server.Moves

/-!
# Connections

A descriptor number is reused, a connection is not.  `session fd trace` is what
the trace says about the connection that is open on `fd`: the entries since
`accept` returned `fd`, unless the connection has been removed.  The entries of a
session give the bytes that came in (`bytesOf`), the lines that were handled
(`linesOf`) and the calls of `send` that were made to it (`sendsTo`).

`Linked s fd` ties the four tables of the server to the session: a descriptor
without a connection is in no table, one with a connection is in the three that
hold all connections, its buffer is what its bytes have after the handled lines,
and it is a viewer when a line of the session asked for it.  `allLinked_of_move`
says that every move keeps this for every descriptor, so every reachable state
has it (`Reachable.allLinked`).

The bytes of the entries are those that the `recv` calls of the steps return, chunk
by chunk and in order (`ServerRun.readings`).
-/

namespace RemoteDeviceConsole

open Framing Machine Relation

/-! ## Sessions -/

def Obs.opens (fd : Fd) : Obs → Bool
  | .accepted fd' => fd' = fd
  | _ => false

def Obs.closes (fd : Fd) : Obs → Bool
  | .disconnected fd' => fd' = fd
  | _ => false

/-- The entries of the connection that is open on `fd`. -/
def session (fd : Fd) (trace : List Obs) : Option (List Obs) :=
  current (Obs.opens fd) (Obs.closes fd) trace

/-- The bytes that one entry brings in from `fd`. -/
def Obs.dataOf (fd : Fd) : Obs → Bytes
  | .received fd' data => if fd' = fd then data else []
  | _ => []

/-- The line of `fd` that one entry handles. -/
def Obs.lineOf (fd : Fd) : Obs → List Bytes
  | .line record => if record.fd = fd then [record.line] else []
  | _ => []

/-- The calls of `send` of one entry. -/
def Obs.sends : Obs → List Sent
  | .line record => record.ack.toList ++ record.broadcast
  | .report record => record.broadcast
  | _ => []

/-- The bytes received from `fd`. -/
def bytesOf (fd : Fd) (obs : List Obs) : Bytes := obs.flatMap (Obs.dataOf fd)

/-- The lines of `fd` that were handled. -/
def linesOf (fd : Fd) (obs : List Obs) : List Bytes := obs.flatMap (Obs.lineOf fd)

/-- The calls of `send` to `fd`. -/
def sendsTo (fd : Fd) (obs : List Obs) : List Sent :=
  (obs.flatMap Obs.sends).filter fun sent => sent.fd = fd

/-- The bytes that went out to `fd`. -/
def bytesTo (fd : Fd) (obs : List Obs) : Bytes := (sendsTo fd obs).flatMap Sent.bytes

/-- The line that an entry handles. -/
def Obs.handled : Obs → List Bytes
  | .line record => [record.line]
  | _ => []

/-- The complete lines that were handled, in order. -/
def handledLines (trace : List Obs) : List Bytes := trace.flatMap Obs.handled

/-- A line of `fd` asked for the viewer role. -/
def IsViewer (fd : Fd) (obs : List Obs) : Prop := ∃ line ∈ linesOf fd obs, asksViewer line = true

instance (fd : Fd) (obs : List Obs) : Decidable (IsViewer fd obs) :=
  inferInstanceAs (Decidable (∃ line ∈ linesOf fd obs, asksViewer line = true))

variable {fd other : Fd} {obs trace : List Obs} {x : Obs}

@[simp] theorem session_nil : session fd [] = none := rfl

theorem session_append_singleton (fd : Fd) (trace : List Obs) (x : Obs) :
    session fd (trace ++ [x]) =
      if x.opens fd then some []
      else if x.closes fd then none
      else (session fd trace).map (· ++ [x]) :=
  current_append_singleton trace x

/-- The entries of a session are entries of the trace. -/
theorem mem_of_mem_session (h : session fd trace = some obs) (hx : x ∈ obs) : x ∈ trace := by
  obtain ⟨pre, y, rfl, -, -⟩ := current_eq_some_iff.mp h
  simp [hx]

/-- The first entries of a session were the session at an earlier moment. -/
theorem exists_session_of_append {a b : List Obs} (h : session fd trace = some (a ++ b)) :
    ∃ pre, pre <+: trace ∧ session fd pre = some a := by
  obtain ⟨pre, y, rfl, hopens, hrest⟩ := current_eq_some_iff.mp h
  refine ⟨pre ++ y :: a, ⟨b, by simp⟩, current_eq_some_iff.mpr ⟨pre, y, rfl, hopens, ?_⟩⟩
  intro z hz
  exact hrest z (List.mem_append_left _ hz)

@[simp] theorem bytesOf_nil : bytesOf fd [] = [] := rfl

@[simp] theorem bytesOf_append (a b : List Obs) :
    bytesOf fd (a ++ b) = bytesOf fd a ++ bytesOf fd b :=
  List.flatMap_append

@[simp] theorem linesOf_nil : linesOf fd [] = [] := rfl

@[simp] theorem linesOf_append (a b : List Obs) :
    linesOf fd (a ++ b) = linesOf fd a ++ linesOf fd b :=
  List.flatMap_append

@[simp] theorem sendsTo_nil : sendsTo fd [] = [] := rfl

@[simp] theorem sendsTo_append (a b : List Obs) :
    sendsTo fd (a ++ b) = sendsTo fd a ++ sendsTo fd b := by
  simp [sendsTo]

@[simp] theorem bytesTo_append (a b : List Obs) :
    bytesTo fd (a ++ b) = bytesTo fd a ++ bytesTo fd b := by
  simp [bytesTo]

@[simp] theorem isViewer_nil : ¬ IsViewer fd [] := by
  simp [IsViewer]

theorem isViewer_append {a b : List Obs} :
    IsViewer fd (a ++ b) ↔ IsViewer fd a ∨ IsViewer fd b := by
  simp [IsViewer, or_and_right, exists_or]

/-! ## Entries of the trace, one by one -/

@[simp] theorem bytesOf_received (data : Bytes) :
    bytesOf fd [.received other data] = if other = fd then data else [] := by
  simp [bytesOf, Obs.dataOf]

@[simp] theorem linesOf_line (record : LineRecord) :
    linesOf fd [.line record] = if record.fd = fd then [record.line] else [] := by
  simp [linesOf, Obs.lineOf]

/-- The entry concerns the connection on `fd`. -/
def Obs.Concerns (fd : Fd) : Obs → Prop
  | .accepted fd' => fd' = fd
  | .received fd' _ => fd' = fd
  | .line record => record.fd = fd
  | .report _ => False
  | .disconnected fd' => fd' = fd
  | .unknown fd' => fd' = fd

/-- An entry about another connection only adds itself to the session. -/
theorem session_of_not_concerns (h : ¬ x.Concerns fd) (trace : List Obs) :
    session fd (trace ++ [x]) = (session fd trace).map (· ++ [x]) := by
  rw [session_append_singleton]
  cases x <;> simp_all [Obs.opens, Obs.closes, Obs.Concerns]

theorem bytesOf_of_not_concerns (h : ¬ x.Concerns fd) : bytesOf fd [x] = [] := by
  cases x <;> simp_all [bytesOf, Obs.dataOf, Obs.Concerns]

theorem linesOf_of_not_concerns (h : ¬ x.Concerns fd) : linesOf fd [x] = [] := by
  cases x <;> simp_all [linesOf, Obs.lineOf, Obs.Concerns]

/-! ## Tables and sessions -/

variable {D : Type}

/-- What the tables hold about `fd`, given its session. -/
inductive Linked (s : Server D) (fd : Fd) : Option (List Obs) → Prop where
  /-- No connection is open. -/
  | closed (hopen : fd ∉ s.openFds) (hbuffer : s.clientBuffers.lookup fd = none)
      (htelemetry : fd ∉ s.telemetryClientFds) (hviewer : fd ∉ s.viewerClientFds) :
      Linked s fd none
  /-- A connection is open. -/
  | connected (obs : List Obs) (buffer : Bytes) (hopen : fd ∈ s.openFds)
      (hbuffer : s.clientBuffers.lookup fd = some buffer) (htelemetry : fd ∈ s.telemetryClientFds)
      (hviewer : fd ∈ s.viewerClientFds ↔ IsViewer fd obs)
      (hlines : ∀ line ∈ linesOf fd obs, IsFrame newline line)
      (hbytes : bytesOf fd obs = (linesOf fd obs).flatten ++ buffer) :
      Linked s fd (some obs)

/-- The tables of two states agree about `fd`. -/
structure SameEntry (s t : Server D) (fd : Fd) : Prop where
  openFds : fd ∈ t.openFds ↔ fd ∈ s.openFds
  buffer : t.clientBuffers.lookup fd = s.clientBuffers.lookup fd
  telemetry : fd ∈ t.telemetryClientFds ↔ fd ∈ s.telemetryClientFds
  viewer : fd ∈ t.viewerClientFds ↔ fd ∈ s.viewerClientFds

/-- A move about another connection keeps the link. -/
theorem Linked.of_not_concerns {s t : Server D} (h : Linked s fd (session fd s.trace))
    (hsame : SameEntry s t fd) (htrace : t.trace = s.trace ++ [x]) (hx : ¬ x.Concerns fd) :
    Linked t fd (session fd t.trace) := by
  rw [htrace, session_of_not_concerns hx]
  cases h' : session fd s.trace with
  | none =>
    rw [h'] at h
    cases h with
    | closed hopen hbuffer htelemetry hviewer =>
      exact .closed (by rwa [hsame.openFds]) (by rwa [hsame.buffer]) (by rwa [hsame.telemetry])
        (by rwa [hsame.viewer])
  | some obs =>
    rw [h'] at h
    cases h with
    | connected _ buffer hopen hbuffer htelemetry hviewer hlines hbytes =>
      refine .connected _ buffer (by rwa [hsame.openFds]) (by rwa [hsame.buffer])
        (by rwa [hsame.telemetry]) ?_ ?_ ?_
      · rw [hsame.viewer, hviewer, isViewer_append]
        simp [IsViewer, linesOf_of_not_concerns hx]
      · simpa [linesOf_of_not_concerns hx] using hlines
      · simpa [linesOf_of_not_concerns hx, bytesOf_of_not_concerns hx] using hbytes

/-- A descriptor that is not open has no session. -/
theorem Linked.session_eq_none {s : Server D} {o : Option (List Obs)} (h : Linked s fd o)
    (hopen : fd ∉ s.openFds) : o = none := by
  cases h with
  | closed => rfl
  | connected => contradiction

/-- A descriptor with a buffer has a session. -/
theorem Linked.exists_session {s : Server D} {o : Option (List Obs)} (h : Linked s fd o)
    {buffer : Bytes} (hbuffer : s.clientBuffers.lookup fd = some buffer) :
    ∃ obs, o = some obs ∧ fd ∈ s.openFds ∧ fd ∈ s.telemetryClientFds ∧
      (fd ∈ s.viewerClientFds ↔ IsViewer fd obs) ∧
      (∀ line ∈ linesOf fd obs, IsFrame newline line) ∧
      bytesOf fd obs = (linesOf fd obs).flatten ++ buffer := by
  cases h with
  | closed hopen hbuffer' => rw [hbuffer] at hbuffer'; exact absurd hbuffer' (by simp)
  | connected obs buffer' hopen hbuffer' htelemetry hviewer hlines hbytes =>
    rw [hbuffer, Option.some.injEq] at hbuffer'
    subst hbuffer'
    exact ⟨obs, rfl, hopen, htelemetry, hviewer, hlines, hbytes⟩

/-- Every descriptor has its tables linked to its session. -/
def AllLinked (s : Server D) : Prop := ∀ fd, Linked s fd (session fd s.trace)

/-- An open descriptor has a session and a buffer. -/
theorem AllLinked.exists_buffer {s : Server D} (h : AllLinked s) (hopen : fd ∈ s.openFds) :
    ∃ obs buffer, session fd s.trace = some obs ∧ s.clientBuffers.lookup fd = some buffer := by
  have hlinked := h fd
  cases hsession : session fd s.trace with
  | none =>
    rw [hsession] at hlinked
    cases hlinked with
    | closed hclosed => exact absurd hopen hclosed
  | some obs =>
    rw [hsession] at hlinked
    cases hlinked with
    | connected _ buffer _ hbuffer => exact ⟨obs, buffer, rfl, hbuffer⟩

theorem allLinked_start (nowMs : UInt64) (mqttBridge : MqttBridge) :
    AllLinked (Server.start nowMs mqttBridge : Server D) := fun _ =>
  .closed (by simp) (by simp) (by simp) (by simp)

theorem allLinked_acceptClient {s : Server D} (h : AllLinked s) (hfresh : fd ∉ s.openFds) :
    AllLinked (acceptClient fd s) := by
  intro other
  by_cases hother : other = fd
  · subst hother
    have hsession : session other (acceptClient other s).trace = some [] := by
      rw [acceptClient_trace, session_append_singleton, if_pos (by simp [Obs.opens])]
    have hclosed := h other
    rw [hclosed.session_eq_none hfresh] at hclosed
    cases hclosed with
    | closed hopen hbuffer htelemetry hviewer =>
      rw [hsession]
      refine .connected [] [] (by simp) ?_ (by simp) (by simp [hviewer]) (by simp) (by simp)
      simp [Finmap.lookup_eq_none.mp hbuffer]
  · refine (h other).of_not_concerns ⟨?_, ?_, ?_, Iff.rfl⟩ rfl (Ne.symm hother)
    · simp [hother]
    · rw [acceptClient_clientBuffers]
      split
      · rfl
      · exact Finmap.lookup_insert_of_ne _ hother
    · simp [hother]

theorem allLinked_received {s : Server D} (h : AllLinked s) (data : Bytes) {buffer : Bytes}
    (hbuffer : s.clientBuffers.lookup fd = some buffer) :
    AllLinked ((s.setBuffer fd (buffer ++ data)).log (.received fd data)) := by
  intro other
  by_cases hother : other = fd
  · subst hother
    obtain ⟨obs, hobs, hopen, htelemetry, hviewer, hlines, hbytes⟩ :=
      (h other).exists_session hbuffer
    have hsession : session other ((s.setBuffer other (buffer ++ data)).log
        (.received other data)).trace = some (obs ++ [.received other data]) := by
      simp [session_append_singleton, Obs.opens, Obs.closes, hobs]
    have hno : linesOf other [.received other data] = [] := rfl
    rw [hsession]
    refine .connected _ (buffer ++ data) hopen (by simp) htelemetry
      ?_ (by simpa [hno] using hlines) (by simp [hno, hbytes])
    rw [isViewer_append]
    simpa [IsViewer, hno] using hviewer
  · exact (h other).of_not_concerns
      ⟨Iff.rfl, Finmap.lookup_insert_of_ne _ hother, Iff.rfl, Iff.rfl⟩ rfl (Ne.symm hother)

theorem allLinked_disconnected {s : Server D} (h : AllLinked s) :
    AllLinked (removeClient fd s) := by
  intro other
  by_cases hother : other = fd
  · subst hother
    have hsession : session other (removeClient other s).trace = none := by
      simp [removeClient, session_append_singleton, Obs.opens, Obs.closes]
    rw [hsession]
    exact .closed (by simp [removeClient]) (by simp [removeClient]) (by simp [removeClient])
      (by simp [removeClient])
  · refine (h other).of_not_concerns ⟨?_, Finmap.lookup_erase_ne hother, ?_, ?_⟩ rfl
      (Ne.symm hother)
    · simp [removeClient, hother]
    · simp [removeClient, hother]
    · simp [removeClient, hother]

theorem allLinked_unknown {s : Server D} (h : AllLinked s)
    (hbuffer : s.clientBuffers.lookup fd = none) :
    AllLinked ((removeEpollFd fd s).log (.unknown fd)) := by
  intro other
  by_cases hother : other = fd
  · subst hother
    have hnone : session other s.trace = none := by
      cases hsession : session other s.trace with
      | none => rfl
      | some obs =>
        have hlinked := h other
        rw [hsession] at hlinked
        cases hlinked with
        | connected _ buffer hopen hbuffer' =>
          rw [hbuffer] at hbuffer'
          exact absurd hbuffer' (by simp)
    have hlinked := h other
    rw [hnone] at hlinked
    cases hlinked with
    | closed hopen hbuffer htelemetry hviewer =>
      have hsession :
          session other ((removeEpollFd other s).log (.unknown other)).trace = none := by
        simp [session_append_singleton, Obs.opens, Obs.closes, hnone]
      rw [hsession]
      exact .closed (by simp) hbuffer htelemetry hviewer
  · refine (h other).of_not_concerns ⟨?_, rfl, Iff.rfl, Iff.rfl⟩ rfl (Ne.symm hother)
    simp [hother]

variable [CharconvDouble D]

theorem allLinked_handleLine {s : Server D} (h : AllLinked s) (env : LineEnv) {line rest : Bytes}
    (hline : IsFrame newline line) (hbuffer : s.clientBuffers.lookup fd = some (line ++ rest)) :
    AllLinked (handleLine fd env line (s.setBuffer fd rest)) := by
  intro other
  by_cases hother : other = fd
  · subst hother
    obtain ⟨obs, hobs, hopen, htelemetry, hviewer, hlines, hbytes⟩ :=
      (h other).exists_session hbuffer
    have hsession : session other (handleLine other env line (s.setBuffer other rest)).trace =
        some (obs ++ [.line (lineRecord other env line (s.setBuffer other rest))]) := by
      simp [trace_handleLine, session_append_singleton, Obs.opens, Obs.closes, hobs]
    have hone : linesOf other [.line (lineRecord other env line (s.setBuffer other rest))] =
        [line] := by simp
    have hno : bytesOf other [.line (lineRecord other env line (s.setBuffer other rest))] = [] :=
      rfl
    rw [hsession]
    refine .connected _ rest (by simpa using hopen) (by simp)
      (by simpa using htelemetry) ?_ ?_ (by simp [hone, hno, hbytes])
    · rw [viewerClientFds_handleLine, isViewer_append]
      cases hasks : asksViewer line <;> simp [IsViewer, hone, hasks]
      simpa [IsViewer] using hviewer
    · rw [linesOf_append, hone]
      intro l hl
      rcases List.mem_append.mp hl with hl | hl
      · exact hlines l hl
      · rw [List.mem_singleton.mp hl]
        exact hline
  · refine (h other).of_not_concerns ⟨by simp, ?_, by simp, ?_⟩
      (trace_handleLine fd env line _) (by simpa [Obs.Concerns] using Ne.symm hother)
    · rw [clientBuffers_handleLine]
      exact Finmap.lookup_insert_of_ne _ hother
    · rw [viewerClientFds_handleLine]
      cases asksViewer line <;> simp [hother]

/-- **Every move keeps the tables linked to the sessions.** -/
theorem allLinked_of_move {s t : Server D} (hmove : Move s t) (h : AllLinked s) : AllLinked t := by
  cases hmove with
  | accepted fd hfresh => exact allLinked_acceptClient h hfresh
  | received fd data buffer hbuffer => exact allLinked_received h data hbuffer
  | line fd env line rest hline hbuffer => exact allLinked_handleLine h env hline hbuffer
  | report env hdue =>
    intro fd
    rw [printMetricsIfDue_of_due hdue]
    exact (h fd).of_not_concerns ⟨Iff.rfl, rfl, Iff.rfl, Iff.rfl⟩ rfl (by simp [Obs.Concerns])
  | disconnected fd buffer hbuffer hopen => exact allLinked_disconnected h
  | unknown fd hbuffer => exact allLinked_unknown h hbuffer

/-- States that moves lead to from the start. -/
def Reachable (s : Server D) : Prop :=
  ∃ nowMs mqttBridge, ReflTransGen Move (Server.start nowMs mqttBridge) s

theorem allLinked_of_reachable {s : Server D} (h : Reachable s) : AllLinked s := by
  obtain ⟨nowMs, mqttBridge, hpath⟩ := h
  induction hpath with
  | refl => exact allLinked_start nowMs mqttBridge
  | tail _ hmove ih => exact allLinked_of_move hmove ih

theorem ServerRun.reachable {nowMs : UInt64} {mqttBridge : MqttBridge} {steps : List LoopStep}
    {s : Server D} (h : ServerRun nowMs mqttBridge steps s) : Reachable s :=
  ⟨nowMs, mqttBridge, h.reflTransGen⟩

theorem Reachable.allLinked {s : Server D} (h : Reachable s) : AllLinked s :=
  allLinked_of_reachable h

/-- Every moment of the trace of a reachable state is the trace of one. -/
theorem Reachable.exists_of_prefix {s : Server D} (h : Reachable s) {pre : List Obs}
    (hpre : pre <+: s.trace) : ∃ t : Server D, Reachable t ∧ t.trace = pre := by
  obtain ⟨nowMs, mqttBridge, hpath⟩ := h
  obtain ⟨t, hst, -, htrace⟩ := exists_state_of_trace_prefix hpath hpre
  exact ⟨t, ⟨nowMs, mqttBridge, hst⟩, htrace⟩

/-- Every entry of the trace was written by a move between reachable states. -/
theorem Reachable.exists_move_of_prefix {s : Server D} (h : Reachable s) {pre : List Obs}
    (hpre : pre ++ [x] <+: s.trace) :
    ∃ u v : Server D, Reachable u ∧ Move u v ∧ ReflTransGen Move v s ∧ u.trace = pre ∧
      v.trace = pre ++ [x] := by
  obtain ⟨nowMs, mqttBridge, hpath⟩ := h
  obtain ⟨v, hv, hvs, htrace⟩ := exists_state_of_trace_prefix hpath hpre
  rcases hv.cases_tail with hstart | ⟨u, hu, hmove⟩
  · rw [hstart] at htrace
    exact absurd htrace (by simp)
  · obtain ⟨y, hy⟩ := hmove.exists_trace_eq
    rw [htrace] at hy
    exact ⟨u, v, ⟨nowMs, mqttBridge, hu⟩, hmove, hvs, ((List.append_inj' hy rfl).1).symm, htrace⟩

theorem Reachable.exists_move_of_mem {s : Server D} (h : Reachable s) (hx : x ∈ s.trace) :
    ∃ u v : Server D, Reachable u ∧ Move u v ∧ ReflTransGen Move v s ∧ Moved u v x := by
  obtain ⟨pre, post, htrace⟩ := List.append_of_mem hx
  obtain ⟨u, v, hu, hmove, hvs, hpre, hvtrace⟩ := h.exists_move_of_prefix
    (show pre ++ [x] <+: s.trace from ⟨post, by simp [htrace]⟩)
  exact ⟨u, v, hu, hmove, hvs, hmove.moved (hpre ▸ hvtrace)⟩

/-! ## Between two steps of the loop no buffer holds a complete line -/

/-- No buffer holds a complete line. -/
def Settled (s : Server D) : Prop :=
  ∀ fd buffer, s.clientBuffers.lookup fd = some buffer → newline ∉ buffer

/-- The loop over the lines of one client leaves the entries of the others alone. -/
theorem sameEntry_handleLines (env : ℕ → LineEnv) (s : Server D) (buffer : Bytes)
    (hother : other ≠ fd) : SameEntry s (handleLines fd env s buffer) other := by
  refine drainFrames_induction (d := newline)
    (P := fun (acc : ℕ × Server D) _ => SameEntry s acc.2 other) (fun acc line rest _ hacc => ?_)
    ⟨Iff.rfl, rfl, Iff.rfl, Iff.rfl⟩
  refine ⟨by simpa using hacc.openFds, ?_, by simpa using hacc.telemetry, ?_⟩
  · rw [clientBuffers_handleLine, Server.setBuffer_clientBuffers,
      Finmap.lookup_insert_of_ne _ hother]
    exact hacc.buffer
  · rw [viewerClientFds_handleLine]
    cases asksViewer line <;> simpa [hother] using hacc.viewer

theorem sameEntry_receiveLines (env : ℕ → LineEnv) (data buffer : Bytes) (s : Server D)
    (hother : other ≠ fd) : SameEntry s (receiveLines fd env data buffer s) other := by
  have hlines := sameEntry_handleLines env
    ((s.setBuffer fd (buffer ++ data)).log (.received fd data)) (buffer ++ data) hother
  have hlookup := hlines.buffer
  rw [Server.log_clientBuffers, Server.setBuffer_clientBuffers,
    Finmap.lookup_insert_of_ne _ hother] at hlookup
  exact ⟨hlines.openFds, hlookup, hlines.telemetry, hlines.viewer⟩

/-- The event of one client leaves the entries of the others alone. -/
theorem sameEntry_dispatch_client {chunks : List Bytes} {last : RecvEnd} {env : ℕ → LineEnv}
    {s t : Server D} (h : dispatch (.client fd chunks last env) s = .ok t) (hother : other ≠ fd) :
    SameEntry s t other := by
  cases hbuffer : s.clientBuffers.lookup fd with
  | none =>
    rw [dispatch_client_unknown hbuffer, Except.ok.injEq] at h
    rw [← h]
    exact ⟨by simp [hother], rfl, Iff.rfl, Iff.rfl⟩
  | some buffer =>
    have hlines := sameEntry_receiveLines env chunks.flatten buffer s hother
    rcases dispatch_client_cases hbuffer h with rfl | ⟨-, rfl⟩
    · exact hlines
    · refine ⟨?_, ?_, ?_, ?_⟩
      · simpa [removeClient, hother] using hlines.openFds
      · simpa [removeClient, Finmap.lookup_erase_ne hother] using hlines.buffer
      · simpa [removeClient, hother] using hlines.telemetry
      · simpa [removeClient, hother] using hlines.viewer

omit [CharconvDouble D] in
/-- Accepting clients leaves the entries of other descriptors alone. -/
theorem sameEntry_acceptReadyClients {clients : List NewClient} {last : Errno} {s t : Server D}
    (h : acceptReadyClients clients last s = .ok t) (hother : ∀ client ∈ clients, client.fd ≠ fd) :
    SameEntry s t fd := by
  refine acceptReadyClients_induction (P := fun u => SameEntry s u fd) h
    ⟨Iff.rfl, rfl, Iff.rfl, Iff.rfl⟩ fun client hclient u hu => ?_
  have hne : fd ≠ client.fd := Ne.symm (hother client hclient)
  refine ⟨by simpa [hne] using hu.openFds, ?_, by simpa [hne] using hu.telemetry, hu.viewer⟩
  rw [← hu.buffer, acceptClient_clientBuffers]
  split
  · rfl
  · exact Finmap.lookup_insert_of_ne _ hne

omit [CharconvDouble D] in
theorem settled_acceptReadyClients {clients : List NewClient} {last : Errno} {s t : Server D}
    (h : acceptReadyClients clients last s = .ok t) (hs : Settled s) : Settled t := by
  refine acceptReadyClients_induction (P := Settled) h hs fun client _ u hu fd buffer hbuffer => ?_
  rw [acceptClient_clientBuffers] at hbuffer
  split at hbuffer
  · exact hu fd buffer hbuffer
  · by_cases hfd : fd = client.fd
    · rw [hfd, Finmap.lookup_insert, Option.some.injEq] at hbuffer
      simp [← hbuffer]
    · rw [Finmap.lookup_insert_of_ne _ hfd] at hbuffer
      exact hu fd buffer hbuffer

theorem settled_dispatch_client {chunks : List Bytes} {last : RecvEnd} {env : ℕ → LineEnv}
    {s t : Server D} (h : dispatch (.client fd chunks last env) s = .ok t) (hs : Settled s) :
    Settled t := by
  intro other buffer' hbuffer'
  by_cases hother : other = fd
  · subst hother
    cases hbuffer : s.clientBuffers.lookup other with
    | none =>
      rw [dispatch_client_unknown hbuffer, Except.ok.injEq] at h
      rw [← h] at hbuffer'
      exact hs other buffer' hbuffer'
    | some buffer =>
      rcases dispatch_client_cases hbuffer h with rfl | ⟨-, rfl⟩
      · rw [(reflTransGen_of_receiveLines env chunks.flatten hbuffer).2, Option.some.injEq]
          at hbuffer'
        rw [← hbuffer']
        exact notMem_remainder _ _
      · simp [removeClient] at hbuffer'
  · rw [(sameEntry_dispatch_client h hother).buffer] at hbuffer'
    exact hs other buffer' hbuffer'

omit [CharconvDouble D] in
theorem settled_printMetricsIfDue {s : Server D} (hs : Settled s) (env : ReportEnv) :
    Settled (printMetricsIfDue env s) := by
  by_cases hdue : env.nowMs - s.counters.lastReportMs < 1000
  · rwa [printMetricsIfDue, if_pos hdue]
  · rw [printMetricsIfDue_of_due hdue]
    exact hs

/-- **Between two steps every complete line has been handled.** -/
theorem ServerRun.settled {nowMs : UInt64} {mqttBridge : MqttBridge} {steps : List LoopStep}
    {s : Server D} (h : ServerRun nowMs mqttBridge steps s) : Settled s := by
  refine Run.invariant (P := Settled) ?_ h fun fd buffer hbuffer => by simp at hbuffer
  intro s step t hs _ hok
  cases step with
  | event event =>
    cases event with
    | listening clients last => exact settled_acceptReadyClients hok hs
    | client fd chunks last env => exact settled_dispatch_client hok hs
  | report env =>
    rw [loopStep, Except.ok.injEq] at hok
    exact hok ▸ settled_printMetricsIfDue hs env

/-! ## What comes in is what the kernel brings -/

/-- The bytes that an entry says came in, and from whom. -/
def Obs.reading : Obs → List (Fd × Bytes)
  | .received fd data => [(fd, data)]
  | _ => []

/-- The bytes that the `recv` calls of a step return.  Nothing is read from a descriptor
without a buffer. -/
def stepReadings (s : Server D) : LoopStep → List (Fd × Bytes)
  | .event (.client fd chunks _ _) =>
      if fd ∈ s.clientBuffers then [(fd, chunks.flatten)] else []
  | _ => []

theorem readings_of_loopStep {step : LoopStep} {s t : Server D} (h : loopStep s step = .ok t) :
    t.trace.flatMap Obs.reading = s.trace.flatMap Obs.reading ++ stepReadings s step := by
  cases step with
  | report env =>
    rw [loopStep, Except.ok.injEq] at h
    by_cases hdue : env.nowMs - s.counters.lastReportMs < 1000
    · simp [← h, printMetricsIfDue, hdue, stepReadings]
    · simp [← h, printMetricsIfDue_of_due hdue, Obs.reading, stepReadings]
  | event event =>
    cases event with
    | listening clients last =>
      simp [trace_acceptReadyClients h, List.flatMap_map, Obs.reading, stepReadings]
    | client fd chunks last env =>
      cases hbuffer : s.clientBuffers.lookup fd with
      | none =>
        have hunknown : fd ∉ s.clientBuffers := Finmap.lookup_eq_none.mp hbuffer
        rw [loopStep, dispatch_client_unknown hbuffer, Except.ok.injEq] at h
        simp [← h, Obs.reading, stepReadings, hunknown]
      | some buffer =>
        have hknown : fd ∈ s.clientBuffers := Finmap.mem_of_lookup_eq_some hbuffer
        obtain ⟨records, removal, htrace, hremoval⟩ := exists_trace_dispatch_client hbuffer h
        rcases hremoval with rfl | rfl <;>
          simp [htrace, List.flatMap_map, Obs.reading, stepReadings, hknown]

/-- **The log has the bytes of the steps**: what the entries of a run say came in is what the
`recv` calls of its steps returned, in order. -/
theorem ServerRun.readings {nowMs : UInt64} {mqttBridge : MqttBridge} {steps : List LoopStep}
    {s : Server D} (h : ServerRun nowMs mqttBridge steps s) :
    s.trace.flatMap Obs.reading =
      outputs loopStep stepReadings (Server.start nowMs mqttBridge : Server D) steps := by
  induction h with
  | nil => rfl
  | snoc hrun hadm hok ih =>
    rw [hrun.outputs_append_singleton, ← ih]
    exact readings_of_loopStep hok

omit [CharconvDouble D] in
/-- The bytes of a descriptor are those of its entries. -/
theorem bytesOf_eq_readings (fd : Fd) (obs : List Obs) :
    bytesOf fd obs =
      ((obs.flatMap Obs.reading).filter fun reading => reading.1 = fd).flatMap Prod.snd := by
  induction obs with
  | nil => rfl
  | cons x obs ih =>
    rw [bytesOf, List.flatMap_cons, ← bytesOf, ih, List.flatMap_cons, List.filter_append,
      List.flatMap_append]
    refine congrArg (· ++ _) ?_
    cases x with
    | received fd' data => by_cases hfd : fd' = fd <;> simp [Obs.dataOf, Obs.reading, hfd]
    | _ => rfl

/-! ## Framing of the connections -/

/-- When the buffer has no complete line, the lines of the session are the complete
lines of its bytes and the buffer is the rest. -/
theorem linesOf_eq_frames {buffer : Bytes} (hlines : ∀ line ∈ linesOf fd obs, IsFrame newline line)
    (hbytes : bytesOf fd obs = (linesOf fd obs).flatten ++ buffer) (hbuffer : newline ∉ buffer) :
    linesOf fd obs = frames newline (bytesOf fd obs) ∧
      buffer = remainder newline (bytesOf fd obs) := by
  have hframes : frames newline (bytesOf fd obs) = linesOf fd obs := by
    rw [hbytes, frames_flatten_append hlines, frames_of_notMem hbuffer, List.append_nil]
  refine ⟨hframes.symm, ?_⟩
  have hsplit := flatten_frames_append_remainder newline (bytesOf fd obs)
  rw [hframes] at hsplit
  conv_rhs at hsplit => rw [hbytes]
  exact (List.append_cancel_left hsplit).symm

omit [CharconvDouble D] in
/-- **A connection in a settled state**: its lines are the complete lines of its
bytes, and its buffer is what follows the last newline. -/
theorem Settled.framing {s : Server D} (hs : Settled s) (hlinked : AllLinked s)
    (hsession : session fd s.trace = some obs) :
    linesOf fd obs = frames newline (bytesOf fd obs) ∧
      s.clientBuffers.lookup fd = some (remainder newline (bytesOf fd obs)) := by
  have h := hlinked fd
  rw [hsession] at h
  cases h with
  | connected _ buffer hopen hbuffer htelemetry hviewer hlines hbytes =>
    obtain ⟨hframes, hrest⟩ := linesOf_eq_frames hlines hbytes (hs fd buffer hbuffer)
    exact ⟨hframes, by rw [hbuffer, hrest]⟩

/-- **A connection that is removed** has had all its complete lines handled. -/
theorem Reachable.framing_of_disconnected {s : Server D} (h : Reachable s) {pre : List Obs}
    (hpre : pre ++ [.disconnected fd] <+: s.trace) :
    ∃ obs, session fd pre = some obs ∧ linesOf fd obs = frames newline (bytesOf fd obs) := by
  obtain ⟨u, v, hu, hmove, -, hupre, hvtrace⟩ := h.exists_move_of_prefix hpre
  obtain ⟨buffer, hbuffer, hopen, -⟩ := hmove.moved (hupre ▸ hvtrace)
  obtain ⟨obs, hobs, -, -, -, hlines, hbytes⟩ := (hu.allLinked fd).exists_session hbuffer
  exact ⟨obs, hupre ▸ hobs, (linesOf_eq_frames hlines hbytes hopen).1⟩

end RemoteDeviceConsole
