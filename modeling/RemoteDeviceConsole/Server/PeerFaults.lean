import RemoteDeviceConsole.Server.Connections

/-!
# What one peer can do to the server

The helpers of the loop throw on every error they do not expect, and the only
handler is around the whole program.  So an event is contained when none of its
calls fails in an unexpected way, and otherwise it ends the service for all
clients: `contained_iff_orderly`.  Two errors that a remote peer can cause are
unexpected, a `recv` on a connection that was reset and an `accept` of a
connection that was aborted (`not_contained_of_reset`).

What "contained" promises is more than that the loop goes on: no other descriptor
loses its buffer, its roles or its place in the epoll set.  An orderly event gives
this because each event is for one descriptor (`sameEntry_dispatch_client`), and
the descriptors that `accept` returns are new.
-/

namespace RemoteDeviceConsole

open Framing Machine Relation

/-- `accept` and `recv` end as the helpers expect: would block, or end of stream. -/
def Event.Orderly : Event → Prop
  | .listening _ last => last.wouldBlock = true
  | .client _ _ last _ => last = .closed ∨ ∃ errno, last = .failed errno ∧ errno.wouldBlock = true

variable {D : Type}

/-- Events that remote peers cause: whatever a registered client does, and whatever
`accept` answers.  The two calls on a new descriptor do not depend on the peer. -/
def PeerCaused (s : Server D) : Event → Prop
  | .listening clients _ =>
      ∀ client ∈ clients, client.setNonBlocking = none ∧ client.addEpollFd = none
  | .client fd _ _ _ => fd ∈ s.openFds

/-- The event concerned nobody but its peer: the others keep connection, buffer and
role, and as many clients are counted as disconnected as were removed. -/
structure Contained (s t : Server D) (event : Event) : Prop where
  others : ∀ fd ∈ s.openFds, event.peer ≠ some fd → SameEntry s t fd
  counted : t.counters.totalDisconnected =
    s.counters.totalDisconnected + (s.openFds \ t.openFds).card

/-! ## Accepting -/

theorem acceptReadyClients_eq_ok_iff {clients : List NewClient} {last : Errno} {s : Server D}
    (hcalls : ∀ client ∈ clients, client.setNonBlocking = none ∧ client.addEpollFd = none) :
    (∃ t, acceptReadyClients clients last s = .ok t) ↔ last.wouldBlock = true := by
  induction clients generalizing s with
  | nil => cases h : last.wouldBlock <;> simp [acceptReadyClients, h]
  | cons client rest ih =>
    obtain ⟨hset, hadd⟩ := hcalls client (by simp)
    simp only [acceptReadyClients, hset, hadd]
    exact ih fun other hother => hcalls other (by simp [hother])

/-- Accepting removes nobody. -/
theorem acceptReadyClients_removes_none {clients : List NewClient} {last : Errno} {s t : Server D}
    (h : acceptReadyClients clients last s = .ok t) :
    s.openFds ⊆ t.openFds ∧ t.counters.totalDisconnected = s.counters.totalDisconnected :=
  acceptReadyClients_induction
    (P := fun u => s.openFds ⊆ u.openFds ∧
      u.counters.totalDisconnected = s.counters.totalDisconnected) h
    ⟨Finset.Subset.refl _, rfl⟩
    fun _ _ _ hu => ⟨hu.1.trans (Finset.subset_insert _ _), hu.2⟩

/-! ## Receiving -/

theorem receiveAvailableData_eq_ok_iff {chunks : List Bytes} {last : RecvEnd}
    {inputBuffer : Bytes} :
    (∃ result, receiveAvailableData chunks last inputBuffer = .ok result) ↔
      last = .closed ∨ ∃ errno, last = .failed errno ∧ errno.wouldBlock = true := by
  induction chunks generalizing inputBuffer with
  | nil =>
    cases last with
    | closed => simp [receiveAvailableData]
    | failed errno => cases h : errno.wouldBlock <;> simp [receiveAvailableData, h]
  | cons data chunks ih => rw [receiveAvailableData]; exact ih

variable [CharconvDouble D]

/-- The loop over the lines removes nobody. -/
theorem handleLines_removes_none (fd : Fd) (env : ℕ → LineEnv) (s : Server D) (buffer : Bytes) :
    (handleLines fd env s buffer).openFds = s.openFds ∧
      (handleLines fd env s buffer).counters.totalDisconnected =
        s.counters.totalDisconnected :=
  drainFrames_induction (d := newline)
    (P := fun (acc : ℕ × Server D) _ => acc.2.openFds = s.openFds ∧
      acc.2.counters.totalDisconnected = s.counters.totalDisconnected)
    (fun acc line rest _ hacc => by simpa using hacc) ⟨rfl, rfl⟩

/-- An event of a client that returns removes at most that client. -/
theorem dispatch_client_removes {fd : Fd} {chunks : List Bytes} {last : RecvEnd}
    {env : ℕ → LineEnv} {s t : Server D} (hopen : fd ∈ s.openFds) {buffer : Bytes}
    (hbuffer : s.clientBuffers.lookup fd = some buffer)
    (h : dispatch (.client fd chunks last env) s = .ok t) :
    t.counters.totalDisconnected =
      s.counters.totalDisconnected + (s.openFds \ t.openFds).card := by
  obtain ⟨hfds, hcount⟩ := handleLines_removes_none fd env
    ((s.setBuffer fd (buffer ++ chunks.flatten)).log (.received fd chunks.flatten))
    (buffer ++ chunks.flatten)
  rcases dispatch_client_cases hbuffer h with rfl | ⟨-, rfl⟩
  · simp [receiveLines, hfds, hcount]
  · have hgone : s.openFds \ s.openFds.erase fd = {fd} := by
      rw [Finset.sdiff_erase hopen, Finset.sdiff_self, insert_empty_eq]
    simp [receiveLines, removeClient, hfds, hcount, hgone]

/-! ## Containment -/

/-- An event of a reachable state returns exactly when its calls end as expected. -/
theorem exists_loopStep_iff_orderly {s : Server D} (h : AllLinked s) {event : Event}
    (hpeer : PeerCaused s event) :
    (∃ t, loopStep s (.event event) = .ok t) ↔ event.Orderly := by
  cases event with
  | listening clients last => exact acceptReadyClients_eq_ok_iff hpeer
  | client fd chunks last env =>
    obtain ⟨-, buffer, -, hbuffer⟩ := h.exists_buffer hpeer
    rw [Event.Orderly, ← @receiveAvailableData_eq_ok_iff chunks last buffer]
    simp only [loopStep, dispatch, hbuffer]
    cases hrecv : receiveAvailableData chunks last buffer with
    | error e => simp
    | ok result => simp

/-- **What one peer can do.**  In a reachable state, an event that a peer causes is
handled, and concerns nobody else, if and only if `accept` and `recv` end in
"would block" or the end of the stream. -/
theorem contained_iff_orderly {nowMs : UInt64} {mqttBridge : MqttBridge} {steps : List LoopStep}
    {s : Server D} (h : ServerRun nowMs mqttBridge steps s) {event : Event}
    (hpeer : PeerCaused s event) (hfresh : FreshAccepts s (.event event)) :
    (∃ t, loopStep s (.event event) = .ok t ∧ Contained s t event) ↔ event.Orderly := by
  have hlinked := h.reachable.allLinked
  rw [← exists_loopStep_iff_orderly hlinked hpeer]
  refine ⟨fun ⟨t, ht, _⟩ => ⟨t, ht⟩, fun ⟨t, ht⟩ => ⟨t, ht, ?_⟩⟩
  cases event with
  | listening clients last =>
    obtain ⟨hsub, hcount⟩ := acceptReadyClients_removes_none ht
    refine ⟨fun fd hfd _ => sameEntry_acceptReadyClients ht fun client hclient heq => ?_, ?_⟩
    · exact hfresh.2 client hclient (heq ▸ hfd)
    · rw [hcount, Finset.sdiff_eq_empty_iff_subset.mpr hsub, Finset.card_empty]
      rfl
  | client fd chunks last env =>
    refine ⟨fun other _ hother => sameEntry_dispatch_client ht fun heq => hother (by
      rw [heq]; rfl), ?_⟩
    obtain ⟨-, buffer, -, hbuffer⟩ := hlinked.exists_buffer hpeer
    exact dispatch_client_removes hpeer hbuffer ht

/-- A client that closes its connection is removed, and nobody else is concerned. -/
theorem contained_of_closed :
    ∃ (steps : List LoopStep) (s : Server ℤ), ServerRun 0 ⟨false⟩ steps s ∧
      ∃ t, loopStep s (.event (.client 5 [ascii "STATUS"] .closed fun _ => .roomy 1)) = .ok t ∧
        Contained s t (.client 5 [ascii "STATUS"] .closed fun _ => .roomy 1) := by
  obtain ⟨s, hrun, hs⟩ := exists_serverRun
    (P := fun s : Server ℤ => 5 ∈ s.openFds) 0 ⟨false⟩
    [.event (.listening [⟨5, none, none⟩, ⟨6, none, none⟩] .EAGAIN)] (by decide +kernel)
  have hopen : 5 ∈ s.openFds := of_decide_eq_true hs
  have hpeer : PeerCaused s (.client 5 [ascii "STATUS"] .closed fun _ => .roomy 1) := hopen
  exact ⟨_, s, hrun, (contained_iff_orderly hrun hpeer trivial).mpr (Or.inl rfl)⟩

/-- **A reset connection ends the service.**  Two clients are connected; the `recv` on
one of them fails with `ECONNRESET`, and the event is not handled. -/
theorem not_contained_of_reset :
    ∃ (steps : List LoopStep) (s : Server ℤ) (event : Event), ServerRun 0 ⟨false⟩ steps s ∧
      PeerCaused s event ∧ FreshAccepts s (.event event) ∧
      ¬ ∃ t, loopStep s (.event event) = .ok t ∧ Contained s t event := by
  obtain ⟨s, hrun, hs⟩ := exists_serverRun
    (P := fun s : Server ℤ => 5 ∈ s.openFds) 0 ⟨false⟩
    [.event (.listening [⟨5, none, none⟩, ⟨6, none, none⟩] .EAGAIN)] (by decide +kernel)
  have hopen : 5 ∈ s.openFds := of_decide_eq_true hs
  have hpeer : PeerCaused s (.client 5 [] (.failed .ECONNRESET) fun _ => .roomy 1) := hopen
  refine ⟨_, s, _, hrun, hpeer, trivial, fun ⟨t, ht, _⟩ => ?_⟩
  rcases (exists_loopStep_iff_orderly hrun.reachable.allLinked hpeer).mp ⟨t, ht⟩ with
    hclosed | ⟨errno, herrno, hblock⟩
  · exact absurd hclosed (by simp)
  · obtain rfl := RecvEnd.failed.inj herrno
    exact absurd hblock (by decide)

/-! ## The service goes on -/

/-- A step that is a report, or an orderly event that peers cause. -/
def OrderlyStep (s : Server D) : LoopStep → Prop
  | .event event => PeerCaused s event ∧ FreshAccepts s (.event event) ∧ event.Orderly
  | .report _ => True

/-- **As long as all events are orderly the loop does not end.** -/
theorem exists_run_of_orderly {steps : List LoopStep} {s : Server D} (h : Reachable s)
    (hsteps : Admissible loopStep OrderlyStep s steps) :
    ∃ t, Run loopStep FreshAccepts s steps t := by
  induction steps generalizing s with
  | nil => exact ⟨s, Run.nil⟩
  | cons step steps ih =>
    obtain ⟨hstep, hrest⟩ := hsteps
    have hone : ∃ t, loopStep s step = .ok t := by
      cases step with
      | event event => exact (exists_loopStep_iff_orderly h.allLinked hstep.1).mpr hstep.2.2
      | report env => exact ⟨_, rfl⟩
    have hfresh : FreshAccepts s step := by
      cases step with
      | event event => exact hstep.2.1
      | report env => trivial
    obtain ⟨u, hu⟩ := hone
    obtain ⟨nowMs, mqttBridge, hpath⟩ := h
    obtain ⟨t, ht⟩ := ih
      (⟨nowMs, mqttBridge, hpath.trans (reflTransGen_of_loopStep hfresh hu)⟩ : Reachable u)
      (hrest u hu)
    exact ⟨t, by simpa using (Run.single hfresh hu).append ht⟩

end RemoteDeviceConsole
