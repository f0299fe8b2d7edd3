import RemoteDeviceConsole.Loadgen.Balance
import RemoteDeviceConsole.Loadgen.Network

/-!
# The sequence numbers of the load generator

`send_status` increments the sequence before it calls `send` and takes the increment back
when the socket is full.  So the sequence of a client is the number of its lines that went
out, and these lines carry 1, 2, 3, ... (`Numbered`).  `GenRun.accounting` puts this beside
the balance of the totals.

`Numbered` speaks of a descriptor and not of a client, since the lines of a client that was
closed stay in the trace; only its last field needs the client.  The number of lines of a
descriptor is at most the number of all messages, and that is why the hypothesis can be
about the total alone: the sequence is a 64-bit number, and below 2⁶⁴ messages none wraps
(`Numbered.toNat`).
-/

namespace RemoteDeviceConsole
namespace Loadgen

open Framing Machine

variable {options : Options} {clients : Clients} {errors : ℕ} {connectedMs nowMs : UInt64}
  {steps : List Step} {g g' : Loadgen} {fd : Fd} {client : ClientState}

/-- The lines of the client on `fd` are numbered from 1, and the client knows the last
number. -/
structure Numbered (fd : Fd) (g : Loadgen) : Prop where
  count : (statusesOf fd g.trace).length ≤ g.sent
  sequences : (statusesOf fd g.trace).map ClientState.sequence =
    (List.range (statusesOf fd g.trace).length).map fun k => UInt64.ofNat (k + 1)
  client : ∀ client, g.clients.lookup fd = some client →
    client.fd = fd ∧ client.sequence = UInt64.ofNat (statusesOf fd g.trace).length

/-- No line goes out, and the client keeps its number. -/
theorem Numbered.of_quiet (h : Numbered fd g)
    (hstatuses : statusesOf fd g'.trace = statusesOf fd g.trace) (hsent : g.sent ≤ g'.sent)
    (hclient : ∀ client', g'.clients.lookup fd = some client' →
      ∃ client, g.clients.lookup fd = some client ∧ client'.fd = client.fd ∧
        client'.sequence = client.sequence) :
    Numbered fd g' where
  count := by
    rw [hstatuses]
    exact h.count.trans hsent
  sequences := by rw [hstatuses, h.sequences]
  client client' hlookup := by
    obtain ⟨client, hbefore, hfd, hsequence⟩ := hclient client' hlookup
    rw [hstatuses, hfd, hsequence]
    exact h.client client hbefore

/-- A replaced entry that keeps descriptor and sequence. -/
theorem exists_lookup_of_replace {c : Fd} {client client' : ClientState}
    (hlookup : g.clients.lookup c = some client) (hfd : client'.fd = client.fd)
    (hsequence : client'.sequence = client.sequence) (after : ClientState)
    (hafter : (g.clients.replace c client').lookup fd = some after) :
    ∃ before, g.clients.lookup fd = some before ∧ after.fd = before.fd ∧
      after.sequence = before.sequence := by
  by_cases hc : fd = c
  · subst hc
    rw [lookup_replace_self hlookup, Option.some.injEq] at hafter
    exact ⟨client, hlookup, hafter ▸ hfd, hafter ▸ hsequence⟩
  · rw [lookup_replace_of_ne hc] at hafter
    exact ⟨after, hafter, rfl, rfl⟩

/-- **The next line carries the next number.** -/
theorem Numbered.sent (h : Numbered fd g) (hlookup : g.clients.lookup fd = some client)
    {g' : Loadgen} (hclients : g'.clients = g.clients.replace fd (sentClient nowMs client))
    (hsent : g'.sent = g.sent + 1)
    (htrace : g'.trace = g.trace ++ [.status (sentClient nowMs client)]) : Numbered fd g' := by
  obtain ⟨hfd, hsequence⟩ := h.client client hlookup
  have hnext : (sentClient nowMs client).sequence =
      UInt64.ofNat ((statusesOf fd g.trace).length + 1) := by
    show client.sequence + 1 = _
    rw [hsequence, UInt64.ofNat_add]
    rfl
  have hstatuses : statusesOf fd g'.trace =
      statusesOf fd g.trace ++ [sentClient nowMs client] := by
    have hmine : (sentClient nowMs client).fd = fd := hfd
    rw [htrace, statusesOf_append]
    simp [statusesOf, hmine]
  have hlength : (statusesOf fd g'.trace).length = (statusesOf fd g.trace).length + 1 := by
    rw [hstatuses, List.length_append]
    rfl
  refine ⟨?_, ?_, fun client' hclient' => ?_⟩
  · have hcount := h.count
    omega
  · rw [hlength, hstatuses, List.map_append, h.sequences, List.range_succ, List.map_append]
    simp only [List.map_cons, List.map_nil, hnext]
  · rw [hclients, lookup_replace_self hlookup, Option.some.injEq] at hclient'
    rw [hlength, ← hclient', hnext]
    exact ⟨hfd, rfl⟩

theorem numbered_of_move (hmove : Move g g') (h : ∀ fd, Numbered fd g) (fd : Fd) :
    Numbered fd g' := by
  cases hmove with
  | idle => exact h fd
  | ticked currentMs credit => exact ⟨(h fd).count, (h fd).sequences, (h fd).client⟩
  | sent c client nowMs hlookup hready =>
    by_cases hc : fd = c
    · subst hc
      exact (h fd).sent hlookup rfl rfl rfl
    · have hother : (sentClient nowMs client).fd ≠ fd := by
        have hown : (sentClient nowMs client).fd = c := ((h c).client client hlookup).1
        rw [hown]
        exact Ne.symm hc
      refine (h fd).of_quiet ?_ (Nat.le_succ _) fun client' hclient' => ?_
      · rw [statusesOf_append]
        simp [statusesOf, hother]
      · rw [lookup_replace_of_ne hc] at hclient'
        exact ⟨client', hclient', rfl, rfl⟩
  | deferred c client nowMs hlookup hready =>
    exact (h fd).of_quiet rfl (Nat.le_refl _) (exists_lookup_of_replace hlookup rfl rfl)
  | buffered c client data buffer hlookup =>
    refine (h fd).of_quiet ?_ (Nat.le_refl _) (exists_lookup_of_replace hlookup rfl rfl)
    rw [statusesOf_append]
    simp [statusesOf]
  | acked c client data line buffer nowMs hlookup hwaiting =>
    refine (h fd).of_quiet ?_ (Nat.le_refl _) (exists_lookup_of_replace hlookup rfl rfl)
    rw [statusesOf_append]
    simp [statusesOf]
  | closed c client hlookup =>
    refine (h fd).of_quiet ?_ (Nat.le_refl _) fun client' hclient' => ?_
    · rw [statusesOf_append]
      simp [statusesOf]
    · by_cases hc : fd = c
      · rw [hc, AList.lookup_erase] at hclient'
        exact absurd hclient' (by simp)
      · rw [AList.lookup_erase_ne hc] at hclient'
        exact ⟨client', hclient', rfl, rfl⟩

theorem numbered_start (hfresh : AllFresh clients) (fd : Fd) :
    Numbered fd (start clients errors connectedMs) where
  count := Nat.le_refl 0
  sequences := rfl
  client client hlookup := ⟨(hfresh fd client hlookup).fd, (hfresh fd client hlookup).sequence⟩

theorem GenRun.numbered (h : GenRun options clients errors connectedMs steps g) (fd : Fd) :
    Numbered fd g :=
  h.invariant (P := fun g => ∀ fd, Numbered fd g) (numbered_start h.connected.allFresh)
    (fun _ _ hmove hg => numbered_of_move hmove hg) fd

/-- Below 2⁶⁴ the numbers are the natural ones. -/
theorem Numbered.toNat (h : Numbered fd g) (hsmall : g.sent < 2 ^ 64) :
    (statusesOf fd g.trace).map (fun status => status.sequence.toNat) =
      List.range' 1 (statusesOf fd g.trace).length := by
  have hcount := h.count
  have hnats := congrArg (List.map UInt64.toNat) h.sequences
  rw [List.map_map, List.map_map] at hnats
  rw [List.range'_eq_map_range]
  refine hnats.trans (List.map_congr_left fun k hk => ?_)
  have hlt := List.mem_range.mp hk
  show (UInt64.ofNat (k + 1)).toNat = 1 + k
  rw [UInt64.toNat_ofNat']
  omega

/-- **The accounts of the load generator.**  Every STATUS that was counted is answered, waits
or was lost with its client.  The lines on the socket of a client are the STATUS lines that
it sent, they carry 1, 2, 3, ..., and the sequence of the client is their number. -/
theorem GenRun.accounting (h : GenRun options clients errors connectedMs steps g) :
    g.sent = g.latencies.length + waitingCount g + lostCount g ∧
    ∀ fd,
      frames newline (sentBy fd g.trace) = (statusesOf fd g.trace).map makeStatusLine ∧
      remainder newline (sentBy fd g.trace) = [] ∧
      (statusesOf fd g.trace).map ClientState.sequence =
        (List.range (statusesOf fd g.trace).length).map (fun k => UInt64.ofNat (k + 1)) ∧
      (∀ client, g.clients.lookup fd = some client →
        client.sequence = UInt64.ofNat (statusesOf fd g.trace).length) ∧
      (g.sent < 2 ^ 64 →
        (statusesOf fd g.trace).map (fun status => status.sequence.toNat) =
          List.range' 1 (statusesOf fd g.trace).length ∧
        ∀ client, g.clients.lookup fd = some client →
          client.sequence.toNat = (statusesOf fd g.trace).length) := by
  refine ⟨h.balance, fun fd => ?_⟩
  have hnumbered := h.numbered fd
  have hlines : ∀ line ∈ (statusesOf fd g.trace).map makeStatusLine, IsFrame newline line := by
    intro line hline
    obtain ⟨status, -, rfl⟩ := List.mem_map.mp hline
    exact isFrame_makeStatusLine status
  have hbytes : sentBy fd g.trace = ((statusesOf fd g.trace).map makeStatusLine).flatten :=
    List.flatMap_def
  have hsequence := fun client hlookup => (hnumbered.client client hlookup).2
  have hframes :
      frames newline (sentBy fd g.trace) = (statusesOf fd g.trace).map makeStatusLine := by
    rw [hbytes, frames_flatten hlines]
  refine ⟨hframes, ?_, hnumbered.sequences, hsequence, fun hsmall => ⟨hnumbered.toNat hsmall, ?_⟩⟩
  · have hsplit := flatten_frames_append_remainder newline (sentBy fd g.trace)
    rw [hframes, ← hbytes] at hsplit
    exact List.append_right_eq_self.mp hsplit
  · intro client hlookup
    have hcount := hnumbered.count
    rw [hsequence client hlookup, UInt64.toNat_ofNat']
    omega

/-- Two lines of one client, with a full socket between them and an ACK. -/
theorem GenRun.accounting_two :
    ∃ (steps : List Step) (g : Loadgen), GenRun soleOptions soleClients 0 0 steps g ∧
      (statusesOf 3 g.trace).length = 2 ∧
      g.sent = g.latencies.length + waitingCount g + lostCount g ∧
      ∀ fd,
        frames newline (sentBy fd g.trace) = (statusesOf fd g.trace).map makeStatusLine ∧
        remainder newline (sentBy fd g.trace) = [] ∧
        (statusesOf fd g.trace).map ClientState.sequence =
          (List.range (statusesOf fd g.trace).length).map (fun k => UInt64.ofNat (k + 1)) ∧
        (∀ client, g.clients.lookup fd = some client →
          client.sequence = UInt64.ofNat (statusesOf fd g.trace).length) ∧
        (g.sent < 2 ^ 64 →
          (statusesOf fd g.trace).map (fun status => status.sequence.toNat) =
            List.range' 1 (statusesOf fd g.trace).length ∧
          ∀ client, g.clients.lookup fd = some client →
            client.sequence.toNat = (statusesOf fd g.trace).length) := by
  obtain ⟨g, hrun, hg⟩ := exists_genRun connected_sole 0
    [ .tick 0 500, .send ⟨500, .room 1000⟩,
      .event ⟨3, false, true, 510, [ascii "ACK device_id=load-0 seq=1 server_ms=9\n"],
        .failed .EAGAIN⟩,
      .send ⟨520, .failed .EAGAIN⟩, .send ⟨530, .room 1000⟩ ]
    (P := fun g => (statusesOf 3 g.trace).length = 2) (by decide +kernel)
  exact ⟨_, g, hrun, of_decide_eq_true hg, hrun.accounting⟩

end Loadgen
end RemoteDeviceConsole
