import RemoteDeviceConsole.Loadgen.ConnectOutcome
import RemoteDeviceConsole.Loadgen.Sequences
import RemoteDeviceConsole.Machine.Rotation

/-!
# Even load

The sending loop takes the client at `next_client_index % clients.size()` in the order of the
map, and moves the index on only when its line went out.  As long as no client is closed the
order stays as it is (`Rotating`), so the lines go to the clients in strict rotation, whatever
clients are not ready and whatever sockets are full in between, and the sequence of a client
is the number of turns it has had.

The index and the number of messages are the same number, which is what makes the rotation a
statement about the trace: message `k` is the one of turn `k`.  A client that is closed breaks
this, because the index is taken modulo a smaller number from then on.  Replacing a client
keeps its place in the map, so an event keeps the order unless it closes a client, and that
can be seen from the trace of the last state alone (`trace_prefix_of_step`).
-/

namespace RemoteDeviceConsole
namespace Loadgen

open Framing Machine

variable {options : Options} {clients : Clients} {errors : ℕ} {connectedMs : UInt64}
  {steps : List Step} {g g' : Loadgen} {order : List Fd}

/-- The clients whose lines went out, in this order. -/
def sendOrder (trace : List Action) : List Fd :=
  trace.filterMap fun
    | .status client => some client.fd
    | _ => none

/-- The entry is a client that was closed. -/
def Action.isClosed : Action → Bool
  | .closed _ => true
  | _ => false

@[simp] theorem sendOrder_append (a b : List Action) :
    sendOrder (a ++ b) = sendOrder a ++ sendOrder b :=
  List.filterMap_append ..

/-- The lines of one client among all. -/
theorem count_sendOrder (fd : Fd) (trace : List Action) :
    (sendOrder trace).count fd = (statusesOf fd trace).length := by
  induction trace with
  | nil => rfl
  | cons x trace ih =>
    have hsplit : x :: trace = [x] ++ trace := rfl
    rw [hsplit, sendOrder_append, statusesOf_append, List.count_append, List.length_append, ih,
      Nat.add_right_cancel_iff]
    cases x with
    | status client =>
      by_cases hfd : client.fd = fd <;> simp [sendOrder, statusesOf, hfd]
    | _ => rfl

/-- The clients are in this order, and the lines went out in rotation. -/
structure Rotating (order : List Fd) (g : Loadgen) : Prop where
  keys : g.clients.keys = order
  index : g.nextClientIndex = g.sent
  sends : (sendOrder g.trace).map some =
    (List.range g.sent).map fun k => order[k % order.length]?

/-- The client that a round of the sending loop looks at. -/
theorem getElem?_keys_of_entry {fd : Fd} {client : ClientState} {i : ℕ}
    (h : g.clients.entries[i % g.clients.entries.length]? = some ⟨fd, client⟩) :
    g.clients.keys[i % g.clients.keys.length]? = some fd := by
  have hkeys : g.clients.keys = g.clients.entries.map Sigma.fst := rfl
  rw [hkeys, List.length_map, List.getElem?_map, h]
  rfl

/-- **A round of the sending loop keeps the rotation.** -/
theorem Rotating.sendRound (h : Rotating order g) (hnumbered : ∀ fd, Numbered fd g) {env : SendEnv}
    {goesOn : Bool} (hok : sendRound env g = .ok (goesOn, g')) : Rotating order g' := by
  rw [Loadgen.sendRound] at hok
  split at hok
  · rwa [← (Prod.mk.inj (Except.ok.inj hok)).2]
  · next fd client hentry =>
    have hlookup : g.clients.lookup fd = some client :=
      AList.mem_lookup_iff.mpr (List.mem_of_getElem? hentry)
    have hturn := getElem?_keys_of_entry hentry
    rw [h.keys, h.index] at hturn
    split at hok
    · split at hok
      · exact absurd hok (by simp)
      · next client' hsend =>
        obtain ⟨-, rfl⟩ | ⟨hfalse, -⟩ := sendStatus_cases hsend
        · have hfd : (sentClient env.nowMs client).fd = fd :=
            ((hnumbered fd).client client hlookup).1
          rw [← (Prod.mk.inj (Except.ok.inj hok)).2]
          refine ⟨(AList.keys_replace _ _ _).trans h.keys, congrArg (· + 1) h.index, ?_⟩
          rw [sendOrder_append, List.map_append, h.sends, List.range_succ, List.map_append,
            List.map_singleton, hturn]
          simp [sendOrder, hfd]
        · exact absurd hfalse (by simp)
      · rw [← (Prod.mk.inj (Except.ok.inj hok)).2]
        exact ⟨(AList.keys_replace _ _ _).trans h.keys, h.index, h.sends⟩
    · rwa [← (Prod.mk.inj (Except.ok.inj hok)).2]

/-- An event that closes no client keeps the order. -/
theorem Rotating.event (h : Rotating order g) {event : SocketEvent}
    (hopen : ∀ x ∈ (handleEvent g event).trace, x.isClosed = false) :
    Rotating order (handleEvent g event) := by
  obtain ⟨-, hsent, -, hindex⟩ := handleEvent_sending g event
  have hmove := move_handleEvent g event
  generalize handleEvent g event = g' at *
  cases hmove with
  | idle => exact h
  | ticked currentMs credit => exact ⟨h.keys, h.index, h.sends⟩
  | sent fd client nowMs hlookup hready => exact absurd hsent (by simp)
  | deferred fd client nowMs hlookup hready =>
    exact ⟨(AList.keys_replace _ _ _).trans h.keys, h.index, h.sends⟩
  | buffered fd client data buffer hlookup =>
    refine ⟨(AList.keys_replace _ _ _).trans h.keys, h.index, ?_⟩
    rw [sendOrder_append]
    simpa [sendOrder] using h.sends
  | acked fd client data line buffer nowMs hlookup hwaiting =>
    refine ⟨(AList.keys_replace _ _ _).trans h.keys, h.index, ?_⟩
    rw [sendOrder_append]
    simpa [sendOrder] using h.sends
  | closed fd client hlookup =>
    exact absurd (hopen (.closed client) (by simp)) (by simp [Action.isClosed])

/-- A step only adds to the trace. -/
theorem trace_prefix_of_step {st : Step} (h : step options connectedMs g st = .ok g') :
    g.trace <+: g'.trace := by
  cases move_of_step h with
  | idle => exact List.prefix_rfl
  | ticked currentMs credit => exact List.prefix_rfl
  | deferred fd client nowMs hlookup hready => exact List.prefix_rfl
  | sent fd client nowMs hlookup hready => exact List.prefix_append _ _
  | buffered fd client data buffer hlookup => exact List.prefix_append _ _
  | acked fd client data line buffer nowMs hlookup hwaiting => exact List.prefix_append _ _
  | closed fd client hlookup => exact List.prefix_append _ _

/-- **The rotation of a run** in which no client is closed. -/
theorem GenRun.rotating (h : GenRun options clients errors connectedMs steps g)
    (hopen : ∀ x ∈ g.trace, x.isClosed = false) : Rotating clients.keys g := by
  obtain ⟨hconnected, hrun⟩ := h
  induction hrun with
  | nil => exact ⟨rfl, rfl, rfl⟩
  | @snoc steps g g' st hrun henabled hok ih =>
    have hbefore := ih fun x hx => hopen x ((trace_prefix_of_step hok).subset hx)
    cases st with
    | tick guardMs currentMs =>
      rw [← Except.ok.inj hok]
      exact ⟨hbefore.keys, hbefore.index, hbefore.sends⟩
    | send env =>
      obtain ⟨goesOn, hround⟩ := exists_sendRound_of_step hok
      have hnumbered := GenRun.numbered ⟨hconnected, hrun⟩
      exact hbefore.sendRound hnumbered hround
    | event event =>
      rw [← Except.ok.inj hok] at hopen ⊢
      exact hbefore.event hopen

/-- The lines of a client are its turns. -/
theorem Rotating.length_statusesOf (h : Rotating order g) {i : ℕ} {fd : Fd}
    (hi : order[i]? = some fd) :
    (statusesOf fd g.trace).length = turns order.length i g.sent := by
  have hnodup : order.Nodup := h.keys ▸ g.clients.keys_nodup
  rw [← count_sendOrder, ← count_map_getElem?_mod hnodup hi, ← h.sends]
  exact (List.count_map_of_injective _ some (Option.some_injective _) fd).symm

/-- Every client has its place in the order. -/
theorem Rotating.exists_place (h : Rotating order g) {fd : Fd} {client : ClientState}
    (hlookup : g.clients.lookup fd = some client) : ∃ i : ℕ, order[i]? = some fd := by
  have hmem : fd ∈ g.clients.keys :=
    AList.mem_keys.mpr (AList.lookup_isSome.mp (by simp [hlookup]))
  rw [h.keys] at hmem
  exact List.mem_iff_getElem?.mp hmem

/-- **Even load.**  As long as no client is closed the clients stay in their order, the index
is the number of messages, and the messages go to the clients in strict rotation.  So no client
has sent more than one line more than another; the sequence of a client is the number of its
lines, and the sequences of two clients are the same or neighbours.  (They are numbers modulo
`2 ^ 64`, which `sent`, an `int` in the program, never gets to.) -/
theorem GenRun.even_load (h : GenRun options clients errors connectedMs steps g)
    (hopen : ∀ x ∈ g.trace, x.isClosed = false) :
    g.clients.keys = clients.keys ∧ g.nextClientIndex = g.sent ∧
    (sendOrder g.trace).map some =
      (List.range g.sent).map (fun k => clients.keys[k % clients.keys.length]?) ∧
    ∀ fd fd' client client', g.clients.lookup fd = some client →
      g.clients.lookup fd' = some client' →
      client.sequence = UInt64.ofNat (statusesOf fd g.trace).length ∧
      (statusesOf fd g.trace).length ≤ (statusesOf fd' g.trace).length + 1 ∧
      (client.sequence = client'.sequence ∨ client.sequence = client'.sequence + 1 ∨
        client'.sequence = client.sequence + 1) ∧
      (g.sent < 2 ^ 64 → client.sequence.toNat ≤ client'.sequence.toNat + 1) := by
  have hrotating := h.rotating hopen
  refine ⟨hrotating.keys, hrotating.index, hrotating.sends, ?_⟩
  intro fd fd' client client' hlookup hlookup'
  obtain ⟨i, hi⟩ := hrotating.exists_place hlookup
  obtain ⟨j, hj⟩ := hrotating.exists_place hlookup'
  have hij := turns_le_turns_add_one clients.keys.length i j g.sent
  have hji := turns_le_turns_add_one clients.keys.length j i g.sent
  rw [← hrotating.length_statusesOf hi, ← hrotating.length_statusesOf hj] at hij hji
  have hle := (h.numbered fd).count
  have hle' := (h.numbered fd').count
  rw [((h.numbered fd).client client hlookup).2, ((h.numbered fd').client client' hlookup').2]
  generalize (statusesOf fd g.trace).length = a at *
  generalize (statusesOf fd' g.trace).length = b at *
  have hnext : ∀ m : ℕ, UInt64.ofNat (m + 1) = UInt64.ofNat m + 1 := fun m => UInt64.ofNat_add m 1
  refine ⟨rfl, hij, ?_, ?_⟩
  · obtain rfl | rfl | rfl : a = b ∨ a = b + 1 ∨ b = a + 1 := by omega
    · exact .inl rfl
    · exact .inr (.inl (hnext b))
    · exact .inr (.inr (hnext a))
  · intro hsmall
    rw [UInt64.toNat_ofNat', UInt64.toNat_ofNat']
    omega

/-- The clients of a test with two connections. -/
def pairClients : Clients :=
  (AList.singleton 3 { fd := 3, index := 0, phase := .ready }).insert 4
    { fd := 4, index := 1, phase := .ready }

theorem connected_pair : Connected pairOptions pairClients 0 :=
  ⟨pairAnswers, [.ready [⟨3, false, true, .ok true, none⟩, ⟨4, false, true, .ok true, none⟩]],
    pairClients, rfl, .refl _⟩

/-- Both clients have sent a line, and the third turn finds the first of them without its
ACK. -/
theorem GenRun.even_load_pair :
    ∃ (steps : List Step) (g : Loadgen), GenRun pairOptions pairClients 0 0 steps g ∧
      g.sent = 2 ∧ g.nextClientIndex = g.sent ∧
      (sendOrder g.trace).map some = [some 4, some 3] := by
  let env : SendEnv := ⟨500, .room 1000⟩
  let steps : List Step := [.tick 0 500, .send env, .send env, .send env, .tick 500 600]
  obtain ⟨g, hrun, hg⟩ := exists_genRun connected_pair 0 steps
    (P := fun g => g.sent = 2 ∧ g.trace.all (!·.isClosed) = true) (by decide +kernel)
  obtain ⟨hsent, hopen⟩ := of_decide_eq_true hg
  have h := hrun.even_load (by simpa using hopen)
  refine ⟨steps, g, hrun, hsent, h.2.1, ?_⟩
  rw [h.2.2.1, hsent]
  rfl

end Loadgen
end RemoteDeviceConsole
