import RemoteDeviceConsole.Loadgen.Connect

/-!
# What `connect_clients` returns

A client starts in phase `Connecting` and leaves it with the first event that settles its
connection, whichever way.  `ConnectTally` is the invariant of the loop: the clients of the
map and the errors together are the opened sockets, and the clients that still connect are
the opened sockets without a settling event.

The loop has two exits.  When all clients are ready nothing is left to settle.  When an
`epoll_wait` brings no event, the loop adds the number of clients to the errors and returns
with the map as it is: with clients that are still connecting, which the main loop never
makes ready, and with ready ones that are now counted as failed.
`connectClients_settled_iff` says when each exit is taken.
-/

namespace RemoteDeviceConsole
namespace Loadgen

open Framing Machine

/-- No two of the sockets are the same: they are open at the same time. -/
def FreshSockets (options : Options) (answers : ℕ → SocketAnswers) : Prop :=
  ∀ i j : ℕ, i < options.connections → j < options.connections →
    ∀ fd, (answers i).socket = .ok fd → (answers j).socket = .ok fd → i = j

/-- The event ends the connecting of its client, ready or failed. -/
def ConnectEvent.settles (event : ConnectEvent) : Bool := event.errorOrHangup || event.writable

/-- The events up to the first `epoll_wait` that brings none. -/
def servedEvents : List ConnectWait → List ConnectEvent
  | [] => []
  | .noEvents :: _ => []
  | .ready events :: waits => events ++ servedEvents waits

/-- The connection is still open for these events. -/
def Unsettled (fd : Fd) (events : List ConnectEvent) : Prop :=
  ∀ event ∈ events, event.fd = fd → event.settles = false

/-- The clients and the errors, after some events. -/
structure ConnectTally (opened : List Fd) (seen : List ConnectEvent) (acc : Clients × ℕ) :
    Prop where
  count : acc.1.entries.length + acc.2 = opened.length
  phase : ∀ fd client, acc.1.lookup fd = some client →
    client.phase = .connecting ∨ client.phase = .ready
  pending : ∀ fd, (∃ client, acc.1.lookup fd = some client ∧ client.phase = .connecting) ↔
    fd ∈ opened ∧ Unsettled fd seen

/-! ## Opening -/

theorem exists_socket_of_openClient {answers : SocketAnswers} {index : ℕ}
    {clients clients' : Clients} (h : openClient answers index clients = .ok clients') :
    ∃ fd, answers.socket = .ok fd ∧
      clients' = if fd ∈ clients then clients else clients.insert fd { fd, index } := by
  have hstart : ∀ fd, startConnect answers = .ok fd → answers.socket = .ok fd := by
    intro fd hfd
    unfold startConnect at hfd
    split at hfd
    · exact absurd hfd (by simp)
    · next fd' hsocket =>
      split at hfd
      · exact absurd hfd (by simp)
      · split at hfd
        · exact absurd hfd (by simp)
        · split at hfd
          · rw [hsocket, Except.ok.inj hfd]
          · split at hfd
            · exact absurd hfd (by simp)
            · rw [hsocket, Except.ok.inj hfd]
  unfold openClient at h
  split at h
  · exact absurd h (by simp)
  · next fd hfd =>
    refine ⟨fd, hstart fd hfd, ?_⟩
    dsimp only at h
    split at h
    · exact absurd h (by simp)
    · exact (Except.ok.inj h).symm

/-- The clients are the opened sockets, all of them connecting. -/
structure Opened (opened : List Fd) (clients : Clients) : Prop where
  length : clients.entries.length = opened.length
  mem : ∀ fd, fd ∈ clients ↔ fd ∈ opened
  phase : ∀ fd client, clients.lookup fd = some client → client.phase = .connecting

theorem Opened.insert {opened : List Fd} {clients : Clients} (h : Opened opened clients) {fd : Fd}
    (hfd : fd ∉ opened) (index : ℕ) :
    Opened (opened ++ [fd]) (clients.insert fd { fd, index }) := by
  have hnot : fd ∉ clients := fun hmem => hfd ((h.mem fd).mp hmem)
  refine ⟨?_, fun other => ?_, fun other client hclient => ?_⟩
  · rw [AList.entries_insert_of_notMem hnot, List.length_cons, List.length_append, h.length]
    rfl
  · rw [AList.mem_insert, h.mem, List.mem_append, List.mem_singleton, or_comm]
  · by_cases hother : other = fd
    · subst hother
      rw [AList.lookup_insert, Option.some.injEq] at hclient
      rw [← hclient]
    · rw [AList.lookup_insert_ne hother] at hclient
      exact h.phase other client hclient

/-- **What the loop that opens the clients leaves**: one client for each connection. -/
theorem opened_openClients {options : Options} {answers : ℕ → SocketAnswers} {clients : Clients}
    (hfresh : FreshSockets options answers) (h : openClients options answers = .ok clients) :
    ∃ opened : List Fd, opened.length = options.connections.toNat ∧
      (∀ fd, fd ∈ opened ↔ ∃ i < options.connections.toNat, (answers i).socket = .ok fd) ∧
      Opened opened clients := by
  have hfold : ∀ n : ℕ, n ≤ options.connections.toNat → ∀ clients : Clients,
      (List.range n).foldlM
        (fun clients index => openClient (answers index) index clients) ∅ = .ok clients →
      ∃ opened : List Fd, opened.length = n ∧
        (∀ fd, fd ∈ opened ↔ ∃ i < n, (answers i).socket = .ok fd) ∧ Opened opened clients := by
    intro n
    induction n with
    | zero =>
      intro _ clients hok
      have heq : ∅ = clients := by simpa [pure, Except.pure] using hok
      subst heq
      exact ⟨[], rfl, by simp, rfl, by simp, by simp⟩
    | succ n ih =>
      intro hn clients hok
      simp only [List.range_succ, List.foldlM_append, List.foldlM_cons, List.foldlM_nil,
        bind_pure] at hok
      cases hbefore : (List.range n).foldlM
          (fun clients index => openClient (answers index) index clients) (∅ : Clients) with
      | error e =>
        rw [hbefore] at hok
        exact absurd hok (by simp [bind, Except.bind])
      | ok before =>
        rw [hbefore] at hok
        obtain ⟨opened, hlength, hopened, hbefore'⟩ := ih (by omega) before hbefore
        obtain ⟨fd, hsocket, heq⟩ := exists_socket_of_openClient hok
        have hnew : fd ∉ opened := by
          intro hmem
          obtain ⟨i, hi, hother⟩ := (hopened fd).mp hmem
          have hsame : i = n := hfresh i n (by omega) (by omega) fd hother hsocket
          omega
        rw [if_neg fun hmem => hnew ((hbefore'.mem fd).mp hmem)] at heq
        subst heq
        refine ⟨opened ++ [fd], by simp [hlength], fun other => ?_, hbefore'.insert hnew n⟩
        rw [List.mem_append, hopened, List.mem_singleton]
        constructor
        · rintro (⟨i, hi, hother⟩ | rfl)
          · exact ⟨i, by omega, hother⟩
          · exact ⟨n, by omega, hsocket⟩
        · rintro ⟨i, hi, hother⟩
          rcases Nat.lt_succ_iff_lt_or_eq.mp hi with hlt | rfl
          · exact Or.inl ⟨i, hlt, hother⟩
          · exact Or.inr (Except.ok.inj (hother.symm.trans hsocket))
  exact hfold _ (Nat.le_refl _) clients h

theorem Opened.tally {opened : List Fd} {clients : Clients} (h : Opened opened clients) :
    ConnectTally opened [] (clients, 0) where
  count := by rw [h.length, Nat.add_zero]
  phase fd client hclient := Or.inl (h.phase fd client hclient)
  pending fd := by
    rw [← h.mem]
    constructor
    · rintro ⟨client, hclient, -⟩
      exact ⟨AList.lookup_isSome.mp (by rw [hclient]; rfl), by simp [Unsettled]⟩
    · rintro ⟨hmem, -⟩
      obtain ⟨client, hclient⟩ := Option.isSome_iff_exists.mp (AList.lookup_isSome.mpr hmem)
      exact ⟨client, hclient, h.phase fd client hclient⟩

/-! ## Events -/

/-- **What an event does to its client.**  It fails, or becomes or stays ready, or is still
connecting because the event settles nothing. -/
theorem connectEvent_cases (event : ConnectEvent) {client : ClientState}
    (hphase : client.phase = .connecting ∨ client.phase = .ready) :
    (∃ e, connectEvent event client = .error e ∧ event.settles = true) ∨
    (∃ client', connectEvent event client = .ok client' ∧ client'.phase = .ready ∧
      (client.phase = .ready ∨ event.settles = true)) ∨
    (connectEvent event client = .ok client ∧ client.phase = .connecting ∧
      event.settles = false) := by
  unfold connectEvent ConnectEvent.settles
  by_cases herror : event.errorOrHangup = true
  · exact Or.inl ⟨_, if_pos herror, by simp [herror]⟩
  rw [if_neg herror]
  by_cases hopen : client.phase = .connecting ∧ event.writable = true
  · rw [if_pos hopen]
    cases event.finishConnect with
    | error errno => exact Or.inl ⟨_, rfl, by simp [hopen.2]⟩
    | ok connected =>
      cases connected with
      | false => exact Or.inl ⟨_, rfl, by simp [hopen.2]⟩
      | true =>
        cases event.modEpollFd with
        | some errno => exact Or.inl ⟨_, rfl, by simp [hopen.2]⟩
        | none => exact Or.inr (Or.inl ⟨_, rfl, rfl, Or.inr (by simp [hopen.2])⟩)
  · rw [if_neg hopen]
    rcases hphase with hconnecting | hready
    · have hquiet : event.writable = false := by
        simpa [hconnecting] using hopen
      exact Or.inr (Or.inr ⟨rfl, hconnecting, by simp [herror, hquiet]⟩)
    · exact Or.inr (Or.inl ⟨client, rfl, hready, Or.inl hready⟩)

theorem unsettled_append {fd : Fd} {seen : List ConnectEvent} {event : ConnectEvent} :
    Unsettled fd (seen ++ [event]) ↔
      Unsettled fd seen ∧ (event.fd = fd → event.settles = false) := by
  rw [Unsettled, Unsettled, List.forall_mem_append, List.forall_mem_singleton]

section Tally

variable {opened : List Fd} {seen : List ConnectEvent} {acc : Clients × ℕ} {event : ConnectEvent}

/-- A client with an event of another one is pending when it was before. -/
theorem ConnectTally.pending_of_ne (h : ConnectTally opened seen acc) {clients : Clients} {fd : Fd}
    (hfd : fd ≠ event.fd) (hsame : clients.lookup fd = acc.1.lookup fd) :
    (∃ client, clients.lookup fd = some client ∧ client.phase = .connecting) ↔
      fd ∈ opened ∧ Unsettled fd (seen ++ [event]) := by
  rw [hsame, h.pending, unsettled_append, and_iff_left fun heq => absurd heq.symm hfd]

/-- The event of a socket that is closed. -/
theorem ConnectTally.closed (h : ConnectTally opened seen acc)
    (hlookup : acc.1.lookup event.fd = none) : ConnectTally opened (seen ++ [event]) acc := by
  refine ⟨h.count, h.phase, fun fd => ?_⟩
  by_cases hfd : fd = event.fd
  · subst hfd
    have hnone := h.pending event.fd
    rw [hlookup] at hnone
    simp only [hlookup, reduceCtorEq, false_and, exists_false, false_iff] at hnone ⊢
    exact fun hmem => hnone ⟨hmem.1, (unsettled_append.mp hmem.2).1⟩
  · exact h.pending_of_ne hfd rfl

/-- A client that fails is removed and counted. -/
theorem ConnectTally.failed (h : ConnectTally opened seen acc) {client : ClientState}
    (hlookup : acc.1.lookup event.fd = some client) (hsettles : event.settles = true) :
    ConnectTally opened (seen ++ [event]) (acc.1.erase event.fd, acc.2 + 1) := by
  refine ⟨?_, fun fd other hfd => ?_, fun fd => ?_⟩
  · have hcount := h.count
    have hlength := length_erase hlookup
    show (acc.1.erase event.fd).entries.length + (acc.2 + 1) = opened.length
    omega
  · by_cases heq : fd = event.fd
    · rw [heq, AList.lookup_erase] at hfd
      exact absurd hfd (by simp)
    · exact h.phase fd other (by rwa [AList.lookup_erase_ne heq] at hfd)
  · by_cases heq : fd = event.fd
    · subst heq
      have hnone : (acc.1.erase event.fd).lookup event.fd = none := AList.lookup_erase _ _
      simp only [hnone, reduceCtorEq, false_and, exists_false, false_iff]
      exact fun hmem => absurd ((unsettled_append.mp hmem.2).2 rfl) (by simp [hsettles])
    · exact h.pending_of_ne heq (AList.lookup_erase_ne heq)

/-- A client that stays, and is connecting afterwards when it was and the event settled
nothing. -/
theorem ConnectTally.stays (h : ConnectTally opened seen acc) {client client' : ClientState}
    (hlookup : acc.1.lookup event.fd = some client)
    (hphase : client'.phase = .connecting ∨ client'.phase = .ready)
    (hconnecting : client'.phase = .connecting ↔
      client.phase = .connecting ∧ event.settles = false) :
    ConnectTally opened (seen ++ [event]) (acc.1.replace event.fd client', acc.2) := by
  refine ⟨?_, fun fd other hfd => ?_, fun fd => ?_⟩
  · rw [length_replace hlookup client']
    exact h.count
  · by_cases heq : fd = event.fd
    · subst heq
      rw [lookup_replace_self hlookup, Option.some.injEq] at hfd
      exact hfd ▸ hphase
    · exact h.phase fd other (by rwa [lookup_replace_of_ne heq] at hfd)
  · by_cases heq : fd = event.fd
    · subst heq
      have hself := lookup_replace_self hlookup client'
      have hbefore := h.pending event.fd
      simp only [hlookup, Option.some.injEq, exists_eq_left'] at hbefore
      simp only [hself, Option.some.injEq, exists_eq_left', hconnecting, hbefore,
        unsettled_append, forall_const, and_assoc]
    · exact h.pending_of_ne heq (lookup_replace_of_ne heq client')

/-- **One event keeps the tally.** -/
theorem ConnectTally.handleConnectEvent (h : ConnectTally opened seen acc) (event : ConnectEvent) :
    ConnectTally opened (seen ++ [event]) (handleConnectEvent acc event) := by
  rw [Loadgen.handleConnectEvent]
  cases hlookup : acc.1.lookup event.fd with
  | none => exact h.closed hlookup
  | some client =>
    rcases connectEvent_cases event (h.phase _ client hlookup) with
      ⟨e, he, hsettles⟩ | ⟨client', hok, hready, hsettles⟩ | ⟨hok, hconnecting, hquiet⟩
    · simp only [he]
      exact h.failed hlookup hsettles
    · simp only [hok]
      refine h.stays hlookup (Or.inr hready) (iff_of_false (by simp [hready]) ?_)
      rintro ⟨hconnecting, hquiet⟩
      rcases hsettles with hphase | hsettles
      · rw [hphase] at hconnecting
        exact absurd hconnecting (by simp)
      · rw [hsettles] at hquiet
        exact absurd hquiet (by simp)
    · simp only [hok]
      exact h.stays hlookup (Or.inl hconnecting)
        (iff_of_true hconnecting ⟨hconnecting, hquiet⟩)

end Tally

theorem ConnectTally.foldl {opened : List Fd} {seen : List ConnectEvent} {acc : Clients × ℕ}
    (h : ConnectTally opened seen acc) (events : List ConnectEvent) :
    ConnectTally opened (seen ++ events) (events.foldl Loadgen.handleConnectEvent acc) := by
  induction events generalizing seen acc with
  | nil => simpa using h
  | cons event events ih => simpa using ih (h.handleConnectEvent event)

/-! ## The two exits -/

theorem allReady_iff {clients : Clients} :
    allReady clients = true ↔
      ∀ fd client, clients.lookup fd = some client → client.phase = .ready := by
  rw [allReady, List.all_eq_true]
  constructor
  · intro h fd client hclient
    simpa using h ⟨fd, client⟩ (AList.mem_lookup_iff.mp hclient)
  · rintro h ⟨fd, client⟩ hmem
    simpa using h fd client (AList.mem_lookup_iff.mpr hmem)

/-- All clients are ready when no opened socket is unsettled. -/
theorem ConnectTally.allReady_iff {opened : List Fd} {seen : List ConnectEvent}
    {acc : Clients × ℕ} (h : ConnectTally opened seen acc) :
    allReady acc.1 = true ↔ ∀ fd ∈ opened, ¬ Unsettled fd seen := by
  rw [Loadgen.allReady_iff]
  constructor
  · intro hready fd hfd hunsettled
    obtain ⟨client, hclient, hphase⟩ := (h.pending fd).mpr ⟨hfd, hunsettled⟩
    exact absurd (hready fd client hclient) (by simp [hphase])
  · intro hsettled fd client hclient
    rcases h.phase fd client hclient with hphase | hphase
    · obtain ⟨hfd, hunsettled⟩ := (h.pending fd).mp ⟨client, hclient, hphase⟩
      exact absurd hunsettled (hsettled fd hfd)
    · exact hphase

theorem Unsettled.of_append {fd : Fd} {seen more : List ConnectEvent}
    (h : Unsettled fd (seen ++ more)) : Unsettled fd seen :=
  fun event hevent => h event (List.mem_append_left _ hevent)

/-- **How the loop returns.**  Either every socket was settled, and the tally holds, or an
`epoll_wait` without events came before, and some client is not ready. -/
theorem ConnectTally.connectLoop {opened : List Fd} {seen : List ConnectEvent}
    {acc result : Clients × ℕ} {waits : List ConnectWait} (h : ConnectTally opened seen acc)
    (hloop : connectLoop acc waits = some result) :
    (∀ fd ∈ opened, ¬ Unsettled fd (seen ++ servedEvents waits)) ∧ allReady result.1 = true ∧
        result.1.entries.length + result.2 = opened.length ∨
      (∃ fd ∈ opened, Unsettled fd (seen ++ servedEvents waits)) ∧ allReady result.1 = false := by
  -- the exit at which all are ready; what is served afterwards settles nothing back
  have hexit : ∀ {seen : List ConnectEvent} {acc : Clients × ℕ} {more : List ConnectEvent},
      ConnectTally opened seen acc → allReady acc.1 = true →
      (∀ fd ∈ opened, ¬ Unsettled fd (seen ++ more)) ∧ allReady acc.1 = true ∧
        acc.1.entries.length + acc.2 = opened.length :=
    fun htally hready => ⟨fun fd hfd hunsettled =>
      htally.allReady_iff.mp hready fd hfd hunsettled.of_append, hready, htally.count⟩
  induction waits generalizing seen acc with
  | nil =>
    rw [Loadgen.connectLoop] at hloop
    split at hloop
    · next hready =>
      obtain rfl := Option.some.inj hloop
      exact Or.inl (hexit h hready)
    · exact absurd hloop (by simp)
  | cons wait waits ih =>
    cases wait with
    | noEvents =>
      rw [Loadgen.connectLoop] at hloop
      split at hloop
      · next hready =>
        obtain rfl := Option.some.inj hloop
        exact Or.inl (hexit h hready)
      · next hready =>
        obtain rfl := Option.some.inj hloop
        refine Or.inr ⟨?_, by simpa using hready⟩
        rw [h.allReady_iff] at hready
        simpa [servedEvents] using hready
    | ready events =>
      rw [Loadgen.connectLoop] at hloop
      split at hloop
      · next hready =>
        obtain rfl := Option.some.inj hloop
        exact Or.inl (hexit h hready)
      · have hrest := ih (h.foldl events) hloop
        rwa [List.append_assoc] at hrest

/-- **When every connection is accounted for.**  `connect_clients` returns with ready
clients only, which together with the errors are the requested connections, exactly when
every socket has an event that settles it before the first `epoll_wait` without events. -/
theorem connectClients_settled_iff {options : Options} {answers : ℕ → SocketAnswers}
    {waits : List ConnectWait} {clients : Clients} {errors : ℕ} (hpos : 0 < options.connections)
    (hfresh : FreshSockets options answers)
    (h : connectClients options answers waits = .ok (some (clients, errors))) :
    ((∀ fd client, clients.lookup fd = some client → client.phase = .ready) ∧
        (errors : ℤ) + clients.entries.length = options.connections) ↔
      ∀ i : ℕ, i < options.connections → ∀ fd, (answers i).socket = .ok fd →
        ∃ event ∈ servedEvents waits, event.fd = fd ∧ event.settles = true := by
  unfold connectClients at h
  cases hopen : openClients options answers with
  | error e =>
    rw [hopen] at h
    exact absurd h (by simp [Except.map])
  | ok start =>
    obtain ⟨opened, hlength, hopened, hstart⟩ := opened_openClients hfresh hopen
    have hloop : connectLoop (start, 0) waits = some (clients, errors) := by
      rw [hopen] at h
      simpa [Except.map] using h
    have hsettled : (∀ i : ℕ, i < options.connections → ∀ fd, (answers i).socket = .ok fd →
        ∃ event ∈ servedEvents waits, event.fd = fd ∧ event.settles = true) ↔
        ∀ fd ∈ opened, ¬ Unsettled fd (servedEvents waits) := by
      simp only [hopened, Unsettled, not_forall, Bool.not_eq_false, exists_prop]
      constructor
      · rintro hall fd ⟨i, hi, hfd⟩
        exact hall i (by omega) fd hfd
      · intro hall i hi fd hfd
        exact hall fd ⟨i, by omega, hfd⟩
    rw [hsettled, ← allReady_iff]
    rcases hstart.tally.connectLoop hloop with ⟨hall, hready, hcount⟩ | ⟨⟨fd, hfd, hno⟩, hnot⟩
    · dsimp only at hcount hready
      exact iff_of_true ⟨hready, by omega⟩ hall
    · refine iff_of_false (fun hboth => ?_) fun hall => hall fd hfd hno
      rw [show allReady clients = false from hnot] at hboth
      exact absurd hboth.1 (by simp)

/-- Two connections to the loopback address. -/
def pairOptions : Options := ⟨ascii "127.0.0.1", 5000, 2, 10, 1⟩

def pairAnswers (index : ℕ) : SocketAnswers :=
  ⟨.ok (3 + index), none, true, some .EINPROGRESS, none⟩

theorem freshSockets_pair : FreshSockets pairOptions pairAnswers := by
  intro i j _ _ fd hi hj
  have hsame : 3 + i = 3 + j := Except.ok.inj (hi.trans hj.symm)
  omega

/-- One of the two connections is refused, the other one is ready. -/
theorem connectClients_settled_iff_refused :
    let waits := [ConnectWait.ready [⟨3, false, true, .ok true, none⟩],
      .ready [⟨4, true, false, .ok true, none⟩]]
    ∃ clients errors, connectClients pairOptions pairAnswers waits = .ok (some (clients, errors)) ∧
      (((∀ fd client, clients.lookup fd = some client → client.phase = .ready) ∧
          (errors : ℤ) + clients.entries.length = pairOptions.connections) ↔
        ∀ i : ℕ, i < pairOptions.connections → ∀ fd, (pairAnswers i).socket = .ok fd →
          ∃ event ∈ servedEvents waits, event.fd = fd ∧ event.settles = true) :=
  ⟨_, _, rfl, connectClients_settled_iff (by decide) freshSockets_pair rfl⟩

/-- One of the two connections is ready when an `epoll_wait` times out: the loop returns
with both clients, one of them still connecting, and counts two errors. -/
theorem connectClients_quiet :
    0 < pairOptions.connections ∧ FreshSockets pairOptions pairAnswers ∧
    ∃ clients errors, connectClients pairOptions pairAnswers
        [.ready [⟨3, false, true, .ok true, none⟩], .noEvents] = .ok (some (clients, errors)) ∧
      (clients.lookup 4).map ClientState.phase = some .connecting ∧
      (errors : ℤ) + clients.entries.length = 4 ∧
      ¬ ((∀ fd client, clients.lookup fd = some client → client.phase = .ready) ∧
        (errors : ℤ) + clients.entries.length = pairOptions.connections) := by
  refine ⟨by decide, freshSockets_pair, _, _, rfl, by decide +kernel, by decide +kernel, ?_⟩
  rintro ⟨-, hsum⟩
  exact absurd hsum (by decide +kernel)

end Loadgen
end RemoteDeviceConsole
