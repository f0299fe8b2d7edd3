import RemoteDeviceConsole.Loadgen.Progress
import RemoteDeviceConsole.Server.Interleavings

/-!
# How old the store is

The store of the server holds one status for each device, and the load generator plays one
device with each of its clients.  A client that has its ACK knows that the server has handled
its line; a client that waits may be one line ahead.

`NetReachable.store_current` says that this is all: as long as the connection is open and no
other one reports the device, the store holds the last STATUS of a client that does not wait,
and the last one or the one before it of a client that does.

It comes in two parts.  `NetReachable.exists_statuses` is about the wire: the lines that the
server has handled of a client are all of its STATUS, or all but the last one, because every ACK
that the client has taken answers a line that was handled.  `Reachable.find_of_session` is about
the store: the last line of a connection is the last line of all connections about its device,
when no other one reports it.  Before the server has handled the first STATUS of a client
neither says anything about the store, and so what is shown is the last of the handled lines,
if there is one.
-/

namespace RemoteDeviceConsole

open Framing Machine
open Loadgen (ClientState deviceIdFor makeStatusLine soleOptions)

variable {D : Type} [CharconvDouble D] {s : Server D} {trace : List Obs} {fd : Fd}
  {obs : List Obs}

/-! ## The store and one connection -/

/-- The current session of a descriptor is one of the connections. -/
theorem mem_connections (h : session fd trace = some obs) :
    ⟨fd, obs, true⟩ ∈ connections trace := by
  have hmem : ⟨fd, obs, true⟩ ∈
      (connections trace).filter fun c => c.isOpen ∧ c.key = fd := by
    rw [connections, filter_sessions, currentOf_eq_session, h]
    exact List.mem_singleton_self _
  exact (List.mem_filter.mp hmem).1

/-- The lines about a device are those of the connection that reports it. -/
theorem Reachable.filter_handledLines (h : Reachable s) (hindependent : Independent D s.trace)
    (hsession : session fd s.trace = some obs) {line : Bytes} (hline : line ∈ linesOf fd obs)
    {deviceId : Bytes} (hreports : reportsDevice D deviceId line = true) :
    (handledLines s.trace).filter (reportsDevice D deviceId) =
      (linesOf fd obs).filter (reportsDevice D deviceId) := by
  rw [handledLines, h.attributed.filter_eq (hindependent.pairwise_filter deviceId)]
  exact flatten_eq_of_mem (hindependent.pairwise_filter deviceId)
    (List.mem_map.mpr ⟨_, mem_connections hsession, rfl⟩)
    (List.ne_nil_of_mem (List.mem_filter.mpr ⟨hline, hreports⟩))

/-- A line reports the device of its status. -/
theorem reportsDevice_of_parse {line : Bytes} {status : DeviceStatus D}
    (hparse : parseStatusLine line = some status) :
    reportsDevice D status.deviceId line = true := by
  simp [reportsDevice, hparse]

/-- **The last line of a connection is in the store**, when no other connection reports its
device. -/
theorem Reachable.find_of_session (h : Reachable s) (hindependent : Independent D s.trace)
    (hsession : session fd s.trace = some obs) {front : List Bytes} {line : Bytes}
    (hlines : linesOf fd obs = front ++ [line]) {status : DeviceStatus D}
    (hparse : parseStatusLine line = some status) :
    s.statusStore.find status.deviceId = some status := by
  have hreports := reportsDevice_of_parse hparse
  have hline : line ∈ linesOf fd obs := by simp [hlines]
  rw [h.counted.find, filter_acceptedStatuses,
    h.filter_handledLines hindependent hsession hline hreports, hlines, List.filter_append,
    List.filterMap_append, List.filter_cons_of_pos hreports]
  simp [hparse]

/-- The store shows a STATUS of a client: what it holds for the device is what the parser reads
from this line. -/
def Shows (s : Server D) (client : ClientState) : Prop :=
  ∃ status : DeviceStatus D, parseStatusLine (makeStatusLine client) = some status ∧
    status.sequence = client.sequence ∧
    s.statusStore.find (deviceIdFor client.index) = some status

variable {n : Net D} {options : Loadgen.Options} {connectedMs : UInt64} {c : Fd}
  {client : ClientState}

/-- The last line that has been handled of an open client is what the store shows. -/
theorem Carries.shows (hserver : Reachable s) (hparse : AcceptsCoordinates D)
    (hindependent : Independent D s.trace) {sent read : Bytes} {link : Link}
    (hcarries : Carries s.trace sent read link fd obs) (hopen : link.serverEnd ≠ .closed)
    {statuses : List ClientState} (hlines : linesOf fd obs = statuses.map makeStatusLine) :
    ∀ last ∈ statuses.getLast?, Shows s last := by
  intro last hlast
  obtain ⟨front, rfl⟩ := List.getLast?_eq_some_iff.mp hlast
  rw [List.map_append, List.map_singleton] at hlines
  obtain ⟨status, hstatus, -⟩ := exists_parse_makeStatusLine hparse last
  obtain ⟨hid, hsequence⟩ := parse_makeStatusLine hstatus
  refine ⟨status, hstatus, hsequence, ?_⟩
  cases hcarries with
  | backlog hend => simp at hlines
  | closed pre _ hend => exact absurd hend hopen
  | connected _ hend hsession =>
    rw [← hid]
    exact hserver.find_of_session hindependent hsession hlines hstatus

/-! ## The store and the clients -/

/-- All STATUS of a client or, while it waits, all but the last one. -/
def AllButLast (n : Net D) (c : Fd) (client : ClientState) (statuses : List ClientState) : Prop :=
  statuses = statusesOf c n.gen.trace ∨
    client.phase = .waitingAck ∧ ∃ last, statusesOf c n.gen.trace = statuses ++ [last]

/-- What is shown of a client is its last STATUS or, while it waits, that or the one before
it. -/
def AtMostOneBehind (n : Net D) (c : Fd) (client : ClientState) (shown : ClientState → Prop) :
    Prop :=
  ∃ statuses, AllButLast n c client statuses ∧ ∀ last ∈ statuses.getLast?, shown last

/-- **What the server has handled of a client**: the lines at the other end are those of all its
STATUS, or of all but the last one. -/
theorem NetReachable.exists_statuses (h : NetReachable options connectedMs n)
    (hparse : AcceptsCoordinates D) (hclient : n.gen.clients.lookup c = some client) :
    ∃ fd obs statuses,
      Carries n.server.trace (sentBy c n.gen.trace) (readBy c n.gen.trace) (n.links c) fd obs ∧
      linesOf fd obs = statuses.map makeStatusLine ∧ AllButLast n c client statuses := by
  have hexchange := h.netInv.exchange c client hclient
  obtain ⟨fd, obs, hcarries, hacks⟩ := hexchange.replies
  obtain ⟨hfirst, hlength⟩ := hcarries.answered h.server hparse
  -- every ACK that was taken answers a line that was handled
  have hhandled : (acksOf c n.gen.trace).length ≤ (linesOf fd obs).length := by
    have hcount := congrArg List.length hacks
    rw [List.length_map, List.length_take] at hcount
    omega
  by_cases hall : (statusesOf c n.gen.trace).length ≤ (linesOf fd obs).length
  · exact ⟨fd, obs, _, hcarries, hfirst.eq_of_length_le (by rwa [List.length_map]), .inl rfl⟩
  · have hwaiting : client.phase = .waitingAck := by
      by_contra hidle
      have hsame := (hexchange.idle hidle).2
      omega
    obtain ⟨earlier, last, hstatuses, hcount, -⟩ := hexchange.waiting hwaiting
    rw [hstatuses, List.length_append, List.length_singleton] at hall
    rw [hstatuses, List.map_append] at hfirst
    -- the server has not come to the last one yet
    have hshort : linesOf fd obs <+: earlier.map makeStatusLine :=
      List.prefix_of_prefix_length_le hfirst (List.prefix_append _ _)
        (by rw [List.length_map]; omega)
    exact ⟨fd, obs, earlier, hcarries, hshort.eq_of_length_le (by rw [List.length_map]; omega),
      .inr ⟨hwaiting, last, hstatuses⟩⟩

/-- **The store is at most one STATUS behind.**  Of a client that does not wait the store shows
the last STATUS; of a client that waits it shows the last one or the one before it. -/
theorem NetReachable.store_current (h : NetReachable options connectedMs n)
    (hparse : AcceptsCoordinates D) (hindependent : Independent D n.server.trace)
    (hclient : n.gen.clients.lookup c = some client) (hopen : (n.links c).serverEnd ≠ .closed) :
    AtMostOneBehind n c client (Shows n.server) := by
  obtain ⟨fd, obs, statuses, hcarries, hlines, hstatuses⟩ := h.exists_statuses hparse hclient
  exact ⟨statuses, hstatuses, hcarries.shows h.server hparse hindependent hopen hlines⟩

/-- In the short test the client takes its ACK, to which the server does nothing. -/
theorem exists_netReachable_idle {s : Server ℤ} (h : NetReachable soleOptions 0 (soleStart s))
    (hfresh : 7 ∉ s.openFds) (hbuffer : s.clientBuffers.lookup 7 = none)
    (hack : bytesTo 7 [.line (lineRecord 7 (.roomy 9) (makeStatusLine soleWaiting)
      ((soleReceived s).setBuffer 7 []))] = ackText (deviceIdFor 0) 1 9) :
    ∃ (n : Net ℤ) (client : ClientState), NetReachable soleOptions 0 n ∧
      n.server = soleServed s ∧ n.gen.clients.lookup 3 = some client ∧ client.phase = .ready ∧
      statusesOf 3 n.gen.trace = [soleWaiting] ∧ (n.links 3).serverEnd = .connected 7 := by
  obtain ⟨n, hn, -, hgen, hserved, hlinks⟩ := exists_netReachable_served h hfresh hbuffer hack
  have hclient : n.gen.clients.lookup 3 = some soleWaiting := by
    rw [hgen]
    decide +kernel
  have hdown : newline ∈ (n.links 3).down := by
    rw [hlinks]
    exact List.mem_append_right _ (List.mem_singleton_self _)
  obtain ⟨n', client', hserves, hready, hclients, hstatuses, hserver, hends⟩ :=
    hn.ready_of_newline hclient rfl hdown
  refine ⟨n', client', hn.trans hserves.path, hserver.trans hserved,
    hclients ▸ lookup_replace_self hclient _, hready, ?_, ?_⟩
  · rw [hstatuses, hgen]
    rfl
  · rw [hends, hlinks]
    rfl

/-- The short test with one client, which has taken its ACK: the store shows its STATUS. -/
theorem store_current_answered :
    ∃ n : Net ℤ, NetReachable soleOptions 0 n ∧ statusesOf 3 n.gen.trace = [soleWaiting] ∧
      Shows n.server soleWaiting := by
  have h : NetReachable soleOptions 0 (soleStart (Server.start 0 ⟨false⟩)) :=
    ⟨0, ⟨false⟩, Loadgen.soleClients, 0, Loadgen.connected_sole, .refl⟩
  obtain ⟨n, client, hn, hserver, hclient, hready, hsent, hend⟩ :=
    exists_netReachable_idle h (by decide) (by decide +kernel) (by decide +kernel)
  have hindependent : Independent ℤ n.server.trace := by
    rw [hserver]
    decide +kernel
  obtain ⟨statuses, hstatuses, hshown⟩ :=
    hn.store_current acceptsCoordinates_int hindependent hclient (by simp [hend])
  rcases hstatuses with rfl | ⟨hwaiting, -⟩
  · exact ⟨n, hn, hsent, hshown _ (by simp [hsent])⟩
  · rw [hready] at hwaiting
    exact absurd hwaiting (by simp)

end RemoteDeviceConsole
