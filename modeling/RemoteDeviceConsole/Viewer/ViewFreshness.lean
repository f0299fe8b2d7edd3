import RemoteDeviceConsole.Loadgen.StoreFreshness
import RemoteDeviceConsole.Viewer.Consistency

/-!
# How old the window is

From the load generator to the window: a client sends STATUS lines, the server keeps the last one
in its store and hands each line to its viewers, and the viewer's table and map show what has
come since the last flush.

`NetReachable.viewer_current`: when the viewer was there before the server accepted the client,
and all bytes for it have arrived, then after a flush the window is as old as the store is: it
shows the last STATUS of the client or, while the client waits for its ACK, that or the one before
it.  Between two flushes, and while bytes are under way, it may be older; and of a client whose
first STATUS the server has not handled it shows nothing.

## From the store to the window

The store is at most one message behind the client (`StoreFreshness`).  The window is compared
with the store and not with the client, by way of the last line of the client that the server has
handled.  For this line to be the last of its device in the history of the viewer, three things
have to come together: the whole connection of the client lies behind the viewer's HELLO
(`Watches.exists_done`, an argument on the last `accept` of a descriptor that may have been used
before), it is the last line of its connection, and no other connection reports the device
(`Reachable.silent_of_session`, where a further report would be one line too many for
`filter_handledLines`).

The handlers of the window run one after another here; in the source a status may come in while a
flush runs (see `DeviceViews`).
-/

namespace RemoteDeviceConsole

open Framing Machine
open Loadgen (ClientState deviceIdFor makeStatusLine soleOptions)

variable {D : Type} [CharconvDouble D] {s : Server D} {fd : Fd} {obs : List Obs}

/-! ## The last line of a connection -/

/-- The entry that has the last line of a connection. -/
theorem exists_last_line {front : List Bytes} {line : Bytes}
    (h : linesOf fd obs = front ++ [line]) :
    ∃ before record after, obs = before ++ .line record :: after ∧ record.fd = fd ∧
      record.line = line ∧ linesOf fd after = [] := by
  induction obs using List.reverseRecOn generalizing front with
  | nil => simp at h
  | append_singleton obs x ih =>
    by_cases hx : linesOf fd [x] = []
    · rw [linesOf_append, hx, List.append_nil] at h
      obtain ⟨before, record, after, rfl, hfd, hline, hafter⟩ := ih h
      refine ⟨before, record, after ++ [x], by simp, hfd, hline, ?_⟩
      rw [linesOf_append, hafter, hx, List.append_nil]
    · cases x with
      | line record =>
        rw [linesOf_line] at hx
        have hfd : record.fd = fd := by
          by_contra hne
          exact hx (if_neg hne)
        rw [linesOf_append, linesOf_line, if_pos hfd] at h
        have hline : [record.line] = [line] := (List.append_inj' h rfl).2
        exact ⟨obs, record, [], rfl, hfd, List.head_eq_of_cons_eq hline, rfl⟩
      | _ => exact absurd rfl hx

/-- The lines of a connection are handled lines. -/
theorem linesOf_sublist (fd : Fd) (obs : List Obs) :
    (linesOf fd obs).Sublist (handledLines obs) := by
  refine List.Sublist.flatMap_right _ fun x _ => ?_
  cases x with
  | line record =>
    rw [Obs.lineOf]
    split
    · exact List.Sublist.refl _
    · exact List.nil_sublist _
  | _ => exact List.Sublist.refl _

/-- Behind the last line of the connection that reports a device no line reports it. -/
theorem Reachable.silent_of_session (h : Reachable s) (hindependent : Independent D s.trace)
    {before after : List Obs} {record : LineRecord}
    (hsession : session fd s.trace = some (before ++ .line record :: after))
    (hfd : record.fd = fd) (hafter : linesOf fd after = []) {status : DeviceStatus D}
    (hparse : parseStatusLine record.line = some status) :
    ∀ later ∈ acceptedStatuses D after, later.deviceId ≠ status.deviceId := by
  intro later hlater hid
  obtain ⟨line, hline, hlaterParse⟩ := List.mem_filterMap.mp hlater
  have hlines : linesOf fd (before ++ .line record :: after) =
      linesOf fd before ++ [record.line] := by
    rw [← List.singleton_append, linesOf_append, linesOf_append, linesOf_line, if_pos hfd, hafter,
      List.append_nil]
  have hfilter := congrArg List.length (h.filter_handledLines hindependent hsession
    (hlines ▸ by simp) (reportsDevice_of_parse hparse))
  rw [← List.countP_eq_length_filter, ← List.countP_eq_length_filter, hlines] at hfilter
  obtain ⟨pre, x, htrace, -⟩ := current_eq_some_iff.mp hsession
  have hsplit : handledLines s.trace = handledLines (pre ++ [x]) ++ handledLines before ++
      [record.line] ++ handledLines after := by
    rw [htrace]
    simp [handledLines, Obs.handled]
  have hbefore := (linesOf_sublist fd before).countP_le (p := reportsDevice D status.deviceId)
  have hpos : 0 < (handledLines after).countP (reportsDevice D status.deviceId) :=
    List.countP_pos_iff.mpr ⟨line, hline, hid ▸ reportsDevice_of_parse hlaterParse⟩
  rw [hsplit, List.countP_append, List.countP_append, List.countP_append,
    List.countP_append] at hfilter
  omega

/-! ## What is displayed -/

/-- The viewer has said HELLO before the server accepted the client. -/
def Watches (viewer : ViewerConnection) (n : Net D) (c : Fd) : Prop :=
  ∃ fd done rest, (n.links c).serverEnd = .connected fd ∧
    viewer.obs = done ++ .accepted fd :: rest ∧ IsViewer viewer.fd done

variable {n : Net D} {options : Loadgen.Options} {connectedMs : UInt64} {c : Fd}
  {client : ClientState} {viewer : ViewerConnection}

omit [CharconvDouble D] in
/-- The whole connection of a client that is watched lies in that of the viewer, behind its
HELLO. -/
theorem Watches.exists_done (h : Watches viewer n c)
    (hcurrent : session viewer.fd n.server.trace = some viewer.obs)
    (hend : (n.links c).serverEnd = .connected fd)
    (hsession : session fd n.server.trace = some obs) :
    viewer.fd ≠ fd ∧ ∃ done, viewer.obs = done ++ obs ∧ IsViewer viewer.fd done := by
  obtain ⟨fd', done, rest, hend', hobs, hviewer⟩ := h
  obtain rfl : fd' = fd := by
    rw [hend'] at hend
    exact ServerEnd.connected.inj hend
  obtain ⟨pre, x, htrace, -, hquiet⟩ := current_eq_some_iff.mp hcurrent
  obtain ⟨pre', x', htrace', hopens, hquiet'⟩ := current_eq_some_iff.mp hsession
  have hne : viewer.fd ≠ fd' := by
    rintro rfl
    have hopened := (hquiet (.accepted viewer.fd) (by simp [hobs])).1
    simp [Obs.opens] at hopened
  refine ⟨hne, ?_⟩
  -- the last `accept` on the descriptor is this one or a later one
  have hsuffix : obs <:+ rest := by
    have hlater : x' :: obs <:+ n.server.trace := ⟨pre', htrace'.symm⟩
    have hearlier : .accepted fd' :: rest <:+ n.server.trace :=
      ⟨pre ++ x :: done, by rw [htrace, hobs]; simp⟩
    rcases List.suffix_or_suffix_of_suffix hearlier hlater with hle | hle
    · rcases List.suffix_cons_iff.mp hle with heq | hmem
      · exact (List.cons.inj heq).2 ▸ List.suffix_refl _
      · have hopened := (hquiet' _ (hmem.subset List.mem_cons_self)).1
        simp [Obs.opens] at hopened
    · rcases List.suffix_cons_iff.mp hle with heq | hrest
      · exact (List.cons.inj heq).2 ▸ List.suffix_refl _
      · exact (List.suffix_cons x' obs).trans hrest
  obtain ⟨between, rfl⟩ := hsuffix
  exact ⟨done ++ .accepted fd' :: between, by simp [hobs], isViewer_append.mpr (.inl hviewer)⟩

/-- **The last line that has been handled of a watched client has come to the viewer last.** -/
theorem Watches.lastSeenBy (h : Watches viewer n c) (hserver : Reachable n.server)
    (hindependent : Independent D n.server.trace)
    (hcurrent : session viewer.fd n.server.trace = some viewer.obs)
    (hend : (n.links c).serverEnd = .connected fd) (hsession : session fd n.server.trace = some obs)
    {front : List Bytes} {line : Bytes} (hlines : linesOf fd obs = front ++ [line])
    {status : DeviceStatus D} (hparse : parseStatusLine line = some status) :
    LastSeenBy D viewer status.deviceId := by
  obtain ⟨hne, done, hobs, hviewer⟩ := h.exists_done hcurrent hend hsession
  obtain ⟨before, record, after, rfl, hfd, rfl, hafter⟩ := exists_last_line hlines
  refine ⟨done ++ before, record, after, status, by rw [hobs, List.append_assoc],
    isViewer_append.mpr (.inl hviewer), fun heq => hne (heq.symm.trans hfd), hparse, rfl, ?_⟩
  exact hserver.silent_of_session hindependent hsession hfd hafter hparse

section Display

variable {M Q : Type} [ItemModel M Q] [QtTexts D Q]

/-- The table and the map show a STATUS of a client: what they have for the device is what the
parser reads from this line. -/
def Displays (v : DeviceViews D M) (client : ClientState) : Prop :=
  ∃ status info snapshot, parseStatusLine (makeStatusLine client) = some status ∧
    v.tableDevices.lookup (deviceIdFor client.index) = some info ∧ info.status = status ∧
    v.devicesById.lookup (deviceIdFor client.index) = some snapshot ∧ snapshot.status = status ∧
    ShowsStatus v.model info.row status

variable [LawfulItemModel M Q] [QtLabels Q] [DecidableEq Q]

/-- **The window is as old as the store.**  Suppose that the viewer was there before the client was
accepted, that every `send` to it took its whole line and that all its bytes have arrived.  Then,
once a STATUS of the client has been handled, after a flush the table and the map show its last one
or, while it waits, that or the one before it. -/
theorem NetReachable.viewer_current (h : NetReachable options connectedMs n)
    (hparse : AcceptsCoordinates D) (hindependent : Independent D n.server.trace)
    (hclient : n.gen.clients.lookup c = some client) (hwatches : Watches viewer n c)
    (hcurrent : session viewer.fd n.server.trace = some viewer.obs)
    (hwhole : ∀ sent ∈ sendsTo viewer.fd viewer.obs, sent.Whole)
    (hall : viewer.chunks.flatten = bytesTo viewer.fd viewer.obs)
    {closed : List ViewerConnection} {events : List (ConsoleEvent D)}
    (hevents : emittedIn events = viewerEvents D closed viewer) (order : IterationOrder Bytes)
    (tableMs mapMs : ℤ) :
    AtMostOneBehind n c client (Displays
      (Console.run (events ++ [.flush order tableMs mapMs]) : Console D M Q).views) := by
  obtain ⟨fd, obs, statuses, hcarries, hlines, hstatuses⟩ := h.exists_statuses hparse hclient
  refine ⟨statuses, hstatuses, fun last hlast => ?_⟩
  obtain ⟨front, rfl⟩ := List.getLast?_eq_some_iff.mp hlast
  rw [List.map_append, List.map_singleton] at hlines
  obtain ⟨status, hstatus, -⟩ := exists_parse_makeStatusLine hparse last
  obtain ⟨hid, -⟩ := parse_makeStatusLine hstatus
  cases hcarries with
  | backlog hend => simp at hlines
  | closed pre _ hend =>
    obtain ⟨fd', -, -, hend', -⟩ := hwatches
    rw [hend] at hend'
    exact absurd hend' (by simp)
  | connected _ hend hsession =>
    -- the store has it, and what the viewer has seen last is what the store has
    have hstore := h.server.find_of_session hindependent hsession hlines hstatus
    have hseen := hwatches.lastSeenBy h.server hindependent hcurrent hend hsession hlines hstatus
    obtain ⟨seen, hfind, hviewer⟩ := hseen.agrees h.server hcurrent hwhole hall closed
    obtain rfl : status = seen := Option.some.inj (hstore.symm.trans hfind)
    obtain ⟨hkept, hshown⟩ := Console.views_flush (M := M) (Q := Q) events order tableMs mapMs
    rw [hevents] at hshown
    obtain ⟨info, snapshot, hdevice⟩ := hkept.exists_shown ((hshown _).trans hviewer)
    exact ⟨status, info, snapshot, hstatus, hid ▸ hdevice⟩

end Display

/-- The server with a viewer on 5. -/
def watchedServer : Server ℤ :=
  handleLine 5 (.roomy 1) (ascii "HELLO role=viewer\n")
    ((((acceptClient 5 (Server.start 0 ⟨false⟩)).setBuffer 5 (ascii "HELLO role=viewer\n")).log
      (.received 5 (ascii "HELLO role=viewer\n"))).setBuffer 5 [])

theorem netReachable_watched : NetReachable soleOptions 0 (soleStart watchedServer) := by
  have h₀ : NetReachable soleOptions 0 (soleStart (Server.start 0 ⟨false⟩)) :=
    ⟨0, ⟨false⟩, Loadgen.soleClients, 0, Loadgen.connected_sole, .refl⟩
  have h₁ := h₀.step (.server _ _ _ (fun _ => {}) (.accepted _ 5 (by decide)) rfl fun _ => rfl)
  have h₂ := h₁.step (.server _ _ _ (fun _ => {})
    (.received _ 5 (ascii "HELLO role=viewer\n") [] (by decide +kernel)) rfl fun _ => rfl)
  exact h₂.step (.server _ _ _ (fun _ => {})
    (.line _ 5 (.roomy 1) (ascii "HELLO role=viewer\n") []
      ⟨ascii "HELLO role=viewer", by decide, rfl⟩ (by decide +kernel))
    (trace_handleLine _ _ _ _) fun _ => rfl)

/-- The connections of the viewer and of the client, as the server sees them. -/
theorem exists_trace_served :
    ∃ hello record, (soleServed watchedServer).trace = .accepted 5 ::
      [.received 5 (ascii "HELLO role=viewer\n"), .line hello, .accepted 7,
        .received 7 (makeStatusLine soleWaiting), .line record] := by
  rw [soleServed, trace_handleLine]
  show ∃ hello record, watchedServer.trace ++ [_] ++ [_] ++ [_] = _
  rw [watchedServer, trace_handleLine]
  exact ⟨_, _, rfl⟩

/-- In the short test a viewer that was there before has the STATUS of the client in its table and
on its map. -/
theorem viewer_current_watched :
    ∃ (n : Net ℤ) (events : List (ConsoleEvent ℤ)) (order : IterationOrder Bytes),
      NetReachable soleOptions 0 n ∧ statusesOf 3 n.gen.trace = [soleWaiting] ∧
      Displays (Console.run (events ++ [.flush order 0 0]) :
        Console ℤ (GridModel Bytes) Bytes).views soleWaiting := by
  obtain ⟨n, client, hn, hserver, hclient, hready, hsent, hend⟩ :=
    exists_netReachable_idle netReachable_watched (by decide +kernel) (by decide +kernel)
      (by decide +kernel)
  obtain ⟨hello, record, htrace⟩ := exists_trace_served
  rw [← hserver] at htrace
  let viewer : ViewerConnection := ⟨5, n.server.trace.drop 1, [bytesTo 5 (n.server.trace.drop 1)]⟩
  let order : IterationOrder Bytes := ⟨Finset.toList, Finset.coe_toList⟩
  have hindependent : Independent ℤ n.server.trace := by
    rw [hserver]
    decide +kernel
  have hcurrent : session 5 n.server.trace = some (n.server.trace.drop 1) := by
    rw [session, current_eq_some_iff, htrace]
    exact ⟨[], _, rfl, rfl, by simp [Obs.opens, Obs.closes]⟩
  have hwatches : Watches viewer n 3 := by
    refine ⟨7, (n.server.trace.drop 1).take 2, n.server.trace.drop 4, hend, ?_, ?_⟩
    · show n.server.trace.drop 1 = _
      rw [htrace]
      rfl
    · show IsViewer 5 _
      rw [hserver]
      decide +kernel
  have hwhole : ∀ sent ∈ sendsTo 5 (n.server.trace.drop 1), sent.Whole := by
    rw [hserver]
    decide +kernel
  obtain ⟨statuses, hstatuses, hshown⟩ := hn.viewer_current (M := GridModel Bytes) (Q := Bytes)
    acceptsCoordinates_int hindependent hclient hwatches hcurrent hwhole (by simp [viewer])
    (emittedIn_map_emitted (viewerEvents ℤ [] viewer)) order 0 0
  rcases hstatuses with rfl | ⟨hwaiting, -⟩
  · exact ⟨n, _, order, hn, hsent, hshown _ (by simp [hsent])⟩
  · rw [hready] at hwaiting
    exact absurd hwaiting (by simp)

end RemoteDeviceConsole
