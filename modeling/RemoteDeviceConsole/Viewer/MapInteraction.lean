import RemoteDeviceConsole.Planar.Nearest
import RemoteDeviceConsole.Viewer.AutoFit

/-!
# The mouse on the fleet map

* `lookup_run`: the map has the last status of each device.
* `nearestDeviceId` finds the marker nearest to the mouse: `Picks`.  `picking` is about all
  sequences of events: a press selects and a move hovers what `Picks` says, and what is selected
  or hovered stays a device of the map.
* From a press that hits no marker the mouse drags the map: `drag_follows`.

## What a drag is

`dragging_` is set by a press that hits no marker, and from then on a move shifts the pan by the
way of the mouse.  Two things make a run of such moves more than a sum.  The map may still be
fitted between the press and the first move, since only a move turns auto-fit off; so the
viewport that is shifted is the one before the first move, and not the one of the press
(`Grabbed` and `Dragged` are these two phases).  And the source keeps the last position of the
mouse and not the first, so that the shifts have to add up (`way_add`, `Viewport.shift_shift`).

A drag in this sense ends with the release of the left button.  It is also left by a turn of the
wheel, which changes the scale while the button is down, by another left press, which grabs the
map anew or selects a device, and by a fit on request, a double click or a call of `autoFit`:
`MapEvent.KeepsDrag` has all other events.
-/

namespace RemoteDeviceConsole

open Framing Machine Planar

/-! ## The devices of the map -/

namespace DeviceSnapshot

def deviceId (snapshot : DeviceSnapshot ℚ) : Bytes := snapshot.status.deviceId

end DeviceSnapshot

/-- The devices that an event brings, as the map keeps them. -/
def MapEvent.brought : MapEvent → List (DeviceSnapshot ℚ)
  | .upsertDevices _ seenMs statuses => statuses.map fun status => ⟨status, seenMs⟩
  | _ => []

/-- An event of a drag: a batch, a resize, a move, or a press or release of another button.  A
release and another press of the left button, a turn of the wheel, a double click and a call of
`autoFit` are none. -/
def MapEvent.KeepsDrag : MapEvent → Prop
  | .upsertDevices .. | .resize .. | .mouseMove .. => True
  | .mousePress _ leftButton _ _ => leftButton = false
  | .mouseRelease leftButton => leftButton = false
  | .autoFit _ | .mouseDoubleClick _ | .wheel .. => False

/-- Where an event moves the mouse. -/
def MapEvent.movedTo? : MapEvent → Option (Point ℤ)
  | .mouseMove _ pos _ => some pos
  | _ => none

namespace FleetMapWidget

variable {w : FleetMapWidget} {order : IterationOrder Bytes}

/-- Auto-fit changes the scale and the pan alone. -/
theorem updateAutoFit_eq (w : FleetMapWidget) (order : IterationOrder Bytes) :
    w.updateAutoFit order =
      { w with scale := (w.updateAutoFit order).scale, pan := (w.updateAutoFit order).pan } := by
  unfold updateAutoFit
  dsimp only
  split
  · rfl
  · rfl

@[simp] theorem devicesById_updateAutoFit :
    (w.updateAutoFit order).devicesById = w.devicesById := by
  rw [updateAutoFit_eq]

@[simp] theorem hoveredDeviceId_updateAutoFit :
    (w.updateAutoFit order).hoveredDeviceId = w.hoveredDeviceId := by
  rw [updateAutoFit_eq]

@[simp] theorem selectedDeviceId_updateAutoFit :
    (w.updateAutoFit order).selectedDeviceId = w.selectedDeviceId := by
  rw [updateAutoFit_eq]

@[simp] theorem dragging_updateAutoFit : (w.updateAutoFit order).dragging = w.dragging := by
  rw [updateAutoFit_eq]

/-- The devices of a widget after a batch. -/
theorem lookup_upsertDevices (seenMs : ℤ) (statuses : List (DeviceStatus ℚ))
    (devicesById : Finmap fun _ : Bytes => DeviceSnapshot ℚ) :
    (fun id => (RemoteDeviceConsole.upsertDevices seenMs devicesById statuses).lookup id) =
      (statuses.map fun status => ⟨status, seenMs⟩).foldl (write DeviceSnapshot.deviceId)
        fun id => devicesById.lookup id := by
  induction statuses generalizing devicesById with
  | nil => rfl
  | cons status statuses ih =>
    rw [RemoteDeviceConsole.upsertDevices, List.foldl_cons, ← RemoteDeviceConsole.upsertDevices,
      ih, List.map_cons, List.foldl_cons]
    congr 1
    funext id
    by_cases hid : id = status.deviceId
    · subst hid
      rw [Finmap.lookup_insert]
      exact write_self.symm
    · rw [Finmap.lookup_insert_of_ne _ hid]
      exact (write_of_ne (f := fun id => devicesById.lookup id) hid).symm

/-- The devices of the map change with a batch alone. -/
theorem lookup_handle (w : FleetMapWidget) (event : MapEvent) :
    (fun id => (w.handle event).devicesById.lookup id) =
      event.brought.foldl (write DeviceSnapshot.deviceId) fun id => w.devicesById.lookup id := by
  cases event with
  | upsertDevices order seenMs statuses =>
    rw [MapEvent.brought, ← lookup_upsertDevices, handle, upsertDevices]
    split <;> simp
  | autoFit order => simp [handle, autoFit, MapEvent.brought]
  | resize order width height =>
    rw [handle, resizeEvent]
    split <;> simp [MapEvent.brought]
  | mousePress order leftButton pos position =>
    rw [handle, mousePressEvent]
    split <;> rfl
  | mouseMove order pos position =>
    rw [handle, mouseMoveEvent]
    split <;> rfl
  | mouseRelease leftButton =>
    rw [handle, mouseReleaseEvent]
    split <;> rfl
  | mouseDoubleClick order => simp [handle, mouseDoubleClickEvent, autoFit, MapEvent.brought]
  | wheel order angleDeltaY position => rfl

/-- **The map has the last status of each device**, and when it was brought. -/
theorem lookup_run (width height : ℤ) (events : List MapEvent) (id : Bytes) :
    (run width height events).devicesById.lookup id =
      lastOf DeviceSnapshot.deviceId id (events.flatMap MapEvent.brought) := by
  have hall : (fun id => (run width height events).devicesById.lookup id) =
      (events.flatMap MapEvent.brought).foldl (write DeviceSnapshot.deviceId) fun _ => none := by
    induction events using List.reverseRecOn with
    | nil =>
      funext id
      exact Finmap.lookup_empty id
    | append_singleton events event ih =>
      rw [run, List.foldl_append, List.flatMap_append, List.foldl_append, ← ih,
        List.flatMap_singleton]
      exact lookup_handle _ event
  rw [congrFun hall id, foldl_write_eq, overlay, Option.or_none]

/-- No event loses a device. -/
theorem mem_devicesById_handle {id : Bytes} (h : id ∈ w.devicesById) (event : MapEvent) :
    id ∈ (w.handle event).devicesById := by
  obtain ⟨snapshot, hsnapshot⟩ := Finmap.mem_iff.mp h
  rw [← Finmap.lookup_isSome, congrFun (w.lookup_handle event) id, foldl_write_eq, overlay,
    hsnapshot]
  cases lastOf DeviceSnapshot.deviceId id event.brought <;> rfl

/-! ## Picking -/

/-- The square of the distance from a marker. -/
def distanceSquared (w : FleetMapWidget) (point : Point ℚ) (snapshot : DeviceSnapshot ℚ) : ℚ :=
  let marker := w.worldToScreen snapshot.status.x snapshot.status.y
  (marker.x - point.x) ^ 2 + (marker.y - point.y) ^ 2

/-- The point is within the radius of the marker. -/
def Hits (w : FleetMapWidget) (point : Point ℚ) (snapshot : DeviceSnapshot ℚ) : Prop :=
  w.distanceSquared point snapshot ≤ kMarkerHitRadius ^ 2

/-- What is picked at a point: nothing when no marker is hit, and otherwise a marker that is
hit and that none is nearer than. -/
structure Picks (w : FleetMapWidget) (point : Point ℚ) (picked : Option Bytes) : Prop where
  none_iff : picked = none ↔
    ∀ id snapshot, w.devicesById.lookup id = some snapshot → ¬ w.Hits point snapshot
  nearest : ∀ id, picked = some id → ∃ snapshot, w.devicesById.lookup id = some snapshot ∧
    w.Hits point snapshot ∧ ∀ id' snapshot', w.devicesById.lookup id' = some snapshot' →
      w.distanceSquared point snapshot ≤ w.distanceSquared point snapshot'

theorem mem_entriesIn {map : Finmap fun _ : Bytes => DeviceSnapshot ℚ}
    {entry : Bytes × DeviceSnapshot ℚ} :
    entry ∈ entriesIn order map ↔ map.lookup entry.1 = some entry.2 := by
  rw [entriesIn, List.mem_filterMap]
  constructor
  · rintro ⟨key, -, hkey⟩
    obtain ⟨snapshot, hsnapshot, rfl⟩ := Option.map_eq_some_iff.mp hkey
    exact hsnapshot
  · intro h
    refine ⟨entry.1, ?_, by rw [h]; rfl⟩
    rw [IterationOrder.mem_toList, Finmap.mem_keys]
    exact Finmap.mem_of_lookup_eq_some h

/-- The loop of `nearestDeviceId` keeps the nearest entry, of which it knows the id. -/
theorem nearestDeviceId_eq (w : FleetMapWidget) (order : IterationOrder Bytes) (point : Point ℚ) :
    w.nearestDeviceId order point =
      ((entriesIn order w.devicesById).foldl
        (keepNearer fun entry => w.distanceSquared point entry.2)
        (none, kMarkerHitRadius ^ 2)).1.map Prod.fst := by
  let idOf : Option (Bytes × DeviceSnapshot ℚ) × ℚ → Option Bytes × ℚ := fun nearest =>
    (nearest.1.map Prod.fst, nearest.2)
  have hround : ∀ nearest entry, w.nearer point (idOf nearest) entry =
      idOf (keepNearer (fun entry => w.distanceSquared point entry.2) nearest entry) := by
    intro nearest entry
    show (if w.distanceSquared point entry.2 ≤ nearest.2 then _ else _) = _
    unfold keepNearer
    split <;> rfl
  show ((entriesIn order w.devicesById).foldl (w.nearer point)
    (idOf (none, kMarkerHitRadius ^ 2))).1 = _
  rw [List.foldl_hom idOf hround]

/-- **What `nearestDeviceId` finds**, in every order of the devices. -/
theorem picks_nearestDeviceId (w : FleetMapWidget) (order : IterationOrder Bytes)
    (point : Point ℚ) : w.Picks point (w.nearestDeviceId order point) := by
  obtain ⟨hnone, hsome⟩ := selectNearest_spec
    (fun entry : Bytes × DeviceSnapshot ℚ => w.distanceSquared point entry.2)
    (kMarkerHitRadius ^ 2) (entriesIn order w.devicesById)
  rw [nearestDeviceId_eq]
  refine ⟨?_, fun id hid => ?_⟩
  · rw [Option.map_eq_none_iff, hnone]
    constructor
    · exact fun h id snapshot hlookup => not_le.mpr (h (id, snapshot) (mem_entriesIn.mpr hlookup))
    · exact fun h entry hentry => not_le.mp (h entry.1 entry.2 (mem_entriesIn.mp hentry))
  · obtain ⟨entry, hentry, rfl⟩ := Option.map_eq_some_iff.mp hid
    obtain ⟨hmem, hhit, hleast⟩ := hsome entry hentry
    exact ⟨entry.2, mem_entriesIn.mp hmem, hhit, fun id' snapshot' hlookup =>
      hleast (id', snapshot') (mem_entriesIn.mpr hlookup)⟩

/-- What is hovered or selected is a device of the map, and the map is dragged with no device
selected. -/
structure Picking (w : FleetMapWidget) : Prop where
  hovered : ∀ id, w.hoveredDeviceId = some id → id ∈ w.devicesById
  selected : ∀ id, w.selectedDeviceId = some id → id ∈ w.devicesById
  dragging : w.dragging = true → w.selectedDeviceId = none

theorem Picks.mem {point : Point ℚ} {picked : Option Bytes} (h : w.Picks point picked) {id : Bytes}
    (hid : picked = some id) : id ∈ w.devicesById := by
  obtain ⟨snapshot, hlookup, -⟩ := h.nearest id hid
  exact Finmap.mem_of_lookup_eq_some hlookup

/-- An event that picks nothing keeps what is picked. -/
theorem Picking.of_eq {w' : FleetMapWidget} (h : w.Picking)
    (hdevices : ∀ id, id ∈ w.devicesById → id ∈ w'.devicesById)
    (hhovered : w'.hoveredDeviceId = w.hoveredDeviceId)
    (hselected : w'.selectedDeviceId = w.selectedDeviceId)
    (hdragging : w'.dragging = true → w.dragging = true) : w'.Picking where
  hovered id hid := hdevices id (h.hovered id (hhovered ▸ hid))
  selected id hid := hdevices id (h.selected id (hselected ▸ hid))
  dragging hdrag := hselected ▸ h.dragging (hdragging hdrag)

/-- The pointer is over another device. -/
theorem Picking.updateHover (h : w.Picking) (order : IterationOrder Bytes) (point : Point ℚ) :
    (w.updateHover order point).Picking where
  hovered _ hid := (w.picks_nearestDeviceId order point).mem hid
  selected := h.selected
  dragging := h.dragging

/-- **One event keeps the invariant.** -/
theorem Picking.handle (h : w.Picking) (event : MapEvent) : (w.handle event).Picking := by
  have hdevices : ∀ id, id ∈ w.devicesById → id ∈ (w.handle event).devicesById :=
    fun id hid => mem_devicesById_handle hid event
  cases event with
  | upsertDevices order seenMs statuses =>
    refine h.of_eq hdevices ?_ ?_ ?_ <;>
      rw [FleetMapWidget.handle, FleetMapWidget.upsertDevices] <;> split <;> simp
  | autoFit order => refine h.of_eq hdevices ?_ ?_ ?_ <;> simp [FleetMapWidget.handle, autoFit]
  | resize order width height =>
    refine h.of_eq hdevices ?_ ?_ ?_ <;> rw [FleetMapWidget.handle, resizeEvent] <;> split <;> simp
  | mousePress order leftButton pos position =>
    rw [FleetMapWidget.handle, mousePressEvent]
    split
    · exact ⟨h.hovered, fun id hid => (w.picks_nearestDeviceId order position).mem hid,
        fun hdrag => Option.isNone_iff_eq_none.mp hdrag⟩
    · exact h
  | mouseMove order pos position =>
    rw [FleetMapWidget.handle, mouseMoveEvent]
    split
    · exact h.of_eq (fun _ => id) rfl rfl id
    · exact h.updateHover order position
  | mouseRelease leftButton =>
    rw [FleetMapWidget.handle, mouseReleaseEvent]
    split
    · exact h.of_eq (fun _ => id) rfl rfl fun hdrag => absurd hdrag Bool.false_ne_true
    · exact h
  | mouseDoubleClick order =>
    refine h.of_eq hdevices ?_ ?_ ?_ <;>
      simp [FleetMapWidget.handle, mouseDoubleClickEvent, autoFit]
  | wheel order angleDeltaY position =>
    refine Picking.updateHover ?_ order position
    exact h.of_eq (fun _ => id) rfl rfl id

theorem picking_run (width height : ℤ) (events : List MapEvent) :
    (run width height events).Picking := by
  induction events using List.reverseRecOn with
  | nil =>
    exact ⟨fun _ h => absurd h (by simp [run, start]), fun _ h => absurd h (by simp [run, start]),
      fun _ => rfl⟩
  | append_singleton events event ih =>
    rw [run, List.foldl_append]
    exact ih.handle event

/-- **Picking devices.**  After any events, what is hovered or selected is a device of the map,
and a dragged map has no device selected.  A left press then selects the nearest marker that it
hits, and starts to drag exactly when it hits none; a move that does not drag, and a turn of the
wheel, hover the nearest marker that they hit, the wheel in the viewport that it leads to. -/
theorem picking (width height : ℤ) (events : List MapEvent) :
    let w := run width height events
    (∀ id, w.hoveredDeviceId = some id ∨ w.selectedDeviceId = some id → id ∈ w.devicesById) ∧
    (w.dragging = true → w.selectedDeviceId = none) ∧
    (∀ order pos position,
      let pressed := w.mousePressEvent order true pos position
      w.Picks position pressed.selectedDeviceId ∧
        (pressed.dragging = true ↔
          ∀ id snapshot, w.devicesById.lookup id = some snapshot → ¬ w.Hits position snapshot)) ∧
    (∀ order pos position, w.dragging = false →
      w.Picks position (w.mouseMoveEvent order pos position).hoveredDeviceId) ∧
    ∀ order angleDeltaY cursor,
      let zoomed := w.wheelEvent order angleDeltaY cursor
      zoomed.Picks cursor zoomed.hoveredDeviceId := by
  intro w
  have hpicking : w.Picking := picking_run width height events
  refine ⟨?_, hpicking.dragging, ?_, ?_, ?_⟩
  · rintro id (hid | hid)
    · exact hpicking.hovered id hid
    · exact hpicking.selected id hid
  · intro order pos position
    have hpicks := w.picks_nearestDeviceId order position
    exact ⟨hpicks, Option.isNone_iff_eq_none.trans hpicks.none_iff⟩
  · intro order pos position hdrag
    rw [mouseMoveEvent, hdrag, if_neg Bool.false_ne_true]
    exact w.picks_nearestDeviceId order position
  · intro order angleDeltaY cursor
    exact picks_nearestDeviceId _ order cursor

/-- A press on the marker of the only device selects it. -/
theorem picking_marker : ∃ (order : IterationOrder Bytes) (w : FleetMapWidget),
    w = run 800 600 [.wheel order (-120) ⟨0, 0⟩,
      .upsertDevices order 0 [statusAt (ascii "near") 3]] ∧
    (w.mousePressEvent order true ⟨6, 0⟩ ⟨6, 0⟩).selectedDeviceId = some (ascii "near") := by
  let order : IterationOrder Bytes := ⟨Finset.toList, Finset.coe_toList⟩
  let events : List MapEvent :=
    [.wheel order (-120) ⟨0, 0⟩, .upsertDevices order 0 [statusAt (ascii "near") 3]]
  obtain ⟨-, -, hpress, -, -⟩ := picking 800 600 events
  obtain ⟨hpicks, -⟩ := hpress order ⟨6, 0⟩ ⟨6, 0⟩
  have hlookup : ∀ id, (run 800 600 events).devicesById.lookup id =
      lastOf DeviceSnapshot.deviceId id [⟨statusAt (ascii "near") 3, 0⟩] :=
    lookup_run 800 600 events
  have hhit : (run 800 600 events).Hits ⟨6, 0⟩ ⟨statusAt (ascii "near") 3, 0⟩ := by
    unfold Hits
    decide +kernel
  refine ⟨order, _, rfl, ?_⟩
  cases hselected :
      ((run 800 600 events).mousePressEvent order true ⟨6, 0⟩ ⟨6, 0⟩).selectedDeviceId with
  | none => exact absurd hhit (hpicks.none_iff.mp hselected _ _ (hlookup (ascii "near")))
  | some id =>
    obtain ⟨snapshot, hsnapshot, -⟩ := hpicks.nearest id hselected
    have hsome : (lastOf DeviceSnapshot.deviceId id
        [⟨statusAt (ascii "near") 3, 0⟩]).isSome := by
      rw [← hlookup, hsnapshot]
      rfl
    rw [isSome_lastOf] at hsome
    rw [List.mem_singleton.mp hsome]
    rfl

/-! ## Dragging -/

/-- The way from one position of the mouse to another. -/
def way (start stop : Point ℤ) : Point ℚ :=
  ⟨((stop.x - start.x : ℤ) : ℚ), ((stop.y - start.y : ℤ) : ℚ)⟩

theorem way_add (a b c : Point ℤ) :
    (⟨(way a b).x + (way b c).x, (way a b).y + (way b c).y⟩ : Point ℚ) = way a c := by
  ext
  · simp [way]
  · simp [way]

/-- The map is dragged from a viewport: auto-fit is off, and the viewport has moved as the mouse
has since. -/
structure Dragged (viewport : Viewport ℚ) (grabbed : Point ℤ) (w : FleetMapWidget) : Prop where
  dragging : w.dragging = true
  autoFitEnabled : w.autoFitEnabled = false
  selected : w.selectedDeviceId = none
  viewport : w.viewport = viewport.shift (way grabbed w.lastMousePosition)

/-- A move of a dragged map moves the viewport with the mouse, whether or not it was to fit. -/
theorem dragged_mouseMove {viewport : Viewport ℚ} {grabbed : Point ℤ}
    (hdragging : w.dragging = true) (hselected : w.selectedDeviceId = none)
    (hviewport : w.viewport = viewport.shift (way grabbed w.lastMousePosition))
    (order : IterationOrder Bytes) (pos : Point ℤ) (position : Point ℚ) :
    Dragged viewport grabbed (w.mouseMoveEvent order pos position) := by
  rw [mouseMoveEvent, if_pos hdragging]
  refine ⟨hdragging, rfl, hselected, ?_⟩
  show w.viewport.shift (way w.lastMousePosition pos) = viewport.shift (way grabbed pos)
  rw [hviewport, Viewport.shift_shift, way_add]

/-- **One event of a drag.** -/
theorem Dragged.handle {viewport : Viewport ℚ} {grabbed : Point ℤ}
    (h : Dragged viewport grabbed w) {event : MapEvent} (hevent : event.KeepsDrag) :
    Dragged viewport grabbed (w.handle event) ∧
      (w.handle event).lastMousePosition = event.movedTo?.getD w.lastMousePosition := by
  have hfit : ¬ w.autoFitEnabled = true := by
    rw [h.autoFitEnabled]
    exact Bool.false_ne_true
  cases event with
  | upsertDevices order seenMs statuses =>
    rw [FleetMapWidget.handle, upsertDevices, if_neg hfit]
    exact ⟨⟨h.dragging, h.autoFitEnabled, h.selected, h.viewport⟩, rfl⟩
  | autoFit order => exact absurd hevent id
  | resize order width height =>
    rw [FleetMapWidget.handle, resizeEvent, if_neg hfit]
    exact ⟨⟨h.dragging, h.autoFitEnabled, h.selected, h.viewport⟩, rfl⟩
  | mousePress order leftButton pos position =>
    rw [FleetMapWidget.handle, mousePressEvent, show leftButton = false from hevent,
      if_neg Bool.false_ne_true]
    exact ⟨h, rfl⟩
  | mouseMove order pos position =>
    refine ⟨dragged_mouseMove h.dragging h.selected h.viewport order pos position, ?_⟩
    rw [FleetMapWidget.handle, mouseMoveEvent, if_pos h.dragging]
    rfl
  | mouseRelease leftButton =>
    rw [FleetMapWidget.handle, mouseReleaseEvent, show leftButton = false from hevent,
      if_neg Bool.false_ne_true]
    exact ⟨h, rfl⟩
  | mouseDoubleClick order => exact absurd hevent id
  | wheel order angleDeltaY position => exact absurd hevent id

/-- The events of a drag: the mouse is where the last of them moved it. -/
theorem Dragged.foldl {viewport : Viewport ℚ} {grabbed : Point ℤ}
    (h : Dragged viewport grabbed w) {events : List MapEvent}
    (hevents : ∀ event ∈ events, event.KeepsDrag) :
    Dragged viewport grabbed (events.foldl FleetMapWidget.handle w) ∧
      (events.foldl FleetMapWidget.handle w).lastMousePosition =
        (events.filterMap MapEvent.movedTo?).getLastD w.lastMousePosition := by
  induction events using List.reverseRecOn with
  | nil => exact ⟨h, rfl⟩
  | append_singleton events event ih =>
    obtain ⟨hdragged, hlast⟩ := ih fun event hmem => hevents event (List.mem_append_left _ hmem)
    obtain ⟨hnext, hpos⟩ := hdragged.handle (hevents event (by simp))
    rw [List.foldl_append, List.filterMap_append]
    refine ⟨hnext, ?_⟩
    show (FleetMapWidget.handle _ event).lastMousePosition = _
    rw [hpos, hlast]
    cases hmove : event.movedTo? with
    | none => simp [hmove]
    | some pos => simp [hmove]

/-- The map is grabbed at a position and has not been moved since.  It may still be fitted. -/
structure Grabbed (grabbed : Point ℤ) (w : FleetMapWidget) : Prop where
  dragging : w.dragging = true
  selected : w.selectedDeviceId = none
  lastMousePosition : w.lastMousePosition = grabbed

theorem Grabbed.handle {grabbed : Point ℤ} (h : Grabbed grabbed w) {event : MapEvent}
    (hevent : event.KeepsDrag) (hstill : event.movedTo? = none) :
    Grabbed grabbed (w.handle event) := by
  have hfit : ∀ {w' : FleetMapWidget} (order : IterationOrder Bytes), Grabbed grabbed w' →
      Grabbed grabbed (w'.updateAutoFit order) := by
    intro w' order h'
    rw [updateAutoFit_eq]
    exact ⟨h'.dragging, h'.selected, h'.lastMousePosition⟩
  cases event with
  | upsertDevices order seenMs statuses =>
    have hbatch : Grabbed grabbed { w with
        devicesById := RemoteDeviceConsole.upsertDevices seenMs w.devicesById statuses } :=
      ⟨h.dragging, h.selected, h.lastMousePosition⟩
    rw [FleetMapWidget.handle, upsertDevices]
    split
    · exact hfit order hbatch
    · exact hbatch
  | autoFit order => exact absurd hevent id
  | resize order width height =>
    have hsize : Grabbed grabbed { w with width := width, height := height } :=
      ⟨h.dragging, h.selected, h.lastMousePosition⟩
    rw [FleetMapWidget.handle, resizeEvent]
    split
    · exact hfit order hsize
    · exact hsize
  | mousePress order leftButton pos position =>
    rw [FleetMapWidget.handle, mousePressEvent, show leftButton = false from hevent,
      if_neg Bool.false_ne_true]
    exact h
  | mouseMove order pos position => exact absurd hstill (by simp [MapEvent.movedTo?])
  | mouseRelease leftButton =>
    rw [FleetMapWidget.handle, mouseReleaseEvent, show leftButton = false from hevent,
      if_neg Bool.false_ne_true]
    exact h
  | mouseDoubleClick order => exact absurd hevent id
  | wheel order angleDeltaY position => exact absurd hevent id

theorem Grabbed.foldl {grabbed : Point ℤ} (h : Grabbed grabbed w) {events : List MapEvent}
    (hevents : ∀ event ∈ events, event.KeepsDrag ∧ event.movedTo? = none) :
    Grabbed grabbed (events.foldl FleetMapWidget.handle w) := by
  induction events using List.reverseRecOn with
  | nil => exact h
  | append_singleton events event ih =>
    obtain ⟨hkeeps, hstill⟩ := hevents event (by simp)
    rw [List.foldl_append]
    exact (ih fun event hmem => hevents event (List.mem_append_left _ hmem)).handle hkeeps hstill

/-- **The press**: it grabs the map when it hits no marker. -/
theorem grabbed_mousePressEvent {position : Point ℚ}
    (hmiss : ∀ id snapshot, w.devicesById.lookup id = some snapshot → ¬ w.Hits position snapshot)
    (order : IterationOrder Bytes) (grabbed : Point ℤ) :
    Grabbed grabbed (w.mousePressEvent order true grabbed position) := by
  have hnone : w.nearestDeviceId order position = none :=
    (picks_nearestDeviceId w order position).none_iff.mpr hmiss
  exact ⟨Option.isNone_iff_eq_none.mpr hnone, hnone, rfl⟩

/-- **The map follows the mouse.**  A left press that hits no marker, and then moves, batches,
resizes and presses and releases of other buttons: from the first move on, batches and resizes no
longer fit the map, the scale stays what it was before that move, every world point is shown as
far from where it was as the mouse is from where it was pressed, and the world point under the
mouse is the one that it was pressed at. -/
theorem drag_follows (width height : ℤ) (before early later : List MapEvent)
    (order order' : IterationOrder Bytes) (grabbed pos : Point ℤ) (position position' : Point ℚ)
    (hmiss : ∀ id snapshot, (run width height before).devicesById.lookup id = some snapshot →
      ¬ (run width height before).Hits position snapshot)
    (hearly : ∀ event ∈ early, event.KeepsDrag ∧ event.movedTo? = none)
    (hlater : ∀ event ∈ later, event.KeepsDrag) :
    let held := run width height (before ++ .mousePress order true grabbed position :: early)
    let w := run width height (before ++ .mousePress order true grabbed position :: early ++
      .mouseMove order' pos position' :: later)
    let last := (later.filterMap MapEvent.movedTo?).getLastD pos
    (w.dragging = true ∧ w.autoFitEnabled = false ∧ w.selectedDeviceId = none) ∧
    w.scale = held.scale ∧
    (∀ x y, w.worldToScreen x y =
      ⟨(held.worldToScreen x y).x + (last.x - grabbed.x),
        (held.worldToScreen x y).y + (last.y - grabbed.y)⟩) ∧
    w.screenToWorld ⟨last.x, last.y⟩ = held.screenToWorld ⟨grabbed.x, grabbed.y⟩ := by
  intro held w last
  have hheld : Grabbed grabbed held := by
    show Grabbed grabbed (run width height (before ++ _ :: early))
    rw [run, List.foldl_append, List.foldl_cons]
    exact (grabbed_mousePressEvent hmiss order grabbed).foldl hearly
  have hmoved : Dragged held.viewport grabbed (held.mouseMoveEvent order' pos position') := by
    refine dragged_mouseMove hheld.dragging hheld.selected ?_ order' pos position'
    rw [hheld.lastMousePosition]
    ext <;> simp [Viewport.shift, way]
  have hpos : (held.mouseMoveEvent order' pos position').lastMousePosition = pos := by
    rw [mouseMoveEvent, if_pos hheld.dragging]
  obtain ⟨hdragged, hlast⟩ := hmoved.foldl hlater
  have hw : w = later.foldl FleetMapWidget.handle (held.mouseMoveEvent order' pos position') := by
    show run width height (_ ++ _ :: later) = _
    rw [run, List.foldl_append, List.foldl_cons]
    rfl
  rw [← hw, hpos] at hlast
  rw [← hw] at hdragged
  have hview : w.viewport = held.viewport.shift (way grabbed last) := by
    rw [hdragged.viewport, hlast]
  refine ⟨⟨hdragged.dragging, hdragged.autoFitEnabled, hdragged.selected⟩,
    congrArg Viewport.scale hview, fun x y => ?_, ?_⟩
  · rw [worldToScreen_eq, hview, Viewport.toScreen_shift, worldToScreen_eq]
    simp [way]
  · rw [screenToWorld_eq, hview, screenToWorld_eq,
      ← Viewport.toWorld_shift held.viewport (way grabbed last)]
    simp [way]

/-- A drag of a map with two devices, past a resize that fits it and one that does not. -/
theorem drag_follows_two : ∃ held w : FleetMapWidget,
    held = run 800 600
      [.upsertDevices pairOrder 0 [statusAt (ascii "near") 3, statusAt (ascii "far") 9],
        .mousePress pairOrder true ⟨100, 100⟩ ⟨100, 100⟩, .resize pairOrder 900 600] ∧
    w = run 800 600
      [.upsertDevices pairOrder 0 [statusAt (ascii "near") 3, statusAt (ascii "far") 9],
        .mousePress pairOrder true ⟨100, 100⟩ ⟨100, 100⟩, .resize pairOrder 900 600,
        .mouseMove pairOrder ⟨110, 100⟩ ⟨110, 100⟩, .mouseMove pairOrder ⟨130, 90⟩ ⟨130, 90⟩,
        .resize pairOrder 1000 600] ∧
    w.scale = held.scale ∧
    ∀ x y, w.worldToScreen x y =
      ⟨(held.worldToScreen x y).x + 30, (held.worldToScreen x y).y - 10⟩ := by
  let before : List MapEvent :=
    [.upsertDevices pairOrder 0 [statusAt (ascii "near") 3, statusAt (ascii "far") 9]]
  have hnone : (run 800 600 before).nearestDeviceId pairOrder ⟨100, 100⟩ = none := by
    decide +kernel
  obtain ⟨-, hscale, hshown, -⟩ := drag_follows 800 600 before [.resize pairOrder 900 600]
    [.mouseMove pairOrder ⟨130, 90⟩ ⟨130, 90⟩, .resize pairOrder 1000 600] pairOrder pairOrder
    ⟨100, 100⟩ ⟨110, 100⟩ ⟨100, 100⟩ ⟨110, 100⟩
    ((picks_nearestDeviceId _ pairOrder ⟨100, 100⟩).none_iff.mp hnone)
    (by simp [MapEvent.KeepsDrag, MapEvent.movedTo?]) (by simp [MapEvent.KeepsDrag])
  have hway : (((130 : ℤ) : ℚ) - ((100 : ℤ) : ℚ) = 30) ∧
      (((90 : ℤ) : ℚ) - ((100 : ℤ) : ℚ) = -10) := by
    norm_num
  refine ⟨_, _, rfl, rfl, hscale, fun x y => (hshown x y).trans ?_⟩
  rw [Point.mk.injEq]
  exact ⟨congrArg _ hway.1, (congrArg _ hway.2).trans (sub_eq_add_neg _ _).symm⟩

end FleetMapWidget
end RemoteDeviceConsole
