import RemoteDeviceConsole.Viewer.MapInteraction

/-!
# Auto-fit over whole runs

As long as auto-fit is on, every event that changes the devices or the size of the widget fits
the map, and no other event moves it.  So the viewport is at every moment the one that
`updateAutoFit` gives: `fitted_run`.  It does not depend on the way there: `viewport_run_eq`.

`updateAutoFit` reads the devices in the order of the hash map, and it reads the scale of before
when there is no room for a fit.  So there is something to prove in "the one that it gives".  The
bounds are four folds with `min` and `max` over the coordinates, and these are the same in every
order (`worldBounds_congr`); the seen times and the states, which other events change, are not in
them.  And the scale is read only in the case in which the viewport stays.

`Fitted` says it without an order: whichever order the next call takes, the viewport stays.  With
that the run is an induction on the events, where an event either fits the map or leaves size,
devices and viewport alone, or turns auto-fit off.
-/

namespace RemoteDeviceConsole

/-- An event that fits the map when auto-fit is on. -/
def MapEvent.Fits : MapEvent → Prop
  | .upsertDevices .. | .autoFit _ | .resize .. | .mouseDoubleClick _ => True
  | .mousePress .. | .mouseMove .. | .mouseRelease _ | .wheel .. => False

namespace FleetMapWidget

open Framing Machine Planar

variable {w w' : FleetMapWidget} {order order' : IterationOrder Bytes}

/-! ## What auto-fit depends on -/

/-- The coordinates of a device. -/
def position? (w : FleetMapWidget) (id : Bytes) : Option (Point ℚ) :=
  (w.devicesById.lookup id).map fun snapshot => ⟨snapshot.status.x, snapshot.status.y⟩

/-- The same devices are at the same places. -/
def SamePositions (w w' : FleetMapWidget) : Prop := ∀ id, w.position? id = w'.position? id

theorem keys_eq_of_samePositions (h : SamePositions w w') :
    w.devicesById.keys = w'.devicesById.keys := by
  ext id
  have hsome : (w.position? id).isSome = (w'.position? id).isSome := by rw [h id]
  rw [position?, position?, Option.isSome_map, Option.isSome_map] at hsome
  rw [Finmap.mem_keys, Finmap.mem_keys, ← Finmap.lookup_isSome, ← Finmap.lookup_isSome, hsome]

/-- Two orders visit the same keys. -/
theorem perm_toList (order order' : IterationOrder Bytes) (keys : Finset Bytes) :
    (order.toList keys).Perm (order'.toList keys) := by
  rw [← Multiset.coe_eq_coe, order.coe_toList, order'.coe_toList]

/-- A coordinate of the devices, in two orders. -/
theorem perm_coordinates (h : SamePositions w w') (order order' : IterationOrder Bytes)
    (coordinate : Point ℚ → ℚ) {f : DeviceSnapshot ℚ → ℚ}
    (hf : ∀ snapshot, f snapshot = coordinate ⟨snapshot.status.x, snapshot.status.y⟩) :
    ((valuesIn order w.devicesById).map f).Perm ((valuesIn order' w'.devicesById).map f) := by
  have hvalues : ∀ (order : IterationOrder Bytes) (w : FleetMapWidget),
      (valuesIn order w.devicesById).map f =
        (order.toList w.devicesById.keys).filterMap fun id =>
          (w.position? id).map coordinate := by
    intro order w
    rw [valuesIn, List.map_filterMap]
    congr 1
    funext id
    rw [position?, Option.map_map]
    congr 1
    funext snapshot
    exact hf snapshot
  rw [hvalues, hvalues, keys_eq_of_samePositions h, funext h]
  exact (perm_toList order order' _).filterMap _

/-- **The bounds do not depend on the order of the devices.** -/
theorem worldBounds_congr (h : SamePositions w w') (order order' : IterationOrder Bytes) :
    w.worldBounds order = w'.worldBounds order' := by
  have hX := perm_coordinates h order order' Point.x (f := (·.status.x)) fun _ => rfl
  have hY := perm_coordinates h order order' Point.y (f := (·.status.y)) fun _ => rfl
  unfold worldBounds
  rw [keys_eq_of_samePositions h, foldl_extendBounds, foldl_extendBounds, hX.foldl_eq, hY.foldl_eq,
    hX.foldl_eq, hY.foldl_eq]

/-- The viewport after auto-fit: that of before when there is no room, and otherwise one that is
known from the bounds and the plot area. -/
theorem viewport_updateAutoFit_eq (w : FleetMapWidget) (order : IterationOrder Bytes) :
    (w.updateAutoFit order).viewport =
      if w.plotArea.width ≤ 1 ∨ w.plotArea.height ≤ 1 then w.viewport
      else .pinned (fitScale w.plotArea.width w.plotArea.height
        (max 1 (w.worldBounds order).width) (max 1 (w.worldBounds order).height) 2 80)
        (w.worldBounds order).center w.plotArea.center := by
  unfold updateAutoFit
  dsimp only
  split
  · rfl
  · rfl

/-! ## Fitted maps -/

/-- The viewport is the one that auto-fit gives. -/
def Fitted (w : FleetMapWidget) : Prop := ∀ order, (w.updateAutoFit order).viewport = w.viewport

/-- Whether a map is fitted depends on its size, its devices and its viewport. -/
theorem Fitted.of_eq (h : w.Fitted) (harea : w'.plotArea = w.plotArea)
    (hdevices : w'.devicesById = w.devicesById) (hview : w'.viewport = w.viewport) :
    w'.Fitted := by
  intro order
  have hsame : SamePositions w' w := fun id => by rw [position?, position?, hdevices]
  rw [viewport_updateAutoFit_eq, worldBounds_congr hsame order order, harea, hview,
    ← viewport_updateAutoFit_eq, h order]

/-- **Auto-fit fits the map**, whatever the order of the devices is the next time. -/
theorem fitted_updateAutoFit (w : FleetMapWidget) (order : IterationOrder Bytes) :
    (w.updateAutoFit order).Fitted := by
  intro order'
  obtain ⟨hdevices, harea⟩ := w.updateAutoFit_devices order
  have hsame : SamePositions (w.updateAutoFit order) w := fun id => by
    rw [position?, position?, hdevices]
  rw [viewport_updateAutoFit_eq, harea, worldBounds_congr hsame order' order]
  split
  · rfl
  · next hroom => rw [viewport_updateAutoFit_eq, if_neg hroom]

/-- **Two fitted maps of one size with the same devices show the same.** -/
theorem Fitted.viewport_eq (h : w.Fitted) (h' : w'.Fitted) (hsame : SamePositions w w')
    (harea : w.plotArea = w'.plotArea) (hwidth : 1 < w.plotArea.width)
    (hheight : 1 < w.plotArea.height) (order : IterationOrder Bytes) :
    w.viewport = w'.viewport := by
  have hroom : ¬ (w.plotArea.width ≤ 1 ∨ w.plotArea.height ≤ 1) :=
    not_or.mpr ⟨hwidth.not_ge, hheight.not_ge⟩
  rw [← h order, ← h' order, viewport_updateAutoFit_eq, viewport_updateAutoFit_eq,
    worldBounds_congr hsame order order, ← harea, if_neg hroom, if_neg hroom]

/-! ## Runs -/

/-- **One event fits the map or leaves it fitted**, unless it turns auto-fit off. -/
theorem fitted_handle (w : FleetMapWidget) (event : MapEvent)
    (hon : (w.handle event).autoFitEnabled = true)
    (h : event.Fits ∨ (w.autoFitEnabled = true → w.Fitted)) : (w.handle event).Fitted := by
  cases event with
  | upsertDevices order seenMs statuses =>
    rw [handle, upsertDevices] at hon ⊢
    split at hon
    · next hfit =>
      rw [if_pos hfit]
      exact fitted_updateAutoFit _ order
    · next hoff => exact absurd hon hoff
  | autoFit order => exact fitted_updateAutoFit _ order
  | resize order width height =>
    rw [handle, resizeEvent] at hon ⊢
    split at hon
    · next hfit =>
      rw [if_pos hfit]
      exact fitted_updateAutoFit _ order
    · next hoff => exact absurd hon hoff
  | mousePress order leftButton pos position =>
    have hw := h.resolve_left id
    rw [handle, mousePressEvent] at hon ⊢
    split at hon
    · next hleft =>
      rw [if_pos hleft]
      exact (hw hon).of_eq rfl rfl rfl
    · next hright =>
      rw [if_neg hright]
      exact hw hon
  | mouseMove order pos position =>
    have hw := h.resolve_left id
    rw [handle, mouseMoveEvent] at hon ⊢
    split at hon
    · exact absurd hon Bool.false_ne_true
    · next hhover =>
      rw [if_neg hhover]
      exact (hw hon).of_eq rfl rfl rfl
  | mouseRelease leftButton =>
    have hw := h.resolve_left id
    rw [handle, mouseReleaseEvent] at hon ⊢
    split at hon
    · next hleft =>
      rw [if_pos hleft]
      exact (hw hon).of_eq rfl rfl rfl
    · next hright =>
      rw [if_neg hright]
      exact hw hon
  | mouseDoubleClick order => exact fitted_updateAutoFit _ order
  | wheel order angleDeltaY position => exact absurd hon Bool.false_ne_true

/-- **A map with auto-fit on is fitted** from the first event on that could fit it. -/
theorem fitted_run (width height : ℤ) {events : List MapEvent}
    (hfits : ∃ event ∈ events, event.Fits)
    (hon : (run width height events).autoFitEnabled = true) : (run width height events).Fitted := by
  induction events using List.reverseRecOn with
  | nil =>
    obtain ⟨event, hmem, -⟩ := hfits
    exact absurd hmem (by simp)
  | append_singleton events event ih =>
    rw [run, List.foldl_append] at hon ⊢
    refine fitted_handle _ event hon ?_
    obtain ⟨event', hmem, hevent⟩ := hfits
    rcases List.mem_append.mp hmem with hbefore | hlast
    · exact .inr (ih ⟨event', hbefore, hevent⟩)
    · rw [List.mem_singleton.mp hlast] at hevent
      exact .inl hevent

/-- **The viewport has no memory.**  Two runs that end with auto-fit on, after an event that
could fit the map, in widgets of one size with the same devices at the same places, end in the
same viewport: the order of the batches, other devices' moves, drags, zooms and resizes in
between leave no trace. -/
theorem viewport_run_eq (width height width' height' : ℤ) (events events' : List MapEvent)
    (hfits : ∃ event ∈ events, event.Fits) (hfits' : ∃ event ∈ events', event.Fits) :
    let w := run width height events
    let w' := run width' height' events'
    w.autoFitEnabled = true → w'.autoFitEnabled = true →
    (w.width = w'.width ∧ w.height = w'.height) → 1 < w.plotArea.width → 1 < w.plotArea.height →
    (∀ id, w.position? id = w'.position? id) → w.scale = w'.scale ∧ w.pan = w'.pan := by
  intro w w' hon hon' hsize hwidth hheight hsame
  have harea : w.plotArea = w'.plotArea := by rw [plotArea, plotArea, hsize.1, hsize.2]
  have hview : w.viewport = w'.viewport :=
    (fitted_run width height hfits hon).viewport_eq (fitted_run width' height' hfits' hon') hsame
      harea hwidth hheight ⟨Finset.toList, Finset.coe_toList⟩
  exact ⟨congrArg Viewport.scale hview, congrArg Viewport.pan hview⟩

/-- A device that comes at once, and one that comes from elsewhere while the map is zoomed. -/
theorem viewport_run_eq_zoomed : ∃ (order : IterationOrder Bytes) (w w' : FleetMapWidget),
    w = run 800 600 [.upsertDevices order 0 [statusAt (ascii "near") 3]] ∧
    w' = run 640 480 [.upsertDevices order 5 [statusAt (ascii "near") 7],
      .wheel order 120 ⟨10, 10⟩, .upsertDevices order 9 [statusAt (ascii "near") 3],
      .resize order 800 600, .autoFit order] ∧
    w.scale = w'.scale ∧ w.pan = w'.pan := by
  let order : IterationOrder Bytes := ⟨Finset.toList, Finset.coe_toList⟩
  refine ⟨order, _, _, rfl, rfl, ?_⟩
  refine viewport_run_eq 800 600 640 480 _ _ ⟨_, List.mem_singleton_self _, trivial⟩
    ⟨_, List.mem_cons_self, trivial⟩ (by decide +kernel) (by decide +kernel) (by decide +kernel)
    (by decide +kernel) (by decide +kernel) fun id => ?_
  rw [position?, position?, lookup_run, lookup_run]
  by_cases hid : id = ascii "near"
  · subst hid
    decide +kernel
  · simp [MapEvent.brought, lastOf, DeviceSnapshot.deviceId, statusAt, Ne.symm hid]

/-- The devices of a run are among the ones brought. -/
theorem exists_brought_of_lookup {width height : ℤ} {events : List MapEvent} {id : Bytes}
    {snapshot : DeviceSnapshot ℚ}
    (h : (run width height events).devicesById.lookup id = some snapshot) :
    ∃ event ∈ events, snapshot ∈ event.brought := by
  rw [lookup_run, lastOf] at h
  have hmem := List.mem_of_getLast? h
  exact List.mem_flatMap.mp (List.mem_filter.mp hmem).1

/-- **With auto-fit on the whole fleet is seen**, at every moment of every run after the first
device: all markers are in the plot area exactly when the fleet fits at the least scale, and
whenever the scale is above it. -/
theorem showsAll_run (width height : ℤ) (events : List MapEvent)
    (hbrought : ∃ event ∈ events, event.brought ≠ [])
    (hfinite : ∀ event ∈ events, ∀ snapshot ∈ event.brought,
      (-maxDouble ≤ snapshot.status.x ∧ snapshot.status.x ≤ maxDouble) ∧
        -maxDouble ≤ snapshot.status.y ∧ snapshot.status.y ≤ maxDouble) :
    let w := run width height events
    w.autoFitEnabled = true → 1 < w.plotArea.width → 1 < w.plotArea.height →
    (w.ShowsAll ↔ w.FitsAtLeastScale) ∧ (2 < w.scale → w.ShowsAll) := by
  intro w hon hwidth hheight
  let order : IterationOrder Bytes := ⟨Finset.toList, Finset.coe_toList⟩
  obtain ⟨event, hmem, hne⟩ := hbrought
  have hfits : event.Fits := by
    cases event with
    | upsertDevices => exact trivial
    | _ => exact absurd rfl hne
  have hview : (w.updateAutoFit order).viewport = w.viewport :=
    fitted_run width height ⟨event, hmem, hfits⟩ hon order
  obtain ⟨snapshot, hsnapshot⟩ := List.exists_mem_of_ne_nil _ hne
  have hdevices : w.devicesById.keys ≠ ∅ := by
    have hid : snapshot.deviceId ∈
        (events.flatMap MapEvent.brought).map DeviceSnapshot.deviceId :=
      List.mem_map_of_mem (List.mem_flatMap.mpr ⟨event, hmem, hsnapshot⟩)
    rw [← isSome_lastOf, ← lookup_run width height, Finmap.lookup_isSome, ← Finmap.mem_keys] at hid
    exact Finset.ne_empty_of_mem hid
  have hcoordinates : w.FiniteCoordinates := by
    intro id snapshot hlookup
    obtain ⟨event, hmem, hsnapshot⟩ := exists_brought_of_lookup hlookup
    exact hfinite event hmem snapshot hsnapshot
  have hshows : (w.updateAutoFit order).ShowsAll ↔ w.ShowsAll := by
    obtain ⟨hsame, harea⟩ := w.updateAutoFit_devices order
    simp only [ShowsAll, hsame, harea, worldToScreen_eq, hview]
  have hiff := showsAll_updateAutoFit_iff hdevices hcoordinates hwidth hheight order
  rw [hshows] at hiff
  refine ⟨hiff, fun hscale => hiff.mpr ?_⟩
  have hfitted : 2 < (w.updateAutoFit order).scale := by
    rwa [show (w.updateAutoFit order).scale = w.scale from congrArg Viewport.scale hview]
  exact fitsAtLeastScale_of_lt hdevices hcoordinates hwidth hheight hfitted

/-- Two devices on a map that is zoomed, dragged and made wider, and then fitted again by a double
click. -/
theorem showsAll_run_resized : ∃ w : FleetMapWidget,
    w = run 800 600
      [.upsertDevices pairOrder 0 [statusAt (ascii "near") 3, statusAt (ascii "far") 9],
        .wheel pairOrder (-120) ⟨400, 300⟩, .mousePress pairOrder true ⟨100, 100⟩ ⟨100, 100⟩,
        .mouseMove pairOrder ⟨130, 90⟩ ⟨130, 90⟩, .mouseRelease true,
        .resize pairOrder 1000 600, .mouseDoubleClick pairOrder] ∧
    2 < w.scale ∧ w.ShowsAll := by
  let events : List MapEvent :=
    [.upsertDevices pairOrder 0 [statusAt (ascii "near") 3, statusAt (ascii "far") 9],
      .wheel pairOrder (-120) ⟨400, 300⟩, .mousePress pairOrder true ⟨100, 100⟩ ⟨100, 100⟩,
      .mouseMove pairOrder ⟨130, 90⟩ ⟨130, 90⟩, .mouseRelease true,
      .resize pairOrder 1000 600, .mouseDoubleClick pairOrder]
  have hscale : 2 < (run 800 600 events).scale := by decide +kernel
  have hmax : (9 : ℚ) ≤ maxDouble := by decide +kernel
  refine ⟨_, rfl, hscale, (showsAll_run 800 600 events
    ⟨_, List.mem_cons_self, List.cons_ne_nil _ _⟩ ?_ (by decide +kernel) (by decide +kernel)
    (by decide +kernel)).2 hscale⟩
  intro event hmem snapshot hsnapshot
  have hbrought : snapshot = ⟨statusAt (ascii "near") 3, 0⟩ ∨
      snapshot = ⟨statusAt (ascii "far") 9, 0⟩ := by
    have hall : snapshot ∈ events.flatMap MapEvent.brought :=
      List.mem_flatMap.mpr ⟨event, hmem, hsnapshot⟩
    simpa [events, MapEvent.brought] using hall
  rcases hbrought with rfl | rfl
  · rw [statusAt]
    refine ⟨⟨?_, ?_⟩, ?_, ?_⟩ <;> linarith
  · rw [statusAt]
    refine ⟨⟨?_, ?_⟩, ?_, ?_⟩ <;> linarith

end FleetMapWidget
end RemoteDeviceConsole
