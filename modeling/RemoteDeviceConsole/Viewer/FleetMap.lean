import RemoteDeviceConsole.Planar.Fit
import RemoteDeviceConsole.Viewer.DeviceViews
import Mathlib.Algebra.Order.Ring.Rat
import Mathlib.Algebra.Field.Rat
import Mathlib.Tactic.NormNum

/-!
# The fleet map

`FleetMapWidget` without its painting and tool tips.  The coordinates, the scale and the pan
are exact numbers, and `viewport` is what the scale and the pan stand for.  The coordinates of
the mouse come twice with an event, as whole numbers (`pos`) and as numbers (`position`).

`MapEvent` has every event of the UI thread that changes the widget; `viewport_invariant` is
about all sequences of them.

The scale is 1 at first; auto-fit clamps it between 2 and 80 and the wheel between 2 and 140.
So the invariant of the scale has two cases, and in both the scale is not 0: the way from the
screen to the world divides by it, and zooming around the mouse goes there and back.
-/

namespace RemoteDeviceConsole

open Planar

/-! ## State -/

/-- `width` and `height` are those of `rect()`. -/
structure FleetMapWidget where
  width : ℤ
  height : ℤ
  devicesById : Finmap fun _ : Bytes => DeviceSnapshot ℚ
  hoveredDeviceId : Option Bytes
  selectedDeviceId : Option Bytes
  lastMousePosition : Point ℤ
  pan : Point ℚ
  scale : ℚ
  autoFitEnabled : Bool
  dragging : Bool

/-- The entries of a hash map in the order of a loop. -/
def entriesIn {ν : Type} (order : IterationOrder Bytes) (map : Finmap fun _ : Bytes => ν) :
    List (Bytes × ν) :=
  (order.toList map.keys).filterMap fun key => (map.lookup key).map fun value => (key, value)

/-- The events that change the widget. -/
inductive MapEvent where
  | upsertDevices (order : IterationOrder Bytes) (seenMs : ℤ) (statuses : List (DeviceStatus ℚ))
  | autoFit (order : IterationOrder Bytes)
  | resize (order : IterationOrder Bytes) (width height : ℤ)
  | mousePress (order : IterationOrder Bytes) (leftButton : Bool) (pos : Point ℤ)
      (position : Point ℚ)
  | mouseMove (order : IterationOrder Bytes) (pos : Point ℤ) (position : Point ℚ)
  | mouseRelease (leftButton : Bool)
  | mouseDoubleClick (order : IterationOrder Bytes)
  | wheel (order : IterationOrder Bytes) (angleDeltaY : ℤ) (position : Point ℚ)

namespace FleetMapWidget

/-- The widget when it is constructed, with a size. -/
def start (width height : ℤ) : FleetMapWidget where
  width := width
  height := height
  devicesById := ∅
  hoveredDeviceId := none
  selectedDeviceId := none
  lastMousePosition := ⟨0, 0⟩
  pan := ⟨0, 0⟩
  scale := 1
  autoFitEnabled := true
  dragging := false

def kMinimumWorldSpan : ℚ := 10

def kMarkerHitRadius : ℚ := 10

/-- `std::numeric_limits<double>::max()`. -/
def maxDouble : ℚ := (2 ^ 53 - 1) * 2 ^ 971

/-! ## Auto-fit -/

/-- `rect().adjusted(16, 34, -16, -18)`. -/
def plotArea (w : FleetMapWidget) : Rect ℚ where
  x := 16
  y := 34
  width := ((w.width - 16 - 16 : ℤ) : ℚ)
  height := ((w.height - 34 - 18 : ℤ) : ℚ)

/-- The body of the loop of `worldBounds`: `min_x`, `min_y`, `max_x` and `max_y`. -/
def extendBounds (bounds : ℚ × ℚ × ℚ × ℚ) (snapshot : DeviceSnapshot ℚ) : ℚ × ℚ × ℚ × ℚ :=
  (min bounds.1 snapshot.status.x, min bounds.2.1 snapshot.status.y,
    max bounds.2.2.1 snapshot.status.x, max bounds.2.2.2 snapshot.status.y)

def worldBounds (order : IterationOrder Bytes) (w : FleetMapWidget) : Rect ℚ :=
  if w.devicesById.keys = ∅ then ⟨-10, -10, 20, 20⟩
  else
    let (minX, minY, maxX, maxY) := (valuesIn order w.devicesById).foldl extendBounds
      (maxDouble, maxDouble, -maxDouble, -maxDouble)
    let spanX := max kMinimumWorldSpan (maxX - minX)
    let spanY := max kMinimumWorldSpan (maxY - minY)
    let padX := spanX * (12 / 100)
    let padY := spanY * (12 / 100)
    ⟨minX - padX, minY - padY, spanX + padX * 2, spanY + padY * 2⟩

def worldToScreen (w : FleetMapWidget) (x y : ℚ) : Point ℚ :=
  ⟨x * w.scale + w.pan.x, -y * w.scale + w.pan.y⟩

def screenToWorld (w : FleetMapWidget) (point : Point ℚ) : Point ℚ :=
  ⟨(point.x - w.pan.x) / w.scale, -(point.y - w.pan.y) / w.scale⟩

def updateAutoFit (order : IterationOrder Bytes) (w : FleetMapWidget) : FleetMapWidget :=
  let area := w.plotArea
  if area.width ≤ 1 ∨ area.height ≤ 1 then w
  else
    let bounds := w.worldBounds order
    let nextScale := min (area.width / max 1 bounds.width) (area.height / max 1 bounds.height)
    let scale := clamp nextScale 2 80
    let worldCenter := bounds.center
    let screenCenter := area.center
    { w with
      scale := scale
      pan := ⟨screenCenter.x - worldCenter.x * scale, screenCenter.y + worldCenter.y * scale⟩ }

def autoFit (order : IterationOrder Bytes) (w : FleetMapWidget) : FleetMapWidget :=
  updateAutoFit order { w with autoFitEnabled := true }

def upsertDevices (order : IterationOrder Bytes) (seenMs : ℤ) (statuses : List (DeviceStatus ℚ))
    (w : FleetMapWidget) : FleetMapWidget :=
  let w := { w with
    devicesById := RemoteDeviceConsole.upsertDevices seenMs w.devicesById statuses }
  if w.autoFitEnabled then w.updateAutoFit order else w

def resizeEvent (order : IterationOrder Bytes) (width height : ℤ) (w : FleetMapWidget) :
    FleetMapWidget :=
  let w := { w with width := width, height := height }
  if w.autoFitEnabled then w.updateAutoFit order else w

/-! ## The mouse -/

/-- The body of the loop of `nearestDeviceId`.  The distances are compared by their squares. -/
def nearer (w : FleetMapWidget) (point : Point ℚ) (nearest : Option Bytes × ℚ)
    (entry : Bytes × DeviceSnapshot ℚ) : Option Bytes × ℚ :=
  let marker := w.worldToScreen entry.2.status.x entry.2.status.y
  let distanceSquared := (marker.x - point.x) ^ 2 + (marker.y - point.y) ^ 2
  if distanceSquared ≤ nearest.2 then (some entry.1, distanceSquared) else nearest

def nearestDeviceId (order : IterationOrder Bytes) (w : FleetMapWidget) (point : Point ℚ) :
    Option Bytes :=
  ((entriesIn order w.devicesById).foldl (w.nearer point) (none, kMarkerHitRadius ^ 2)).1

def updateHover (order : IterationOrder Bytes) (point : Point ℚ) (w : FleetMapWidget) :
    FleetMapWidget :=
  { w with hoveredDeviceId := w.nearestDeviceId order point }

def mousePressEvent (order : IterationOrder Bytes) (leftButton : Bool) (pos : Point ℤ)
    (position : Point ℚ) (w : FleetMapWidget) : FleetMapWidget :=
  if leftButton then
    let selectedDeviceId := w.nearestDeviceId order position
    { w with
      selectedDeviceId := selectedDeviceId
      dragging := selectedDeviceId.isNone
      lastMousePosition := pos }
  else w

def mouseMoveEvent (order : IterationOrder Bytes) (pos : Point ℤ) (position : Point ℚ)
    (w : FleetMapWidget) : FleetMapWidget :=
  if w.dragging then
    let delta : Point ℤ := ⟨pos.x - w.lastMousePosition.x, pos.y - w.lastMousePosition.y⟩
    { w with
      autoFitEnabled := false
      pan := ⟨w.pan.x + delta.x, w.pan.y + delta.y⟩
      lastMousePosition := pos }
  else w.updateHover order position

def mouseReleaseEvent (leftButton : Bool) (w : FleetMapWidget) : FleetMapWidget :=
  if leftButton then { w with dragging := false } else w

def mouseDoubleClickEvent (order : IterationOrder Bytes) (w : FleetMapWidget) :
    FleetMapWidget :=
  w.autoFit order

/-- `factor` of `wheelEvent`. -/
def wheelFactor (angleDeltaY : ℤ) : ℚ :=
  if 0 < angleDeltaY then 115 / 100 else 1 / (115 / 100)

def wheelEvent (order : IterationOrder Bytes) (angleDeltaY : ℤ) (cursor : Point ℚ)
    (w : FleetMapWidget) : FleetMapWidget :=
  let before := w.screenToWorld cursor
  let scale := clamp (w.scale * wheelFactor angleDeltaY) 2 140
  updateHover order cursor
    { w with
      autoFitEnabled := false
      scale := scale
      pan := ⟨cursor.x - before.x * scale, cursor.y + before.y * scale⟩ }

/-! ## Runs -/

def handle (w : FleetMapWidget) : MapEvent → FleetMapWidget
  | .upsertDevices order seenMs statuses => w.upsertDevices order seenMs statuses
  | .autoFit order => w.autoFit order
  | .resize order width height => w.resizeEvent order width height
  | .mousePress order leftButton pos position => w.mousePressEvent order leftButton pos position
  | .mouseMove order pos position => w.mouseMoveEvent order pos position
  | .mouseRelease leftButton => w.mouseReleaseEvent leftButton
  | .mouseDoubleClick order => w.mouseDoubleClickEvent order
  | .wheel order angleDeltaY position => w.wheelEvent order angleDeltaY position

/-- The widget after some events. -/
def run (width height : ℤ) (events : List (MapEvent)) : FleetMapWidget :=
  events.foldl handle (start width height)

/-! ## The viewport -/

/-- What the scale and the pan stand for. -/
def viewport (w : FleetMapWidget) : Viewport ℚ := ⟨w.scale, w.pan⟩

theorem worldToScreen_eq (w : FleetMapWidget) (x y : ℚ) :
    w.worldToScreen x y = w.viewport.toScreen ⟨x, y⟩ := rfl

theorem screenToWorld_eq (w : FleetMapWidget) (point : Point ℚ) :
    w.screenToWorld point = w.viewport.toWorld point := rfl

/-- A wheel event is a zoom around the cursor. -/
theorem viewport_wheelEvent (order : IterationOrder Bytes) (angleDeltaY : ℤ) (cursor : Point ℚ)
    (w : FleetMapWidget) :
    (w.wheelEvent order angleDeltaY cursor).viewport =
      w.viewport.zoom (clamp (w.scale * wheelFactor angleDeltaY) 2 140) cursor := rfl

/-- Auto-fit puts the middle of the bounds into the middle of the plot area. -/
theorem viewport_updateAutoFit (order : IterationOrder Bytes) {w : FleetMapWidget}
    (hwidth : 1 < w.plotArea.width) (hheight : 1 < w.plotArea.height) :
    (w.updateAutoFit order).viewport =
      .pinned (fitScale w.plotArea.width w.plotArea.height (max 1 (w.worldBounds order).width)
        (max 1 (w.worldBounds order).height) 2 80) (w.worldBounds order).center
        w.plotArea.center := by
  rw [updateAutoFit, if_neg (not_or.mpr ⟨hwidth.not_ge, hheight.not_ge⟩)]
  rfl

/-! ## The scale -/

/-- The scale is the one of the start or between the ends of the zoom. -/
def ScaleInRange (w : FleetMapWidget) : Prop := w.scale = 1 ∨ 2 ≤ w.scale ∧ w.scale ≤ 140

theorem ScaleInRange.ne_zero {w : FleetMapWidget} (h : w.ScaleInRange) : w.scale ≠ 0 := by
  rcases h with h | ⟨h, -⟩
  · rw [h]
    exact one_ne_zero
  · exact (zero_lt_two.trans_le h).ne'

theorem ScaleInRange.updateAutoFit {w : FleetMapWidget} (h : w.ScaleInRange)
    (order : IterationOrder Bytes) : (w.updateAutoFit order).ScaleInRange := by
  unfold FleetMapWidget.updateAutoFit
  dsimp only
  split
  · exact h
  · obtain ⟨hlow, hhigh⟩ := clamp_mem (show (2 : ℚ) ≤ 80 by norm_num)
      (min (w.plotArea.width / max 1 (w.worldBounds order).width)
        (w.plotArea.height / max 1 (w.worldBounds order).height))
    exact .inr ⟨hlow, hhigh.trans (by norm_num)⟩

/-- An event fits, zooms or leaves the scale as it is. -/
theorem ScaleInRange.handle {w : FleetMapWidget} (h : w.ScaleInRange) (event : MapEvent) :
    (w.handle event).ScaleInRange := by
  have hkeep : ∀ {w' : FleetMapWidget}, w'.scale = w.scale → w'.ScaleInRange := by
    intro w' hscale
    rwa [ScaleInRange, hscale]
  have hfit : ∀ {w' : FleetMapWidget} (order : IterationOrder Bytes), w'.scale = w.scale →
      (w'.updateAutoFit order).ScaleInRange := fun order hscale =>
    (hkeep hscale).updateAutoFit order
  cases event with
  | upsertDevices order seenMs statuses =>
    rw [FleetMapWidget.handle, FleetMapWidget.upsertDevices]
    split
    · apply hfit
      rfl
    · exact hkeep rfl
  | autoFit order =>
    show ({ w with autoFitEnabled := true }.updateAutoFit order).ScaleInRange
    exact hfit order rfl
  | resize order width height =>
    rw [FleetMapWidget.handle, resizeEvent]
    split
    · apply hfit
      rfl
    · exact hkeep rfl
  | mousePress order leftButton pos position =>
    rw [FleetMapWidget.handle, mousePressEvent]
    split
    · exact hkeep rfl
    · exact h
  | mouseMove order pos position =>
    rw [FleetMapWidget.handle, mouseMoveEvent]
    split
    · exact hkeep rfl
    · exact hkeep rfl
  | mouseRelease leftButton =>
    rw [FleetMapWidget.handle, mouseReleaseEvent]
    split
    · exact hkeep rfl
    · exact h
  | mouseDoubleClick order =>
    show ({ w with autoFitEnabled := true }.updateAutoFit order).ScaleInRange
    exact hfit order rfl
  | wheel order angleDeltaY position =>
    exact .inr (clamp_mem (by norm_num) _)

theorem scaleInRange_run (width height : ℤ) (events : List (MapEvent)) :
    (run width height events).ScaleInRange := by
  induction events using List.reverseRecOn with
  | nil => exact .inl rfl
  | append_singleton events event ih =>
    rw [run, List.foldl_append]
    exact ih.handle event

/-! ## Zooming -/

/-- The zoom is not cut. -/
def Unclamped (scale : ℚ) : Prop := 2 ≤ scale ∧ scale ≤ 140

theorem Unclamped.scale_wheelEvent {w : FleetMapWidget} {angleDeltaY : ℤ}
    (h : Unclamped (w.scale * wheelFactor angleDeltaY)) (order : IterationOrder Bytes)
    (cursor : Point ℚ) :
    (w.wheelEvent order angleDeltaY cursor).scale = w.scale * wheelFactor angleDeltaY :=
  clamp_of_mem h.1 h.2

/-- A step up and a step down cancel out. -/
theorem wheelFactor_mul {up down : ℤ} (hup : 0 < up) (hdown : ¬ 0 < down) :
    (wheelFactor up * wheelFactor down : ℚ) = 1 := by
  rw [wheelFactor, wheelFactor, if_pos hup, if_neg hdown]
  norm_num

/-- **The viewport invariant.**  After any events the scale is the one of the start or between
the ends of the zoom, the two maps are inverse, a wheel event keeps the world point under the
cursor, and a step down undoes a step up when neither is clamped. -/
theorem viewport_invariant (width height : ℤ) (events : List (MapEvent)) :
    let w := run width height events
    (w.scale = 1 ∨ 2 ≤ w.scale ∧ w.scale ≤ 140) ∧
    (∀ x y, w.screenToWorld (w.worldToScreen x y) = ⟨x, y⟩) ∧
    (∀ point, w.worldToScreen (w.screenToWorld point).x (w.screenToWorld point).y = point) ∧
    (∀ order angleDeltaY cursor,
      (w.wheelEvent order angleDeltaY cursor).screenToWorld cursor = w.screenToWorld cursor) ∧
    ∀ order order' up down cursor, 0 < up → ¬ 0 < down →
      let zoomed := w.wheelEvent order up cursor
      Unclamped (w.scale * wheelFactor up) → Unclamped (zoomed.scale * wheelFactor down) →
      (zoomed.wheelEvent order' down cursor).scale = w.scale ∧
        (zoomed.wheelEvent order' down cursor).pan = w.pan := by
  intro w
  have hrange : w.ScaleInRange := scaleInRange_run width height events
  have hclamp : ∀ value : ℚ, clamp value 2 140 ≠ 0 := fun value =>
    (zero_lt_two.trans_le (clamp_mem (by norm_num) value).1).ne'
  have hscale : w.viewport.scale ≠ 0 := hrange.ne_zero
  refine ⟨hrange, fun x y => Viewport.toWorld_toScreen hscale ⟨x, y⟩,
    Viewport.toScreen_toWorld hscale, ?_, ?_⟩
  · intro order angleDeltaY cursor
    rw [screenToWorld_eq, viewport_wheelEvent, Viewport.toWorld_zoom (hclamp _), screenToWorld_eq]
  · intro order order' up down cursor hup hdown zoomed hunclamped hunclamped'
    have hdone : clamp (zoomed.scale * wheelFactor down) 2 140 = w.viewport.scale := by
      rw [clamp_of_mem hunclamped'.1 hunclamped'.2, hunclamped.scale_wheelEvent, mul_assoc,
        wheelFactor_mul hup hdown, mul_one]
      rfl
    have hback : (zoomed.wheelEvent order' down cursor).viewport = w.viewport := by
      rw [viewport_wheelEvent, viewport_wheelEvent, hdone, Viewport.zoom_zoom (hclamp _),
        Viewport.zoom_self hscale]
    exact ⟨congrArg Viewport.scale hback, congrArg Viewport.pan hback⟩

/-- One wheel event brings the scale to the lower end, and from there a step up and a step
down cancel out. -/
theorem viewport_invariant_wheel :
    ∃ (order : IterationOrder Bytes) (w : FleetMapWidget),
      w = run 800 600 [.wheel order (-120) ⟨100, 200⟩] ∧ w.scale = 2 ∧
      ((w.wheelEvent order 120 ⟨300, 50⟩).wheelEvent order (-120) ⟨300, 50⟩).pan = w.pan := by
  let order : IterationOrder Bytes := ⟨Finset.toList, Finset.coe_toList⟩
  obtain ⟨-, -, -, -, hback⟩ :=
    viewport_invariant 800 600 [.wheel order (-120) ⟨100, 200⟩]
  have hscale : (run 800 600 [.wheel order (-120) ⟨100, 200⟩]).scale = 2 := by
    decide +kernel
  have hup : Unclamped (2 * wheelFactor 120 : ℚ) := by norm_num [Unclamped, wheelFactor]
  have hdown : Unclamped (2 * wheelFactor 120 * wheelFactor (-120) : ℚ) := by
    norm_num [Unclamped, wheelFactor]
  rw [← hscale] at hup hdown
  refine ⟨order, _, rfl, hscale, ?_⟩
  refine (hback order order 120 (-120) ⟨300, 50⟩ (by decide) (by decide) hup ?_).2
  rwa [hup.scale_wheelEvent]

end FleetMapWidget
end RemoteDeviceConsole
