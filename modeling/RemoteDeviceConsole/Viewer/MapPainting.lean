import RemoteDeviceConsole.Viewer.MapFitting

/-!
# What the fleet map paints

`paintEvent` without the frame, the grid and the fonts, which depend on the size of the widget
alone.  It skips the devices whose markers are more than 12 pixels outside of the plot area.

* `paintEvent_run`: the map waits exactly when no event brought a device; otherwise exactly the
  devices in view have a marker, each one and at the place of its last status, and the labels are
  those of the markers that are hovered or selected.
* `paintEvent_fades`: with no batch in between, markers only fade.

The loop over the devices goes in the order of the hash map and draws as it goes, so a picture is
a list of markers in an order that nothing is known of.  The statement names the devices instead:
there is a list of ids without repetitions, those in view, and the markers are theirs one by one.

Fading is a comparison of two pictures, which may be painted in two orders, so the ids are
matched and not the places in the lists.  The ring of a device that was seen just now has a
radius that falls with the age, and is strictly smaller at any later time; its color is that of
the state, with an alpha of its own that does not change.
-/

namespace RemoteDeviceConsole

open Framing Machine Planar

/-! ## Shapes -/

/-- `QColor` with its alpha. -/
structure PaintColor where
  color : QColor
  alpha : ℕ := 255
  deriving DecidableEq

/-- The marker of a device: the ring with its radius and color, the pen and the fill. -/
structure MapMarker where
  point : Point ℚ
  ring : Option (ℚ × PaintColor)
  penWidth : ℕ
  fill : PaintColor
  radius : ℚ
  deriving DecidableEq

/-- The label of a device. -/
structure MapLabel where
  rect : Rect ℚ
  text : Bytes
  deriving DecidableEq

/-- What `paintEvent` draws: the numbers that it prints, and the markers and labels, or none of
them but a text that it waits for devices. -/
structure MapPicture where
  antialiasing : Bool
  count : ℕ
  scale : ℚ
  devices : Option (List MapMarker × List MapLabel)
  deriving DecidableEq

/-- `QRectF::adjusted`. -/
def adjusted (r : Rect ℚ) (dx1 dy1 dx2 dy2 : ℚ) : Rect ℚ :=
  ⟨r.x + dx1, r.y + dy1, r.width + dx2 - dx1, r.height + dy2 - dy1⟩

/-- One axis of `QRectF::contains`: a length may be negative, and nothing is in a length
of 0. -/
def spanContains (start length c : ℚ) : Bool :=
  let (low, high) := if length < 0 then (start + length, start) else (start, start + length)
  !decide (low = high) && (!decide (c < low) && !decide (c > high))

/-- `QRectF::contains`. -/
def rectContains (r : Rect ℚ) (p : Point ℚ) : Bool :=
  spanContains r.x r.width p.x && spanContains r.y r.height p.y

namespace FleetMapWidget

def kFreshMs : ℤ := 1200

def kStaleMs : ℤ := 5000

def colorForState (state : Bytes) (ageMs : ℤ) : PaintColor :=
  let color : QColor := if state = ascii "OK" then ⟨46, 160, 67⟩ else ⟨210, 68, 58⟩
  let color : QColor := if ageMs > kStaleMs then ⟨108, 117, 125⟩ else color
  if ageMs > kStaleMs then { color, alpha := 90 }
  else if ageMs > kFreshMs then { color, alpha := 170 }
  else { color }

/-- `marker_radius`. -/
def markerRadius (w : FleetMapWidget) : ℚ := if w.devicesById.keys.card > 250 then 7 / 2 else 5

/-- The marker is not skipped. -/
def InView (w : FleetMapWidget) (snapshot : DeviceSnapshot ℚ) : Prop :=
  rectContains (adjusted w.plotArea (-12) (-12) 12 12)
    (w.worldToScreen snapshot.status.x snapshot.status.y) = true

instance (w : FleetMapWidget) (snapshot : DeviceSnapshot ℚ) : Decidable (w.InView snapshot) :=
  inferInstanceAs (Decidable (_ = true))

/-- The marker of a device that is not skipped. -/
def marker (currentMs : ℤ) (w : FleetMapWidget) (deviceId : Bytes)
    (snapshot : DeviceSnapshot ℚ) : MapMarker :=
  let point := w.worldToScreen snapshot.status.x snapshot.status.y
  let ageMs := currentMs - snapshot.lastSeenMs
  let fill := colorForState snapshot.status.state ageMs
  { point
    ring :=
      if ageMs < kFreshMs then
        some (w.markerRadius + 4 + 4 * (1 - (ageMs : ℚ) / (kFreshMs : ℚ)),
          { fill with alpha := 60 })
      else none
    penWidth := if w.selectedDeviceId = some deviceId then 2 else 1
    fill
    radius := w.markerRadius }

/-- `is_hovered || is_selected`. -/
def Highlighted (w : FleetMapWidget) (deviceId : Bytes) : Prop :=
  w.hoveredDeviceId = some deviceId ∨ w.selectedDeviceId = some deviceId

instance (w : FleetMapWidget) (deviceId : Bytes) : Decidable (w.Highlighted deviceId) :=
  inferInstanceAs (Decidable (_ ∨ _))

/-- The body of the loop over the devices: the markers, and `highlighted`. -/
def paintDevice (currentMs : ℤ) (w : FleetMapWidget)
    (painted : List MapMarker × List (DeviceSnapshot ℚ)) (entry : Bytes × DeviceSnapshot ℚ) :
    List MapMarker × List (DeviceSnapshot ℚ) :=
  let (deviceId, snapshot) := entry
  if w.InView snapshot then
    (painted.1 ++ [w.marker currentMs deviceId snapshot],
      if w.Highlighted deviceId then painted.2 ++ [snapshot] else painted.2)
  else painted

/-- The body of the loop over `highlighted`. -/
def label (w : FleetMapWidget) (snapshot : DeviceSnapshot ℚ) : MapLabel :=
  let point := w.worldToScreen snapshot.status.x snapshot.status.y
  { rect := ⟨point.x + 9, point.y - 20, 110, 18⟩
    text := snapshot.status.deviceId }

def paintEvent (order : IterationOrder Bytes) (currentMs : ℤ) (w : FleetMapWidget) :
    MapPicture where
  antialiasing := decide (w.devicesById.keys.card ≤ 600)
  count := w.devicesById.keys.card
  scale := w.scale
  devices :=
    if w.devicesById.keys = ∅ then none
    else
      let (markers, highlighted) :=
        (entriesIn order w.devicesById).foldl (w.paintDevice currentMs) ([], [])
      some (markers, highlighted.map w.label)

/-! ## The loops -/

variable {w : FleetMapWidget} {order : IterationOrder Bytes} {currentMs : ℤ}

/-- The loop over the devices skips some and keeps the others in order. -/
theorem foldl_paintDevice (currentMs : ℤ) (w : FleetMapWidget)
    (entries : List (Bytes × DeviceSnapshot ℚ)) :
    entries.foldl (w.paintDevice currentMs) ([], []) =
      ((entries.filter fun entry => w.InView entry.2).map fun entry =>
          w.marker currentMs entry.1 entry.2,
        ((entries.filter fun entry => w.InView entry.2).filter fun entry =>
          w.Highlighted entry.1).map Prod.snd) := by
  induction entries using List.reverseRecOn with
  | nil => rfl
  | append_singleton entries entry ih =>
    rw [List.foldl_append, ih, List.filter_append]
    show w.paintDevice currentMs _ entry = _
    by_cases hview : w.InView entry.2
    · by_cases hlight : w.Highlighted entry.1
      · simp [paintDevice, hview, hlight]
      · simp [paintDevice, hview, hlight]
    · simp [paintDevice, hview]

/-- The loop visits every key once. -/
theorem map_fst_entriesIn (order : IterationOrder Bytes)
    (map : Finmap fun _ : Bytes => DeviceSnapshot ℚ) :
    (entriesIn order map).map Prod.fst = order.toList map.keys := by
  have hsome : ∀ key ∈ order.toList map.keys,
      ((map.lookup key).map fun value => (key, value)).map Prod.fst = some key := by
    intro key hkey
    rw [IterationOrder.mem_toList, Finmap.mem_keys] at hkey
    obtain ⟨value, hvalue⟩ := Finmap.mem_iff.mp hkey
    rw [hvalue]
    rfl
  rw [entriesIn, List.map_filterMap, List.filterMap_congr hsome, List.filterMap_some]

/-- The devices in view, in the order of a loop. -/
def idsInView (order : IterationOrder Bytes) (w : FleetMapWidget) : List Bytes :=
  ((entriesIn order w.devicesById).filter fun entry => w.InView entry.2).map Prod.fst

theorem nodup_idsInView : (w.idsInView order).Nodup := by
  have hsub : (w.idsInView order).Sublist ((entriesIn order w.devicesById).map Prod.fst) :=
    List.filter_sublist.map Prod.fst
  rw [map_fst_entriesIn] at hsub
  exact (order.nodup_toList _).sublist hsub

theorem mem_idsInView {id : Bytes} :
    id ∈ w.idsInView order ↔
      ∃ snapshot, w.devicesById.lookup id = some snapshot ∧ w.InView snapshot := by
  rw [idsInView, List.mem_map]
  constructor
  · rintro ⟨entry, hentry, rfl⟩
    obtain ⟨hmem, hview⟩ := List.mem_filter.mp hentry
    exact ⟨entry.2, mem_entriesIn.mp hmem, by simpa using hview⟩
  · rintro ⟨snapshot, hlookup, hview⟩
    exact ⟨(id, snapshot), List.mem_filter.mpr ⟨mem_entriesIn.mpr hlookup, by simpa using hview⟩,
      rfl⟩

/-- Entries of the map are known by their keys. -/
theorem map_eq_filterMap_lookup {β : Type} (f : Bytes → DeviceSnapshot ℚ → β)
    {entries : List (Bytes × DeviceSnapshot ℚ)}
    (h : ∀ entry ∈ entries, w.devicesById.lookup entry.1 = some entry.2) :
    entries.map (fun entry => f entry.1 entry.2) =
      (entries.map Prod.fst).filterMap fun id => (w.devicesById.lookup id).map (f id) := by
  rw [List.filterMap_map, ← List.filterMap_eq_map]
  refine List.filterMap_congr fun entry hentry => ?_
  simp [h entry hentry]

/-- **What is painted of the devices**, by their ids. -/
theorem devices_paintEvent (hdevices : w.devicesById.keys ≠ ∅) (order : IterationOrder Bytes)
    (currentMs : ℤ) :
    (w.paintEvent order currentMs).devices =
      some ((w.idsInView order).filterMap fun id =>
          (w.devicesById.lookup id).map (w.marker currentMs id),
        ((w.idsInView order).filter fun id => w.Highlighted id).filterMap fun id =>
          (w.devicesById.lookup id).map w.label) := by
  have hentries : ∀ entry ∈ (entriesIn order w.devicesById).filter fun entry =>
      w.InView entry.2, w.devicesById.lookup entry.1 = some entry.2 :=
    fun entry hentry => mem_entriesIn.mp (List.mem_filter.mp hentry).1
  have hlit : ∀ entry ∈ ((entriesIn order w.devicesById).filter fun entry =>
      w.InView entry.2).filter fun entry => w.Highlighted entry.1,
      w.devicesById.lookup entry.1 = some entry.2 :=
    fun entry hentry => hentries entry (List.mem_filter.mp hentry).1
  have hmarkers := map_eq_filterMap_lookup (w.marker currentMs) hentries
  have hlabels := map_eq_filterMap_lookup (fun _ => w.label) hlit
  rw [paintEvent, if_neg hdevices, foldl_paintDevice]
  dsimp only
  rw [hmarkers, List.map_map, idsInView, List.filter_map]
  exact congrArg (fun labels => some (_, labels)) hlabels

/-! ## What is in view -/

theorem spanContains_iff {start length c : ℚ} (hlength : 0 < length) :
    spanContains start length c = true ↔ start ≤ c ∧ c ≤ start + length := by
  have hne : ¬ start = start + length := by
    intro h
    linarith
  simp [spanContains, hlength.not_gt, hne]

/-- A marker at most 12 pixels outside of the plot area is in view. -/
theorem inView_of_near {snapshot : DeviceSnapshot ℚ} {point : Point ℚ}
    (hpoint : w.plotArea.Contains point)
    (hx : |(w.worldToScreen snapshot.status.x snapshot.status.y).x - point.x| ≤ 12)
    (hy : |(w.worldToScreen snapshot.status.x snapshot.status.y).y - point.y| ≤ 12) :
    w.InView snapshot := by
  obtain ⟨⟨hleft, hright⟩, htop, hbottom⟩ := hpoint
  obtain ⟨hx1, hx2⟩ := abs_le.mp hx
  obtain ⟨hy1, hy2⟩ := abs_le.mp hy
  rw [InView, rectContains, Bool.and_eq_true, adjusted, spanContains_iff (by linarith),
    spanContains_iff (by linarith)]
  refine ⟨⟨?_, ?_⟩, ?_, ?_⟩ <;> linarith

/-- **What the mouse hits in the plot area is painted.** -/
theorem Hits.inView {snapshot : DeviceSnapshot ℚ} {point : Point ℚ} (h : w.Hits point snapshot)
    (hpoint : w.plotArea.Contains point) : w.InView snapshot := by
  have hradius : kMarkerHitRadius = 10 := rfl
  have hsum : ((w.worldToScreen snapshot.status.x snapshot.status.y).x - point.x) ^ 2 +
      ((w.worldToScreen snapshot.status.x snapshot.status.y).y - point.y) ^ 2 ≤ 10 ^ 2 := h
  have hnear : ∀ d e : ℚ, d ^ 2 + e ^ 2 ≤ 10 ^ 2 → |d| ≤ 12 := by
    intro d e hde
    have hd : d ^ 2 ≤ 10 ^ 2 := (le_add_of_nonneg_right (sq_nonneg e)).trans hde
    exact (abs_le_of_sq_le_sq hd (by norm_num)).trans (by norm_num)
  exact inView_of_near hpoint (hnear _ _ hsum) (hnear _ _ (by rwa [add_comm] at hsum))

/-- At most two devices are highlighted. -/
theorem length_highlighted_le {ids : List Bytes} (hnodup : ids.Nodup) :
    (ids.filter fun id => w.Highlighted id).length ≤ 2 := by
  have hsubset : (ids.filter fun id => w.Highlighted id) ⊆
      w.hoveredDeviceId.toList ++ w.selectedDeviceId.toList := by
    intro id hid
    have hlit : w.Highlighted id := by simpa using (List.mem_filter.mp hid).2
    rw [List.mem_append, Option.mem_toList, Option.mem_toList]
    exact hlit
  have hlength := (hnodup.filter _).length_le_of_subset hsubset
  have hlist : ∀ id : Option Bytes, id.toList.length ≤ 1 := fun id => by cases id <;> simp
  have hhovered := hlist w.hoveredDeviceId
  have hselected := hlist w.selectedDeviceId
  rw [List.length_append] at hlength
  omega

/-- The map is empty as long as no event brings a device. -/
theorem keys_run_eq_empty_iff (width height : ℤ) (events : List MapEvent) :
    (run width height events).devicesById.keys = ∅ ↔ ∀ event ∈ events, event.brought = [] := by
  rw [← List.flatMap_eq_nil_iff, Finset.eq_empty_iff_forall_notMem]
  constructor
  · intro hempty
    rw [List.eq_nil_iff_forall_not_mem]
    intro snapshot hsnapshot
    have hid : snapshot.deviceId ∈
        (events.flatMap MapEvent.brought).map DeviceSnapshot.deviceId :=
      List.mem_map_of_mem hsnapshot
    rw [← isSome_lastOf, ← lookup_run width height, Finmap.lookup_isSome, ← Finmap.mem_keys] at hid
    exact hempty _ hid
  · intro hnone id hid
    rw [Finmap.mem_keys, ← Finmap.lookup_isSome, lookup_run, hnone] at hid
    exact Bool.false_ne_true hid

/-- **What the map paints.**  After any events, the map waits exactly when no event brought a
device.  Once one did, every device in view, and no other, has one marker, that of its last
status; the ones of them that are hovered or selected have a label, at most two; and what the
mouse would pick in the plot area is in view. -/
theorem paintEvent_run (width height : ℤ) (events : List MapEvent) (order : IterationOrder Bytes)
    (currentMs : ℤ) :
    let w := run width height events
    let last := fun id => lastOf DeviceSnapshot.deviceId id (events.flatMap MapEvent.brought)
    ((w.paintEvent order currentMs).devices = none ↔ ∀ event ∈ events, event.brought = []) ∧
    ((∃ event ∈ events, event.brought ≠ []) → ∃ ids : List Bytes,
      (ids.Nodup ∧ ∀ id, id ∈ ids ↔ ∃ snapshot, last id = some snapshot ∧ w.InView snapshot) ∧
      (w.paintEvent order currentMs).devices =
        some (ids.filterMap fun id => (last id).map (w.marker currentMs id),
          (ids.filter fun id => w.Highlighted id).filterMap fun id => (last id).map w.label) ∧
      (ids.filter fun id => w.Highlighted id).length ≤ 2 ∧
      ∀ order' point id, w.plotArea.Contains point → w.nearestDeviceId order' point = some id →
        id ∈ ids) := by
  intro w last
  have hlast : ∀ id, w.devicesById.lookup id = last id := lookup_run width height events
  have hempty : w.devicesById.keys = ∅ ↔ ∀ event ∈ events, event.brought = [] :=
    keys_run_eq_empty_iff width height events
  constructor
  · rw [← hempty, paintEvent]
    by_cases hdevices : w.devicesById.keys = ∅
    · simp [hdevices]
    · simp [hdevices]
  · rintro ⟨event, hmem, hbrought⟩
    have hdevices : w.devicesById.keys ≠ ∅ := fun hnone => hbrought (hempty.mp hnone event hmem)
    refine ⟨w.idsInView order, ⟨nodup_idsInView, fun id => ?_⟩, ?_,
      length_highlighted_le nodup_idsInView, fun order' point id hpoint hpicked => ?_⟩
    · rw [mem_idsInView, hlast]
    · rw [devices_paintEvent hdevices]
      simp only [hlast]
    · obtain ⟨snapshot, hlookup, hhit, -⟩ := (picks_nearestDeviceId w order' point).nearest id
        hpicked
      exact mem_idsInView.mpr ⟨snapshot, hlookup, hhit.inView hpoint⟩

/-! ## Fading -/

/-- A marker at a time, and the marker of the same device at a later time: a ring that is still
there has become smaller, and both rings are drawn with alpha 60. -/
structure Fades (t t' : ℤ) (m m' : MapMarker) : Prop where
  point : m'.point = m.point
  penWidth : m'.penWidth = m.penWidth
  radius : m'.radius = m.radius
  alpha : m'.fill.alpha ≤ m.fill.alpha
  gray : m.fill.color = ⟨108, 117, 125⟩ → m'.fill.color = ⟨108, 117, 125⟩
  ring : ∀ ring', m'.ring = some ring' → ∃ ring, m.ring = some ring ∧ ring'.1 ≤ ring.1 ∧
    (t < t' → ring'.1 < ring.1) ∧ ring.2.alpha = 60 ∧ ring'.2 = ring.2

theorem alpha_colorForState (state : Bytes) (ageMs : ℤ) :
    (colorForState state ageMs).alpha =
      if ageMs > kStaleMs then 90 else if ageMs > kFreshMs then 170 else 255 := by
  unfold colorForState
  dsimp only
  split
  · rfl
  · split
    · rfl
    · rfl

/-- Only the color of a stale device is gray. -/
theorem color_colorForState_eq_iff {state : Bytes} {ageMs : ℤ} :
    (colorForState state ageMs).color = ⟨108, 117, 125⟩ ↔ ageMs > kStaleMs := by
  unfold colorForState
  dsimp only
  split
  · next hstale => simp [hstale]
  · next hlive =>
    refine iff_of_false ?_ hlive
    split <;> split <;> simp

/-- The color of a device that was seen just now does not depend on its age. -/
theorem color_colorForState_of_fresh {state : Bytes} {ageMs : ℤ} (h : ageMs < kFreshMs) :
    (colorForState state ageMs).color =
      if state = ascii "OK" then ⟨46, 160, 67⟩ else ⟨210, 68, 58⟩ := by
  have hlive : ¬ ageMs > kStaleMs := by
    have hfresh : kFreshMs ≤ kStaleMs := by decide
    omega
  unfold colorForState
  dsimp only
  rw [if_neg hlive, if_neg hlive]
  split <;> rfl

section Ring

variable {radius : ℚ} {ageMs ageMs' : ℤ}

/-- The ring shrinks. -/
theorem ringRadius_lt (h : ageMs < ageMs') :
    radius + 4 + 4 * (1 - (ageMs' : ℚ) / (kFreshMs : ℚ)) <
      radius + 4 + 4 * (1 - (ageMs : ℚ) / (kFreshMs : ℚ)) := by
  have hpos : (0 : ℚ) < (kFreshMs : ℚ) := by norm_num [kFreshMs]
  have hlt : (ageMs : ℚ) / (kFreshMs : ℚ) < (ageMs' : ℚ) / (kFreshMs : ℚ) :=
    div_lt_div_of_pos_right (Int.cast_lt.mpr h) hpos
  linarith

theorem ringRadius_le (h : ageMs ≤ ageMs') :
    radius + 4 + 4 * (1 - (ageMs' : ℚ) / (kFreshMs : ℚ)) ≤
      radius + 4 + 4 * (1 - (ageMs : ℚ) / (kFreshMs : ℚ)) := by
  rcases h.eq_or_lt with rfl | hlt
  · exact le_refl _
  · exact (ringRadius_lt hlt).le

end Ring

/-- **A marker fades.** -/
theorem fades_marker {t t' : ℤ} (h : t ≤ t') (id : Bytes) (snapshot : DeviceSnapshot ℚ) :
    Fades t t' (w.marker t id snapshot) (w.marker t' id snapshot) := by
  have hage : t - snapshot.lastSeenMs ≤ t' - snapshot.lastSeenMs := Int.sub_le_sub_right h _
  refine ⟨rfl, rfl, rfl, ?_, ?_, ?_⟩
  · show (colorForState _ _).alpha ≤ (colorForState _ _).alpha
    have hfresh : kFreshMs ≤ kStaleMs := by decide
    rw [alpha_colorForState, alpha_colorForState]
    split_ifs <;> omega
  · show (colorForState _ _).color = _ → (colorForState _ _).color = _
    rw [color_colorForState_eq_iff, color_colorForState_eq_iff]
    exact fun hstale => hstale.trans_le hage
  · intro ring' hring'
    simp only [marker, Option.ite_none_right_eq_some, Option.some.injEq] at hring' ⊢
    obtain ⟨hfresh, rfl⟩ := hring'
    have hfresh' : t - snapshot.lastSeenMs < kFreshMs := hage.trans_lt hfresh
    refine ⟨_, ⟨hfresh', rfl⟩, ?_, fun hlt => ?_, rfl, ?_⟩
    · exact ringRadius_le hage
    · exact ringRadius_lt (Int.sub_lt_sub_right hlt _)
    · rw [PaintColor.mk.injEq]
      exact ⟨(color_colorForState_of_fresh hfresh).trans
        (color_colorForState_of_fresh hfresh').symm, rfl⟩

/-- A device that was not seen for long is gray. -/
theorem marker_stale {t : ℤ} {id : Bytes} {snapshot : DeviceSnapshot ℚ}
    (h : snapshot.lastSeenMs + kStaleMs < t) :
    (w.marker t id snapshot).fill = { color := ⟨108, 117, 125⟩, alpha := 90 } ∧
      (w.marker t id snapshot).ring = none := by
  have hstale : t - snapshot.lastSeenMs > kStaleMs := by omega
  have hold : ¬ t - snapshot.lastSeenMs < kFreshMs := by
    have hfresh : kFreshMs ≤ kStaleMs := by decide
    omega
  constructor
  · simp [marker, colorForState, hstale]
  · simp [marker, hold]

theorem perm_idsInView (order order' : IterationOrder Bytes) :
    (w.idsInView order).Perm (w.idsInView order') := by
  rw [List.perm_ext_iff_of_nodup nodup_idsInView nodup_idsInView]
  intro id
  rw [mem_idsInView, mem_idsInView]

/-- **Without batches the map fades.**  Painted again later, each marker is where it was, its ring
has become smaller or is gone, its alpha has not grown and gray stays gray; the labels are the same;
and when no device was seen in the last 5 seconds, all markers are gray and without rings. -/
theorem paintEvent_fades (width height : ℤ) (events : List MapEvent)
    (order order' : IterationOrder Bytes) {t t' : ℤ} (h : t ≤ t') {markers : List MapMarker}
    {labels : List MapLabel}
    (hpainted : ((run width height events).paintEvent order t).devices = some (markers, labels)) :
    ∃ markers' labels',
      ((run width height events).paintEvent order' t').devices = some (markers', labels') ∧
      (∃ faded, List.Forall₂ (Fades t t') markers faded ∧ faded.Perm markers') ∧
      labels.Perm labels' ∧
      ((∀ event ∈ events, ∀ snapshot ∈ event.brought, snapshot.lastSeenMs + kStaleMs < t') →
        ∀ m ∈ markers', m.fill = { color := ⟨108, 117, 125⟩, alpha := 90 } ∧ m.ring = none) := by
  have hdevices : (run width height events).devicesById.keys ≠ ∅ := by
    intro hempty
    rw [paintEvent, if_pos hempty] at hpainted
    exact absurd hpainted (by simp)
  rw [devices_paintEvent hdevices, Option.some.injEq, Prod.mk.injEq] at hpainted
  obtain ⟨rfl, rfl⟩ := hpainted
  have hperm := perm_idsInView (w := run width height events) order order'
  refine ⟨_, _, devices_paintEvent hdevices order' t', ⟨_, ?_, hperm.filterMap _⟩,
    (hperm.filter _).filterMap _, ?_⟩
  · refine List.rel_filterMap (R := Eq) (P := Fades t t') ?_ (List.forall₂_same.mpr fun _ _ => rfl)
    rintro id _ rfl
    dsimp only
    cases (run width height events).devicesById.lookup id with
    | none => exact .none
    | some snapshot => exact .some (fades_marker h id snapshot)
  · intro hold m hm
    obtain ⟨id, -, hid⟩ := List.mem_filterMap.mp hm
    obtain ⟨snapshot, hlookup, rfl⟩ := Option.map_eq_some_iff.mp hid
    obtain ⟨event, hmem, hsnapshot⟩ := exists_brought_of_lookup hlookup
    exact marker_stale (hold event hmem snapshot hsnapshot)

/-- Two devices on a map that was zoomed and dragged, painted when they came and 6 seconds
later. -/
theorem paintEvent_fades_stale : ∃ (w : FleetMapWidget) (markers : List MapMarker)
    (labels : List MapLabel),
    w = run 800 600
      [.upsertDevices pairOrder 0 [statusAt (ascii "near") 3, statusAt (ascii "far") 9],
        .wheel pairOrder (-120) ⟨400, 300⟩, .mousePress pairOrder true ⟨100, 100⟩ ⟨100, 100⟩,
        .mouseMove pairOrder ⟨130, 90⟩ ⟨130, 90⟩, .mouseRelease true] ∧
    w.autoFitEnabled = false ∧ markers.length = 2 ∧
    (w.paintEvent pairOrder 6000).devices = some (markers, labels) ∧
    ∀ m ∈ markers, m.fill = { color := ⟨108, 117, 125⟩, alpha := 90 } ∧ m.ring = none := by
  let events : List MapEvent :=
    [.upsertDevices pairOrder 0 [statusAt (ascii "near") 3, statusAt (ascii "far") 9],
      .wheel pairOrder (-120) ⟨400, 300⟩, .mousePress pairOrder true ⟨100, 100⟩ ⟨100, 100⟩,
      .mouseMove pairOrder ⟨130, 90⟩ ⟨130, 90⟩, .mouseRelease true]
  have hdevices : (run 800 600 events).devicesById.keys ≠ ∅ := by decide +kernel
  obtain ⟨markers, labels, hpainted, ⟨faded, hfaded, hperm⟩, -, hgray⟩ := paintEvent_fades 800 600
    events pairOrder pairOrder (show (0 : ℤ) ≤ 6000 by norm_num)
    (devices_paintEvent hdevices pairOrder 0)
  refine ⟨_, markers, labels, rfl, by decide +kernel, ?_, hpainted, hgray ?_⟩
  · rw [← hperm.length_eq, ← hfaded.length_eq]
    decide +kernel
  · simp [events, MapEvent.brought, kStaleMs]

end FleetMapWidget
end RemoteDeviceConsole
