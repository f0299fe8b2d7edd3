import RemoteDeviceConsole.Viewer.FleetMap
import Mathlib.Tactic.Ring

/-!
# What auto-fit shows

`updateAutoFit` puts the middle of the bounds into the middle of the plot area, and takes the
scale at which the padded bounds fit, between 2 and 80.  The span of the bounds is at least
`kMinimumWorldSpan`, and from the least coordinate on; so the markers fit exactly when the span
fits.  At the upper end and between the ends it does; at the lower end it may not, and
`showsAll_updateAutoFit_iff` says when.

A span that was stretched to the least one grows in one direction only, so the fleet is not in
the middle then.  The marker at the least coordinate is at the edge of the bounds all the same,
and it is the one that leaves the plot area first: this is why the condition can be about the
span and need not look at the markers (`forall_devices_iff`).  The padding plays no part in it:
it asks for a smaller scale, and the scale is at its lower end already.
-/

namespace RemoteDeviceConsole
namespace FleetMapWidget

open Framing Planar

/-! ## Statements -/

/-- The marker of every device is in the plot area. -/
def ShowsAll (w : FleetMapWidget) : Prop :=
  ∀ id snapshot, w.devicesById.lookup id = some snapshot →
    w.plotArea.Contains (w.worldToScreen snapshot.status.x snapshot.status.y)

/-- The coordinates of the devices are finite. -/
def FiniteCoordinates (w : FleetMapWidget) : Prop :=
  ∀ id snapshot, w.devicesById.lookup id = some snapshot →
    (-maxDouble ≤ snapshot.status.x ∧ snapshot.status.x ≤ maxDouble) ∧
      -maxDouble ≤ snapshot.status.y ∧ snapshot.status.y ≤ maxDouble

/-- The plot area is as large as the least span and every distance between two devices at
scale 2. -/
def FitsAtLeastScale (w : FleetMapWidget) : Prop :=
  (20 ≤ w.plotArea.width ∧ 20 ≤ w.plotArea.height) ∧
    ∀ id id' a b, w.devicesById.lookup id = some a → w.devicesById.lookup id' = some b →
      (a.status.x - b.status.x) * 2 ≤ w.plotArea.width ∧
        (a.status.y - b.status.y) * 2 ≤ w.plotArea.height

/-! ## One axis -/

variable {coordinates : List ℚ} {least span scale length : ℚ}

/-- The least of some coordinates, and the span that `worldBounds` gives them. -/
structure Spans (coordinates : List ℚ) (least span : ℚ) : Prop where
  least_mem : least ∈ coordinates
  le : ∀ c ∈ coordinates, least ≤ c ∧ c ≤ least + span
  minimum : kMinimumWorldSpan ≤ span
  attained : span = kMinimumWorldSpan ∨ ∃ c ∈ coordinates, span = c - least

/-- The loop of `worldBounds` takes the four ends apart. -/
theorem foldl_extendBounds (snapshots : List (DeviceSnapshot ℚ)) (bounds : ℚ × ℚ × ℚ × ℚ) :
    snapshots.foldl extendBounds bounds =
      ((snapshots.map (·.status.x)).foldl min bounds.1,
        (snapshots.map (·.status.y)).foldl min bounds.2.1,
        (snapshots.map (·.status.x)).foldl max bounds.2.2.1,
        (snapshots.map (·.status.y)).foldl max bounds.2.2.2) := by
  induction snapshots generalizing bounds with
  | nil => rfl
  | cons snapshot snapshots ih =>
    rw [List.foldl_cons, ih]
    rfl

/-- The ends that the loop finds. -/
theorem spans_of_finite (hnil : coordinates ≠ [])
    (hfinite : ∀ c ∈ coordinates, -maxDouble ≤ c ∧ c ≤ maxDouble) :
    Spans coordinates (coordinates.foldl min maxDouble)
      (max kMinimumWorldSpan
        (coordinates.foldl max (-maxDouble) - coordinates.foldl min maxDouble)) := by
  have hmin := foldl_mem (r := (· ≤ ·)) min_choice min_le_left min_le_right hnil
    fun c hc => (hfinite c hc).2
  have hmax := foldl_mem (r := (· ≥ ·)) max_choice le_max_left le_max_right hnil
    fun c hc => (hfinite c hc).1
  obtain ⟨-, -, hleast⟩ := foldl_select (r := (· ≤ ·)) min_choice min_le_left
    min_le_right maxDouble coordinates
  obtain ⟨-, -, hgreatest⟩ := foldl_select (r := (· ≥ ·)) max_choice le_max_left
    le_max_right (-maxDouble) coordinates
  generalize coordinates.foldl min maxDouble = least at *
  generalize coordinates.foldl max (-maxDouble) = greatest at *
  refine ⟨hmin, fun c hc => ⟨hleast c hc, ?_⟩, le_max_left _ _, ?_⟩
  · have hspan := le_max_right kMinimumWorldSpan (greatest - least)
    have hc' := hgreatest c hc
    linarith
  · rcases max_choice kMinimumWorldSpan (greatest - least) with h | h
    · exact .inl h
    · exact .inr ⟨greatest, hmax, h⟩

theorem Spans.pos (h : Spans coordinates least span) : 0 < span :=
  lt_of_lt_of_le (by norm_num [kMinimumWorldSpan]) h.minimum

/-- The span fits at scale 2 exactly when the least span and all distances do. -/
theorem Spans.mul_two_le_iff (h : Spans coordinates least span) :
    span * 2 ≤ length ↔ 20 ≤ length ∧
      ∀ a ∈ coordinates, ∀ b ∈ coordinates, (a - b) * 2 ≤ length := by
  have hminimum : (10 : ℚ) ≤ span := h.minimum
  constructor
  · intro hfits
    refine ⟨by linarith, fun a ha b hb => ?_⟩
    have hb' := (h.le b hb).1
    have ha' := (h.le a ha).2
    linarith
  · rintro ⟨hleast, hall⟩
    rcases h.attained with hspan | ⟨c, hc, hspan⟩
    · rw [hspan]
      linarith [show kMinimumWorldSpan = 10 from rfl]
    · rw [hspan]
      exact hall c hc least h.least_mem

/-! ## Both axes -/

variable {w : FleetMapWidget} {order : IterationOrder Bytes}

/-- The bounds of the devices: their spans, padded. -/
theorem exists_spans_worldBounds (hdevices : w.devicesById.keys ≠ ∅)
    (hfinite : w.FiniteCoordinates) (order : IterationOrder Bytes) :
    ∃ leastX leastY spanX spanY,
      Spans ((valuesIn order w.devicesById).map (·.status.x)) leastX spanX ∧
      Spans ((valuesIn order w.devicesById).map (·.status.y)) leastY spanY ∧
      w.worldBounds order =
        ⟨leastX - spanX * (12 / 100), leastY - spanY * (12 / 100),
          spanX + spanX * (12 / 100) * 2, spanY + spanY * (12 / 100) * 2⟩ := by
  have hnil : valuesIn order w.devicesById ≠ [] := by
    obtain ⟨id, hid⟩ := Finset.nonempty_iff_ne_empty.mpr hdevices
    obtain ⟨snapshot, hsnapshot⟩ := Finmap.mem_iff.mp (Finmap.mem_keys.mp hid)
    exact List.ne_nil_of_mem (mem_valuesIn.mpr ⟨id, hsnapshot⟩)
  refine ⟨_, _, _, _, spans_of_finite (by simpa using hnil) ?_,
    spans_of_finite (by simpa using hnil) ?_, ?_⟩
  · intro c hc
    obtain ⟨snapshot, hsnapshot, rfl⟩ := List.mem_map.mp hc
    obtain ⟨id, hid⟩ := mem_valuesIn.mp hsnapshot
    exact (hfinite id snapshot hid).1
  · intro c hc
    obtain ⟨snapshot, hsnapshot, rfl⟩ := List.mem_map.mp hc
    obtain ⟨id, hid⟩ := mem_valuesIn.mp hsnapshot
    exact (hfinite id snapshot hid).2
  · rw [worldBounds, if_neg hdevices, foldl_extendBounds]

/-- The viewport after auto-fit: the middles of the spans are in the middle of the plot area,
and the scale is that of two lengths that the spans do not exceed. -/
theorem exists_spans_viewport (hdevices : w.devicesById.keys ≠ ∅) (hfinite : w.FiniteCoordinates)
    (hwidth : 1 < w.plotArea.width) (hheight : 1 < w.plotArea.height)
    (order : IterationOrder Bytes) :
    ∃ leastX leastY spanX spanY boxWidth boxHeight,
      Spans ((valuesIn order w.devicesById).map (·.status.x)) leastX spanX ∧
      Spans ((valuesIn order w.devicesById).map (·.status.y)) leastY spanY ∧
      spanX ≤ boxWidth ∧ spanY ≤ boxHeight ∧
      (w.updateAutoFit order).viewport =
        .pinned (fitScale w.plotArea.width w.plotArea.height boxWidth boxHeight 2 80)
          ⟨leastX + spanX / 2, leastY + spanY / 2⟩ w.plotArea.center := by
  obtain ⟨leastX, leastY, spanX, spanY, hX, hY, hbounds⟩ :=
    exists_spans_worldBounds hdevices hfinite order
  have hspanX := hX.pos
  have hspanY := hY.pos
  -- the padding keeps the middle
  have hcenter : (w.worldBounds order).center = ⟨leastX + spanX / 2, leastY + spanY / 2⟩ := by
    rw [hbounds]
    ext
    · simp only [Rect.center]
      ring
    · simp only [Rect.center]
      ring
  refine ⟨leastX, leastY, spanX, spanY, max 1 (w.worldBounds order).width,
    max 1 (w.worldBounds order).height, hX, hY, ?_, ?_, ?_⟩
  · rw [hbounds]
    exact le_max_of_le_right (by linarith)
  · rw [hbounds]
    exact le_max_of_le_right (by linarith)
  · rw [viewport_updateAutoFit order hwidth hheight, hcenter]

/-! ## What is shown -/

/-- A statement about all devices is one about their values. -/
theorem forall_devices_iff (order : IterationOrder Bytes) {p : DeviceSnapshot ℚ → Prop} :
    (∀ id snapshot, w.devicesById.lookup id = some snapshot → p snapshot) ↔
      ∀ snapshot ∈ valuesIn order w.devicesById, p snapshot := by
  simp only [mem_valuesIn]
  exact ⟨fun h snapshot ⟨id, hid⟩ => h id snapshot hid, fun h id snapshot hid =>
    h snapshot ⟨id, hid⟩⟩

/-- Auto-fit changes the viewport alone. -/
theorem updateAutoFit_devices (w : FleetMapWidget) (order : IterationOrder Bytes) :
    (w.updateAutoFit order).devicesById = w.devicesById ∧
      (w.updateAutoFit order).plotArea = w.plotArea := by
  unfold updateAutoFit
  dsimp only
  split
  · exact ⟨rfl, rfl⟩
  · exact ⟨rfl, rfl⟩

/-- The fleet fits at the least scale when both spans do. -/
theorem fitsAtLeastScale_iff {leastX leastY spanX spanY : ℚ}
    (hX : Spans ((valuesIn order w.devicesById).map (·.status.x)) leastX spanX)
    (hY : Spans ((valuesIn order w.devicesById).map (·.status.y)) leastY spanY) :
    w.FitsAtLeastScale ↔ spanX * 2 ≤ w.plotArea.width ∧ spanY * 2 ≤ w.plotArea.height := by
  rw [hX.mul_two_le_iff, hY.mul_two_le_iff]
  simp only [List.forall_mem_map, mem_valuesIn]
  constructor
  · rintro ⟨⟨hwidth, hheight⟩, hall⟩
    exact ⟨⟨hwidth, fun a ⟨id, ha⟩ b ⟨id', hb⟩ => (hall id id' a b ha hb).1⟩, hheight,
      fun a ⟨id, ha⟩ b ⟨id', hb⟩ => (hall id id' a b ha hb).2⟩
  · rintro ⟨⟨hwidth, hallX⟩, hheight, hallY⟩
    exact ⟨⟨hwidth, hheight⟩, fun id id' a b ha hb =>
      ⟨hallX a ⟨id, ha⟩ b ⟨id', hb⟩, hallY a ⟨id, ha⟩ b ⟨id', hb⟩⟩⟩

/-- **What auto-fit shows.**  All markers are in the plot area exactly when the fleet fits at
the least scale. -/
theorem showsAll_updateAutoFit_iff (hdevices : w.devicesById.keys ≠ ∅)
    (hfinite : w.FiniteCoordinates) (hwidth : 1 < w.plotArea.width)
    (hheight : 1 < w.plotArea.height) (order : IterationOrder Bytes) :
    (w.updateAutoFit order).ShowsAll ↔ w.FitsAtLeastScale := by
  obtain ⟨leastX, leastY, spanX, spanY, boxWidth, boxHeight, hX, hY, hwide, hhigh, hview⟩ :=
    exists_spans_viewport hdevices hfinite hwidth hheight order
  obtain ⟨hsame, harea⟩ := w.updateAutoFit_devices order
  have hscale : 0 ≤ fitScale w.plotArea.width w.plotArea.height boxWidth boxHeight 2 80 :=
    zero_le_two.trans (clamp_mem (by norm_num) _).1
  calc (w.updateAutoFit order).ShowsAll
      ↔ ∀ snapshot ∈ valuesIn order w.devicesById, w.plotArea.Contains
          ((w.updateAutoFit order).worldToScreen snapshot.status.x snapshot.status.y) := by
        rw [ShowsAll, hsame, harea]
        exact forall_devices_iff order
    _ ↔ spanX * fitScale w.plotArea.width w.plotArea.height boxWidth boxHeight 2 80 ≤
            w.plotArea.width ∧
          spanY * fitScale w.plotArea.width w.plotArea.height boxWidth boxHeight 2 80 ≤
            w.plotArea.height := by
        simp only [worldToScreen_eq, hview, Viewport.contains_toScreen_pinned_iff hscale,
          forall₂_and]
        rw [← forall_abs_sub_mul_le_iff hscale hX.least_mem hX.le,
          ← forall_abs_sub_mul_le_iff hscale hY.least_mem hY.le, List.forall_mem_map,
          List.forall_mem_map]
    _ ↔ spanX * 2 ≤ w.plotArea.width ∧ spanY * 2 ≤ w.plotArea.height :=
        mul_fitScale_le_iff hX.pos.le hY.pos.le hwide hhigh (hX.pos.trans_le hwide)
          (hY.pos.trans_le hhigh) zero_le_two (by norm_num)
    _ ↔ w.FitsAtLeastScale := (fitsAtLeastScale_iff hX hY).symm

/-- A scale above the least one is one at which the fleet fits. -/
theorem fitsAtLeastScale_of_lt (hdevices : w.devicesById.keys ≠ ∅)
    (hfinite : w.FiniteCoordinates) (hwidth : 1 < w.plotArea.width)
    (hheight : 1 < w.plotArea.height) (h : 2 < (w.updateAutoFit order).scale) :
    w.FitsAtLeastScale := by
  obtain ⟨leastX, leastY, spanX, spanY, boxWidth, boxHeight, hX, hY, hwide, hhigh, hview⟩ :=
    exists_spans_viewport hdevices hfinite hwidth hheight order
  have hscale : (w.updateAutoFit order).scale =
      fitScale w.plotArea.width w.plotArea.height boxWidth boxHeight 2 80 :=
    congrArg Viewport.scale hview
  have hboxWidth := hX.pos.trans_le hwide
  have hboxHeight := hY.pos.trans_le hhigh
  rw [hscale] at h
  rcases fitScale_eq_or_le w.plotArea.width w.plotArea.height boxWidth boxHeight 2 80
    with heq | hmin
  · exact absurd heq h.ne'
  · have hfits := mul_le_of_le_min hwide hhigh hboxWidth hboxHeight (zero_le_two.trans h.le) hmin
    exact (fitsAtLeastScale_iff hX hY).mpr ((mul_fitScale_le_iff hX.pos.le hY.pos.le hwide hhigh
      hboxWidth hboxHeight zero_le_two (by norm_num)).mp hfits)

/-- **Auto-fit shows the fleet that fits at scale 2.**  All markers are in the plot area
exactly when the plot area is as large as the least span and all distances at scale 2, and so
whenever the scale is not at its lower end. -/
theorem updateAutoFit_showsAll (hdevices : w.devicesById.keys ≠ ∅) (hfinite : w.FiniteCoordinates)
    (hwidth : 1 < w.plotArea.width) (hheight : 1 < w.plotArea.height)
    (order : IterationOrder Bytes) :
    ((w.updateAutoFit order).ShowsAll ↔ w.FitsAtLeastScale) ∧
      (2 < (w.updateAutoFit order).scale → (w.updateAutoFit order).ShowsAll) := by
  have hiff := showsAll_updateAutoFit_iff hdevices hfinite hwidth hheight order
  exact ⟨hiff, fun h => hiff.mpr (fitsAtLeastScale_of_lt hdevices hfinite hwidth hheight h)⟩

/-! ## Two devices -/

/-- A device at rest on the first axis. -/
def statusAt (deviceId : Bytes) (x : ℚ) : DeviceStatus ℚ :=
  ⟨deviceId, ascii "OK", 100, x, 0, 0, 1, 0, false⟩

/-- An order that visits the two devices as they are listed. -/
noncomputable def pairOrder : IterationOrder Bytes where
  toList ids := if ids = {ascii "near", ascii "far"} then [ascii "near", ascii "far"]
    else ids.toList
  coe_toList ids := by
    split
    · next hpair => rw [hpair]; rfl
    · exact ids.coe_toList

/-- A map of 800 by 600 pixels with two devices. -/
def pairWidget (x : ℚ) : FleetMapWidget :=
  { start 800 600 with
    devicesById := RemoteDeviceConsole.upsertDevices 0 ∅
      [statusAt (ascii "near") 0, statusAt (ascii "far") x] }

theorem pairWidget_devices (x : ℚ) :
    (pairWidget x).devicesById =
      (Finmap.insert (ascii "near") ⟨statusAt (ascii "near") 0, 0⟩ ∅).insert (ascii "far")
        ⟨statusAt (ascii "far") x, 0⟩ := rfl

theorem lookup_pairWidget_far (x : ℚ) :
    (pairWidget x).devicesById.lookup (ascii "far") = some ⟨statusAt (ascii "far") x, 0⟩ := by
  rw [pairWidget_devices, Finmap.lookup_insert]

theorem lookup_pairWidget_near (x : ℚ) :
    (pairWidget x).devicesById.lookup (ascii "near") = some ⟨statusAt (ascii "near") 0, 0⟩ := by
  rw [pairWidget_devices, Finmap.lookup_insert_of_ne _ (by decide), Finmap.lookup_insert]

/-- The coordinates of the two devices. -/
theorem coordinates_pairWidget {x : ℚ} {id : Bytes} {snapshot : DeviceSnapshot ℚ}
    (h : (pairWidget x).devicesById.lookup id = some snapshot) :
    (snapshot.status.x = x ∨ snapshot.status.x = 0) ∧ snapshot.status.y = 0 := by
  rw [pairWidget_devices] at h
  by_cases hfar : id = ascii "far"
  · rw [hfar, Finmap.lookup_insert] at h
    rw [← Option.some.inj h]
    exact ⟨.inl rfl, rfl⟩
  · rw [Finmap.lookup_insert_of_ne _ hfar] at h
    by_cases hnear : id = ascii "near"
    · rw [hnear, Finmap.lookup_insert] at h
      rw [← Option.some.inj h]
      exact ⟨.inr rfl, rfl⟩
    · rw [Finmap.lookup_insert_of_ne _ hnear, Finmap.lookup_empty] at h
      exact absurd h (by simp)

theorem keys_pairWidget (x : ℚ) : (pairWidget x).devicesById.keys ≠ ∅ :=
  Finset.ne_empty_of_mem (Finmap.mem_keys.mpr (Finmap.mem_of_lookup_eq_some
    (lookup_pairWidget_far x)))

theorem finiteCoordinates_pairWidget {x : ℚ} (h0 : 0 ≤ x) (hx : x ≤ 1000) :
    (pairWidget x).FiniteCoordinates := by
  have hmax : (1000 : ℚ) ≤ maxDouble := by decide +kernel
  intro id snapshot hsnapshot
  obtain ⟨hx' | hx', hy⟩ := coordinates_pairWidget hsnapshot
  · rw [hx', hy]
    refine ⟨⟨?_, ?_⟩, ?_, ?_⟩ <;> linarith
  · rw [hx', hy]
    refine ⟨⟨?_, ?_⟩, ?_, ?_⟩ <;> linarith

/-- Two devices at a distance of 1000 are not both shown. -/
theorem not_showsAll_far :
    ¬ ∀ (w : FleetMapWidget) (order : IterationOrder Bytes), w.devicesById.keys ≠ ∅ →
      w.FiniteCoordinates → 1 < w.plotArea.width → 1 < w.plotArea.height →
      (w.updateAutoFit order).ShowsAll := by
  intro h
  let order : IterationOrder Bytes := ⟨Finset.toList, Finset.coe_toList⟩
  have hfinite := finiteCoordinates_pairWidget (x := 1000) (by norm_num) (by norm_num)
  have hwidth : 1 < (pairWidget 1000).plotArea.width := by decide +kernel
  have hheight : 1 < (pairWidget 1000).plotArea.height := by decide +kernel
  have hshows := h (pairWidget 1000) order (keys_pairWidget 1000) hfinite hwidth hheight
  have hfits := (showsAll_updateAutoFit_iff (keys_pairWidget 1000) hfinite hwidth hheight
    order).mp hshows
  have hdistance := (hfits.2 _ _ _ _ (lookup_pairWidget_far 1000) (lookup_pairWidget_near 1000)).1
  exact absurd hdistance (by decide +kernel)

/-- Two devices at a distance of 100 are both shown. -/
theorem updateAutoFit_showsAll_near :
    ∃ order, ((pairWidget 100).updateAutoFit order).ShowsAll := by
  let order : IterationOrder Bytes := ⟨Finset.toList, Finset.coe_toList⟩
  have hfinite := finiteCoordinates_pairWidget (x := 100) (by norm_num) (by norm_num)
  have hwidth : (pairWidget 100).plotArea.width = 768 := by decide +kernel
  have hheight : (pairWidget 100).plotArea.height = 548 := by decide +kernel
  refine ⟨order, (updateAutoFit_showsAll (keys_pairWidget 100) hfinite (by norm_num [hwidth])
    (by norm_num [hheight]) order).1.mpr ⟨⟨by norm_num [hwidth], by norm_num [hheight]⟩, ?_⟩⟩
  intro id id' a b ha hb
  obtain ⟨hax, hay⟩ := coordinates_pairWidget ha
  obtain ⟨hbx, hby⟩ := coordinates_pairWidget hb
  rw [hwidth, hheight, hay, hby]
  rcases hax with hax | hax <;> rcases hbx with hbx | hbx <;> rw [hax, hbx] <;> norm_num

end FleetMapWidget
end RemoteDeviceConsole
