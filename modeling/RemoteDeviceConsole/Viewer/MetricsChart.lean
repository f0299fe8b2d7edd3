import RemoteDeviceConsole.Machine.Window
import RemoteDeviceConsole.Planar.Plot
import RemoteDeviceConsole.Protocol.ServerMetrics
import Mathlib.Algebra.Order.Ring.Rat
import Mathlib.Algebra.Field.Rat
import Mathlib.Tactic.NormNum

/-!
# The chart of the server's metrics

`MetricsChartWidget`: the samples it keeps, and what it paints of them.  The coordinates are
exact numbers.  Of `paintEvent` the frame, the legends and the fonts are left out; what is left
depends on the samples.

`paintEvent_appendSample` says what is painted after any number of samples: two lines through
the last 60 of them, each drawn to a scale of its own.

A line is described by the coordinates of its points (`Charted.points`): the abscissas are even
steps from edge to edge, and the height of a point is its value's share of the maximum.  The
maximum is not that of the values alone.  The source starts its search at 1, so that a window of
zeros does not divide by zero, and the greatest value is the scale only when there is one above
0; this is why `maximumOf_spec` has two ways in which the maximum comes about, and why the line
touches the top edge only when some value is not 0 (`Charted.full`).
-/

namespace RemoteDeviceConsole

open Machine Planar

/-! ## State -/

structure MetricsChartWidget where
  samples : List ServerMetrics := []
  deriving DecidableEq

/-- An element of a `QPainterPath`. -/
inductive PathElement where
  | moveTo (point : Point ℚ)
  | lineTo (point : Point ℚ)
  deriving DecidableEq

def PathElement.point : PathElement → Point ℚ
  | .moveTo point => point
  | .lineTo point => point

/-- What `paintEvent` draws of the samples: a text that there are none, or the two paths and the
sample of which it prints the numbers. -/
inductive ChartPicture where
  | waiting
  | lines (msgPath activePath : List PathElement) (latest : ServerMetrics)
  deriving DecidableEq

namespace MetricsChartWidget

def kMaxSamples : ℕ := 60

/-- The loop of `max_msg_rate` and `max_active`. -/
def maximumOf (valueFn : ServerMetrics → UInt64) (samples : List ServerMetrics) : UInt64 :=
  samples.foldl (fun maximum sample => max maximum (valueFn sample)) 1

def maxMsgRate (samples : List ServerMetrics) : UInt64 := maximumOf ServerMetrics.msgPerSec samples

def maxActive (samples : List ServerMetrics) : UInt64 := maximumOf ServerMetrics.active samples

/-- The body of the loop of `build_path`. -/
def pathElement (plotArea : Rect ℚ) (denominator : ℕ) (maximum : UInt64) (index : ℕ)
    (value : UInt64) : PathElement :=
  let x := plotArea.x + plotArea.width * index / denominator
  let y := plotArea.bottom - plotArea.height * value.toNat / maximum.toNat
  if index = 0 then .moveTo ⟨x, y⟩ else .lineTo ⟨x, y⟩

def buildPath (samples : List ServerMetrics) (plotArea : Rect ℚ) (maximum : UInt64)
    (valueFn : ServerMetrics → UInt64) : List PathElement :=
  let denominator := max 1 (samples.length - 1)
  samples.mapIdx fun index sample =>
    pathElement plotArea denominator maximum index (valueFn sample)

/-- `appendSample`. -/
def appendSample (w : MetricsChartWidget) (metrics : ServerMetrics) : MetricsChartWidget where
  samples := push kMaxSamples w.samples metrics

/-- `rect().adjusted(44, 34, -18, -30)`. -/
def plotArea (width height : ℤ) : Rect ℚ where
  x := 44
  y := 34
  width := ((width - 44 - 18 : ℤ) : ℚ)
  height := ((height - 34 - 30 : ℤ) : ℚ)

/-- `paintEvent` of a widget of this size. -/
def paintEvent (width height : ℤ) (w : MetricsChartWidget) : ChartPicture :=
  match w.samples.getLast? with
  | none => .waiting
  | some latest =>
      .lines
        (buildPath w.samples (plotArea width height) (maxMsgRate w.samples)
          ServerMetrics.msgPerSec)
        (buildPath w.samples (plotArea width height) (maxActive w.samples) ServerMetrics.active)
        latest

/-! ## The samples -/

/-- **The chart has the last 60 samples.** -/
theorem samples_foldl_appendSample (metrics : List ServerMetrics) :
    (metrics.foldl appendSample {}).samples = trim kMaxSamples metrics := by
  have hpush : ∀ w : MetricsChartWidget,
      (metrics.foldl appendSample w).samples = metrics.foldl (push kMaxSamples) w.samples := by
    induction metrics with
    | nil => exact fun w => rfl
    | cons m metrics ih => exact fun w => ih (w.appendSample m)
  have hwindow := foldl_push kMaxSamples [] metrics
  rw [hpush]
  exact hwindow

/-! ## The maximum -/

section Maximum

variable {valueFn : ServerMetrics → UInt64} {samples : List ServerMetrics}

theorem toNat_max (a b : UInt64) : (max a b).toNat = max a.toNat b.toNat := by
  show (if a ≤ b then b else a).toNat = _
  by_cases hle : a ≤ b
  · rw [if_pos hle, Nat.max_eq_right (UInt64.le_iff_toNat_le.mp hle)]
  · have hge : b.toNat ≤ a.toNat := by
      rw [UInt64.le_iff_toNat_le] at hle
      omega
    rw [if_neg hle, Nat.max_eq_left hge]

/-- The maximum is 1 or a value, and neither 1 nor a value is above it. -/
theorem maximumOf_spec (valueFn : ServerMetrics → UInt64) (samples : List ServerMetrics) :
    1 ≤ (maximumOf valueFn samples).toNat ∧
      (∀ sample ∈ samples, (valueFn sample).toNat ≤ (maximumOf valueFn samples).toNat) ∧
      ((maximumOf valueFn samples).toNat = 1 ∨
        ∃ sample ∈ samples, (valueFn sample).toNat = (maximumOf valueFn samples).toNat) := by
  induction samples using List.reverseRecOn with
  | nil => exact ⟨le_refl _, by simp, .inl rfl⟩
  | append_singleton samples sample ih =>
    obtain ⟨hone, hall, hattained⟩ := ih
    have hstep : (maximumOf valueFn (samples ++ [sample])).toNat =
        max (maximumOf valueFn samples).toNat (valueFn sample).toNat := by
      rw [maximumOf, List.foldl_append, List.foldl_cons, List.foldl_nil, toNat_max]
      rfl
    rw [hstep]
    refine ⟨le_max_of_le_left hone, fun other hother => ?_, ?_⟩
    · rcases List.mem_append.mp hother with hmem | hmem
      · exact le_max_of_le_left (hall other hmem)
      · rw [List.mem_singleton.mp hmem]
        exact le_max_right _ _
    · rcases le_total (valueFn sample).toNat (maximumOf valueFn samples).toNat with hle | hle
      · rw [max_eq_left hle]
        exact hattained.imp_right fun ⟨other, hmem, heq⟩ =>
          ⟨other, List.mem_append_left _ hmem, heq⟩
      · rw [max_eq_right hle]
        exact .inr ⟨sample, by simp, rfl⟩

/-- **The scale.**  The maximum is the greatest of 1 and the values. -/
theorem isGreatest_maximumOf (valueFn : ServerMetrics → UInt64) (samples : List ServerMetrics) :
    IsGreatest {n | n = 1 ∨ ∃ v ∈ samples.map valueFn, v.toNat = n}
      (maximumOf valueFn samples).toNat := by
  obtain ⟨hone, hall, hattained⟩ := maximumOf_spec valueFn samples
  constructor
  · exact hattained.imp_right fun ⟨sample, hmem, heq⟩ =>
      ⟨_, List.mem_map_of_mem hmem, heq⟩
  · rintro n (rfl | ⟨v, hv, rfl⟩)
    · exact hone
    · obtain ⟨sample, hmem, rfl⟩ := List.mem_map.mp hv
      exact hall sample hmem

end Maximum

/-! ## The lines -/

/-- A line through the values from edge to edge: by even steps to the right, and above the bottom
by each value's share of the maximum, which is the greatest of the values and 1.  So equal values
have equal heights, greater ones greater heights, and the line fills the area. -/
structure Charted (area : Rect ℚ) (values : List UInt64) (path : List PathElement) : Prop where
  length : path.length = values.length
  points : ∃ maximum : ℕ, IsGreatest {n | n = 1 ∨ ∃ v ∈ values, v.toNat = n} maximum ∧
    ∀ (i : ℕ) element v, path[i]? = some element → values[i]? = some v → element.point =
      ⟨area.x + area.width * i / (max 1 (values.length - 1) : ℕ),
        area.bottom - area.height * v.toNat / maximum⟩
  starts : ∀ i element, path[i]? = some element → (element = .moveTo element.point ↔ i = 0)
  inside : ∀ element ∈ path, area.Contains element.point
  rightward : (path.map fun element => element.point.x).Pairwise (· < ·)
  left : ∀ element, path.head? = some element → element.point.x = area.x
  right : 2 ≤ path.length → ∀ element, path.getLast? = some element →
    element.point.x = area.x + area.width
  higher : ∀ (i j : ℕ) p q v w, path[i]? = some p → path[j]? = some q → values[i]? = some v →
    values[j]? = some w → (p.point.y < q.point.y ↔ w < v)
  zero : ∀ (i : ℕ) p, path[i]? = some p → values[i]? = some 0 → p.point.y = area.bottom
  full : (∃ v ∈ values, v ≠ 0) → ∃ element ∈ path, element.point.y = area.y

variable {area : Rect ℚ} {samples : List ServerMetrics} {valueFn : ServerMetrics → UInt64}
  {denominator index : ℕ} {maximum value : UInt64}

theorem point_pathElement (area : Rect ℚ) (denominator index : ℕ) (maximum value : UInt64) :
    (pathElement area denominator maximum index value).point =
      ⟨plotX area denominator index, plotY area maximum.toNat value.toNat⟩ := by
  unfold pathElement
  dsimp only
  split
  · rfl
  · rfl

theorem pathElement_eq_moveTo_iff :
    pathElement area denominator maximum index value =
      .moveTo (pathElement area denominator maximum index value).point ↔ index = 0 := by
  unfold pathElement
  dsimp only
  split
  · next hzero => exact ⟨fun _ => hzero, fun _ => rfl⟩
  · next hpos => exact ⟨fun h => PathElement.noConfusion h, fun h => absurd h hpos⟩

/-- The elements of the path are those of the samples. -/
theorem getElem?_buildPath (samples : List ServerMetrics) (area : Rect ℚ) (maximum : UInt64)
    (valueFn : ServerMetrics → UInt64) (i : ℕ) :
    (buildPath samples area maximum valueFn)[i]? = (samples[i]?).map fun sample =>
      pathElement area (max 1 (samples.length - 1)) maximum i (valueFn sample) :=
  List.getElem?_mapIdx

theorem length_buildPath : (buildPath samples area maximum valueFn).length = samples.length :=
  List.length_mapIdx

/-- An element of the path, with its sample. -/
theorem exists_of_getElem?_buildPath {i : ℕ} {element : PathElement}
    (h : (buildPath samples area maximum valueFn)[i]? = some element) :
    ∃ sample, samples[i]? = some sample ∧ i ≤ max 1 (samples.length - 1) ∧
      element = pathElement area (max 1 (samples.length - 1)) maximum i (valueFn sample) := by
  rw [getElem?_buildPath, Option.map_eq_some_iff] at h
  obtain ⟨sample, hsample, rfl⟩ := h
  obtain ⟨hlt, -⟩ := List.getElem?_eq_some_iff.mp hsample
  exact ⟨sample, hsample, le_max_of_le_right (by omega), rfl⟩

/-- **The path of the samples, drawn to their own scale.** -/
theorem charted_buildPath (hwidth : 0 < area.width) (hheight : 0 < area.height)
    (valueFn : ServerMetrics → UInt64) (samples : List ServerMetrics) :
    Charted area (samples.map valueFn)
      (buildPath samples area (maximumOf valueFn samples) valueFn) := by
  obtain ⟨hone, hall, hattained⟩ := maximumOf_spec valueFn samples
  have hmaximum : (0 : ℚ) < (maximumOf valueFn samples).toNat := Nat.cast_pos.mpr hone
  have hsteps : 0 < max 1 (samples.length - 1) := lt_max_of_lt_left one_pos
  constructor
  case length => rw [length_buildPath, List.length_map]
  case points =>
    refine ⟨_, isGreatest_maximumOf valueFn samples, fun i element v helement hv => ?_⟩
    obtain ⟨sample, hsample, -, rfl⟩ := exists_of_getElem?_buildPath helement
    rw [List.getElem?_map, hsample, Option.map_some, Option.some.injEq] at hv
    rw [point_pathElement, hv, List.length_map]
    rfl
  case starts =>
    intro i element helement
    obtain ⟨sample, -, -, rfl⟩ := exists_of_getElem?_buildPath helement
    exact pathElement_eq_moveTo_iff
  case inside =>
    intro element helement
    obtain ⟨i, hi⟩ := List.getElem?_of_mem helement
    obtain ⟨sample, hsample, hle, rfl⟩ := exists_of_getElem?_buildPath hi
    rw [point_pathElement]
    exact ⟨plotX_mem hwidth.le hsteps hle, plotY_mem hheight.le hmaximum (Nat.cast_nonneg _)
      (Nat.cast_le.mpr (hall sample (List.mem_of_getElem? hsample)))⟩
  case rightward =>
    rw [List.pairwise_iff_getElem]
    intro i j hi hj hij
    rw [List.getElem_map, List.getElem_map]
    rw [List.length_map] at hi hj
    obtain ⟨sample, -, -, hp⟩ := exists_of_getElem?_buildPath (List.getElem?_eq_getElem hi)
    obtain ⟨sample', -, -, hq⟩ := exists_of_getElem?_buildPath (List.getElem?_eq_getElem hj)
    rw [hp, hq, point_pathElement, point_pathElement]
    exact plotX_lt hwidth hsteps hij
  case left =>
    intro element helement
    rw [List.head?_eq_getElem?] at helement
    obtain ⟨sample, -, -, rfl⟩ := exists_of_getElem?_buildPath helement
    rw [point_pathElement, plotX_zero]
  case right =>
    intro hlength element helement
    rw [length_buildPath] at hlength
    rw [List.getLast?_eq_getElem?, length_buildPath] at helement
    obtain ⟨sample, -, -, rfl⟩ := exists_of_getElem?_buildPath helement
    have hlast : max 1 (samples.length - 1) = samples.length - 1 := max_eq_right (by omega)
    rw [point_pathElement, hlast]
    exact plotX_self (by omega)
  case higher =>
    intro i j p q v w hp hq hv hw
    obtain ⟨sample, hsample, -, rfl⟩ := exists_of_getElem?_buildPath hp
    obtain ⟨sample', hsample', -, rfl⟩ := exists_of_getElem?_buildPath hq
    rw [List.getElem?_map, hsample, Option.map_some, Option.some.injEq] at hv
    rw [List.getElem?_map, hsample', Option.map_some, Option.some.injEq] at hw
    rw [point_pathElement, point_pathElement, hv, hw, UInt64.lt_iff_toNat_lt]
    exact (plotY_lt_iff hheight hmaximum).trans Nat.cast_lt
  case zero =>
    intro i p hp hv
    obtain ⟨sample, hsample, -, rfl⟩ := exists_of_getElem?_buildPath hp
    rw [List.getElem?_map, hsample, Option.map_some, Option.some.injEq] at hv
    rw [point_pathElement, hv]
    exact plotY_zero area _
  case full =>
    rintro ⟨v, hv, hne⟩
    obtain ⟨sample, hsample, rfl⟩ := List.mem_map.mp hv
    -- a value that is not 0 makes the maximum a value
    obtain ⟨other, hother, heq⟩ : ∃ other ∈ samples,
        (valueFn other).toNat = (maximumOf valueFn samples).toNat := by
      rcases hattained with hmax | hattained
      · refine ⟨sample, hsample, le_antisymm (hall sample hsample) ?_⟩
        have hpos : (valueFn sample).toNat ≠ 0 := fun hzero => hne (UInt64.toNat_inj.mp hzero)
        omega
      · exact hattained
    obtain ⟨i, hi⟩ := List.getElem?_of_mem hother
    have helement := getElem?_buildPath samples area (maximumOf valueFn samples) valueFn i
    rw [hi, Option.map_some] at helement
    refine ⟨_, List.mem_of_getElem? helement, ?_⟩
    rw [point_pathElement, heq]
    exact plotY_self hmaximum.ne'

/-- **What the chart paints.**  After any samples the picture has two lines, one of the message
rates and one of the connections, each through the last 60 samples and drawn to the scale of its
own maximum, and the numbers of the last sample. -/
theorem paintEvent_appendSample (metrics : List ServerMetrics) (latest : ServerMetrics)
    {width height : ℤ} (hwidth : 62 < width) (hheight : 64 < height) :
    ∃ msgPath activePath,
      ((metrics ++ [latest]).foldl appendSample {}).paintEvent width height =
        .lines msgPath activePath latest ∧
      Charted (plotArea width height)
        ((trim kMaxSamples (metrics ++ [latest])).map ServerMetrics.msgPerSec) msgPath ∧
      Charted (plotArea width height)
        ((trim kMaxSamples (metrics ++ [latest])).map ServerMetrics.active) activePath ∧
      msgPath.length = min 60 (metrics.length + 1) := by
  have hlast : (trim kMaxSamples (metrics ++ [latest])).getLast? = some latest := by
    rw [getLast?_trim (by decide)]
    simp
  have hwide : 0 < (plotArea width height).width := by
    show (0 : ℚ) < ((width - 44 - 18 : ℤ) : ℚ)
    exact Int.cast_pos.mpr (by omega)
  have hhigh : 0 < (plotArea width height).height := by
    show (0 : ℚ) < ((height - 34 - 30 : ℤ) : ℚ)
    exact Int.cast_pos.mpr (by omega)
  refine ⟨_, _, ?_, charted_buildPath hwide hhigh _ _, charted_buildPath hwide hhigh _ _, ?_⟩
  · rw [paintEvent, samples_foldl_appendSample, hlast]
    rfl
  · rw [length_buildPath, length_trim, List.length_append, List.length_singleton]
    rfl

/-- Two samples, of which the second has half the rate and the same connections. -/
theorem paintEvent_appendSample_two :
    ∃ msgPath activePath,
      ([({ ServerMetrics.default with msgPerSec := 8, active := 3 } : ServerMetrics),
        { ServerMetrics.default with msgPerSec := 4, active := 3 }].foldl appendSample
          {}).paintEvent 162 164 =
        .lines msgPath activePath { ServerMetrics.default with msgPerSec := 4, active := 3 } ∧
      msgPath = [.moveTo ⟨44, 34⟩, .lineTo ⟨144, 84⟩] ∧ msgPath.length = min 60 (1 + 1) := by
  obtain ⟨msgPath, activePath, hpicture, -, -, hlength⟩ := paintEvent_appendSample
    [{ ServerMetrics.default with msgPerSec := 8, active := 3 }]
    { ServerMetrics.default with msgPerSec := 4, active := 3 } (show (62 : ℤ) < 162 by decide)
    (show (64 : ℤ) < 164 by decide)
  refine ⟨msgPath, activePath, hpicture, ?_, hlength⟩
  have hpath : ([({ ServerMetrics.default with msgPerSec := 8, active := 3 } : ServerMetrics),
      { ServerMetrics.default with msgPerSec := 4, active := 3 }].foldl appendSample
        {}).paintEvent 162 164 =
      .lines [.moveTo ⟨44, 34⟩, .lineTo ⟨144, 84⟩] [.moveTo ⟨44, 34⟩, .lineTo ⟨144, 34⟩]
        { ServerMetrics.default with msgPerSec := 4, active := 3 } := by
    decide +kernel
  have hsame := hpicture.symm.trans hpath
  rw [ChartPicture.lines.injEq] at hsame
  exact hsame.1

end MetricsChartWidget
end RemoteDeviceConsole
