import RemoteDeviceConsole.Planar.Viewport

/-!
# Plotting numbers into a rectangle

Numbers from 0 to a maximum are plotted from left to right at equal distances; the second axis
of the screen points down.

* `plotX_mem`, `plotX_lt`: the abscissas are in the rectangle and go strictly to the right, from
  one edge (`plotX_zero`) to the other (`plotX_self`).
* `plotY_mem`, `plotY_lt_iff`: the ordinates are in the rectangle and turn the order of the
  numbers around; 0 is at the bottom (`plotY_zero`), the maximum at the top (`plotY_self`).
-/

namespace RemoteDeviceConsole
namespace Planar

variable {K : Type*} [Field K]

/-- The lower edge. -/
def Rect.bottom (r : Rect K) : K := r.y + r.height

/-- The abscissa at `index` of `denominator` equal steps. -/
def plotX (area : Rect K) (denominator index : ℕ) : K :=
  area.x + area.width * index / denominator

/-- The ordinate of a number. -/
def plotY (area : Rect K) (maximum value : K) : K :=
  area.bottom - area.height * value / maximum

variable {area : Rect K} {denominator i j : ℕ} {maximum a b : K}

theorem plotX_zero (area : Rect K) (denominator : ℕ) : plotX area denominator 0 = area.x := by
  simp [plotX]

theorem plotX_self [CharZero K] (h : denominator ≠ 0) :
    plotX area denominator denominator = area.x + area.width := by
  rw [plotX, mul_div_cancel_right₀ _ (Nat.cast_ne_zero.mpr h)]

theorem plotY_zero (area : Rect K) (maximum : K) : plotY area maximum 0 = area.bottom := by
  simp [plotY]

theorem plotY_self (h : maximum ≠ 0) : plotY area maximum maximum = area.y := by
  rw [plotY, mul_div_cancel_right₀ _ h, Rect.bottom, add_sub_cancel_right]

variable [LinearOrder K] [IsStrictOrderedRing K]

/-- The abscissas are between the edges. -/
theorem plotX_mem (hwidth : 0 ≤ area.width) (hd : 0 < denominator) (hi : i ≤ denominator) :
    area.x ≤ plotX area denominator i ∧ plotX area denominator i ≤ area.x + area.width := by
  have hpos : (0 : K) < denominator := Nat.cast_pos.mpr hd
  have hle : (i : K) ≤ denominator := Nat.cast_le.mpr hi
  constructor
  · exact le_add_of_nonneg_right
      (div_nonneg (mul_nonneg hwidth (Nat.cast_nonneg i)) hpos.le)
  · rw [plotX, add_le_add_iff_left, div_le_iff₀ hpos]
    exact mul_le_mul_of_nonneg_left hle hwidth

/-- **The points go to the right.** -/
theorem plotX_lt (hwidth : 0 < area.width) (hd : 0 < denominator) (hij : i < j) :
    plotX area denominator i < plotX area denominator j := by
  have hpos : (0 : K) < denominator := Nat.cast_pos.mpr hd
  rw [plotX, plotX, add_lt_add_iff_left, div_lt_div_iff_of_pos_right hpos]
  exact mul_lt_mul_of_pos_left (Nat.cast_lt.mpr hij) hwidth

/-- The ordinates are between the edges. -/
theorem plotY_mem (hheight : 0 ≤ area.height) (hmaximum : 0 < maximum) (ha : 0 ≤ a)
    (hle : a ≤ maximum) :
    area.y ≤ plotY area maximum a ∧ plotY area maximum a ≤ area.bottom := by
  have hupper : area.height * a / maximum ≤ area.height := by
    rw [div_le_iff₀ hmaximum]
    exact mul_le_mul_of_nonneg_left hle hheight
  have hlower : 0 ≤ area.height * a / maximum :=
    div_nonneg (mul_nonneg hheight ha) hmaximum.le
  constructor
  · rw [plotY, Rect.bottom]
    linarith
  · exact sub_le_self _ hlower

/-- **Greater numbers are plotted higher.** -/
theorem plotY_lt_iff (hheight : 0 < area.height) (hmaximum : 0 < maximum) :
    plotY area maximum a < plotY area maximum b ↔ b < a := by
  rw [plotY, plotY, sub_lt_sub_iff_left, div_lt_div_iff_of_pos_right hmaximum]
  exact mul_lt_mul_iff_right₀ hheight

end Planar
end RemoteDeviceConsole
