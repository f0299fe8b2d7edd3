import RemoteDeviceConsole.Planar.Viewport

/-!
# Fitting a box into a rectangle

* `clamp`: a number cut to an interval.
* `foldl_select`, `foldl_mem`: a fold with `min` or `max` over a list.
* `forall_abs_sub_mul_le_iff`: points from the least one over a span fit around the middle of
  the span exactly when the span does.
* `mul_fitScale_le_iff`: a box in two dimensions fits at the clamped scale exactly when it fits
  at the least scale.
-/

namespace RemoteDeviceConsole
namespace Planar

variable {α : Type*}

/-! ## Folds -/

section Fold

variable {op : α → α → α} {r : α → α → Prop} [IsTrans α r] {start : α} {l : List α}

/-- A fold that selects one of its two arguments each time, the first one by `r`. -/
theorem foldl_select [Std.Refl r] (hchoice : ∀ a b, op a b = a ∨ op a b = b)
    (hleft : ∀ a b, r (op a b) a) (hright : ∀ a b, r (op a b) b) (start : α) (l : List α) :
    (l.foldl op start = start ∨ l.foldl op start ∈ l) ∧ r (l.foldl op start) start ∧
      ∀ x ∈ l, r (l.foldl op start) x := by
  induction l generalizing start with
  | nil => exact ⟨.inl rfl, refl_of r start, by simp⟩
  | cons y l ih =>
    obtain ⟨hmem, hstart, hall⟩ := ih (op start y)
    rw [List.foldl_cons]
    refine ⟨?_, trans_of r hstart (hleft start y), ?_⟩
    · rcases hmem with heq | hmem
      · rw [heq, List.mem_cons]
        exact (hchoice start y).imp_right .inl
      · exact .inr (List.mem_cons_of_mem y hmem)
    · intro x hx
      rcases List.mem_cons.mp hx with rfl | hx
      · exact trans_of r hstart (hright start x)
      · exact hall x hx

/-- A start that every entry comes before is not the result. -/
theorem foldl_mem [Std.Refl r] [Std.Antisymm r] (hchoice : ∀ a b, op a b = a ∨ op a b = b)
    (hleft : ∀ a b, r (op a b) a) (hright : ∀ a b, r (op a b) b) (hnil : l ≠ [])
    (hstart : ∀ x ∈ l, r x start) : l.foldl op start ∈ l := by
  obtain ⟨hmem, -, hall⟩ := foldl_select hchoice hleft hright start l
  rcases hmem with heq | hmem
  · obtain ⟨x, hx⟩ := List.exists_mem_of_ne_nil l hnil
    have hle := hall x hx
    rw [heq] at hle ⊢
    rwa [antisymm_of r hle (hstart x hx)]
  · exact hmem

end Fold

/-! ## Clamping -/

section Clamp

variable [LinearOrder α] {value low high : α}

/-- The number cut to the interval. -/
def clamp (value low high : α) : α :=
  if value < low then low else if high < value then high else value

theorem clamp_mem (h : low ≤ high) (value : α) :
    low ≤ clamp value low high ∧ clamp value low high ≤ high := by
  unfold clamp
  split_ifs with hlow hhigh
  · exact ⟨le_refl _, h⟩
  · exact ⟨h, le_refl _⟩
  · exact ⟨not_lt.mp hlow, not_lt.mp hhigh⟩

theorem clamp_of_mem (hlow : low ≤ value) (hhigh : value ≤ high) :
    clamp value low high = value := by
  rw [clamp, if_neg hlow.not_gt, if_neg hhigh.not_gt]

/-- The clamped number is the lower end or not above the number. -/
theorem clamp_eq_or_le (value low high : α) :
    clamp value low high = low ∨ clamp value low high ≤ value := by
  unfold clamp
  split_ifs with hlow hhigh
  · exact .inl rfl
  · exact .inr hhigh.le
  · exact .inr (le_refl _)

end Clamp

/-! ## Fitting -/

section Fit

variable {K : Type*} [Field K] [LinearOrder K] [IsStrictOrderedRing K]

/-- Points from `least` over `span` fit around the middle exactly when the span fits. -/
theorem forall_abs_sub_mul_le_iff {points : List K} {least span scale length : K}
    (hscale : 0 ≤ scale) (hleast : least ∈ points)
    (hall : ∀ x ∈ points, least ≤ x ∧ x ≤ least + span) :
    (∀ x ∈ points, |x - (least + span / 2)| * scale ≤ length / 2) ↔ span * scale ≤ length := by
  have hspan : 0 ≤ span := by
    have := (hall least hleast).2
    linarith
  constructor
  · intro h
    have hmiddle : |least - (least + span / 2)| = span / 2 := by
      rw [sub_add_cancel_left, abs_neg, abs_of_nonneg (by linarith)]
    have hend := h least hleast
    rw [hmiddle] at hend
    linarith
  · intro h x hx
    have hnear : |x - (least + span / 2)| ≤ span / 2 := by
      obtain ⟨hlow, hhigh⟩ := hall x hx
      exact abs_le.mpr ⟨by linarith, by linarith⟩
    calc |x - (least + span / 2)| * scale ≤ span / 2 * scale :=
          mul_le_mul_of_nonneg_right hnear hscale
      _ = span * scale / 2 := by rw [div_mul_eq_mul_div]
      _ ≤ length / 2 := by linarith

/-- The scale at which a box fits into a rectangle, clamped. -/
def fitScale (width height boxWidth boxHeight low high : K) : K :=
  clamp (min (width / boxWidth) (height / boxHeight)) low high

variable {width height boxWidth boxHeight spanX spanY low high scale : K}

omit [IsStrictOrderedRing K] in
/-- The clamped scale is the least one or one at which the box fits. -/
theorem fitScale_eq_or_le (width height boxWidth boxHeight low high : K) :
    fitScale width height boxWidth boxHeight low high = low ∨
      fitScale width height boxWidth boxHeight low high ≤
        min (width / boxWidth) (height / boxHeight) :=
  clamp_eq_or_le _ low high

/-- What is not larger than the box fits at a scale at which the box does. -/
theorem mul_le_of_le_min (hX : spanX ≤ boxWidth) (hY : spanY ≤ boxHeight) (hwidth : 0 < boxWidth)
    (hheight : 0 < boxHeight) (hscale : 0 ≤ scale)
    (h : scale ≤ min (width / boxWidth) (height / boxHeight)) :
    spanX * scale ≤ width ∧ spanY * scale ≤ height := by
  obtain ⟨hwide, hhigh⟩ := le_min_iff.mp h
  rw [le_div_iff₀ hwidth] at hwide
  rw [le_div_iff₀ hheight] at hhigh
  constructor
  · calc spanX * scale ≤ boxWidth * scale := mul_le_mul_of_nonneg_right hX hscale
      _ = scale * boxWidth := mul_comm _ _
      _ ≤ width := hwide
  · calc spanY * scale ≤ boxHeight * scale := mul_le_mul_of_nonneg_right hY hscale
      _ = scale * boxHeight := mul_comm _ _
      _ ≤ height := hhigh

/-- **A box fits at the clamped scale exactly when it fits at the least scale.**  The scale may
be that of a larger box. -/
theorem mul_fitScale_le_iff (hspanX : 0 ≤ spanX) (hspanY : 0 ≤ spanY) (hX : spanX ≤ boxWidth)
    (hY : spanY ≤ boxHeight) (hwidth : 0 < boxWidth) (hheight : 0 < boxHeight) (hlow : 0 ≤ low)
    (hhigh : low ≤ high) :
    (spanX * fitScale width height boxWidth boxHeight low high ≤ width ∧
        spanY * fitScale width height boxWidth boxHeight low high ≤ height) ↔
      spanX * low ≤ width ∧ spanY * low ≤ height := by
  have hle : low ≤ fitScale width height boxWidth boxHeight low high := (clamp_mem hhigh _).1
  constructor
  · rintro ⟨hx, hy⟩
    exact ⟨(mul_le_mul_of_nonneg_left hle hspanX).trans hx,
      (mul_le_mul_of_nonneg_left hle hspanY).trans hy⟩
  · intro hfits
    rcases fitScale_eq_or_le width height boxWidth boxHeight low high with heq | hmin
    · rwa [heq]
    · exact mul_le_of_le_min hX hY hwidth hheight (hlow.trans hle) hmin

end Fit

end Planar
end RemoteDeviceConsole
