import Mathlib.Algebra.Order.Field.Basic
import Mathlib.Tactic.Linarith

/-!
# Viewports

A viewport maps the world to a screen by a scale and a shift; the second axis of the screen
points down.

* `toWorld_toScreen`, `toScreen_toWorld`: the two directions are inverse.
* `pinned`: the viewport of a scale that has a given world point at a given screen point; a
  viewport is known by its scale and one such pair (`pinned_toWorld`).
* `zoom`: another scale around a screen point.  The world point there stays (`toWorld_zoom`),
  and only the last of several zooms around one point matters (`zoom_zoom`, `zoom_self`).
* `shift`: the screen moved as a whole.  All screen points move alike (`toScreen_shift`), and
  shifts add up (`shift_shift`).
* `contains_toScreen_pinned_iff`: what is seen in a rectangle around its centre.
-/

namespace RemoteDeviceConsole
namespace Planar

/-! ## Points and rectangles -/

@[ext] structure Point (K : Type*) where
  x : K
  y : K
  deriving DecidableEq

structure Rect (K : Type*) where
  x : K
  y : K
  width : K
  height : K
  deriving DecidableEq

variable {K : Type*} [Field K]

namespace Rect

def center (r : Rect K) : Point K := ⟨r.x + r.width / 2, r.y + r.height / 2⟩

/-- The point is inside or on an edge. -/
def Contains [LE K] (r : Rect K) (p : Point K) : Prop :=
  (r.x ≤ p.x ∧ p.x ≤ r.x + r.width) ∧ r.y ≤ p.y ∧ p.y ≤ r.y + r.height

instance [LE K] [DecidableLE K] (r : Rect K) (p : Point K) : Decidable (r.Contains p) :=
  inferInstanceAs (Decidable (_ ∧ _))

end Rect

/-! ## Viewports -/

@[ext] structure Viewport (K : Type*) where
  scale : K
  pan : Point K
  deriving DecidableEq

namespace Viewport

variable {v : Viewport K} {a b : K}

def toScreen (v : Viewport K) (p : Point K) : Point K :=
  ⟨p.x * v.scale + v.pan.x, -p.y * v.scale + v.pan.y⟩

def toWorld (v : Viewport K) (p : Point K) : Point K :=
  ⟨(p.x - v.pan.x) / v.scale, -(p.y - v.pan.y) / v.scale⟩

theorem toWorld_toScreen (h : v.scale ≠ 0) (p : Point K) : v.toWorld (v.toScreen p) = p := by
  ext <;> simp [toWorld, toScreen, h]

theorem toScreen_toWorld (h : v.scale ≠ 0) (p : Point K) : v.toScreen (v.toWorld p) = p := by
  ext <;> simp [toWorld, toScreen, h]

/-- The viewport that shows the world point at the screen point. -/
def pinned (scale : K) (world screen : Point K) : Viewport K where
  scale := scale
  pan := ⟨screen.x - world.x * scale, screen.y + world.y * scale⟩

theorem toScreen_pinned (scale : K) (world screen : Point K) :
    (pinned scale world screen).toScreen world = screen := by
  ext <;> simp [toScreen, pinned]

theorem toWorld_pinned (h : a ≠ 0) (world screen : Point K) :
    (pinned a world screen).toWorld screen = world := by
  have hworld := toWorld_toScreen (v := pinned a world screen) h world
  rwa [toScreen_pinned] at hworld

/-- A viewport is known by its scale and one pair of points. -/
theorem pinned_toWorld (h : v.scale ≠ 0) (p : Point K) : pinned v.scale (v.toWorld p) p = v := by
  have hx : (v.toWorld p).x * v.scale = p.x - v.pan.x := div_mul_cancel₀ _ h
  have hy : (v.toWorld p).y * v.scale = -(p.y - v.pan.y) := div_mul_cancel₀ _ h
  ext
  · rfl
  · simp [pinned, hx]
  · simp [pinned, hy]

/-- Another scale around a screen point. -/
def zoom (v : Viewport K) (scale : K) (p : Point K) : Viewport K := pinned scale (v.toWorld p) p

/-- **The world point under the cursor stays.** -/
theorem toWorld_zoom (h : a ≠ 0) (p : Point K) : (v.zoom a p).toWorld p = v.toWorld p :=
  toWorld_pinned h _ p

/-- Only the last zoom around a point matters. -/
theorem zoom_zoom (h : a ≠ 0) (p : Point K) : (v.zoom a p).zoom b p = v.zoom b p := by
  rw [zoom, toWorld_zoom h, zoom]

theorem zoom_self (h : v.scale ≠ 0) (p : Point K) : v.zoom v.scale p = v :=
  pinned_toWorld h p

/-- The screen moved by a vector. -/
def shift (v : Viewport K) (d : Point K) : Viewport K where
  scale := v.scale
  pan := ⟨v.pan.x + d.x, v.pan.y + d.y⟩

/-- **All screen points move alike.** -/
theorem toScreen_shift (v : Viewport K) (d p : Point K) :
    (v.shift d).toScreen p = ⟨(v.toScreen p).x + d.x, (v.toScreen p).y + d.y⟩ := by
  ext <;> simp [toScreen, shift, add_assoc]

/-- The world point moves with the screen. -/
theorem toWorld_shift (v : Viewport K) (d p : Point K) :
    (v.shift d).toWorld ⟨p.x + d.x, p.y + d.y⟩ = v.toWorld p := by
  ext <;> simp [toWorld, shift]

theorem shift_shift (v : Viewport K) (d e : Point K) :
    (v.shift d).shift e = v.shift ⟨d.x + e.x, d.y + e.y⟩ := by
  ext <;> simp [shift, add_assoc]

/-! ## What is seen -/

variable [LinearOrder K] [IsStrictOrderedRing K]

/-- **What is seen around the centre of a rectangle.** -/
theorem contains_toScreen_pinned_iff (h : 0 ≤ a) (area : Rect K) (world p : Point K) :
    area.Contains ((pinned a world area.center).toScreen p) ↔
      |p.x - world.x| * a ≤ area.width / 2 ∧ |p.y - world.y| * a ≤ area.height / 2 := by
  have hx : |p.x - world.x| * a = |p.x * a - world.x * a| := by
    rw [← sub_mul, abs_mul, abs_of_nonneg h]
  have hy : |p.y - world.y| * a = |p.y * a - world.y * a| := by
    rw [← sub_mul, abs_mul, abs_of_nonneg h]
  rw [hx, hy, abs_le, abs_le]
  simp only [Rect.Contains, toScreen, pinned, Rect.center]
  constructor
  · rintro ⟨⟨h1, h2⟩, h3, h4⟩
    refine ⟨⟨?_, ?_⟩, ?_, ?_⟩ <;> linarith
  · rintro ⟨⟨h1, h2⟩, h3, h4⟩
    refine ⟨⟨?_, ?_⟩, ?_, ?_⟩ <;> linarith

end Viewport

end Planar
end RemoteDeviceConsole
