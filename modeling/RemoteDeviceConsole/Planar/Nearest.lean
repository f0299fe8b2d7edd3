import Mathlib.Order.Lattice
import Mathlib.Data.List.Induction
import Mathlib.Tactic.Common

/-!
# The nearest of some candidates

A loop over candidates keeps the one that is nearest so far, when it is within a radius; of
several at the same distance it keeps the last one.  `selectNearest_spec` says what the loop
finds: none exactly when all candidates are farther away than the radius, and otherwise one that
none is nearer than.

The loop starts with the radius as the best distance and no candidate, and a comparison with `≤`
lets a candidate at the radius itself in.  So the distance that is kept is at most the radius
throughout, and it is the radius as long as nothing was found; `Nearest` has both, since the
answer "none" can only be read off them together.
-/

namespace RemoteDeviceConsole
namespace Planar

variable {α K : Type*} [LinearOrder K] (distance : α → K)

/-- The loop: the candidate that is kept, and its distance or the radius. -/
def keepNearer (nearest : Option α × K) (candidate : α) : Option α × K :=
  if distance candidate ≤ nearest.2 then (some candidate, distance candidate) else nearest

/-- What is kept of some candidates. -/
structure Nearest (radius : K) (candidates : List α) (nearest : Option α × K) : Prop where
  le_radius : nearest.2 ≤ radius
  le_all : ∀ candidate ∈ candidates, nearest.2 ≤ distance candidate
  none : nearest.1 = none →
    nearest.2 = radius ∧ ∀ candidate ∈ candidates, radius < distance candidate
  some : ∀ candidate, nearest.1 = some candidate →
    candidate ∈ candidates ∧ nearest.2 = distance candidate

variable {distance}

/-- One round of the loop. -/
theorem Nearest.keepNearer {radius : K} {candidates : List α} {nearest : Option α × K}
    (h : Nearest distance radius candidates nearest) (candidate : α) :
    Nearest distance radius (candidates ++ [candidate])
      (keepNearer distance nearest candidate) := by
  unfold Planar.keepNearer
  split
  · next hle =>
    refine ⟨hle.trans h.le_radius, fun other hother => ?_, fun hnone => ?_, fun other hother => ?_⟩
    · rcases List.mem_append.mp hother with hmem | hmem
      · exact hle.trans (h.le_all other hmem)
      · rw [List.mem_singleton.mp hmem]
    · exact absurd hnone (by simp)
    · obtain rfl := Option.some.inj hother
      exact ⟨by simp, rfl⟩
  · next hfar =>
    rw [not_le] at hfar
    refine ⟨h.le_radius, fun other hother => ?_, fun hnone => ?_, fun other hother => ?_⟩
    · rcases List.mem_append.mp hother with hmem | hmem
      · exact h.le_all other hmem
      · rw [List.mem_singleton.mp hmem]
        exact hfar.le
    · obtain ⟨heq, hall⟩ := h.none hnone
      refine ⟨heq, fun other hother => ?_⟩
      rcases List.mem_append.mp hother with hmem | hmem
      · exact hall other hmem
      · rw [List.mem_singleton.mp hmem]
        exact heq ▸ hfar
    · obtain ⟨hmem, heq⟩ := h.some other hother
      exact ⟨List.mem_append_left _ hmem, heq⟩

/-- **What the loop keeps.** -/
theorem nearest_foldl (distance : α → K) (radius : K) (candidates : List α) :
    Nearest distance radius candidates
      (candidates.foldl (keepNearer distance) (none, radius)) := by
  induction candidates using List.reverseRecOn with
  | nil =>
    exact ⟨le_refl _, by simp, fun _ => ⟨rfl, by simp⟩, fun candidate h => absurd h (by simp)⟩
  | append_singleton candidates candidate ih =>
    rw [List.foldl_append]
    exact ih.keepNearer candidate

/-- **The nearest candidate within a radius.** -/
theorem selectNearest_spec (distance : α → K) (radius : K) (candidates : List α) :
    ((candidates.foldl (keepNearer distance) (none, radius)).1 = none ↔
      ∀ candidate ∈ candidates, radius < distance candidate) ∧
    ∀ candidate, (candidates.foldl (keepNearer distance) (none, radius)).1 = some candidate →
      candidate ∈ candidates ∧ distance candidate ≤ radius ∧
        ∀ other ∈ candidates, distance candidate ≤ distance other := by
  have h := nearest_foldl distance radius candidates
  refine ⟨⟨fun hnone => (h.none hnone).2, fun hall => ?_⟩, fun candidate hsome => ?_⟩
  · by_contra hne
    obtain ⟨candidate, hsome⟩ := Option.ne_none_iff_exists'.mp hne
    obtain ⟨hmem, heq⟩ := h.some candidate hsome
    exact absurd (heq ▸ h.le_radius) (not_le.mpr (hall candidate hmem))
  · obtain ⟨hmem, heq⟩ := h.some candidate hsome
    exact ⟨hmem, heq ▸ h.le_radius, fun other hother => heq ▸ h.le_all other hother⟩

end Planar
end RemoteDeviceConsole
