import RemoteDeviceConsole.Framing.Words
import Mathlib.Data.List.Forall2

/-!
# Topics and topic filters

A topic is a text of levels with a separator between them.  A filter is a text of the same
form in which one symbol, as a whole level, stands for any one level and another one, as the
last level, for all levels that are left.

* `levels`: the levels of a topic, `levels_append_cons` and `notMem_of_mem_levels` about the
  separators, `levels_three` for a topic of three levels.
* `matchesLevels`: a filter against a topic, level by level, and `matchesLevels_iff` for a
  filter without the symbol for the rest.
-/

namespace RemoteDeviceConsole
namespace Framing

variable {α : Type*} [DecidableEq α] {sep : α}

/-! ## Levels -/

/-- The levels of a topic, the empty ones included. -/
def levels (sep : α) (topic : List α) : List (List α) := topic.splitOn sep

theorem levels_of_notMem {topic : List α} (h : sep ∉ topic) : levels sep topic = [topic] :=
  List.splitOn_eq_singleton h

theorem levels_append_cons (a b : List α) :
    levels sep (a ++ sep :: b) = levels sep a ++ levels sep b :=
  List.splitOn_append_cons_self a b

/-- A level has no separator. -/
theorem notMem_of_mem_levels {level topic : List α} (h : level ∈ levels sep topic) :
    sep ∉ level := by
  induction topic using @words_induction α _ sep with
  | hlast a ha =>
    rw [levels_of_notMem ha, List.mem_singleton] at h
    rwa [h]
  | hsep a b ha ih =>
    rw [levels_append_cons, levels_of_notMem ha, List.singleton_append, List.mem_cons] at h
    rcases h with rfl | h
    · exact ha
    · exact ih h

/-- A topic spelled out in three levels. -/
theorem levels_three {a b c : List α} (ha : sep ∉ a) (hb : sep ∉ b) (hc : sep ∉ c) :
    levels sep (a ++ sep :: (b ++ sep :: c)) = [a, b, c] := by
  rw [levels_append_cons, levels_append_cons, levels_of_notMem ha, levels_of_notMem hb,
    levels_of_notMem hc]
  rfl

/-! ## Filters -/

/-- A filter against a topic: `one` stands for one level, and `rest`, when it comes last, for
any number of levels. -/
def matchesLevels (one rest : α) : List (List α) → List (List α) → Bool
  | [], [] => true
  | [], _ :: _ => false
  | level :: filter, [] => decide (level = [rest] ∧ filter = [])
  | level :: filter, name :: topic =>
      decide (level = [rest] ∧ filter = []) ||
        decide (level = [one] ∨ level = name) && matchesLevels one rest filter topic

/-- Without the symbol for the rest, a filter matches level by level. -/
theorem matchesLevels_iff {one rest : α} {filter topic : List (List α)} (h : [rest] ∉ filter) :
    matchesLevels one rest filter topic = true ↔
      List.Forall₂ (fun level name => level = [one] ∨ level = name) filter topic := by
  induction filter generalizing topic with
  | nil => cases topic <;> simp [matchesLevels]
  | cons level filter ih =>
    rw [List.mem_cons, not_or] at h
    cases topic with
    | nil => simp [matchesLevels, Ne.symm h.1]
    | cons name topic => simp [matchesLevels, Ne.symm h.1, ih h.2]

end Framing
end RemoteDeviceConsole
