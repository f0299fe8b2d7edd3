import Mathlib.Data.List.Basic
import Mathlib.Data.List.Induction
import Mathlib.Tactic.Common

/-!
# Sliding windows

A window of a given capacity holds the last entries of a stream: an entry is pushed behind
it, and entries are popped from the front while there are too many (`trim`).

`foldl_push` says what a window holds after any number of pushes: the last entries, as many
as fit, of what it held and what was pushed.
-/

namespace RemoteDeviceConsole
namespace Machine

variable {α : Type*} {capacity : ℕ} {window as : List α}

/-- Pop entries from the front while there are too many. -/
def trim (capacity : ℕ) : List α → List α
  | [] => []
  | a :: window =>
      if capacity < (a :: window).length then trim capacity window else a :: window

/-- An entry is pushed behind the window. -/
def push (capacity : ℕ) (window : List α) (a : α) : List α := trim capacity (window ++ [a])

/-- What is popped is what is too much. -/
theorem trim_eq_drop (capacity : ℕ) (window : List α) :
    trim capacity window = window.drop (window.length - capacity) := by
  induction window with
  | nil => rw [trim, List.drop_nil]
  | cons a window ih =>
    rw [trim]
    split
    · next hlong =>
      rw [List.length_cons] at hlong ⊢
      rw [ih, Nat.succ_sub (Nat.lt_succ_iff.mp hlong), List.drop_succ_cons]
    · next hshort => rw [Nat.sub_eq_zero_of_le (Nat.not_lt.mp hshort), List.drop_zero]

theorem length_trim (capacity : ℕ) (window : List α) :
    (trim capacity window).length = min capacity window.length := by
  rw [trim_eq_drop, List.length_drop]
  omega

/-- What was popped does not count for later pushes. -/
theorem push_trim (capacity : ℕ) (window : List α) (a : α) :
    push capacity (trim capacity window) a = trim capacity (window ++ [a]) := by
  rw [push, trim_eq_drop capacity (window ++ [a]), trim_eq_drop capacity (_ ++ [a])]
  rw [List.length_append, List.length_singleton, length_trim, trim_eq_drop, List.length_append,
    List.length_singleton]
  rcases Nat.le_total window.length capacity with hle | hle
  · rw [Nat.sub_eq_zero_of_le hle, List.drop_zero, Nat.min_eq_right hle]
  · rw [Nat.min_eq_left hle, Nat.add_sub_cancel_left, Nat.sub_add_comm hle]
    rw [← List.drop_append_of_le_length (by omega), List.drop_drop]

/-- **The window holds the last entries of the stream.** -/
theorem foldl_push (capacity : ℕ) (window as : List α) :
    as.foldl (push capacity) (trim capacity window) = trim capacity (window ++ as) := by
  induction as generalizing window with
  | nil => rw [List.foldl_nil, List.append_nil]
  | cons a as ih => rw [List.foldl_cons, push_trim, ih, List.append_assoc, List.singleton_append]

/-- The last entry of a window with room is the last one of the stream. -/
theorem getLast?_trim (h : 0 < capacity) : (trim capacity window).getLast? = window.getLast? := by
  rw [trim_eq_drop]
  rcases window.eq_nil_or_concat with rfl | ⟨init, a, rfl⟩
  · rw [List.drop_nil]
  · rw [List.concat_eq_append, List.drop_append_of_le_length
      (by rw [List.length_append, List.length_singleton]; omega)]
    simp

end Machine
end RemoteDeviceConsole
