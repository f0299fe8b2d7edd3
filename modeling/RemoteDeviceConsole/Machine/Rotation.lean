import Mathlib.Data.List.Nodup
import Mathlib.Data.Nat.ModEq
import Mathlib.Tactic.Common

/-!
# Taking turns

`n` parties take turns in a fixed order, turn `k` being the one of party `k % n`.

* `turns n i k`: how often party `i` has had its turn in the first `k` turns, and
  `turns_succ` how the number grows.
* `turns_le_turns_add_one`: nobody is ahead of another by more than one turn.
* `count_map_getElem?_mod`: the turns of an entry of a list without repetitions.
-/

namespace RemoteDeviceConsole
namespace Machine

variable {n i j : ℕ}

/-- The turns of party `i` among the first `k`. -/
def turns (n i k : ℕ) : ℕ := k / n + if i < k % n then 1 else 0

@[simp] theorem turns_zero (n i : ℕ) : turns n i 0 = 0 := by simp [turns]

/-- Turn `k` is the one of party `k % n`. -/
theorem turns_succ (hi : i < n) (k : ℕ) :
    turns n i (k + 1) = turns n i k + if k % n = i then 1 else 0 := by
  have hn : 0 < n := by omega
  have hr : k % n < n := Nat.mod_lt k hn
  have hk : k + 1 = n * (k / n) + (k % n + 1) := by
    have := Nat.div_add_mod k n
    omega
  unfold turns
  rw [hk, Nat.mul_add_div hn, Nat.mul_add_mod]
  generalize k / n = q, k % n = r at hr
  by_cases hlast : r + 1 = n
  · rw [hlast, Nat.div_self hn, Nat.mod_self]
    split_ifs <;> omega
  · have hlt : r + 1 < n := by omega
    rw [Nat.div_eq_of_lt hlt, Nat.mod_eq_of_lt hlt]
    split_ifs <;> omega

/-- **Nobody is ahead by more than one turn.** -/
theorem turns_le_turns_add_one (n i j k : ℕ) : turns n i k ≤ turns n j k + 1 := by
  unfold turns
  split_ifs <;> omega

/-- The first turns of the entries of a list, and how often an entry is among them. -/
theorem count_map_getElem?_mod {α : Type*} [DecidableEq α] {order : List α}
    (hnodup : order.Nodup) {a : α} (ha : order[i]? = some a) (k : ℕ) :
    ((List.range k).map fun m => order[m % order.length]?).count (some a) =
      turns order.length i k := by
  have hi : i < order.length := (List.getElem?_eq_some_iff.mp ha).1
  induction k with
  | zero => simp
  | succ k ih =>
    have hmod : k % order.length < order.length := Nat.mod_lt k (by omega)
    have hsame : order[k % order.length]? = some a ↔ k % order.length = i := by
      rw [← ha]
      exact List.getElem?_inj hmod hnodup
    rw [List.range_succ, List.map_append, List.count_append, ih, turns_succ hi,
      List.map_singleton, List.count_singleton]
    simp only [beq_iff_eq, hsame]

end Machine
end RemoteDeviceConsole
