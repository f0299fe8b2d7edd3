import Mathlib.Data.List.Sort
import Mathlib.Tactic.Common

/-!
# Order statistics

The order statistic of rank `k` is what stands at place `k` of the list when it is sorted by
`r`.

* `orderStatistic_eq_some_iff`: it is the one value with more than `k` entries up to it and,
  but for `k`, all entries from it on.
* `orderStatistic_perm`: the order of the list does not matter.
* `orderStatistic_mono`: a higher rank has a higher value.
-/

namespace RemoteDeviceConsole
namespace Machine

variable {α : Type*} (r : α → α → Prop) [DecidableRel r] {l l' : List α} {k m : ℕ} {v w : α}

/-- What stands at place `k` of the sorted list. -/
def orderStatistic (l : List α) (k : ℕ) : Option α := (l.insertionSort r)[k]?

variable {r}

theorem exists_orderStatistic (hk : k < l.length) : ∃ v, orderStatistic r l k = some v := by
  have hlength : k < (l.insertionSort r).length := by rwa [List.length_insertionSort]
  exact ⟨_, List.getElem?_eq_getElem hlength⟩

theorem mem_of_orderStatistic (h : orderStatistic r l k = some v) : v ∈ l :=
  (List.mem_insertionSort r).mp (List.mem_of_getElem? h)

/-- The entries of a list are those of the sorted list. -/
theorem countP_insertionSort (p : α → Bool) : (l.insertionSort r).countP p = l.countP p :=
  (List.perm_insertionSort r l).countP_eq p

/-- No entry is both up to `v` and from `w` on when `w` is not up to `v`. -/
theorem countP_add_countP_le [IsTrans α r] (hwv : ¬ r w v) (l : List α) :
    l.countP (fun x => r x v) + l.countP (fun x => r w x) ≤ l.length := by
  induction l with
  | nil => simp
  | cons x l ih =>
    have hboth : ¬ (r x v ∧ r w x) := fun ⟨hxv, hwx⟩ => hwv (trans_of r hwx hxv)
    simp only [List.countP_cons, decide_eq_true_eq, List.length_cons]
    split_ifs with hxv hwx
    · exact absurd ⟨hxv, hwx⟩ hboth
    all_goals omega

variable [Std.Total r] [IsTrans α r]

/-- **More than `k` entries are up to the order statistic of rank `k`.** -/
theorem lt_countP_of_orderStatistic (h : orderStatistic r l k = some v) :
    k < l.countP (fun x => r x v) := by
  obtain ⟨hk, hv⟩ := List.getElem?_eq_some_iff.mp h
  have hsorted := List.pairwise_iff_getElem.mp (List.pairwise_insertionSort r l)
  -- all entries of the sorted list up to place `k` count
  have hall : ∀ x ∈ (l.insertionSort r).take (k + 1), decide (r x v) = true := by
    intro x hx
    obtain ⟨i, hi, rfl⟩ := List.getElem_of_mem hx
    have hik : i < k + 1 := by
      rw [List.length_take] at hi
      omega
    rw [List.getElem_take, decide_eq_true_eq, ← hv]
    obtain heq | hlt := Nat.eq_or_lt_of_le (Nat.lt_succ_iff.mp hik)
    · subst heq
      exact refl_of r _
    · exact hsorted i k _ hk hlt
  have htake := List.countP_eq_length.mpr hall
  rw [List.length_take, Nat.min_eq_left hk] at htake
  calc k < k + 1 := Nat.lt_succ_self k
    _ = ((l.insertionSort r).take (k + 1)).countP (fun x => r x v) := htake.symm
    _ ≤ (l.insertionSort r).countP (fun x => r x v) := (List.take_sublist _ _).countP_le
    _ = l.countP (fun x => r x v) := countP_insertionSort _

/-- **All entries but `k` are from the order statistic of rank `k` on.** -/
theorem length_le_countP_of_orderStatistic (h : orderStatistic r l k = some v) :
    l.length ≤ l.countP (fun x => r v x) + k := by
  obtain ⟨hk, hv⟩ := List.getElem?_eq_some_iff.mp h
  have hsorted := List.pairwise_iff_getElem.mp (List.pairwise_insertionSort r l)
  have hall : ∀ x ∈ (l.insertionSort r).drop k, decide (r v x) = true := by
    intro x hx
    obtain ⟨i, hi, rfl⟩ := List.getElem_of_mem hx
    rw [List.getElem_drop, decide_eq_true_eq, ← hv]
    obtain rfl | hpos := Nat.eq_zero_or_pos i
    · exact refl_of r _
    · exact hsorted k (k + i) hk _ (by omega)
  have hdrop := List.countP_eq_length.mpr hall
  have hle := (List.drop_sublist k (l.insertionSort r)).countP_le (p := fun x => decide (r v x))
  rw [hdrop, countP_insertionSort, List.length_drop, List.length_insertionSort] at hle
  omega

/-- **The order statistic by ranks alone.** -/
theorem orderStatistic_eq_some_iff [Std.Antisymm r] :
    orderStatistic r l k = some v ↔
      k < l.countP (fun x => r x v) ∧ l.length ≤ l.countP (fun x => r v x) + k := by
  refine ⟨fun h => ⟨lt_countP_of_orderStatistic h, length_le_countP_of_orderStatistic h⟩, ?_⟩
  rintro ⟨hbelow, habove⟩
  have hle := l.countP_le_length (p := fun x => decide (r x v))
  obtain ⟨w, hw⟩ := exists_orderStatistic (r := r) (l := l) (k := k) (by omega)
  have hbelow' := lt_countP_of_orderStatistic hw
  have habove' := length_le_countP_of_orderStatistic hw
  -- two values with the ranks are each up to the other
  have hwv : r w v := by
    by_contra hnot
    have := countP_add_countP_le hnot l
    omega
  have hvw : r v w := by
    by_contra hnot
    have := countP_add_countP_le hnot l
    omega
  rw [hw, antisymm_of r hwv hvw]

/-- The order of the list does not matter. -/
theorem orderStatistic_perm [Std.Antisymm r] (h : l.Perm l') (k : ℕ) :
    orderStatistic r l k = orderStatistic r l' k := by
  ext v
  rw [orderStatistic_eq_some_iff, orderStatistic_eq_some_iff, h.countP_eq, h.countP_eq,
    h.length_eq]

/-- A higher rank has a higher value. -/
theorem orderStatistic_mono (hkm : k ≤ m) (hv : orderStatistic r l k = some v)
    (hw : orderStatistic r l m = some w) : r v w := by
  by_contra hnot
  have hbelow := lt_countP_of_orderStatistic hw
  have habove := length_le_countP_of_orderStatistic hv
  have := countP_add_countP_le hnot l
  omega

end Machine
end RemoteDeviceConsole
