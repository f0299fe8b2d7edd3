import Mathlib.Data.List.AList
import Mathlib.Tactic.Common

/-!
# Tables that are visited in a fixed order

A hash map whose iteration order matters is an `AList`: the entries in their order,
each key once.  Replacing a value keeps the order, erasing a key keeps the order of
the others.

* `exists_entries_of_lookup`: where an entry is, and what the two operations make of
  the list.
* `lookup_replace_self`, `lookup_replace_of_ne`: looking up after replacing.
* `countValues`: how many values have a property, before and after.
-/

namespace RemoteDeviceConsole
namespace Machine

variable {κ ν : Type*} [DecidableEq κ] {s : AList fun _ : κ => ν} {a a' : κ} {b c : ν}

/-- **The place of an entry.**  Replacing and erasing act there and nowhere else. -/
theorem exists_entries_of_lookup (h : s.lookup a = some b) :
    ∃ front back, s.entries = front ++ ⟨a, b⟩ :: back ∧
      (∀ c, (s.replace a c).entries = front ++ ⟨a, c⟩ :: back) ∧
      (s.erase a).entries = front ++ back := by
  obtain ⟨entries, hnodup⟩ := s
  have hmem : (⟨a, b⟩ : Sigma fun _ : κ => ν) ∈ entries := List.of_mem_dlookup h
  obtain ⟨front, back, rfl⟩ := List.append_of_mem hmem
  have hfront : ∀ e ∈ front, a ≠ e.1 := by
    rintro e he rfl
    rw [List.NodupKeys, List.keys, List.map_append, List.map_cons] at hnodup
    exact (List.nodup_append.mp hnodup).2.2 _ (List.mem_map_of_mem he) _ (by simp) rfl
  refine ⟨front, back, rfl, fun c => ?_, ?_⟩
  · show List.kreplace a c (front ++ ⟨a, b⟩ :: back) = _
    clear h hmem hnodup
    induction front with
    | nil => exact List.lookmap_cons_some _ _ (by simp)
    | cons e front ih =>
      have he := hfront e (by simp)
      rw [List.cons_append, List.cons_append, List.kreplace,
        List.lookmap_cons_none _ _ (by simp [he])]
      exact congrArg _ (ih fun e he => hfront e (by simp [he]))
  · show List.kerase a (front ++ ⟨a, b⟩ :: back) = _
    clear h hmem hnodup
    induction front with
    | nil => exact List.kerase_cons_eq rfl
    | cons e front ih =>
      rw [List.cons_append, List.kerase_cons_ne (hfront e (by simp)), List.cons_append,
        ih fun e he => hfront e (by simp [he])]

theorem lookup_replace_self (h : s.lookup a = some b) (c : ν) :
    (s.replace a c).lookup a = some c := by
  obtain ⟨front, back, -, hreplace, -⟩ := exists_entries_of_lookup h
  rw [← Option.mem_def, AList.mem_lookup_iff, hreplace]
  simp

theorem lookup_replace_of_ne (h : a' ≠ a) (c : ν) : (s.replace a c).lookup a' = s.lookup a' := by
  have hentries : ∀ v, (⟨a', v⟩ : Sigma fun _ : κ => ν) ∈ (s.replace a c).entries ↔
      ⟨a', v⟩ ∈ s.entries := by
    intro v
    cases hlookup : s.lookup a with
    | none =>
      have hnot : a ∉ s := AList.lookup_eq_none.mp hlookup
      have hsame : (s.replace a c).entries = s.entries := by
        refine @List.kreplace_of_forall_not κ (fun _ => ν) _ a c _ fun d hd => hnot ?_
        exact List.mem_keys_of_mem hd
      rw [hsame]
    | some b =>
      obtain ⟨front, back, hs, hreplace, -⟩ := exists_entries_of_lookup hlookup
      rw [hs, hreplace]
      simp [h]
  refine Option.ext fun v => ?_
  rw [← Option.mem_def, ← Option.mem_def, AList.mem_lookup_iff, AList.mem_lookup_iff, hentries]

theorem length_replace (h : s.lookup a = some b) (c : ν) :
    (s.replace a c).entries.length = s.entries.length := by
  obtain ⟨front, back, hs, hreplace, -⟩ := exists_entries_of_lookup h
  simp only [hs, hreplace, List.length_append, List.length_cons]

theorem length_erase (h : s.lookup a = some b) :
    (s.erase a).entries.length + 1 = s.entries.length := by
  obtain ⟨front, back, hs, -, herase⟩ := exists_entries_of_lookup h
  simp only [hs, herase, List.length_append, List.length_cons]
  omega

/-- How many values have a property. -/
def countValues (p : ν → Bool) (s : AList fun _ : κ => ν) : ℕ := s.entries.countP fun e => p e.2

variable {p : ν → Bool}

theorem countValues_replace (h : s.lookup a = some b) (c : ν) :
    countValues p (s.replace a c) + (if p b then 1 else 0) =
      countValues p s + if p c then 1 else 0 := by
  obtain ⟨front, back, hs, hreplace, -⟩ := exists_entries_of_lookup h
  simp only [countValues, hs, hreplace, List.countP_append, List.countP_cons]
  omega

theorem countValues_erase (h : s.lookup a = some b) :
    countValues p (s.erase a) + (if p b then 1 else 0) = countValues p s := by
  obtain ⟨front, back, hs, -, herase⟩ := exists_entries_of_lookup h
  simp only [countValues, hs, herase, List.countP_append, List.countP_cons]
  omega

theorem countValues_eq_zero :
    countValues p s = 0 ↔ ∀ a b, s.lookup a = some b → p b = false := by
  rw [countValues, List.countP_eq_zero]
  constructor
  · intro h a b hb
    simpa using h ⟨a, b⟩ (List.of_mem_dlookup hb)
  · rintro h ⟨a, b⟩ hmem
    simpa using h a b (AList.mem_lookup_iff.mpr hmem)

end Machine
end RemoteDeviceConsole
