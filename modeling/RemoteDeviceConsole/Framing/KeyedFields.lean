import Mathlib.Data.List.Basic
import Mathlib.Data.List.Induction
import Mathlib.Data.List.Nodup
import Mathlib.Tactic.Common

/-!
# Fields with keys

A record is often given as a list of fields, each a key and a text: a later field
replaces an earlier one with the same key, and a text that cannot be read makes the
whole list invalid.  This file looks at one cell of such a record: it reacts to one key
and leaves the others alone.

* `valuesOf`: the texts given to a key, in their order.
* `stepCell`: one field, for one cell.
* `foldlM_stepCell`: a list of fields is valid for a cell when all texts of its key can be
  read, and the cell then has what the last one says.
* `valuesOf_eq_of_perm`, `foldlM_stepCell_congr`: fields with different keys may come in any
  order.
-/

namespace RemoteDeviceConsole
namespace Framing

variable {κ ν α : Type*} [DecidableEq κ]

/-- The texts given to a key, in their order. -/
def valuesOf (key : κ) (fields : List (κ × ν)) : List ν :=
  (fields.filter fun field => field.1 = key).map Prod.snd

/-- One field, for the cell of a key. -/
def stepCell (read : ν → Option α) (key : κ) (cell : α) (field : κ × ν) : Option α :=
  if field.1 = key then read field.2 else some cell

/-- The cell has what the last text says, or what it has without one. -/
def IsLast (read : ν → Option α) (absent : α) (values : List ν) (cell : α) : Prop :=
  match values.getLast? with
  | none => cell = absent
  | some value => read value = some cell

variable {key : κ} {fields : List (κ × ν)} {read : ν → Option α} {absent cell : α}

@[simp] theorem valuesOf_nil : valuesOf key ([] : List (κ × ν)) = [] := rfl

@[simp] theorem valuesOf_append (a b : List (κ × ν)) :
    valuesOf key (a ++ b) = valuesOf key a ++ valuesOf key b := by
  simp [valuesOf]

theorem valuesOf_singleton (field : κ × ν) :
    valuesOf key [field] = if field.1 = key then [field.2] else [] := by
  by_cases h : field.1 = key <;> simp [valuesOf, h]

theorem mem_valuesOf {value : ν} : value ∈ valuesOf key fields ↔ (key, value) ∈ fields := by
  rw [valuesOf, List.mem_map]
  constructor
  · rintro ⟨⟨k, v⟩, hmem, rfl⟩
    obtain ⟨hfield, hk⟩ := List.mem_filter.mp hmem
    have hkey : k = key := by simpa using hk
    exact hkey ▸ hfield
  · intro h
    exact ⟨(key, value), List.mem_filter.mpr ⟨h, by simp⟩, rfl⟩

/-- The order of fields with different keys does not matter to any of the keys. -/
theorem valuesOf_eq_of_perm {fields' : List (κ × ν)} (h : fields.Perm fields')
    (hkeys : (fields.map Prod.fst).Nodup) : valuesOf key fields = valuesOf key fields' := by
  have hperm : (valuesOf key fields).Perm (valuesOf key fields') :=
    (h.filter fun field : κ × ν => field.1 = key).map Prod.snd
  have hshort : (valuesOf key fields).length ≤ 1 := by
    have hcount := List.nodup_iff_count_le_one.mp hkeys key
    rw [List.count, List.countP_map, List.countP_eq_length_filter] at hcount
    rw [valuesOf, List.length_map]
    exact hcount
  match hvalues : valuesOf key fields, hshort with
  | [], _ => rw [hvalues] at hperm; exact (List.nil_perm.mp hperm).symm
  | [value], _ => rw [hvalues] at hperm; exact List.singleton_perm.mp hperm

@[simp] theorem isLast_nil : IsLast read absent [] cell ↔ cell = absent := Iff.rfl

@[simp] theorem isLast_append_singleton (values : List ν) (value : ν) :
    IsLast read absent (values ++ [value]) cell ↔ read value = some cell := by
  simp [IsLast]

/-- **The last text wins**, when all can be read. -/
theorem foldlM_stepCell :
    fields.foldlM (stepCell read key) absent = some cell ↔
      (∀ value ∈ valuesOf key fields, ∃ a, read value = some a) ∧
        IsLast read absent (valuesOf key fields) cell := by
  induction fields using List.reverseRecOn generalizing cell with
  | nil => simp [eq_comm]
  | append_singleton fields field ih =>
    simp only [List.foldlM_append, List.foldlM_cons, List.foldlM_nil, Option.bind_eq_bind,
      Option.pure_def, Option.bind_fun_some, Option.bind_eq_some_iff, ih, valuesOf_append,
      valuesOf_singleton, stepCell]
    split
    · -- the text of this field is the last one
      constructor
      · rintro ⟨before, ⟨hall, -⟩, hread⟩
        refine ⟨fun value hvalue => ?_, by simpa using hread⟩
        rcases List.mem_append.mp hvalue with hvalue | hvalue
        · exact hall value hvalue
        · exact ⟨cell, List.mem_singleton.mp hvalue ▸ hread⟩
      · rintro ⟨hall, hlast⟩
        have hbefore : ∀ value ∈ valuesOf key fields, ∃ a, read value = some a :=
          fun value hvalue => hall value (List.mem_append_left _ hvalue)
        obtain ⟨before, hcell⟩ : ∃ before, IsLast read absent (valuesOf key fields) before := by
          rcases (valuesOf key fields).eq_nil_or_concat' with hnil | ⟨values, value, hvalues⟩
          · exact ⟨absent, by simp [hnil]⟩
          · obtain ⟨a, ha⟩ := hbefore value (by simp [hvalues])
            exact ⟨a, by simpa [hvalues] using ha⟩
        exact ⟨before, ⟨hbefore, hcell⟩, by simpa using hlast⟩
    · -- a field of another key changes nothing
      simp

/-- A cell depends on the texts of its key only. -/
theorem foldlM_stepCell_congr {fields' : List (κ × ν)}
    (h : valuesOf key fields = valuesOf key fields') :
    fields.foldlM (stepCell read key) absent = fields'.foldlM (stepCell read key) absent := by
  ext cell
  rw [foldlM_stepCell, foldlM_stepCell, h]

end Framing
end RemoteDeviceConsole
