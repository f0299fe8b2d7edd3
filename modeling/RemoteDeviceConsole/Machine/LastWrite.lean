import Mathlib.Data.List.Basic
import Mathlib.Data.List.Induction
import Mathlib.Logic.Function.Basic
import Mathlib.Tactic.Common

/-!
# Last writes, at once or by way of a buffer

Records arrive one after another, each with a key, and a table shows the last one of each
key.  Writing a record at once is `write`.  A program may instead collect the records in a
buffer that keeps the last one of each key, and flush the buffer from time to time, in any
order of the keys: `Buffered`.

The buffer laid over the table is what writing at once gives (`overlay_receive`), and a
flush leaves the overlay as it is and the buffer empty (`overlay_flush`).
-/

namespace RemoteDeviceConsole
namespace Machine

variable {κ α : Type*} [DecidableEq κ] (key : α → κ)

/-- Write a record under its key. -/
def write (f : κ → Option α) (a : α) : κ → Option α := Function.update f (key a) (some a)

/-- What the buffer has, and otherwise what the table has. -/
def overlay (buffer f : κ → Option α) : κ → Option α := fun k => (buffer k).or (f k)

/-- The last record of a key. -/
def lastOf (k : κ) (as : List α) : Option α := (as.filter fun a => key a = k).getLast?

/-- A table with a buffer in front of it. -/
structure Buffered (κ α : Type*) where
  buffer : κ → Option α
  shown : κ → Option α

/-- A record arrives. -/
def Buffered.receive (b : Buffered κ α) (a : α) : Buffered κ α :=
  { b with buffer := write key b.buffer a }

/-- The buffer is written to the table. -/
def Buffered.flush (b : Buffered κ α) : Buffered κ α where
  buffer := fun _ => none
  shown := overlay b.buffer b.shown

variable {key} {f buffer : κ → Option α} {a : α} {as : List α} {k : κ}

theorem write_self : write key f a (key a) = some a := Function.update_self _ _ _

theorem write_of_ne (h : k ≠ key a) : write key f a k = f k := Function.update_of_ne h _ _

omit [DecidableEq κ] in
@[simp] theorem overlay_none : overlay (fun _ => none) f = f := rfl

/-- **Buffering is writing**, behind the buffer. -/
theorem overlay_receive (b : Buffered κ α) (a : α) :
    overlay (b.receive key a).buffer (b.receive key a).shown =
      write key (overlay b.buffer b.shown) a := by
  funext k
  show (write key b.buffer a k).or (b.shown k) = write key (overlay b.buffer b.shown) a k
  by_cases hk : k = key a
  · subst hk
    rw [write_self, write_self, Option.some_or]
  · rw [write_of_ne hk, write_of_ne hk]
    rfl

omit [DecidableEq κ] in
theorem overlay_flush (b : Buffered κ α) :
    overlay b.flush.buffer b.flush.shown = overlay b.buffer b.shown := rfl

/-- **The last record of each key is shown.** -/
theorem foldl_write_eq : as.foldl (write key) f = overlay (fun k => lastOf key k as) f := by
  induction as using List.reverseRecOn with
  | nil => rfl
  | append_singleton as a ih =>
    rw [List.foldl_append, ih]
    funext k
    show write key _ a k = (lastOf key k (as ++ [a])).or (f k)
    by_cases hk : k = key a
    · subst hk
      rw [write_self, lastOf, List.filter_append]
      simp
    · rw [write_of_ne hk, lastOf, List.filter_append]
      simp [overlay, lastOf, Ne.symm hk]

/-- **The order of a flush does not matter**: writing the records of the buffer one after
another lays the buffer over the table. -/
theorem foldl_write_of_buffer (hkey : ∀ k a, buffer k = some a → key a = k)
    (has : ∀ a, a ∈ as ↔ buffer (key a) = some a) :
    as.foldl (write key) f = overlay buffer f := by
  rw [foldl_write_eq]
  funext k
  show (lastOf key k as).or (f k) = (buffer k).or (f k)
  congr 1
  rw [lastOf]
  have hmem : ∀ a, a ∈ as.filter (fun a => key a = k) ↔ buffer k = some a := by
    intro a
    rw [List.mem_filter, has]
    constructor
    · rintro ⟨ha, hk⟩
      have hk' : key a = k := by simpa using hk
      exact hk' ▸ ha
    · intro ha
      have hk := hkey k a ha
      exact ⟨hk ▸ ha, by simpa using hk⟩
  cases hb : buffer k with
  | none =>
    rw [List.getLast?_eq_none_iff, List.eq_nil_iff_forall_not_mem]
    intro a ha
    rw [hmem a, hb] at ha
    exact absurd ha (by simp)
  | some b =>
    cases hlast : (as.filter fun a => key a = k).getLast? with
    | none =>
      rw [List.getLast?_eq_none_iff] at hlast
      have hb' := (hmem b).mpr hb
      rw [hlast] at hb'
      exact absurd hb' (by simp)
    | some a => rw [← hb, (hmem a).mp (List.mem_of_getLast? hlast)]

/-- A key is shown when a record with it has arrived. -/
theorem isSome_lastOf : (lastOf key k as).isSome ↔ k ∈ as.map key := by
  rw [lastOf, Option.isSome_iff_ne_none, Ne, List.getLast?_eq_none_iff, List.mem_map]
  simp [List.filter_eq_nil_iff]

/-- The last record of a key is the one behind which the key does not come. -/
theorem lastOf_append_cons {bs : List α} (hbs : ∀ b ∈ bs, key b ≠ key a) :
    lastOf key (key a) (as ++ a :: bs) = some a := by
  have hnil : bs.filter (fun b => key b = key a) = [] := by
    rw [List.filter_eq_nil_iff]
    exact fun b hb => by simpa using hbs b hb
  rw [lastOf, List.filter_append, List.filter_cons_of_pos (by simp), hnil]
  simp

end Machine
end RemoteDeviceConsole
