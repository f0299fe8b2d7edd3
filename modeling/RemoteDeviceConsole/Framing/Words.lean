import Mathlib.Data.List.Basic
import Mathlib.Data.List.Infix
import Mathlib.Tactic.Common

/-!
# Words between separators

The words of a list are its maximal runs without a separator.  Runs of
separators, leading and trailing ones included, leave no trace, which is what
makes the words of a text insensitive to its spacing.

* `words_append_cons`: a separator splits the words.
* `words_word_append`: a word in front of a separator or of the end is the first
  word.
* `words_flatMap_cons`, `words_spaced`: writing words and reading them back, with one or any
  number of separators in front of each.
* `append_cons_inj`, `prefix_append_cons_iff`: splitting at a separator.
* `notMem_and_ne_nil_of_mem_words`, `mem_of_mem_words`: what a word is made of.
-/

namespace RemoteDeviceConsole
namespace Framing

variable {α : Type*} [DecidableEq α] {sep : α}

/-- The maximal non-empty runs without the separator. -/
def words (sep : α) (l : List α) : List (List α) :=
  (l.splitOn sep).filter (· ≠ [])

@[simp] theorem words_nil : words sep [] = [] := by
  simp [words]

theorem words_of_notMem {w : List α} (h : sep ∉ w) (hne : w ≠ []) : words sep w = [w] := by
  rw [words, List.splitOn_eq_singleton h]
  simp [hne]

/-- A separator splits the words. -/
theorem words_append_cons (a b : List α) :
    words sep (a ++ sep :: b) = words sep a ++ words sep b := by
  rw [words, List.splitOn_append_cons_self, List.filter_append]
  rfl

@[simp] theorem words_cons_self (b : List α) : words sep (sep :: b) = words sep b := by
  simpa using words_append_cons [] b

/-- A word followed by a separator, or by nothing, is the first word. -/
theorem words_word_append {w rest : List α} (h : sep ∉ w) (hne : w ≠ [])
    (hrest : rest = [] ∨ rest.head? = some sep) :
    words sep (w ++ rest) = w :: words sep rest := by
  rcases rest with _ | ⟨b, rest⟩
  · rw [List.append_nil, words_of_notMem h hne, words_nil]
  · have hb : b = sep := by simpa using hrest
    rw [hb, words_append_cons, words_of_notMem h hne, words_cons_self, List.singleton_append]

omit [DecidableEq α] in
/-- The parts around the first separator are determined. -/
theorem append_cons_inj {a b x y : List α} (ha : sep ∉ a) (hx : sep ∉ x) :
    a ++ sep :: b = x ++ sep :: y ↔ a = x ∧ b = y := by
  constructor
  · intro h
    induction a generalizing x with
    | nil =>
      cases x with
      | nil => exact ⟨rfl, (List.cons.inj h).2⟩
      | cons c x => exact absurd (List.cons.inj h).1 fun heq => hx (by simp [heq])
    | cons c a ih =>
      cases x with
      | nil => exact absurd (List.cons.inj h).1.symm fun heq => ha (by simp [heq])
      | cons c' x =>
        obtain ⟨hc, htail⟩ := List.cons.inj h
        obtain ⟨rfl, rfl⟩ := ih (fun hmem => ha (by simp [hmem])) (fun hmem => hx (by simp [hmem]))
          htail
        exact ⟨by rw [hc], rfl⟩
  · rintro ⟨rfl, rfl⟩
    rfl

omit [DecidableEq α] in
/-- A beginning of a list ends in front of a chosen place or behind it. -/
theorem prefix_append_cons_iff {a b q : List α} {x : α} :
    q <+: a ++ x :: b ↔ q <+: a ∨ ∃ t, q = a ++ x :: t ∧ t <+: b := by
  constructor
  · rintro ⟨r, hr⟩
    rcases List.append_eq_append_iff.mp hr with ⟨c, hc, -⟩ | ⟨c, hq, hc⟩
    · exact Or.inl ⟨c, hc.symm⟩
    · cases c with
      | nil => exact Or.inl ⟨[], by simpa using hq⟩
      | cons y t =>
        obtain ⟨hy, hb⟩ := List.cons.inj hc
        exact Or.inr ⟨t, by rw [hq, hy], ⟨r, hb.symm⟩⟩
  · rintro (h | ⟨t, rfl, h⟩)
    · exact h.trans (List.prefix_append _ _)
    · exact (List.prefix_append_right_inj a).mpr ((List.prefix_cons_inj x).mpr h)

/-- Words with a separator in front of each are read back. -/
theorem words_flatMap_cons {tokens : List (List α)}
    (h : ∀ token ∈ tokens, sep ∉ token ∧ token ≠ []) :
    words sep (tokens.flatMap fun token => sep :: token) = tokens := by
  induction tokens with
  | nil => simp
  | cons token tokens ih =>
    obtain ⟨hsep, hne⟩ := h token (by simp)
    have hrest : (tokens.flatMap fun token => sep :: token) = [] ∨
        (tokens.flatMap fun token => sep :: token).head? = some sep := by
      cases tokens with
      | nil => exact Or.inl rfl
      | cons t ts => exact Or.inr rfl
    rw [List.flatMap_cons, List.cons_append, words_cons_self, words_word_append hsep hne hrest,
      ih fun t ht => h t (by simp [ht])]

@[simp] theorem words_replicate_append (n : ℕ) (l : List α) :
    words sep (List.replicate n sep ++ l) = words sep l := by
  induction n with
  | zero => rfl
  | succ n ih => rw [List.replicate_succ, List.cons_append, words_cons_self, ih]

/-- Words with any number of separators in front of each and behind the last are read back;
an empty one leaves no trace. -/
theorem words_spaced {items : List (ℕ × List α)} (h : ∀ item ∈ items, sep ∉ item.2) (after : ℕ) :
    words sep ((items.flatMap fun item => List.replicate (item.1 + 1) sep ++ item.2) ++
        List.replicate after sep) =
      (items.map Prod.snd).filter (· ≠ []) := by
  induction items with
  | nil =>
    rw [List.flatMap_nil, List.nil_append, ← List.append_nil (List.replicate after sep),
      words_replicate_append, words_nil]
    rfl
  | cons item items ih =>
    obtain ⟨hsep, hitems⟩ := List.forall_mem_cons.mp h
    have hrest : (items.flatMap fun item => List.replicate (item.1 + 1) sep ++ item.2) ++
          List.replicate after sep = [] ∨
        ((items.flatMap fun item => List.replicate (item.1 + 1) sep ++ item.2) ++
          List.replicate after sep).head? = some sep := by
      cases items with
      | nil => cases after <;> simp [List.replicate_succ]
      | cons item items => exact Or.inr rfl
    rw [List.flatMap_cons, List.append_assoc, List.append_assoc, words_replicate_append,
      List.map_cons]
    by_cases hnil : item.2 = []
    · rw [hnil, List.nil_append, ih hitems, List.filter_cons_of_neg (by simp)]
    · rw [words_word_append hsep hnil hrest, ih hitems, List.filter_cons_of_pos (by simpa)]

/-- A list has no separator, or splits at its first one. -/
theorem exists_eq_append_cons_of_mem {l : List α} (h : sep ∈ l) :
    ∃ a b, sep ∉ a ∧ l = a ++ sep :: b := by
  induction l with
  | nil => exact absurd h (by simp)
  | cons x l ih =>
    by_cases hx : sep = x
    · exact ⟨[], l, by simp, by rw [hx]; rfl⟩
    · obtain ⟨a, b, ha, rfl⟩ := ih ((List.mem_cons.mp h).resolve_left hx)
      exact ⟨x :: a, b, by simp [hx, ha], rfl⟩

/-- Induction on a list, one separator at a time. -/
theorem words_induction {P : List α → Prop} (hlast : ∀ a, sep ∉ a → P a)
    (hsep : ∀ a b, sep ∉ a → P b → P (a ++ sep :: b)) (l : List α) : P l := by
  induction hn : l.length using Nat.strong_induction_on generalizing l with
  | _ n ih =>
    by_cases h : sep ∈ l
    · obtain ⟨a, b, ha, rfl⟩ := exists_eq_append_cons_of_mem h
      rw [List.length_append, List.length_cons] at hn
      exact hsep a b ha (ih b.length (by omega) b rfl)
    · exact hlast l h

theorem words_of_notMem_eq {a : List α} (h : sep ∉ a) :
    words sep a = if a = [] then [] else [a] := by
  split
  · next h0 => rw [h0, words_nil]
  · next hne => exact words_of_notMem h hne

/-- A word has no separator and is not empty. -/
theorem notMem_and_ne_nil_of_mem_words {w l : List α} (h : w ∈ words sep l) :
    sep ∉ w ∧ w ≠ [] := by
  induction l using @words_induction α _ sep with
  | hlast a ha =>
    rw [words_of_notMem_eq ha] at h
    split at h
    · simp at h
    · next hne => rw [List.mem_singleton.mp h]; exact ⟨ha, hne⟩
  | hsep a b ha ih =>
    rw [words_append_cons, List.mem_append] at h
    rcases h with h | h
    · rw [words_of_notMem_eq ha] at h
      split at h
      · simp at h
      · next hne => rw [List.mem_singleton.mp h]; exact ⟨ha, hne⟩
    · exact ih h

/-- The letters of a word are letters of the list. -/
theorem mem_of_mem_words {w l : List α} (h : w ∈ words sep l) {x : α} (hx : x ∈ w) : x ∈ l := by
  induction l using @words_induction α _ sep with
  | hlast a ha =>
    rw [words_of_notMem_eq ha] at h
    split at h
    · simp at h
    · rw [List.mem_singleton.mp h] at hx; exact hx
  | hsep a b ha ih =>
    rw [words_append_cons, List.mem_append] at h
    rcases h with h | h
    · rw [words_of_notMem_eq ha] at h
      split at h
      · simp at h
      · rw [List.mem_singleton.mp h] at hx
        exact List.mem_append_left _ hx
    · exact List.mem_append_right _ (List.mem_cons_of_mem _ (ih h))

end Framing
end RemoteDeviceConsole
