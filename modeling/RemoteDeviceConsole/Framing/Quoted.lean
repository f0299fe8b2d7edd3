import Mathlib.Data.List.TakeWhile
import Mathlib.Tactic.Common

/-!
# Quoted texts and lists of members

A text is quoted by a quote at both ends, with an escape mark in front of every quote and
every escape mark inside.  A record is a list of members, each a quoted key and a value,
which is a quoted text or a bare one.  This file reads such records back.

The reader of a literal has two parts: `splitLiteral` looks for the first quote that is
not escaped and `unescape` undoes the escapes.  The first part works for every text in
which each quote is escaped (`Escaped`), however it came about; the second undoes exactly
what `escaped` does.  `readMembers_printMembers` is the round trip: whatever the keys and
the quoted texts are, the members read are the members printed.
-/

namespace RemoteDeviceConsole
namespace Framing

/-- The marks of a notation for records. -/
structure Delimiters (α : Type*) where
  quote : α
  escape : α
  colon : α
  comma : α
  escape_ne_quote : escape ≠ quote
  comma_ne_quote : comma ≠ quote

namespace Delimiters

variable {α : Type*} (d : Delimiters α)

/-! ## Literals -/

/-- Every quote of the text is escaped, and no escape is left open. -/
inductive Escaped : List α → Prop where
  | nil : Escaped []
  | plain {a : α} {text : List α} (hq : a ≠ d.quote) (he : a ≠ d.escape) (h : Escaped text) :
      Escaped (a :: text)
  | pair (a : α) {text : List α} (h : Escaped text) : Escaped (d.escape :: a :: text)

theorem Escaped.append {d : Delimiters α} {s t : List α} (hs : d.Escaped s) (ht : d.Escaped t) :
    d.Escaped (s ++ t) := by
  induction hs with
  | nil => exact ht
  | plain hq he _ ih => exact .plain hq he ih
  | pair a _ ih => exact .pair a ih

variable [DecidableEq α]

/-- The escape mark goes in front of every quote and every escape mark. -/
def escaped (text : List α) : List α :=
  text.flatMap fun a => if a = d.quote ∨ a = d.escape then [d.escape, a] else [a]

/-- The text up to the first quote that is not escaped, and what follows that quote. -/
def splitLiteral : List α → Option (List α × List α)
  | [] => none
  | [a] => if a = d.quote then some ([], []) else none
  | a :: b :: rest =>
    if a = d.quote then some ([], b :: rest)
    else if a = d.escape then (splitLiteral rest).map fun r => (a :: b :: r.1, r.2)
    else (splitLiteral (b :: rest)).map fun r => (a :: r.1, r.2)

/-- Undo the two escapes; other marks stay. -/
def unescape : List α → List α
  | [] => []
  | [a] => [a]
  | a :: b :: rest =>
    if a = d.escape ∧ (b = d.quote ∨ b = d.escape) then b :: unescape rest
    else a :: unescape (b :: rest)

/-- A literal, its opening quote already read. -/
def readLiteral (text : List α) : Option (List α × List α) :=
  (d.splitLiteral text).map fun r => (d.unescape r.1, r.2)

variable {d}

theorem splitLiteral_cons_of_ne {a : α} (hq : a ≠ d.quote) (he : a ≠ d.escape) (text : List α) :
    d.splitLiteral (a :: text) = (d.splitLiteral text).map fun r => (a :: r.1, r.2) := by
  cases text with
  | nil => simp [splitLiteral, hq]
  | cons b rest => simp [splitLiteral, hq, he]

theorem splitLiteral_quote (rest : List α) :
    d.splitLiteral (d.quote :: rest) = some ([], rest) := by
  cases rest <;> simp [splitLiteral]

/-- **A literal ends at its quote**, when every quote inside is escaped. -/
theorem Escaped.splitLiteral {text : List α} (h : d.Escaped text) (rest : List α) :
    d.splitLiteral (text ++ d.quote :: rest) = some (text, rest) := by
  induction h with
  | nil => exact splitLiteral_quote rest
  | plain hq he _ ih =>
    rw [List.cons_append, splitLiteral_cons_of_ne hq he, ih]
    rfl
  | pair a _ ih =>
    show d.splitLiteral (d.escape :: a :: (_ ++ d.quote :: rest)) = _
    rw [Delimiters.splitLiteral, if_neg d.escape_ne_quote, if_pos rfl, ih]
    rfl

theorem escaped_cons (a : α) (text : List α) :
    d.escaped (a :: text) =
      (if a = d.quote ∨ a = d.escape then [d.escape, a] else [a]) ++ d.escaped text :=
  List.flatMap_cons

theorem escaped_isEscaped (text : List α) : d.Escaped (d.escaped text) := by
  induction text with
  | nil => exact .nil
  | cons a text ih =>
    rw [escaped_cons]
    split
    · exact .pair a ih
    · next h =>
      rw [not_or] at h
      exact .plain h.1 h.2 ih

theorem unescape_cons_of_ne {a : α} (h : a ≠ d.escape) (text : List α) :
    d.unescape (a :: text) = a :: d.unescape text := by
  cases text with
  | nil => rfl
  | cons b rest => simp [unescape, h]

/-- The reader undoes exactly what the writer did. -/
theorem unescape_escaped (text : List α) : d.unescape (d.escaped text) = text := by
  induction text with
  | nil => rfl
  | cons a text ih =>
    rw [escaped_cons]
    split
    · next h =>
      show d.unescape (d.escape :: a :: d.escaped text) = _
      rw [unescape, if_pos ⟨rfl, h⟩, ih]
    · next h =>
      rw [not_or] at h
      rw [List.singleton_append, unescape_cons_of_ne h.2, ih]

/-- **The text of a literal is read back**, whatever the text is. -/
theorem readLiteral_escaped (text rest : List α) :
    d.readLiteral (d.escaped text ++ d.quote :: rest) = some (text, rest) := by
  rw [readLiteral, (escaped_isEscaped text).splitLiteral, Option.map_some, unescape_escaped]

theorem escaped_injective : Function.Injective d.escaped :=
  Function.LeftInverse.injective unescape_escaped

/-! ## Members -/

/-- The value of a member: the text of a literal, or the bare text. -/
inductive MemberValue (α : Type*) where
  | text (t : List α)
  | bare (t : List α)
  deriving DecidableEq

variable (d)

def printValue : MemberValue α → List α
  | .text t => d.quote :: (d.escaped t ++ [d.quote])
  | .bare t => t

def printMember (member : List α × MemberValue α) : List α :=
  d.quote :: (d.escaped member.1 ++ d.quote :: d.colon :: d.printValue member.2)

/-- The members with a comma between any two. -/
def printMembers : List (List α × MemberValue α) → List α
  | [] => []
  | [member] => d.printMember member
  | member :: next :: rest => d.printMember member ++ d.comma :: printMembers (next :: rest)

/-- A value: a literal when a quote comes first, otherwise what stands before the next
comma. -/
def readValue : List α → Option (MemberValue α × List α)
  | [] => some (.bare [], [])
  | a :: rest =>
    if a = d.quote then (d.readLiteral rest).map fun r => (.text r.1, r.2)
    else some (.bare ((a :: rest).takeWhile (· ≠ d.comma)), (a :: rest).dropWhile (· ≠ d.comma))

/-- A key literal, a colon and a value. -/
def readMember : List α → Option ((List α × MemberValue α) × List α)
  | [] => none
  | a :: rest =>
    if a = d.quote then
      match d.readLiteral rest with
      | some (key, b :: rest) =>
        if b = d.colon then (d.readValue rest).map fun r => ((key, r.1), r.2) else none
      | _ => none
    else none

/-- Members up to the end of the text, at most so many. -/
def readMembers : ℕ → List α → Option (List (List α × MemberValue α))
  | 0, _ => none
  | fuel + 1, text =>
    match d.readMember text with
    | none => none
    | some (member, []) => some [member]
    | some (member, a :: rest) =>
      if a = d.comma then (readMembers fuel rest).map (member :: ·) else none

/-- A bare value is free of quotes and commas. -/
def IsBare : MemberValue α → Prop
  | .text _ => True
  | .bare t => d.quote ∉ t ∧ d.comma ∉ t

variable {d}

/-- What may follow a value: nothing, or a comma. -/
theorem readValue_printValue {value : MemberValue α} (h : d.IsBare value) {rest : List α}
    (hrest : rest = [] ∨ rest.head? = some d.comma) :
    d.readValue (d.printValue value ++ rest) = some (value, rest) := by
  cases value with
  | text t =>
    have hread := readLiteral_escaped (d := d) t rest
    simp [printValue, readValue, hread]
  | bare t =>
    have hrest' : rest.takeWhile (· ≠ d.comma) = [] ∧ rest.dropWhile (· ≠ d.comma) = rest := by
      rcases rest with _ | ⟨a, rest⟩
      · exact ⟨rfl, rfl⟩
      · have ha : a = d.comma := by simpa using hrest
        simp [ha]
    have hnotMem : ∀ a ∈ t, (decide (a ≠ d.comma)) = true := by
      intro a ha
      have hne : a ≠ d.comma := fun heq => h.2 (heq ▸ ha)
      simpa using hne
    have htake : (t ++ rest).takeWhile (· ≠ d.comma) = t := by
      rw [List.takeWhile_append_of_pos hnotMem, hrest'.1, List.append_nil]
    have hdrop : (t ++ rest).dropWhile (· ≠ d.comma) = rest := by
      rw [List.dropWhile_append_of_pos hnotMem, hrest'.2]
    show d.readValue (t ++ rest) = _
    rcases hcase : t ++ rest with _ | ⟨a, tail⟩
    · obtain ⟨rfl, rfl⟩ := List.append_eq_nil_iff.mp hcase
      rfl
    · have ha : a ≠ d.quote := by
        rintro rfl
        rcases t with _ | ⟨b, t⟩
        · have hcomma : rest.head? = some d.quote := by rw [List.nil_append] at hcase; simp [hcase]
          rcases hrest with rfl | hhead
          · simp at hcomma
          · rw [hhead, Option.some.injEq] at hcomma
            exact d.comma_ne_quote hcomma
        · rw [List.cons_append, List.cons.injEq] at hcase
          exact h.1 (by simp [hcase.1])
      rw [readValue, if_neg ha, ← hcase, htake, hdrop]

theorem readMember_printMember {member : List α × MemberValue α} (h : d.IsBare member.2)
    {rest : List α} (hrest : rest = [] ∨ rest.head? = some d.comma) :
    d.readMember (d.printMember member ++ rest) = some (member, rest) := by
  have hkey := readLiteral_escaped (d := d) member.1 (d.colon :: (d.printValue member.2 ++ rest))
  have hvalue := readValue_printValue h hrest
  simp [printMember, readMember, hkey, hvalue]

/-- **The round trip**: the members read are the members printed. -/
theorem readMembers_printMembers {members : List (List α × MemberValue α)} (hne : members ≠ [])
    (h : ∀ member ∈ members, d.IsBare member.2) {fuel : ℕ} (hfuel : members.length ≤ fuel) :
    d.readMembers fuel (d.printMembers members) = some members := by
  induction members generalizing fuel with
  | nil => exact absurd rfl hne
  | cons member members ih =>
    obtain ⟨fuel, rfl⟩ := Nat.exists_eq_add_one_of_ne_zero (Nat.ne_zero_of_lt hfuel)
    have hmember : d.IsBare member.2 := h member List.mem_cons_self
    cases members with
    | nil =>
      have hread := readMember_printMember hmember (Or.inl rfl)
      rw [List.append_nil] at hread
      simp [printMembers, readMembers, hread]
    | cons next rest =>
      have hread : d.readMember (d.printMember member ++ d.comma :: d.printMembers (next :: rest)) =
          some (member, d.comma :: d.printMembers (next :: rest)) :=
        readMember_printMember hmember (Or.inr rfl)
      have htail : d.readMembers fuel (d.printMembers (next :: rest)) = some (next :: rest) :=
        ih (by simp) (fun m hm => h m (List.mem_cons_of_mem _ hm)) (by simpa using hfuel)
      simp [printMembers, readMembers, hread, htail]

/-- A member takes at least one place of the text. -/
theorem length_le_length_printMembers (members : List (List α × MemberValue α)) :
    members.length ≤ (d.printMembers members).length := by
  fun_induction d.printMembers members with
  | case1 => exact Nat.le_refl 0
  | case2 member => simp [printMember]
  | case3 member next rest ih =>
    simp only [List.length_append, List.length_cons] at ih ⊢
    omega

end Delimiters
end Framing
end RemoteDeviceConsole
