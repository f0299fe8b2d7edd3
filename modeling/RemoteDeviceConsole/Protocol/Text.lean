import RemoteDeviceConsole.Framing.Decimal
import Mathlib.Data.List.TakeWhile
import Mathlib.Algebra.Order.Ring.Int
import Mathlib.Data.Int.Notation

/-!
# Bytes, numbers and doubles on the wire

The protocol is text: `key=value` tokens separated by spaces, one message a
line.  This file has what both parsers and all encoders share: the bytes with a
meaning, `std::to_string` and `std::from_chars` for the integer types, and the
interface of the double conversions.

`std::from_chars` reports how far it read; the parsers of the repository accept
a value only when it was read to the end, so each `fromChars…` here returns the
unread rest and each `parse…` asks for an empty one.

Doubles are only ever converted from and to text.  `CharconvDouble` is the type
with the two conversions, which the standard library provides and which are not
modelled further.
-/

namespace RemoteDeviceConsole

open Framing

/-- A C++ byte string. -/
abbrev Bytes := List UInt8

def newline : UInt8 := 10

def carriageReturn : UInt8 := 13

def space : UInt8 := 32

def plusSign : UInt8 := 43

def minusSign : UInt8 := 45

def equalsSign : UInt8 := 61

/-- `std::string_view::starts_with`. -/
def startsWith (text word : Bytes) : Bool := word.isPrefixOf text

/-- `std::string_view::find` of a text, as the test that it occurs. -/
def containsText (text word : Bytes) : Bool := text.tails.any fun t => startsWith t word

theorem startsWith_iff {text word : Bytes} :
    startsWith text word = true ↔ ∃ rest, text = word ++ rest := by
  rw [startsWith, List.isPrefixOf_iff_prefix]
  exact ⟨fun ⟨r, h⟩ => ⟨r, h.symm⟩, fun ⟨r, h⟩ => ⟨r, h.symm⟩⟩

/-! ## Integers -/

/-- `std::to_string` of a 64-bit unsigned value. -/
def toStringU64 (n : UInt64) : Bytes := decimal n.toNat

/-- `std::to_string` of an `int`. -/
def toStringInt (n : ℤ) : Bytes :=
  if n < 0 then minusSign :: decimal n.natAbs else decimal n.natAbs

/-- `std::from_chars` for a 64-bit unsigned value: the longest digit string, an
error when there is none or when the value does not fit. -/
def fromCharsU64 (value : Bytes) : Option (UInt64 × Bytes) :=
  let digits := value.takeWhile isDigit
  if digits = [] then none
  else if digitsValue digits < 2 ^ 64 then
    some (UInt64.ofNat (digitsValue digits), value.dropWhile isDigit)
  else none

/-- `std::from_chars` for an `int`: an optional minus sign, then the longest digit
string, an error when there is none or when the value does not fit. -/
def fromCharsInt (value : Bytes) : Option (ℤ × Bytes) :=
  let negative : Bool := value.head? = some minusSign
  let text := if negative then value.tail else value
  let digits := text.takeWhile isDigit
  let number : ℤ := if negative then -(digitsValue digits) else digitsValue digits
  if digits = [] then none
  else if -2 ^ 31 ≤ number ∧ number < 2 ^ 31 then some (number, text.dropWhile isDigit)
  else none

/-- A number that was read to the end of its text. -/
def readToEnd {α : Type*} : Option (α × Bytes) → Option α
  | some (a, []) => some a
  | _ => none

def parseU64 (value : Bytes) : Option UInt64 := readToEnd (fromCharsU64 value)

def parseInt (value : Bytes) : Option ℤ := readToEnd (fromCharsInt value)

theorem takeWhile_isDigit_decimal (n : ℕ) : (decimal n).takeWhile isDigit = decimal n :=
  List.takeWhile_eq_self_iff.mpr fun _ h => isDigit_of_mem_decimal h

theorem dropWhile_isDigit_decimal (n : ℕ) : (decimal n).dropWhile isDigit = [] :=
  List.dropWhile_eq_nil_iff.mpr fun _ h => isDigit_of_mem_decimal h

/-- **What `std::to_string` prints, the parser reads back.** -/
theorem parseU64_toStringU64 (n : UInt64) : parseU64 (toStringU64 n) = some n := by
  have hlt : n.toNat < 2 ^ 64 := n.toNat_lt
  simp only [parseU64, fromCharsU64, toStringU64, takeWhile_isDigit_decimal,
    dropWhile_isDigit_decimal, digitsValue_decimal, decimal_ne_nil, if_false, hlt, if_true,
    readToEnd, UInt64.ofNat_toNat]

/-- A value with a byte that is not a digit is no unsigned number. -/
theorem parseU64_eq_none_of_mem {value : Bytes} {b : UInt8} (hb : b ∈ value)
    (hd : isDigit b = false) : parseU64 value = none := by
  have hrest : value.dropWhile isDigit ≠ [] := by
    rw [Ne, List.dropWhile_eq_nil_iff]
    intro h
    exact absurd (h b hb) (by simp [hd])
  rw [parseU64, fromCharsU64]
  split
  · rfl
  · split
    · rcases hdrop : value.dropWhile isDigit with _ | ⟨c, rest⟩
      · exact absurd hdrop hrest
      · rfl
    · rfl

theorem toStringU64_ne_nil (n : UInt64) : toStringU64 n ≠ [] := decimal_ne_nil _

theorem isDigit_of_mem_toStringU64 {n : UInt64} {b : UInt8} (h : b ∈ toStringU64 n) :
    isDigit b = true :=
  isDigit_of_mem_decimal h

theorem notMem_toStringU64 {n : UInt64} {b : UInt8} (hb : isDigit b = false) :
    b ∉ toStringU64 n := fun h => by
  rw [isDigit_of_mem_toStringU64 h] at hb
  exact absurd hb (by simp)

theorem notMem_toStringInt_natCast {n : ℕ} {b : UInt8} (hb : isDigit b = false) :
    b ∉ toStringInt (n : ℤ) := by
  intro h
  have hpos : ¬ (n : ℤ) < 0 := by omega
  rw [toStringInt, if_neg hpos] at h
  rw [isDigit_of_mem_decimal h] at hb
  exact absurd hb (by simp)

theorem toStringInt_natCast_ne_nil (n : ℕ) : toStringInt (n : ℤ) ≠ [] := by
  have hpos : ¬ (n : ℤ) < 0 := by omega
  rw [toStringInt, if_neg hpos]
  exact decimal_ne_nil _

/-! ## Doubles -/

/-- A type of doubles with the conversions the repository uses: the value `0.0`,
`std::from_chars` and `std::to_string`. -/
class CharconvDouble (D : Type) where
  zero : D
  fromChars : Bytes → Option (D × Bytes)
  toString : D → Bytes

def parseDouble {D : Type} [CharconvDouble D] (value : Bytes) : Option D :=
  readToEnd (CharconvDouble.fromChars value)

/-- Doubles that are small whole numbers, printed with six decimals: enough of the
type to run the programs on whole coordinates. -/
instance wholeDouble : CharconvDouble ℤ where
  zero := 0
  fromChars := fromCharsInt
  toString n := toStringInt n ++ ascii ".000000"

/-! ## Booleans -/

def parseBool (value : Bytes) : Option Bool :=
  if value = ascii "1" ∨ value = ascii "true" then some true
  else if value = ascii "0" ∨ value = ascii "false" then some false
  else none

end RemoteDeviceConsole
