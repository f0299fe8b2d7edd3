import Mathlib.Data.List.Basic
import Mathlib.Tactic.Common
import Mathlib.Tactic.IntervalCases

/-!
# Decimal texts over bytes

Printing a natural number in decimal and reading a digit string back, on bytes.
Printing is `Nat.toDigits 10` spelled in ASCII; reading is the left fold that
every hand-written scanner performs.  `digitsValue_decimal` is the round trip.
-/

namespace RemoteDeviceConsole
namespace Framing

/-- The byte of an ASCII character. -/
def charByte (c : Char) : UInt8 := UInt8.ofNat c.toNat

/-- The ASCII text of a string. -/
def ascii (s : String) : List UInt8 := s.toList.map charByte

/-- A decimal digit, `'0'` to `'9'`. -/
def isDigit (b : UInt8) : Bool := 48 ≤ b && b ≤ 57

/-- The value of a digit string, read from the left. -/
def digitsValue (ds : List UInt8) : ℕ := ds.foldl (fun n b => 10 * n + (b.toNat - 48)) 0

/-- The decimal text of a number. -/
def decimal (n : ℕ) : List UInt8 := (Nat.toDigits 10 n).map charByte

theorem isDigit_charByte {c : Char} (h : c.isDigit = true) :
    isDigit (charByte c) = true ∧ (charByte c).toNat = c.toNat := by
  have h' : 48 ≤ c.toNat ∧ c.toNat ≤ 57 := by
    simp only [Char.isDigit, Bool.and_eq_true, decide_eq_true_eq, ge_iff_le] at h
    exact ⟨h.1, h.2⟩
  have hnat : (charByte c).toNat = c.toNat := by
    rw [charByte, UInt8.toNat_ofNat']
    omega
  refine ⟨?_, hnat⟩
  simp only [isDigit, Bool.and_eq_true, decide_eq_true_eq, UInt8.le_iff_toNat_le, hnat]
  exact h'

theorem isDigit_of_mem_decimal {n : ℕ} {b : UInt8} (h : b ∈ decimal n) : isDigit b = true := by
  rw [decimal, List.mem_map] at h
  obtain ⟨c, hc, rfl⟩ := h
  exact (isDigit_charByte (Nat.isDigit_of_mem_toDigits (by omega) (by omega) hc)).1

theorem decimal_ne_nil (n : ℕ) : decimal n ≠ [] := by
  rw [decimal, Ne, List.map_eq_nil_iff]
  exact Nat.toDigits_ne_nil

/-- Reading the ASCII spelling of digits is reading the digits. -/
theorem foldl_map_charByte {cs : List Char} (h : ∀ c ∈ cs, c.isDigit = true) (n : ℕ) :
    (cs.map charByte).foldl (fun n b => 10 * n + (b.toNat - 48)) n =
      Nat.ofDigitChars 10 cs n := by
  induction cs generalizing n with
  | nil => simp
  | cons c cs ih =>
    rw [List.map_cons, List.foldl_cons, Nat.ofDigitChars_cons,
      ih fun x hx => h x (List.mem_cons_of_mem _ hx),
      (isDigit_charByte (h c List.mem_cons_self)).2]
    rfl

/-- **The round trip**: the value of the decimal text of `n` is `n`. -/
theorem digitsValue_decimal (n : ℕ) : digitsValue (decimal n) = n := by
  rw [digitsValue, decimal, foldl_map_charByte, Nat.ofDigitChars_ten_toDigits]
  exact fun c hc => Nat.isDigit_of_mem_toDigits (by omega) (by omega) hc

/-- A positive number is printed without a leading zero. -/
theorem head?_decimal_ne {n : ℕ} (hn : 0 < n) : (decimal n).head? ≠ some 48 := by
  induction n using Nat.strong_induction_on with
  | _ n ih =>
    rcases Nat.lt_or_ge n 10 with hlt | hge
    · rw [decimal, Nat.toDigits_of_lt_base hlt]
      interval_cases n <;> decide
    · have hpos : 0 < n / 10 := Nat.div_pos hge (by omega)
      have hhead := ih (n / 10) (Nat.div_lt_self hn (by omega)) hpos
      have hsplit : decimal n = decimal (n / 10) ++ [charByte (n % 10).digitChar] := by
        rw [decimal, Nat.toDigits_of_base_le (by omega) hge, List.map_append]
        rfl
      rw [hsplit, List.head?_append_of_ne_nil _ (decimal_ne_nil _)]
      exact hhead

theorem decimal_injective : Function.Injective decimal :=
  Function.LeftInverse.injective digitsValue_decimal

end Framing
end RemoteDeviceConsole
