import Mathlib.Data.Nat.Digits.Defs

/-!
Fixed-width numerals in bases up to sixteen, with lower-case digits.
-/

namespace Atlaso.Library.Numerals

def digitValue (base : Nat) (c : Char) : Option Nat :=
  let value :=
    if '0' ≤ c ∧ c ≤ '9' then c.toNat - 48
    else if 'a' ≤ c ∧ c ≤ 'z' then c.toNat - 87
    else if 'A' ≤ c ∧ c ≤ 'Z' then c.toNat - 55
    else base
  if value < base then some value else none

def fixedDigits (base : Nat) : Nat → Nat → List Char
  | 0, _ => []
  | width + 1, value => fixedDigits base width (value / base) ++ [Nat.digitChar (value % base)]

def numeralValue (base : Nat) : Nat → List Char → Option Nat
  | value, [] => some value
  | value, c :: digits => do
      let digit ← digitValue base c
      numeralValue base (value * base + digit) digits

/-- A numeral of exactly `width` digits at the front of a text. -/
def readDigits (base width : Nat) (text : List Char) : Option (Nat × List Char) :=
  if text.length < width then none
  else (numeralValue base 0 (text.take width)).map fun value => (value, text.drop width)

theorem digit_value_digit_char : ∀ base ≤ 16, ∀ digit < base,
    digitValue base (Nat.digitChar digit) = some digit := by
  decide

theorem fixed_digits_length (base width value : Nat) :
    (fixedDigits base width value).length = width := by
  induction width generalizing value with
  | zero => rfl
  | succ width induction => simp [fixedDigits, induction]

theorem numeral_value_append (base value : Nat) (left right : List Char) :
    numeralValue base value (left ++ right) =
      (numeralValue base value left).bind fun middle => numeralValue base middle right := by
  induction left generalizing value with
  | nil => rfl
  | cons c left induction =>
    simp only [List.cons_append, numeralValue, Option.bind_eq_bind, induction,
      Option.bind_assoc]

theorem numeral_value_fixed_digits (base : Nat) (positive : 0 < base) (small : base ≤ 16)
    (width value start : Nat) (fits : value < base ^ width) :
    numeralValue base start (fixedDigits base width value) =
      some (start * base ^ width + value) := by
  induction width generalizing value with
  | zero =>
    have zero : value = 0 := by simpa using fits
    simp [fixedDigits, numeralValue, zero]
  | succ width induction =>
    have quotient : value / base < base ^ width :=
      Nat.div_lt_of_lt_mul (by rw [mul_comm, ← pow_succ]; exact fits)
    have digit := digit_value_digit_char base small (value % base) (Nat.mod_lt _ positive)
    rw [fixedDigits, numeral_value_append, induction (value / base) quotient]
    simp only [Option.bind_some, numeralValue, digit, Option.bind_eq_bind, Option.some.injEq]
    calc (start * base ^ width + value / base) * base + value % base
        = start * (base ^ width * base) + (base * (value / base) + value % base) := by ring
      _ = start * base ^ (width + 1) + value := by rw [Nat.div_add_mod, ← pow_succ]

/-! ### Decimals -/

theorem digits_injective : Function.Injective (Nat.toDigits 10) := by
  intro left right same
  have read := congrArg (Nat.ofDigitChars 10 · 0) same
  simpa only [Nat.ofDigitChars_ten_toDigits] using read

end Atlaso.Library.Numerals
