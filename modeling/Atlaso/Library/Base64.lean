import Mathlib.Data.List.Basic

/-!
The standard base64 alphabet with padding.

The reader is strict: it accepts only alphabet characters in groups of four, with
padding in the last group. As the real one, it ignores the unused low bits of a
padded group.
-/

namespace Atlaso.Library.Base64

def digit (value : Nat) : Char :=
  if value < 26 then Char.ofNat (65 + value)
  else if value < 52 then Char.ofNat (71 + value)
  else if value < 62 then Char.ofNat (value - 4)
  else if value = 62 then '+'
  else '/'

def digitValue (c : Char) : Option Nat :=
  if 'A' ≤ c ∧ c ≤ 'Z' then some (c.toNat - 65)
  else if 'a' ≤ c ∧ c ≤ 'z' then some (c.toNat - 71)
  else if '0' ≤ c ∧ c ≤ '9' then some (c.toNat + 4)
  else if c = '+' then some 62
  else if c = '/' then some 63
  else none

def encodeBytes : List UInt8 → List Char
  | [] => []
  | [a] => [digit (a.toNat / 4), digit (a.toNat % 4 * 16), '=', '=']
  | [a, b] =>
    [digit (a.toNat / 4), digit (a.toNat % 4 * 16 + b.toNat / 16),
      digit (b.toNat % 16 * 4), '=']
  | a :: b :: c :: rest =>
    digit (a.toNat / 4) :: digit (a.toNat % 4 * 16 + b.toNat / 16) ::
      digit (b.toNat % 16 * 4 + c.toNat / 64) :: digit (c.toNat % 64) :: encodeBytes rest

def decodeChars : List Char → Option (List UInt8)
  | [] => some []
  | first :: second :: third :: fourth :: rest => do
      let a ← digitValue first
      let b ← digitValue second
      if third = '=' then
        if fourth = '=' ∧ rest = [] then some [UInt8.ofNat (a * 4 + b / 16)] else none
      else do
        let c ← digitValue third
        if fourth = '=' then
          if rest = [] then
            some [UInt8.ofNat (a * 4 + b / 16), UInt8.ofNat (b % 16 * 16 + c / 4)]
          else none
        else do
          let d ← digitValue fourth
          let bytes ← decodeChars rest
          some (UInt8.ofNat (a * 4 + b / 16) :: UInt8.ofNat (b % 16 * 16 + c / 4) ::
            UInt8.ofNat (c % 4 * 64 + d) :: bytes)
  | _ => none

def b64encode (data : List UInt8) : String := String.ofList (encodeBytes data)

/-- `base64.b64decode(text, validate=True)`; `none` is its `ValueError`. -/
def b64decode (text : String) : Option (List UInt8) := decodeChars text.toList

theorem digit_value_digit : ∀ value < 64, digitValue (digit value) = some value := by
  decide

theorem digit_not_padding : ∀ value < 64, digit value ≠ '=' := by
  decide

theorem of_nat_of_to_nat (byte : UInt8) (value : Nat) (same : value = byte.toNat) :
    UInt8.ofNat value = byte := by
  rw [same, UInt8.ofNat_toNat]

theorem decode_encode_bytes (data : List UInt8) :
    decodeChars (encodeBytes data) = some data := by
  induction data using encodeBytes.induct with
  | case1 => rfl
  | case2 a =>
    have bound := a.toNat_lt
    have first := of_nat_of_to_nat a (a.toNat / 4 * 4 + a.toNat % 4 * 16 / 16) (by omega)
    rw [encodeBytes, decodeChars, digit_value_digit _ (by omega),
      digit_value_digit _ (by omega)]
    simp only [Option.bind_eq_bind, Option.bind_some, and_self, if_true, first]
  | case3 a b =>
    have aBound := a.toNat_lt
    have bBound := b.toNat_lt
    have first := of_nat_of_to_nat a
      (a.toNat / 4 * 4 + (a.toNat % 4 * 16 + b.toNat / 16) / 16) (by omega)
    have second := of_nat_of_to_nat b
      ((a.toNat % 4 * 16 + b.toNat / 16) % 16 * 16 + b.toNat % 16 * 4 / 4) (by omega)
    rw [encodeBytes, decodeChars, digit_value_digit _ (by omega),
      digit_value_digit _ (by omega), digit_value_digit _ (by omega)]
    simp only [Option.bind_eq_bind, Option.bind_some,
      if_neg (digit_not_padding (b.toNat % 16 * 4) (by omega)), if_true, first, second]
  | case4 a b c rest induction =>
    have aBound := a.toNat_lt
    have bBound := b.toNat_lt
    have cBound := c.toNat_lt
    have first := of_nat_of_to_nat a
      (a.toNat / 4 * 4 + (a.toNat % 4 * 16 + b.toNat / 16) / 16) (by omega)
    have second := of_nat_of_to_nat b ((a.toNat % 4 * 16 + b.toNat / 16) % 16 * 16 +
      (b.toNat % 16 * 4 + c.toNat / 64) / 4) (by omega)
    have third := of_nat_of_to_nat c
      ((b.toNat % 16 * 4 + c.toNat / 64) % 4 * 64 + c.toNat % 64) (by omega)
    rw [encodeBytes, decodeChars, digit_value_digit _ (by omega),
      digit_value_digit _ (by omega), digit_value_digit _ (by omega),
      digit_value_digit _ (by omega), induction]
    simp only [Option.bind_eq_bind, Option.bind_some, first, second, third,
      if_neg (digit_not_padding (b.toNat % 16 * 4 + c.toNat / 64) (by omega)),
      if_neg (digit_not_padding (c.toNat % 64) (by omega))]

theorem b64decode_b64encode (data : List UInt8) : b64decode (b64encode data) = some data := by
  rw [b64decode, b64encode, String.toList_ofList, decode_encode_bytes]

theorem b64encode_injective : Function.Injective b64encode := by
  intro left right same
  have read := b64decode_b64encode left
  rw [same, b64decode_b64encode right] at read
  exact (Option.some.inj read).symm

end Atlaso.Library.Base64
