import Mathlib.Data.List.Basic

/-!
Fields of a text and decimal integers, as Python reads them.

`str.split`, `str.strip`, `str.partition` and `int(text)` work on Unicode: any white space
separates words, and a digit of any script counts as a decimal digit.
-/

namespace Atlaso.Library.TextFields

/-- `str.isspace`. -/
def isWhitespace (c : Char) : Bool :=
  (0x09 ≤ c.toNat && c.toNat ≤ 0x0d) || (0x1c ≤ c.toNat && c.toNat ≤ 0x20) ||
    (0x2000 ≤ c.toNat && c.toNat ≤ 0x200a) ||
      [0x85, 0xa0, 0x1680, 0x2028, 0x2029, 0x202f, 0x205f, 0x3000].contains c.toNat

def strip (text : List Char) : List Char :=
  ((text.dropWhile isWhitespace).reverse.dropWhile isWhitespace).reverse

theorem strip_plain {text : List Char} (plain : ∀ c ∈ text, isWhitespace c = false) :
    strip text = text := by
  have kept : ∀ part : List Char, (∀ c ∈ part, isWhitespace c = false) →
      part.dropWhile isWhitespace = part := by
    intro part inside
    cases part with
    | nil => rfl
    | cons c rest => exact List.dropWhile_cons_of_neg (by simp [inside c List.mem_cons_self])
  have reversed : ∀ c ∈ text.reverse, isWhitespace c = false :=
    fun c inside => plain c (List.mem_reverse.mp inside)
  rw [strip, kept text plain, kept text.reverse reversed, List.reverse_reverse]

/-- `text.split(separator)`. -/
def splitAt (separator : Char) : List Char → List (List Char)
  | [] => [[]]
  | c :: rest =>
    if c = separator then [] :: splitAt separator rest
    else
      match splitAt separator rest with
      | [] => [[c]]
      | first :: others => (c :: first) :: others

/-- `text.split()`. -/
def words (text : List Char) : List (List Char) :=
  (splitAt ' ' (text.map fun c => if isWhitespace c then ' ' else c)).filter fun word =>
    !word.isEmpty

/-- `text.partition(separator)`, with the text behind the separator when there is one. -/
def partition (separator : Char) (text : List Char) : List Char × Option (List Char) :=
  match text.dropWhile (· ≠ separator) with
  | [] => (text, none)
  | _ :: rest => (text.takeWhile (· ≠ separator), some rest)

/-- The zeros of the Unicode decimal digits; nine successors follow each of them. -/
def decimalZeros : List Nat :=
  [0x30, 0x660, 0x6f0, 0x7c0, 0x966, 0x9e6, 0xa66, 0xae6, 0xb66, 0xbe6, 0xc66, 0xce6, 0xd66,
    0xde6, 0xe50, 0xed0, 0xf20, 0x1040, 0x1090, 0x17e0, 0x1810, 0x1946, 0x19d0, 0x1a80, 0x1a90,
    0x1b50, 0x1bb0, 0x1c40, 0x1c50, 0xa620, 0xa8d0, 0xa900, 0xa9d0, 0xa9f0, 0xaa50, 0xabf0,
    0xff10, 0x104a0, 0x10d30, 0x10d40, 0x11066, 0x110f0, 0x11136, 0x111d0, 0x112f0, 0x11450,
    0x114d0, 0x11650, 0x116c0, 0x116d0, 0x116da, 0x11730, 0x118e0, 0x11950, 0x11bf0, 0x11c50,
    0x11d50, 0x11da0, 0x11f50, 0x16130, 0x16a60, 0x16ac0, 0x16b50, 0x16d70, 0x1ccf0, 0x1d7ce,
    0x1d7d8, 0x1d7e2, 0x1d7ec, 0x1d7f6, 0x1e140, 0x1e2f0, 0x1e4f0, 0x1e5f1, 0x1e950, 0x1fbf0]

def decimalValue (c : Char) : Option Nat :=
  (decimalZeros.find? fun start => start ≤ c.toNat && c.toNat < start + 10).map fun start =>
    c.toNat - start

/-- The digits of a numeral; single underscores may stand between them. -/
def readDecimals : List Char → Option (List Nat)
  | [] => none
  | [c] => (decimalValue c).map fun digit => [digit]
  | c :: '_' :: rest => do
      let digit ← decimalValue c
      let digits ← readDecimals rest
      some (digit :: digits)
  | c :: rest => do
      let digit ← decimalValue c
      let digits ← readDecimals rest
      some (digit :: digits)

/-- `int(text)`; `none` is the ValueError. Numerals of more than 4300 digits are refused. -/
def intOfText (text : List Char) : Option Int := do
  let (negative, numeral) := match strip text with
    | '-' :: rest => (true, rest)
    | '+' :: rest => (false, rest)
    | rest => (false, rest)
  let digits ← readDecimals numeral
  if 4300 < digits.length then none
  else
    let value : Int := digits.foldl (fun value digit => value * 10 + digit) (0 : Nat)
    some (if negative then -value else value)

example : intOfText " -1_٣".toList = some (-13) := by decide +kernel

end Atlaso.Library.TextFields
