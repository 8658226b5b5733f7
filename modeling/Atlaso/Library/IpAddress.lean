import Atlaso.Library.Numerals
import Mathlib.Order.Basic

/-!
IP addresses: the readers and the canonical texts of Python's `ipaddress` module, and the
classes of addresses that it tells apart.

An IPv6 address that maps an IPv4 one is written with its last 32 bits in dotted form and
belongs to the classes of that IPv4 address.
-/

namespace Atlaso.Library.IpAddress

open Numerals

inductive Family where
  | v4 | v6
  deriving DecidableEq, Repr

def Family.version : Family → Nat
  | .v4 => 4
  | .v6 => 6

def Family.width : Family → Nat
  | .v4 => 32
  | .v6 => 128

inductive Address where
  | v4 (value : BitVec 32)
  | v6 (value : BitVec 128)
  deriving DecidableEq, Repr

def Address.family : Address → Family
  | .v4 _ => .v4
  | .v6 _ => .v6

def Address.number : Address → Nat
  | .v4 value => value.toNat
  | .v6 value => value.toNat

theorem address_ext {left right : Address} (family : left.family = right.family)
    (number : left.number = right.number) : left = right := by
  cases left with
  | v4 value =>
    cases right with
    | v4 other => exact congrArg Address.v4 (BitVec.eq_of_toNat_eq number)
    | v6 other => cases family
  | v6 value =>
    cases right with
    | v4 other => cases family
    | v6 other => exact congrArg Address.v6 (BitVec.eq_of_toNat_eq number)

/-! ### Reading -/

def splitOn (separator : Char) : List Char → List (List Char)
  | [] => [[]]
  | c :: rest =>
    if c = separator then [] :: splitOn separator rest
    else
      match splitOn separator rest with
      | first :: others => (c :: first) :: others
      | [] => [[c]]

/-- A decimal octet of at most three digits without a leading zero. -/
def parseOctet (text : List Char) : Option Nat :=
  if text.isEmpty ∨ 3 < text.length ∨ (text.head? = some '0' ∧ text.length ≠ 1) then none
  else
    match numeralValue 10 0 text with
    | some value => if value ≤ 255 then some value else none
    | none => none

/-- `IPv4Address(text)`. -/
def parseV4 (text : List Char) : Option (BitVec 32) :=
  match splitOn '.' text with
  | [a, b, c, d] => do
      let a ← parseOctet a
      let b ← parseOctet b
      let c ← parseOctet c
      let d ← parseOctet d
      some (BitVec.ofNat 32 (((a * 256 + b) * 256 + c) * 256 + d))
  | _ => none

def parseHextet (text : List Char) : Option Nat :=
  if text.isEmpty ∨ 4 < text.length then none else numeralValue 16 0 (text.map Char.toLower)

def joinHextets (hextets : List Nat) : Nat := hextets.foldl (fun value part => value * 65536 + part) 0

def hextetParts (text : List Char) : Option (List (List Char)) :=
  let parts := splitOn ':' text
  if parts.length < 3 ∨ 45 < text.length then none
  else
    match parts.getLast? with
    | some last =>
      if '.' ∈ last then
        match parseV4 last with
        | some value => some (parts.dropLast ++
            [Nat.toDigits 16 (value.toNat / 65536), Nat.toDigits 16 (value.toNat % 65536)])
        | none => none
      else some parts
    | none => none

def emptyInside (parts : List (List Char)) : List Nat :=
  (List.range parts.length).filter fun index =>
    0 < index ∧ index + 1 < parts.length ∧ (parts.getD index []).isEmpty

/-- The hextets before and after the compressed run. -/
def hextetHalves (parts : List (List Char)) : Option (List (List Char) × List (List Char)) :=
  match emptyInside parts with
  | [] => if parts.length = 8 then some (parts, []) else none
  | [skip] =>
    let high := parts.take skip
    let low := parts.drop (skip + 1)
    let high := if parts.head? = some [] then high.drop 1 else high
    let low := if parts.getLast? = some [] then low.dropLast else low
    if (parts.head? = some [] ∧ high ≠ []) ∨ (parts.getLast? = some [] ∧ low ≠ []) ∨
        8 < high.length + low.length + 1 then none
    else some (high, low)
  | _ => none

/-- `IPv6Address(text)` of a text without a scope. -/
def parseV6 (text : List Char) : Option (BitVec 128) := do
  let parts ← hextetParts text
  if 9 < parts.length then none
  else
    let (high, low) ← hextetHalves parts
    let highValues ← high.mapM parseHextet
    let lowValues ← low.mapM parseHextet
    some (BitVec.ofNat 128 (joinHextets (highValues ++
      List.replicate (8 - (highValues.length + lowValues.length)) 0 ++ lowValues)))

def ipAddress (text : String) : Option Address :=
  match parseV4 text.toList with
  | some value => some (.v4 value)
  | none => (parseV6 text.toList).map Address.v6

/-! ### Classes -/

/-- The address that an IPv6 address maps. -/
def mappedV4 (value : BitVec 128) : Option (BitVec 32) :=
  if value.toNat / 2 ^ 32 = 0xffff then some (BitVec.ofNat 32 value.toNat) else none

def leading (bits : Nat) (address : Address) : Nat :=
  address.number / 2 ^ (address.family.width - bits)

def classed (testV4 : Nat → Bool) (testV6 : Nat → Bool) : Address → Bool
  | .v4 value => testV4 value.toNat
  | .v6 value =>
    match mappedV4 value with
    | some mapped => testV4 mapped.toNat
    | none => testV6 value.toNat

def isUnspecified : Address → Bool := classed (fun value => value = 0) fun value => value = 0

def isLoopback : Address → Bool :=
  classed (fun value => value / 2 ^ 24 = 127) fun value => value = 1

def isLinkLocal : Address → Bool :=
  classed (fun value => value / 2 ^ 16 = 0xa9fe) fun value => value / 2 ^ 118 = 0x3fa

def isMulticast : Address → Bool :=
  classed (fun value => value / 2 ^ 28 = 0xe) fun value => value / 2 ^ 120 = 0xff

/-! ### Canonical texts -/

def dotted (value : Nat) : List Char :=
  Nat.toDigits 10 (value / 2 ^ 24 % 256) ++ '.' :: (Nat.toDigits 10 (value / 2 ^ 16 % 256) ++
    '.' :: (Nat.toDigits 10 (value / 2 ^ 8 % 256) ++ '.' :: Nat.toDigits 10 (value % 256)))

def hextets (value : Nat) : List Nat :=
  (List.range 8).map fun index => value / 65536 ^ (7 - index) % 65536

def longestZeros (values : List Nat) : Nat × Nat :=
  (List.range values.length).foldl
    (fun best start =>
      let run := ((values.drop start).takeWhile (· = 0)).length
      if best.2 < run then (start, run) else best) (0, 0)

def joinColons : List Nat → List Char
  | [] => []
  | [only] => Nat.toDigits 16 only
  | first :: second :: rest => Nat.toDigits 16 first ++ ':' :: joinColons (second :: rest)

def compressed (value : Nat) : List Char :=
  let values := hextets value
  let (start, run) := longestZeros values
  if run ≤ 1 then joinColons values
  else joinColons (values.take start) ++ ':' :: ':' :: joinColons (values.drop (start + run))

/-- `str(address)`. -/
def Address.text : Address → String
  | .v4 value => String.ofList (dotted value.toNat)
  | .v6 value =>
    match mappedV4 value with
    | some mapped => String.ofList ("::ffff:".toList ++ dotted mapped.toNat)
    | none => String.ofList (compressed value.toNat)

end Atlaso.Library.IpAddress
