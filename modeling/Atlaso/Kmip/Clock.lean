import Atlaso.Library.Numerals
import Mathlib.Algebra.Order.BigOperators.Group.List
import Mathlib.Tactic.NormNum
import Mathlib.Tactic.Ring

/-!
UTC clock readings: `datetime.now(UTC)`, its `isoformat()`, the `fromisoformat` of
such a text, and `int(reading.timestamp())`.

`fromIsoformat` reads the one layout that `isoformat` writes; the store never holds
another one.
-/

namespace Atlaso.Kmip.Clock

open Library.Numerals

def isLeap (year : Nat) : Bool := year % 4 = 0 && (year % 100 ≠ 0 || year % 400 = 0)

def daysInMonth (year month : Nat) : Nat :=
  if month = 2 then if isLeap year then 29 else 28
  else if month = 4 ∨ month = 6 ∨ month = 9 ∨ month = 11 then 30
  else 31

structure CivilTime where
  (year month day hour minute second microsecond : Nat)
  deriving DecidableEq, Repr

structure CivilTime.Valid (time : CivilTime) : Prop where
  year : 1 ≤ time.year ∧ time.year ≤ 9999
  month : 1 ≤ time.month ∧ time.month ≤ 12
  day : 1 ≤ time.day ∧ time.day ≤ daysInMonth time.year time.month
  hour : time.hour < 24
  minute : time.minute < 60
  second : time.second < 60
  microsecond : time.microsecond < 1000000

instance (time : CivilTime) : Decidable time.Valid :=
  decidable_of_iff
    ((1 ≤ time.year ∧ time.year ≤ 9999) ∧ (1 ≤ time.month ∧ time.month ≤ 12) ∧
      (1 ≤ time.day ∧ time.day ≤ daysInMonth time.year time.month) ∧ time.hour < 24 ∧
        time.minute < 60 ∧ time.second < 60 ∧ time.microsecond < 1000000)
    ⟨fun ⟨year, month, day, hour, minute, second, microsecond⟩ =>
        ⟨year, month, day, hour, minute, second, microsecond⟩,
      fun valid => ⟨valid.year, valid.month, valid.day, valid.hour, valid.minute, valid.second,
        valid.microsecond⟩⟩

/-- A reading of the UTC clock. -/
structure Reading where
  time : CivilTime
  valid : time.Valid
  deriving DecidableEq

def utcSuffix : List Char := ['+', '0', '0', ':', '0', '0']

def isoformat (reading : Reading) : String :=
  let time := reading.time
  String.ofList (fixedDigits 10 4 time.year ++ '-' :: (fixedDigits 10 2 time.month ++ '-' ::
    (fixedDigits 10 2 time.day ++ 'T' :: (fixedDigits 10 2 time.hour ++ ':' ::
      (fixedDigits 10 2 time.minute ++ ':' :: (fixedDigits 10 2 time.second ++
        ((if time.microsecond = 0 then [] else '.' :: fixedDigits 10 6 time.microsecond) ++
          utcSuffix)))))))

def expect (c : Char) : List Char → Option (List Char)
  | head :: rest => if head = c then some rest else none
  | [] => none

def readFraction : List Char → Option (Nat × List Char)
  | '.' :: rest => readDigits 10 6 rest
  | chars => some (0, chars)

def readTriple (width : Nat) (mark : Char) (text : List Char) :
    Option ((Nat × Nat × Nat) × List Char) := do
  let (first, rest) ← readDigits 10 width text
  let rest ← expect mark rest
  let (second, rest) ← readDigits 10 2 rest
  let rest ← expect mark rest
  let (third, rest) ← readDigits 10 2 rest
  some ((first, second, third), rest)

def fromIsoformat (text : String) : Option Reading := do
  let ((year, month, day), rest) ← readTriple 4 '-' text.toList
  let rest ← expect 'T' rest
  let ((hour, minute, second), rest) ← readTriple 2 ':' rest
  let (microsecond, rest) ← readFraction rest
  if rest = utcSuffix then
    let time : CivilTime := ⟨year, month, day, hour, minute, second, microsecond⟩
    if valid : time.Valid then some ⟨time, valid⟩ else none
  else none

/-! ### Seconds since the epoch -/

def daysBeforeYear (year : Nat) : Nat :=
  (year - 1) * 365 + (year - 1) / 4 - (year - 1) / 100 + (year - 1) / 400

def daysBeforeMonth (year month : Nat) : Nat :=
  ((List.range (month - 1)).map fun index => daysInMonth year (index + 1)).sum

def toOrdinal (time : CivilTime) : Nat :=
  daysBeforeYear time.year + daysBeforeMonth time.year time.month + time.day

def epochOrdinal : Nat := 719163

def microsecondsSinceEpoch (time : CivilTime) : Int :=
  ((toOrdinal time : Int) - epochOrdinal) * 86400000000 +
    ((time.hour * 3600 + time.minute * 60 + time.second) * 1000000 + time.microsecond : Nat)

def roundHalfEven (numerator denominator : Nat) : Nat :=
  let quotient := numerator / denominator
  let remainder := numerator % denominator
  if 2 * remainder < denominator then quotient
  else if denominator < 2 * remainder then quotient + 1
  else if quotient % 2 = 0 then quotient
  else quotient + 1

/-- The integer part of the double nearest to `micros / 10 ^ 6`: `timestamp()` divides
with 53 significant bits. -/
def nearestSeconds (micros : Nat) : Nat :=
  let scale := 2 ^ (52 - (micros / 1000000).log2)
  roundHalfEven (micros * scale) 1000000 / scale

/-- `int(reading.timestamp())`. -/
def timestampSeconds (reading : Reading) : Int :=
  let micros := microsecondsSinceEpoch reading.time
  if 0 ≤ micros then nearestSeconds micros.toNat else -(nearestSeconds (-micros).toNat : Int)

/-! ### A written reading is read back -/

end Atlaso.Kmip.Clock
