import Atlaso.Kmip.Clock
import Atlaso.Library.Outcomes
import Atlaso.Library.TextFields

/-!
Cron expressions and the search for the next run.

Instants count from the start of year 1 in UTC; a `datetime` ends with year 9999 and its
arithmetic raises OverflowError beyond. A time zone is the offset, in seconds, that
`astimezone` adds to a UTC minute.
-/

namespace Atlaso.Automation.CronExpressions

open Atlaso.Kmip.Clock (epochOrdinal nearestSeconds)
open Library Numerals Outcomes TextFields

inductive Raised where
  | valueError (message : String)
  | typeError | overflowError | keyError
  deriving DecidableEq, Repr

/-! ### Fields -/

def int (text : List Char) : Except Raised Int :=
  match intOfText text with
  | some value => .ok value
  | none => .error (.valueError "invalid literal for int() with base 10")

def rangeMessage (minimum maximum : Nat) : String :=
  "Cron field value must be between " ++ toString minimum ++ " and " ++ toString maximum ++ "."

def itemBounds (base : List Char) (minimum maximum : Nat) : Except Raised (Int × Int) :=
  if base = ['*'] then .ok (minimum, maximum)
  else
    match partition '-' base with
    | (first, some last) => do
        let start ← int first
        let stop ← int last
        .ok (start, stop)
    | (_, none) => do
        let value ← int base
        .ok (value, value)

def itemValues (part : List Char) (minimum maximum : Nat) (sundayAlias : Bool) :
    Except Raised (List Nat) := do
  let part := strip part
  if part.isEmpty then .error (.valueError "Cron fields must not contain empty list items.")
  else
    let (base, stepValue) := partition '/' part
    let step ← match stepValue with
      | some text => int text
      | none => .ok 1
    if step < 1 then .error (.valueError "Cron field steps must be positive integers.")
    else
      let (start, stop) ← itemBounds base minimum maximum
      if start < minimum ∨ maximum < start ∨ stop < minimum ∨ maximum < stop ∨ stop < start then
        .error (.valueError (rangeMessage minimum maximum))
      else
        .ok (((List.range' start.toNat (stop.toNat + 1 - start.toNat)).filter fun value =>
          (value - start.toNat) % step.toNat = 0).map fun value =>
            if sundayAlias && value = 7 then 0 else value)

def fieldValues (expression : List Char) (minimum maximum : Nat) (sundayAlias : Bool) :
    Except Raised (List Nat) := do
  let items ← (splitAt ',' expression).mapM fun part =>
    itemValues part minimum maximum sundayAlias
  .ok items.flatten

structure CronFields where
  (minute hour day month weekday : List Nat)
  deriving DecidableEq, Repr

def parseCronExpression (expression : String) : Except Raised CronFields :=
  match words expression.toList with
  | [first, second, third, fourth, fifth] => do
      let minute ← fieldValues first 0 59 false
      let hour ← fieldValues second 0 23 false
      let day ← fieldValues third 1 31 false
      let month ← fieldValues fourth 1 12 false
      let weekday ← fieldValues fifth 0 7 true
      .ok ⟨minute, hour, day, month, weekday⟩
  | _ => .error (.valueError
      "Cron expression must contain five fields: minute hour day month weekday.")

/-! ### Calendar -/

def daysBeforeMonth : List Nat := [0, 31, 59, 90, 120, 151, 181, 212, 243, 273, 304, 334]

def yearMonthDay (ordinal : Nat) : Nat × Nat × Nat :=
  let inCycle := (ordinal - 1) % 146097
  let century := inCycle / 36524
  let inCentury := inCycle % 36524
  let fourth := inCentury / 1461
  let inFourth := inCentury % 1461
  let single := inFourth / 365
  let dayOfYear := inFourth % 365
  let year := (ordinal - 1) / 146097 * 400 + century * 100 + fourth * 4 + single + 1
  if single = 4 ∨ century = 4 then (year - 1, 12, 31)
  else
    let leap : Bool := single = 3 && (fourth ≠ 24 || century = 3)
    let before := fun month => daysBeforeMonth.getD (month - 1) 0 +
      if 2 < month ∧ leap = true then 1 else 0
    let guess := (dayOfYear + 50) / 32
    let month := if dayOfYear < before guess then guess - 1 else guess
    (year, month, dayOfYear - before month + 1)

structure LocalTime where
  (month day : Nat)
  /-- Counted from Sunday. -/
  (weekday hour minute : Nat)
  deriving DecidableEq, Repr

def localFields (seconds : Nat) : LocalTime :=
  let ordinal := seconds / 86400 + 1
  let (_, month, day) := yearMonthDay ordinal
  ⟨month, day, ((ordinal + 6) % 7 + 1) % 7, seconds / 3600 % 24, seconds / 60 % 60⟩

def minuteLimit : Nat := 3652059 * 1440

/-- A timezone-aware `datetime`, in microseconds. -/
structure Instant where
  micros : Nat
  representable : micros < minuteLimit * 60000000
  deriving DecidableEq, Repr

instance : LE Instant := ⟨fun left right => left.micros ≤ right.micros⟩

instance : LT Instant := ⟨fun left right => left.micros < right.micros⟩

instance (left right : Instant) : Decidable (left ≤ right) := Nat.decLe _ _

instance (left right : Instant) : Decidable (left < right) := Nat.decLt _ _

/-- `isoformat()` of the naive UTC time that the database returns. -/
def isoformat (instant : Instant) : String :=
  let seconds := instant.micros / 1000000
  let (year, month, day) := yearMonthDay (seconds / 86400 + 1)
  String.ofList (fixedDigits 10 4 year ++ '-' :: (fixedDigits 10 2 month ++ '-' ::
    (fixedDigits 10 2 day ++ 'T' :: (fixedDigits 10 2 (seconds / 3600 % 24) ++ ':' ::
      (fixedDigits 10 2 (seconds / 60 % 60) ++ ':' :: (fixedDigits 10 2 (seconds % 60) ++
        if instant.micros % 1000000 = 0 then []
        else '.' :: fixedDigits 10 6 (instant.micros % 1000000)))))))

/-- `int(instant.timestamp())`. -/
def timestampSeconds (instant : Instant) : Int :=
  let micros := (instant.micros : Int) - (epochOrdinal - 1) * 86400000000
  if 0 ≤ micros then nearestSeconds micros.toNat else -(nearestSeconds (-micros).toNat : Int)

/-- The offset of the zone at a UTC minute, in seconds. -/
abbrev Zone := Nat → Int

def astimezone (zone : Zone) (candidate : Nat) : Except Raised LocalTime :=
  let seconds := (candidate : Int) * 60 + zone candidate
  if seconds < 0 ∨ (minuteLimit : Int) * 60 ≤ seconds then .error .overflowError
  else .ok (localFields seconds.toNat)

/-! ### The next run -/

def isWildcard (expression : String) (index : Nat) : Bool :=
  (words expression.toList)[index]? = some ['*']

/-- The test of the search loop. -/
def matchesRun (fields : CronFields) (expression : String) (time : LocalTime) : Bool :=
  let dayMatches := fields.day.contains time.day
  let weekdayMatches := fields.weekday.contains time.weekday
  let calendarMatches :=
    if isWildcard expression 2 || isWildcard expression 4 then dayMatches && weekdayMatches
    else dayMatches || weekdayMatches
  fields.minute.contains time.minute && fields.hour.contains time.hour &&
    fields.month.contains time.month && calendarMatches

def searchRun (fields : CronFields) (expression : String) (zone : Zone) :
    Nat → Nat → Except Raised Nat
  | 0, _ => .error (.valueError "Cron expression does not produce a run within two years.")
  | left + 1, candidate => do
      let time ← astimezone zone candidate
      if matchesRun fields expression time then .ok candidate
      else searchRun fields expression zone left (candidate + 1)

/-- The minutes of `timedelta(days=366 * 2)`. -/
def horizon : Nat := 366 * 2 * 1440

def firstCandidate (after : Instant) : Nat := after.micros / 60000000 + 1

/-- The first matching minute among `span + 1` candidates. -/
def nextCronMinute (zoneInfo : String → Option Zone) (expression timezoneName : String)
    (first span : Nat) : Except Raised Nat := do
  let fields ← parseCronExpression expression
  match zoneInfo timezoneName with
  | none => .error .keyError
  | some zone =>
    if minuteLimit ≤ first + span then .error .overflowError
    else searchRun fields expression zone (span + 1) first

def nextCronRun (zoneInfo : String → Option Zone) (expression timezoneName : String)
    (after : Instant) : Except Raised Instant := do
  let minute ← nextCronMinute zoneInfo expression timezoneName (firstCandidate after) horizon
  if representable : minute * 60000000 < minuteLimit * 60000000 then
    .ok ⟨minute * 60000000, representable⟩
  else .error .overflowError

example : isoformat ⟨738944 * 86400000000, by decide⟩ = "2024-02-29T00:00:00" := by
  decide +kernel

example : localFields ((738945 - 1) * 86400 + 43200) = ⟨2, 29, 4, 12, 0⟩ := by decide +kernel

/-! ### When there is a next run -/

def Reaches (fields : CronFields) (expression : String) (zone : Zone) (first count : Nat) : Prop :=
  ∃ offset < count,
    (∃ time, astimezone zone (first + offset) = .ok time ∧
      matchesRun fields expression time = true) ∧
    ∀ earlier < offset, ∃ time, astimezone zone (first + earlier) = .ok time

variable {fields : CronFields} {expression : String} {zone : Zone}

theorem search_run_bounds {left candidate found : Nat}
    (result : searchRun fields expression zone left candidate = .ok found) :
    candidate ≤ found ∧ found < candidate + left := by
  induction left generalizing candidate with
  | zero => cases result
  | succ left induction =>
    obtain ⟨time, _, result⟩ := bind_ok_iff.mp result
    split_ifs at result with hit
    · cases result
      omega
    · have bounds := induction result
      omega

theorem search_run_ok_iff (left candidate : Nat) :
    (∃ found, searchRun fields expression zone left candidate = .ok found) ↔
      Reaches fields expression zone candidate left := by
  induction left generalizing candidate with
  | zero =>
    constructor
    · rintro ⟨found, result⟩
      cases result
    · rintro ⟨offset, small, _⟩
      omega
  | succ left induction =>
    constructor
    · rintro ⟨found, result⟩
      obtain ⟨time, here, result⟩ := bind_ok_iff.mp result
      split_ifs at result with hit
      · exact ⟨0, by omega, ⟨time, here, hit⟩, fun earlier small => by omega⟩
      · obtain ⟨offset, small, hit, before⟩ := (induction (candidate + 1)).mp ⟨found, result⟩
        refine ⟨offset + 1, by omega, ?_, fun earlier small => ?_⟩
        · rw [show candidate + (offset + 1) = candidate + 1 + offset by omega]
          exact hit
        · cases earlier with
          | zero => exact ⟨time, here⟩
          | succ earlier =>
            rw [show candidate + (earlier + 1) = candidate + 1 + earlier by omega]
            exact before earlier (by omega)
    · rintro ⟨offset, small, ⟨time, there, hit⟩, before⟩
      by_cases first : offset = 0
      · subst first
        refine ⟨candidate, ?_⟩
        rw [searchRun, show candidate = candidate + 0 from rfl, there, ok_bind, if_pos hit]
      · obtain ⟨local_time, here⟩ := before 0 (by omega)
        rw [Nat.add_zero] at here
        rw [searchRun, here, ok_bind]
        by_cases now : matchesRun fields expression local_time = true
        · exact ⟨candidate, by rw [if_pos now]⟩
        · rw [if_neg now]
          refine (induction (candidate + 1)).mpr ⟨offset - 1, by omega, ⟨time, ?_, hit⟩, ?_⟩
          · rw [show candidate + 1 + (offset - 1) = candidate + offset by omega]
            exact there
          · intro earlier small
            rw [show candidate + 1 + earlier = candidate + (earlier + 1) by omega]
            exact before (earlier + 1) (by omega)

variable {zoneInfo : String → Option Zone} {timezoneName : String} {after : Instant}

theorem next_cron_minute_bounds {first span minute : Nat}
    (found : nextCronMinute zoneInfo expression timezoneName first span = .ok minute) :
    first ≤ minute ∧ minute < minuteLimit := by
  obtain ⟨fields, _, searched⟩ := bind_ok_iff.mp found
  split at searched
  · cases searched
  · split_ifs at searched with overflow
    have bounds := search_run_bounds searched
    omega

/-- The expression has a run in the zone among `span + 1` minutes that all lie before the
year 10000. -/
def RunsWithin (zoneInfo : String → Option Zone) (expression timezoneName : String)
    (first span : Nat) : Prop :=
  ∃ fields zone, parseCronExpression expression = .ok fields ∧
    zoneInfo timezoneName = some zone ∧ first + span < minuteLimit ∧
      Reaches fields expression zone first (span + 1)

theorem next_cron_minute_ok_iff (first span : Nat) :
    (∃ minute, nextCronMinute zoneInfo expression timezoneName first span = .ok minute) ↔
      RunsWithin zoneInfo expression timezoneName first span := by
  constructor
  · rintro ⟨minute, found⟩
    obtain ⟨fields, parsed, searched⟩ := bind_ok_iff.mp found
    split at searched
    · cases searched
    · rename_i zone known
      split_ifs at searched with overflow
      exact ⟨fields, zone, parsed, known, by omega,
        (search_run_ok_iff _ _).mp ⟨minute, searched⟩⟩
  · rintro ⟨fields, zone, parsed, known, representable, reaches⟩
    obtain ⟨minute, searched⟩ := (search_run_ok_iff _ _).mpr reaches
    refine ⟨minute, ?_⟩
    simp only [nextCronMinute, parsed, ok_bind, known]
    rw [if_neg (by omega), searched]

theorem next_cron_run_later {next : Instant}
    (result : nextCronRun zoneInfo expression timezoneName after = .ok next) : after < next := by
  obtain ⟨minute, found, result⟩ := bind_ok_iff.mp result
  split_ifs at result with representable
  cases result
  have bounds := (next_cron_minute_bounds found).1
  show after.micros < minute * 60000000
  unfold firstCandidate at bounds
  omega

theorem next_cron_run_ok_iff :
    (∃ next, nextCronRun zoneInfo expression timezoneName after = .ok next) ↔
      RunsWithin zoneInfo expression timezoneName (firstCandidate after) horizon := by
  rw [← next_cron_minute_ok_iff]
  constructor
  · rintro ⟨next, result⟩
    obtain ⟨minute, found, _⟩ := bind_ok_iff.mp result
    exact ⟨minute, found⟩
  · rintro ⟨minute, found⟩
    have bounds := (next_cron_minute_bounds found).2
    refine ⟨⟨minute * 60000000, by omega⟩, ?_⟩
    rw [nextCronRun, found, ok_bind, dif_pos]

end Atlaso.Automation.CronExpressions
