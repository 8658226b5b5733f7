import Atlaso.Automation.CronExpressions

/-!
The next run of a cron expression is the first minute after the reference whose local time
satisfies the five fields, and repeated searches enumerate these minutes.
-/

namespace Atlaso.Automation.CronRuns

open CronExpressions Library Outcomes TextFields

/-! ### What a field says -/

/-- The step behind the slash of an item, one where there is no slash. -/
def StepOf (text : Option (List Char)) (step : Int) : Prop :=
  match text with
  | some text => int text = .ok step
  | none => step = 1

/-- The item names the value: it is in the range of the item, a number of steps from its
start, with seven read as Sunday where that alias holds. -/
def ItemHolds (item : List Char) (minimum maximum : Nat) (sundayAlias : Bool) (value : Nat) :
    Prop :=
  ∃ start stop step named, itemBounds (partition '/' (strip item)).1 minimum maximum =
      .ok (start, stop) ∧
    StepOf (partition '/' (strip item)).2 step ∧
      start ≤ named ∧ named ≤ stop ∧ step ∣ named - start ∧
        (value : Int) = if sundayAlias = true ∧ named = 7 then 0 else named

def FieldHolds (field : List Char) (minimum maximum : Nat) (sundayAlias : Bool) (value : Nat) :
    Prop :=
  ∃ item ∈ splitAt ',' field, ItemHolds item minimum maximum sundayAlias value

/-- The local time satisfies the five fields. A day is named by both of its fields when
one of them is the bare wildcard, and by either of them otherwise. -/
def Satisfies (expression : String) (time : LocalTime) : Prop :=
  ∃ minute hour day month weekday,
    words expression.toList = [minute, hour, day, month, weekday] ∧
      FieldHolds minute 0 59 false time.minute ∧ FieldHolds hour 0 23 false time.hour ∧
        FieldHolds month 1 12 false time.month ∧
          if day = ['*'] ∨ weekday = ['*'] then
            FieldHolds day 1 31 false time.day ∧ FieldHolds weekday 0 7 true time.weekday
          else FieldHolds day 1 31 false time.day ∨ FieldHolds weekday 0 7 true time.weekday

def expanded (start stop step : Int) (sundayAlias : Bool) : List Nat :=
  ((List.range' start.toNat (stop.toNat + 1 - start.toNat)).filter fun value =>
    (value - start.toNat) % step.toNat = 0).map fun value =>
      if sundayAlias && value = 7 then 0 else value

theorem expanded_mem {start stop step : Int} (known : 0 ≤ start) (ordered : start ≤ stop)
    (positive : 1 ≤ step) (sundayAlias : Bool) (value : Nat) :
    value ∈ expanded start stop step sundayAlias ↔
      ∃ named : Int, start ≤ named ∧ named ≤ stop ∧ step ∣ named - start ∧
        (value : Int) = if sundayAlias = true ∧ named = 7 then 0 else named := by
  obtain ⟨first, rfl⟩ := Int.eq_ofNat_of_zero_le known
  obtain ⟨last, rfl⟩ := Int.eq_ofNat_of_zero_le (known.trans ordered)
  obtain ⟨width, rfl⟩ := Int.eq_ofNat_of_zero_le (show 0 ≤ step by omega)
  have divides : ∀ named, first ≤ named →
      ((named - first) % width = 0 ↔ (width : Int) ∣ (named : Int) - first) := by
    intro named least
    rw [← Nat.cast_sub least, Int.natCast_dvd_natCast, Nat.dvd_iff_mod_eq_zero]
  simp only [expanded, List.mem_map, List.mem_filter, List.mem_range'_1, Int.toNat_natCast,
    decide_eq_true_eq, Bool.and_eq_true]
  constructor
  · rintro ⟨named, ⟨⟨least, most⟩, steps⟩, rfl⟩
    refine ⟨named, by omega, by omega, (divides named least).mp steps, ?_⟩
    by_cases sunday : sundayAlias = true ∧ named = 7
    · rw [if_pos sunday, if_pos ⟨sunday.1, by omega⟩]
      rfl
    · rw [if_neg sunday, if_neg fun both => sunday ⟨both.1, by omega⟩]
  · rintro ⟨named, least, most, steps, same⟩
    obtain ⟨named, rfl⟩ := Int.eq_ofNat_of_zero_le (known.trans least)
    have from_first : first ≤ named := by omega
    refine ⟨named, ⟨⟨from_first, by omega⟩, (divides named from_first).mpr steps⟩, ?_⟩
    by_cases sunday : sundayAlias = true ∧ named = 7
    · rw [if_pos sunday]
      rw [if_pos ⟨sunday.1, by omega⟩] at same
      omega
    · rw [if_neg sunday]
      rw [if_neg fun both => sunday ⟨both.1, by omega⟩] at same
      omega

variable {minimum maximum : Nat} {sundayAlias : Bool} {values : List Nat}

theorem item_values_ok {item : List Char}
    (read : itemValues item minimum maximum sundayAlias = .ok values) :
    ∃ start stop step, itemBounds (partition '/' (strip item)).1 minimum maximum =
        .ok (start, stop) ∧ StepOf (partition '/' (strip item)).2 step ∧ 1 ≤ step ∧
          0 ≤ start ∧ start ≤ stop ∧ values = expanded start stop step sundayAlias := by
  unfold itemValues at read
  simp only at read
  split_ifs at read
  generalize partition '/' (strip item) = parts at read ⊢
  obtain ⟨base, stepText⟩ := parts
  have behind : ∀ step : Int, (if step < 1 then
      Except.error (Raised.valueError "Cron field steps must be positive integers.")
      else do
        let bounds ← itemBounds base minimum maximum
        if bounds.1 < minimum ∨ maximum < bounds.1 ∨ bounds.2 < minimum ∨ maximum < bounds.2 ∨
            bounds.2 < bounds.1 then
          Except.error (Raised.valueError (rangeMessage minimum maximum))
        else .ok (expanded bounds.1 bounds.2 step sundayAlias)) = .ok values →
      ∃ start stop, itemBounds base minimum maximum = .ok (start, stop) ∧ 1 ≤ step ∧
        0 ≤ start ∧ start ≤ stop ∧ values = expanded start stop step sundayAlias := by
    intro step result
    split_ifs at result with small
    obtain ⟨⟨start, stop⟩, bounds, result⟩ := bind_ok_iff.mp result
    split_ifs at result with outside
    simp only [not_or, not_lt] at outside
    exact ⟨start, stop, bounds, by omega, by omega, by omega, (Except.ok.inj result).symm⟩
  cases stepText with
  | some text =>
    obtain ⟨step, parsed, result⟩ := bind_ok_iff.mp read
    obtain ⟨start, stop, bounds, rest⟩ := behind step result
    exact ⟨start, stop, step, bounds, parsed, rest⟩
  | none =>
    obtain ⟨start, stop, bounds, rest⟩ := behind 1 read
    exact ⟨start, stop, 1, bounds, rfl, rest⟩

theorem item_values_mem {item : List Char}
    (read : itemValues item minimum maximum sundayAlias = .ok values) (value : Nat) :
    value ∈ values ↔ ItemHolds item minimum maximum sundayAlias value := by
  obtain ⟨start, stop, step, bounds, stepped, positive, known, ordered, rfl⟩ :=
    item_values_ok read
  rw [expanded_mem known ordered positive]
  constructor
  · rintro ⟨named, holds⟩
    exact ⟨start, stop, step, named, bounds, stepped, holds⟩
  · rintro ⟨otherStart, otherStop, otherStep, named, otherBounds, otherStepped, holds⟩
    cases bounds.symm.trans otherBounds
    have same : otherStep = step := by
      cases shape : (partition '/' (strip item)).2 with
      | some text =>
        rw [shape] at stepped otherStepped
        exact Except.ok.inj (Eq.trans (Eq.symm otherStepped) stepped)
      | none =>
        rw [shape] at stepped otherStepped
        exact Eq.trans otherStepped (Eq.symm stepped)
    exact ⟨named, same ▸ holds⟩

theorem field_values_mem {field : List Char}
    (read : fieldValues field minimum maximum sundayAlias = .ok values) (value : Nat) :
    value ∈ values ↔ FieldHolds field minimum maximum sundayAlias value := by
  obtain ⟨lists, items, result⟩ := bind_ok_iff.mp read
  cases result
  have each : ∀ (parts : List (List Char)) (lists : List (List Nat)),
      parts.mapM (fun part => itemValues part minimum maximum sundayAlias) = .ok lists →
        (value ∈ lists.flatten ↔
          ∃ item ∈ parts, ItemHolds item minimum maximum sundayAlias value) := by
    intro parts
    induction parts with
    | nil =>
      intro lists items
      rw [List.mapM_nil] at items
      cases items
      simp
    | cons part parts induction =>
      intro lists items
      rw [List.mapM_cons] at items
      obtain ⟨first, one, items⟩ := bind_ok_iff.mp items
      obtain ⟨later, rest, items⟩ := bind_ok_iff.mp items
      cases items
      rw [List.flatten_cons, List.mem_append, item_values_mem one, induction later rest]
      simp
  exact each _ _ items

/-- The test of the search loop is the satisfaction of the five fields. -/
theorem matches_run_iff {expression : String} {fields : CronFields}
    (accepted : parseCronExpression expression = .ok fields) (time : LocalTime) :
    matchesRun fields expression time = true ↔ Satisfies expression time := by
  unfold parseCronExpression at accepted
  split at accepted
  · rename_i first second third fourth fifth fieldsOf
    obtain ⟨minute, readMinute, accepted⟩ := bind_ok_iff.mp accepted
    obtain ⟨hour, readHour, accepted⟩ := bind_ok_iff.mp accepted
    obtain ⟨day, readDay, accepted⟩ := bind_ok_iff.mp accepted
    obtain ⟨month, readMonth, accepted⟩ := bind_ok_iff.mp accepted
    obtain ⟨weekday, readWeekday, accepted⟩ := bind_ok_iff.mp accepted
    cases accepted
    have holds : Satisfies expression time ↔
        FieldHolds first 0 59 false time.minute ∧ FieldHolds second 0 23 false time.hour ∧
          FieldHolds fourth 1 12 false time.month ∧
            if third = ['*'] ∨ fifth = ['*'] then
              FieldHolds third 1 31 false time.day ∧ FieldHolds fifth 0 7 true time.weekday
            else
              FieldHolds third 1 31 false time.day ∨ FieldHolds fifth 0 7 true time.weekday := by
      constructor
      · rintro ⟨_, _, _, _, _, split, rest⟩
        rw [fieldsOf] at split
        cases split
        exact rest
      · exact fun rest => ⟨_, _, _, _, _, fieldsOf, rest⟩
    have wildcards : (isWildcard expression 2 || isWildcard expression 4) = true ↔
        third = ['*'] ∨ fifth = ['*'] := by
      simp [isWildcard, fieldsOf]
    rw [holds, ← field_values_mem readMinute, ← field_values_mem readHour,
      ← field_values_mem readMonth, ← field_values_mem readDay, ← field_values_mem readWeekday]
    simp only [matchesRun, Bool.and_eq_true, List.contains_iff_mem, and_assoc, wildcards]
    refine and_congr_right fun _ => and_congr_right fun _ => and_congr_right fun _ => ?_
    split_ifs
    · rw [Bool.and_eq_true, List.contains_iff_mem, List.contains_iff_mem]
    · rw [Bool.or_eq_true, List.contains_iff_mem, List.contains_iff_mem]
  · cases accepted

/-! ### The search -/

def FiresAt (expression : String) (zone : Zone) (minute : Nat) : Prop :=
  ∃ time, astimezone zone minute = .ok time ∧ Satisfies expression time

section Search

variable {expression : String} {fields : CronFields} {zone : Zone}

theorem search_run_least (accepted : parseCronExpression expression = .ok fields)
    {left candidate found : Nat}
    (result : searchRun fields expression zone left candidate = .ok found) :
    candidate ≤ found ∧ FiresAt expression zone found ∧
      ∀ minute, candidate ≤ minute → minute < found → ¬FiresAt expression zone minute := by
  induction left generalizing candidate with
  | zero => cases result
  | succ left induction =>
    obtain ⟨time, here, result⟩ := bind_ok_iff.mp result
    by_cases hit : matchesRun fields expression time = true
    · rw [if_pos hit] at result
      cases result
      exact ⟨Nat.le_refl _, ⟨time, here, (matches_run_iff accepted time).mp hit⟩,
        fun minute least most => by omega⟩
    · rw [if_neg hit] at result
      obtain ⟨least, fires, before⟩ := induction result
      refine ⟨by omega, fires, fun minute from_here most => ?_⟩
      by_cases first : minute = candidate
      · rw [first]
        rintro ⟨other, there, satisfied⟩
        rw [here] at there
        cases there
        exact hit ((matches_run_iff accepted time).mpr satisfied)
      · exact before minute (by omega) most

theorem search_run_value_error (accepted : parseCronExpression expression = .ok fields)
    {left candidate : Nat} {message : String}
    (failed : searchRun fields expression zone left candidate = .error (.valueError message))
    (minute : Nat) (least : candidate ≤ minute) (most : minute < candidate + left) :
    ¬FiresAt expression zone minute := by
  induction left generalizing candidate with
  | zero => omega
  | succ left induction =>
    rw [searchRun] at failed
    cases here : astimezone zone candidate with
    | error raised =>
      rw [here] at failed
      unfold astimezone at here
      simp only at here
      split_ifs at here
      cases here
      cases failed
    | ok time =>
      rw [here, ok_bind] at failed
      by_cases hit : matchesRun fields expression time = true
      · rw [if_pos hit] at failed
        cases failed
      · rw [if_neg hit] at failed
        by_cases first : minute = candidate
        · rw [first]
          rintro ⟨other, there, satisfied⟩
          rw [here] at there
          cases there
          exact hit ((matches_run_iff accepted time).mpr satisfied)
        · exact induction failed (by omega) (by omega)

end Search

/-! ### Repeated searches -/

/-- The first `count` runs after an instant, each searched for from the one before it. -/
def nextRuns (zoneInfo : String → Option Zone) (expression timezoneName : String) :
    Nat → Instant → Except Raised (List Instant)
  | 0, _ => .ok []
  | count + 1, after => do
      let next ← nextCronRun zoneInfo expression timezoneName after
      let later ← nextRuns zoneInfo expression timezoneName count next
      .ok (next :: later)

def RunAfter (expression : String) (zone : Zone) (after instant : Instant) : Prop :=
  after < instant ∧ ∃ minute, instant.micros = minute * 60000000 ∧ FiresAt expression zone minute

section Runs

variable {zoneInfo : String → Option Zone} {expression timezoneName : String}
  {fields : CronFields} {zone : Zone} {after : Instant}

theorem after_iff_candidate (minute : Nat) :
    after.micros < minute * 60000000 ↔ firstCandidate after ≤ minute := by
  unfold firstCandidate
  omega

section

variable (accepted : parseCronExpression expression = .ok fields)
  (known : zoneInfo timezoneName = some zone)
include accepted known

theorem next_run_least {next : Instant}
    (found : nextCronRun zoneInfo expression timezoneName after = .ok next) :
    RunAfter expression zone after next ∧
      ∀ other, RunAfter expression zone after other → next ≤ other := by
  have later := next_cron_run_later found
  obtain ⟨minute, searched, result⟩ := bind_ok_iff.mp found
  split_ifs at result with representable
  cases result
  obtain ⟨read, parsed, searched⟩ := bind_ok_iff.mp searched
  cases accepted.symm.trans parsed
  rw [known] at searched
  simp only at searched
  split_ifs at searched
  obtain ⟨least, fires, before⟩ := search_run_least accepted searched
  refine ⟨⟨later, minute, rfl, fires⟩, ?_⟩
  rintro other ⟨behind, otherMinute, whole, otherFires⟩
  by_contra earlier
  have small : otherMinute < minute := by
    have order : other.micros < minute * 60000000 := Nat.not_le.mp earlier
    omega
  have start : after.micros < otherMinute * 60000000 := by
    rw [← whole]
    exact behind
  exact before otherMinute ((after_iff_candidate otherMinute).mp start) small otherFires

theorem next_run_value_error {message : String}
    (failed : nextCronRun zoneInfo expression timezoneName after = .error (.valueError message))
    (minute : Nat) (least : firstCandidate after ≤ minute)
    (most : minute ≤ firstCandidate after + horizon) : ¬FiresAt expression zone minute := by
  have searched : searchRun fields expression zone (horizon + 1) (firstCandidate after) =
      .error (.valueError message) := by
    unfold nextCronRun nextCronMinute at failed
    rw [accepted, ok_bind, known] at failed
    simp only at failed
    split_ifs at failed
    · cases failed
    · cases search : searchRun fields expression zone (horizon + 1) (firstCandidate after) with
      | error raised =>
        rw [search] at failed
        cases failed
        rfl
      | ok found =>
        rw [search, ok_bind] at failed
        split_ifs at failed
        cases failed
  exact search_run_value_error accepted searched minute least (by omega)

theorem next_runs_enumerate {count : Nat} {runs : List Instant}
    (found : nextRuns zoneInfo expression timezoneName count after = .ok runs) :
    runs.length = count ∧ runs.Pairwise (· < ·) ∧
      (∀ run ∈ runs, RunAfter expression zone after run) ∧
        ∀ other, RunAfter expression zone after other → (∃ last ∈ runs, other ≤ last) →
          other ∈ runs := by
  induction count generalizing after runs with
  | zero =>
    cases found
    refine ⟨rfl, List.Pairwise.nil, fun run inside => absurd inside List.not_mem_nil, ?_⟩
    rintro other - ⟨last, inside, -⟩
    exact absurd inside List.not_mem_nil
  | succ count induction =>
    obtain ⟨next, first, found⟩ := bind_ok_iff.mp found
    obtain ⟨later, rest, found⟩ := bind_ok_iff.mp found
    cases found
    obtain ⟨length, sorted, runsLater, complete⟩ := induction rest
    obtain ⟨here, least⟩ := next_run_least accepted known first
    refine ⟨congrArg Nat.succ length, List.pairwise_cons.mpr ⟨fun run inside =>
      (runsLater run inside).1, sorted⟩, ?_, ?_⟩
    · intro run inside
      rcases List.mem_cons.mp inside with rfl | behind
      · exact here
      · exact ⟨Nat.lt_trans here.1 (runsLater run behind).1, (runsLater run behind).2⟩
    · rintro other fires ⟨last, inside, bound⟩
      by_cases same : other.micros = next.micros
      · have equal : other = next := by
          cases other
          cases next
          simpa using same
        rw [equal]
        exact List.mem_cons_self
      · have behind : next < other :=
          Nat.lt_of_le_of_ne (least other fires) fun equal => same equal.symm
        have among : ∃ last ∈ later, other ≤ last := by
          rcases List.mem_cons.mp inside with rfl | after_next
          · exact absurd behind (Nat.not_lt.mpr bound)
          · exact ⟨last, after_next, bound⟩
        exact List.mem_cons_of_mem _ (complete other ⟨behind, fires.2⟩ among)

theorem next_runs_reach {run : Instant} (fires : RunAfter expression zone after run)
    (searched : ∀ instant, after ≤ instant → instant < run → ∃ next, nextCronRun zoneInfo expression
      timezoneName instant = .ok next) :
    ∃ count runs, nextRuns zoneInfo expression timezoneName count after = .ok runs ∧
      run ∈ runs := by
  induction gap : run.micros - after.micros using Nat.strong_induction_on generalizing after with
  | _ gap induction =>
    subst gap
    obtain ⟨next, first⟩ := searched after (Nat.le_refl _) fires.1
    obtain ⟨here, least⟩ := next_run_least accepted known first
    by_cases same : run.micros = next.micros
    · have equal : run = next := by
        cases run
        cases next
        simpa using same
      refine ⟨1, [next], ?_, by rw [equal]; exact List.mem_cons_self⟩
      rw [nextRuns, first]
      rfl
    · have behind : next < run :=
        Nat.lt_of_le_of_ne (least run fires) fun equal => same equal.symm
      have onward : after < next := here.1
      have shorter : run.micros - next.micros < run.micros - after.micros := by
        have first_step : after.micros < next.micros := onward
        have second_step : next.micros < run.micros := behind
        omega
      obtain ⟨count, runs, rest, inside⟩ := @induction _ shorter next
        ⟨behind, fires.2⟩ (fun instant least most =>
          searched instant (Nat.le_trans (Nat.le_of_lt onward) least) most) rfl
      refine ⟨count + 1, next :: runs, ?_, List.mem_cons_of_mem _ inside⟩
      rw [nextRuns, first, ok_bind, rest]
      rfl

end

end Runs

/-! The quarters of an hour in UTC, from a quarter on. -/

def utcOnly : String → Option Zone := fun name => if name = "UTC" then some fun _ => 0 else none

def leapDay : Instant := ⟨738944 * 86400000000, by decide⟩

def quarterPast : Instant := ⟨738944 * 86400000000 + 900000000, by decide⟩

end Atlaso.Automation.CronRuns
