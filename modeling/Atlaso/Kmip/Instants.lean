import Atlaso.Kmip.Clock
import Mathlib.Data.Prod.Lex
import Mathlib.Data.String.Basic

/-!
The instants that the key store writes as text: a written reading is read back, and texts are in
the order of their instants, with and without a fraction of a second.
-/

namespace Atlaso.Kmip.Instants

open Library.Numerals Clock

/-! ### Reading back -/

theorem expect_cons (c : Char) (rest : List Char) : expect c (c :: rest) = some rest := by
  simp [expect]

theorem read_decimal (width value : Nat) (fits : value < 10 ^ width) (rest : List Char) :
    readDigits 10 width (fixedDigits 10 width value ++ rest) = some (value, rest) := by
  have length := fixed_digits_length 10 width value
  unfold readDigits
  rw [if_neg (by rw [List.length_append, length]; omega), List.take_left' length,
    List.drop_left' length, numeral_value_fixed_digits 10 (by decide) (by decide) width value 0 fits]
  simp

theorem read_fraction_written (microsecond : Nat) (fits : microsecond < 10 ^ 6) :
    readFraction ((if microsecond = 0 then [] else '.' :: fixedDigits 10 6 microsecond) ++
      utcSuffix) = some (microsecond, utcSuffix) := by
  by_cases whole : microsecond = 0
  · subst whole
    rfl
  · rw [if_neg whole, List.cons_append, readFraction]
    exact read_decimal 6 microsecond fits _

theorem read_triple_written (width first second third : Nat) (mark : Char) (rest : List Char)
    (firstFits : first < 10 ^ width) (secondFits : second < 10 ^ 2) (thirdFits : third < 10 ^ 2) :
    readTriple width mark (fixedDigits 10 width first ++ mark :: (fixedDigits 10 2 second ++
      mark :: (fixedDigits 10 2 third ++ rest))) = some ((first, second, third), rest) := by
  simp only [readTriple, read_decimal width first firstFits, read_decimal 2 second secondFits,
    read_decimal 2 third thirdFits, expect_cons, Option.bind_eq_bind, Option.bind_some]

theorem valid_digits {time : CivilTime} (valid : time.Valid) :
    time.year < 10 ^ 4 ∧ time.month < 10 ^ 2 ∧ time.day < 10 ^ 2 ∧ time.hour < 10 ^ 2 ∧
      time.minute < 10 ^ 2 ∧ time.second < 10 ^ 2 ∧ time.microsecond < 10 ^ 6 := by
  have days : daysInMonth time.year time.month ≤ 31 := by
    unfold daysInMonth
    split_ifs <;> decide
  obtain ⟨year, month, day, hour, minute, second, microsecond⟩ := valid
  omega

theorem from_isoformat_isoformat (reading : Reading) :
    fromIsoformat (isoformat reading) = some reading := by
  obtain ⟨time, valid⟩ := reading
  obtain ⟨year, month, day, hour, minute, second, microsecond⟩ := valid_digits valid
  have date := fun rest => read_triple_written 4 time.year time.month time.day '-' rest
    year month day
  have clock := fun rest => read_triple_written 2 time.hour time.minute time.second ':' rest
    hour minute second
  have fraction := read_fraction_written time.microsecond microsecond
  rw [fromIsoformat, isoformat, String.toList_ofList]
  simp only [date, clock, fraction, expect_cons, Option.bind_eq_bind, Option.bind_some, if_true,
    dif_pos valid]

/-! ### The order of texts -/

theorem digit_char_lt : ∀ left < 10, ∀ right < 10, left < right →
    Nat.digitChar left < Nat.digitChar right := by
  decide

variable {left right year month : Nat} {first second : Reading}

/-- Numerals of one width are ordered as their values, whatever follows them. -/
theorem fixed_digits_lt {width : Nat} (less : left < right) (fits : right < 10 ^ width)
    (leftRest rightRest : List Char) :
    fixedDigits 10 width left ++ leftRest < fixedDigits 10 width right ++ rightRest := by
  induction width generalizing left right leftRest rightRest with
  | zero => omega
  | succ width induction =>
    rw [fixedDigits, fixedDigits, List.append_assoc, List.append_assoc]
    rcases Nat.lt_or_ge (left / 10) (right / 10) with quotients | quotients
    · exact induction quotients (by omega) _ _
    · have same : left / 10 = right / 10 :=
        Nat.le_antisymm (Nat.div_le_div_right (Nat.le_of_lt less)) quotients
      rw [same]
      refine List.append_left_lt (List.cons_lt_cons_iff.mpr (.inl ?_))
      exact digit_char_lt _ (Nat.mod_lt _ (by decide)) _ (Nat.mod_lt _ (by decide)) (by omega)

/-- A text without a fraction comes before those of the same second with one. -/
theorem fraction_lt (less : left < right) (fits : right < 10 ^ 6) :
    (if left = 0 then [] else '.' :: fixedDigits 10 6 left) ++ utcSuffix <
      (if right = 0 then [] else '.' :: fixedDigits 10 6 right) ++ utcSuffix := by
  rw [if_neg (show right ≠ 0 by omega)]
  by_cases whole : left = 0
  · rw [if_pos whole]
    exact List.cons_lt_cons_iff.mpr (.inl (by decide))
  · rw [if_neg whole]
    exact List.cons_lt_cons_iff.mpr (.inr ⟨rfl, fixed_digits_lt less fits _ _⟩)

def fields (time : CivilTime) : Nat ×ₗ Nat ×ₗ Nat ×ₗ Nat ×ₗ Nat ×ₗ Nat ×ₗ Nat :=
  toLex (time.year, toLex (time.month, toLex (time.day, toLex (time.hour,
    toLex (time.minute, toLex (time.second, time.microsecond))))))

theorem fields_injective : Function.Injective fields := by
  rintro ⟨⟩ ⟨⟩ same
  simpa [fields] using same

theorem isoformat_lt (less : fields first.time < fields second.time) :
    isoformat first < isoformat second := by
  obtain ⟨⟨year, month, day, hour, minute, second', microsecond⟩, _⟩ := first
  obtain ⟨⟨year', month', day', hour', minute', second'', microsecond'⟩, valid⟩ := second
  obtain ⟨yearFits, monthFits, dayFits, hourFits, minuteFits, secondFits, microsecondFits⟩ :=
    valid_digits valid
  rw [String.lt_iff_toList_lt]
  simp only [isoformat, String.toList_ofList]
  simp only [fields, Prod.Lex.toLex_lt_toLex] at less
  rcases less with less | ⟨rfl, less⟩
  · exact fixed_digits_lt less yearFits _ _
  refine List.append_left_lt (List.cons_lt_cons_iff.mpr (.inr ⟨rfl, ?_⟩))
  rcases less with less | ⟨rfl, less⟩
  · exact fixed_digits_lt less monthFits _ _
  refine List.append_left_lt (List.cons_lt_cons_iff.mpr (.inr ⟨rfl, ?_⟩))
  rcases less with less | ⟨rfl, less⟩
  · exact fixed_digits_lt less dayFits _ _
  refine List.append_left_lt (List.cons_lt_cons_iff.mpr (.inr ⟨rfl, ?_⟩))
  rcases less with less | ⟨rfl, less⟩
  · exact fixed_digits_lt less hourFits _ _
  refine List.append_left_lt (List.cons_lt_cons_iff.mpr (.inr ⟨rfl, ?_⟩))
  rcases less with less | ⟨rfl, less⟩
  · exact fixed_digits_lt less minuteFits _ _
  refine List.append_left_lt (List.cons_lt_cons_iff.mpr (.inr ⟨rfl, ?_⟩))
  rcases less with less | ⟨rfl, less⟩
  · exact fixed_digits_lt less secondFits _ _
  exact List.append_left_lt (fraction_lt less microsecondFits)

/-! ### The order of instants -/

def yearLength (year : Nat) : Nat := if isLeap year then 366 else 365

theorem succ_div (value divisor : Nat) :
    (value + 1) / divisor = value / divisor + if (value + 1) % divisor = 0 then 1 else 0 := by
  rw [Nat.succ_div]
  simp only [Nat.dvd_iff_mod_eq_zero]

theorem days_before_next_year (positive : 1 ≤ year) :
    daysBeforeYear (year + 1) = daysBeforeYear year + yearLength year := by
  obtain ⟨before, rfl⟩ := Nat.exists_eq_add_of_le' positive
  have centuries : before / 100 ≤ before / 4 := Nat.div_le_div_left (by decide) (by decide)
  simp only [daysBeforeYear, yearLength, isLeap, Nat.add_sub_cancel, succ_div, Bool.and_eq_true,
    Bool.or_eq_true, decide_eq_true_eq]
  by_cases four : (before + 1) % 4 = 0 <;> by_cases hundred : (before + 1) % 100 = 0 <;>
    by_cases whole : (before + 1) % 400 = 0 <;> simp only [four, hundred, whole] <;> grind

theorem days_before_year_mono {later : Nat} (positive : 1 ≤ year) (less : year ≤ later) :
    daysBeforeYear year ≤ daysBeforeYear later := by
  induction later, less using Nat.le_induction with
  | base => exact Nat.le_refl _
  | succ later less induction =>
    rw [days_before_next_year (positive.trans less)]
    exact induction.trans (Nat.le_add_right _ _)

theorem days_before_next_month (year : Nat) (positive : 1 ≤ month) :
    daysBeforeMonth year (month + 1) = daysBeforeMonth year month + daysInMonth year month := by
  obtain ⟨before, rfl⟩ := Nat.exists_eq_add_of_le' positive
  simp [daysBeforeMonth, List.range_succ]

theorem days_before_month_mono (year : Nat) {later : Nat} (positive : 1 ≤ month)
    (less : month ≤ later) : daysBeforeMonth year month ≤ daysBeforeMonth year later := by
  induction later, less using Nat.le_induction with
  | base => exact Nat.le_refl _
  | succ later less induction =>
    rw [days_before_next_month year (positive.trans less)]
    exact induction.trans (Nat.le_add_right _ _)

theorem days_before_year_end (year : Nat) : daysBeforeMonth year 13 = yearLength year := by
  unfold daysBeforeMonth yearLength
  cases leap : isLeap year <;> simp [daysInMonth, List.range_succ, leap]

theorem month_end {day : Nat} (positive : 1 ≤ month) (inside : day ≤ daysInMonth year month)
    {later : Nat} (less : month < later) :
    daysBeforeMonth year month + day ≤ daysBeforeMonth year later := by
  have next := days_before_next_month year positive
  have mono := days_before_month_mono year (Nat.le_add_left 1 month) less
  omega

theorem to_ordinal_lt {first second : CivilTime} (firstValid : first.Valid)
    (secondValid : second.Valid)
    (less : first.year < second.year ∨ first.year = second.year ∧
      (first.month < second.month ∨ first.month = second.month ∧ first.day < second.day)) :
    toOrdinal first < toOrdinal second := by
  have day := secondValid.day.1
  unfold toOrdinal
  rcases less with less | ⟨same, less | ⟨sameMonth, less⟩⟩
  · have next := days_before_next_year firstValid.year.1
    have mono := days_before_year_mono (Nat.le_add_left 1 first.year) less
    have ending := month_end firstValid.month.1 firstValid.day.2
      (show first.month < 13 from Nat.lt_succ_of_le firstValid.month.2)
    rw [days_before_year_end] at ending
    omega
  · have ending := month_end firstValid.month.1 firstValid.day.2 less
    rw [← same]
    omega
  · rw [← same, ← sameMonth]
    omega

theorem instant_lt (less : fields first.time < fields second.time) :
    microsecondsSinceEpoch first.time < microsecondsSinceEpoch second.time := by
  obtain ⟨time, valid⟩ := first
  obtain ⟨later, laterValid⟩ := second
  simp only [fields, Prod.Lex.toLex_lt_toLex] at less
  have date := to_ordinal_lt valid laterValid
  have sameDate : time.year = later.year → time.month = later.month → time.day = later.day →
      toOrdinal time = toOrdinal later := by
    intro year month day
    unfold toOrdinal
    rw [year, month, day]
  have hour := valid.hour
  have minute := valid.minute
  have second := valid.second
  have microsecond := valid.microsecond
  simp only [microsecondsSinceEpoch]
  rcases Classical.em (time.year < later.year ∨ time.year = later.year ∧
      (time.month < later.month ∨ time.month = later.month ∧ time.day < later.day)) with
    earlier | onward
  · have ordinal := date earlier
    omega
  · have ordinal := sameDate (by omega) (by omega) (by omega)
    omega

/-- Texts are in chronological order. -/
theorem isoformat_lt_iff (first second : Reading) :
    isoformat first < isoformat second ↔
      microsecondsSinceEpoch first.time < microsecondsSinceEpoch second.time := by
  rcases lt_trichotomy (fields first.time) (fields second.time) with less | same | greater
  · exact ⟨fun _ => instant_lt less, fun _ => isoformat_lt less⟩
  · have equal : first = second := by
      obtain ⟨time, valid⟩ := first
      obtain ⟨later, laterValid⟩ := second
      obtain rfl := fields_injective same
      rfl
    rw [equal]
    exact ⟨fun less => absurd less (lt_irrefl _), fun less => absurd less (lt_irrefl _)⟩
  · exact ⟨fun less => absurd less (lt_asymm (isoformat_lt greater)),
      fun less => absurd less (lt_asymm (instant_lt greater))⟩

end Atlaso.Kmip.Instants
