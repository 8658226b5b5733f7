import Atlaso.Logs.LogPaging

/-!
Which rows a page holds. A page read forward from a position is the range right behind it,
and a page read backward to a boundary is the range that ends there; the two budgets only
shorten the range at its far end.
-/

namespace Atlaso.Logs.PageRanges

open Library NumberedLog Outcomes ProducerStore LogPaging

/-- The store keeps the records of the log behind the first `dropped`, and at least the
last one. -/
structure Holds (store : Store) (log : List (String × Nat)) (dropped : Nat) : Prop where
  records : store.records = (numbered 0 0 log).drop dropped
  kept : dropped ≤ log.length
  proper : log ≠ [] → dropped < log.length
  place : (store.producer.getD (0, 0)).1 = log.length

section Tables

variable {store : Store} {log : List (String × Nat)} {dropped : Nat}

section

variable (holds : Holds store log dropped)
include holds

theorem held_records :
    store.records = segment log dropped log.length := by
  rw [holds.records, Library.NumberedLog.segment, List.take_of_length_le]
  simp

theorem held_sequences :
    store.records.map Record.sequence = List.range' (dropped + 1) (log.length - dropped) := by
  rw [held_records holds, segment_sequences (Nat.le_refl _)]

theorem first_sequence :
    firstSequence store = if log = [] then none else some (dropped + 1) := by
  rw [firstSequence, held_sequences holds]
  split_ifs with empty
  · simp [empty]
  · have proper := holds.proper empty
    rw [List.min?_eq_some_iff]
    simp only [List.mem_range'_1]
    exact ⟨by omega, fun other inside => by omega⟩

theorem last_sequence :
    (lastSequence store).getD 0 = log.length := by
  rw [lastSequence, held_sequences holds]
  by_cases empty : log = []
  · simp [empty]
  · have proper := holds.proper empty
    have newest : (List.range' (dropped + 1) (log.length - dropped)).max? = some log.length := by
      rw [List.max?_eq_some_iff]
      simp only [List.mem_range'_1]
      exact ⟨by omega, fun other inside => by omega⟩
    rw [newest, Option.getD_some]

theorem select_after {after boundary limit : Nat} (within : boundary ≤ log.length)
    (inside : after ≤ boundary) :
    selectAfter store after boundary limit =
      (segment log (max after dropped) boundary).take limit := by
  have first : max after dropped ≤ log.length :=
    Nat.max_le.mpr ⟨Nat.le_trans inside within, holds.kept⟩
  rw [selectAfter, holds.records, segment_filter holds.kept within]
  rw [List.Pairwise.insertionSort_eq]
  exact (segment_increases first).imp fun ordered => Nat.le_of_lt ordered

theorem select_before {boundary limit : Nat} (within : boundary ≤ log.length) :
    selectBefore store boundary limit = (segment log dropped boundary).reverse.take limit := by
  have filtered : store.records.filter (fun record => decide (record.sequence ≤ boundary)) =
      segment log dropped boundary := by
    have same := @segment_filter _ log dropped 0 boundary holds.kept within
    rw [Nat.max_eq_right (Nat.zero_le _)] at same
    rw [← same, holds.records]
    refine List.filter_congr ?_
    intro record inside
    have positive := (mem_numbered_bounds (List.mem_of_mem_drop inside)).1
    simp [positive]
  have increases := @segment_increases _ log dropped boundary holds.kept
  rw [selectBefore, filtered]
  congr 1
  refine List.Perm.eq_of_pairwise ?_ (List.pairwise_insertionSort _ _) ?_
    ((List.perm_insertionSort _ _).trans (List.reverse_perm _).symm)
  · intro left right inLeft inRight lower upper
    have distinct : ((segment log dropped boundary).map Record.sequence).Nodup := by
      rw [segment_sequences within]
      exact List.nodup_range'
    exact List.inj_on_of_nodup_map distinct ((List.mem_insertionSort _).mp inLeft)
      (List.mem_reverse.mp inRight) (Nat.le_antisymm upper lower)
  · rw [List.pairwise_reverse]
    exact increases.imp fun ordered => Nat.le_of_lt ordered

end

end Tables

/-! ### The byte budget -/

def sizes (records : List (Record String)) : Nat :=
  (records.map fun record => lineSize record.text + 1).sum

theorem take_within_prefix (used : Nat) (records : List (Record String)) :
    takeWithin used records = records.take (takeWithin used records).length ∧
      (takeWithin used records).length ≤ records.length := by
  induction records generalizing used with
  | nil => simp [takeWithin]
  | cons record records induction =>
    simp only [takeWithin]
    split_ifs with exceeds
    · simp
    · obtain ⟨same, short⟩ := induction (used + (lineSize record.text + 1))
      refine ⟨?_, ?_⟩
      · rw [List.length_cons, List.take_succ_cons, ← same]
      · simpa using short

theorem take_within_budget (used : Nat) (records : List (Record String))
    (fits : used ≤ BATCH_BYTES) : used + sizes (takeWithin used records) ≤ BATCH_BYTES := by
  induction records generalizing used with
  | nil => simpa [takeWithin, sizes] using fits
  | cons record records induction =>
    simp only [takeWithin]
    split_ifs with exceeds
    · simpa [sizes] using fits
    · have rest := induction (used + (lineSize record.text + 1)) (by omega)
      simp only [sizes, List.map_cons, List.sum_cons] at rest ⊢
      omega

theorem take_within_all (used : Nat) (records : List (Record String))
    (fits : used + sizes records ≤ BATCH_BYTES) : takeWithin used records = records := by
  induction records generalizing used with
  | nil => rfl
  | cons record records induction =>
    simp only [sizes, List.map_cons, List.sum_cons] at fits
    rw [takeWithin, if_neg (by omega), induction]
    simp only [sizes]
    omega

theorem take_within_some {record : Record String} {records : List (Record String)}
    (fits : lineSize record.text + 1 ≤ BATCH_BYTES) :
    0 < (takeWithin 0 (record :: records)).length := by
  rw [takeWithin, if_neg (by omega), List.length_cons]
  omega

theorem sizes_sublist {left right : List (Record String)} (part : left.Sublist right) :
    sizes left ≤ sizes right := by
  induction part with
  | slnil => exact Nat.le_refl _
  | cons record part induction =>
    simp only [sizes, List.map_cons, List.sum_cons] at induction ⊢
    omega
  | cons_cons record part induction =>
    simp only [sizes, List.map_cons, List.sum_cons] at induction ⊢
    omega

/-! ### Pages -/

/-- The page holds the rows behind `first` up to `last`. -/
structure PageOf (observed : String) (log : List (String × Nat)) (dropped : Nat)
    (page : ProducerPage) (first last : Nat) : Prop where
  start : page.start = first
  finish : page.after = last
  ordered : first ≤ last
  within : last ≤ log.length
  lines : page.lines = (segment log first last).map Record.text
  budget : sizes (segment log first last) ≤ BATCH_BYTES
  oldest : page.oldest = if log = [] then 0 else dropped + 1
  generation : page.generation = observed

section Pages

variable {source observed : String} {store : Store} {log : List (String × Nat)}
  {dropped limit : Nat} {generation : Option String}

def forwardCount (log : List (String × Nat)) (first boundary limit : Nat) : Nat :=
  (takeWithin 0 ((segment log first boundary).take limit)).length

variable {boundary : Nat} {through : Option Nat}

theorem forward_rows {first : Nat} (within : boundary ≤ log.length) (ordered : first ≤ boundary) :
    takeWithin 0 ((segment log first boundary).take limit) =
        segment log first (first + forwardCount log first boundary limit) ∧
      first + forwardCount log first boundary limit ≤ boundary := by
  obtain ⟨same, short⟩ := take_within_prefix 0 ((segment log first boundary).take limit)
  rw [List.length_take, segment_length within] at short
  have inside : first + forwardCount log first boundary limit ≤ boundary := by
    simp only [forwardCount]
    omega
  refine ⟨?_, inside⟩
  rw [same, List.take_take, Nat.min_eq_left (by omega)]
  exact segment_take log inside

theorem own_generation (own : generation = none ∨ generation = some observed) :
    (generation.any fun generation => decide (generation ≠ observed)) = false := by
  rcases own with rfl | rfl
  · rfl
  · simp

theorem page_position {after newest : Nat} (limited : 1 ≤ limit ∧ limit ≤ 500)
    (ordered : after ≤ through.getD newest) :
    (!(decide (1 ≤ limit) && decide (limit ≤ 500)) ||
      through.any fun through => decide (through < after)) = false := by
  cases through with
  | none => simp [limited.1, limited.2]
  | some through =>
    have upper : after ≤ through := ordered
    simp [limited.1, limited.2, upper]

/-- When `read_page` does not find its position expired. -/
def Live (dropped after : Nat) (through : Option Nat) : Prop :=
  (after = 0 ∧ through.getD 0 = 0) ∨
    (dropped ≤ after ∧ ∀ boundary, through = some boundary → boundary = 0 ∨ dropped < boundary)

theorem read_page_live (holds : Holds store log dropped) {after : Nat}
    (known : SOURCES.contains source = true) (own : generation = none ∨ generation = some observed)
    (limited : 1 ≤ limit ∧ limit ≤ 500) (within : through.getD log.length ≤ log.length)
    (ordered : after ≤ through.getD log.length) (live : Live dropped after through) :
    ∃ page, readPage source observed store after through generation limit = .ok page ∧
      ((forwardCount log (max after dropped) (through.getD log.length) limit = 0 ∧
          PageOf observed log dropped page after after) ∨
        (0 < forwardCount log (max after dropped) (through.getD log.length) limit ∧
          PageOf observed log dropped page (max after dropped) (max after dropped +
            forwardCount log (max after dropped) (through.getD log.length) limit))) := by
  have first := first_sequence holds
  have boundary : ¬(log.length < through.getD log.length ∨ log.length < after) := by omega
  have position := page_position limited ordered
  have same := own_generation own
  have unexpired : (through.any fun through => decide (0 < through) &&
      (firstSequence store).any fun first => decide (through < first)) = false := by
    cases through with
    | none => rfl
    | some through =>
      rw [first]
      split_ifs with empty
      · simp
      · rcases live with ⟨_, zero⟩ | ⟨_, bounds⟩
        · have none : through = 0 := zero
          simp [none]
        · rcases bounds through rfl with rfl | above
          · simp
          · simp only [Option.any_some, Bool.and_eq_false_iff, decide_eq_false_iff_not]
            omega
  have reachable : ((decide (0 < after) || through.any fun through => decide (0 < through)) &&
      (firstSequence store).any fun first => decide (after + 1 < first)) = false := by
    rw [first]
    split_ifs with empty
    · simp
    · rcases live with ⟨zero, blank⟩ | ⟨reached, _⟩
      · cases through with
        | none => simp [zero]
        | some through =>
          have none : through = 0 := blank
          simp [zero, none]
      · simp only [Option.any_some, Bool.and_eq_false_iff, decide_eq_false_iff_not]
        omega
  have chosen : selectAfter store after (through.getD log.length) limit =
      (segment log (max after dropped) (through.getD log.length)).take limit :=
    select_after holds within ordered
  simp only [readPage, holds.place, known, position, same, unexpired, reachable, if_neg boundary,
    Bool.not_true, Bool.false_eq_true, if_false, chosen]
  refine ⟨_, rfl, ?_⟩
  obtain ⟨rows, named⟩ : ∃ rows, takeWithin 0 ((segment log (max after dropped)
    (through.getD log.length)).take limit) = rows := ⟨_, rfl⟩
  by_cases none : forwardCount log (max after dropped) (through.getD log.length) limit = 0
  · left
    have empty : rows = [] := by
      rw [← named]
      exact List.length_eq_zero_iff.mp none
    refine ⟨none, ?_⟩
    rw [named, empty, first]
    refine ⟨rfl, rfl, Nat.le_refl _, by omega, ?_, ?_, ?_, rfl⟩
    · simp [Library.NumberedLog.segment]
    · simp [Library.NumberedLog.segment, sizes]
    · split_ifs <;> rfl
  · right
    have some : 0 < forwardCount log (max after dropped) (through.getD log.length) limit := by
      omega
    have inside : max after dropped ≤ through.getD log.length := by
      by_contra outside
      have blank : segment log (max after dropped) (through.getD log.length) = [] := by
        rw [Library.NumberedLog.segment, Nat.sub_eq_zero_of_le (by omega), List.take_zero]
      simp [forwardCount, blank, takeWithin] at some
    have filled : log ≠ [] := by
      rintro rfl
      simp only [List.length_nil] at within
      simp [forwardCount, Library.NumberedLog.segment, numbered, takeWithin] at some
    obtain ⟨range, short⟩ := @forward_rows log limit _ _ within inside
    have content : rows = segment log (max after dropped) (max after dropped +
        forwardCount log (max after dropped) (through.getD log.length) limit) :=
      named.symm.trans range
    have last : rows.getLast?.map Record.sequence = Option.some (max after dropped +
        forwardCount log (max after dropped) (through.getD log.length) limit) := by
      rw [content]
      exact segment_last (by omega) (Nat.le_trans short within)
    have nonempty : rows.isEmpty = false := by
      cases rows with
      | nil => simp at last
      | cons row rows => rfl
    refine ⟨some, ?_⟩
    rw [named, first, if_neg filled, nonempty]
    refine ⟨?_, ?_, by omega, Nat.le_trans short within, ?_, ?_, ?_, rfl⟩
    · simp
    · rw [last, Option.getD_some]
    · rw [content]
    · rw [← content, ← named]
      have budget := take_within_budget 0 ((segment log (max after dropped)
        (through.getD log.length)).take limit) (Nat.zero_le _)
      omega
    · rw [if_neg filled, Option.getD_some]

theorem read_page_expired (holds : Holds store log dropped) {after : Nat}
    (known : SOURCES.contains source = true) (own : generation = none ∨ generation = some observed)
    (limited : 1 ≤ limit ∧ limit ≤ 500) (within : through.getD log.length ≤ log.length)
    (ordered : after ≤ through.getD log.length) (pinned : 0 < after ∨ 0 < through.getD 0)
    (expired : after < dropped) :
    readPage source observed store after through generation limit =
        .error (.valueError boundaryExpired) ∨
      readPage source observed store after through generation limit =
        .error (.valueError positionExpired) := by
  have first := first_sequence holds
  have filled : log ≠ [] := by
    rintro rfl
    have := holds.kept
    simp only [List.length_nil] at this
    omega
  rw [if_neg filled] at first
  have boundary : ¬(log.length < through.getD log.length ∨ log.length < after) := by omega
  have position := page_position limited ordered
  have same := own_generation own
  have late : ((decide (0 < after) || through.any fun through => decide (0 < through)) &&
      (firstSequence store).any fun first => decide (after + 1 < first)) = true := by
    rw [first]
    simp only [Option.any_some, Bool.and_eq_true, Bool.or_eq_true, decide_eq_true_eq]
    refine ⟨?_, by omega⟩
    rcases pinned with some | some
    · exact .inl some
    · cases through with
      | none => simp at some
      | some through => exact .inr (by simpa using some)
  simp only [readPage, holds.place, known, position, same, late, if_neg boundary, Bool.not_true,
    Bool.false_eq_true, if_false, if_true]
  split_ifs
  · exact .inl rfl
  · exact .inr rfl

/-- A page that was read between two positions did not miss a row between them. -/
theorem read_page_pinned (holds : Holds store log dropped) {after : Nat} {page : ProducerPage}
    (read : readPage source observed store after (some boundary) generation limit = .ok page) :
    Live dropped after (some boundary) := by
  have first := first_sequence holds
  have kept := holds.kept
  simp only [readPage, Option.any_some, Option.getD_some, holds.place] at read
  split at read
  · simp at read
  rename_i position
  split at read
  · simp at read
  split at read
  · simp at read
  split at read
  · simp at read
  rename_i unavailable
  split at read
  · simp at read
  rename_i boundaryGone
  split at read
  · simp at read
  rename_i positionGone
  simp only [Bool.or_eq_true, decide_eq_true_eq, not_or, Nat.not_lt] at position
  rw [first] at boundaryGone positionGone
  by_cases empty : log = []
  · subst empty
    simp only [List.length_nil] at unavailable kept
    left
    exact ⟨by omega, show boundary = 0 by omega⟩
  · simp only [empty, if_false, Option.any_some, Bool.and_eq_true, Bool.or_eq_true,
      decide_eq_true_eq] at boundaryGone positionGone
    by_cases zero : boundary = 0
    · exact .inl ⟨by omega, zero⟩
    · refine .inr ⟨by omega, ?_⟩
      intro other same
      obtain rfl := Option.some.inj same
      omega

/-! ### Backward -/

def backwardCount (log : List (String × Nat)) (dropped boundary limit : Nat) : Nat :=
  (takeWithin 0 ((segment log dropped boundary).reverse.take limit)).length

theorem backward_rows (within : boundary ≤ log.length) (ordered : dropped ≤ boundary) :
    (takeWithin 0 ((segment log dropped boundary).reverse.take limit)).reverse =
        segment log (boundary - backwardCount log dropped boundary limit) boundary ∧
      dropped + backwardCount log dropped boundary limit ≤ boundary := by
  obtain ⟨same, short⟩ := take_within_prefix 0 ((segment log dropped boundary).reverse.take limit)
  rw [List.length_take, List.length_reverse, segment_length within] at short
  have inside : dropped + backwardCount log dropped boundary limit ≤ boundary := by
    simp only [backwardCount]
    omega
  refine ⟨?_, inside⟩
  have place : dropped + (boundary - dropped - backwardCount log dropped boundary limit) =
      boundary - backwardCount log dropped boundary limit := by omega
  rw [same, List.take_take, Nat.min_eq_left (by omega), List.take_reverse, List.reverse_reverse,
    segment_length within, segment_drop]
  rw [show (takeWithin 0 ((segment log dropped boundary).reverse.take limit)).length =
    backwardCount log dropped boundary limit from rfl, place]

theorem read_tail_live (holds : Holds store log dropped) {before : Option Nat}
    (known : SOURCES.contains source = true) (own : generation = none ∨ generation = some observed)
    (limited : 1 ≤ limit ∧ limit ≤ 500) (within : before.getD log.length ≤ log.length)
    (live : log = [] ∨ dropped < before.getD log.length) :
    ∃ page, readTail source observed store before generation limit = .ok page ∧
      PageOf observed log dropped page
        (before.getD log.length - backwardCount log dropped (before.getD log.length) limit)
        (before.getD log.length) := by
  have first := first_sequence holds
  have newest := last_sequence holds
  have same := own_generation own
  have unexpired : (decide (log.length < before.getD log.length) ||
      (decide (0 < before.getD log.length) &&
        (firstSequence store).any fun first => decide (before.getD log.length < first))) =
          false := by
    rw [first]
    split_ifs with empty
    · simp [within]
    · rcases live with blank | above
      · exact absurd blank empty
      · simp only [Option.any_some, Bool.or_eq_false_iff, Bool.and_eq_false_iff,
          decide_eq_false_iff_not]
        omega
  have position : (!(decide (1 ≤ limit) && decide (limit ≤ 500))) = false := by
    simp [limited.1, limited.2]
  have chosen : selectBefore store (before.getD log.length) limit =
      (segment log dropped (before.getD log.length)).reverse.take limit :=
    select_before holds within
  simp only [readTail, newest, known, position, same, unexpired, chosen, Bool.not_true,
    Bool.false_eq_true, if_false]
  refine ⟨_, rfl, ?_⟩
  have ordered : dropped ≤ before.getD log.length := by
    rcases live with blank | above
    · have := holds.kept
      simp only [blank, List.length_nil] at this
      omega
    · omega
  obtain ⟨range, short⟩ := @backward_rows log dropped limit _ within ordered
  rw [range, first]
  have budget := take_within_budget 0 ((segment log dropped
    (before.getD log.length)).reverse.take limit) (Nat.zero_le _)
  have counted : sizes (segment log (before.getD log.length -
      backwardCount log dropped (before.getD log.length) limit) (before.getD log.length)) ≤
        BATCH_BYTES := by
    rw [← range, sizes, List.map_reverse, List.sum_reverse]
    simpa [sizes] using budget
  by_cases none : backwardCount log dropped (before.getD log.length) limit = 0
  · rw [none, Nat.sub_zero]
    refine ⟨?_, ?_, Nat.le_refl _, within, rfl, ?_, ?_, rfl⟩
    · simp [Library.NumberedLog.segment]
    · simp [Library.NumberedLog.segment]
    · simp [Library.NumberedLog.segment, sizes]
    · split_ifs <;> rfl
  · have proper : before.getD log.length -
        backwardCount log dropped (before.getD log.length) limit < before.getD log.length := by
      omega
    have head := segment_first proper within
    have last := segment_last proper within
    refine ⟨?_, ?_, Nat.sub_le _ _, within, rfl, counted, ?_, rfl⟩
    · rw [show (fun row : Record String => row.sequence - 1) =
        (fun number => number - 1) ∘ Record.sequence from rfl, ← Option.map_map, head]
      simp
    · rw [last, Option.getD_some]
    · split_ifs <;> rfl

theorem read_tail_expired (holds : Holds store log dropped) (known : SOURCES.contains source = true)
    (own : generation = none ∨ generation = some observed) (limited : 1 ≤ limit ∧ limit ≤ 500)
    (pinned : 0 < boundary) (expired : boundary ≤ dropped) :
    readTail source observed store (some boundary) generation limit =
      .error (.valueError boundaryExpired) := by
  have filled : log ≠ [] := by
    rintro rfl
    have := holds.kept
    simp only [List.length_nil] at this
    omega
  have first := first_sequence holds
  rw [if_neg filled] at first
  have same := own_generation own
  have position : (!(decide (1 ≤ limit) && decide (limit ≤ 500))) = false := by
    simp [limited.1, limited.2]
  have late : (decide (0 < boundary) &&
      (firstSequence store).any fun first => decide (boundary < first)) = true := by
    rw [first]
    simp only [Option.any_some, Bool.and_eq_true, decide_eq_true_eq]
    omega
  simp only [readTail, Option.getD_some, known, position, same, late, Bool.not_true,
    Bool.false_eq_true, if_false, Bool.or_true, if_true]

end Pages

end Atlaso.Logs.PageRanges
