import Mathlib.Data.List.Basic
import Mathlib.Algebra.BigOperators.Group.List.Basic
import Mathlib.Tactic.Ring

/-!
An append-only log whose records carry a running number and a running byte count, and
whose oldest records may be dropped.

The log itself is the list of texts with what each is charged. A table that keeps a part
of it keeps a suffix of its numbered form.
-/

namespace Atlaso.Library.NumberedLog

variable {Text : Type}

structure Record (Text : Type) where
  (sequence byteEnd : Nat)
  text : Text
  deriving DecidableEq, Repr

def total (rows : List (Text × Nat)) : Nat := (rows.map Prod.snd).sum

@[simp] theorem total_nil : total ([] : List (Text × Nat)) = 0 := rfl

@[simp] theorem total_cons (row : Text × Nat) (rows : List (Text × Nat)) :
    total (row :: rows) = row.2 + total rows := rfl

@[simp] theorem total_append (left right : List (Text × Nat)) :
    total (left ++ right) = total left + total right := by
  simp [total]

/-- The records of `rows` behind a log of `sequence` records and `byteEnd` bytes. -/
def numbered (sequence byteEnd : Nat) : List (Text × Nat) → List (Record Text)
  | [] => []
  | (text, charge) :: rows =>
    ⟨sequence + 1, byteEnd + charge, text⟩ :: numbered (sequence + 1) (byteEnd + charge) rows

@[simp] theorem numbered_length (sequence byteEnd : Nat) (rows : List (Text × Nat)) :
    (numbered sequence byteEnd rows).length = rows.length := by
  induction rows generalizing sequence byteEnd with
  | nil => rfl
  | cons row rows induction => simp [numbered, induction]

theorem numbered_append (sequence byteEnd : Nat) (left right : List (Text × Nat)) :
    numbered sequence byteEnd (left ++ right) = numbered sequence byteEnd left ++
      numbered (sequence + left.length) (byteEnd + total left) right := by
  induction left generalizing sequence byteEnd with
  | nil => simp [numbered]
  | cons row left induction =>
    simp only [List.cons_append, numbered, induction, total_cons, List.length_cons]
    rw [Nat.add_assoc sequence 1, Nat.add_comm 1, Nat.add_assoc byteEnd]

theorem numbered_get (sequence byteEnd index : Nat) (rows : List (Text × Nat)) :
    (numbered sequence byteEnd rows)[index]? = rows[index]?.map fun row =>
      ⟨sequence + index + 1, byteEnd + total (rows.take (index + 1)), row.1⟩ := by
  induction rows generalizing sequence byteEnd index with
  | nil => simp [numbered]
  | cons row rows induction =>
    cases index with
    | zero => simp [numbered]
    | succ index =>
      simp only [numbered, List.getElem?_cons_succ, induction, List.take_succ_cons,
        total_cons]
      rw [Nat.add_assoc sequence 1, Nat.add_comm 1, Nat.add_assoc byteEnd]

theorem numbered_sequences (sequence byteEnd : Nat) (rows : List (Text × Nat)) :
    (numbered sequence byteEnd rows).map Record.sequence =
      List.range' (sequence + 1) rows.length := by
  induction rows generalizing sequence byteEnd with
  | nil => rfl
  | cons row rows induction =>
    simp only [numbered, List.map_cons, induction, List.length_cons, List.range'_succ]

theorem mem_numbered_bounds {sequence byteEnd : Nat} {rows : List (Text × Nat)}
    {record : Record Text} (inside : record ∈ numbered sequence byteEnd rows) :
    sequence < record.sequence ∧ record.sequence ≤ sequence + rows.length ∧
      byteEnd ≤ record.byteEnd ∧ record.byteEnd ≤ byteEnd + total rows := by
  induction rows generalizing sequence byteEnd with
  | nil => simp [numbered] at inside
  | cons row rows induction =>
    rcases List.mem_cons.mp inside with rfl | later
    · simp only [List.length_cons, total_cons]
      omega
    · have bounds := induction later
      simp only [List.length_cons, total_cons]
      omega

theorem numbered_sequences_increase (sequence byteEnd : Nat) (rows : List (Text × Nat)) :
    (numbered sequence byteEnd rows).Pairwise fun older newer =>
      older.sequence < newer.sequence := by
  induction rows generalizing sequence byteEnd with
  | nil => exact List.Pairwise.nil
  | cons row rows induction =>
    refine List.pairwise_cons.mpr ⟨?_, induction _ _⟩
    intro newer inside
    exact (mem_numbered_bounds inside).1

theorem numbered_bytes_increase (sequence byteEnd : Nat) (rows : List (Text × Nat)) :
    (numbered sequence byteEnd rows).Pairwise fun older newer =>
      older.byteEnd ≤ newer.byteEnd := by
  induction rows generalizing sequence byteEnd with
  | nil => exact List.Pairwise.nil
  | cons row rows induction =>
    refine List.pairwise_cons.mpr ⟨?_, induction _ _⟩
    intro newer inside
    exact (mem_numbered_bounds inside).2.2.1

theorem numbered_drop (sequence byteEnd count : Nat) (rows : List (Text × Nat))
    (within : count ≤ rows.length) :
    (numbered sequence byteEnd rows).drop count =
      numbered (sequence + count) (byteEnd + total (rows.take count)) (rows.drop count) := by
  have parts : numbered sequence byteEnd (rows.take count ++ rows.drop count) = _ :=
    numbered_append sequence byteEnd (rows.take count) (rows.drop count)
  rw [List.take_append_drop] at parts
  have size : (rows.take count).length = count := List.length_take_of_le within
  rw [parts, List.drop_left' (by rw [numbered_length, size]), size]

theorem numbered_take (sequence byteEnd count : Nat) (rows : List (Text × Nat)) :
    (numbered sequence byteEnd rows).take count = numbered sequence byteEnd (rows.take count) := by
  induction rows generalizing sequence byteEnd count with
  | nil => simp [numbered]
  | cons row rows induction =>
    cases count with
    | zero => simp [numbered]
    | succ count => simp [numbered, induction]

/-! ### Ranges of records -/

/-- The records of a log from behind number `start` up to number `finish`. -/
def segment (log : List (Text × Nat)) (start finish : Nat) : List (Record Text) :=
  ((numbered 0 0 log).drop start).take (finish - start)

variable {log : List (Text × Nat)}

theorem segment_length {start finish : Nat} (within : finish ≤ log.length) :
    (segment log start finish).length = finish - start := by
  simp only [segment, List.length_take, List.length_drop, numbered_length]
  omega

theorem mem_segment_bounds {start finish : Nat} {record : Record Text} (within : start ≤ log.length)
    (inside : record ∈ segment log start finish) :
    start < record.sequence ∧ record.sequence ≤ finish := by
  rw [segment, numbered_drop 0 0 start log within, numbered_take] at inside
  have bounds := mem_numbered_bounds inside
  have size : ((log.drop start).take (finish - start)).length ≤ finish - start :=
    List.length_take_le _ _
  have some : 0 < ((log.drop start).take (finish - start)).length := by
    by_contra none
    omega
  omega

theorem segment_append (log : List (Text × Nat)) {start middle finish : Nat}
    (lower : start ≤ middle) (upper : middle ≤ finish) :
    segment log start middle ++ segment log middle finish = segment log start finish := by
  have sizes : finish - start = (middle - start) + (finish - middle) := by omega
  have place : start + (middle - start) = middle := by omega
  rw [segment, segment, segment, sizes, List.take_add, List.drop_drop, place]

theorem segment_take (log : List (Text × Nat)) {start finish count : Nat}
    (within : start + count ≤ finish) :
    (segment log start finish).take count = segment log start (start + count) := by
  have sizes : start + count - start = count := by omega
  rw [segment, segment, List.take_take, sizes, Nat.min_eq_left (by omega)]

theorem segment_drop (log : List (Text × Nat)) {start finish count : Nat} :
    (segment log start finish).drop count = segment log (start + count) finish := by
  rw [segment, segment, List.drop_take, List.drop_drop]
  congr 1
  omega

/-- What is appended behind a range leaves it alone. -/
theorem segment_extend {later : List (Text × Nat)} (extends_ : log <+: later) {start finish : Nat}
    (within : finish ≤ log.length) :
    segment later start finish = segment log start finish := by
  obtain ⟨rest, rfl⟩ := extends_
  have front : (numbered 0 0 (log ++ rest)).take finish = (numbered 0 0 log).take finish := by
    rw [numbered_take, numbered_take, List.take_append_of_le_length within]
  rw [segment, segment, ← List.drop_take, ← List.drop_take, front]

theorem segment_sequences {start finish : Nat} (within : finish ≤ log.length) :
    (segment log start finish).map Record.sequence = List.range' (start + 1) (finish - start) := by
  by_cases inside : start ≤ log.length
  · rw [segment, numbered_drop 0 0 start log inside, numbered_take, numbered_sequences,
      List.length_take, List.length_drop, Nat.min_eq_left (by omega), Nat.zero_add]
  · rw [segment, Nat.sub_eq_zero_of_le (by omega : finish ≤ start)]
    simp

theorem segment_last {start finish : Nat} (proper : start < finish) (within : finish ≤ log.length) :
    (segment log start finish).getLast?.map Record.sequence = some finish := by
  rw [← List.getLast?_map, segment_sequences within, List.getLast?_range', if_neg (by omega)]
  congr 1
  omega

theorem segment_first {start finish : Nat} (proper : start < finish)
    (within : finish ≤ log.length) :
    (segment log start finish).head?.map Record.sequence = some (start + 1) := by
  rw [← List.head?_map, segment_sequences within, List.head?_range', if_neg (by omega)]

theorem segment_increases {start finish : Nat} (within : start ≤ log.length) :
    (segment log start finish).Pairwise fun older newer => older.sequence < newer.sequence := by
  rw [segment, numbered_drop 0 0 start log within, numbered_take]
  exact numbered_sequences_increase _ _ _

theorem segment_filter {dropped after boundary : Nat} (kept : dropped ≤ log.length)
    (within : boundary ≤ log.length) :
    ((numbered 0 0 log).drop dropped).filter (fun record =>
        decide (after < record.sequence) && decide (record.sequence ≤ boundary)) =
      segment log (max after dropped) boundary := by
  have whole : (numbered 0 0 log).drop dropped = segment log dropped log.length := by
    rw [segment, List.take_of_length_le]
    simp
  by_cases empty : boundary ≤ max after dropped
  · have none : segment log (max after dropped) boundary = [] := by
      rw [segment, Nat.sub_eq_zero_of_le empty, List.take_zero]
    rw [none, whole, List.filter_eq_nil_iff]
    intro record inside
    have bounds := mem_segment_bounds kept inside
    simp only [Bool.and_eq_true, decide_eq_true_eq]
    omega
  · have lower : dropped ≤ max after dropped := Nat.le_max_right _ _
    have upper : max after dropped ≤ boundary := by omega
    rw [whole, ← segment_append log lower (Nat.le_trans upper within),
      ← segment_append log upper within, List.filter_append, List.filter_append]
    have before : (segment log dropped (max after dropped)).filter (fun record =>
        decide (after < record.sequence) && decide (record.sequence ≤ boundary)) = [] := by
      rw [List.filter_eq_nil_iff]
      intro record inside
      have bounds := mem_segment_bounds kept inside
      simp only [Bool.and_eq_true, decide_eq_true_eq]
      omega
    have behind : (segment log boundary log.length).filter (fun record =>
        decide (after < record.sequence) && decide (record.sequence ≤ boundary)) = [] := by
      rw [List.filter_eq_nil_iff]
      intro record inside
      have bounds := mem_segment_bounds within inside
      simp only [Bool.and_eq_true, decide_eq_true_eq]
      omega
    have inside : (segment log (max after dropped) boundary).filter (fun record =>
        decide (after < record.sequence) && decide (record.sequence ≤ boundary)) =
          segment log (max after dropped) boundary := by
      rw [List.filter_eq_self]
      intro record member
      have bounds := mem_segment_bounds (Nat.le_trans upper within) member
      simp only [Bool.and_eq_true, decide_eq_true_eq]
      omega
    rw [before, behind, inside, List.nil_append, List.append_nil]

theorem filter_is_drop {Item : Type} {keeps : Item → Bool} {items : List Item}
    (upward : items.Pairwise fun older newer => keeps older = true → keeps newer = true) :
    ∃ dropped, items.filter keeps = items.drop dropped := by
  induction items with
  | nil => exact ⟨0, rfl⟩
  | cons item items induction =>
    obtain ⟨fromHead, rest⟩ := List.pairwise_cons.mp upward
    by_cases kept : keeps item = true
    · refine ⟨0, List.filter_eq_self.mpr ?_⟩
      intro newer inside
      rcases List.mem_cons.mp inside with rfl | later
      · exact kept
      · exact fromHead newer later kept
    · obtain ⟨dropped, eq⟩ := induction rest
      refine ⟨dropped + 1, ?_⟩
      rw [List.filter_cons_of_neg kept, eq, List.drop_succ_cons]

def Retains (records : List (Record Text)) (log : List (Text × Nat)) : Prop :=
  ∃ dropped, records = (numbered 0 0 log).drop dropped ∧ (log ≠ [] → dropped < log.length)

theorem retains_append {records : List (Record Text)} (retains : Retains records log)
    (rows : List (Text × Nat)) :
    Retains (records ++ numbered log.length (total log) rows) (log ++ rows) := by
  obtain ⟨dropped, eq, proper⟩ := retains
  by_cases empty : log = []
  · subst empty
    refine ⟨0, ?_, ?_⟩
    · simp [eq, numbered]
    · intro nonempty
      exact List.length_pos_iff.mpr nonempty
  · refine ⟨dropped, ?_, ?_⟩
    · rw [numbered_append, List.drop_append_of_le_length, eq, Nat.zero_add, Nat.zero_add]
      rw [numbered_length]
      exact Nat.le_of_lt (proper empty)
    · intro _
      have := proper empty
      rw [List.length_append]
      omega

/-- Dropping the records whose byte count lies behind a horizon keeps a suffix, and the
newest record as long as it is itself within the horizon. -/
theorem retains_expire {records : List (Record Text)} (retains : Retains records log)
    (horizon : Nat) (live : 0 < horizon) :
    Retains (records.filter fun record => decide (total log < record.byteEnd + horizon)) log := by
  obtain ⟨dropped, eq, proper⟩ := retains
  have upward : ((numbered 0 0 log).drop dropped).Pairwise fun older newer =>
      decide (total log < older.byteEnd + horizon) = true →
        decide (total log < newer.byteEnd + horizon) = true := by
    refine ((numbered_bytes_increase 0 0 log).sublist (List.drop_sublist _ _)).imp ?_
    intro older newer ordered kept
    simp only [decide_eq_true_eq] at kept ⊢
    omega
  obtain ⟨more, dropEq⟩ := filter_is_drop upward
  refine ⟨dropped + more, ?_, ?_⟩
  · rw [eq, dropEq, List.drop_drop]
  · intro nonempty
    have before := proper nonempty
    have position : log.length - 1 < log.length := by omega
    have last : (numbered 0 0 log)[log.length - 1]? =
        some ⟨log.length, total log, (log.get ⟨log.length - 1, position⟩).1⟩ := by
      rw [numbered_get, List.getElem?_eq_getElem position]
      have whole : log.length - 1 + 1 = log.length := by omega
      simp [whole]
    have inside : (⟨log.length, total log, (log.get ⟨log.length - 1, position⟩).1⟩ :
        Record Text) ∈ (numbered 0 0 log).drop dropped := by
      refine List.mem_of_getElem? (i := log.length - 1 - dropped) ?_
      rw [List.getElem?_drop, ← last]
      congr 1
      omega
    have kept : (⟨log.length, total log, (log.get ⟨log.length - 1, position⟩).1⟩ :
        Record Text) ∈ ((numbered 0 0 log).drop dropped).drop more := by
      rw [← dropEq]
      exact List.mem_filter.mpr ⟨inside, by simpa using live⟩
    have remaining : 0 < (((numbered 0 0 log).drop dropped).drop more).length :=
      List.length_pos_of_mem kept
    simp only [List.length_drop, numbered_length] at remaining
    omega

end Atlaso.Library.NumberedLog
