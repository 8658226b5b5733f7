import Mathlib.Data.List.Sort
import Mathlib.Order.Basic

/-!
Tables as lists of rows in strictly increasing order of a primary key.

Such a list is the only one with its set of rows, so two tables with the same rows are
equal and a query ordered by the key returns the list itself.
-/

namespace Atlaso.Library.SortedTables

variable {Row Key : Type} [LinearOrder Key] (keyOf : Row → Key)

def Sorted (rows : List Row) : Prop := rows.Pairwise fun left right => keyOf left < keyOf right

instance (rows : List Row) : Decidable (Sorted keyOf rows) :=
  inferInstanceAs (Decidable (rows.Pairwise fun left right => keyOf left < keyOf right))

def insertRow (row : Row) : List Row → List Row
  | [] => [row]
  | first :: rows =>
    if keyOf row < keyOf first then row :: first :: rows else first :: insertRow row rows

def findRow (key : Key) (rows : List Row) : Option Row := rows.find? fun row => keyOf row = key

variable {keyOf}

theorem mem_insert_row {row other : Row} {rows : List Row} :
    other ∈ insertRow keyOf row rows ↔ other = row ∨ other ∈ rows := by
  induction rows with
  | nil => simp [insertRow]
  | cons first rows induction =>
    unfold insertRow
    split
    · simp
    · simp only [List.mem_cons, induction]
      constructor
      · rintro (rfl | rfl | inside)
        · exact .inr (.inl rfl)
        · exact .inl rfl
        · exact .inr (.inr inside)
      · rintro (rfl | rfl | inside)
        · exact .inr (.inl rfl)
        · exact .inl rfl
        · exact .inr (.inr inside)

theorem insert_row_last {row : Row} {rows : List Row}
    (last : ∀ other ∈ rows, keyOf other < keyOf row) :
    insertRow keyOf row rows = rows ++ [row] := by
  induction rows with
  | nil => rfl
  | cons first rows induction =>
    have below := last first List.mem_cons_self
    rw [insertRow, if_neg (not_lt.mpr below.le),
      induction fun other inside => last other (List.mem_cons_of_mem _ inside)]
    rfl

section

variable {rows : List Row} (sorted : Sorted keyOf rows)
include sorted

theorem sorted_insert_row {row : Row} (absent : ∀ other ∈ rows, keyOf other ≠ keyOf row) :
    Sorted keyOf (insertRow keyOf row rows) := by
  induction rows with
  | nil => exact List.pairwise_singleton _ _
  | cons first rows induction =>
    obtain ⟨least, rest⟩ := List.pairwise_cons.mp sorted
    unfold insertRow
    split
    · rename_i before
      refine List.pairwise_cons.mpr ⟨?_, sorted⟩
      intro other member
      rcases List.mem_cons.mp member with rfl | inside
      · exact before
      · exact before.trans (least other inside)
    · rename_i notBefore
      have after : keyOf first < keyOf row :=
        lt_of_le_of_ne (not_lt.mp notBefore) (absent first (by simp))
      refine List.pairwise_cons.mpr ⟨?_, induction rest fun other member =>
        absent other (List.mem_cons_of_mem _ member)⟩
      intro other member
      rcases mem_insert_row.mp member with rfl | inside
      · exact after
      · exact least other inside

theorem sorted_map (change : Row → Row) (sameKey : ∀ row, keyOf (change row) = keyOf row) :
    Sorted keyOf (rows.map change) := by
  unfold Sorted at *
  rw [List.pairwise_map]
  simpa only [sameKey] using sorted

theorem find_row_some_iff {key : Key} {row : Row} :
    findRow keyOf key rows = some row ↔ row ∈ rows ∧ keyOf row = key := by
  constructor
  · intro found
    exact ⟨List.mem_of_find?_eq_some found, by simpa using List.find?_some found⟩
  · rintro ⟨member, rfl⟩
    induction rows with
    | nil => simp at member
    | cons first rows induction =>
      obtain ⟨least, rest⟩ := List.pairwise_cons.mp sorted
      rcases List.mem_cons.mp member with rfl | inside
      · simp [findRow]
      · have different : keyOf first ≠ keyOf row := (least row inside).ne
        have later := induction rest inside
        simpa [findRow, different] using later

end

theorem find_row_none_iff {key : Key} {rows : List Row} :
    findRow keyOf key rows = none ↔ ∀ row ∈ rows, keyOf row ≠ key := by
  simp [findRow]

/-! ### Rows that a table keeps -/

variable {keep : Row → Bool}

theorem insert_row_first {row : Row} {rows : List Row}
    (first : ∀ other ∈ rows, keyOf row < keyOf other) :
    insertRow keyOf row rows = row :: rows := by
  cases rows with
  | nil => rfl
  | cons next rows => rw [insertRow, if_pos (first next List.mem_cons_self)]

theorem filter_insert_row {row : Row} {rows : List Row} (sorted : Sorted keyOf rows)
    (kept : keep row = true) :
    (insertRow keyOf row rows).filter keep = insertRow keyOf row (rows.filter keep) := by
  induction rows with
  | nil => simp [insertRow, kept]
  | cons first rows induction =>
    obtain ⟨least, rest⟩ := List.pairwise_cons.mp sorted
    rw [insertRow]
    split_ifs with before
    · rw [List.filter_cons_of_pos kept, insert_row_first]
      intro other inside
      rcases List.mem_cons.mp (List.mem_of_mem_filter inside) with rfl | later
      · exact before
      · exact before.trans (least other later)
    · rw [List.filter_cons, List.filter_cons, induction rest]
      split
      · rw [insertRow, if_neg before]
      · rfl

theorem filter_insert_row_other {row : Row} {rows : List Row} (dropped : keep row = false) :
    (insertRow keyOf row rows).filter keep = rows.filter keep := by
  induction rows with
  | nil => simp [insertRow, dropped]
  | cons first rows induction =>
    rw [insertRow]
    split_ifs
    · rw [List.filter_cons_of_neg (by simp [dropped])]
    · rw [List.filter_cons, List.filter_cons, induction]

theorem find_row_filter {key : Key} {rows : List Row}
    (kept : ∀ row, keyOf row = key → keep row = true) :
    findRow keyOf key (rows.filter keep) = findRow keyOf key rows := by
  unfold findRow
  rw [List.find?_filter]
  congr 1
  funext row
  by_cases same : keyOf row = key
  · simp [same, kept row same]
  · simp [same]

end Atlaso.Library.SortedTables
