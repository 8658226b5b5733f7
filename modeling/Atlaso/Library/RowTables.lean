import Mathlib.Algebra.Order.BigOperators.Group.List
import Mathlib.Algebra.Order.Ring.Nat

/-!
Tables of rows that have an identifier, as lists of their rows.

A row is added at the end, replaced where it stands, or taken out. What is said of every two rows
with different identifiers has to be shown for the new row only.
-/

namespace Atlaso.Library.RowTables

variable {Row Id : Type} (identity : Row → Id)

def Separate (apart : Row → Row → Prop) (rows : List Row) : Prop :=
  ∀ first ∈ rows, ∀ second ∈ rows, identity first ≠ identity second → apart first second

section Separation

variable {identity} {apart : Row → Row → Prop} {rows others : List Row} {row : Row}

theorem separate_nil : Separate identity apart [] := fun _ inside => absurd inside List.not_mem_nil

theorem separate_with (symmetric : ∀ first second, apart first second → apart second first)
    (separate : Separate identity apart others) (new : ∀ other ∈ others, apart row other)
    (known : ∀ kept ∈ rows, kept = row ∨ kept ∈ others) : Separate identity apart rows := by
  intro first firstInside second secondInside differs
  rcases known first firstInside with rfl | firstKept
  · rcases known second secondInside with rfl | secondKept
    · exact absurd rfl differs
    · exact new second secondKept
  · rcases known second secondInside with rfl | secondKept
    · exact symmetric _ _ (new first firstKept)
    · exact separate first firstKept second secondKept differs

theorem separate_add (symmetric : ∀ first second, apart first second → apart second first)
    (separate : Separate identity apart rows) (new : ∀ other ∈ rows, apart row other) :
    Separate identity apart (rows ++ [row]) := by
  apply separate_with symmetric separate new
  intro kept inside
  rcases List.mem_append.mp inside with before | last
  · exact .inr before
  · exact .inl (List.mem_singleton.mp last)

theorem distinct_add (distinct : (rows.map identity).Nodup)
    (fresh : ∀ row' ∈ rows, identity row' ≠ identity row) :
    ((rows ++ [row]).map identity).Nodup := by
  rw [List.map_append, List.map_singleton, List.nodup_append]
  refine ⟨distinct, by simp, ?_⟩
  rintro _ inside _ last rfl
  obtain ⟨kept, member, same⟩ := List.mem_map.mp inside
  exact fresh kept member (same.trans (List.mem_singleton.mp last))

end Separation

variable [DecidableEq Id]

def findRow (id : Id) (rows : List Row) : Option Row := rows.find? fun row => identity row = id

def replaceRow (row : Row) (rows : List Row) : List Row :=
  rows.map fun other => if identity other = identity row then row else other

def removeRow (id : Id) (rows : List Row) : List Row := rows.filter fun row => identity row ≠ id

section Rows

variable {identity} {apart : Row → Row → Prop} {rows : List Row} {row other : Row} {id : Id}

theorem mem_remove_row : row ∈ removeRow identity id rows ↔ row ∈ rows ∧ identity row ≠ id := by
  rw [removeRow, List.mem_filter, decide_eq_true_eq]

theorem mem_replace_row (inside : other ∈ replaceRow identity row rows) :
    other = row ∨ other ∈ removeRow identity (identity row) rows := by
  obtain ⟨kept, member, rfl⟩ := List.mem_map.mp inside
  by_cases same : identity kept = identity row
  · rw [if_pos same]
    exact .inl rfl
  · rw [if_neg same]
    exact .inr (mem_remove_row.mpr ⟨member, same⟩)

@[simp] theorem replace_row_identities :
    (replaceRow identity row rows).map identity = rows.map identity := by
  rw [replaceRow, List.map_map]
  apply List.map_congr_left
  intro kept _
  by_cases same : identity kept = identity row
  · simp [same]
  · simp [same]

@[simp] theorem replace_row_length : (replaceRow identity row rows).length = rows.length :=
  List.length_map _

theorem remove_row_length : (removeRow identity id rows).length ≤ rows.length :=
  List.length_filter_le _ _

/-! ### Identifiers -/

theorem distinct_replace (distinct : (rows.map identity).Nodup) :
    ((replaceRow identity row rows).map identity).Nodup := by
  rwa [replace_row_identities]

theorem distinct_remove (distinct : (rows.map identity).Nodup) :
    ((removeRow identity id rows).map identity).Nodup :=
  distinct.sublist (List.filter_sublist.map identity)

/-! ### Separation -/

theorem separate_remove (separate : Separate identity apart rows) :
    Separate identity apart (removeRow identity id rows) := by
  intro first firstInside second secondInside differs
  exact separate first (mem_remove_row.mp firstInside).1 second (mem_remove_row.mp secondInside).1
    differs

theorem separate_replace (symmetric : ∀ first second, apart first second → apart second first)
    (separate : Separate identity apart rows)
    (new : ∀ other ∈ removeRow identity (identity row) rows, apart row other) :
    Separate identity apart (replaceRow identity row rows) :=
  separate_with symmetric (separate_remove separate) new fun _ inside => mem_replace_row inside

/-! ### Sums -/

theorem sum_remove_le (weight : Row → Nat) :
    ((removeRow identity id rows).map weight).sum ≤ (rows.map weight).sum :=
  (List.filter_sublist.map weight).sum_le_sum fun _ _ => Nat.zero_le _

theorem replace_row_absent (absent : ∀ row' ∈ rows, identity row' ≠ identity row) :
    replaceRow identity row rows = rows := by
  calc replaceRow identity row rows = rows.map fun kept => kept :=
        List.map_congr_left fun kept inside => if_neg (absent kept inside)
    _ = rows := List.map_id rows

theorem sum_replace_le (weight : Row → Nat) (distinct : (rows.map identity).Nodup) :
    ((replaceRow identity row rows).map weight).sum ≤
      weight row + ((removeRow identity (identity row) rows).map weight).sum := by
  induction rows with
  | nil => exact Nat.zero_le _
  | cons first rows induction =>
    obtain ⟨fresh, distinct⟩ := List.nodup_cons.mp distinct
    by_cases same : identity first = identity row
    · have absent : ∀ kept ∈ rows, identity kept ≠ identity row := by
        intro kept inside equal
        exact fresh (List.mem_map.mpr ⟨kept, inside, equal.trans same.symm⟩)
      have kept : replaceRow identity row (first :: rows) = row :: rows := by
        rw [replaceRow, List.map_cons, if_pos same]
        exact congrArg (row :: ·) (replace_row_absent absent)
      have rest : removeRow identity (identity row) (first :: rows) = rows := by
        rw [removeRow, List.filter_cons_of_neg (by simpa using same)]
        exact List.filter_eq_self.mpr fun kept inside => decide_eq_true (absent kept inside)
      rw [kept, rest, List.map_cons, List.sum_cons]
    · have kept : replaceRow identity row (first :: rows) =
          first :: replaceRow identity row rows := by
        rw [replaceRow, List.map_cons, if_neg same]
        rfl
      have rest : removeRow identity (identity row) (first :: rows) =
          first :: removeRow identity (identity row) rows := by
        rw [removeRow, List.filter_cons_of_pos (by simpa using same)]
        rfl
      have bound := induction distinct
      rw [kept, rest, List.map_cons, List.map_cons, List.sum_cons, List.sum_cons]
      omega

end Rows

end Atlaso.Library.RowTables
