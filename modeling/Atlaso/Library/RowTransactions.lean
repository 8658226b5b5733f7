import Mathlib.Logic.Function.Basic
import Mathlib.Tactic.Common

/-!
Rows of a table under transactions that take write locks.

A row that a transaction has written is invisible to the others until the commit, and
they cannot write it before the transaction ends. A table that locks as a whole has fewer
interleavings than this one.
-/

namespace Atlaso.Library.RowTransactions

structure Rows (Id Row Owner : Type) where
  committed : Id → Option Row
  written : Id → Option (Owner × Row)

namespace Rows

variable {Id Row Owner : Type}

section Transactions

variable [DecidableEq Owner]

/-- What a statement of the transaction reads. -/
def visible (rows : Rows Id Row Owner) (owner : Owner) (id : Id) : Option Row :=
  match rows.written id with
  | some (other, row) => if other = owner then some row else rows.committed id
  | none => rows.committed id

def writable (rows : Rows Id Row Owner) (owner : Owner) (id : Id) : Bool :=
  match rows.written id with
  | some (other, _) => other = owner
  | none => true

def rollback (rows : Rows Id Row Owner) (owner : Owner) : Rows Id Row Owner :=
  { rows with written := fun id => (rows.written id).filter fun version => version.1 ≠ owner }

def commit (rows : Rows Id Row Owner) (owner : Owner) : Rows Id Row Owner :=
  { committed := rows.visible owner, written := (rows.rollback owner).written }

variable {rows : Rows Id Row Owner} {owner : Owner} {id : Id} {row : Row}

@[simp] theorem rollback_committed : (rows.rollback owner).committed = rows.committed := rfl

@[simp] theorem commit_committed : (rows.commit owner).committed = rows.visible owner := rfl

@[simp] theorem commit_written :
    (rows.commit owner).written = (rows.rollback owner).written := rfl

theorem visible_written (written : rows.written id = some (owner, row)) :
    rows.visible owner id = some row := by
  simp [visible, written]

theorem visible_unwritten (unwritten : ∀ row, rows.written id ≠ some (owner, row)) :
    rows.visible owner id = rows.committed id := by
  unfold visible
  split
  · rename_i writer version found
    split
    · rename_i same
      subst same
      exact absurd found (unwritten version)
    · rfl
  · rfl

theorem written_rollback {version : Owner × Row} :
    (rows.rollback owner).written id = some version ↔
      rows.written id = some version ∧ version.1 ≠ owner := by
  simp [rollback, Option.filter_eq_some_iff]

end Transactions

section Statements

variable [DecidableEq Id]

def write (rows : Rows Id Row Owner) (owner : Owner) (id : Id) (row : Row) :
    Rows Id Row Owner :=
  { rows with written := Function.update rows.written id (some (owner, row)) }

variable {rows : Rows Id Row Owner} {owner : Owner} {id key : Id} {row : Row}

@[simp] theorem write_committed : (rows.write owner id row).committed = rows.committed := rfl

theorem written_write : (rows.write owner id row).written id = some (owner, row) := by
  simp [write]

theorem written_write_ne (different : key ≠ id) :
    (rows.write owner id row).written key = rows.written key := by
  simp [write, Function.update_of_ne different]

end Statements

end Rows

end Atlaso.Library.RowTransactions
