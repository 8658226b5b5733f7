import Mathlib.Data.Finset.Basic
import Mathlib.Data.Finset.Sort
import Mathlib.Data.List.Sort

/-!
A set that is changed by one addition or deletion at a time.

A property of the state before and after every edit of a list is `Along` the list. The
rules below prove it for a block of deletions and for a block of additions from the states
that the block can pass through.
-/

namespace Atlaso.Library.SetEdits

variable {Item : Type} [DecidableEq Item]

inductive Edit (Item : Type) where
  | add (item : Item)
  | del (item : Item)
  deriving DecidableEq, Repr

def Edit.apply (state : Finset Item) : Edit Item → Finset Item
  | .add item => insert item state
  | .del item => state.erase item

def runEdits (edits : List (Edit Item)) (state : Finset Item) : Finset Item :=
  edits.foldl Edit.apply state

theorem run_edits_append (first second : List (Edit Item)) (state : Finset Item) :
    runEdits (first ++ second) state = runEdits second (runEdits first state) :=
  List.foldl_append

theorem run_deletions (items : List Item) (state : Finset Item) :
    runEdits (items.map .del) state = state \ items.toFinset := by
  induction items generalizing state with
  | nil => simp [runEdits]
  | cons item items induction =>
    have step : runEdits ((item :: items).map .del) state =
        runEdits (items.map .del) (state.erase item) := rfl
    rw [step, induction]
    ext other
    simp only [Finset.mem_sdiff, Finset.mem_erase, List.toFinset_cons, Finset.mem_insert,
      List.mem_toFinset]
    tauto

theorem run_additions (items : List Item) (state : Finset Item) :
    runEdits (items.map .add) state = state ∪ items.toFinset := by
  induction items generalizing state with
  | nil => simp [runEdits]
  | cons item items induction =>
    have step : runEdits ((item :: items).map .add) state =
        runEdits (items.map .add) (insert item state) := rfl
    rw [step, induction]
    ext other
    simp only [Finset.mem_union, Finset.mem_insert, List.toFinset_cons, List.mem_toFinset]
    tauto

/-! ### Properties of every state -/

variable {admits : Finset Item → Edit Item → Prop} {good better : Finset Item → Prop}

def Along (admits : Finset Item → Edit Item → Prop) (good : Finset Item → Prop) :
    List (Edit Item) → Finset Item → Prop
  | [], state => good state
  | edit :: edits, state => good state ∧ admits state edit ∧ Along admits good edits (edit.apply state)

variable {edits issued rest : List (Edit Item)}

theorem along_start {state : Finset Item} (along : Along admits good edits state) : good state := by
  cases edits with
  | nil => exact along
  | cons edit edits => exact along.1

theorem along_append {first second : List (Edit Item)} {state : Finset Item}
    (before : Along admits good first state)
    (after : Along admits good second (runEdits first state)) :
    Along admits good (first ++ second) state := by
  induction first generalizing state with
  | nil => exact after
  | cons edit first induction => exact ⟨before.1, before.2.1, induction before.2.2 after⟩

theorem along_weaken {state : Finset Item} (along : Along admits better edits state)
    (weaker : ∀ state, better state → good state) :
    Along admits good edits state := by
  induction edits generalizing state with
  | nil => exact weaker state along
  | cons edit edits induction => exact ⟨weaker state along.1, along.2.1, induction along.2.2⟩

theorem along_issued {state : Finset Item} (along : Along admits good (issued ++ rest) state) :
    good (runEdits issued state) := by
  induction issued generalizing state with
  | nil => exact along_start along
  | cons edit issued induction => exact induction along.2.2

theorem along_next {edit : Edit Item} {state : Finset Item}
    (along : Along admits good (issued ++ edit :: rest) state) :
    admits (runEdits issued state) edit := by
  induction issued generalizing state with
  | nil => exact along.2.1
  | cons first issued induction => exact induction along.2.2

theorem along_deletions {items : List Item} {state : Finset Item} (distinct : items.Nodup)
    (present : ∀ item ∈ items, item ∈ state)
    (deletes : ∀ state item, item ∈ state → admits state (.del item))
    (passes : ∀ done rest, items = done ++ rest → good (state \ done.toFinset)) :
    Along admits good (items.map .del) state := by
  induction items generalizing state with
  | nil => simpa [Along] using passes [] [] rfl
  | cons item items induction =>
    obtain ⟨fresh, distinct⟩ := List.nodup_cons.mp distinct
    refine ⟨by simpa using passes [] (item :: items) rfl,
      deletes state item (present item List.mem_cons_self), induction distinct ?_ ?_⟩
    · intro other inside
      refine Finset.mem_erase.mpr ⟨?_, present other (List.mem_cons_of_mem _ inside)⟩
      rintro rfl
      exact fresh inside
    · intro done rest whole
      have later := passes (item :: done) rest (by rw [whole, List.cons_append])
      rwa [List.toFinset_cons, Finset.sdiff_insert, ← Finset.erase_sdiff_comm] at later

theorem along_additions {items : List Item} {state : Finset Item}
    (adds : ∀ done item rest, items = done ++ item :: rest →
      admits (state ∪ done.toFinset) (.add item))
    (passes : ∀ done rest, items = done ++ rest → good (state ∪ done.toFinset)) :
    Along admits good (items.map .add) state := by
  induction items generalizing state with
  | nil => simpa [Along] using passes [] [] rfl
  | cons item items induction =>
    refine ⟨by simpa using passes [] (item :: items) rfl,
      by simpa using adds [] item items rfl, induction ?_ ?_⟩
    · intro done other rest whole
      have later := adds (item :: done) other rest (by rw [whole, List.cons_append])
      rwa [List.toFinset_cons, Finset.union_insert, ← Finset.insert_union] at later
    · intro done rest whole
      have later := passes (item :: done) rest (by rw [whole, List.cons_append])
      rwa [List.toFinset_cons, Finset.union_insert, ← Finset.insert_union] at later

/-! ### Sets in the order of a key -/

/-- `sorted(items, key=key)`; items with equal keys stand in the order of the type. -/
def sortedBy {Key : Type} [LinearOrder Key] [LinearOrder Item] (key : Item → Key)
    (items : Finset Item) : List Item :=
  (items.sort (· ≤ ·)).insertionSort fun left right => key left ≤ key right

section Sorted

variable {Key : Type} [LinearOrder Key] {Value : Type} [LinearOrder Value] {key : Value → Key}
  {items : Finset Value}

theorem sorted_by_perm : (sortedBy key items).Perm (items.sort (· ≤ ·)) :=
  List.perm_insertionSort _ _

@[simp] theorem mem_sorted_by {item : Value} : item ∈ sortedBy key items ↔ item ∈ items := by
  rw [sorted_by_perm.mem_iff, Finset.mem_sort]

theorem sorted_by_nodup : (sortedBy key items).Nodup :=
  sorted_by_perm.nodup_iff.mpr (Finset.sort_nodup _ _)

@[simp] theorem sorted_by_to_finset [DecidableEq Value] :
    (sortedBy key items).toFinset = items := by
  ext item
  simp

theorem sorted_by_before {done rest : List Value} (whole : sortedBy key items = done ++ rest)
    {first second : Value} (inside : first ∈ items) (placed : second ∈ done)
    (smaller : key first < key second) : first ∈ done := by
  have order : (sortedBy key items).Pairwise fun left right => key left ≤ key right := by
    have total : Std.Total fun left right => key left ≤ key right :=
      ⟨fun left right => le_total (key left) (key right)⟩
    have transitive : IsTrans Value fun left right => key left ≤ key right :=
      ⟨fun _ _ _ => le_trans⟩
    exact List.pairwise_insertionSort _ _
  rw [whole] at order
  have somewhere : first ∈ done ++ rest := by
    rw [← whole]
    exact mem_sorted_by.mpr inside
  rcases List.mem_append.mp somewhere with before | after
  · exact before
  · have bound := (List.pairwise_append.mp order).2.2 second placed first after
    exact absurd smaller (not_lt.mpr bound)

end Sorted

end Atlaso.Library.SetEdits
