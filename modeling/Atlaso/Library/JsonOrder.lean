import Atlaso.Library.JsonText

/-!
Documents up to the order of their fields.

A reader returns the fields in the order in which they were written, that is, sorted by
key. `sortKeys` puts a document in this order, and a document without fractions whose
objects name each field once is read back as its sorted form.
-/

namespace Atlaso.Library.JsonOrder

open Dictionary JsonText

/-- The order of the fields of an object. -/
def byKey (members : List (String × Json)) : List (String × Json) :=
  members.insertionSort fun left right => left.1 ≤ right.1

mutual

def sortKeys : Json → Json
  | .array items => .array (sortItems items)
  | .object members => .object (byKey (sortMembers members))
  | .null => .null
  | .bool value => .bool value
  | .int value => .int value
  | .real literal => .real literal
  | .string value => .string value

def sortItems : List Json → List Json
  | [] => []
  | item :: items => sortKeys item :: sortItems items

def sortMembers : List (String × Json) → List (String × Json)
  | [] => []
  | (key, value) :: members => (key, sortKeys value) :: sortMembers members

end

theorem sort_items_map (items : List Json) : sortItems items = items.map sortKeys := by
  induction items with
  | nil => rfl
  | cons item items induction => rw [sortItems, induction, List.map_cons]

theorem sort_members_map (members : List (String × Json)) :
    sortMembers members = members.map fun member => (member.1, sortKeys member.2) := by
  induction members with
  | nil => rfl
  | cons member members induction => rw [sortMembers, induction, List.map_cons]

theorem by_key_perm (members : List (String × Json)) : (byKey members).Perm members :=
  List.perm_insertionSort _ _

/-- Documents without fractions whose objects name each field once. -/
inductive Plain : Json → Prop
  | null : Plain .null
  | bool (value : Bool) : Plain (.bool value)
  | int (value : Int) : Plain (.int value)
  | string (value : String) : Plain (.string value)
  | array {items : List Json} (plain : ∀ item ∈ items, Plain item) : Plain (.array items)
  | object {members : List (String × Json)} (distinct : (members.map Prod.fst).Nodup)
      (plain : ∀ member ∈ members, Plain member.2) : Plain (.object members)

theorem sort_members_keys (members : List (String × Json)) :
    (sortMembers members).map Prod.fst = members.map Prod.fst := by
  rw [sort_members_map, List.map_map]
  rfl

variable {document : Json} {members : List (String × Json)}

/-- Sorting the fields does not change the text. -/
theorem render_sort_keys (plain : Plain document) :
    render (sortKeys document) = render document := by
  induction plain with
  | null => rfl
  | bool value => rfl
  | int value => rfl
  | string value => rfl
  | @array items _ induction =>
    have items_same : renderItems (sortItems items) = renderItems items := by
      rw [render_items_map, render_items_map, sort_items_map, List.map_map]
      exact List.map_congr_left induction
    rw [sortKeys, render, render, items_same]
  | @object members distinct _ induction =>
    have keys : ((byKey (sortMembers members)).map Prod.fst).Nodup := by
      rw [((by_key_perm _).map Prod.fst).nodup_iff, sort_members_keys]
      exact distinct
    have members_same : renderMembers (sortMembers members) = renderMembers members := by
      rw [render_members_map, render_members_map, sort_members_map, List.map_map]
      exact List.map_congr_left fun member inside =>
        Prod.ext rfl (induction member inside)
    rw [sortKeys, render_object_perm (by_key_perm _) keys, render, render, members_same]

theorem canonical_members (each : ∀ member ∈ members, Canonical member.2) :
    CanonicalMembers members := by
  induction members with
  | nil => trivial
  | cons member members induction =>
    exact ⟨each member List.mem_cons_self, induction fun other inside =>
      each other (List.mem_cons_of_mem _ inside)⟩

theorem by_key_strict (distinct : (members.map Prod.fst).Nodup) :
    ((byKey members).map Prod.fst).Pairwise (· < ·) := by
  have sorted : ((byKey members).map Prod.fst).Pairwise (· ≤ ·) :=
    List.pairwise_map.mpr (List.pairwise_insertionSort _ _)
  have nodup : ((byKey members).map Prod.fst).Nodup :=
    (((by_key_perm members).map Prod.fst).nodup_iff).mpr distinct
  exact sorted.imp₂ (fun _ _ below different => lt_of_le_of_ne below different) nodup

theorem sort_keys_canonical (plain : Plain document) :
    Canonical (sortKeys document) := by
  induction plain with
  | null => trivial
  | bool value => trivial
  | int value => trivial
  | string value => trivial
  | @array items _ induction =>
    refine canonical_items fun item inside => ?_
    rw [sort_items_map] at inside
    obtain ⟨before, member, rfl⟩ := List.mem_map.mp inside
    exact induction before member
  | @object members distinct _ induction =>
    constructor
    · refine by_key_strict ?_
      rw [sort_members_keys]
      exact distinct
    · refine canonical_members fun member inside => ?_
      have before := (by_key_perm _).mem_iff.mp inside
      rw [sort_members_map] at before
      obtain ⟨old, old_inside, rfl⟩ := List.mem_map.mp before
      exact induction old old_inside

/-- What is written is read back with its fields in order. -/
theorem loads_dumps_plain (plain : Plain document) :
    loads (dumps document) = some (sortKeys document) := by
  have text : dumps document = dumps (sortKeys document) := by
    rw [dumps, dumps, render_sort_keys plain]
  rw [text, loads_dumps _ (sort_keys_canonical plain)]

/-! ### Fields of a sorted object -/

/-- The order of distinct fields does not matter to a lookup. -/
theorem get_item_perm {left right : List (String × Json)} (same : left.Perm right)
    (distinct : (left.map Prod.fst).Nodup) (key : String) :
    getItem key left = getItem key right := by
  induction same with
  | nil => rfl
  | @cons member left right _ induction =>
    obtain ⟨name, value⟩ := member
    simp only [getItem]
    split_ifs with here
    · rfl
    · exact induction (List.nodup_cons.mp distinct).2
  | swap first second rest =>
    obtain ⟨firstName, firstValue⟩ := first
    obtain ⟨secondName, secondValue⟩ := second
    have different : secondName ≠ firstName := fun same => by
      simp [same] at distinct
    simp only [getItem]
    split_ifs with one two
    · exact absurd (one.trans two.symm) different
    · rfl
    · rfl
    · rfl
  | trans first _ firstInduction secondInduction =>
    exact (firstInduction distinct).trans
      (secondInduction (((first.map Prod.fst).nodup_iff).mp distinct))

theorem get_item_sort_members (key : String) (members : List (String × Json)) :
    getItem key (sortMembers members) = (getItem key members).map sortKeys := by
  induction members with
  | nil => rfl
  | cons member members induction =>
    obtain ⟨name, value⟩ := member
    simp only [sortMembers, getItem]
    split_ifs with here
    · rfl
    · exact induction

theorem get_item_sorted (distinct : (members.map Prod.fst).Nodup) (key : String) :
    getItem key (byKey (sortMembers members)) = (getItem key members).map sortKeys := by
  rw [get_item_perm (by_key_perm _) (by
    rw [((by_key_perm _).map Prod.fst).nodup_iff, sort_members_keys]
    exact distinct), get_item_sort_members]

theorem get_item_member (distinct : (members.map Prod.fst).Nodup) {member : String × Json}
    (inside : member ∈ members) :
    getItem member.1 members = some member.2 := by
  induction members with
  | nil => cases inside
  | cons first members induction =>
    obtain ⟨name, value⟩ := first
    obtain ⟨fresh, distinct⟩ := List.nodup_cons.mp distinct
    rcases List.mem_cons.mp inside with rfl | later
    · simp [getItem]
    · have different : name ≠ member.1 := fun same =>
        fresh (List.mem_map.mpr ⟨member, later, same.symm⟩)
      rw [getItem, if_neg different]
      exact induction distinct later

end Atlaso.Library.JsonOrder
