import Atlaso.Library.Outcomes
import Mathlib.Data.List.Forall2

/-!
Lists that are read item by item, where the first item that cannot be read ends the reading.
-/

namespace Atlaso.Library.Traversals

open Outcomes

variable {Item Value Error : Type}

variable {items : List Item} {values : List Value}

section

variable {read : Item → Except Error Value} (done : items.mapM read = .ok values)
include done

theorem map_m_forall :
    List.Forall₂ (fun item value => read item = .ok value) items values := by
  induction items generalizing values with
  | nil =>
    rw [List.mapM_nil] at done
    cases done
    exact List.Forall₂.nil
  | cons item items induction =>
    rw [List.mapM_cons] at done
    obtain ⟨first, here, done⟩ := bind_ok_iff.mp done
    obtain ⟨rest, later, done⟩ := bind_ok_iff.mp done
    cases done
    exact List.Forall₂.cons here (induction later)

theorem map_m_length :
    items.length = values.length :=
  (map_m_forall done).length_eq

theorem map_m_source {value : Value} (inside : value ∈ values) :
    ∃ item ∈ items, read item = .ok value := by
  have pairs := map_m_forall done
  clear done
  induction pairs with
  | nil => cases inside
  | cons here _ induction =>
    rcases List.mem_cons.mp inside with rfl | later
    · exact ⟨_, List.mem_cons_self, here⟩
    · obtain ⟨item, member, read⟩ := induction later
      exact ⟨item, List.mem_cons_of_mem _ member, read⟩

theorem map_m_image {item : Item} (inside : item ∈ items) :
    ∃ value, read item = .ok value := by
  have pairs := map_m_forall done
  clear done
  induction pairs with
  | nil => cases inside
  | cons here _ induction =>
    rcases List.mem_cons.mp inside with rfl | later
    · exact ⟨_, here⟩
    · exact induction later

end

theorem map_m_values {read : Item → Except Error Value} (value : Item → Value)
    (done : items.mapM read = .ok values)
    (same : ∀ item ∈ items, ∀ result, read item = .ok result → result = value item) :
    values = items.map value := by
  have pairs := map_m_forall done
  clear done
  induction pairs with
  | nil => rfl
  | cons here _ induction =>
    rw [List.map_cons, same _ List.mem_cons_self _ here,
      induction fun item inside => same item (List.mem_cons_of_mem _ inside)]

theorem map_m_ok {read : Item → Except Error Value} (value : Item → Value)
    (reads : ∀ item ∈ items, read item = .ok (value item)) :
    items.mapM read = .ok (items.map value) := by
  induction items with
  | nil => rfl
  | cons item items induction =>
    rw [List.mapM_cons, reads item List.mem_cons_self,
      induction fun other inside => reads other (List.mem_cons_of_mem _ inside)]
    rfl

theorem map_m_some {read : Item → Option Value} (value : Item → Value)
    (reads : ∀ item ∈ items, read item = some (value item)) :
    items.mapM read = some (items.map value) := by
  induction items with
  | nil => rfl
  | cons item items induction =>
    rw [List.mapM_cons, reads item List.mem_cons_self,
      induction fun other inside => reads other (List.mem_cons_of_mem _ inside)]
    rfl

end Atlaso.Library.Traversals
