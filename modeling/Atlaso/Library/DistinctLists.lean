import Mathlib.Data.List.Nodup

/-!
Lists without repetitions that are built from other lists.
-/

namespace Atlaso.Library.DistinctLists

theorem nodup_flat_map {Item Value Key : Type} {items : List Item} {value : Item → List Value}
    (key : Item → Key) (read : Value → Key) (distinct : (items.map key).Nodup)
    (inner : ∀ item ∈ items, (value item).Nodup)
    (reads : ∀ item ∈ items, ∀ given ∈ value item, read given = key item) :
    (items.flatMap value).Nodup := by
  induction items with
  | nil => exact List.nodup_nil
  | cons item items induction =>
    obtain ⟨fresh, rest⟩ := List.nodup_cons.mp distinct
    rw [List.flatMap_cons, List.nodup_append]
    refine ⟨inner item List.mem_cons_self, induction rest
      (fun other inside => inner other (List.mem_cons_of_mem _ inside))
      fun other inside => reads other (List.mem_cons_of_mem _ inside), ?_⟩
    rintro given first _ later rfl
    obtain ⟨other, inside, member⟩ := List.mem_flatMap.mp later
    apply fresh
    rw [← reads item List.mem_cons_self given first,
      reads other (List.mem_cons_of_mem _ inside) given member]
    exact List.mem_map_of_mem inside

theorem chosen_sublist {Item Value : Type} {value : Item → List Value} (choose : Item → Value)
    (items : List Item) (chosen : ∀ item ∈ items, choose item ∈ value item) :
    (items.map choose).Sublist (items.flatMap value) := by
  induction items with
  | nil => exact List.Sublist.refl _
  | cons item items induction =>
    rw [List.map_cons, List.flatMap_cons, ← List.singleton_append]
    exact (List.singleton_sublist.mpr (chosen item List.mem_cons_self)).append
      (induction fun other inside => chosen other (List.mem_cons_of_mem _ inside))

end Atlaso.Library.DistinctLists
