import Atlaso.Library.Dictionary

/-!
Insertion-ordered dictionaries used as queues of keys: a key is put in at the end, sent to
the end again, and dropped from the front while there are too many.

An order follows a relation when every key is related to the entries before it. Dropping an
entry then says something of at least as many keys as the limit.
-/

namespace Atlaso.Library.RecencyMap

open Dictionary

variable {Key Value : Type} [DecidableEq Key]

def setDefault (key : Key) (value : Value) (items : List (Key × Value)) : List (Key × Value) :=
  match getItem key items with
  | some _ => items
  | none => items ++ [(key, value)]

/-- `items.move_to_end(key)` of a key that is present. -/
def moveToEnd (key : Key) (items : List (Key × Value)) : List (Key × Value) :=
  match getItem key items with
  | some value => (items.filter fun entry => entry.1 ≠ key) ++ [(key, value)]
  | none => items

/-- `while len(items) > limit: items.popitem(last=False)` -/
def shrink (limit : Nat) : List (Key × Value) → List (Key × Value)
  | [] => []
  | first :: items =>
    if limit < (first :: items).length then shrink limit items else first :: items

theorem get_item_without (key other : Key) (items : List (Key × Value)) :
    getItem other (items.filter fun entry => entry.1 ≠ key) =
      if other = key then none else getItem other items := by
  induction items with
  | nil => simp [getItem]
  | cons item items induction =>
    obtain ⟨first, value⟩ := item
    by_cases gone : first = key
    · subst gone
      rw [List.filter_cons_of_neg (by simp), induction]
      by_cases same : other = first
      · rw [if_pos same, if_pos same]
      · rw [if_neg same, if_neg same, getItem, if_neg (Ne.symm same)]
    · rw [List.filter_cons_of_pos (by simpa using gone), getItem, induction, getItem]
      by_cases same : first = other
      · rw [if_pos same, if_pos same, if_neg (same ▸ gone)]
      · rw [if_neg same, if_neg same]

/-! ### What a key is mapped to -/

theorem get_item_set_default (key other : Key) (value : Value) (items : List (Key × Value)) :
    getItem other (setDefault key value items) =
      if other = key then some ((getItem key items).getD value) else getItem other items := by
  rw [setDefault]
  cases found : getItem key items with
  | some old =>
    by_cases same : other = key
    · rw [if_pos same, same, found]
      rfl
    · rw [if_neg same]
  | none =>
    rw [get_item_append]
    by_cases same : other = key
    · rw [if_pos same, same, found]
      simp [getItem]
    · rw [if_neg same]
      simp [getItem, Ne.symm same]

theorem get_item_move_to_end (key other : Key) (items : List (Key × Value)) :
    getItem other (moveToEnd key items) = getItem other items := by
  rw [moveToEnd]
  cases found : getItem key items with
  | none => rfl
  | some value =>
    rw [get_item_append, get_item_without]
    by_cases same : other = key
    · rw [if_pos same, same, found]
      simp [getItem]
    · rw [if_neg same]
      simp [getItem, Ne.symm same]

omit [DecidableEq Key] in
theorem shrink_suffix (limit : Nat) (items : List (Key × Value)) :
    shrink limit items <:+ items := by
  induction items with
  | nil => exact List.suffix_refl []
  | cons first items induction =>
    rw [shrink]
    split
    · exact induction.trans (List.suffix_cons first items)
    · exact List.suffix_refl _

omit [DecidableEq Key] in
theorem shrink_length (limit : Nat) (items : List (Key × Value)) :
    (shrink limit items).length ≤ limit := by
  induction items with
  | nil => exact Nat.zero_le limit
  | cons first items induction =>
    rw [shrink]
    split
    · exact induction
    · next small => exact Nat.le_of_not_lt small

theorem without_set_item (key : Key) (value : Value) (items : List (Key × Value)) :
    ((setItem key value items).filter fun entry => entry.1 ≠ key) =
      items.filter fun entry => entry.1 ≠ key := by
  induction items with
  | nil => simp [setItem]
  | cons item items induction =>
    obtain ⟨first, old⟩ := item
    by_cases same : first = key
    · simp [setItem, same]
    · rw [setItem, if_neg same, List.filter_cons_of_pos (by simpa using same),
        List.filter_cons_of_pos (by simpa using same), induction]

theorem move_to_end_set_item (key : Key) (value : Value) (items : List (Key × Value)) :
    moveToEnd key (setItem key value items) =
      (items.filter fun entry => entry.1 ≠ key) ++ [(key, value)] := by
  have found : getItem key (setItem key value items) = some value := by
    rw [get_item_set_item, if_pos rfl]
  rw [moveToEnd, found]
  dsimp only
  rw [without_set_item]

variable {items : List (Key × Value)}

theorem get_item_shrink (limit : Nat) (distinct : (items.map Prod.fst).Nodup) (key : Key) :
    getItem key (shrink limit items) = getItem key items ∨
      getItem key (shrink limit items) = none ∧
        ∃ value, (key, value) ∈ items ∧ (key, value) ∉ shrink limit items := by
  have suffix := shrink_suffix limit items
  have distinctLeft := distinct.sublist (suffix.sublist.map Prod.fst)
  cases found : getItem key items with
  | none =>
    have absent := get_item_none.mp found
    refine .inl (get_item_none.mpr fun inside => absent ?_)
    exact (suffix.sublist.map Prod.fst).subset inside
  | some value =>
    have inside := mem_of_get_item found
    by_cases stays : (key, value) ∈ shrink limit items
    · exact .inl ((get_item_iff distinctLeft).mpr stays)
    · refine .inr ⟨?_, value, inside, stays⟩
      cases left : getItem key (shrink limit items) with
      | none => rfl
      | some other =>
        have present := mem_of_get_item left
        have same := (get_item_iff distinct).mpr (suffix.subset present)
        rw [found] at same
        exact absurd (Option.some.inj same ▸ present) stays

/-! ### Each key once -/

theorem set_default_distinct (key : Key) (value : Value) (distinct : (items.map Prod.fst).Nodup) :
    ((setDefault key value items).map Prod.fst).Nodup := by
  rw [setDefault]
  cases found : getItem key items with
  | some old => exact distinct
  | none =>
    have absent := get_item_none.mp found
    rw [List.map_append]
    exact distinct.append (List.nodup_singleton key) (by simpa using absent)

theorem without_distinct (key : Key) (distinct : (items.map Prod.fst).Nodup) :
    ((items.filter fun entry => entry.1 ≠ key).map Prod.fst).Nodup :=
  distinct.sublist ((List.filter_sublist).map Prod.fst)

theorem move_to_end_distinct (key : Key) (distinct : (items.map Prod.fst).Nodup) :
    ((moveToEnd key items).map Prod.fst).Nodup := by
  rw [moveToEnd]
  cases found : getItem key items with
  | none => exact distinct
  | some value =>
    rw [List.map_append]
    apply (without_distinct key distinct).append (List.nodup_singleton key)
    simp

omit [DecidableEq Key] in
theorem shrink_distinct (limit : Nat) (distinct : (items.map Prod.fst).Nodup) :
    ((shrink limit items).map Prod.fst).Nodup :=
  distinct.sublist ((shrink_suffix limit items).sublist.map Prod.fst)

/-! ### The order of the keys -/

section Order

variable {follows : Key × Value → Key → Prop}

/-- Every key stands in the relation to the entries before it. -/
def Ordered (follows : Key × Value → Key → Prop) (items : List (Key × Value)) : Prop :=
  items.Pairwise fun entry later => follows entry later.1

variable {items : List (Key × Value)}

omit [DecidableEq Key] in
theorem Ordered.mono {weaker : Key × Value → Key → Prop} (ordered : Ordered follows items)
    (weaken : ∀ entry ∈ items, ∀ key, follows entry key → weaker entry key) :
    Ordered weaker items := by
  refine List.Pairwise.imp_of_mem ?_ ordered
  intro entry later inside _ related
  exact weaken entry inside later.1 related

omit [DecidableEq Key] in
theorem Ordered.append_last (ordered : Ordered follows items) {key : Key} (value : Value)
    (last : ∀ entry ∈ items, follows entry key) :
    Ordered follows (items ++ [(key, value)]) := by
  refine List.pairwise_append.mpr ⟨ordered, List.pairwise_singleton _ _, ?_⟩
  intro entry inside later same
  rw [List.mem_singleton.mp same]
  exact last entry inside

theorem Ordered.set_default (ordered : Ordered follows items) (key : Key) (value : Value)
    (last : ∀ entry ∈ items, follows entry key) :
    Ordered follows (setDefault key value items) := by
  rw [setDefault]
  cases getItem key items with
  | some old => exact ordered
  | none => exact ordered.append_last value last

theorem Ordered.move_to_end (ordered : Ordered follows items) (key : Key)
    (last : ∀ entry ∈ items, follows entry key) :
    Ordered follows (moveToEnd key items) := by
  rw [moveToEnd]
  cases getItem key items with
  | none => exact ordered
  | some value =>
    apply Ordered.append_last (List.Pairwise.filter _ ordered)
    exact fun entry inside => last entry (List.mem_of_mem_filter inside)

theorem Ordered.set_item (ordered : Ordered follows items) {key : Key} {old value : Value}
    (found : getItem key items = some old)
    (keeps : ∀ later, follows (key, old) later → follows (key, value) later) :
    Ordered follows (setItem key value items) := by
  induction items with
  | nil => cases found
  | cons item items induction =>
    obtain ⟨first, current⟩ := item
    obtain ⟨ahead, rest⟩ := List.pairwise_cons.mp ordered
    by_cases same : first = key
    · subst same
      rw [getItem, if_pos rfl] at found
      obtain rfl := Option.some.inj found
      rw [setItem, if_pos rfl]
      exact List.pairwise_cons.mpr
        ⟨fun later inside => keeps later.1 (ahead later inside), rest⟩
    · rw [getItem, if_neg same] at found
      rw [setItem, if_neg same]
      refine List.pairwise_cons.mpr ⟨?_, induction rest found⟩
      intro later inside
      rcases mem_set_item inside with new | present
      · rw [new]
        exact ahead (key, old) (mem_of_get_item found)
      · exact ahead later present

omit [DecidableEq Key] in
theorem Ordered.shrink (ordered : Ordered follows items) (limit : Nat) :
    Ordered follows (shrink limit items) :=
  List.Pairwise.sublist (shrink_suffix limit items).sublist ordered

variable {limit : Nat} {entry : Key × Value}

omit [DecidableEq Key] in
theorem shrink_behind (inside : entry ∈ items) (dropped : entry ∉ RecencyMap.shrink limit items) :
    ∃ front behind, items = front ++ entry :: behind ∧ limit ≤ behind.length := by
  induction items with
  | nil => cases inside
  | cons first items induction =>
    rw [RecencyMap.shrink] at dropped
    split at dropped
    · next large =>
        rcases List.mem_cons.mp inside with same | later
        · subst same
          exact ⟨[], items, rfl, Nat.le_of_lt_succ large⟩
        · obtain ⟨front, behind, split, many⟩ := induction later dropped
          exact ⟨first :: front, behind, by rw [split]; rfl, many⟩
    · exact absurd inside dropped

omit [DecidableEq Key] in
theorem dropped_followed (ordered : Ordered follows items) (distinct : (items.map Prod.fst).Nodup)
    (inside : entry ∈ items) (dropped : entry ∉ RecencyMap.shrink limit items) :
    ∃ keys : List Key, keys.Nodup ∧ limit ≤ keys.length ∧ ∀ key ∈ keys, follows entry key := by
  obtain ⟨front, behind, split, many⟩ := shrink_behind inside dropped
  subst split
  have tail := (List.pairwise_append.mp ordered).2.1
  rw [List.map_append, List.map_cons] at distinct
  refine ⟨behind.map Prod.fst, ?_, by rwa [List.length_map], ?_⟩
  · exact (List.nodup_cons.mp (distinct.sublist (List.sublist_append_right _ _))).2
  · intro key member
    obtain ⟨later, present, rfl⟩ := List.mem_map.mp member
    exact (List.pairwise_cons.mp tail).1 later present

end Order

end Atlaso.Library.RecencyMap
