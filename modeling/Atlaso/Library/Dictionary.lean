import Mathlib.Algebra.GroupWithZero.Nat
import Mathlib.Data.List.Induction
import Mathlib.Data.List.Nodup

/-!
Insertion-ordered dictionaries as association lists.

Setting a key that is present keeps its position and replaces its value; a new key
goes to the end.
-/

namespace Atlaso.Library.Dictionary

variable {Key Value : Type} [DecidableEq Key]

def setItem (key : Key) (value : Value) : List (Key × Value) → List (Key × Value)
  | [] => [(key, value)]
  | (other, old) :: items =>
    if other = key then (key, value) :: items else (other, old) :: setItem key value items

def ofPairs (pairs : List (Key × Value)) : List (Key × Value) :=
  pairs.foldl (fun items pair => setItem pair.1 pair.2 items) []

def getItem (key : Key) : List (Key × Value) → Option Value
  | [] => none
  | (other, value) :: items => if other = key then some value else getItem key items

section

-- generates the equations of the operations before the proofs that share them
attribute [local simp] setItem getItem ofPairs

end

theorem set_item_new (key : Key) (value : Value) (items : List (Key × Value))
    (absent : key ∉ items.map Prod.fst) : setItem key value items = items ++ [(key, value)] := by
  induction items with
  | nil => rfl
  | cons item items induction =>
    obtain ⟨other, old⟩ := item
    simp only [List.map_cons, List.mem_cons, not_or] at absent
    rw [setItem, if_neg (Ne.symm absent.1), induction absent.2]
    rfl

theorem get_item_set_item (key other : Key) (value : Value) (items : List (Key × Value)) :
    getItem other (setItem key value items) = if other = key then some value else getItem other items := by
  induction items with
  | nil =>
    by_cases same : other = key
    · simp [setItem, getItem, same]
    · simp [setItem, getItem, same, Ne.symm same]
  | cons item items induction =>
    obtain ⟨first, old⟩ := item
    by_cases found : first = key
    · subst found
      by_cases same : other = first
      · simp [setItem, getItem, same]
      · simp [setItem, getItem, same, Ne.symm same]
    · by_cases same : other = first
      · subst same
        simp [setItem, getItem, found]
      · simp [setItem, getItem, found, induction, Ne.symm same]

theorem set_item_again (key : Key) (first second : Value) (items : List (Key × Value)) :
    setItem key second (setItem key first items) = setItem key second items := by
  induction items with
  | nil => simp [setItem]
  | cons item items induction =>
    obtain ⟨other, old⟩ := item
    by_cases found : other = key
    · simp [setItem, found]
    · simp [setItem, found, induction]

theorem mem_keys_set_item (key other : Key) (value : Value) (items : List (Key × Value)) :
    other ∈ (setItem key value items).map Prod.fst ↔ other = key ∨ other ∈ items.map Prod.fst := by
  induction items with
  | nil => simp [setItem]
  | cons item items induction =>
    obtain ⟨first, old⟩ := item
    by_cases found : first = key
    · subst found
      simp [setItem]
    · simp only [setItem, if_neg found, List.map_cons, List.mem_cons, induction]
      tauto

variable {items pairs : List (Key × Value)}

theorem set_item_distinct (key : Key) (value : Value) (distinct : (items.map Prod.fst).Nodup) :
    ((setItem key value items).map Prod.fst).Nodup := by
  induction items with
  | nil => simp [setItem]
  | cons item items induction =>
    obtain ⟨first, old⟩ := item
    obtain ⟨fresh, distinct⟩ := List.nodup_cons.mp distinct
    by_cases found : first = key
    · subst found
      rw [setItem, if_pos rfl]
      exact List.nodup_cons.mpr ⟨fresh, distinct⟩
    · rw [setItem, if_neg found]
      refine List.nodup_cons.mpr ⟨?_, induction distinct⟩
      intro member
      rcases (mem_keys_set_item key first value items).mp member with same | present
      · exact found same
      · exact fresh present

/-- An entry after setting a key is the new one or an old one. -/
theorem mem_set_item {key : Key} {value : Value} {pair : Key × Value}
    (inside : pair ∈ setItem key value items) : pair = (key, value) ∨ pair ∈ items := by
  induction items with
  | nil => exact .inl (List.mem_singleton.mp inside)
  | cons item items induction =>
    obtain ⟨first, old⟩ := item
    by_cases found : first = key
    · rw [setItem, if_pos found] at inside
      rcases List.mem_cons.mp inside with new | kept
      · exact .inl new
      · exact .inr (List.mem_cons_of_mem _ kept)
    · rw [setItem, if_neg found] at inside
      rcases List.mem_cons.mp inside with same | later
      · exact .inr (same ▸ List.mem_cons_self)
      · exact (induction later).imp_right (List.mem_cons_of_mem _)

theorem mem_of_get_item {key : Key} {value : Value} (found : getItem key items = some value) :
    (key, value) ∈ items := by
  induction items with
  | nil => cases found
  | cons item items induction =>
    obtain ⟨first, old⟩ := item
    by_cases same : first = key
    · rw [getItem, if_pos same] at found
      obtain rfl := Option.some.inj found
      exact same ▸ List.mem_cons_self
    · rw [getItem, if_neg same] at found
      exact List.mem_cons_of_mem _ (induction found)

theorem get_item_iff (distinct : (items.map Prod.fst).Nodup) {key : Key} {value : Value} :
    getItem key items = some value ↔ (key, value) ∈ items := by
  refine ⟨mem_of_get_item, fun inside => ?_⟩
  induction items with
  | nil => cases inside
  | cons item items induction =>
    obtain ⟨first, old⟩ := item
    obtain ⟨fresh, distinct⟩ := List.nodup_cons.mp distinct
    rcases List.mem_cons.mp inside with same | later
    · obtain ⟨rfl, rfl⟩ := Prod.mk.inj same
      rw [getItem, if_pos rfl]
    · have differs : first ≠ key := by
        rintro rfl
        exact fresh (List.mem_map.mpr ⟨_, later, rfl⟩)
      rw [getItem, if_neg differs, induction distinct later]

theorem set_item_map (distinct : (items.map Prod.fst).Nodup) {key : Key} {old : Value}
    (change : Value → Value) (found : getItem key items = some old) :
    setItem key (change old) items =
      items.map fun entry => (entry.1, if entry.1 = key then change entry.2 else entry.2) := by
  induction items with
  | nil => cases found
  | cons item items induction =>
    obtain ⟨first, value⟩ := item
    obtain ⟨fresh, distinct⟩ := List.nodup_cons.mp distinct
    by_cases same : first = key
    · subst same
      rw [getItem, if_pos rfl] at found
      obtain rfl := Option.some.inj found
      have others : items.map (fun entry =>
          (entry.1, if entry.1 = first then change entry.2 else entry.2)) = items := by
        refine (List.map_congr_left fun entry inside => ?_).trans (List.map_id items)
        have member : entry.1 ∈ items.map Prod.fst := List.mem_map.mpr ⟨entry, inside, rfl⟩
        have differs : entry.1 ≠ first := fun equal => fresh (equal ▸ member)
        rw [if_neg differs]
        rfl
      rw [setItem, if_pos rfl, List.map_cons, if_pos rfl, others]
    · rw [getItem, if_neg same] at found
      rw [setItem, if_neg same, List.map_cons, if_neg same, induction distinct found]

theorem sum_set_item_le (weight : Value → Nat) (key : Key) (value : Value)
    (items : List (Key × Value)) :
    ((setItem key value items).map fun entry => weight entry.2).sum ≤
      (items.map fun entry => weight entry.2).sum + weight value := by
  induction items with
  | nil => simp [setItem]
  | cons item items induction =>
    obtain ⟨first, old⟩ := item
    by_cases same : first = key
    · rw [setItem, if_pos same]
      simp only [List.map_cons, List.sum_cons]
      omega
    · rw [setItem, if_neg same]
      simp only [List.map_cons, List.sum_cons]
      omega

private theorem fold_set_item (pairs items : List (Key × Value))
    (distinct : ((items ++ pairs).map Prod.fst).Nodup) :
    pairs.foldl (fun items pair => setItem pair.1 pair.2 items) items = items ++ pairs := by
  induction pairs generalizing items with
  | nil => simp
  | cons pair pairs induction =>
    have absent : pair.1 ∉ items.map Prod.fst := by
      rw [List.map_append, List.map_cons, List.nodup_append] at distinct
      intro member
      exact distinct.2.2 pair.1 member pair.1 (by simp) rfl
    rw [List.foldl_cons, set_item_new pair.1 pair.2 items absent, induction]
    · simp
    · simpa using distinct

theorem of_pairs_distinct (pairs : List (Key × Value))
    (distinct : (pairs.map Prod.fst).Nodup) : ofPairs pairs = pairs := by
  rw [ofPairs, fold_set_item pairs [] (by simpa using distinct), List.nil_append]

/-! ### Updating with pairs -/

theorem update_distinct (pairs items : List (Key × Value)) (distinct : (items.map Prod.fst).Nodup) :
    ((pairs.foldl (fun items pair => setItem pair.1 pair.2 items) items).map Prod.fst).Nodup := by
  induction pairs generalizing items with
  | nil => exact distinct
  | cons pair pairs induction => exact induction _ (set_item_distinct pair.1 pair.2 distinct)

theorem get_item_update (distinct : (pairs.map Prod.fst).Nodup) (items : List (Key × Value))
    (key : Key) :
    getItem key (pairs.foldl (fun items pair => setItem pair.1 pair.2 items) items) =
      (getItem key pairs).or (getItem key items) := by
  induction pairs generalizing items with
  | nil => rfl
  | cons pair pairs induction =>
    obtain ⟨fresh, distinct⟩ := List.nodup_cons.mp distinct
    rw [List.foldl_cons, induction distinct, get_item_set_item, getItem]
    by_cases same : pair.1 = key
    · have absent : getItem key pairs = none := by
        cases found : getItem key pairs with
        | none => rfl
        | some value =>
          exact absurd (List.mem_map_of_mem (mem_of_get_item found)) (same ▸ fresh)
      rw [absent, if_pos same.symm, if_pos same]
      rfl
    · rw [if_neg (Ne.symm same), if_neg same]

/-! ### What is there -/

theorem get_item_none {key : Key} :
    getItem key items = none ↔ key ∉ items.map Prod.fst := by
  induction items with
  | nil => simp [getItem]
  | cons item items induction =>
    obtain ⟨other, value⟩ := item
    by_cases same : other = key
    · simp [getItem, same]
    · rw [getItem, if_neg same, induction, List.map_cons, List.mem_cons, not_or]
      exact ⟨fun absent => ⟨Ne.symm same, absent⟩, And.right⟩

theorem get_item_append (key : Key) (left right : List (Key × Value)) :
    getItem key (left ++ right) = (getItem key left).or (getItem key right) := by
  induction left with
  | nil => rfl
  | cons item left induction =>
    obtain ⟨other, value⟩ := item
    by_cases same : other = key
    · simp [getItem, same]
    · simp [getItem, same, induction]

/-! ### Dictionaries of pairs -/

theorem of_pairs_append (pairs : List (Key × Value)) (pair : Key × Value) :
    ofPairs (pairs ++ [pair]) = setItem pair.1 pair.2 (ofPairs pairs) := by
  rw [ofPairs, List.foldl_append]
  rfl

theorem mem_of_pairs {entry : Key × Value} (inside : entry ∈ ofPairs pairs) : entry ∈ pairs := by
  induction pairs using List.reverseRecOn with
  | nil => exact inside
  | append_singleton pairs pair induction =>
    rw [of_pairs_append] at inside
    rcases mem_set_item inside with rfl | before
    · exact List.mem_append_right _ (List.mem_singleton.mpr rfl)
    · exact List.mem_append_left _ (induction before)

theorem mem_keys_of_pairs {key : Key} :
    key ∈ (ofPairs pairs).map Prod.fst ↔ key ∈ pairs.map Prod.fst := by
  induction pairs using List.reverseRecOn with
  | nil => exact Iff.rfl
  | append_singleton pairs pair induction =>
    rw [of_pairs_append, mem_keys_set_item, induction, List.map_append, List.mem_append,
      List.map_singleton, List.mem_singleton, or_comm]

theorem get_item_of_pairs
    (functional : ∀ first ∈ pairs, ∀ second ∈ pairs, first.1 = second.1 → first.2 = second.2)
    {key : Key} {value : Value} :
    getItem key (ofPairs pairs) = some value ↔ (key, value) ∈ pairs := by
  induction pairs using List.reverseRecOn generalizing value with
  | nil => simp [ofPairs, getItem]
  | append_singleton pairs pair induction =>
    have earlier := fun value => @induction (fun first inside second member =>
      functional first (List.mem_append_left _ inside) second (List.mem_append_left _ member)) value
    rw [of_pairs_append, get_item_set_item, List.mem_append, List.mem_singleton]
    by_cases same : key = pair.1
    · rw [if_pos same]
      constructor
      · intro found
        right
        rw [same, ← Option.some.inj found]
      · rintro (inside | rfl)
        · have equal := functional _ (List.mem_append_left _ inside) pair (by simp) same
          exact congrArg some equal.symm
        · rfl
    · rw [if_neg same, earlier value]
      constructor
      · exact .inl
      · rintro (inside | rfl)
        · exact inside
        · exact absurd rfl same

theorem get_item_filled {key : Key} {value : Value} (found : getItem key items = some value) :
    items ≠ [] :=
  List.ne_nil_of_mem (mem_of_get_item found)

theorem of_pairs_filled (filled : pairs ≠ []) : ofPairs pairs ≠ [] := by
  obtain ⟨front, last, rfl⟩ := (List.eq_nil_or_concat' pairs).resolve_left filled
  have found : getItem last.1 (ofPairs (front ++ [last])) = some last.2 := by
    rw [of_pairs_append, get_item_set_item, if_pos rfl]
  exact get_item_filled found

end Atlaso.Library.Dictionary
