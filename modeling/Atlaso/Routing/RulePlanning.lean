import Atlaso.Library.Outcomes
import Atlaso.Routing.SourceRules
import Mathlib.Data.Finset.Card
import Mathlib.Order.Interval.Finset.Nat

/-!
What `plan_rules` computes: one slot for every source, the slot that it has where it has
one, and the rules of each source at its slot. It succeeds when the existing rules have one
source per slot and one slot per source, and no family has more sources than slots.
-/

namespace Atlaso.Routing.RulePlanning

open Library.JsonText hiding Canonical
open Library Dictionary IpAddress Outcomes SetEdits SourceRules

/-! ### Consistent rules -/

def OwnedSlot (slot : Nat) : Prop := slot % 2 = 0 ∧ priorityStart ≤ slot ∧ slot < priorityEnd

/-- A rule inside the owned range; the guards are at the odd priorities. -/
structure Canonical (rule : Rule) : Prop where
  least : priorityStart ≤ rule.priority
  most : rule.priority < priorityEnd
  parity : rule.priority % 2 = 1 ↔ rule.table = none

structure Aligned (rules : Rule → Prop) : Prop where
  sources : ∀ rule other, rules rule → rules other → rule.family = other.family →
    rule.slot = other.slot → rule.source = other.source
  slots : ∀ rule other, rules rule → rules other → rule.source = other.source →
    rule.slot = other.slot

/-- One rule per priority, one source per slot and one slot per source. -/
structure Consistent (rules : Finset Rule) : Prop where
  canonical : ∀ rule ∈ rules, Canonical rule
  priorities : ∀ rule ∈ rules, ∀ other ∈ rules, rule.family = other.family →
    rule.priority = other.priority → rule = other
  aligned : Aligned (· ∈ rules)

variable {rule : Rule} {allocation : Allocation}

theorem canonical_slot (canonical : Canonical rule) : OwnedSlot rule.slot := by
  obtain ⟨least, most, -⟩ := canonical
  simp only [OwnedSlot, Rule.slot, priorityStart, priorityEnd] at least most ⊢
  omega

theorem aligned_subset {rules fewer : Rule → Prop} (aligned : Aligned rules)
    (subset : ∀ rule, fewer rule → rules rule) : Aligned fewer :=
  ⟨fun rule other inside belongs => aligned.sources rule other (subset _ inside) (subset _ belongs),
    fun rule other inside belongs => aligned.slots rule other (subset _ inside) (subset _ belongs)⟩

theorem consistent_subset {rules fewer : Finset Rule} (consistent : Consistent rules)
    (subset : fewer ⊆ rules) : Consistent fewer :=
  ⟨fun rule inside => consistent.canonical rule (subset inside),
    fun rule inside other belongs =>
      consistent.priorities rule (subset inside) other (subset belongs),
    aligned_subset consistent.aligned fun _ inside => subset inside⟩

/-! ### Native rules that are admitted -/

/-- What `owned_rules` admits for one family. -/
structure Admitted (family : Family) (rules : Finset Rule) : Prop where
  canonical : ∀ rule ∈ rules, Canonical rule
  families : ∀ rule ∈ rules, rule.family = family
  usable : ∀ rule ∈ rules, Usable rule.source
  tables : ∀ rule ∈ rules, rule.table = none ∨ rule.table = some 100 ∨ rule.table = some 200
  priorities : ∀ rule ∈ rules, ∀ other ∈ rules, rule.priority = other.priority → rule = other

theorem usable_address_ok {value : Option Json} {address : Address}
    (parsed : usableAddress value = .ok address) : Usable address := by
  unfold usableAddress at parsed
  split at parsed
  · split_ifs at parsed
    split at parsed
    · cases parsed
    · split_ifs at parsed with usable
      cases parsed
      exact usable
  · cases parsed

variable {members : List (String × Json)} {rest : List Rule}

theorem owned_table_ok {table : Option Nat} (read : ownedTable members = .ok table) :
    table = none ∨ table = some 100 ∨ table = some 200 := by
  unfold ownedTable at read
  simp only at read
  split_ifs at read
  · cases read
    exact .inl rfl
  · cases read
    exact .inr (.inl rfl)
  · cases read
    exact .inr (.inr rfl)

theorem owned_rule_ok {family : Family} {priority : Nat}
    (read : ownedRule family priority members = .ok rule) :
    rule.priority = priority ∧ rule.family = family ∧ Usable rule.source ∧
      (rule.table = none ∨ rule.table = some 100 ∨ rule.table = some 200) := by
  unfold ownedRule at read
  split_ifs at read
  obtain ⟨source, parsed, read⟩ := bind_ok_iff.mp read
  split_ifs at read with wrong
  obtain ⟨table, found, read⟩ := bind_ok_iff.mp read
  cases read
  exact ⟨rfl, not_not.mp fun other => wrong (.inl other), usable_address_ok parsed,
    owned_table_ok found⟩

theorem add_owned_admitted {family : Family} {rules after : Finset Rule}
    {row : Json} (admitted : Admitted family rules)
    (added : addOwned family rules row = .ok after) : Admitted family after := by
  unfold addOwned at added
  split at added
  · split at added
    · rename_i members priority found
      split_ifs at added with outside
      · cases added
        exact admitted
      · push Not at outside
        obtain ⟨rule, read, added⟩ := bind_ok_iff.mp added
        obtain ⟨same, sameFamily, usable, table⟩ := owned_rule_ok read
        by_cases wrong : rule.priority % 2 ≠ (if rule.table.isNone then 1 else 0) ∨
            ∃ other ∈ rules, other.priority = rule.priority
        · rw [if_pos wrong] at added
          cases added
        · rw [if_neg wrong] at added
          cases added
          push Not at wrong
          have canonical : Canonical rule := by
            have parity := wrong.1
            refine ⟨?_, ?_, ?_⟩
            · rw [same]
              simp only [priorityStart] at outside ⊢
              omega
            · rw [same]
              simp only [priorityEnd] at outside ⊢
              omega
            · cases held : rule.table with
              | none =>
                simp only [held, Option.isNone_none, if_true] at parity
                simp [parity]
              | some table =>
                simp only [held, Option.isNone_some, Bool.false_eq_true, if_false] at parity
                simp [parity]
          refine ⟨?_, ?_, ?_, ?_, ?_⟩
          · exact Finset.forall_mem_insert _ _ _ |>.mpr ⟨canonical, admitted.canonical⟩
          · exact Finset.forall_mem_insert _ _ _ |>.mpr ⟨sameFamily, admitted.families⟩
          · exact Finset.forall_mem_insert _ _ _ |>.mpr ⟨usable, admitted.usable⟩
          · exact Finset.forall_mem_insert _ _ _ |>.mpr ⟨table, admitted.tables⟩
          · intro left inLeft right inRight equal
            rcases Finset.mem_insert.mp inLeft with rfl | leftOld
            · rcases Finset.mem_insert.mp inRight with rfl | rightOld
              · rfl
              · exact absurd equal.symm (wrong.2 right rightOld)
            · rcases Finset.mem_insert.mp inRight with rfl | rightOld
              · exact absurd equal (wrong.2 left leftOld)
              · exact admitted.priorities left leftOld right rightOld equal
    · cases added
  · cases added

theorem owned_rules_admitted {rows : Json} {family : Family}
    {rules : Finset Rule} (owned : ownedRules rows family = .ok rules) : Admitted family rules := by
  have loop : ∀ (rows : List Json) (start : Finset Rule),
      Admitted family start → rows.foldlM (addOwned family) start = .ok rules →
        Admitted family rules := by
    intro rows
    induction rows with
    | nil =>
      intro start admitted folded
      cases folded
      exact admitted
    | cons row rows induction =>
      intro start admitted folded
      rw [List.foldlM_cons] at folded
      obtain ⟨middle, first, folded⟩ := bind_ok_iff.mp folded
      exact induction middle (add_owned_admitted admitted first) folded
  unfold ownedRules at owned
  split at owned
  · split_ifs at owned
    exact loop _ ∅ ⟨by simp, by simp, by simp, by simp, by simp⟩ owned
  · cases owned

/-! ### Allocation -/

structure Reads (rules : Rule → Prop) (allocation : Allocation) : Prop where
  slots : ∀ family source slot, getItem (family, source) allocation.slots = some slot ↔
    ∃ rule, rules rule ∧ rule.family = family ∧ rule.source = source ∧ rule.slot = slot
  occupied : ∀ family slot source, getItem (family, slot) allocation.occupied = some source ↔
    ∃ rule, rules rule ∧ rule.family = family ∧ rule.slot = slot ∧ rule.source = source

def Agrees (rules : Rule → Prop) (rule : Rule) : Prop :=
  ∀ other, rules other → (other.source = rule.source → other.slot = rule.slot) ∧
    (other.family = rule.family → other.slot = rule.slot → other.source = rule.source)

theorem allocate_rule_agrees {rules : Rule → Prop} (reads : Reads rules allocation)
    (agrees : Agrees rules rule) :
    ∃ after, allocateRule allocation rule = .ok after ∧
      Reads (fun other => rules other ∨ other = rule) after := by
  have clear : ¬((∃ slot, getItem (rule.family, rule.source) allocation.slots = some slot ∧
      slot ≠ rule.slot) ∨ ∃ source, getItem (rule.family, rule.slot) allocation.occupied =
        some source ∧ source ≠ rule.source) := by
    rintro (⟨slot, found, different⟩ | ⟨source, found, different⟩)
    · obtain ⟨other, belongs, -, sameSource, rfl⟩ := (reads.slots _ _ _).mp found
      exact different ((agrees other belongs).1 sameSource)
    · obtain ⟨other, belongs, family, slot, rfl⟩ := (reads.occupied _ _ _).mp found
      exact different ((agrees other belongs).2 family slot)
  refine ⟨_, if_neg clear, ⟨?_, ?_⟩⟩
  · intro family source slot
    rw [get_item_set_item]
    split_ifs with same
    · cases same
      constructor
      · intro found
        exact ⟨rule, .inr rfl, rfl, rfl, Option.some.inj found⟩
      · rintro ⟨other, belongs | rfl, -, sameSource, rfl⟩
        · rw [(agrees other belongs).1 sameSource]
        · rfl
    · rw [reads.slots]
      constructor
      · rintro ⟨other, belongs, found⟩
        exact ⟨other, .inl belongs, found⟩
      · rintro ⟨other, belongs | rfl, rfl, rfl, found⟩
        · exact ⟨other, belongs, rfl, rfl, found⟩
        · exact absurd rfl same
  · intro family slot source
    rw [get_item_set_item]
    split_ifs with same
    · cases same
      constructor
      · intro found
        exact ⟨rule, .inr rfl, rfl, rfl, Option.some.inj found⟩
      · rintro ⟨other, belongs | rfl, sameFamily, sameSlot, rfl⟩
        · rw [(agrees other belongs).2 sameFamily sameSlot]
        · rfl
    · rw [reads.occupied]
      constructor
      · rintro ⟨other, belongs, found⟩
        exact ⟨other, .inl belongs, found⟩
      · rintro ⟨other, belongs | rfl, rfl, rfl, found⟩
        · exact ⟨other, belongs, rfl, rfl, found⟩
        · exact absurd rfl same

theorem allocate_rule_ok {rules : Rule → Prop} {after : Allocation} (reads : Reads rules allocation)
    (allocated : allocateRule allocation rule = .ok after) :
    Agrees rules rule := by
  unfold allocateRule at allocated
  simp only at allocated
  split_ifs at allocated with ambiguous
  push Not at ambiguous
  intro other belongs
  constructor
  · intro sameSource
    have sameFamily : other.family = rule.family := by rw [Rule.family, Rule.family, sameSource]
    exact ambiguous.1 _ ((reads.slots _ _ _).mpr ⟨other, belongs, sameFamily, sameSource, rfl⟩)
  · intro sameFamily sameSlot
    exact ambiguous.2 _ ((reads.occupied _ _ _).mpr ⟨other, belongs, sameFamily, sameSlot, rfl⟩)

theorem aligned_extend {rules : Rule → Prop} (aligned : Aligned rules)
    (agrees : Agrees rules rule) : Aligned fun other => rules other ∨ other = rule := by
  refine ⟨?_, ?_⟩
  · rintro first second (belongs | rfl) (inside | rfl) family slot
    · exact aligned.sources first second belongs inside family slot
    · exact (agrees first belongs).2 family slot
    · exact ((agrees second inside).2 family.symm slot.symm).symm
    · rfl
  · rintro first second (belongs | rfl) (inside | rfl) source
    · exact aligned.slots first second belongs inside source
    · exact (agrees first belongs).1 source
    · exact ((agrees second inside).1 source.symm).symm
    · rfl

theorem aligned_agrees {rules more : Rule → Prop} (aligned : Aligned more)
    (subset : ∀ other, rules other → more other) (inside : more rule) : Agrees rules rule :=
  fun other belongs => ⟨aligned.slots other rule (subset other belongs) inside,
    aligned.sources other rule (subset other belongs) inside⟩

theorem fold_allocate_ok {rules : Rule → Prop} {start after : Allocation} (aligned : Aligned rules)
    (reads : Reads rules start) (folded : rest.foldlM allocateRule start = .ok after) :
    Aligned (fun rule => rules rule ∨ rule ∈ rest) ∧
      Reads (fun rule => rules rule ∨ rule ∈ rest) after := by
  induction rest generalizing rules start with
  | nil =>
    cases folded
    simpa using And.intro aligned reads
  | cons rule rest induction =>
    rw [List.foldlM_cons] at folded
    obtain ⟨middle, first, folded⟩ := bind_ok_iff.mp folded
    have agrees := allocate_rule_ok reads first
    obtain ⟨other, same, readsMiddle⟩ := allocate_rule_agrees reads agrees
    rw [first] at same
    cases same
    simpa only [or_assoc, ← List.mem_cons] using
      induction (aligned_extend aligned agrees) readsMiddle folded

theorem fold_allocate_aligned {rules : Rule → Prop} {start : Allocation}
    (aligned : Aligned fun rule => rules rule ∨ rule ∈ rest) (reads : Reads rules start) :
    ∃ after, rest.foldlM allocateRule start = .ok after := by
  induction rest generalizing rules start with
  | nil => exact ⟨start, rfl⟩
  | cons rule rest induction =>
    have agrees := aligned_agrees aligned (fun _ belongs => .inl belongs)
      (.inr List.mem_cons_self : rules rule ∨ rule ∈ rule :: rest)
    obtain ⟨middle, first, readsMiddle⟩ := allocate_rule_agrees reads agrees
    obtain ⟨after, folded⟩ := induction
      (by simpa only [or_assoc, ← List.mem_cons] using aligned) readsMiddle
    refine ⟨after, ?_⟩
    rw [List.foldlM_cons, first]
    exact folded

theorem reads_nothing : Reads (fun _ => False) ⟨[], []⟩ := by
  constructor <;> simp [getItem]

theorem aligned_nothing : Aligned fun _ => False := by
  constructor <;> simp

theorem allocate_ok {existing : Finset Rule} (allocated : allocate existing = .ok allocation) :
    Aligned (· ∈ existing) ∧ Reads (· ∈ existing) allocation := by
  have folded := fold_allocate_ok aligned_nothing reads_nothing allocated
  simpa using folded

theorem allocate_aligned {existing : Finset Rule} (aligned : Aligned (· ∈ existing)) :
    ∃ allocation, allocate existing = .ok allocation :=
  fold_allocate_aligned (by simpa using aligned) reads_nothing

/-! ### Slots -/

theorem mem_slot_order {start slot : Nat} : slot ∈ slotOrder start ↔ OwnedSlot slot := by
  simp only [slotOrder, List.mem_map, List.mem_range, OwnedSlot, capacity, priorityStart,
    priorityEnd]
  constructor
  · rintro ⟨step, bound, rfl⟩
    have small := Nat.mod_lt (start + step) (show 0 < (6000 - 5000) / 2 by decide)
    omega
  · rintro ⟨even, least, most⟩
    refine ⟨((slot - 5000) / 2 + (500 - start % 500)) % 500, Nat.mod_lt _ (by decide), ?_⟩
    have shifted : (start + ((slot - 5000) / 2 + (500 - start % 500)) % 500) % 500 =
        (slot - 5000) / 2 := by omega
    rw [show (6000 - 5000) / 2 = 500 from rfl, shifted]
    omega

theorem new_slot_some {sha256 : List UInt8 → List UInt8} {wanted : List Address}
    {occupied : List ((Family × Nat) × Address)} {source : Address} {slot : Nat}
    (found : newSlot sha256 wanted occupied source = some slot) :
    OwnedSlot slot ∧ ∀ holder, getItem (source.family, slot) occupied = some holder →
      holder ∉ wanted := by
  unfold newSlot at found
  simp only at found
  split at found
  · rename_i free search
    cases found
    refine ⟨mem_slot_order.mp (List.mem_of_find?_eq_some search), ?_⟩
    have empty := List.find?_some search
    intro holder held
    simp [held] at empty
  · have chosen := List.find?_some found
    refine ⟨mem_slot_order.mp (List.mem_of_find?_eq_some found), ?_⟩
    intro holder held
    simpa [held] using chosen

theorem new_slot_none {sha256 : List UInt8 → List UInt8} {wanted : List Address}
    {occupied : List ((Family × Nat) × Address)} {source : Address}
    (absent : newSlot sha256 wanted occupied source = none) {slot : Nat} (owned : OwnedSlot slot) :
    ∃ holder ∈ wanted, getItem (source.family, slot) occupied = some holder := by
  unfold newSlot at absent
  simp only at absent
  split at absent
  · cases absent
  · have refused := List.find?_eq_none.mp absent slot (mem_slot_order.mpr owned)
    cases held : getItem (source.family, slot) occupied with
    | none => simp [held] at refused
    | some holder => exact ⟨holder, by simpa [held] using refused, rfl⟩

/-! ### The plan -/

/-- The plan gives each source its own slot, the one that it has already where it has one,
and holds the rules of each source at its slot. -/
structure Plan (sources : SourceMap) (existing desired : Finset Rule) (place : Address → Nat) :
    Prop where
  rules : ∀ rule, rule ∈ desired ↔
    ∃ pair ∈ sources.pairs, rule ∈ sourceRules (place pair.1) pair.1 pair.2
  owned : ∀ source ∈ sources.sources, OwnedSlot (place source)
  injective : ∀ left ∈ sources.sources, ∀ right ∈ sources.sources, left.family = right.family →
    place left = place right → left = right
  kept : ∀ rule ∈ existing, rule.source ∈ sources.sources → place rule.source = rule.slot

section Loop

variable {sha256 : List UInt8 → List UInt8} {wanted : List Address}
  {slots : List ((Family × Address) × Nat)} {done : List (Address × Option Nat)}
  {occupied : List ((Family × Nat) × Address)} {desired : Finset Rule} {place : Address → Nat}

/-- The invariant of the loop over the sources. `held` makes the slots of the planned
sources distinct, and `live` keeps the slots of the wanted sources that are still to come. -/
structure Placed (wanted : List Address) (slots : List ((Family × Address) × Nat))
    (done : List (Address × Option Nat)) (occupied : List ((Family × Nat) × Address))
    (desired : Finset Rule) (place : Address → Nat) : Prop where
  rules : ∀ rule, rule ∈ desired ↔ ∃ pair ∈ done, rule ∈ sourceRules (place pair.1) pair.1 pair.2
  owned : ∀ pair ∈ done, OwnedSlot (place pair.1)
  kept : ∀ pair ∈ done, ∀ slot, getItem (pair.1.family, pair.1) slots = some slot →
    place pair.1 = slot
  held : ∀ pair ∈ done, getItem (pair.1.family, place pair.1) occupied = some pair.1
  live : ∀ source ∈ wanted, ∀ slot, getItem (source.family, source) slots = some slot →
    getItem (source.family, slot) occupied = some source
  origin : ∀ family slot holder, getItem (family, slot) occupied = some holder →
    holder.family = family ∧ ((holder ∈ done.map Prod.fst ∧ place holder = slot) ∨
      getItem (family, holder) slots = some slot)

variable {pair : Address × Option Nat}

section

variable (placed : Placed wanted slots done occupied desired place)
include placed

theorem placed_extend (fresh : pair.1 ∉ done.map Prod.fst) {slot : Nat}
    {after : List ((Family × Nat) × Address)} (owned : OwnedSlot slot)
    (kept : ∀ other, getItem (pair.1.family, pair.1) slots = some other → slot = other)
    (held : getItem (pair.1.family, slot) after = some pair.1)
    (heldStill : ∀ other ∈ done, getItem (other.1.family, place other.1) after = some other.1)
    (liveStill : ∀ source ∈ wanted, ∀ slot, getItem (source.family, source) slots = some slot →
      getItem (source.family, slot) after = some source)
    (originStill : ∀ family place holder, getItem (family, place) after = some holder → (family =
      pair.1.family ∧ place = slot ∧ holder = pair.1) ∨ getItem (family, place) occupied = some
      holder) :
    Placed wanted slots (done ++ [pair]) after (desired ∪ sourceRules slot pair.1 pair.2)
      (Function.update place pair.1 slot) := by
  have others : ∀ other ∈ done, Function.update place pair.1 slot other.1 = place other.1 := by
    intro other inside
    refine Function.update_of_ne ?_ _ _
    rintro same
    exact fresh (List.mem_map.mpr ⟨other, inside, same⟩)
  have itself : Function.update place pair.1 slot pair.1 = slot := Function.update_self _ _ _
  refine ⟨?_, ?_, ?_, ?_, liveStill, ?_⟩
  · intro rule
    rw [Finset.mem_union, placed.rules]
    constructor
    · rintro (⟨other, inside, belongs⟩ | belongs)
      · refine ⟨other, List.mem_append_left _ inside, ?_⟩
        rwa [others other inside]
      · refine ⟨pair, List.mem_append_right _ (List.mem_singleton.mpr rfl), ?_⟩
        rwa [itself]
    · rintro ⟨other, inside, belongs⟩
      rcases List.mem_append.mp inside with before | last
      · rw [others other before] at belongs
        exact .inl ⟨other, before, belongs⟩
      · rw [List.mem_singleton.mp last, itself] at belongs
        exact .inr belongs
  · intro other inside
    rcases List.mem_append.mp inside with before | last
    · rw [others other before]
      exact placed.owned other before
    · rw [List.mem_singleton.mp last, itself]
      exact owned
  · intro other inside
    rcases List.mem_append.mp inside with before | last
    · rw [others other before]
      exact placed.kept other before
    · rw [List.mem_singleton.mp last, itself]
      exact kept
  · intro other inside
    rcases List.mem_append.mp inside with before | last
    · rw [others other before]
      exact heldStill other before
    · rw [List.mem_singleton.mp last, itself]
      exact held
  · intro family position holder found
    rcases originStill family position holder found with ⟨rfl, rfl, rfl⟩ | earlier
    · exact ⟨rfl, .inl ⟨by simp, itself⟩⟩
    · obtain ⟨sameFamily, ⟨inside, position⟩ | before⟩ := placed.origin _ _ _ earlier
      · refine ⟨sameFamily, .inl ⟨?_, ?_⟩⟩
        · rw [List.map_append]
          exact List.mem_append_left _ inside
        · obtain ⟨other, belongs, rfl⟩ := List.mem_map.mp inside
          rwa [others other belongs]
      · exact ⟨sameFamily, .inr before⟩

/-- One step of the loop keeps the invariant. -/
theorem plan_source_placed (fresh : pair.1 ∉ done.map Prod.fst) (wants : pair.1 ∈ wanted)
    (doneWanted : ∀ other ∈ done, other.1 ∈ wanted)
    (ranged : ∀ source slot, getItem (source.family, source) slots = some slot → OwnedSlot slot)
    {after : List ((Family × Nat) × Address) × Finset Rule}
    (planned : planSource sha256 wanted slots (occupied, desired) pair = .ok after) :
    ∃ later, Placed wanted slots (done ++ [pair]) after.1 after.2 later := by
  unfold planSource at planned
  simp only at planned
  cases known : getItem (pair.1.family, pair.1) slots with
  | some slot =>
    simp only [known] at planned
    cases planned
    refine ⟨_, placed_extend placed fresh (ranged _ _ known) ?_ (placed.live _ wants _ known)
      placed.held placed.live fun _ _ _ found => .inr found⟩
    intro other found
    rw [known] at found
    exact Option.some.inj found
  | none =>
    simp only [known] at planned
    cases chosen : newSlot sha256 wanted occupied pair.1 with
    | none =>
      simp only [chosen] at planned
      cases planned
    | some slot =>
      simp only [chosen] at planned
      cases planned
      obtain ⟨owned, free⟩ := new_slot_some chosen
      -- A wanted source that holds a slot does not hold the new one.
      have apart : ∀ source ∈ wanted, ∀ position,
          getItem (source.family, position) occupied = some source →
            (source.family, position) ≠ (pair.1.family, slot) := by
        intro source wantedSource position holds same
        rw [same] at holds
        exact free source holds wantedSource
      refine ⟨_, placed_extend placed fresh owned ?_ ?_ ?_ ?_ ?_⟩
      · intro other found
        rw [known] at found
        cases found
      · rw [get_item_set_item, if_pos rfl]
      · intro other inside
        rw [get_item_set_item, if_neg]
        · exact placed.held other inside
        · exact apart _ (doneWanted other inside) _ (placed.held other inside)
      · intro source wantedSource position found
        rw [get_item_set_item, if_neg]
        · exact placed.live source wantedSource position found
        · exact apart source wantedSource position (placed.live source wantedSource _ found)
      · intro family position holder found
        rw [get_item_set_item] at found
        split_ifs at found with same
        · cases same
          exact .inl ⟨rfl, rfl, (Option.some.inj found).symm⟩
        · exact .inr found

theorem plan_source_succeeds (fresh : pair.1 ∉ done.map Prod.fst) (wants : pair.1 ∈ wanted)
    (distinct : wanted.Nodup)
    (room : (wanted.filter fun source => source.family = pair.1.family).length ≤ capacity) :
    ∃ after, planSource sha256 wanted slots (occupied, desired) pair = .ok after := by
  unfold planSource
  cases known : getItem (pair.1.family, pair.1) slots with
  | some slot => exact ⟨_, rfl⟩
  | none =>
    cases chosen : newSlot sha256 wanted occupied pair.1 with
    | some slot => exact ⟨_, rfl⟩
    | none =>
      exfalso
      have holders : ∀ index : Fin 500, ∃ holder ∈ wanted,
          getItem (pair.1.family, priorityStart + 2 * index.val) occupied = some holder :=
        fun index => new_slot_none chosen (by
          have bound := index.isLt
          simp only [OwnedSlot, priorityStart, priorityEnd]
          omega)
      choose holder wantedHolder holds using holders
      have position : ∀ left right, holder left = holder right → left = right := by
        intro left right same
        have first := placed.origin _ _ _ (holds left)
        have second := placed.origin _ _ _ (holds right)
        have equal : priorityStart + 2 * left.val = priorityStart + 2 * right.val := by
          rw [same] at first
          obtain ⟨family, ⟨inside, here⟩ | before⟩ := first
          · obtain ⟨other, belongs, same⟩ := List.mem_map.mp inside
            rcases second.2 with ⟨-, there⟩ | after
            · rw [← here, ← there]
            · rw [← here, ← same]
              refine placed.kept other belongs _ ?_
              rw [same, family]
              exact after
          · rcases second.2 with ⟨inside, there⟩ | after
            · obtain ⟨other, belongs, same⟩ := List.mem_map.mp inside
              rw [← there, ← same]
              refine (placed.kept other belongs _ ?_).symm
              rw [same, family]
              exact before
            · rw [before] at after
              exact Option.some.inj after
        exact Fin.ext (by omega)
      have elsewhere : ∀ index, holder index ≠ pair.1 := by
        intro index same
        obtain ⟨-, ⟨inside, -⟩ | before⟩ := placed.origin _ _ _ (holds index)
        · rw [same] at inside
          exact fresh inside
        · rw [same, known] at before
          cases before
      have image : Finset.univ.image holder ⊆
          ((wanted.filter fun source => source.family = pair.1.family).toFinset).erase pair.1 := by
        intro source belongs
        obtain ⟨index, -, rfl⟩ := Finset.mem_image.mp belongs
        refine Finset.mem_erase.mpr ⟨elsewhere index, List.mem_toFinset.mpr ?_⟩
        exact List.mem_filter.mpr ⟨wantedHolder index,
          decide_eq_true (placed.origin _ _ _ (holds index)).1⟩
      have count := Finset.card_le_card image
      have itself : pair.1 ∈
          (wanted.filter fun source => source.family = pair.1.family).toFinset :=
        List.mem_toFinset.mpr (List.mem_filter.mpr ⟨wants, decide_eq_true rfl⟩)
      rw [Finset.card_image_of_injective _ fun _ _ => position _ _, Finset.card_univ,
        Fintype.card_fin, Finset.card_erase_of_mem itself,
        List.toFinset_card_of_nodup (distinct.filter _)] at count
      have limit : capacity = 500 := rfl
      omega

variable {rest : List (Address × Option Nat)}

theorem fold_plan_placed (distinct : ((done ++ rest).map Prod.fst).Nodup)
    (wants : ∀ pair ∈ done ++ rest, pair.1 ∈ wanted)
    (ranged : ∀ source slot, getItem (source.family, source) slots = some slot → OwnedSlot slot)
    {after : List ((Family × Nat) × Address) × Finset Rule}
    (folded : rest.foldlM (planSource sha256 wanted slots) (occupied, desired) = .ok after) :
    ∃ later, Placed wanted slots (done ++ rest) after.1 after.2 later := by
  induction rest generalizing done occupied desired place with
  | nil =>
    cases folded
    rw [List.append_nil]
    exact ⟨place, placed⟩
  | cons pair rest induction =>
    rw [List.foldlM_cons] at folded
    obtain ⟨middle, first, folded⟩ := bind_ok_iff.mp folded
    obtain ⟨later, placedMiddle⟩ := plan_source_placed placed (by
      rw [List.map_append, List.map_cons, List.nodup_append] at distinct
      intro inside
      exact distinct.2.2 _ inside _ List.mem_cons_self rfl) (wants pair (by simp))
      (fun other inside => wants other (List.mem_append_left _ inside)) ranged first
    have whole : done ++ pair :: rest = (done ++ [pair]) ++ rest := by simp
    rw [whole] at distinct wants ⊢
    exact induction placedMiddle distinct wants folded

theorem fold_plan_succeeds (distinct : ((done ++ rest).map Prod.fst).Nodup)
    (wants : ∀ pair ∈ done ++ rest, pair.1 ∈ wanted) (wantedDistinct : wanted.Nodup)
    (ranged : ∀ source slot, getItem (source.family, source) slots = some slot → OwnedSlot slot)
    (room : ∀ family, (wanted.filter fun source => source.family = family).length ≤ capacity) :
    ∃ after, rest.foldlM (planSource sha256 wanted slots) (occupied, desired) = .ok after := by
  induction rest generalizing done occupied desired place with
  | nil => exact ⟨_, rfl⟩
  | cons pair rest induction =>
    have fresh : pair.1 ∉ done.map Prod.fst := by
      rw [List.map_append, List.map_cons, List.nodup_append] at distinct
      intro inside
      exact distinct.2.2 _ inside _ List.mem_cons_self rfl
    obtain ⟨⟨nextOccupied, nextDesired⟩, first⟩ :
        ∃ after, planSource sha256 wanted slots (occupied, desired) pair = .ok after :=
      plan_source_succeeds placed fresh (wants pair (by simp)) wantedDistinct (room _)
    obtain ⟨later, placedMiddle⟩ := plan_source_placed placed fresh (wants pair (by simp))
      (fun other inside => wants other (List.mem_append_left _ inside)) ranged first
    have whole : done ++ pair :: rest = (done ++ [pair]) ++ rest := by simp
    rw [whole] at distinct wants
    obtain ⟨after, folded⟩ := induction placedMiddle distinct wants
    refine ⟨after, ?_⟩
    rw [List.foldlM_cons, first]
    exact folded

end

end Loop

section Whole

variable {sha256 : List UInt8 → List UInt8} {sources : SourceMap} {existing desired : Finset Rule}

theorem source_order_perm (sources : SourceMap) :
    (sources.pairs.insertionSort fun left right => left.1.text ≤ right.1.text).Perm
      sources.pairs :=
  List.perm_insertionSort _ _

theorem source_order_distinct (sources : SourceMap) :
    ((sources.pairs.insertionSort fun left right => left.1.text ≤ right.1.text).map
      Prod.fst).Nodup :=
  ((source_order_perm sources).map Prod.fst).nodup_iff.mpr sources.distinct

theorem placed_start {allocation : Allocation}
    (reads : Reads (· ∈ existing) allocation) (wanted : List Address) (place : Address → Nat) :
    Placed wanted allocation.slots [] allocation.occupied ∅ place := by
  refine ⟨by simp, by simp, by simp, by simp, ?_, ?_⟩
  · intro source _ slot found
    obtain ⟨rule, inside, -, rfl, rfl⟩ := (reads.slots _ _ _).mp found
    exact (reads.occupied _ _ _).mpr ⟨rule, inside, rfl, rfl, rfl⟩
  · intro family slot holder found
    obtain ⟨rule, inside, rfl, rfl, rfl⟩ := (reads.occupied _ _ _).mp found
    exact ⟨rfl, .inr ((reads.slots _ _ _).mpr ⟨rule, inside, rfl, rfl, rfl⟩)⟩

theorem slots_ranged {allocation : Allocation} (canonical : ∀ rule ∈ existing, Canonical rule)
    (reads : Reads (· ∈ existing) allocation) (source : Address) (slot : Nat)
    (found : getItem (source.family, source) allocation.slots = some slot) : OwnedSlot slot := by
  obtain ⟨rule, inside, -, -, rfl⟩ := (reads.slots _ _ _).mp found
  exact canonical_slot (canonical rule inside)

theorem plan_rules_ok (canonical : ∀ rule ∈ existing, Canonical rule)
    (planned : planRules sha256 sources existing = .ok desired) :
    Aligned (· ∈ existing) ∧ ∃ place, Plan sources existing desired place := by
  unfold planRules at planned
  obtain ⟨allocation, allocated, planned⟩ := bind_ok_iff.mp planned
  obtain ⟨after, folded, result⟩ := bind_ok_iff.mp planned
  cases result
  obtain ⟨aligned, reads⟩ := allocate_ok allocated
  have order := source_order_perm sources
  obtain ⟨place, placed⟩ := fold_plan_placed
    (placed_start reads sources.sources fun _ => 0) (source_order_distinct sources)
    (fun pair inside => List.mem_map.mpr ⟨pair, order.mem_iff.mp inside, rfl⟩)
    (slots_ranged canonical reads) folded
  rw [List.nil_append] at placed
  have each : ∀ source ∈ sources.sources, ∃ pair ∈ sources.pairs.insertionSort
      (fun left right => left.1.text ≤ right.1.text), pair.1 = source := by
    intro source inside
    obtain ⟨pair, belongs, rfl⟩ := List.mem_map.mp inside
    exact ⟨pair, order.mem_iff.mpr belongs, rfl⟩
  refine ⟨aligned, place, ⟨?_, ?_, ?_, ?_⟩⟩
  · intro rule
    rw [placed.rules]
    constructor
    · rintro ⟨pair, inside, belongs⟩
      exact ⟨pair, order.mem_iff.mp inside, belongs⟩
    · rintro ⟨pair, inside, belongs⟩
      exact ⟨pair, order.mem_iff.mpr inside, belongs⟩
  · intro source inside
    obtain ⟨pair, belongs, rfl⟩ := each source inside
    exact placed.owned pair belongs
  · intro left inLeft right inRight family same
    obtain ⟨first, firstIn, rfl⟩ := each left inLeft
    obtain ⟨second, secondIn, rfl⟩ := each right inRight
    have firstHeld := placed.held first firstIn
    rw [family, same, placed.held second secondIn] at firstHeld
    exact (Option.some.inj firstHeld).symm
  · intro rule inside wanted
    obtain ⟨pair, belongs, same⟩ := each rule.source wanted
    rw [← same]
    refine placed.kept pair belongs _ ((reads.slots _ _ _).mpr ⟨rule, inside, ?_, same.symm, rfl⟩)
    rw [Rule.family, same]

theorem plan_room {place : Address → Nat} (plan : Plan sources existing desired place)
    (family : Family) :
    (sources.sources.filter fun source => source.family = family).length ≤ capacity := by
  have members : ∀ source ∈ (sources.sources.filter fun source =>
      source.family = family).toFinset, source ∈ sources.sources ∧ source.family = family := by
    intro source inside
    have found := List.mem_filter.mp (List.mem_toFinset.mp inside)
    exact ⟨found.1, of_decide_eq_true found.2⟩
  have image : ∀ source ∈ (sources.sources.filter fun source => source.family = family).toFinset,
      (place source - priorityStart) / 2 ∈ Finset.range capacity := by
    intro source inside
    obtain ⟨-, least, most⟩ := plan.owned source (members source inside).1
    simp only [Finset.mem_range, capacity, priorityStart, priorityEnd] at least most ⊢
    omega
  have distinct : sources.sources.Nodup := sources.distinct
  have count := Finset.card_le_card_of_injOn _ image ?_
  · rwa [Finset.card_range, List.toFinset_card_of_nodup (distinct.filter _)] at count
  · intro left inLeft right inRight same
    obtain ⟨leftIn, leftFamily⟩ := members left inLeft
    obtain ⟨rightIn, rightFamily⟩ := members right inRight
    obtain ⟨leftEven, leftLeast, -⟩ := plan.owned left leftIn
    obtain ⟨rightEven, rightLeast, -⟩ := plan.owned right rightIn
    refine plan.injective left leftIn right rightIn (leftFamily.trans rightFamily.symm) ?_
    simp only at same
    simp only [priorityStart] at leftLeast rightLeast same
    omega

theorem plan_rules_succeeds (canonical : ∀ rule ∈ existing, Canonical rule)
    (aligned : Aligned (· ∈ existing))
    (room : ∀ family, (sources.sources.filter fun source => source.family = family).length ≤
      capacity) :
    ∃ desired, planRules sha256 sources existing = .ok desired := by
  obtain ⟨allocation, allocated⟩ := allocate_aligned aligned
  have reads := (allocate_ok allocated).2
  have order := source_order_perm sources
  obtain ⟨after, folded⟩ : ∃ after, (sources.pairs.insertionSort fun left right =>
      left.1.text ≤ right.1.text).foldlM (planSource sha256 sources.sources allocation.slots)
        (allocation.occupied, ∅) = .ok after := fold_plan_succeeds
    (placed_start reads sources.sources fun _ => 0) (source_order_distinct sources)
    (fun pair inside => List.mem_map.mpr ⟨pair, order.mem_iff.mp inside, rfl⟩)
    sources.distinct (slots_ranged canonical reads) room
  refine ⟨after.2, ?_⟩
  rw [planRules, allocated]
  simp only [ok_bind, folded]

end Whole

end Atlaso.Routing.RulePlanning
