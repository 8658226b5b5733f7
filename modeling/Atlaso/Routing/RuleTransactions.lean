import Atlaso.Routing.RulePlanning

/-!
The rule transaction of `apply_rules` at every step.

Three sets bound the states it passes through: the existing rules, the rules that remain
with the guards of all, and the rules that remain or are wanted with these guards. Each one
is consistent, and so is each of its subsets. A command is then valid because the state
after it is consistent as well.
-/

namespace Atlaso.Routing.RuleTransactions

open Library IpAddress SetEdits RulePlanning SourceRules

def Admits (state : Finset Rule) : Edit Rule → Prop
  | .add rule => rule ∉ state ∧
      ∀ other ∈ state, other.family = rule.family → other.priority ≠ rule.priority
  | .del rule => rule ∈ state

def Looks (rules : Finset Rule) (source : Address) (table : Nat) : Prop :=
  ∃ rule ∈ rules, rule.source = source ∧ rule.table = some table

def OneLookup (rules : Finset Rule) : Prop :=
  ∀ rule ∈ rules, ∀ other ∈ rules, rule.source = other.source → rule.table ≠ none →
    other.table ≠ none → rule = other

def Guarded (rules : Finset Rule) : Prop :=
  ∀ rule ∈ rules, rule.table ≠ none → Rule.guard rule.slot rule.source ∈ rules

/-- What the rules make of a source: a lookup in a table, or a guard without a lookup. -/
def Assigned (rules : Finset Rule) (source : Address) : Option Nat → Prop
  | some table => Looks rules source table
  | none => (∃ rule ∈ rules, rule.source = source) ∧ ∀ table, ¬Looks rules source table

/-! ### Consistency of unions -/

theorem even_slot {rule : Rule} (even : rule.priority % 2 = 0) : rule.slot = rule.priority := by
  simp only [Rule.slot]
  omega

theorem canonical_priority {rule : Rule} (canonical : Canonical rule) :
    rule.priority = if rule.table = none then rule.slot + 1 else rule.slot := by
  have parity := canonical.parity
  simp only [Rule.slot]
  split_ifs with guard
  · have odd := parity.mpr guard
    omega
  · have even : ¬rule.priority % 2 = 1 := fun odd => guard (parity.mp odd)
    omega

theorem consistent_of_lookups {rules : Finset Rule} (canonical : ∀ rule ∈ rules, Canonical rule)
    (aligned : Aligned (· ∈ rules))
    (lookups : ∀ rule ∈ rules, ∀ other ∈ rules, rule.source = other.source →
      rule.table ≠ none → other.table ≠ none → rule.table = other.table) : Consistent rules := by
  refine ⟨canonical, ?_, aligned⟩
  intro rule inside other belongs family priority
  have slots : rule.slot = other.slot := by rw [Rule.slot, Rule.slot, priority]
  have sources := aligned.sources rule other inside belongs family slots
  have tables : rule.table = other.table := by
    by_cases guard : rule.table = none
    · have odd := (canonical rule inside).parity.mpr guard
      rw [priority] at odd
      rw [guard, (canonical other belongs).parity.mp odd]
    · refine lookups rule inside other belongs sources guard ?_
      intro none
      have odd := (canonical other belongs).parity.mpr none
      rw [← priority] at odd
      exact guard ((canonical rule inside).parity.mp odd)
  obtain ⟨_, _, _⟩ := rule
  obtain ⟨_, _, _⟩ := other
  simp only at priority sources tables
  rw [priority, sources, tables]

theorem consistent_lookups {rules : Finset Rule} (consistent : Consistent rules) :
    OneLookup rules := by
  intro rule inside other belongs source lookup otherLookup
  have family : rule.family = other.family := by rw [Rule.family, Rule.family, source]
  have slot := consistent.aligned.slots rule other inside belongs source
  refine consistent.priorities rule inside other belongs family ?_
  rw [canonical_priority (consistent.canonical rule inside),
    canonical_priority (consistent.canonical other belongs), if_neg lookup, if_neg otherLookup, slot]

theorem aligned_of_base {rules more : Rule → Prop} (aligned : Aligned rules)
    (base : ∀ rule, more rule → ∃ origin, rules origin ∧ origin.source = rule.source ∧
      origin.slot = rule.slot) : Aligned more := by
  refine ⟨?_, ?_⟩
  · intro rule other inside belongs family slot
    obtain ⟨origin, first, source, place⟩ := base rule inside
    obtain ⟨otherOrigin, second, otherSource, otherPlace⟩ := base other belongs
    rw [← source, ← otherSource]
    refine aligned.sources origin otherOrigin first second ?_ (by rw [place, otherPlace, slot])
    simp only [Rule.family] at family ⊢
    rw [source, otherSource, family]
  · intro rule other inside belongs same
    obtain ⟨origin, first, source, place⟩ := base rule inside
    obtain ⟨otherOrigin, second, otherSource, otherPlace⟩ := base other belongs
    rw [← place, ← otherPlace]
    exact aligned.slots origin otherOrigin first second (by rw [source, otherSource, same])

/-! ### Rules of the plan -/

theorem mem_source_rules {rule : Rule} {slot : Nat} {source : Address} {table : Option Nat} :
    rule ∈ sourceRules slot source table ↔
      rule = Rule.guard slot source ∨ ∃ number, table = some number ∧
        rule = Rule.lookup slot source number := by
  cases table with
  | none => simp [sourceRules]
  | some number => simp [sourceRules]

section

variable {slot : Nat} (owned : OwnedSlot slot) (source : Address)
include owned source

theorem guard_slot :
    (Rule.guard slot source).slot = slot := by
  obtain ⟨even, -⟩ := owned
  simp only [Rule.guard, Rule.slot]
  omega

theorem lookup_slot (table : Nat) :
    (Rule.lookup slot source table).slot = slot :=
  even_slot owned.1

theorem guard_canonical :
    Canonical (Rule.guard slot source) := by
  obtain ⟨even, least, most⟩ := owned
  simp only [priorityStart, priorityEnd] at least most
  refine ⟨?_, ?_, fun _ => rfl, fun _ => ?_⟩
  · show 5000 ≤ slot + 1
    omega
  · show slot + 1 < 6000
    omega
  · show (slot + 1) % 2 = 1
    omega

theorem lookup_canonical (table : Nat) :
    Canonical (Rule.lookup slot source table) := by
  obtain ⟨even, least, most⟩ := owned
  refine ⟨least, most, fun odd => ?_, fun none => by cases none⟩
  have parity : slot % 2 = 1 := odd
  omega

end

section Transaction

variable {sources : SourceMap} {existing desired : Finset Rule} {place : Address → Nat}

variable {rule : Rule}

theorem desired_rule (plan : Plan sources existing desired place) (inside : rule ∈ desired) :
    rule.source ∈ sources.sources ∧ rule.slot = place rule.source ∧
      Canonical rule ∧ ∀ table, rule.table = some table → (rule.source, some table) ∈ sources.pairs := by
  obtain ⟨pair, belongs, member⟩ := (plan.rules rule).mp inside
  have wanted : pair.1 ∈ sources.sources := List.mem_map.mpr ⟨pair, belongs, rfl⟩
  have owned := plan.owned pair.1 wanted
  rcases mem_source_rules.mp member with rfl | ⟨number, table, rfl⟩
  · exact ⟨wanted, guard_slot owned _, guard_canonical owned _, fun _ found => by cases found⟩
  · refine ⟨wanted, lookup_slot owned _ _, lookup_canonical owned _ _, ?_⟩
    intro other found
    cases found
    rw [← table]
    exact belongs

theorem desired_guard (plan : Plan sources existing desired place) {source : Address}
    (wanted : source ∈ sources.sources) : Rule.guard (place source) source ∈ desired := by
  obtain ⟨pair, belongs, rfl⟩ := List.mem_map.mp wanted
  exact (plan.rules _).mpr ⟨pair, belongs, mem_source_rules.mpr (.inl rfl)⟩

theorem desired_source_iff (plan : Plan sources existing desired place) (source : Address) :
    (∃ wanted ∈ desired, wanted.source = source) ↔ source ∈ sources.sources := by
  constructor
  · rintro ⟨rule, inside, rfl⟩
    exact (desired_rule plan inside).1
  · intro wanted
    exact ⟨_, desired_guard plan wanted, rfl⟩

theorem pairs_unique {source : Address} {left right : Option Nat}
    (first : (source, left) ∈ sources.pairs) (second : (source, right) ∈ sources.pairs) :
    left = right := by
  have same := List.inj_on_of_nodup_map sources.distinct first second rfl
  exact congrArg Prod.snd same

theorem desired_lookups (plan : Plan sources existing desired place) {other : Rule}
    (inside : rule ∈ desired) (belongs : other ∈ desired) (source : rule.source = other.source)
    (lookup : rule.table ≠ none) (otherLookup : other.table ≠ none) : rule.table = other.table := by
  obtain ⟨table, found⟩ := Option.ne_none_iff_exists'.mp lookup
  obtain ⟨otherTable, otherFound⟩ := Option.ne_none_iff_exists'.mp otherLookup
  have first := (desired_rule plan inside).2.2.2 table found
  have second := (desired_rule plan belongs).2.2.2 otherTable otherFound
  rw [source] at first
  rw [found, otherFound]
  exact pairs_unique first second

theorem plan_assigns (plan : Plan sources existing desired place) (source : Address)
    (table : Option Nat) : Assigned desired source table ↔ (source, table) ∈ sources.pairs := by
  have looks : ∀ number, Looks desired source number ↔ (source, some number) ∈ sources.pairs := by
    intro number
    constructor
    · rintro ⟨rule, inside, rfl, found⟩
      exact (desired_rule plan inside).2.2.2 number found
    · intro belongs
      exact ⟨Rule.lookup (place source) source number,
        (plan.rules _).mpr ⟨_, belongs, mem_source_rules.mpr (.inr ⟨number, rfl, rfl⟩)⟩, rfl, rfl⟩
  cases table with
  | some number => exact looks number
  | none =>
    rw [Assigned, desired_source_iff plan]
    constructor
    · rintro ⟨wanted, none⟩
      obtain ⟨pair, belongs, rfl⟩ := List.mem_map.mp wanted
      cases found : pair.2 with
      | none =>
        rw [← found]
        exact belongs
      | some number =>
        refine absurd ((looks number).mpr ?_) (none number)
        rw [← found]
        exact belongs
    · intro belongs
      refine ⟨List.mem_map.mpr ⟨_, belongs, rfl⟩, fun number looked => ?_⟩
      cases pairs_unique belongs ((looks number).mp looked)

/-! ### The sets of the transaction -/

def remainingRules (desired existing : Finset Rule) : Finset Rule :=
  existing \ reclaimedRules desired existing

def allGuards (desired existing : Finset Rule) : Finset Rule :=
  guardRules (remainingRules desired existing ∪ desired)

def changing (desired existing : Finset Rule) : Finset Rule :=
  changingRules desired (remainingRules desired existing)

theorem mem_reclaimed : rule ∈ reclaimedRules desired existing ↔
    rule ∈ existing ∧ ∃ replacement ∈ desired, replacement.family = rule.family ∧
      replacement.slot = rule.slot ∧ replacement.source ≠ rule.source :=
  Finset.mem_filter

theorem mem_changing : rule ∈ changing desired existing ↔
    (rule ∈ remainingRules desired existing ∧ rule ∉ desired) ∧ rule.table ≠ none ∧
      ∃ wanted ∈ desired, wanted.source = rule.source := by
  rw [changing, changingRules, Finset.mem_filter, Finset.mem_sdiff, Option.isSome_iff_ne_none]

theorem mem_all_guards : rule ∈ allGuards desired existing ↔
    ∃ origin, (origin ∈ remainingRules desired existing ∨ origin ∈ desired) ∧
      Rule.guard origin.slot origin.source = rule := by
  simp only [allGuards, guardRules, Finset.mem_image, Finset.mem_union]

theorem remaining_subset : remainingRules desired existing ⊆ existing := Finset.sdiff_subset

theorem reclaimed_unwanted (plan : Plan sources existing desired place)
    (reclaimed : rule ∈ reclaimedRules desired existing) : rule.source ∉ sources.sources := by
  obtain ⟨inside, replacement, belongs, family, slot, different⟩ := mem_reclaimed.mp reclaimed
  obtain ⟨wanted, position, -, -⟩ := desired_rule plan belongs
  intro alsoWanted
  refine different (plan.injective _ wanted _ alsoWanted family ?_)
  rw [← position, slot, plan.kept rule inside alsoWanted]

theorem remaining_of_wanted (plan : Plan sources existing desired place) (inside : rule ∈ existing)
    (wanted : rule.source ∈ sources.sources) :
    rule ∈ remainingRules desired existing :=
  Finset.mem_sdiff.mpr ⟨inside, fun reclaimed => reclaimed_unwanted plan reclaimed wanted⟩

section

variable (consistent : Consistent existing) (plan : Plan sources existing desired place)
include consistent plan

/-- What remains and what is wanted have one source per slot and one slot per source. -/
theorem union_aligned :
    Aligned fun rule => rule ∈ remainingRules desired existing ∨ rule ∈ desired := by
  have shared : ∀ rule ∈ remainingRules desired existing, ∀ wanted ∈ desired,
      wanted.family = rule.family → wanted.slot = rule.slot → wanted.source = rule.source := by
    intro rule remains wanted belongs family slot
    obtain ⟨inside, kept⟩ := Finset.mem_sdiff.mp remains
    by_contra different
    exact kept (mem_reclaimed.mpr ⟨inside, wanted, belongs, family, slot, different⟩)
  have placed : ∀ rule ∈ remainingRules desired existing, ∀ wanted ∈ desired,
      rule.source = wanted.source → rule.slot = wanted.slot := by
    intro rule remains wanted belongs source
    obtain ⟨known, position, -, -⟩ := desired_rule plan belongs
    rw [position, ← source]
    exact (plan.kept rule (remaining_subset remains) (by rw [source]; exact known)).symm
  refine ⟨?_, ?_⟩
  · rintro rule other (inside | inside) (belongs | belongs) family slot
    · exact consistent.aligned.sources rule other (remaining_subset inside)
        (remaining_subset belongs) family slot
    · exact (shared rule inside other belongs family.symm slot.symm).symm
    · exact shared other belongs rule inside family slot
    · obtain ⟨wanted, position, -, -⟩ := desired_rule plan inside
      obtain ⟨otherWanted, otherPosition, -, -⟩ := desired_rule plan belongs
      exact plan.injective _ wanted _ otherWanted family (by rw [← position, ← otherPosition, slot])
  · rintro rule other (inside | inside) (belongs | belongs) source
    · exact consistent.aligned.slots rule other (remaining_subset inside)
        (remaining_subset belongs) source
    · exact placed rule inside other belongs source
    · exact (placed other belongs rule inside source.symm).symm
    · rw [(desired_rule plan inside).2.1, (desired_rule plan belongs).2.1, source]

theorem union_canonical (inside : rule ∈ remainingRules desired existing ∨ rule ∈ desired) :
    Canonical rule := by
  rcases inside with remains | wanted
  · exact consistent.canonical rule (remaining_subset remains)
  · exact (desired_rule plan wanted).2.2.1

def Handled (desired existing : Finset Rule) (rule : Rule) : Prop :=
  (rule ∈ remainingRules desired existing ∨ rule ∈ desired) ∨ rule ∈ allGuards desired existing

theorem handled_canonical (handled : Handled desired existing rule) :
    Canonical rule := by
  rcases handled with inside | guard
  · exact union_canonical consistent plan inside
  · obtain ⟨origin, inside, rfl⟩ := mem_all_guards.mp guard
    exact guard_canonical (canonical_slot (union_canonical consistent plan inside)) _

theorem handled_aligned : Aligned (Handled desired existing) := by
  refine aligned_of_base (union_aligned consistent plan) ?_
  rintro rule (inside | guard)
  · exact ⟨rule, inside, rfl, rfl⟩
  · obtain ⟨origin, inside, rfl⟩ := mem_all_guards.mp guard
    refine ⟨origin, inside, rfl, ?_⟩
    exact (guard_slot (canonical_slot (union_canonical consistent plan inside)) _).symm

theorem handled_consistent {rules : Finset Rule}
    (handled : ∀ rule ∈ rules, Handled desired existing rule)
    (lookups : ∀ rule ∈ rules, ∀ other ∈ rules, rule.source = other.source → rule.table ≠ none →
      other.table ≠ none → rule.table = other.table) : Consistent rules :=
  consistent_of_lookups (fun rule inside => handled_canonical consistent plan (handled rule inside))
    (aligned_subset (handled_aligned consistent plan) handled) lookups

end

theorem all_guards_table (guard : rule ∈ allGuards desired existing) :
    rule.table = none := by
  obtain ⟨origin, -, rfl⟩ := mem_all_guards.mp guard
  rfl

def guardedRules (desired existing : Finset Rule) : Finset Rule :=
  remainingRules desired existing ∪ allGuards desired existing

theorem guarded_rules_consistent (consistent : Consistent existing)
    (plan : Plan sources existing desired place) : Consistent (guardedRules desired existing) := by
  refine handled_consistent consistent plan ?_ ?_
  · intro rule inside
    rcases Finset.mem_union.mp inside with remains | guard
    · exact .inl (.inl remains)
    · exact .inr guard
  · intro rule inside other belongs source lookup otherLookup
    have remains : ∀ rule ∈ guardedRules desired existing, rule.table ≠ none → rule ∈ existing := by
      intro rule inside lookup
      rcases Finset.mem_union.mp inside with remains | guard
      · exact remaining_subset remains
      · exact absurd (all_guards_table guard) lookup
    rw [consistent_lookups consistent rule (remains rule inside lookup) other
      (remains other belongs otherLookup) source lookup otherLookup]

def switchedRules (desired existing : Finset Rule) : Finset Rule :=
  (guardedRules desired existing \ changing desired existing) ∪ desired

theorem switched_lookup (plan : Plan sources existing desired place)
    (inside : rule ∈ switchedRules desired existing) (lookup : rule.table ≠ none) :
    rule ∈ desired ∨ (rule ∈ remainingRules desired existing ∧ rule.source ∉ sources.sources) := by
  rcases Finset.mem_union.mp inside with kept | wanted
  · obtain ⟨guarded, unchanged⟩ := Finset.mem_sdiff.mp kept
    rcases Finset.mem_union.mp guarded with remains | guard
    · by_cases planned : rule ∈ desired
      · exact .inl planned
      · refine .inr ⟨remains, fun wanted => unchanged (mem_changing.mpr ⟨⟨remains, planned⟩, lookup, ?_⟩)⟩
        exact (desired_source_iff plan _).mpr wanted
    · exact absurd (all_guards_table guard) lookup
  · exact .inl wanted

theorem switched_rules_consistent (consistent : Consistent existing)
    (plan : Plan sources existing desired place) : Consistent (switchedRules desired existing) := by
  refine handled_consistent consistent plan ?_ ?_
  · intro rule inside
    rcases Finset.mem_union.mp inside with kept | wanted
    · rcases Finset.mem_union.mp (Finset.mem_sdiff.mp kept).1 with remains | guard
      · exact .inl (.inl remains)
      · exact .inr guard
    · exact .inl (.inr wanted)
  · intro rule inside other belongs source lookup otherLookup
    rcases switched_lookup plan inside lookup with wanted | ⟨remains, unwanted⟩
    · rcases switched_lookup plan belongs otherLookup with otherWanted | ⟨-, otherUnwanted⟩
      · exact desired_lookups plan wanted otherWanted source lookup otherLookup
      · rw [← source] at otherUnwanted
        exact absurd (desired_rule plan wanted).1 otherUnwanted
    · rcases switched_lookup plan belongs otherLookup with otherWanted | ⟨otherRemains, -⟩
      · rw [source] at unwanted
        exact absurd (desired_rule plan otherWanted).1 unwanted
      · rw [consistent_lookups consistent rule (remaining_subset remains) other
          (remaining_subset otherRemains) source lookup otherLookup]

/-! ### The phases -/

structure Sound (desired existing state : Finset Rule) : Prop where
  consistent : Consistent state
  kept : ∀ rule ∈ existing, rule ∈ desired → rule ∈ state

theorem admits_add {state : Finset Rule} {bound : Finset Rule} (consistent : Consistent bound)
    (below : state ⊆ bound) (inside : rule ∈ bound) (absent : rule ∉ state) :
    Admits state (.add rule) := by
  refine ⟨absent, fun other belongs family priority => absent ?_⟩
  rw [← consistent.priorities other (below belongs) rule inside family priority]
  exact belongs

theorem wanted_not_changing (wanted : rule ∈ desired) :
    rule ∉ changing desired existing :=
  fun change => (mem_changing.mp change).1.2 wanted

theorem guard_not_changing (guard : rule.table = none) :
    rule ∉ changing desired existing :=
  fun change => (mem_changing.mp change).2.1 guard

theorem kept_remains (plan : Plan sources existing desired place) (inside : rule ∈ existing)
    (wanted : rule ∈ desired) :
    rule ∈ remainingRules desired existing :=
  remaining_of_wanted plan inside (desired_rule plan wanted).1

theorem mem_of_done {Key : Type} [LinearOrder Key] {key : Rule → Key} {rules : Finset Rule}
    {done rest : List Rule} (whole : sortedBy key rules = done ++ rest) (inside : rule ∈ done) :
    rule ∈ rules := by
  have somewhere : rule ∈ sortedBy key rules := by
    rw [whole]
    exact List.mem_append_left _ inside
  exact mem_sorted_by.mp somewhere

theorem reclaim_sound (consistent : Consistent existing)
    (plan : Plan sources existing desired place) :
    Along Admits (Sound desired existing)
      ((sortedBy retireKey (reclaimedRules desired existing)).map .del) existing := by
  refine along_deletions sorted_by_nodup ?_ (fun _ _ present => present) ?_
  · intro rule inside
    exact (mem_reclaimed.mp (mem_sorted_by.mp inside)).1
  · intro done rest whole
    refine ⟨consistent_subset consistent Finset.sdiff_subset, fun rule inside wanted => ?_⟩
    refine Finset.mem_sdiff.mpr ⟨inside, fun deleted => ?_⟩
    have reclaimed := mem_of_done whole (List.mem_toFinset.mp deleted)
    exact reclaimed_unwanted plan reclaimed (desired_rule plan wanted).1

theorem guards_sound (consistent : Consistent existing)
    (plan : Plan sources existing desired place) :
    Along Admits (Sound desired existing)
      ((sortedBy sortKey (allGuards desired existing \ remainingRules desired existing)).map .add)
      (remainingRules desired existing) := by
  have bound := guarded_rules_consistent consistent plan
  have below : ∀ done rest, sortedBy sortKey (allGuards desired existing \
      remainingRules desired existing) = done ++ rest →
        remainingRules desired existing ∪ done.toFinset ⊆ guardedRules desired existing := by
    intro done rest whole rule inside
    rcases Finset.mem_union.mp inside with remains | added
    · exact Finset.mem_union_left _ remains
    · have guard := mem_of_done whole (List.mem_toFinset.mp added)
      exact Finset.mem_union_right _ (Finset.mem_sdiff.mp guard).1
  refine along_additions ?_ ?_
  · intro done rule rest whole
    have added : rule ∈ allGuards desired existing \ remainingRules desired existing := by
      refine mem_sorted_by.mp (?_ : rule ∈ sortedBy sortKey _)
      rw [whole]
      exact List.mem_append_right _ List.mem_cons_self
    obtain ⟨guard, fresh⟩ := Finset.mem_sdiff.mp added
    refine admits_add bound (below done (rule :: rest) whole) (Finset.mem_union_right _ guard) ?_
    intro present
    rcases Finset.mem_union.mp present with remains | earlier
    · exact fresh remains
    · have distinct : (sortedBy sortKey (allGuards desired existing \
          remainingRules desired existing)).Nodup := sorted_by_nodup
      rw [whole, List.nodup_append] at distinct
      exact distinct.2.2 rule (List.mem_toFinset.mp earlier) rule List.mem_cons_self rfl
  · intro done rest whole
    refine ⟨consistent_subset bound (below done rest whole), fun rule inside wanted => ?_⟩
    exact Finset.mem_union_left _ (kept_remains plan inside wanted)

/-- The invariant after the guards are in place. -/
def Protected (desired existing state : Finset Rule) : Prop :=
  Sound desired existing state ∧ Guarded state

theorem lookup_guard_handled (inside : rule ∈ remainingRules desired existing ∨ rule ∈ desired) :
    Rule.guard rule.slot rule.source ∈ allGuards desired existing :=
  mem_all_guards.mpr ⟨rule, inside, rfl⟩

theorem changes_protected (consistent : Consistent existing)
    (plan : Plan sources existing desired place) :
    Along Admits (Protected desired existing)
      ((sortedBy sortKey (changing desired existing)).map .del) (guardedRules desired existing) := by
  refine along_deletions sorted_by_nodup ?_ (fun _ _ present => present) ?_
  · intro rule inside
    exact Finset.mem_union_left _ (mem_changing.mp (mem_sorted_by.mp inside)).1.1
  · intro done rest whole
    have changes : ∀ rule ∈ done.toFinset, rule ∈ changing desired existing :=
      fun rule deleted => mem_of_done whole (List.mem_toFinset.mp deleted)
    refine ⟨⟨consistent_subset (guarded_rules_consistent consistent plan) Finset.sdiff_subset,
      fun rule inside wanted => ?_⟩, ?_⟩
    · exact Finset.mem_sdiff.mpr ⟨Finset.mem_union_left _ (kept_remains plan inside wanted),
        fun deleted => wanted_not_changing wanted (changes rule deleted)⟩
    · intro rule inside lookup
      rcases Finset.mem_union.mp (Finset.mem_sdiff.mp inside).1 with remains | guard
      · exact Finset.mem_sdiff.mpr ⟨Finset.mem_union_right _ (lookup_guard_handled (.inl remains)),
          fun deleted => guard_not_changing rfl (changes _ deleted)⟩
      · exact absurd (all_guards_table guard) lookup

theorem switched_from_additions : (guardedRules desired existing \ changing desired existing) ∪
    ((desired \ remainingRules desired existing) \ allGuards desired existing) =
      switchedRules desired existing := by
  ext rule
  simp only [switchedRules, Finset.mem_union, Finset.mem_sdiff]
  constructor
  · rintro (kept | ⟨⟨wanted, -⟩, -⟩)
    · exact .inl kept
    · exact .inr wanted
  · rintro (kept | wanted)
    · exact .inl kept
    · by_cases present : rule ∈ guardedRules desired existing
      · exact .inl ⟨present, wanted_not_changing wanted⟩
      · refine .inr ⟨⟨wanted, fun remains => present (Finset.mem_union_left _ remains)⟩,
          fun guard => present (Finset.mem_union_right _ guard)⟩

theorem additions_protected (consistent : Consistent existing)
    (plan : Plan sources existing desired place) :
    Along Admits (Protected desired existing)
      ((sortedBy sortKey ((desired \ remainingRules desired existing) \
        allGuards desired existing)).map .add)
      (guardedRules desired existing \ changing desired existing) := by
  have bound := switched_rules_consistent consistent plan
  have below : ∀ done rest, sortedBy sortKey ((desired \ remainingRules desired existing) \
      allGuards desired existing) = done ++ rest →
        (guardedRules desired existing \ changing desired existing) ∪ done.toFinset ⊆
          switchedRules desired existing := by
    intro done rest whole rule inside
    rcases Finset.mem_union.mp inside with kept | added
    · exact Finset.mem_union_left _ kept
    · have wanted := mem_of_done whole (List.mem_toFinset.mp added)
      exact Finset.mem_union_right _ (Finset.mem_sdiff.mp (Finset.mem_sdiff.mp wanted).1).1
  refine along_additions ?_ ?_
  · intro done rule rest whole
    have added : rule ∈ (desired \ remainingRules desired existing) \ allGuards desired existing := by
      refine mem_sorted_by.mp (?_ : rule ∈ sortedBy sortKey _)
      rw [whole]
      exact List.mem_append_right _ List.mem_cons_self
    obtain ⟨fresh, notGuard⟩ := Finset.mem_sdiff.mp added
    obtain ⟨wanted, notRemaining⟩ := Finset.mem_sdiff.mp fresh
    refine admits_add bound (below done (rule :: rest) whole) (Finset.mem_union_right _ wanted) ?_
    intro present
    rcases Finset.mem_union.mp present with kept | earlier
    · rcases Finset.mem_union.mp (Finset.mem_sdiff.mp kept).1 with remains | guard
      · exact notRemaining remains
      · exact notGuard guard
    · have distinct : (sortedBy sortKey ((desired \ remainingRules desired existing) \
          allGuards desired existing)).Nodup := sorted_by_nodup
      rw [whole, List.nodup_append] at distinct
      exact distinct.2.2 rule (List.mem_toFinset.mp earlier) rule List.mem_cons_self rfl
  · intro done rest whole
    refine ⟨⟨consistent_subset bound (below done rest whole), fun rule inside wanted => ?_⟩, ?_⟩
    · exact Finset.mem_union_left _ (Finset.mem_sdiff.mpr
        ⟨Finset.mem_union_left _ (kept_remains plan inside wanted), wanted_not_changing wanted⟩)
    · intro rule inside lookup
      refine Finset.mem_union_left _ (Finset.mem_sdiff.mpr
        ⟨Finset.mem_union_right _ (lookup_guard_handled ?_), guard_not_changing rfl⟩)
      rcases switched_lookup plan (below done rest whole inside) lookup with wanted | ⟨remains, -⟩
      · exact .inr wanted
      · exact .inl remains

/-- The rules of sources that are not wanted any more. -/
def retired (desired existing : Finset Rule) : Finset Rule :=
  (remainingRules desired existing \ desired) \ changing desired existing

theorem mem_retired : rule ∈ retired desired existing ↔
    (rule ∈ remainingRules desired existing ∧ rule ∉ desired) ∧ rule ∉ changing desired existing := by
  simp only [retired, Finset.mem_sdiff]

theorem desired_switched : desired ⊆ switchedRules desired existing := Finset.subset_union_right

theorem guard_of_desired (plan : Plan sources existing desired place) (wanted : rule ∈ desired) :
    Rule.guard rule.slot rule.source ∈ desired := by
  obtain ⟨known, position, -, -⟩ := desired_rule plan wanted
  rw [position]
  exact desired_guard plan known

theorem unplanned_lookup_retired (plan : Plan sources existing desired place)
    (inside : rule ∈ switchedRules desired existing) (lookup : rule.table ≠ none)
    (unplanned : rule ∉ desired) : rule ∈ retired desired existing := by
  rcases switched_lookup plan inside lookup with wanted | ⟨remains, unwanted⟩
  · exact absurd wanted unplanned
  · refine mem_retired.mpr ⟨⟨remains, unplanned⟩, fun change => unwanted ?_⟩
    exact (desired_source_iff plan _).mp (mem_changing.mp change).2.2

theorem retirement_protected (consistent : Consistent existing)
    (plan : Plan sources existing desired place) :
    Along Admits (Protected desired existing)
      ((sortedBy retireKey (retired desired existing)).map .del)
      (switchedRules desired existing) := by
  refine along_deletions sorted_by_nodup ?_ (fun _ _ present => present) ?_
  · intro rule inside
    obtain ⟨⟨remains, -⟩, unchanged⟩ := mem_retired.mp (mem_sorted_by.mp inside)
    exact Finset.mem_union_left _ (Finset.mem_sdiff.mpr
      ⟨Finset.mem_union_left _ remains, unchanged⟩)
  · intro done rest whole
    have old : ∀ rule ∈ done.toFinset, rule ∈ retired desired existing :=
      fun rule deleted => mem_of_done whole (List.mem_toFinset.mp deleted)
    refine ⟨⟨consistent_subset (switched_rules_consistent consistent plan) Finset.sdiff_subset,
      fun rule _ wanted => ?_⟩, ?_⟩
    · exact Finset.mem_sdiff.mpr ⟨desired_switched wanted,
        fun deleted => (mem_retired.mp (old rule deleted)).1.2 wanted⟩
    · intro rule inside lookup
      obtain ⟨switched, notDeleted⟩ := Finset.mem_sdiff.mp inside
      have handled : rule ∈ remainingRules desired existing ∨ rule ∈ desired := by
        rcases switched_lookup plan switched lookup with wanted | ⟨remains, -⟩
        · exact .inr wanted
        · exact .inl remains
      refine Finset.mem_sdiff.mpr ⟨Finset.mem_union_left _ (Finset.mem_sdiff.mpr
        ⟨Finset.mem_union_right _ (lookup_guard_handled handled), guard_not_changing rfl⟩), ?_⟩
      -- The guard is retired after the lookup, which is still there.
      intro deleted
      have guardRetired := old _ deleted
      have unplanned : rule ∉ desired :=
        fun wanted => (mem_retired.mp guardRetired).1.2 (guard_of_desired plan wanted)
      have lookupRetired := unplanned_lookup_retired plan switched lookup unplanned
      refine notDeleted (List.mem_toFinset.mpr (sorted_by_before whole lookupRetired
        (List.mem_toFinset.mp deleted) ?_))
      refine Prod.Lex.toLex_lt_toLex.mpr (.inl ?_)
      have some : rule.table.isNone = false := by
        rw [Option.isNone_eq_false_iff, Option.isSome_iff_ne_none]
        exact lookup
      show rule.table.isNone < true
      rw [some]
      decide

/-- The guards that were added for sources that are not wanted. -/
def leftovers (desired existing : Finset Rule) : Finset Rule :=
  (allGuards desired existing \ remainingRules desired existing) \ desired

theorem leftovers_protected (consistent : Consistent existing)
    (plan : Plan sources existing desired place) :
    Along Admits (Protected desired existing)
      ((sortedBy sortKey (leftovers desired existing)).map .del)
      (switchedRules desired existing \ retired desired existing) := by
  refine along_deletions sorted_by_nodup ?_ (fun _ _ present => present) ?_
  · intro rule inside
    obtain ⟨added, unplanned⟩ := Finset.mem_sdiff.mp (mem_sorted_by.mp inside)
    obtain ⟨guard, fresh⟩ := Finset.mem_sdiff.mp added
    refine Finset.mem_sdiff.mpr ⟨Finset.mem_union_left _ (Finset.mem_sdiff.mpr
      ⟨Finset.mem_union_right _ guard, guard_not_changing (all_guards_table guard)⟩), ?_⟩
    exact fun old => fresh (mem_retired.mp old).1.1
  · intro done rest whole
    have kept : ∀ rule ∈ desired, rule ∈
        (switchedRules desired existing \ retired desired existing) \ done.toFinset := by
      intro rule wanted
      refine Finset.mem_sdiff.mpr ⟨Finset.mem_sdiff.mpr ⟨desired_switched wanted,
        fun old => (mem_retired.mp old).1.2 wanted⟩, fun deleted => ?_⟩
      have leftover := mem_of_done whole (List.mem_toFinset.mp deleted)
      exact (Finset.mem_sdiff.mp leftover).2 wanted
    refine ⟨⟨consistent_subset (switched_rules_consistent consistent plan)
      (Finset.sdiff_subset.trans Finset.sdiff_subset), fun rule _ wanted => kept rule wanted⟩, ?_⟩
    intro rule inside lookup
    obtain ⟨switched, notRetired⟩ := Finset.mem_sdiff.mp (Finset.mem_sdiff.mp inside).1
    by_cases wanted : rule ∈ desired
    · exact kept _ (guard_of_desired plan wanted)
    · exact absurd (unplanned_lookup_retired plan switched lookup wanted) notRetired

/-- What is left at the end is the plan. -/
theorem settled_rules :
    (switchedRules desired existing \ retired desired existing) \ leftovers desired existing =
      desired := by
  ext rule
  simp only [Finset.mem_sdiff]
  constructor
  · rintro ⟨⟨switched, notRetired⟩, notLeft⟩
    by_contra unplanned
    rcases Finset.mem_union.mp switched with kept | wanted
    · obtain ⟨guarded, unchanged⟩ := Finset.mem_sdiff.mp kept
      by_cases remains : rule ∈ remainingRules desired existing
      · exact notRetired (mem_retired.mpr ⟨⟨remains, unplanned⟩, unchanged⟩)
      · rcases Finset.mem_union.mp guarded with again | guard
        · exact remains again
        · exact notLeft (Finset.mem_sdiff.mpr ⟨Finset.mem_sdiff.mpr ⟨guard, remains⟩, unplanned⟩)
    · exact unplanned wanted
  · intro wanted
    exact ⟨⟨desired_switched wanted, fun old => (mem_retired.mp old).1.2 wanted⟩,
      fun left => (Finset.mem_sdiff.mp left).2 wanted⟩

/-! ### The whole transaction -/

theorem guard_phase_run : runEdits (guardPhase desired existing) existing =
    guardedRules desired existing := by
  have shape : guardPhase desired existing =
      (sortedBy retireKey (reclaimedRules desired existing)).map .del ++ (sortedBy sortKey
        (allGuards desired existing \ remainingRules desired existing)).map .add := rfl
  rw [shape, run_edits_append, run_deletions, sorted_by_to_finset]
  have rest : existing \ reclaimedRules desired existing = remainingRules desired existing := rfl
  rw [rest, run_additions, sorted_by_to_finset, guardedRules, Finset.union_sdiff_self_eq_union]

theorem guard_phase_sound (consistent : Consistent existing)
    (plan : Plan sources existing desired place) :
    Along Admits (Sound desired existing) (guardPhase desired existing) existing := by
  refine along_append (reclaim_sound consistent plan) ?_
  rw [run_deletions, sorted_by_to_finset]
  exact guards_sound consistent plan

theorem lookup_phase_protected (consistent : Consistent existing)
    (plan : Plan sources existing desired place) :
    Along Admits (Protected desired existing) (lookupPhase desired existing)
        (guardedRules desired existing) ∧
      runEdits (lookupPhase desired existing) (guardedRules desired existing) = desired := by
  have shape : lookupPhase desired existing =
      (sortedBy sortKey (changing desired existing)).map .del ++
        ((sortedBy sortKey ((desired \ remainingRules desired existing) \
            allGuards desired existing)).map .add ++
          ((sortedBy retireKey (retired desired existing)).map .del ++
            (sortedBy sortKey (leftovers desired existing)).map .del)) := rfl
  rw [shape]
  constructor
  · refine along_append (changes_protected consistent plan) ?_
    rw [run_deletions, sorted_by_to_finset]
    refine along_append (additions_protected consistent plan) ?_
    rw [run_additions, sorted_by_to_finset, switched_from_additions]
    refine along_append (retirement_protected consistent plan) ?_
    rw [run_deletions, sorted_by_to_finset]
    exact leftovers_protected consistent plan
  · rw [run_edits_append, run_deletions, sorted_by_to_finset, run_edits_append, run_additions,
      sorted_by_to_finset, switched_from_additions, run_edits_append, run_deletions,
      sorted_by_to_finset, run_deletions, sorted_by_to_finset, settled_rules]

theorem apply_rules_plan (plan : Plan sources existing desired place) :
    applyRules desired existing = .ok (guardPhase desired existing ++ lookupPhase desired existing) := by
  refine if_neg ?_
  rintro ⟨rule, reclaimed, wanted⟩
  exact reclaimed_unwanted plan reclaimed ((desired_source_iff plan _).mp wanted)

theorem same_lookup_kept (consistent : Consistent existing)
    (plan : Plan sources existing desired place) {state : Finset Rule}
    (sound : Sound desired existing state) {source : Address} {table : Nat}
    (before : Looks existing source table) (after : Looks desired source table) :
    Looks state source table := by
  obtain ⟨rule, inside, rfl, found⟩ := before
  obtain ⟨wanted, belongs, same, wantedFound⟩ := after
  obtain ⟨known, position, canonical, -⟩ := desired_rule plan belongs
  have slots : rule.slot = wanted.slot := by
    rw [position, same]
    rw [same] at known
    exact (plan.kept rule inside known).symm
  have priorities : rule.priority = wanted.priority := by
    rw [canonical_priority (consistent.canonical rule inside), canonical_priority canonical,
      if_neg (by simp [found]), if_neg (by simp [wantedFound]), slots]
  have equal : rule = wanted := by
    obtain ⟨_, _, _⟩ := rule
    obtain ⟨_, _, _⟩ := wanted
    simp only at priorities same found wantedFound
    rw [priorities, same, found, wantedFound]
  rw [← equal] at belongs
  exact ⟨rule, sound.kept rule inside belongs, rfl, found⟩

def Resumes (sha256 : List UInt8 → List UInt8) (sources : SourceMap)
    (desired state : Finset Rule) : Prop :=
  ∃ again commands, planRules sha256 sources state = .ok again ∧
    applyRules again state = .ok commands ∧ runEdits commands state = again ∧
      ∀ source table, Assigned again source table ↔ Assigned desired source table

theorem consistent_resumes (sha256 : List UInt8 → List UInt8)
    (plan : Plan sources existing desired place) {state : Finset Rule}
    (consistent : Consistent state) : Resumes sha256 sources desired state := by
  obtain ⟨again, planned⟩ : ∃ again, planRules sha256 sources state = .ok again :=
    plan_rules_succeeds consistent.canonical consistent.aligned (plan_room plan)
  obtain ⟨-, placeAgain, planAgain⟩ := plan_rules_ok consistent.canonical planned
  refine ⟨again, _, planned, apply_rules_plan planAgain, ?_, fun source table => ?_⟩
  · rw [run_edits_append, guard_phase_run, (lookup_phase_protected consistent planAgain).2]
  · rw [plan_assigns planAgain, plan_assigns plan]

/-- What holds of the state when the commands of `rest` are still to run. -/
structure StepSafe (sha256 : List UInt8 → List UInt8) (sources : SourceMap)
    (existing desired state : Finset Rule) (rest : List (Edit Rule)) : Prop where
  consistent : Consistent state
  oneLookup : OneLookup state
  kept : ∀ source table, Looks existing source table → Looks desired source table →
    Looks state source table
  next : ∀ command later, rest = command :: later → Admits state command
  resumes : Resumes sha256 sources desired state

/-- Every step of a rule transaction is safe, it ends with the plan, and once the guards are
in place every source with a lookup has one. -/
theorem rule_transaction_safe {sha256 : List UInt8 → List UInt8} {sources : SourceMap}
    {existing desired : Finset Rule} (consistent : Consistent existing)
    (planned : planRules sha256 sources existing = .ok desired) :
    ∃ commands, applyRules desired existing = .ok commands ∧
      commands = guardPhase desired existing ++ lookupPhase desired existing ∧
        runEdits commands existing = desired ∧
          (∀ issued rest, commands = issued ++ rest →
            StepSafe sha256 sources existing desired (runEdits issued existing) rest) ∧
          ∀ issued rest, lookupPhase desired existing = issued ++ rest →
            Guarded (runEdits (guardPhase desired existing ++ issued) existing) := by
  obtain ⟨-, place, plan⟩ := plan_rules_ok consistent.canonical planned
  obtain ⟨protects, ends⟩ := lookup_phase_protected consistent plan
  have sound : Along Admits (Sound desired existing)
      (guardPhase desired existing ++ lookupPhase desired existing) existing := by
    refine along_append (guard_phase_sound consistent plan) ?_
    rw [guard_phase_run]
    exact along_weaken protects fun _ good => good.1
  refine ⟨_, apply_rules_plan plan, rfl, ?_, ?_, ?_⟩
  · rw [run_edits_append, guard_phase_run, ends]
  · intro issued rest whole
    rw [whole] at sound
    have here := along_issued sound
    refine ⟨here.consistent, consistent_lookups here.consistent,
      fun source table => same_lookup_kept consistent plan here, ?_,
      consistent_resumes sha256 plan here.consistent⟩
    rintro command later rfl
    exact along_next sound
  · intro issued rest whole
    rw [whole] at protects
    rw [run_edits_append, guard_phase_run]
    exact (along_issued protects).2

theorem planned_consistent (consistent : Consistent existing)
    (plan : Plan sources existing desired place) : Consistent desired := by
  obtain ⟨protects, ends⟩ := lookup_phase_protected consistent plan
  rw [← List.append_nil (lookupPhase desired existing)] at protects
  have last := along_issued protects
  rw [ends] at last
  exact last.1.consistent

/-- A plan is its own plan, and installing it again needs no command. -/
theorem plan_settles {sha256 : List UInt8 → List UInt8} (consistent : Consistent existing)
    (planned : planRules sha256 sources existing = .ok desired) :
    planRules sha256 sources desired = .ok desired ∧ applyRules desired desired = .ok [] := by
  obtain ⟨-, place, plan⟩ := plan_rules_ok consistent.canonical planned
  have installed := planned_consistent consistent plan
  obtain ⟨again, replanned⟩ : ∃ again, planRules sha256 sources desired = .ok again :=
    plan_rules_succeeds installed.canonical installed.aligned (plan_room plan)
  obtain ⟨-, placeAgain, planAgain⟩ := plan_rules_ok installed.canonical replanned
  have same : again = desired := by
    ext rule
    rw [planAgain.rules, plan.rules]
    have keeps : ∀ pair ∈ sources.pairs, placeAgain pair.1 = place pair.1 := by
      intro pair belongs
      have wanted : pair.1 ∈ sources.sources := List.mem_map.mpr ⟨pair, belongs, rfl⟩
      rw [← guard_slot (plan.owned _ wanted) pair.1]
      exact planAgain.kept _ (desired_guard plan wanted) wanted
    constructor
    · rintro ⟨pair, belongs, member⟩
      exact ⟨pair, belongs, keeps pair belongs ▸ member⟩
    · rintro ⟨pair, belongs, member⟩
      exact ⟨pair, belongs, (keeps pair belongs).symm ▸ member⟩
  subst same
  refine ⟨replanned, ?_⟩
  have none : reclaimedRules again again = ∅ := by
    apply Finset.eq_empty_of_forall_notMem
    intro rule member
    obtain ⟨inside, other, belongs, family, slot, apart⟩ := mem_reclaimed.mp member
    exact apart (installed.aligned.sources other rule belongs inside family slot)
  have guards : guardRules again \ again = ∅ := by
    apply Finset.sdiff_eq_empty_iff_subset.mpr
    intro guard member
    obtain ⟨rule, inside, rfl⟩ := Finset.mem_image.mp member
    obtain ⟨wanted, slot, -⟩ := desired_rule plan inside
    rw [slot]
    exact desired_guard plan wanted
  rw [apply_rules_plan planAgain]
  simp [guardPhase, lookupPhase, none, guards, changingRules, sortedBy]

end Transaction

/-! ### A sample transaction -/

def sampleSources : SourceMap :=
  ⟨[(.v4 0x0a000001, some 200), (.v6 0xfd000000000000000000000000000001, none)], by decide⟩

def sampleRules : Finset Rule := {Rule.lookup 5000 (.v4 0x0a000009) 100}

theorem sample_rules_consistent : Consistent sampleRules := by
  refine consistent_of_lookups ?_ ⟨?_, ?_⟩ ?_
  all_goals simp only [sampleRules, Finset.mem_singleton]
  · rintro rule rfl
    exact lookup_canonical ⟨by decide, by decide, by decide⟩ _ _
  · rintro rule other rfl rfl _ _
    rfl
  · rintro rule other rfl rfl _
    rfl
  · rintro rule rfl other rfl _ _ _
    rfl

theorem sample_transaction_safe : ∃ desired commands,
    planRules (fun _ => List.replicate 32 0) sampleSources sampleRules = .ok desired ∧
      applyRules desired sampleRules = .ok commands ∧ runEdits commands sampleRules = desired := by
  obtain ⟨desired, planned⟩ : ∃ desired,
      planRules (fun _ => List.replicate 32 0) sampleSources sampleRules = .ok desired :=
    plan_rules_succeeds sample_rules_consistent.canonical sample_rules_consistent.aligned
      (fun family => by cases family <;> decide)
  obtain ⟨commands, applied, -, ends, -⟩ := rule_transaction_safe sample_rules_consistent planned
  exact ⟨desired, commands, planned, applied, ends⟩

theorem sample_plan_settles : ∃ desired,
    planRules (fun _ => List.replicate 32 0) sampleSources sampleRules = .ok desired ∧
      planRules (fun _ => List.replicate 32 0) sampleSources desired = .ok desired ∧
        applyRules desired desired = .ok [] := by
  obtain ⟨desired, planned⟩ : ∃ desired,
      planRules (fun _ => List.replicate 32 0) sampleSources sampleRules = .ok desired :=
    plan_rules_succeeds sample_rules_consistent.canonical sample_rules_consistent.aligned
      (fun family => by cases family <;> decide)
  exact ⟨desired, planned, plan_settles sample_rules_consistent planned⟩

end Atlaso.Routing.RuleTransactions
