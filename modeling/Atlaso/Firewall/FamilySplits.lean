import Atlaso.Firewall.RuleFamilies
import Atlaso.Library.Traversals
import Mathlib.Data.Bool.AllAny

/-!
What the rendered variants of an accepted rule match.

A field of an accepted rule either names no address, and then allows all of them, or it names
networks only. The variants split the named networks by family. A rule of which neither field
names an address is rendered as it is, and that succeeds only when both fields are just `any`.
-/

namespace Atlaso.Firewall.FamilySplits

open Library Dictionary IpAddress IpNetwork ItemLists TextFields
open Traversals SourceGroups RuleFamilies

section Rules

variable {lowering : Lowering} {groups : GroupsById}

/-! ### Items -/

/-- An item as splitting an address field gives it. -/
structure PlainItem (lowering : Lowering) (item : List Char) : Prop where
  unblank : item ≠ []
  stripped : strip item = item
  whole : ∀ c ∈ item, isSeparator c = false
  lowered : lowering.lower item = item

variable {item : List Char} {items values : List (List Char)}

theorem split_address_plain {value : List Char}
    (inside : item ∈ splitAddressValues lowering value) : PlainItem lowering item := by
  obtain ⟨raw, member, rfl⟩ := List.mem_map.mp inside
  obtain ⟨unblank, stripped, _, whole⟩ := split_items_members value raw member
  refine ⟨lower_unblank lowering raw unblank, ?_, ?_, lowering.idempotent raw⟩
  · rw [lower_strip, stripped]
  · intro c present
    by_contra separates
    rw [Bool.not_eq_false] at separates
    have earlier := lower_members lowering raw c present (separator_apart separates)
    rw [whole c earlier] at separates
    cases separates

theorem PlainItem.split (plain : PlainItem lowering item) :
    splitItems item = [item] := split_items_item plain.unblank plain.stripped plain.whole

theorem any_plain : PlainItem lowering FIREWALL_ANY_SOURCE_GROUP_ID where
  unblank := by decide
  stripped := by decide
  whole := List.all_iff_forall_prop.mp (by decide)
  lowered := lowering.ascii _ (List.all_iff_forall_prop.mp (by decide))

theorem split_address_join (plain : ∀ item ∈ items, PlainItem lowering item) :
    splitAddressValues lowering (joinItems items) = items := by
  rw [splitAddressValues, split_items_join_items fun item inside => (plain item inside).split]
  calc items.map lowering.lower = items.map id :=
        List.map_congr_left fun item inside => (plain item inside).lowered
    _ = items := List.map_id items

theorem split_address_any :
    splitAddressValues lowering FIREWALL_ANY_SOURCE_GROUP_ID = [FIREWALL_ANY_SOURCE_GROUP_ID] := by
  rw [splitAddressValues, (@any_plain lowering).split]
  exact congrArg (fun text => [text]) any_plain.lowered

theorem split_address_lower (value : List Char) :
    splitAddressValues lowering (lowering.lower value) = splitAddressValues lowering value := by
  rw [splitAddressValues, split_items_lower, List.map_map, splitAddressValues]
  apply List.map_congr_left
  exact fun item _ => lowering.idempotent item

theorem PlainItem.trimmed (plain : PlainItem lowering item) :
    item ≠ [] ∧ strip item = item := ⟨plain.unblank, plain.stripped⟩

theorem lower_join (plain : ∀ item ∈ items, PlainItem lowering item) :
    lowering.lower (joinItems items) = joinItems items := by
  induction items with
  | nil => exact lower_nil lowering
  | cons item items induction =>
    have first := (plain item List.mem_cons_self).lowered
    cases items with
    | nil => rwa [join_items_single]
    | cons next items =>
      rw [join_items_next, lowering.apart _ _ _ (by decide), first,
        induction fun other inside => plain other (List.mem_cons_of_mem _ inside)]

/-! ### Fields that list networks -/

theorem network_head {network : Network} (read : readNetwork item = some network) :
    item.head? ≠ some '@' ∧ item.head? ≠ some 'g' := by
  have foreign : ∀ c, Foreign c → item.head? ≠ some c := by
    intro c strange starts
    obtain ⟨rest, rfl⟩ := List.head?_eq_some_iff.mp starts
    rw [readNetwork, ip_network_foreign strange] at read
    cases read
  refine ⟨foreign '@' ?_, foreign 'g' ?_⟩ <;> exact ⟨by decide, by decide, by decide⟩

theorem rule_address_value_join (filled : items ≠ [])
    (plain : ∀ item ∈ items, PlainItem lowering item)
    (networks : ∀ item ∈ items, ∃ network, readNetwork item = some network) :
    ruleAddressValue lowering groups (joinItems items) = joinItems items := by
  have trimmed := fun item inside => (plain item inside).trimmed
  have stripped := strip_join trimmed
  have some := (join_items_last filled trimmed).1
  obtain ⟨item, rest, rfl⟩ := List.exists_cons_of_ne_nil filled
  obtain ⟨network, read⟩ := networks item List.mem_cons_self
  have head := join_items_head (plain item List.mem_cons_self).unblank rest
  obtain ⟨notName, notGroup⟩ := network_head read
  rw [← head] at notName notGroup
  have noTarget : sourceGroupReferenceTarget lowering groups [] (joinItems (item :: rest)) = [] := by
    rw [sourceGroupReferenceTarget, stripped, lower_join plain]
    have notReference : ¬FIREWALL_SOURCE_GROUP_REFERENCE_PREFIX.isPrefixOf
        (joinItems (item :: rest)) = true := by
      intro found
      obtain ⟨more, same⟩ := List.isPrefixOf_iff_prefix.mp found
      rw [← same] at notGroup
      exact notGroup rfl
    rw [if_neg notReference]
    split
    · next name shape =>
        rw [shape] at notName
        exact absurd rfl notName
    · rfl
  rw [ruleAddressValue, stripped, if_neg some, ruleSources, if_pos noTarget]
  exact lower_join plain

/-! ### A field of an accepted rule -/

theorem any_no_network : readNetwork FIREWALL_ANY_SOURCE_GROUP_ID = none := by decide

variable {label : List Char} {address : Address} {part : Family → List (List Char) → Part}

theorem accepted_items {value : List Char}
    (accepted : validateRuleAddressValue lowering label value groups = []) :
    let items := splitAddressValues lowering (ruleAddressValue lowering groups value)
    (∀ item ∈ items, item = FIREWALL_ANY_SOURCE_GROUP_ID) ∨
      ∀ item ∈ items, ∃ network, readNetwork item = some network := by
  have clean : ∀ text, validateAddressValue lowering label text = [] →
      (∀ item ∈ splitAddressValues lowering text, item = FIREWALL_ANY_SOURCE_GROUP_ID) ∨
      ∀ item ∈ splitAddressValues lowering text, ∃ network, readNetwork item = some network := by
    intro text valid
    rw [validateAddressValue] at valid
    split at valid
    · split at valid
      · next only =>
          left
          rw [only]
          exact fun item inside => List.mem_singleton.mp inside
      · cases valid
    · right
      intro item inside
      have read := List.flatMap_eq_nil_iff.mp valid item inside
      split at read
      · next some => exact Option.isSome_iff_exists.mp some
      · cases read
  rw [validateRuleAddressValue] at accepted
  intro items
  by_cases blank : strip value = []
  · left
    have same : items = [FIREWALL_ANY_SOURCE_GROUP_ID] := by
      change splitAddressValues lowering (ruleAddressValue lowering groups value) = _
      rw [ruleAddressValue, if_pos blank]
      exact split_address_any
    rw [same]
    exact fun item inside => List.mem_singleton.mp inside
  · rw [if_neg blank] at accepted
    change (∀ item ∈ splitAddressValues lowering (ruleAddressValue lowering groups value), _) ∨
      ∀ item ∈ splitAddressValues lowering (ruleAddressValue lowering groups value), _
    rw [ruleAddressValue, if_neg blank]
    split at accepted
    · next sources found =>
        rw [found]
        exact clean sources accepted
    · next found =>
        split at accepted
        · cases accepted
        · rw [found, Option.getD_none, split_address_lower]
          exact clean (strip value) accepted

theorem collect_any (values : FamilyValues)
    (open' : ∀ item ∈ items, item = FIREWALL_ANY_SOURCE_GROUP_ID) :
    collectFamilies items values = values := by
  cases items with
  | nil => rfl
  | cons item items => rw [collectFamilies, if_pos (open' item List.mem_cons_self)]

theorem mem_add (values : FamilyValues) (item other : List Char) (family reading : Family) :
    other ∈ (values.add item reading).of family ↔
      other ∈ values.of family ∨ other = item ∧ reading = family := by
  cases reading <;> cases family <;> simp only [FamilyValues.add, FamilyValues.of]
  all_goals
    split
    · simp_all
    · simp_all

theorem mem_collect (networks : ∀ item ∈ items, ∃ network, readNetwork item = some network)
    (values : FamilyValues) (item : List Char) (family : Family) :
    item ∈ (collectFamilies items values).of family ↔ item ∈ values.of family ∨
      item ∈ items ∧ ∃ network, readNetwork item = some network ∧ network.family = family := by
  induction items generalizing values with
  | nil => simp [collectFamilies]
  | cons first items induction =>
    obtain ⟨network, read⟩ := networks first List.mem_cons_self
    have notAny : first ≠ FIREWALL_ANY_SOURCE_GROUP_ID := by
      rintro rfl
      rw [any_no_network] at read
      cases read
    rw [collectFamilies, if_neg notAny, read]
    dsimp only
    rw [induction (fun other inside => networks other (List.mem_cons_of_mem _ inside)), mem_add,
      or_assoc, List.mem_cons]
    apply or_congr_right
    constructor
    · rintro (⟨rfl, same⟩ | ⟨inside, reads⟩)
      · exact ⟨.inl rfl, network, read, same⟩
      · exact ⟨.inr inside, reads⟩
    · rintro ⟨rfl | inside, other, reads, same⟩
      · rw [read] at reads
        obtain rfl := Option.some.inj reads
        exact .inl ⟨rfl, same⟩
      · exact .inr ⟨inside, other, reads, same⟩

/-- A field as the variants see it: what it allows is in its texts of the two families. -/
structure Side (lowering : Lowering) (values : FamilyValues) (allows : Address → Prop) : Prop where
  texts : ∀ family, ∀ item ∈ values.of family, PlainItem lowering item ∧
    ∃ network, readNetwork item = some network ∧ network.family = family
  splits : ((∀ family, values.of family = []) ∧ ∀ address, allows address) ∨
    (∃ family, values.of family ≠ []) ∧
      ∀ address, allows address ↔ among (values.of address.family) address = true

theorem among_iff :
    among values address = true ↔ ∃ value ∈ values, ∃ network,
      readNetwork value = some network ∧ network.contains address = true := by
  rw [among, List.any_eq_true]
  simp only [Option.any_eq_true]

theorem Side.at_family {values : FamilyValues} {allows : Address → Prop}
    (side : Side lowering values allows) (allowed : allows address) :
    ((∃ family, values.of family ≠ []) → values.of address.family ≠ []) ∧
      (values.of address.family ≠ [] → among (values.of address.family) address = true) := by
  rcases side.splits with ⟨none, _⟩ | ⟨_, named⟩
  · exact ⟨fun ⟨family, filled⟩ => absurd (none family) filled,
      fun filled => absurd (none _) filled⟩
  · have inside := (named address).mp allowed
    obtain ⟨value, member, _⟩ := among_iff.mp inside
    exact ⟨fun _ => List.ne_nil_of_mem member, fun _ => inside⟩

theorem accepted_side {value : List Char}
    (accepted : validateRuleAddressValue lowering label value groups = []) :
    Side lowering (addressValuesByFamily lowering (ruleAddressValue lowering groups value))
      (Allows lowering (ruleAddressValue lowering groups value)) := by
  set text := ruleAddressValue lowering groups value with textIs
  rcases accepted_items accepted with unnamed | networks
  · have none : addressValuesByFamily lowering text = ⟨[], []⟩ := collect_any _ unnamed
    rw [none]
    refine ⟨fun family item inside => ?_, .inl ⟨fun family => ?_, fun _ => .inl unnamed⟩⟩
    · cases family <;> cases inside
    · cases family <;> rfl
  · have members : ∀ item family, item ∈ (addressValuesByFamily lowering text).of family ↔
        item ∈ splitAddressValues lowering text ∧
          ∃ network, readNetwork item = some network ∧ network.family = family := by
      intro item family
      rw [addressValuesByFamily, mem_collect networks]
      refine or_iff_right ?_
      cases family <;> exact List.not_mem_nil
    refine ⟨fun family item inside => ?_, ?_⟩
    · obtain ⟨listed, reads⟩ := (members item family).mp inside
      exact ⟨split_address_plain listed, reads⟩
    · by_cases empty : splitAddressValues lowering text = []
      · left
        refine ⟨fun family => ?_, fun address => .inl ?_⟩
        · apply List.eq_nil_iff_forall_not_mem.mpr
          intro item inside
          have listed := ((members item family).mp inside).1
          rw [empty] at listed
          cases listed
        · rw [empty]
          exact fun item inside => by cases inside
      · right
        obtain ⟨item, rest, shape⟩ := List.exists_cons_of_ne_nil empty
        have inside : item ∈ splitAddressValues lowering text := by
          rw [shape]
          exact List.mem_cons_self
        obtain ⟨network, read⟩ := networks item inside
        refine ⟨⟨network.family, List.ne_nil_of_mem
          ((members item _).mpr ⟨inside, network, read, rfl⟩)⟩, fun address => ?_⟩
        have named : ¬∀ item ∈ splitAddressValues lowering text,
            item = FIREWALL_ANY_SOURCE_GROUP_ID := by
          intro unnamed
          rw [unnamed item inside, any_no_network] at read
          cases read
        rw [Allows, or_iff_right named, among_iff, among_iff]
        constructor
        · rintro ⟨other, listed, found, reads, contains⟩
          exact ⟨other, (members other _).mpr
            ⟨listed, found, reads, (contains_family contains).symm⟩, found, reads, contains⟩
        · rintro ⟨other, listed, found, reads, contains⟩
          exact ⟨other, ((members other _).mp listed).1, found, reads, contains⟩

/-! ### Rendering -/

theorem any_no_target : sourceGroupReferenceTarget lowering groups [] FIREWALL_ANY_SOURCE_GROUP_ID = [] := by
  rw [sourceGroupReferenceTarget, (@any_plain lowering).stripped, (@any_plain lowering).lowered]
  rfl

theorem rule_address_value_any :
    ruleAddressValue lowering groups FIREWALL_ANY_SOURCE_GROUP_ID = FIREWALL_ANY_SOURCE_GROUP_ID := by
  have plain := @any_plain lowering
  rw [ruleAddressValue, plain.stripped, if_neg plain.unblank, ruleSources, if_pos any_no_target]
  exact plain.lowered

/-- What a variant says of one of its fields. -/
def familyPart (part : Family → List (List Char) → Part) (family : Family)
    (values : List (List Char)) : List Part :=
  if values = [] then [] else [part family values]

theorem variant_part (part : Family → List (List Char) → Part) {family : Family}
    (texts : ∀ item ∈ values, PlainItem lowering item ∧ ∃ network, readNetwork item = some network ∧
      network.family = family) :
    addressPart lowering groups part (joinOrAny values) = some (familyPart part family values) := by
  by_cases empty : values = []
  · have any : joinOrAny values = FIREWALL_ANY_SOURCE_GROUP_ID := by
      rw [joinOrAny, if_pos empty, join_items_single]
    rw [addressPart, any, rule_address_value_any, if_pos (.inr rfl), familyPart, if_pos empty]
  · have plain := fun item inside => (texts item inside).1
    have joined : joinOrAny values = joinItems values := by rw [joinOrAny, if_neg empty]
    have split := split_address_join plain
    have kept := @rule_address_value_join _ groups _ empty plain
      fun item inside => (texts item inside).2.imp fun _ reads => reads.1
    obtain ⟨item, rest, shape⟩ := List.exists_cons_of_ne_nil empty
    obtain ⟨network, read, same⟩ := (texts item (by rw [shape]; exact List.mem_cons_self)).2
    have named : ¬(joinItems values = [] ∨ joinItems values = FIREWALL_ANY_SOURCE_GROUP_ID) := by
      rintro (none | isAny)
      · exact (join_items_last empty fun item inside => (plain item inside).trimmed).1 none
      · rw [isAny, split_address_any] at split
        rw [← split] at shape
        obtain ⟨rfl, _⟩ := List.cons.inj shape
        rw [any_no_network] at read
        cases read
    rw [addressPart, joined, kept, if_neg named, addressExpr, split, shape]
    dsimp only [List.head?_cons, Option.bind_some]
    rw [read, familyPart, if_neg (by simp), Option.map_some, Option.map_some, same]

/-- Parts that say nothing of addresses. -/
def Silent (parts : List Part) : Prop :=
  (∀ packet, parts.all (Part.admits packet) = true) ∧ parts.flatMap Part.families = []

theorem silent_if {condition : Prop} [Decidable condition] {left right : List Part}
    (first : Silent left) (second : Silent right) : Silent (if condition then left else right) := by
  split
  · exact first
  · exact second

theorem silent_nil : Silent [] := ⟨fun _ => rfl, rfl⟩

theorem render_rule_parts {rule : FirewallRule} {source destination : List Part}
    (first : addressPart lowering groups .sourceAddress rule.source = some source)
    (second : addressPart lowering groups .destinationAddress rule.destination = some destination) :
    ∃ parts, renderRule lowering groups rule = some parts ∧
      (∀ packet, meets packet parts =
        (source.all (Part.admits packet) && destination.all (Part.admits packet))) ∧
      parts.flatMap Part.families = source.flatMap Part.families ++
        destination.flatMap Part.families := by
  rw [renderRule, first, second]
  have put : ∀ {output input icmp ports last : List Part}, Silent output → Silent input →
      Silent icmp → Silent ports → Silent last →
      (∀ packet, meets packet (output ++ input ++ icmp ++ source ++ destination ++ ports ++ last) =
        (source.all (Part.admits packet) && destination.all (Part.admits packet))) ∧
      (output ++ input ++ icmp ++ source ++ destination ++ ports ++ last).flatMap Part.families =
        source.flatMap Part.families ++ destination.flatMap Part.families := by
    intro output input icmp ports last one two three four five
    refine ⟨fun packet => ?_, ?_⟩
    · simp only [meets, List.all_append, one.1, two.1, three.1, four.1, five.1, Bool.true_and,
        Bool.and_true]
    · simp only [List.flatMap_append, one.2, two.2, three.2, four.2, five.2, List.nil_append,
        List.append_nil]
  refine ⟨_, rfl, put ?_ ?_ ?_ ?_ ?_⟩
  · exact silent_if silent_nil ⟨fun _ => rfl, rfl⟩
  · exact silent_if silent_nil ⟨fun _ => rfl, rfl⟩
  · exact silent_if ⟨fun _ => rfl, rfl⟩ silent_nil
  · exact silent_if silent_nil (silent_if ⟨fun _ => rfl, rfl⟩ ⟨fun _ => rfl, rfl⟩)
  · exact ⟨fun _ => rfl, rfl⟩

theorem render_rule_fails {rule : FirewallRule}
    (fails : addressPart lowering groups .sourceAddress rule.source = none ∨
      addressPart lowering groups .destinationAddress rule.destination = none) :
    renderRule lowering groups rule = none := by
  rw [renderRule]
  rcases fails with source | destination
  · rw [source]
    rfl
  · rw [destination]
    cases addressPart lowering groups .sourceAddress rule.source <;> rfl

/-! ### The rendered variants -/

/-- The rendered rules match the packets from the allowed sources to the allowed destinations,
and each speaks of one family. -/
def Faithful (lowering : Lowering) (groups : GroupsById) (rule : FirewallRule) : Prop :=
  ∃ rendered, renderVariants lowering groups rule = some rendered ∧
    (∀ packet, (∃ parts ∈ rendered, meets packet parts = true) ↔
      Allows lowering (ruleAddressValue lowering groups rule.source) packet.source ∧
        Allows lowering (ruleAddressValue lowering groups rule.destination) packet.destination) ∧
    ∀ parts ∈ rendered, ∀ first ∈ parts.flatMap Part.families,
      ∀ second ∈ parts.flatMap Part.families, first = second

theorem family_part_meets {family : Family} {packet : Packet} :
    (familyPart part family values).all (Part.admits packet) = true ↔
      (values ≠ [] → (part family values).admits packet = true) := by
  rw [familyPart]
  by_cases empty : values = []
  · rw [if_pos empty]
    exact iff_of_true rfl fun filled => absurd empty filled
  · rw [if_neg empty]
    simp [empty]

theorem family_part_families {family : Family} (speaks : (part family values).families = family ::
      values.filterMap fun value => (readNetwork value).map Network.family)
    (texts : ∀ item ∈ values, ∃ network, readNetwork item = some network ∧ network.family =
      family) :
    ∀ other ∈ (familyPart part family values).flatMap Part.families, other = family := by
  intro other inside
  rw [familyPart] at inside
  split at inside
  · cases inside
  · rw [List.flatMap_singleton, speaks] at inside
    rcases List.mem_cons.mp inside with same | named
    · exact same
    · obtain ⟨item, member, reads⟩ := List.mem_filterMap.mp named
      obtain ⟨network, read, same⟩ := texts item member
      rw [read] at reads
      rw [← Option.some.inj reads, same]

theorem both_families (holds : Family → Bool) :
    [Family.v4, Family.v6].any holds = true ↔ ∃ family, holds family = true := by
  constructor
  · intro found
    obtain ⟨family, _, held⟩ := List.any_eq_true.mp found
    exact ⟨family, held⟩
  · rintro ⟨family, held⟩
    apply List.any_eq_true.mpr
    refine ⟨family, ?_, held⟩
    cases family <;> simp

theorem has_values_iff {values : FamilyValues} {family : Family} :
    hasValues values family = true ↔ values.of family ≠ [] := by
  rw [hasValues, decide_eq_true_eq]

section Variants

variable {rule : FirewallRule}

abbrev sourceValues (lowering : Lowering) (groups : GroupsById) (rule : FirewallRule) : FamilyValues :=
  addressValuesByFamily lowering (ruleAddressValue lowering groups rule.source)

abbrev destinationValues (lowering : Lowering) (groups : GroupsById) (rule : FirewallRule) :
    FamilyValues :=
  addressValuesByFamily lowering (ruleAddressValue lowering groups rule.destination)

/-- A family that both fields leave possible, and one of them names. -/
def Kept (source destination : FamilyValues) (family : Family) : Prop :=
  (source.of family ≠ [] ∨ destination.of family ≠ []) ∧
    ((∃ other, source.of other ≠ []) → source.of family ≠ []) ∧
    ((∃ other, destination.of other ≠ []) → destination.of family ≠ [])

def variantOf (lowering : Lowering) (groups : GroupsById) (rule : FirewallRule) (family : Family) :
    FirewallRule :=
  { rule with
    source := joinOrAny ((sourceValues lowering groups rule).of family)
    destination := joinOrAny ((destinationValues lowering groups rule).of family) }

theorem family_left_out {values : FamilyValues} {family : Family} :
    ([Family.v4, Family.v6].any (hasValues values) && !hasValues values family) = true ↔
      ¬((∃ other, values.of other ≠ []) → values.of family ≠ []) := by
  rw [Bool.and_eq_true, both_families, Bool.not_eq_true', ← Bool.not_eq_true, has_values_iff]
  simp only [has_values_iff]
  exact Classical.not_imp.symm

theorem mem_variants (named : ∃ family, (sourceValues lowering groups rule).of family ≠ [] ∨
      (destinationValues lowering groups rule).of family ≠ []) (variant : FirewallRule) :
    variant ∈ ruleFamilyVariants lowering groups rule ↔ ∃ family,
      Kept (sourceValues lowering groups rule) (destinationValues lowering groups rule) family ∧
        variant = variantOf lowering groups rule family := by
  set source := sourceValues lowering groups rule with sourceIs
  set destination := destinationValues lowering groups rule with destinationIs
  have listed : ∀ family, family ∈ [Family.v4, Family.v6] := fun family => by
    cases family <;> simp
  have families : ∀ family, family ∈ [Family.v4, Family.v6].filter (fun family =>
      hasValues source family || hasValues destination family) ↔
      (source.of family ≠ [] ∨ destination.of family ≠ []) := by
    intro family
    rw [List.mem_filter, Bool.or_eq_true, has_values_iff, has_values_iff]
    exact and_iff_right (listed family)
  have some : [Family.v4, Family.v6].filter (fun family =>
      hasValues source family || hasValues destination family) ≠ [] := by
    obtain ⟨family, named⟩ := named
    exact List.ne_nil_of_mem ((families family).mpr named)
  rw [ruleFamilyVariants, if_neg some, List.mem_filterMap]
  constructor
  · rintro ⟨family, inside, made⟩
    split at made
    · cases made
    · next first =>
        split at made
        · cases made
        · next second =>
            rw [family_left_out, not_not] at first second
            exact ⟨family, ⟨(families family).mp inside, first, second⟩,
              (Option.some.inj made).symm⟩
  · rintro ⟨family, ⟨named, first, second⟩, rfl⟩
    refine ⟨family, (families family).mpr named, ?_⟩
    rw [if_neg (by rw [family_left_out, not_not]; exact first),
      if_neg (by rw [family_left_out, not_not]; exact second)]
    rfl

theorem unnamed_variants (unnamed : ∀ family, (sourceValues lowering groups rule).of family = [] ∧
      (destinationValues lowering groups rule).of family = []) :
    ruleFamilyVariants lowering groups rule = [rule] := by
  rw [ruleFamilyVariants, if_pos]
  apply List.filter_eq_nil_iff.mpr
  intro family _
  rw [Bool.or_eq_true, has_values_iff, has_values_iff]
  rintro (source | destination)
  · exact source (unnamed family).1
  · exact destination (unnamed family).2

theorem named_faithful
    (sourceSide : Side lowering (sourceValues lowering groups rule)
      (Allows lowering (ruleAddressValue lowering groups rule.source)))
    (destinationSide : Side lowering (destinationValues lowering groups rule)
      (Allows lowering (ruleAddressValue lowering groups rule.destination)))
    (named : ∃ family, (sourceValues lowering groups rule).of family ≠ [] ∨
      (destinationValues lowering groups rule).of family ≠ []) :
    Faithful lowering groups rule := by
  have rendered : ∀ family, ∃ parts,
      renderRule lowering groups (variantOf lowering groups rule family) = some parts ∧
      (∀ packet, meets packet parts = true ↔
        (((sourceValues lowering groups rule).of family ≠ [] →
          packet.source.family = family ∧
            among ((sourceValues lowering groups rule).of family) packet.source = true) ∧
        ((destinationValues lowering groups rule).of family ≠ [] →
          packet.destination.family = family ∧
            among ((destinationValues lowering groups rule).of family)
              packet.destination = true))) ∧
      ∀ other ∈ parts.flatMap Part.families, other = family := by
    intro family
    obtain ⟨parts, made, meaning, families⟩ := @render_rule_parts lowering groups
      (variantOf lowering groups rule family) _ _
      (variant_part .sourceAddress (sourceSide.texts family))
      (variant_part .destinationAddress (destinationSide.texts family))
    refine ⟨parts, made, fun packet => ?_, fun other inside => ?_⟩
    · rw [meaning, Bool.and_eq_true, family_part_meets, family_part_meets, Part.admits,
        Bool.and_eq_true, decide_eq_true_eq, Part.admits, Bool.and_eq_true, decide_eq_true_eq]
    · rw [families] at inside
      rcases List.mem_append.mp inside with first | second
      · exact family_part_families rfl (fun item member => (sourceSide.texts family item member).2)
          other first
      · exact family_part_families rfl
          (fun item member => (destinationSide.texts family item member).2) other second
  choose parts made meaning single using rendered
  have variants : ∀ variant ∈ ruleFamilyVariants lowering groups rule,
      renderRule lowering groups variant =
        some ((renderRule lowering groups variant).getD []) := by
    intro variant inside
    obtain ⟨family, _, rfl⟩ := (mem_variants named variant).mp inside
    rw [made family]
    rfl
  have lines : ∀ line, line ∈ (ruleFamilyVariants lowering groups rule).map
      (fun variant => (renderRule lowering groups variant).getD []) ↔
      ∃ family, Kept (sourceValues lowering groups rule) (destinationValues lowering groups rule)
        family ∧ line = parts family := by
    intro line
    rw [List.mem_map]
    constructor
    · rintro ⟨variant, inside, rfl⟩
      obtain ⟨family, kept, rfl⟩ := (mem_variants named variant).mp inside
      refine ⟨family, kept, ?_⟩
      rw [made family]
      rfl
    · rintro ⟨family, kept, rfl⟩
      refine ⟨_, (mem_variants named _).mpr ⟨family, kept, rfl⟩, ?_⟩
      rw [made family]
      rfl
  refine ⟨_, map_m_some _ variants, fun packet => ?_, ?_⟩
  · constructor
    · rintro ⟨line, inside, met⟩
      obtain ⟨family, kept, rfl⟩ := (lines line).mp inside
      obtain ⟨fromSource, toDestination⟩ := (meaning family packet).mp met
      constructor
      · rcases sourceSide.splits with ⟨_, all⟩ | ⟨filled, allows⟩
        · exact all _
        · obtain ⟨same, inSource⟩ := fromSource (kept.2.1 filled)
          exact (allows _).mpr (same ▸ inSource)
      · rcases destinationSide.splits with ⟨_, all⟩ | ⟨filled, allows⟩
        · exact all _
        · obtain ⟨same, inDestination⟩ := toDestination (kept.2.2 filled)
          exact (allows _).mpr (same ▸ inDestination)
    · rintro ⟨sourceAllowed, destinationAllowed⟩
      -- The variant of the packet's own family matches it.
      have fromSource := sourceSide.at_family sourceAllowed
      have toDestination := destinationSide.at_family destinationAllowed
      rw [← packet.families] at toDestination
      refine ⟨parts packet.source.family, (lines _).mpr ⟨packet.source.family, ⟨?_, ?_, ?_⟩, rfl⟩,
        (meaning _ packet).mpr ⟨fun filled => ?_, fun filled => ?_⟩⟩
      · obtain ⟨family, first | second⟩ := named
        · exact .inl (fromSource.1 ⟨family, first⟩)
        · exact .inr (toDestination.1 ⟨family, second⟩)
      · exact fromSource.1
      · exact toDestination.1
      · exact ⟨rfl, fromSource.2 filled⟩
      · exact ⟨packet.families.symm, toDestination.2 filled⟩
  · intro line inside first firstInside second secondInside
    obtain ⟨family, _, rfl⟩ := (lines line).mp inside
    rw [single family first firstInside, single family second secondInside]

theorem address_part_any {part : Family → List (List Char) → Part} {value : List Char}
    (unnamed : ∀ item ∈ splitAddressValues lowering (ruleAddressValue lowering groups value),
      item = FIREWALL_ANY_SOURCE_GROUP_ID) :
    addressPart lowering groups part value =
      if ruleAddressValue lowering groups value = [] ∨
        ruleAddressValue lowering groups value = FIREWALL_ANY_SOURCE_GROUP_ID then some []
      else none := by
  rw [addressPart]
  by_cases isAny : ruleAddressValue lowering groups value = [] ∨
      ruleAddressValue lowering groups value = FIREWALL_ANY_SOURCE_GROUP_ID
  · rw [if_pos isAny, if_pos isAny]
  · rw [if_neg isAny, if_neg isAny, addressExpr]
    cases shape : splitAddressValues lowering (ruleAddressValue lowering groups value) with
    | nil => rfl
    | cons item rest =>
      have same := unnamed item (by rw [shape]; exact List.mem_cons_self)
      dsimp only [List.head?_cons, Option.bind_some]
      rw [same, any_no_network]
      rfl

/-- A field is written as `any`, or as nothing. -/
abbrev IsAny (lowering : Lowering) (groups : GroupsById) (value : List Char) : Prop :=
  ruleAddressValue lowering groups value = [] ∨
    ruleAddressValue lowering groups value = FIREWALL_ANY_SOURCE_GROUP_ID

def NamesAddress (lowering : Lowering) (groups : GroupsById) (value : List Char) : Prop :=
  ∃ item ∈ splitAddressValues lowering (ruleAddressValue lowering groups value),
    item ≠ FIREWALL_ANY_SOURCE_GROUP_ID

theorem names_address_iff {label value : List Char}
    (accepted : validateRuleAddressValue lowering label value groups = []) :
    NamesAddress lowering groups value ↔
      ∃ family, (addressValuesByFamily lowering
        (ruleAddressValue lowering groups value)).of family ≠ [] := by
  rcases accepted_items accepted with unnamed | networks
  · apply iff_of_false
    · rintro ⟨item, inside, named⟩
      exact named (unnamed item inside)
    · rintro ⟨family, filled⟩
      rw [addressValuesByFamily, collect_any _ unnamed] at filled
      cases family <;> exact filled rfl
  · constructor
    · rintro ⟨item, inside, _⟩
      obtain ⟨network, read⟩ := networks item inside
      exact ⟨network.family, List.ne_nil_of_mem
        ((mem_collect networks _ item _).mpr (.inr ⟨inside, network, read, rfl⟩))⟩
    · rintro ⟨family, filled⟩
      obtain ⟨item, rest, shape⟩ := List.exists_cons_of_ne_nil filled
      have member : item ∈ (addressValuesByFamily lowering
          (ruleAddressValue lowering groups value)).of family := by
        rw [shape]
        exact List.mem_cons_self
      rcases (mem_collect networks _ item family).mp member with none | ⟨inside, network, read, _⟩
      · cases family <;> cases none
      · refine ⟨item, inside, ?_⟩
        rintro rfl
        rw [any_no_network] at read
        cases read

theorem not_names_address {value : List Char} (unnamed : ¬NamesAddress lowering groups value) :
    ∀ item ∈ splitAddressValues lowering (ruleAddressValue lowering groups value),
      item = FIREWALL_ANY_SOURCE_GROUP_ID := by
  intro item inside
  by_contra named
  exact unnamed ⟨item, inside, named⟩

theorem accepted_faithful_iff
    (source : validateRuleAddressValue lowering "Source".toList rule.source groups = [])
    (destination :
      validateRuleAddressValue lowering "Destination".toList rule.destination groups = []) :
    Faithful lowering groups rule ↔
      NamesAddress lowering groups rule.source ∨ NamesAddress lowering groups rule.destination ∨
        IsAny lowering groups rule.source ∧ IsAny lowering groups rule.destination := by
  by_cases named : NamesAddress lowering groups rule.source ∨
      NamesAddress lowering groups rule.destination
  · refine iff_of_true (named_faithful (accepted_side source) (accepted_side destination) ?_)
      (named.imp_right .inl)
    rcases named with first | second
    · exact ((names_address_iff source).mp first).imp fun _ => .inl
    · exact ((names_address_iff destination).mp second).imp fun _ => .inr
  · obtain ⟨noSource, noDestination⟩ := not_or.mp named
    have unnamed : ∀ family, (sourceValues lowering groups rule).of family = [] ∧
        (destinationValues lowering groups rule).of family = [] := by
      intro family
      constructor
      · by_contra filled
        exact noSource ((names_address_iff source).mpr ⟨family, filled⟩)
      · by_contra filled
        exact noDestination ((names_address_iff destination).mpr ⟨family, filled⟩)
    have sourcePart := @address_part_any _ groups .sourceAddress _ (not_names_address noSource)
    have destinationPart :=
      @address_part_any _ groups .destinationAddress _ (not_names_address noDestination)
    rw [or_iff_right noSource, or_iff_right noDestination, Faithful, renderVariants,
      unnamed_variants unnamed]
    by_cases both : IsAny lowering groups rule.source ∧ IsAny lowering groups rule.destination
    · rw [if_pos both.1] at sourcePart
      rw [if_pos both.2] at destinationPart
      obtain ⟨parts, made, meaning, families⟩ := render_rule_parts sourcePart destinationPart
      refine iff_of_true ⟨[parts], ?_, fun packet => ?_, ?_⟩ both
      · rw [List.mapM_cons, made]
        rfl
      · refine iff_of_true ⟨parts, List.mem_singleton_self parts, meaning packet⟩
          ⟨.inl (not_names_address noSource), .inl (not_names_address noDestination)⟩
      · intro line inside first firstInside
        rw [List.mem_singleton.mp inside, families] at firstInside
        cases firstInside
    · refine iff_of_false ?_ both
      rintro ⟨rendered, made, _⟩
      have fails : renderRule lowering groups rule = none := by
        apply render_rule_fails
        rcases not_and_or.mp both with first | second
        · exact .inl (by rw [sourcePart, if_neg first])
        · exact .inr (by rw [destinationPart, if_neg second])
      rw [List.mapM_cons, fails] at made
      cases made

end Variants

end Rules

/-- Rules that validation accepts, rendered and read as packets' conditions: the variants mean
what the rule says, exactly when a field names an address or both fields are just `any`. -/
theorem rule_families_faithful_iff (lowering : Lowering) (isDigit : Char → Bool)
    (sourceGroups : List SourceGroup) (rule : FirewallRule)
    (accepted : validateFirewallRule lowering isDigit rule sourceGroups = some []) :
    Faithful lowering (groupsById sourceGroups) rule ↔
      NamesAddress lowering (groupsById sourceGroups) rule.source ∨
      NamesAddress lowering (groupsById sourceGroups) rule.destination ∨
      IsAny lowering (groupsById sourceGroups) rule.source ∧
        IsAny lowering (groupsById sourceGroups) rule.destination := by
  rw [validateFirewallRule] at accepted
  obtain ⟨ports, _, same⟩ := Option.bind_eq_some_iff.mp accepted
  have clean := (List.append_eq_nil_iff.mp (Option.some.inj same)).1
  obtain ⟨front, destination⟩ := List.append_eq_nil_iff.mp clean
  exact accepted_faithful_iff (List.append_eq_nil_iff.mp front).2 destination

def sampleRule : FirewallRule where
  name := "web".toList
  direction := "input".toList
  action := "accept".toList
  protocol := "tcp".toList
  source := "@Lab".toList
  destination := "10.0.0.5, fd00::5".toList
  destinationPort := "80,443".toList
  interfaceName := "eth0".toList
  routingDestinationInterface := []

def sampleGroups : List SourceGroup :=
  [⟨"any".toList, "Any".toList, ["any".toList]⟩,
    ⟨"lab".toList, "LAB".toList, ["10.1.0.0/16".toList, "group:dmz".toList]⟩,
    ⟨"dmz".toList, "DMZ".toList, ["fd00:1::/64".toList]⟩]

def sampleDigit (c : Char) : Bool := c.isDigit

theorem sample_rule_faithful :
    Faithful asciiLowering (groupsById sampleGroups) sampleRule ∧
    (renderVariants asciiLowering (groupsById sampleGroups) sampleRule).map
      (List.map fun parts => String.ofList (ruleText parts)) =
      some ["iifname \"eth0\" ip saddr 10.1.0.0/16 ip daddr 10.0.0.5 tcp dport { 80, 443 } accept comment \"web\"",
        "iifname \"eth0\" ip6 saddr fd00:1::/64 ip6 daddr fd00::5 tcp dport { 80, 443 } accept comment \"web\""] :=
  ⟨(rule_families_faithful_iff asciiLowering sampleDigit sampleGroups sampleRule
      (by decide +kernel)).mpr (.inr (.inl ⟨"10.0.0.5".toList, by decide, by decide⟩)),
    by decide +kernel⟩

/-- `any` with a comma behind it is accepted as a source, and cannot be rendered. -/
def commaRule : FirewallRule :=
  { sampleRule with source := "any,".toList, destination := "any".toList }

theorem accepted_rule_exception :
    validateFirewallRule asciiLowering sampleDigit commaRule sampleGroups = some [] ∧
    renderVariants asciiLowering (groupsById sampleGroups) commaRule = none ∧
    ¬Faithful asciiLowering (groupsById sampleGroups) commaRule := by
  have raises : renderVariants asciiLowering (groupsById sampleGroups) commaRule = none := by
    decide
  refine ⟨by decide, raises, ?_⟩
  rintro ⟨rendered, made, _⟩
  rw [raises] at made
  cases made

end Atlaso.Firewall.FamilySplits
