import Atlaso.Firewall.FamilySplits
import Atlaso.Firewall.GroupExpansion

/-!
What a rule matches that uses a Source Group.

An entry may hold several addresses, with commas between them, and an entry such as `any,` is
read as `any` by the validation and kept as an address by the expansion. So the expansion is
exact, and rules that use it match what the groups list, when every group is readable: it reaches
an entry `any`, or it names an address and no entry that is read as `any`.
-/

namespace Atlaso.Firewall.GroupRules

open Library Dictionary IpAddress IpNetwork ItemLists JsonText
open TextFields SourceGroups RuleFamilies FamilySplits GroupExpansion

section Groups

variable {lowering : Lowering} {groups : List SourceGroup} {names : List (List Char × List Char)}

/-! ### What groups list -/

/-- A group has an entry that is read as `any`. -/
def ReadsAny (lowering : Lowering) (groups : List SourceGroup) (group : SourceGroup) : Prop :=
  ∃ entry ∈ entriesOf lowering group, (∀ target, ¬Refers lowering groups entry target) ∧
    FIREWALL_ANY_SOURCE_GROUP_ID ∈ splitAddressValues lowering entry

def Opens (lowering : Lowering) (groups : List SourceGroup) (group : SourceGroup) : Prop :=
  ∃ reached, Reaches lowering groups group reached ∧ ReadsAny lowering groups reached

def Listed (lowering : Lowering) (groups : List SourceGroup) (group : SourceGroup)
    (item : List Char) : Prop :=
  ∃ reached, Reaches lowering groups group reached ∧ ∃ entry ∈ entriesOf lowering reached,
    IsAddress lowering groups entry ∧ item ∈ splitAddressValues lowering entry

def Lists (lowering : Lowering) (groups : List SourceGroup) (group : SourceGroup)
    (address : Address) : Prop :=
  Opens lowering groups group ∨ ∃ item, Listed lowering groups group item ∧
    ∃ network, readNetwork item = some network ∧ network.contains address = true

/-- `_expand_source_group_entries(group, {group["id"]: group})` -/
abbrev sourcesOf (lowering : Lowering) (groups : List SourceGroup) (group : SourceGroup) :
    List (List Char) :=
  expandSourceGroupEntries lowering (groupsById groups) [] (some group)

structure ExpandsExactly (lowering : Lowering) (groups : List SourceGroup) (group : SourceGroup) :
    Prop where
  opens : sourcesOf lowering groups group = [FIREWALL_ANY_SOURCE_GROUP_ID] ↔
    Opens lowering groups group
  distinct : (sourcesOf lowering groups group).Nodup
  lists : ¬Opens lowering groups group → ∀ source, source ∈ sourcesOf lowering groups group ↔
    ∃ reached, Reaches lowering groups group reached ∧
      source ∈ entriesOf lowering reached ∧ IsAddress lowering groups source
  plain : ∀ source ∈ sourcesOf lowering groups group,
    looksLikeSourceGroupReference lowering source = false

inductive Field (lowering : Lowering) (groups : List SourceGroup) :
    List Char → (Address → Prop) → Prop
  | all : Field lowering groups FIREWALL_ANY_SOURCE_GROUP_ID fun _ => True
  | networks {value : List Char} (plain : looksLikeSourceGroupReference lowering value = false)
      (filled : splitAddressValues lowering (strip value) ≠ [])
      (read : ∀ item ∈ splitAddressValues lowering (strip value),
        ∃ network, readNetwork item = some network) :
      Field lowering groups value fun address =>
        among (splitAddressValues lowering (strip value)) address = true
  | reference {value : List Char} {group : SourceGroup}
      (refers : Refers lowering groups (normalizeEntry lowering value) group) :
      Field lowering groups value (Lists lowering groups group)
  /-- The field of a generated rule, `source_group_to_rule_source(group)`. -/
  | sources {group : SourceGroup} (inside : group ∈ groups) :
      Field lowering groups (joinItems (sourcesOf lowering groups group))
        (Lists lowering groups group)

def RulesExact (lowering : Lowering) (groups : List SourceGroup) : Prop :=
  ∀ (rule : FirewallRule) (source destination : Address → Prop),
    Field lowering groups rule.source source → Field lowering groups rule.destination destination →
    ∃ rendered, renderVariants lowering (groupsById groups) rule = some rendered ∧
      ∀ packet : Packet, (∃ parts ∈ rendered, meets packet parts = true) ↔
        source packet.source ∧ destination packet.destination

/-- A group reaches an entry `any`, or names an address and nothing that is read as `any`. -/
def Readable (lowering : Lowering) (groups : List SourceGroup) (group : SourceGroup) : Prop :=
  (∃ reached, Reaches lowering groups group reached ∧
    FIREWALL_ANY_SOURCE_GROUP_ID ∈ entriesOf lowering reached) ∨
  ¬Opens lowering groups group ∧ ∃ item, Listed lowering groups group item

/-! ### Targets -/

theorem lower_at (name : List Char) : (lowering.lower ('@' :: name)).head? = some '@' := by
  obtain ⟨rest, starts⟩ := lowering.leading ['@'] name
    (List.all_iff_forall_prop.mp (by decide))
  rw [List.singleton_append] at starts
  rw [← starts]
  rfl

theorem target_normalize (byId : GroupsById) (value : List Char) :
    sourceGroupReferenceTarget lowering byId names (normalizeEntry lowering value) =
      sourceGroupReferenceTarget lowering byId names value := by
  have stripped := (@normalize_entry_normal lowering value).stripped
  rw [sourceGroupReferenceTarget, stripped, sourceGroupReferenceTarget]
  unfold normalizeEntry
  by_cases isAny : lowering.lower (strip value) = FIREWALL_ANY_SOURCE_GROUP_ID
  · have other : ¬FIREWALL_SOURCE_GROUP_REFERENCE_PREFIX.isPrefixOf
        FIREWALL_ANY_SOURCE_GROUP_ID = true := by decide
    rw [if_pos isAny, lower_any, isAny, if_neg other, if_neg other]
    split
    · next shape => exact absurd (List.head_eq_of_cons_eq shape) (by decide)
    · split
      · next name shape =>
          have head := @lower_at lowering name
          rw [← shape, isAny] at head
          exact absurd head (by decide)
      · rfl
  · rw [if_neg isAny]
    by_cases refers : FIREWALL_SOURCE_GROUP_REFERENCE_PREFIX.isPrefixOf
        (lowering.lower (strip value)) = true
    · rw [if_pos refers, if_pos refers,
        if_pos (List.isPrefixOf_iff_prefix.mpr (lower_reference lowering _)), List.drop_left]
    · rw [if_neg refers, if_neg refers]

theorem target_plain {byId : GroupsById} {value : List Char}
    (plain : looksLikeSourceGroupReference lowering value = false) :
    sourceGroupReferenceTarget lowering byId names value = [] := by
  obtain ⟨notName, notId⟩ := Bool.or_eq_false_iff.mp plain
  rw [sourceGroupReferenceTarget, if_neg (by rw [notId]; exact Bool.false_ne_true)]
  split
  · next name shape =>
      rw [shape] at notName
      exact absurd rfl (of_decide_eq_false notName)
  · rfl

theorem Valid.target_again (valid : Valid lowering groups names) (value : List Char) :
    sourceGroupReferenceTarget lowering (groupsById groups) [] value =
      sourceGroupReferenceTarget lowering (groupsById groups)
        (sourceGroupNameIndex lowering (groupsById groups)) value := by
  rw [sourceGroupReferenceTarget, sourceGroupReferenceTarget, if_pos rfl,
    if_neg valid.nameFilled]

theorem reaches_inside {group reached : SourceGroup} (inside : group ∈ groups)
    (reaches : Reaches lowering groups group reached) : reached ∈ groups := by
  induction reaches with
  | refl => exact inside
  | tail _ edge _ =>
    obtain ⟨_, _, refers⟩ := edge
    exact refers.1

/-! ### The sources of a group -/

theorem any_read : FIREWALL_ANY_SOURCE_GROUP_ID ∈
    splitAddressValues lowering FIREWALL_ANY_SOURCE_GROUP_ID := by
  rw [split_address_any]
  exact List.mem_singleton_self _

theorem any_refers_nowhere (target : SourceGroup) :
    ¬Refers lowering groups FIREWALL_ANY_SOURCE_GROUP_ID target := by
  rintro ⟨_, _, byId | ⟨name, shape, _⟩⟩
  · exact absurd (List.head_eq_of_cons_eq byId) (by decide)
  · exact absurd (List.head_eq_of_cons_eq shape) (by decide)

/-- An entry `any` is read as `any`. -/
theorem opens_of_any {group reached : SourceGroup} (reaches : Reaches lowering groups group reached)
    (present : FIREWALL_ANY_SOURCE_GROUP_ID ∈ entriesOf lowering reached) :
    Opens lowering groups group :=
  ⟨reached, reaches, _, present, any_refers_nowhere, any_read⟩

section Valid

variable (valid : Valid lowering groups names)

include valid

variable {group : SourceGroup}

theorem sources_exact (inside : group ∈ groups) :
    Exact lowering groups group (sourcesOf lowering groups group) := by
  obtain ⟨path, clear⟩ := valid.clear inside
  exact expand_exact valid (List.nil_subset path) clear

theorem address_plain {reached : SourceGroup} {entry : List Char} (inside : reached ∈ groups)
    (member : entry ∈ entriesOf lowering reached) (address : IsAddress lowering groups entry) :
    looksLikeSourceGroupReference lowering entry = false := by
  by_contra looks
  rw [Bool.not_eq_false] at looks
  obtain ⟨target, refers⟩ := valid.resolved reached inside entry member looks
  exact address.2 target refers

theorem sources_plain (inside : group ∈ groups) :
    ∀ source ∈ sourcesOf lowering groups group,
      looksLikeSourceGroupReference lowering source = false := by
  have exact' := sources_exact valid inside
  intro source member
  by_cases opened : ∃ reached, Reaches lowering groups group reached ∧
      FIREWALL_ANY_SOURCE_GROUP_ID ∈ entriesOf lowering reached
  · rw [exact'.opens.mpr opened] at member
    rw [List.mem_singleton.mp member]
    exact any_not_reference
  · obtain ⟨reached, reaches, listed, address⟩ := (exact'.lists opened source).mp member
    exact address_plain valid (reaches_inside inside reaches) listed address

theorem listed_network (inside : group ∈ groups) (closed : ¬Opens lowering groups group)
    {item : List Char} (listed : Listed lowering groups group item) :
    ∃ network, readNetwork item = some network := by
  obtain ⟨reached, reaches, entry, member, address, named⟩ := listed
  obtain ⟨label, readable⟩ := valid.readable reached (reaches_inside inside reaches)
  set addresses := (entriesOf lowering reached).filter fun entry =>
    sourceGroupReferenceTarget lowering (groupsById groups) names entry = [] with addressesIs
  have items : splitAddressValues lowering (joinItems addresses) =
      addresses.flatMap (splitAddressValues lowering) := by
    rw [splitAddressValues, split_items_join, List.map_flatMap]
    rfl
  have untargeted : ∀ entry ∈ entriesOf lowering reached, ∀ target,
      sourceGroupReferenceTarget lowering (groupsById groups) names entry = [] →
        ¬Refers lowering groups entry target := by
    intro entry member target none refers
    obtain ⟨unblank, same⟩ := (valid.target member target.id).mpr ⟨target, refers, rfl⟩
    exact unblank (same.symm.trans none)
  have noAny : FIREWALL_ANY_SOURCE_GROUP_ID ∉ splitAddressValues lowering (joinItems addresses) := by
    rw [items]
    intro found
    obtain ⟨other, present, any⟩ := List.mem_flatMap.mp found
    obtain ⟨otherMember, none⟩ := List.mem_filter.mp present
    exact closed ⟨reached, reaches, other, otherMember,
      fun target => untargeted other otherMember target (of_decide_eq_true none), any⟩
  rw [validateAddressValue, if_neg noAny] at readable
  have target : sourceGroupReferenceTarget lowering (groupsById groups) names entry = [] := by
    by_contra unblank
    obtain ⟨target, refers, _⟩ := (valid.target member _).mp ⟨unblank, rfl⟩
    exact address.2 target refers
  have present : item ∈ splitAddressValues lowering (joinItems addresses) := by
    rw [items]
    exact List.mem_flatMap.mpr ⟨entry, List.mem_filter.mpr ⟨member, decide_eq_true target⟩, named⟩
  have read := List.flatMap_eq_nil_iff.mp readable item present
  split at read
  · next some => exact Option.isSome_iff_exists.mp some
  · cases read

theorem sources_items (inside : group ∈ groups) (closed : ¬Opens lowering groups group)
    (item : List Char) :
    item ∈ splitAddressValues lowering (joinItems (sourcesOf lowering groups group)) ↔
      Listed lowering groups group item := by
  have unopened : ¬∃ reached, Reaches lowering groups group reached ∧
      FIREWALL_ANY_SOURCE_GROUP_ID ∈ entriesOf lowering reached := by
    rintro ⟨reached, reaches, present⟩
    exact closed (opens_of_any reaches present)
  have members := (sources_exact valid inside).lists unopened
  rw [splitAddressValues, split_items_join, List.map_flatMap, List.mem_flatMap]
  constructor
  · rintro ⟨source, member, named⟩
    obtain ⟨reached, reaches, listed, address⟩ := (members source).mp member
    exact ⟨reached, reaches, source, listed, address, named⟩
  · rintro ⟨reached, reaches, entry, member, address, named⟩
    exact ⟨entry, (members entry).mpr ⟨reached, reaches, member, address⟩, named⟩

end Valid

/-! ### Fields -/

structure Meant (lowering : Lowering) (byId : GroupsById) (value : List Char)
    (stands : Address → Prop) : Prop where
  accepted : ∀ label, validateRuleAddressValue lowering label value byId = []
  written : NamesAddress lowering byId value ∨ IsAny lowering byId value
  allows : ∀ address, Allows lowering (ruleAddressValue lowering byId value) address ↔
    stands address

variable {byId : GroupsById}

theorem validate_networks {text : List Char}
    (networks : ∀ item ∈ splitAddressValues lowering text,
      ∃ network, readNetwork item = some network) (label : List Char) :
    validateAddressValue lowering label text = [] := by
  have noAny : FIREWALL_ANY_SOURCE_GROUP_ID ∉ splitAddressValues lowering text := by
    intro found
    obtain ⟨network, read⟩ := networks _ found
    rw [any_no_network] at read
    cases read
  rw [validateAddressValue, if_neg noAny]
  apply List.flatMap_eq_nil_iff.mpr
  intro item inside
  obtain ⟨network, read⟩ := networks item inside
  rw [read]
  rfl

theorem validate_any (label : List Char) :
    validateAddressValue lowering label FIREWALL_ANY_SOURCE_GROUP_ID = [] := by
  rw [validateAddressValue, split_address_any, if_pos (List.mem_singleton_self _), if_pos rfl]

theorem networks_written {value : List Char} {items : List (List Char)}
    (split : splitAddressValues lowering (ruleAddressValue lowering byId value) = items)
    (filled : items ≠ []) (networks : ∀ item ∈ items, ∃ network, readNetwork item = some network) :
    NamesAddress lowering byId value ∧ ∀ address,
      Allows lowering (ruleAddressValue lowering byId value) address ↔
        among items address = true := by
  obtain ⟨item, rest, shape⟩ := List.exists_cons_of_ne_nil filled
  have member : item ∈ items := by
    rw [shape]
    exact List.mem_cons_self
  have named : item ≠ FIREWALL_ANY_SOURCE_GROUP_ID := by
    rintro rfl
    obtain ⟨network, read⟩ := networks _ member
    rw [any_no_network] at read
    cases read
  refine ⟨⟨item, by rwa [split], named⟩, fun address => ?_⟩
  rw [Allows, split]
  apply or_iff_right
  exact fun unnamed => named (unnamed item member)

theorem plain_value {value : List Char} (filled : splitAddressValues lowering (strip value) ≠ [])
    (plain : looksLikeSourceGroupReference lowering value = false) :
    strip value ≠ [] ∧ ruleSources lowering byId (strip value) = none ∧
      looksLikeSourceGroupReference lowering (strip value) = false := by
  have plainStrip : looksLikeSourceGroupReference lowering (strip value) = false := by
    rw [looksLikeSourceGroupReference, strip_strip]
    exact plain
  refine ⟨?_, ?_, plainStrip⟩
  · intro blank
    rw [blank] at filled
    exact filled rfl
  · rw [ruleSources, if_pos (target_plain plainStrip)]

theorem networks_meant {value : List Char}
    (plain : looksLikeSourceGroupReference lowering value = false)
    (filled : splitAddressValues lowering (strip value) ≠ [])
    (networks : ∀ item ∈ splitAddressValues lowering (strip value),
      ∃ network, readNetwork item = some network) :
    Meant lowering byId value fun address =>
      among (splitAddressValues lowering (strip value)) address = true := by
  obtain ⟨unblank, noSources, plainStrip⟩ := @plain_value _ byId _ filled plain
  have text : ruleAddressValue lowering byId value = lowering.lower (strip value) := by
    rw [ruleAddressValue, if_neg unblank, noSources]
    rfl
  have split : splitAddressValues lowering (ruleAddressValue lowering byId value) =
      splitAddressValues lowering (strip value) := by
    rw [text, split_address_lower]
  obtain ⟨named, allows⟩ := networks_written split filled networks
  refine ⟨fun label => ?_, .inl named, allows⟩
  rw [validateRuleAddressValue, if_neg unblank, noSources, plainStrip]
  exact validate_networks networks label

theorem any_meant : Meant lowering byId FIREWALL_ANY_SOURCE_GROUP_ID fun _ => True := by
  have unblank : strip FIREWALL_ANY_SOURCE_GROUP_ID ≠ [] := by decide
  have stripped : strip FIREWALL_ANY_SOURCE_GROUP_ID = FIREWALL_ANY_SOURCE_GROUP_ID := by decide
  refine ⟨fun label => ?_, .inr (.inr rule_address_value_any), fun address => ?_⟩
  · rw [validateRuleAddressValue, if_neg unblank, stripped, ruleSources, if_pos any_no_target,
      any_not_reference]
    exact validate_any label
  · refine iff_of_true (.inl ?_) trivial
    rw [rule_address_value_any, split_address_any]
    exact fun item inside => List.mem_singleton.mp inside

theorem prefix_before {front text rest : List Char} {c : Char} (apart : c ∉ front)
    (starts : front <+: text ++ c :: rest) : front <+: text := by
  rcases List.prefix_or_prefix_of_prefix starts (List.prefix_append text (c :: rest)) with
    short | ⟨more, rfl⟩
  · exact short
  · rw [List.prefix_append_right_inj] at starts
    cases more with
    | nil =>
      exact ⟨[], by simp⟩
    | cons d more =>
      obtain ⟨_, shape⟩ := starts
      obtain rfl := List.head_eq_of_cons_eq shape
      exact absurd (List.mem_append_right text List.mem_cons_self) apart

theorem join_plain {entry : List Char} {entries : List (List Char)}
    (trimmed : ∀ other ∈ entry :: entries, other ≠ [] ∧ strip other = other)
    (plain : looksLikeSourceGroupReference lowering entry = false) :
    looksLikeSourceGroupReference lowering (joinItems (entry :: entries)) = false := by
  obtain ⟨unblank, stripped⟩ := trimmed entry List.mem_cons_self
  rw [looksLikeSourceGroupReference, stripped] at plain
  rw [looksLikeSourceGroupReference, strip_join trimmed, join_items_head unblank]
  obtain ⟨notName, notId⟩ := Bool.or_eq_false_iff.mp plain
  refine Bool.or_eq_false_iff.mpr ⟨notName, ?_⟩
  rw [Bool.eq_false_iff] at notId ⊢
  intro found
  apply notId
  rw [List.isPrefixOf_iff_prefix] at found ⊢
  rcases join_items_cons entry entries with same | ⟨rest, same⟩
  · rwa [same] at found
  · rw [same, lowering.apart entry '\n' rest (by decide)] at found
    exact prefix_before (by decide) found

/-! ### Fields that use groups -/

theorem entry_unblank {group : SourceGroup} {entry : List Char}
    (inside : entry ∈ entriesOf lowering group) : entry ≠ [] := by
  obtain ⟨value, member, rfl⟩ := List.mem_map.mp inside
  have unblank : strip value ≠ [] := by
    split at member
    · rw [List.mem_singleton.mp member]
      decide
    · obtain ⟨listed, some⟩ := List.mem_filter.mp member
      obtain ⟨raw, _, rfl⟩ := List.mem_map.mp listed
      rw [strip_strip]
      exact of_decide_eq_true some
  rw [normalizeEntry]
  split
  · decide
  · split
    · simp [FIREWALL_SOURCE_GROUP_REFERENCE_PREFIX]
    · exact unblank

section Valid

variable (valid : Valid lowering groups names)

include valid

variable {group : SourceGroup}

section

variable (inside : group ∈ groups)
include inside

theorem sources_trimmed :
    ∀ source ∈ sourcesOf lowering groups group, source ≠ [] ∧ strip source = source := by
  have exact' := sources_exact valid inside
  intro source member
  by_cases opened : ∃ reached, Reaches lowering groups group reached ∧
      FIREWALL_ANY_SOURCE_GROUP_ID ∈ entriesOf lowering reached
  · rw [exact'.opens.mpr opened] at member
    rw [List.mem_singleton.mp member]
    decide
  · obtain ⟨reached, _, listed, _⟩ := (exact'.lists opened source).mp member
    exact ⟨entry_unblank listed, (entries_normal listed).stripped⟩

theorem sources_text_plain :
    looksLikeSourceGroupReference lowering (joinItems (sourcesOf lowering groups group)) = false := by
  have trimmed := sources_trimmed valid inside
  have plain := sources_plain valid inside
  obtain ⟨source, rest, shape⟩ :=
    List.exists_cons_of_ne_nil (@expand_some lowering groups [] (some group))
  change sourcesOf lowering groups group = source :: rest at shape
  rw [shape] at trimmed plain ⊢
  exact join_plain trimmed (plain source List.mem_cons_self)

theorem sources_lists (closed : ¬Opens lowering groups group) (address : Address) :
    among (splitAddressValues lowering (joinItems (sourcesOf lowering groups group))) address =
      true ↔ Lists lowering groups group address := by
  rw [Lists, or_iff_right closed, among_iff]
  constructor
  · rintro ⟨item, member, reads⟩
    exact ⟨item, (sources_items valid inside closed item).mp member, reads⟩
  · rintro ⟨item, listed, reads⟩
    exact ⟨item, (sources_items valid inside closed item).mpr listed, reads⟩

theorem readable_sources (readable : Readable lowering groups group) :
    Opens lowering groups group ∧
        sourcesOf lowering groups group = [FIREWALL_ANY_SOURCE_GROUP_ID] ∨
      ¬Opens lowering groups group ∧
        splitAddressValues lowering (joinItems (sourcesOf lowering groups group)) ≠ [] ∧
        ∀ item ∈ splitAddressValues lowering (joinItems (sourcesOf lowering groups group)),
          ∃ network, readNetwork item = some network := by
  rcases readable with opened | ⟨closed, item, listed⟩
  · left
    obtain ⟨reached, reaches, present⟩ := opened
    exact ⟨opens_of_any reaches present,
      (sources_exact valid inside).opens.mpr ⟨reached, reaches, present⟩⟩
  · right
    refine ⟨closed, ?_, ?_⟩
    · exact List.ne_nil_of_mem ((sources_items valid inside closed item).mpr listed)
    · intro other member
      exact listed_network valid inside closed
        ((sources_items valid inside closed other).mp member)

/-- The field of a generated rule. -/
theorem sources_meant (readable : Readable lowering groups group) :
    Meant lowering byId (joinItems (sourcesOf lowering groups group))
      (Lists lowering groups group) := by
  rcases readable_sources valid inside readable with ⟨opened, same⟩ | ⟨closed, filled, networks⟩
  · rw [same, join_items_single]
    obtain ⟨accepted, written, allows⟩ := @any_meant lowering byId
    exact ⟨accepted, written, fun address =>
      (allows address).trans (iff_of_true trivial (.inl opened))⟩
  · have stripped := strip_join (sources_trimmed valid inside)
    obtain ⟨accepted, written, allows⟩ := @networks_meant lowering byId _
      (sources_text_plain valid inside) (by rwa [stripped]) (by rwa [stripped])
    refine ⟨accepted, written, fun address => (allows address).trans ?_⟩
    rw [stripped]
    exact sources_lists valid inside closed address

end

theorem reference_sources {value : List Char}
    (refers : Refers lowering groups (normalizeEntry lowering value) group) :
    ruleSources lowering (groupsById groups) (strip value) =
      some (joinItems (sourcesOf lowering groups group)) := by
  have target : sourceGroupReferenceTarget lowering (groupsById groups) [] (strip value) =
      group.id := by
    have again : sourceGroupReferenceTarget lowering (groupsById groups) [] (strip value) =
        sourceGroupReferenceTarget lowering (groupsById groups) [] value := by
      rw [sourceGroupReferenceTarget, sourceGroupReferenceTarget, strip_strip]
    rw [again, Valid.target_again valid, ← target_normalize]
    exact ((reference_target_iff valid.produced.distinct valid.nameIndex valid.nameFilled
      (normalize_entry_normal value) group.id).mpr ⟨group, refers, rfl⟩).2
  rw [ruleSources, target, if_neg refers.2.1,
    (get_group valid.produced.distinct).mpr ⟨refers.1, rfl⟩]

theorem reference_meant {value : List Char}
    (refers : Refers lowering groups (normalizeEntry lowering value) group)
    (readable : Readable lowering groups group) :
    Meant lowering (groupsById groups) value (Lists lowering groups group) := by
  have sources := reference_sources valid refers
  have unblank : strip value ≠ [] := by
    intro blank
    rw [blank, ruleSources] at sources
    have none : sourceGroupReferenceTarget lowering (groupsById groups) [] [] = [] := by
      apply target_plain
      rw [looksLikeSourceGroupReference, show strip [] = [] from rfl, lower_nil]
      rfl
    rw [if_pos none] at sources
    cases sources
  have text : ruleAddressValue lowering (groupsById groups) value =
      joinItems (sourcesOf lowering groups group) := by
    rw [ruleAddressValue, if_neg unblank, sources]
    rfl
  have validated : ∀ label, validateRuleAddressValue lowering label value (groupsById groups) =
      validateAddressValue lowering label (joinItems (sourcesOf lowering groups group)) := by
    intro label
    rw [validateRuleAddressValue, if_neg unblank, sources]
  rcases readable_sources valid refers.1 readable with
    ⟨opened, same⟩ | ⟨closed, filled, networks⟩
  · rw [same, join_items_single] at text validated
    refine ⟨fun label => ?_, .inr (.inr text), fun address => iff_of_true (.inl ?_) (.inl opened)⟩
    · rw [validated]
      exact validate_any label
    · rw [text, split_address_any]
      exact fun item inside => List.mem_singleton.mp inside
  · obtain ⟨named, allows⟩ := @networks_written lowering (groupsById groups) value _
      (by rw [text]) filled networks
    refine ⟨fun label => ?_, .inl named, fun address => ?_⟩
    · rw [validated]
      exact validate_networks networks label
    · exact (allows address).trans (sources_lists valid refers.1 closed address)

theorem field_meant (readable : ∀ group ∈ groups, Readable lowering groups group)
    {value : List Char} {stands : Address → Prop} (field : Field lowering groups value stands) :
    Meant lowering (groupsById groups) value stands := by
  cases field with
  | all => exact any_meant
  | networks plain filled read => exact networks_meant plain filled read
  | reference refers => exact reference_meant valid refers (readable _ refers.1)
  | sources inside => exact sources_meant valid inside (readable _ inside)

/-! ### Exactness -/

theorem readable_expands (inside : group ∈ groups) (readable : Readable lowering groups group) :
    ExpandsExactly lowering groups group := by
  have exact' := sources_exact valid inside
  have opened_iff : Opens lowering groups group ↔ ∃ reached,
      Reaches lowering groups group reached ∧
        FIREWALL_ANY_SOURCE_GROUP_ID ∈ entriesOf lowering reached := by
    constructor
    · intro opens
      exact readable.resolve_right fun closed => closed.1 opens
    · rintro ⟨reached, reaches, present⟩
      exact opens_of_any reaches present
  refine ⟨exact'.opens.trans opened_iff.symm, exact'.distinct, fun closed => ?_,
    sources_plain valid inside⟩
  rw [opened_iff] at closed
  exact exact'.lists closed

theorem readable_rules (readable : ∀ group ∈ groups, Readable lowering groups group) :
    RulesExact lowering groups := by
  intro rule source destination sourceField destinationField
  have first := field_meant valid readable sourceField
  have second := field_meant valid readable destinationField
  have faithful : Faithful lowering (groupsById groups) rule := by
    apply (accepted_faithful_iff (first.accepted _) (second.accepted _)).mpr
    rcases first.written with named | any
    · exact .inl named
    · rcases second.written with named | other
      · exact .inr (.inl named)
      · exact .inr (.inr ⟨any, other⟩)
  obtain ⟨rendered, made, meaning, _⟩ := faithful
  refine ⟨rendered, made, fun packet => (meaning packet).trans ?_⟩
  rw [first.allows, second.allows]

theorem unlisted_fails (inside : group ∈ groups) (closed : ¬Opens lowering groups group)
    (unlisted : ∀ item, ¬Listed lowering groups group item) (rule : FirewallRule)
    (source : rule.source = joinItems (sourcesOf lowering groups group))
    (destination : rule.destination = FIREWALL_ANY_SOURCE_GROUP_ID) :
    renderVariants lowering (groupsById groups) rule = none := by
  have trimmed := sources_trimmed valid inside
  have stripped := strip_join trimmed
  have unblank := (join_items_last (@expand_some lowering groups [] (some group)) trimmed).1
  set text := joinItems (sourcesOf lowering groups group) with textIs
  have noItems : splitAddressValues lowering text = [] := by
    apply List.eq_nil_iff_forall_not_mem.mpr
    intro item member
    exact unlisted item ((sources_items valid inside closed item).mp member)
  have value : ruleAddressValue lowering (groupsById groups) rule.source = lowering.lower text := by
    rw [source, ruleAddressValue, stripped, if_neg unblank, ruleSources,
      if_pos (target_plain (sources_text_plain valid inside))]
    rfl
  have sourceItems : splitAddressValues lowering
      (ruleAddressValue lowering (groupsById groups) rule.source) = [] := by
    rw [value, split_address_lower, noItems]
  have destinationItems : splitAddressValues lowering
      (ruleAddressValue lowering (groupsById groups) rule.destination) =
        [FIREWALL_ANY_SOURCE_GROUP_ID] := by
    rw [destination, rule_address_value_any, split_address_any]
  have unnamed : ∀ family, (sourceValues lowering (groupsById groups) rule).of family = [] ∧
      (destinationValues lowering (groupsById groups) rule).of family = [] := by
    have noSource : sourceValues lowering (groupsById groups) rule = ⟨[], []⟩ := by
      change collectFamilies (splitAddressValues lowering _) ⟨[], []⟩ = _
      rw [sourceItems]
      rfl
    have noDestination : destinationValues lowering (groupsById groups) rule = ⟨[], []⟩ := by
      change collectFamilies (splitAddressValues lowering _) ⟨[], []⟩ = _
      rw [destinationItems]
      rfl
    intro family
    rw [noSource, noDestination]
    cases family <;> exact ⟨rfl, rfl⟩
  have part : addressPart lowering (groupsById groups) .sourceAddress rule.source = none := by
    have written : ¬(lowering.lower text = [] ∨
        lowering.lower text = FIREWALL_ANY_SOURCE_GROUP_ID) := by
      rintro (empty | any)
      · exact lower_unblank lowering text unblank empty
      · have items : splitAddressValues lowering (lowering.lower text) = [] := by
          rw [split_address_lower, noItems]
        rw [any, split_address_any] at items
        cases items
    rw [addressPart, value, if_neg written, addressExpr, split_address_lower, noItems]
    rfl
  rw [renderVariants, unnamed_variants unnamed, List.mapM_cons, render_rule_fails (.inl part)]
  rfl

theorem exact_readable (inside : group ∈ groups) (expands : ExpandsExactly lowering groups group)
    (rules : RulesExact lowering groups) :
    Readable lowering groups group := by
  by_cases opened : Opens lowering groups group
  · left
    exact (sources_exact valid inside).opens.mp (expands.opens.mpr opened)
  · right
    refine ⟨opened, ?_⟩
    by_contra unlisted
    obtain ⟨rendered, made, _⟩ := rules
      { name := "rule".toList
        direction := "input".toList
        action := "accept".toList
        protocol := "any".toList
        source := joinItems (sourcesOf lowering groups group)
        destination := FIREWALL_ANY_SOURCE_GROUP_ID
        destinationPort := []
        interfaceName := []
        routingDestinationInterface := [] } _ _ (.sources inside) .all
    rw [unlisted_fails valid inside opened (not_exists.mp unlisted) _ rfl rfl] at made
    cases made

end Valid

end Groups

def GroupsExact (lowering : Lowering) (groups : List SourceGroup) : Prop :=
  (∀ group ∈ groups, ExpandsExactly lowering groups group) ∧ RulesExact lowering groups

/-- Groups of the settings without an error are exact exactly when each of them is readable. -/
theorem groups_exact_iff (lowering : Lowering) (shown : Shown) (saved : List (String × Json))
    (interfaceNetworks : List (List Char × List (List Char))) (groups : List SourceGroup)
    (produced : firewallSourceGroupState lowering shown saved interfaceNetworks = some groups)
    (clean : validateFirewallSourceGroups lowering groups = []) :
    GroupsExact lowering groups ↔ ∀ group ∈ groups, Readable lowering groups group := by
  have valid := validated (state_produced produced) clean
  constructor
  · rintro ⟨expands, rules⟩ group inside
    exact exact_readable valid inside (expands group inside) rules
  · intro readable
    exact ⟨fun group inside => readable_expands valid inside (readable group inside),
      readable_rules valid readable⟩

/-! ### A nested group -/

def sampleShown : Shown where
  text := fun _ => "None".toList
  unblank := fun _ => by decide

/-- A saved group, as the settings hold it. -/
def savedSample (id name : String) (entries : List String) : Json :=
  .object [("id", .string id), ("name", .string name),
    ("entries", .array (entries.map Json.string))]

def sampleSaved : List (String × Json) :=
  [("groups", .array [savedSample "lab" "LAB" ["10.1.0.0/16", "GROUP:dmz"],
    savedSample "dmz" "DMZ" ["fd00:1::/64"]])]

theorem sample_edge {group target : SourceGroup} (inside : group ∈ sampleGroups)
    (other : group.id ≠ FIREWALL_ANY_SOURCE_GROUP_ID)
    (edge : Edge asciiLowering sampleGroups group target) :
    target ∈ sampleGroups ∧ target.id ≠ FIREWALL_ANY_SOURCE_GROUP_ID := by
  obtain ⟨entry, member, present, _, refers⟩ := edge
  refine ⟨present, ?_⟩
  intro same
  have entries : ∀ group ∈ sampleGroups, group.id ≠ FIREWALL_ANY_SOURCE_GROUP_ID →
      ∀ entry ∈ entriesOf asciiLowering group,
        entry ≠ FIREWALL_SOURCE_GROUP_REFERENCE_PREFIX ++ FIREWALL_ANY_SOURCE_GROUP_ID ∧
          entry.head? ≠ some '@' := by decide +kernel
  obtain ⟨notId, notName⟩ := entries group inside other entry member
  rcases refers with byId | ⟨name, rfl, _⟩
  · rw [same] at byId
    exact notId byId
  · exact notName rfl

theorem sample_closed {group : SourceGroup} (inside : group ∈ sampleGroups)
    (other : group.id ≠ FIREWALL_ANY_SOURCE_GROUP_ID) :
    ¬Opens asciiLowering sampleGroups group := by
  rintro ⟨reached, reaches, entry, member, _, any⟩
  have apart : reached ∈ sampleGroups ∧ reached.id ≠ FIREWALL_ANY_SOURCE_GROUP_ID := by
    clear member
    induction reaches with
    | refl => exact ⟨inside, other⟩
    | tail _ edge induction => exact sample_edge induction.1 induction.2 edge
  have closed : ∀ group ∈ sampleGroups, group.id ≠ FIREWALL_ANY_SOURCE_GROUP_ID →
      ∀ entry ∈ entriesOf asciiLowering group,
        FIREWALL_ANY_SOURCE_GROUP_ID ∉ splitAddressValues asciiLowering entry := by
    decide +kernel
  exact closed reached apart.1 apart.2 entry member any

theorem sample_readable : ∀ group ∈ sampleGroups,
    Readable asciiLowering sampleGroups group := by
  intro group inside
  by_cases builtin : group.id = FIREWALL_ANY_SOURCE_GROUP_ID
  · left
    have opened : ∀ group ∈ sampleGroups, group.id = FIREWALL_ANY_SOURCE_GROUP_ID →
        FIREWALL_ANY_SOURCE_GROUP_ID ∈ entriesOf asciiLowering group := by decide +kernel
    exact ⟨group, .refl, opened group inside builtin⟩
  · right
    refine ⟨sample_closed inside builtin, ?_⟩
    have listed : ∀ group ∈ sampleGroups, group.id ≠ FIREWALL_ANY_SOURCE_GROUP_ID →
        ∃ entry ∈ entriesOf asciiLowering group, entry.head? ≠ some 'g' ∧
          entry.head? ≠ some '@' ∧ entry ≠ FIREWALL_ANY_SOURCE_GROUP_ID ∧
          entry ∈ splitAddressValues asciiLowering entry := by decide +kernel
    obtain ⟨entry, member, notId, notName, notAny, named⟩ := listed group inside builtin
    refine ⟨entry, group, .refl, entry, member, ⟨notAny, ?_⟩, named⟩
    rintro target ⟨_, _, byId | ⟨name, rfl, _⟩⟩
    · rw [byId] at notId
      exact notId rfl
    · exact notName rfl

theorem sample_groups_exact : GroupsExact asciiLowering sampleGroups :=
  (groups_exact_iff asciiLowering sampleShown sampleSaved [] sampleGroups (by decide +kernel)
    (by decide +kernel)).mpr sample_readable

/-! ### `any` with a comma -/

/-- A group whose only entry is `any` and a comma. -/
def commaSaved : List (String × Json) :=
  [("groups", .array [savedSample "open" "Open" ["any,"]])]

def commaGroups : List SourceGroup :=
  [⟨"any".toList, "Any".toList, ["any".toList]⟩, ⟨"open".toList, "Open".toList, ["any,".toList]⟩]

/-- It has no error, it is expanded to the entry itself, and a rule that uses it raises. -/
theorem comma_group_exception :
    firewallSourceGroupState asciiLowering sampleShown commaSaved [] = some commaGroups ∧
    validateFirewallSourceGroups asciiLowering commaGroups = [] ∧
    sourcesOf asciiLowering commaGroups ⟨"open".toList, "Open".toList, ["any,".toList]⟩ =
      ["any,".toList] ∧
    ¬GroupsExact asciiLowering commaGroups := by
  refine ⟨by decide +kernel, by decide +kernel, by decide +kernel, ?_⟩
  rintro ⟨_, rules⟩
  obtain ⟨rendered, made, _⟩ := rules
    { sampleRule with source := "group:open".toList, destination := "any".toList } _ _
    (@Field.reference asciiLowering commaGroups _ ⟨"open".toList, "Open".toList, ["any,".toList]⟩
      ⟨by simp [commaGroups], by decide, .inl (by decide +kernel)⟩) .all
  have raises : renderVariants asciiLowering (groupsById commaGroups)
      { sampleRule with source := "group:open".toList, destination := "any".toList } = none := by
    decide +kernel
  rw [raises] at made
  cases made

end Atlaso.Firewall.GroupRules
