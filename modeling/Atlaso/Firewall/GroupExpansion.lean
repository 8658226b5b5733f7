import Atlaso.Firewall.SourceGroups
import Mathlib.Logic.Relation
import Mathlib.Data.Bool.AllAny

/-!
What the expansion of a Source Group gives when the groups are valid: the entries of all groups
that it reaches, or `any` when one of these is open.

Validation looks for cycles along paths, expansion leaves out what is on its stack. In groups
without a cycle no reference is ever left out.
-/

namespace Atlaso.Firewall.GroupExpansion

open Library Dictionary ItemLists TextFields SourceGroups

section Groups

variable {lowering : Lowering} {groups : List SourceGroup} {names : List (List Char × List Char)}

/-! ### Entries -/

/-- An entry as it is stored: stripped, and recognised as what it is. -/
structure Normal (lowering : Lowering) (entry : List Char) : Prop where
  stripped : strip entry = entry
  anyText : lowering.lower entry = FIREWALL_ANY_SOURCE_GROUP_ID →
    entry = FIREWALL_ANY_SOURCE_GROUP_ID
  reference : FIREWALL_SOURCE_GROUP_REFERENCE_PREFIX <+: lowering.lower entry →
    ∃ id, entry = FIREWALL_SOURCE_GROUP_REFERENCE_PREFIX ++ id

theorem lower_any (lowering : Lowering) :
    lowering.lower FIREWALL_ANY_SOURCE_GROUP_ID = FIREWALL_ANY_SOURCE_GROUP_ID :=
  lowering.ascii _ (List.all_iff_forall_prop.mp (by decide))

theorem lower_reference (lowering : Lowering) (id : List Char) :
    FIREWALL_SOURCE_GROUP_REFERENCE_PREFIX <+:
      lowering.lower (FIREWALL_SOURCE_GROUP_REFERENCE_PREFIX ++ id) :=
  lowering.leading FIREWALL_SOURCE_GROUP_REFERENCE_PREFIX id
    (List.all_iff_forall_prop.mp (by decide))

theorem normalize_entry_normal (value : List Char) :
    Normal lowering (normalizeEntry lowering value) := by
  rw [normalizeEntry]
  by_cases isAny : lowering.lower (strip value) = FIREWALL_ANY_SOURCE_GROUP_ID
  · rw [if_pos isAny]
    exact ⟨by decide, fun _ => rfl, fun found => absurd (lower_any lowering ▸ found) (by decide)⟩
  · rw [if_neg isAny]
    by_cases refers : FIREWALL_SOURCE_GROUP_REFERENCE_PREFIX.isPrefixOf
        (lowering.lower (strip value)) = true
    · rw [if_pos refers]
      refine ⟨?_, ?_, fun _ => ⟨_, rfl⟩⟩
      · set id := (strip value).drop FIREWALL_SOURCE_GROUP_REFERENCE_PREFIX.length with idIs
        have ends : ∀ c ∈ (FIREWALL_SOURCE_GROUP_REFERENCE_PREFIX ++ id).getLast?,
            isWhitespace c = false := by
          intro c inside
          by_cases empty : id = []
          · rw [empty] at inside
            obtain rfl : c = ':' := by simpa [FIREWALL_SOURCE_GROUP_REFERENCE_PREFIX] using inside.symm
            decide
          · apply strip_last (strip_strip value)
            rw [List.getLast?_append_of_ne_nil _ empty, idIs, List.getLast?_drop] at inside
            split at inside
            · cases inside
            · exact inside
        have whole := @strip_between [] (FIREWALL_SOURCE_GROUP_REFERENCE_PREFIX ++ id) []
          (by simp) (by simp) (fun c inside => by
            obtain rfl : c = 'g' := by
              simpa [FIREWALL_SOURCE_GROUP_REFERENCE_PREFIX] using inside.symm
            decide) ends
        simpa using whole
      · intro same
        have found := lower_reference lowering
          ((strip value).drop FIREWALL_SOURCE_GROUP_REFERENCE_PREFIX.length)
        rw [same] at found
        exact absurd found (by decide)
    · rw [if_neg refers]
      exact ⟨strip_strip value, fun same => absurd same isAny,
        fun found => absurd (List.isPrefixOf_iff_prefix.mpr found) refers⟩

abbrev entriesOf (lowering : Lowering) (group : SourceGroup) : List (List Char) :=
  sourceGroupEntries lowering (some group)

variable {group : SourceGroup} {entry : List Char} {shown : Shown}

theorem entries_normal (inside : entry ∈ entriesOf lowering group) : Normal lowering entry := by
  obtain ⟨value, _, rfl⟩ := List.mem_map.mp inside
  exact normalize_entry_normal value

theorem entries_some (group : SourceGroup) : entriesOf lowering group ≠ [] := by
  intro none
  have empty := List.map_eq_nil_iff.mp none
  split at empty
  · cases empty
  · next some => exact some empty

theorem lower_strip_any (normal : Normal lowering entry) :
    lowering.lower (strip entry) = FIREWALL_ANY_SOURCE_GROUP_ID ↔
      entry = FIREWALL_ANY_SOURCE_GROUP_ID := by
  rw [normal.stripped]
  refine ⟨normal.anyText, ?_⟩
  rintro rfl
  exact lower_any lowering

/-! ### References -/

def Refers (lowering : Lowering) (groups : List SourceGroup) (entry : List Char)
    (target : SourceGroup) : Prop :=
  target ∈ groups ∧ target.id ≠ [] ∧
    (entry = FIREWALL_SOURCE_GROUP_REFERENCE_PREFIX ++ target.id ∨
      ∃ name, entry = '@' :: name ∧ nameKey lowering name = nameKey lowering target.name)

def IndexOf (lowering : Lowering) (groups : List SourceGroup)
    (names : List (List Char × List Char)) : Prop :=
  ∀ key id, id ≠ [] → (getItem key names = some id ↔
    ∃ group ∈ groups, nameKey lowering group.name = key ∧ group.id = id)

theorem groups_by_id_distinct (distinct : (groups.map SourceGroup.id).Nodup) :
    groupsById groups = groups.map fun group => (group.id, group) := by
  apply of_pairs_distinct
  rw [List.map_map]
  exact distinct

variable {id : List Char} {interfaceNetworks : List (List Char × List (List Char))}

theorem get_group (distinct : (groups.map SourceGroup.id).Nodup) :
    getItem id (groupsById groups) = some group ↔ group ∈ groups ∧ group.id = id := by
  have keys : ((groups.map fun group => (group.id, group)).map Prod.fst).Nodup := by
    rw [List.map_map]
    exact distinct
  rw [groups_by_id_distinct distinct, get_item_iff keys, List.mem_map]
  constructor
  · rintro ⟨other, inside, same⟩
    obtain ⟨rfl, rfl⟩ := Prod.mk.inj same
    exact ⟨inside, rfl⟩
  · rintro ⟨inside, rfl⟩
    exact ⟨group, inside, rfl⟩

theorem reference_target_iff {names : List (List Char × List Char)}
    (distinct : (groups.map SourceGroup.id).Nodup) (index : IndexOf lowering groups names)
    (filled : names ≠ []) (normal : Normal lowering entry) (id : List Char) :
    (id ≠ [] ∧ sourceGroupReferenceTarget lowering (groupsById groups) names entry = id) ↔
      ∃ target, Refers lowering groups entry target ∧ target.id = id := by
  rw [sourceGroupReferenceTarget, normal.stripped]
  by_cases refers : FIREWALL_SOURCE_GROUP_REFERENCE_PREFIX.isPrefixOf (lowering.lower entry) = true
  · obtain ⟨named, rfl⟩ := normal.reference (List.isPrefixOf_iff_prefix.mp refers)
    rw [if_pos refers, List.drop_left]
    dsimp only
    constructor
    · rintro ⟨unblank, found⟩
      split at found
      · next present =>
          obtain ⟨target, member⟩ := Option.isSome_iff_exists.mp present
          obtain ⟨inside, same⟩ := (get_group distinct).mp member
          refine ⟨target, ⟨inside, ?_, .inl (by rw [same])⟩, same.trans found⟩
          rw [same, found]
          exact unblank
      · exact absurd found.symm unblank
    · rintro ⟨target, ⟨inside, unblank, byId | byName⟩, rfl⟩
      · obtain rfl := List.append_cancel_left byId
        rw [if_pos (by rw [(get_group distinct).mpr ⟨inside, rfl⟩]; rfl)]
        exact ⟨unblank, rfl⟩
      · obtain ⟨name, shape, _⟩ := byName
        exact absurd (List.head_eq_of_cons_eq shape) (by decide)
  · rw [if_neg refers]
    cases entry with
    | nil =>
      refine iff_of_false (fun found => found.1 found.2.symm) ?_
      rintro ⟨target, ⟨_, _, byId | ⟨name, shape, _⟩⟩, _⟩
      · cases byId
      · cases shape
    | cons c name =>
      by_cases marked : c = '@'
      · subst marked
        rw [if_neg filled]
        change (id ≠ [] ∧ (getItem (nameKey lowering name) names).getD [] = id) ↔ _
        constructor
        · rintro ⟨unblank, found⟩
          cases present : getItem (nameKey lowering name) names with
          | none =>
            rw [present] at found
            exact absurd found.symm unblank
          | some other =>
            rw [present] at found
            obtain rfl : other = id := found
            obtain ⟨target, inside, key, same⟩ := (index _ _ unblank).mp present
            exact ⟨target, ⟨inside, same ▸ unblank, .inr ⟨name, rfl, key.symm⟩⟩, same⟩
        · rintro ⟨target, ⟨inside, unblank, byId | ⟨named, shape, key⟩⟩, rfl⟩
          · exact absurd (List.head_eq_of_cons_eq byId) (by decide)
          · obtain rfl := List.tail_eq_of_cons_eq shape
            rw [key, (index _ _ unblank).mpr ⟨target, inside, rfl, rfl⟩]
            exact ⟨unblank, rfl⟩
      · refine iff_of_false ?_ ?_
        · rintro ⟨unblank, found⟩
          split at found
          · next shape => exact absurd (List.head_eq_of_cons_eq shape) marked
          · exact unblank found.symm
        rintro ⟨target, ⟨_, _, byId | ⟨named, shape, _⟩⟩, _⟩
        · rw [byId] at refers
          exact refers (List.isPrefixOf_iff_prefix.mpr (lower_reference lowering target.id))
        · exact marked (List.head_eq_of_cons_eq shape)

/-! ### Produced and valid groups -/

structure Produced (groups : List SourceGroup) : Prop where
  distinct : (groups.map SourceGroup.id).Nodup
  named : ∀ group ∈ groups, group.id ≠ [] → group.name ≠ []
  builtin : ∃ group ∈ groups, strip group.name ≠ []

theorem text_of_truthy {value : Library.JsonText.Json} (truthy : isTruthy value = true) :
    textOf shown value ≠ [] := by
  cases value with
  | string text =>
    intro empty
    have blank : text ≠ "" := of_decide_eq_true truthy
    exact blank (String.toList_inj.mp empty)
  | _ => exact shown.unblank _

theorem saved_name_unblank {members : List (String × Library.JsonText.Json)} (unblank : id ≠ []) :
    (savedGroup lowering shown interfaceNetworks id members).name ≠ [] := by
  rw [savedGroup, sourceGroup]
  dsimp only
  split
  · split
    · next truthy => exact text_of_truthy truthy
    · exact unblank
  · exact unblank

theorem state_produced {saved : List (String × Library.JsonText.Json)}
    (produced : firewallSourceGroupState lowering shown saved interfaceNetworks = some groups) :
    Produced groups := by
  rw [firewallSourceGroupState] at produced
  obtain ⟨objects, _, rfl⟩ := Option.map_eq_some_iff.mp produced
  set saved := ofPairs (objects.map fun members => (savedId shown members, members)) with savedIs
  have savedDistinct : (saved.map Prod.fst).Nodup := update_distinct _ [] List.nodup_nil
  refine ⟨?_, ?_, _, List.mem_cons_self, (by decide : strip "Any".toList ≠ [])⟩
  · rw [List.map_cons, List.map_map]
    have ids : (SourceGroup.id ∘ fun saved : List Char × List (String × Library.JsonText.Json) =>
        savedGroup lowering shown interfaceNetworks saved.1 saved.2) = Prod.fst := rfl
    rw [ids]
    refine List.nodup_cons.mpr ⟨?_, savedDistinct.sublist (List.filter_sublist.map _)⟩
    intro inside
    obtain ⟨entry, member, same⟩ := List.mem_map.mp inside
    exact absurd same (of_decide_eq_true (List.mem_filter.mp member).2)
  · intro group inside unblank
    rcases List.mem_cons.mp inside with rfl | later
    · exact (by decide : "Any".toList ≠ [])
    · obtain ⟨entry, _, rfl⟩ := List.mem_map.mp later
      exact saved_name_unblank unblank

theorem group_names_snoc (groups : List SourceGroup) (group : SourceGroup) :
    groupNames lowering (groups ++ [group]) = nameStep lowering (groupNames lowering groups) group := by
  rw [groupNames, List.foldl_append]
  rfl

theorem group_names_clean (clean : (groupNames lowering groups).1 = []) :
    (∀ group ∈ groups, strip (groupLabel group) ≠ []) ∧
    ∀ key id, getItem key (groupNames lowering groups).2 = some id ↔
      ∃ group ∈ groups, nameKey lowering (groupLabel group) = key ∧ group.id = id := by
  induction groups using List.reverseRecOn with
  | nil => exact ⟨by simp, fun key id => by simp [groupNames, getItem]⟩
  | append_singleton groups group induction =>
    rw [group_names_snoc, nameStep] at clean
    obtain ⟨before, now⟩ := List.append_eq_nil_iff.mp clean
    obtain ⟨labels, index⟩ := induction before
    split at now
    · cases now
    · next unblank =>
        refine ⟨?_, ?_⟩
        · intro other inside
          rcases List.mem_append.mp inside with earlier | last
          · exact labels other earlier
          · rwa [List.mem_singleton.mp last]
        · intro key id
          rw [group_names_snoc, nameStep]
          change getItem key (setItem (nameKey lowering (groupLabel group)) group.id _) = some id ↔ _
          rw [get_item_set_item]
          by_cases same : key = nameKey lowering (groupLabel group)
          · rw [if_pos same]
            constructor
            · intro found
              exact ⟨group, by simp, same.symm, Option.some.inj found⟩
            · rintro ⟨other, inside, sameKey, rfl⟩
              rcases List.mem_append.mp inside with earlier | last
              · have taken := (index key other.id).mpr ⟨other, earlier, sameKey, rfl⟩
                rw [← same, taken] at now
                dsimp only at now
                split at now
                · cases now
                · next equal => rw [not_not.mp equal]
              · rw [List.mem_singleton.mp last]
          · rw [if_neg same, index]
            constructor
            · rintro ⟨other, inside, sameKey, rfl⟩
              exact ⟨other, List.mem_append_left _ inside, sameKey, rfl⟩
            · rintro ⟨other, inside, sameKey, rfl⟩
              rcases List.mem_append.mp inside with earlier | last
              · exact ⟨other, earlier, sameKey, rfl⟩
              · rw [List.mem_singleton.mp last] at sameKey
                exact absurd sameKey.symm same

theorem label_of_name (named : group.name ≠ []) :
    groupLabel group = group.name := by
  rw [groupLabel, if_pos named]

section Valid

variable (produced : Produced groups) (clean : (groupNames lowering groups).1 = [])

include produced clean

theorem group_names_index : IndexOf lowering groups (groupNames lowering groups).2 := by
  intro key id unblank
  rw [(group_names_clean clean).2]
  constructor
  · rintro ⟨group, inside, sameKey, rfl⟩
    rw [label_of_name (produced.named group inside unblank)] at sameKey
    exact ⟨group, inside, sameKey, rfl⟩
  · rintro ⟨group, inside, sameKey, rfl⟩
    rw [← label_of_name (produced.named group inside unblank)] at sameKey
    exact ⟨group, inside, sameKey, rfl⟩

theorem name_index_index :
    IndexOf lowering groups (sourceGroupNameIndex lowering (groupsById groups)) := by
  obtain ⟨labels, index⟩ := group_names_clean clean
  have named : ∀ group ∈ groups, strip group.name ≠ [] → groupLabel group = group.name := by
    intro group _ unblank
    apply label_of_name
    intro empty
    rw [empty] at unblank
    exact unblank rfl
  have member : ∀ pair, pair ∈ ((groupsById groups).filter fun entry =>
      strip entry.2.name ≠ []).map (fun entry => (nameKey lowering entry.2.name, entry.1)) ↔
      ∃ group ∈ groups, strip group.name ≠ [] ∧
        nameKey lowering group.name = pair.1 ∧ group.id = pair.2 := by
    intro pair
    rw [groups_by_id_distinct produced.distinct, List.mem_map]
    constructor
    · rintro ⟨entry, inside, rfl⟩
      obtain ⟨listed, unblank⟩ := List.mem_filter.mp inside
      obtain ⟨group, present, rfl⟩ := List.mem_map.mp listed
      exact ⟨group, present, of_decide_eq_true unblank, rfl, rfl⟩
    · rintro ⟨group, present, unblank, key, id⟩
      refine ⟨(group.id, group), List.mem_filter.mpr ⟨List.mem_map_of_mem present, ?_⟩, ?_⟩
      · exact decide_eq_true unblank
      · exact Prod.ext key id
  intro key id unblank
  rw [sourceGroupNameIndex, get_item_of_pairs, member]
  · constructor
    · rintro ⟨group, inside, _, sameKey, same⟩
      exact ⟨group, inside, sameKey, same⟩
    · rintro ⟨group, inside, sameKey, same⟩
      have label := label_of_name (produced.named group inside (same ▸ unblank))
      exact ⟨group, inside, label ▸ labels group inside, sameKey, same⟩
  · intro first firstInside second secondInside same
    obtain ⟨group, inside, unblank, sameKey, firstId⟩ := (member first).mp firstInside
    obtain ⟨other, present, unblankOther, otherKey, otherId⟩ := (member second).mp secondInside
    have found := (index first.1 group.id).mpr ⟨group, inside, by
      rw [named group inside unblank, sameKey], rfl⟩
    have foundOther := (index first.1 other.id).mpr ⟨other, present, by
      rw [named other present unblankOther, otherKey, same], rfl⟩
    rw [found] at foundOther
    rw [← firstId, ← otherId]
    exact Option.some.inj foundOther

end Valid

/-- An entry that is neither `any` nor a reference. -/
def IsAddress (lowering : Lowering) (groups : List SourceGroup) (entry : List Char) : Prop :=
  entry ≠ FIREWALL_ANY_SOURCE_GROUP_ID ∧ ∀ target, ¬Refers lowering groups entry target

structure Valid (lowering : Lowering) (groups : List SourceGroup)
    (names : List (List Char × List Char)) : Prop where
  produced : Produced groups
  index : IndexOf lowering groups names
  filled : names ≠ []
  nameIndex : IndexOf lowering groups (sourceGroupNameIndex lowering (groupsById groups))
  nameFilled : sourceGroupNameIndex lowering (groupsById groups) ≠ []
  alone : ∀ group ∈ groups, FIREWALL_ANY_SOURCE_GROUP_ID ∈ entriesOf lowering group →
    entriesOf lowering group = [FIREWALL_ANY_SOURCE_GROUP_ID]
  resolved : ∀ group ∈ groups, ∀ entry ∈ entriesOf lowering group,
    looksLikeSourceGroupReference lowering entry = true → ∃ target, Refers lowering groups entry target
  readable : ∀ group ∈ groups, ∃ label, validateAddressValue lowering label
    (joinItems ((entriesOf lowering group).filter fun entry =>
      sourceGroupReferenceTarget lowering (groupsById groups) names entry = [])) = []
  acyclic : ∀ group ∈ groups, group.id ≠ [] →
    visit lowering (groupsById groups) names [] group.id = []

theorem name_index_filled (produced : Produced groups) :
    sourceGroupNameIndex lowering (groupsById groups) ≠ [] := by
  obtain ⟨group, inside, unblank⟩ := produced.builtin
  apply of_pairs_filled
  rw [groups_by_id_distinct produced.distinct]
  apply List.ne_nil_of_mem
  apply List.mem_map_of_mem
  exact List.mem_filter.mpr ⟨List.mem_map_of_mem inside, decide_eq_true unblank⟩

theorem flat_map_clean {Item : Type} {items : List Item} {errors : Item → List String}
    (clean : items.flatMap errors = []) : ∀ item ∈ items, errors item = [] :=
  List.flatMap_eq_nil_iff.mp clean

theorem any_not_reference : looksLikeSourceGroupReference lowering FIREWALL_ANY_SOURCE_GROUP_ID = false := by
  have stripped : strip FIREWALL_ANY_SOURCE_GROUP_ID = FIREWALL_ANY_SOURCE_GROUP_ID := by decide
  rw [looksLikeSourceGroupReference, stripped, lower_any]
  decide

variable {group : SourceGroup}

theorem entry_errors_clean (clean : entryErrors lowering (groupsById groups) names group = []) :
    (FIREWALL_ANY_SOURCE_GROUP_ID ∈ entriesOf lowering group →
      entriesOf lowering group = [FIREWALL_ANY_SOURCE_GROUP_ID]) ∧
    (∀ entry ∈ entriesOf lowering group, looksLikeSourceGroupReference lowering entry = true →
      sourceGroupReferenceTarget lowering (groupsById groups) names entry ≠ []) ∧
    validateAddressValue lowering (groupLabel group)
      (joinItems ((entriesOf lowering group).filter fun entry =>
        sourceGroupReferenceTarget lowering (groupsById groups) names entry = [])) = [] := by
  rw [entryErrors] at clean
  split at clean
  · cases clean
  · obtain ⟨front, only⟩ := List.append_eq_nil_iff.mp clean
    obtain ⟨references, readable⟩ := List.append_eq_nil_iff.mp front
    refine ⟨?_, ?_, readable⟩
    · intro present
      have inside : FIREWALL_ANY_SOURCE_GROUP_ID ∈
          (entriesOf lowering group).map fun entry => lowering.lower (strip entry) :=
        List.mem_map.mpr ⟨_, present, (lower_strip_any (entries_normal present)).mpr rfl⟩
      split at only
      · cases only
      · next few =>
          have short : (entriesOf lowering group).length ≤ 1 :=
            Nat.not_lt.mp fun many => few ⟨inside, many⟩
          obtain ⟨entry, shape⟩ := List.length_eq_one_iff.mp
            (le_antisymm short (List.length_pos_of_mem present))
          rw [shape] at present ⊢
          rw [List.mem_singleton.mp present]
    · intro entry inside looks unresolved
      have error := flat_map_clean references entry inside
      by_cases isAny : lowering.lower (strip entry) = FIREWALL_ANY_SOURCE_GROUP_ID
      · rw [(lower_strip_any (entries_normal inside)).mp isAny, any_not_reference] at looks
        cases looks
      · rw [if_neg isAny, if_pos ⟨unresolved, looks⟩] at error
        cases error

theorem validated (produced : Produced groups)
    (clean : validateFirewallSourceGroups lowering groups = []) :
    Valid lowering groups (groupNames lowering groups).2 := by
  rw [validateFirewallSourceGroups] at clean
  obtain ⟨front, cycles⟩ := List.append_eq_nil_iff.mp clean
  obtain ⟨namesClean, entriesClean⟩ := List.append_eq_nil_iff.mp front
  have index := group_names_index produced namesClean
  have filled : (groupNames lowering groups).2 ≠ [] := by
    obtain ⟨group, inside, _⟩ := produced.builtin
    exact get_item_filled (((group_names_clean namesClean).2 _ _).mpr ⟨group, inside, rfl, rfl⟩)
  refine ⟨produced, index, filled, name_index_index produced namesClean,
    name_index_filled produced, ?_, ?_, ?_, ?_⟩
  · exact fun group inside => (entry_errors_clean (flat_map_clean entriesClean group inside)).1
  · intro group inside entry member looks
    have target := (entry_errors_clean (flat_map_clean entriesClean group inside)).2.1 entry member looks
    obtain ⟨found, refers, _⟩ := (reference_target_iff produced.distinct index filled
      (entries_normal member) _).mp ⟨target, rfl⟩
    exact ⟨found, refers⟩
  · exact fun group inside =>
      ⟨_, (entry_errors_clean (flat_map_clean entriesClean group inside)).2.2⟩
  · intro group inside unblank
    have visited := flat_map_clean cycles group inside
    rwa [if_neg unblank] at visited

/-! ### Paths without a cycle -/

def Edge (lowering : Lowering) (groups : List SourceGroup) (group target : SourceGroup) : Prop :=
  ∃ entry ∈ entriesOf lowering group, Refers lowering groups entry target

abbrev Reaches (lowering : Lowering) (groups : List SourceGroup) : SourceGroup → SourceGroup → Prop :=
  Relation.ReflTransGen (Edge lowering groups)

def Clear (lowering : Lowering) (groups : List SourceGroup) (names : List (List Char × List Char))
    (path : List (List Char)) (group : SourceGroup) : Prop :=
  ∀ target, Edge lowering groups group target →
    visit lowering (groupsById groups) names path target.id = []

theorem Valid.target (valid : Valid lowering groups names) {entry : List Char}
    (inside : entry ∈ entriesOf lowering group) (id : List Char) :
    (id ≠ [] ∧ sourceGroupReferenceTarget lowering (groupsById groups) names entry = id) ↔
      ∃ target, Refers lowering groups entry target ∧ target.id = id :=
  reference_target_iff valid.produced.distinct valid.index valid.filled (entries_normal inside) id

theorem visit_clean (valid : Valid lowering groups names) {path : List (List Char)}
    (inside : group ∈ groups)
    (clean : visit lowering (groupsById groups) names path group.id = []) :
    group.id ∉ path ∧ Clear lowering groups names (path ++ [group.id]) group := by
  rw [visit] at clean
  split at clean
  · cases clean
  · next fresh =>
      refine ⟨fresh, ?_⟩
      rintro target ⟨entry, member, refers⟩
      have present := (get_group valid.produced.distinct).mpr ⟨inside, rfl⟩
      split at clean
      · next absent =>
          rw [present] at absent
          cases absent
      · next found =>
          rw [present] at found
          obtain rfl := Option.some.inj found
          have visited := flat_map_clean clean entry member
          obtain ⟨unblank, same⟩ := (valid.target member target.id).mpr ⟨target, refers, rfl⟩
          dsimp only at visited
          rwa [same, if_neg unblank] at visited

theorem Valid.clear (valid : Valid lowering groups names) (inside : group ∈ groups) :
    ∃ path, Clear lowering groups names path group := by
  by_cases unblank : group.id = []
  · refine ⟨[], ?_⟩
    rintro target ⟨_, _, member, filled, _⟩
    exact valid.acyclic target member filled
  · exact ⟨[group.id], (visit_clean valid inside (valid.acyclic group inside unblank)).2⟩

/-! ### The loop over the entries -/

theorem mem_add_new {expanded sources : List (List Char)} {source : List Char} :
    source ∈ addNew expanded sources ↔ source ∈ expanded ∨ source ∈ sources := by
  induction sources generalizing expanded with
  | nil => simp [addNew]
  | cons first sources induction =>
    have step : addNew expanded (first :: sources) =
        addNew (if first ∈ expanded then expanded else expanded ++ [first]) sources := rfl
    rw [step, induction, List.mem_cons]
    by_cases seen : first ∈ expanded
    · rw [if_pos seen]
      constructor
      · exact Or.imp_right .inr
      · rintro (before | rfl | later)
        · exact .inl before
        · exact .inl seen
        · exact .inr later
    · rw [if_neg seen, List.mem_append, List.mem_singleton, or_assoc]

theorem add_new_distinct {expanded : List (List Char)} (distinct : expanded.Nodup)
    (sources : List (List Char)) : (addNew expanded sources).Nodup := by
  induction sources generalizing expanded with
  | nil => exact distinct
  | cons first sources induction =>
    have step : addNew expanded (first :: sources) =
        addNew (if first ∈ expanded then expanded else expanded ++ [first]) sources := rfl
    rw [step]
    apply induction
    split
    · exact distinct
    · next fresh => exact distinct.append (List.nodup_singleton first) (by simpa using fresh)

abbrev targetOf (lowering : Lowering) (groups : List SourceGroup) (entry : List Char) : List Char :=
  sourceGroupReferenceTarget lowering (groupsById groups)
    (sourceGroupNameIndex lowering (groupsById groups)) (strip entry)

def contribution (lowering : Lowering) (groups : List SourceGroup)
    (nested : List Char → List (List Char)) (entry : List Char) : List (List Char) :=
  if targetOf lowering groups entry = [] then [strip entry]
  else nested (targetOf lowering groups entry)

def gathered (lowering : Lowering) (groups : List SourceGroup)
    (nested : List Char → List (List Char)) (entries expanded : List (List Char)) :
    List (List Char) :=
  entries.foldl (fun expanded entry =>
    addNew expanded (contribution lowering groups nested entry)) expanded

section Loop

variable {stack : List (List Char)} {nested : List Char → List (List Char)}

variable {entries : List (List Char)}

theorem mem_gathered {expanded : List (List Char)} {source : List Char} :
    source ∈ gathered lowering groups nested entries expanded ↔
      source ∈ expanded ∨ ∃ entry ∈ entries, source ∈ contribution lowering groups nested entry := by
  induction entries generalizing expanded with
  | nil => simp [gathered]
  | cons entry entries induction =>
    have step : gathered lowering groups nested (entry :: entries) expanded = gathered lowering
        groups nested entries (addNew expanded (contribution lowering groups nested entry)) := rfl
    rw [step, induction, mem_add_new, or_assoc, List.exists_mem_cons_iff]

theorem gathered_distinct {expanded : List (List Char)} (distinct : expanded.Nodup)
    (entries : List (List Char)) : (gathered lowering groups nested entries expanded).Nodup := by
  induction entries generalizing expanded with
  | nil => exact distinct
  | cons entry entries induction => exact induction (add_new_distinct distinct _)

theorem gather_some (entries expanded : List (List Char)) :
    gather lowering (groupsById groups) stack nested entries expanded ≠ [] := by
  induction entries generalizing expanded with
  | nil =>
    rw [gather]
    split
    · simp
    · assumption
  | cons entry entries induction =>
    rw [gather]
    dsimp only
    split
    · simp
    · split
      · exact induction _
      · split
        · exact induction _
        · split
          · simp
          · exact induction _

theorem gather_closed (expanded : List (List Char)) (closed : ∀ entry ∈ entries, lowering.lower
      (strip entry) ≠ FIREWALL_ANY_SOURCE_GROUP_ID ∧ (targetOf lowering groups entry ≠ [] → targetOf
      lowering groups entry ∉ stack ∧ nested (targetOf lowering groups entry) ≠
      [FIREWALL_ANY_SOURCE_GROUP_ID])) :
    gather lowering (groupsById groups) stack nested entries expanded =
      if gathered lowering groups nested entries expanded = [] then [FIREWALL_ANY_SOURCE_GROUP_ID]
      else gathered lowering groups nested entries expanded := by
  induction entries generalizing expanded with
  | nil => rfl
  | cons entry entries induction =>
    obtain ⟨notAny, follows⟩ := closed entry List.mem_cons_self
    have rest := fun expanded => induction expanded
      fun other inside => closed other (List.mem_cons_of_mem _ inside)
    have step : gathered lowering groups nested (entry :: entries) expanded = gathered lowering
        groups nested entries (addNew expanded (contribution lowering groups nested entry)) := rfl
    rw [gather, if_neg notAny, step, contribution]
    by_cases address : targetOf lowering groups entry = []
    · rw [if_pos address, if_pos address]
      exact rest _
    · obtain ⟨fresh, shut⟩ := follows address
      rw [if_neg address, if_neg fresh, if_neg shut, if_neg address]
      exact rest _

theorem gather_open (expanded : List (List Char)) (fresh : ∀ entry ∈ entries, targetOf lowering
      groups entry ≠ [] → targetOf lowering groups entry ∉ stack) (opened : ∃ entry ∈ entries,
      lowering.lower (strip entry) = FIREWALL_ANY_SOURCE_GROUP_ID ∨ targetOf lowering groups entry ≠
      [] ∧ nested (targetOf lowering groups entry) = [FIREWALL_ANY_SOURCE_GROUP_ID]) :
    gather lowering (groupsById groups) stack nested entries expanded =
      [FIREWALL_ANY_SOURCE_GROUP_ID] := by
  induction entries generalizing expanded with
  | nil => obtain ⟨_, inside, _⟩ := opened; cases inside
  | cons entry entries induction =>
    have later := fun expanded others => induction expanded
      (fun other inside => fresh other (List.mem_cons_of_mem _ inside)) others
    rw [gather]
    dsimp only
    by_cases isAny : lowering.lower (strip entry) = FIREWALL_ANY_SOURCE_GROUP_ID
    · rw [if_pos isAny]
    · rw [if_neg isAny]
      by_cases address : targetOf lowering groups entry = []
      · rw [if_pos address]
        apply later
        obtain ⟨other, inside, open'⟩ := opened
        rcases List.mem_cons.mp inside with rfl | behind
        · rcases open' with same | ⟨refers, _⟩
          · exact absurd same isAny
          · exact absurd address refers
        · exact ⟨other, behind, open'⟩
      · rw [if_neg address, if_neg (fresh entry List.mem_cons_self address)]
        by_cases open' : nested (targetOf lowering groups entry) = [FIREWALL_ANY_SOURCE_GROUP_ID]
        · rw [if_pos open']
        · rw [if_neg open']
          apply later
          obtain ⟨other, inside, opens⟩ := opened
          rcases List.mem_cons.mp inside with rfl | behind
          · rcases opens with same | ⟨_, shut⟩
            · exact absurd same isAny
            · exact absurd shut open'
          · exact ⟨other, behind, opens⟩

end Loop

/-! ### The expansion -/

/-- The sources of a group: `any` when a group that it reaches is open, and otherwise the
addresses of all groups that it reaches, each once. -/
structure Exact (lowering : Lowering) (groups : List SourceGroup) (group : SourceGroup)
    (sources : List (List Char)) : Prop where
  opens : sources = [FIREWALL_ANY_SOURCE_GROUP_ID] ↔ ∃ reached,
    Reaches lowering groups group reached ∧
      FIREWALL_ANY_SOURCE_GROUP_ID ∈ entriesOf lowering reached
  distinct : sources.Nodup
  lists : (¬∃ reached, Reaches lowering groups group reached ∧
      FIREWALL_ANY_SOURCE_GROUP_ID ∈ entriesOf lowering reached) →
    ∀ source, source ∈ sources ↔ ∃ reached, Reaches lowering groups group reached ∧
      source ∈ entriesOf lowering reached ∧ IsAddress lowering groups source

theorem expand_some (stack : List (List Char)) (group : Option SourceGroup) :
    expandSourceGroupEntries lowering (groupsById groups) stack group ≠ [] := by
  rw [expandSourceGroupEntries]
  exact gather_some _ _

theorem expand_exact (valid : Valid lowering groups names) {stack path : List (List Char)}
    {group : SourceGroup} (subset : stack ⊆ path) (clear : Clear lowering groups names path group) :
    Exact lowering groups group
      (expandSourceGroupEntries lowering (groupsById groups) stack (some group)) := by
  induction size : unvisited (groupsById groups) stack using Nat.strong_induction_on
    generalizing stack path group with
  | _ size induction =>
    rw [expandSourceGroupEntries]
    set nested := fun target =>
      if _fresh : target ∉ stack ∧ target ∈ (groupsById groups).map Prod.fst then
        expandSourceGroupEntries lowering (groupsById groups) (stack ++ [target])
          (getItem target (groupsById groups))
      else [FIREWALL_ANY_SOURCE_GROUP_ID] with nestedIs
    have target : ∀ entry ∈ entriesOf lowering group, ∀ id,
        (id ≠ [] ∧ targetOf lowering groups entry = id) ↔
          ∃ target, Refers lowering groups entry target ∧ target.id = id := by
      intro entry inside id
      rw [targetOf, (entries_normal inside).stripped]
      exact reference_target_iff valid.produced.distinct valid.nameIndex
        valid.nameFilled (entries_normal inside) id
    -- What a reference stands for is known from the path that it prolongs.
    have follow : ∀ entry ∈ entriesOf lowering group, ∀ other, Refers lowering groups entry other →
        targetOf lowering groups entry = other.id ∧ other.id ∉ stack ∧
          nested other.id ≠ [] ∧ Exact lowering groups other (nested other.id) := by
      intro entry inside other refers
      obtain ⟨_, same⟩ := (target entry inside other.id).mpr ⟨other, refers, rfl⟩
      obtain ⟨fresh, onward⟩ := visit_clean valid refers.1 (clear other ⟨entry, inside, refers⟩)
      have new : other.id ∉ stack := fun seen => fresh (subset seen)
      have present := (get_group valid.produced.distinct).mpr ⟨refers.1, rfl⟩
      have key : other.id ∈ (groupsById groups).map Prod.fst :=
        List.mem_map_of_mem (mem_of_get_item present)
      have unfolded : nested other.id = expandSourceGroupEntries lowering (groupsById groups)
          (stack ++ [other.id]) (some other) := by
        rw [nestedIs]
        dsimp only
        rw [dif_pos ⟨new, key⟩, present]
      rw [unfolded]
      refine ⟨same, new, expand_some _ _, induction _ ?_ ?_ onward rfl⟩
      · rw [← size]
        exact unvisited_step new key
      · intro id seen
        rcases List.mem_append.mp seen with before | last
        · exact List.mem_append_left _ (subset before)
        · exact List.mem_append_right _ last
    have refersTo : ∀ entry ∈ entriesOf lowering group, targetOf lowering groups entry ≠ [] →
        ∃ other, Refers lowering groups entry other := by
      intro entry inside unblank
      obtain ⟨other, refers, _⟩ := (target entry inside _).mp ⟨unblank, rfl⟩
      exact ⟨other, refers⟩
    by_cases opened : ∃ reached, Reaches lowering groups group reached ∧
        FIREWALL_ANY_SOURCE_GROUP_ID ∈ entriesOf lowering reached
    · have expanded := @gather_open _ _ stack nested _ [] (fun entry inside unblank => by
        obtain ⟨other, refers⟩ := refersTo entry inside unblank
        obtain ⟨same, fresh, _, _⟩ := follow entry inside other refers
        rwa [same]) (by
        obtain ⟨reached, reaches, member⟩ := opened
        rcases Relation.ReflTransGen.cases_head reaches with rfl | ⟨other, edge, further⟩
        · exact ⟨_, member, .inl ((lower_strip_any (entries_normal member)).mpr rfl)⟩
        · obtain ⟨entry, inside, refers⟩ := edge
          obtain ⟨same, _, _, exact'⟩ := follow entry inside other refers
          refine ⟨entry, inside, .inr ?_⟩
          rw [same]
          exact ⟨refers.2.1, exact'.opens.mpr ⟨reached, further, member⟩⟩)
      rw [expanded]
      exact ⟨iff_of_true rfl opened, List.nodup_singleton _, fun closed => absurd opened closed⟩
    · have notAny : ∀ entry ∈ entriesOf lowering group, entry ≠ FIREWALL_ANY_SOURCE_GROUP_ID := by
        rintro entry inside rfl
        exact opened ⟨group, .refl, inside⟩
      have shut : ∀ entry ∈ entriesOf lowering group, ∀ other,
          Refers lowering groups entry other → ¬∃ reached, Reaches lowering groups other reached ∧
            FIREWALL_ANY_SOURCE_GROUP_ID ∈ entriesOf lowering reached := by
        rintro entry inside other refers ⟨reached, reaches, member⟩
        exact opened ⟨reached, .head ⟨entry, inside, refers⟩ reaches, member⟩
      have collected := @gather_closed _ _ stack nested (entriesOf lowering group) []
        fun entry inside => by
          refine ⟨fun same => notAny entry inside
            ((lower_strip_any (entries_normal inside)).mp same), fun unblank => ?_⟩
          obtain ⟨other, refers⟩ := refersTo entry inside unblank
          obtain ⟨same, fresh, _, exact'⟩ := follow entry inside other refers
          rw [same]
          exact ⟨fresh, fun open' => shut entry inside other refers (exact'.opens.mp open')⟩
      have members : ∀ source, source ∈ gathered lowering groups nested (entriesOf lowering group) [] ↔
          ∃ reached, Reaches lowering groups group reached ∧
            source ∈ entriesOf lowering reached ∧ IsAddress lowering groups source := by
        intro source
        rw [mem_gathered]
        constructor
        · rintro (none | ⟨entry, inside, added⟩)
          · cases none
          · rw [contribution] at added
            by_cases address : targetOf lowering groups entry = []
            · rw [if_pos address, (entries_normal inside).stripped] at added
              obtain rfl := List.mem_singleton.mp added
              refine ⟨group, .refl, inside, notAny source inside, fun other refers => ?_⟩
              obtain ⟨same, _⟩ := follow source inside other refers
              exact refers.2.1 (same.symm.trans address)
            · rw [if_neg address] at added
              obtain ⟨other, refers⟩ := refersTo entry inside address
              obtain ⟨same, _, _, exact'⟩ := follow entry inside other refers
              rw [same] at added
              obtain ⟨reached, reaches, member, isAddress⟩ :=
                (exact'.lists (shut entry inside other refers) source).mp added
              exact ⟨reached, .head ⟨entry, inside, refers⟩ reaches, member, isAddress⟩
        · rintro ⟨reached, reaches, member, isAddress⟩
          right
          rcases Relation.ReflTransGen.cases_head reaches with rfl | ⟨other, edge, further⟩
          · refine ⟨source, member, ?_⟩
            have address : targetOf lowering groups source = [] := by
              by_contra unblank
              obtain ⟨other, refers⟩ := refersTo source member unblank
              exact isAddress.2 other refers
            rw [contribution, if_pos address, (entries_normal member).stripped]
            exact List.mem_singleton_self source
          · obtain ⟨entry, inside, refers⟩ := edge
            obtain ⟨same, _, _, exact'⟩ := follow entry inside other refers
            refine ⟨entry, inside, ?_⟩
            rw [contribution, same, if_neg refers.2.1]
            exact (exact'.lists (shut entry inside other refers) source).mpr
              ⟨reached, further, member, isAddress⟩
      have filled : gathered lowering groups nested (entriesOf lowering group) [] ≠ [] := by
        obtain ⟨entry, rest, shape⟩ := List.exists_cons_of_ne_nil (entries_some group)
        have inside : entry ∈ entriesOf lowering group := by
          rw [shape]
          exact List.mem_cons_self
        have adds : contribution lowering groups nested entry ≠ [] := by
          rw [contribution]
          by_cases address : targetOf lowering groups entry = []
          · rw [if_pos address]
            simp
          · obtain ⟨other, refers⟩ := refersTo entry inside address
            obtain ⟨same, _, some, _⟩ := follow entry inside other refers
            rw [same, if_neg refers.2.1]
            exact some
        obtain ⟨source, more, added⟩ := List.exists_cons_of_ne_nil adds
        apply List.ne_nil_of_mem
        exact mem_gathered.mpr (.inr ⟨entry, inside, by rw [added]; exact List.mem_cons_self⟩)
      rw [collected, if_neg filled]
      refine ⟨iff_of_false (fun same => ?_) opened, gathered_distinct List.nodup_nil _,
        fun _ => members⟩
      have listed := (members FIREWALL_ANY_SOURCE_GROUP_ID).mp (by rw [same]; simp)
      obtain ⟨_, _, _, isAddress⟩ := listed
      exact isAddress.1 rfl

end Groups

end Atlaso.Firewall.GroupExpansion
