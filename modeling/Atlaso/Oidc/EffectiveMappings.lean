import Atlaso.Oidc.GroupMappings

/-!
The effective mappings of a context and what their validation says.

A mapping is effective in a context when it is the client's override of its source, or the
default where the client has none.
-/

namespace Atlaso.Oidc.EffectiveMappings

open Library Dictionary Outcomes Records GroupMappings

structure Effective (database : Database) (context : Context) (row : GroupMapping) : Prop where
  saved : row ∈ database.groupMappings
  related : relevant context.source context.organizationId row = true
  scope : row.oidcClientId = context.client ∨
    (row.oidcClientId = none ∧ ∀ other ∈ database.groupMappings,
      relevant context.source context.organizationId other = true →
      sourceKey other = sourceKey row → other.oidcClientId ≠ context.client)

def Unambiguous (services : Services) (database : Database) (context : Context) : Prop :=
  ∀ first second, Effective database context first → Effective database context second →
    services.casefold first.externalGroupName = services.casefold second.externalGroupName →
    sourceKey first = sourceKey second

structure Live (database : Database) (context : Context) : Prop where
  client : ∀ id, context.client = some id → ∃ client ∈ database.clients, client.id = id ∧
    (client.organizationId = none ∨
      (context.source = .managedLdap ∧ client.organizationId = context.organizationId))
  organization : match context.source with
    | .localSource => context.organizationId = none
    | .managedLdap => ∃ organization ∈ database.organizations,
        context.organizationId = some organization.id

/-- `mapping_key` is unique. -/
def DistinctKeys (rows : List GroupMapping) : Prop :=
  (rows.map fun row => (row.source, row.oidcClientId)).Nodup

section Contexts

variable {services : Services} {database : Database} {context : Context}

theorem mem_mapping_contexts : context ∈ mappingContexts database ↔ Live database context := by
  obtain ⟨client, source, organizationId⟩ := context
  constructor
  · intro inside
    simp only [mappingContexts, List.cons_append, List.mem_cons, List.mem_append, List.mem_map,
      List.mem_filter, List.mem_flatMap, decide_eq_true_eq] at inside
    rcases inside with same | ⟨row, ⟨saved, unbound⟩, same⟩ |
      ⟨organization, known, same | ⟨row, ⟨saved, bound⟩, same⟩⟩
    · cases same
      exact ⟨fun id found => by simp at found, rfl⟩
    · cases same
      exact ⟨fun id found => ⟨row, saved, Option.some.inj found, .inl unbound⟩, rfl⟩
    · cases same
      exact ⟨fun id found => by simp at found, organization, known, rfl⟩
    · cases same
      refine ⟨fun id found => ⟨row, saved, Option.some.inj found, ?_⟩, organization, known, rfl⟩
      exact bound.imp_right fun same => ⟨rfl, same⟩
  · rintro ⟨owner, place⟩
    simp only [mappingContexts, List.cons_append, List.mem_cons, List.mem_append, List.mem_map,
      List.mem_filter, List.mem_flatMap, decide_eq_true_eq]
    cases source with
    | localSource =>
      simp only at place
      subst place
      cases client with
      | none => exact .inl rfl
      | some id =>
        obtain ⟨row, saved, rfl, unbound | ⟨impossible, -⟩⟩ := owner id rfl
        · exact .inr (.inl ⟨row, ⟨saved, unbound⟩, rfl⟩)
        · simp at impossible
    | managedLdap =>
      obtain ⟨organization, known, same⟩ := place
      simp only at same
      subst same
      cases client with
      | none => exact .inr (.inr ⟨organization, known, .inl rfl⟩)
      | some id =>
        obtain ⟨row, saved, rfl, bound⟩ := owner id rfl
        exact .inr (.inr ⟨organization, known, .inr ⟨row, ⟨saved, bound.imp_right And.right⟩,
          rfl⟩⟩)

/-! ### The merged map -/

theorem relevant_source {source : Source} {organizationId : Option Nat}
    {first second : GroupMapping} (left : relevant source organizationId first = true)
    (right : relevant source organizationId second = true)
    (same : sourceKey first = sourceKey second) : first.source = second.source := by
  obtain ⟨firstId, firstSource, firstClient, firstName⟩ := first
  obtain ⟨secondId, secondSource, secondClient, secondName⟩ := second
  cases source with
  | localSource =>
    cases firstSource <;> cases secondSource <;> simp_all [relevant, sourceKey]
  | managedLdap =>
    cases firstSource with
    | localRole role => simp [relevant] at left
    | ldapGroup firstGroup firstOrganization =>
      cases secondSource with
      | localRole role => simp [relevant] at right
      | ldapGroup secondGroup secondOrganization =>
        simp only [relevant, decide_eq_true_eq] at left right
        obtain rfl := Option.some.inj (left.trans right.symm)
        simp only [sourceKey, SourceKey.ldapGroup.injEq] at same
        rw [same]

def scopeRows (database : Database) (context : Context) (scope : Option Nat) :
    List GroupMapping :=
  ((listGroupMappings database).filter (relevant context.source context.organizationId)).filter
    fun row => row.oidcClientId = scope

theorem mem_scope_rows {scope : Option Nat} {row : GroupMapping} :
    row ∈ scopeRows database context scope ↔ row ∈ database.groupMappings ∧
      relevant context.source context.organizationId row = true ∧ row.oidcClientId = scope := by
  simp only [scopeRows, listGroupMappings, List.mem_filter, List.mem_insertionSort,
    decide_eq_true_eq, and_assoc]

section

variable (distinct : DistinctKeys database.groupMappings)
include distinct

theorem scope_keys_distinct (scope : Option Nat) :
    ((keyed (scopeRows database context scope)).map Prod.fst).Nodup := by
  have rows : (scopeRows database context scope).Nodup :=
    (((List.perm_insertionSort _ _).nodup_iff.mpr (List.Nodup.of_map _ distinct)).filter _).filter _
  rw [keyed, List.map_map]
  refine List.Nodup.map_on ?_ rows
  intro first left second right same
  obtain ⟨savedFirst, relatedFirst, scopeFirst⟩ := mem_scope_rows.mp left
  obtain ⟨savedSecond, relatedSecond, scopeSecond⟩ := mem_scope_rows.mp right
  have source := relevant_source relatedFirst relatedSecond same
  exact List.inj_on_of_nodup_map distinct savedFirst savedSecond
    (Prod.ext source (scopeFirst.trans scopeSecond.symm))

theorem get_scope_row {scope : Option Nat} {key : SourceKey} {row : GroupMapping} :
    getItem key (keyed (scopeRows database context scope)) = some row ↔
      row ∈ scopeRows database context scope ∧ sourceKey row = key := by
  rw [get_item_iff (scope_keys_distinct distinct scope), keyed, List.mem_map]
  constructor
  · rintro ⟨other, inside, same⟩
    obtain ⟨key, rfl⟩ := Prod.mk.inj same
    exact ⟨inside, key⟩
  · rintro ⟨inside, rfl⟩
    exact ⟨row, inside, rfl⟩

/-- The rows that `_effective_mapping_rows` merges for a context. -/
abbrev mergedRows (database : Database) (context : Context) : List (SourceKey × GroupMapping) :=
  effectiveMappingRows database context.client context.source context.organizationId

theorem merged_rows_none (defaults : context.client = none) :
    mergedRows database context = keyed (scopeRows database context none) := by
  rw [mergedRows, defaults, effectiveMappingRows]
  exact of_pairs_distinct _ (scope_keys_distinct distinct _)

theorem merged_rows_some {client : Nat} (owner : context.client = some client) :
    mergedRows database context = update (keyed (scopeRows database context (some client)))
      (keyed (scopeRows database context none)) := by
  rw [mergedRows, owner, effectiveMappingRows]
  congr 1
  exact of_pairs_distinct _ (scope_keys_distinct distinct _)

end

theorem merged_keys_distinct (distinct : DistinctKeys database.groupMappings) :
    ((mergedRows database context).map Prod.fst).Nodup := by
  cases owner : context.client with
  | none =>
    rw [merged_rows_none distinct owner]
    exact scope_keys_distinct distinct _
  | some client =>
    rw [merged_rows_some distinct owner]
    exact update_distinct _ _ (scope_keys_distinct distinct _)

theorem mem_merged_rows (distinct : DistinctKeys database.groupMappings) {key : SourceKey}
    {row : GroupMapping} :
    (key, row) ∈ mergedRows database context ↔ Effective database context row ∧
      sourceKey row = key := by
  rw [← get_item_iff (merged_keys_distinct distinct)]
  cases owner : context.client with
  | none =>
    rw [merged_rows_none distinct owner, get_scope_row distinct, mem_scope_rows]
    constructor
    · rintro ⟨⟨saved, related, scope⟩, key⟩
      exact ⟨⟨saved, related, .inl (scope.trans owner.symm)⟩, key⟩
    · rintro ⟨⟨saved, related, scope | ⟨scope, -⟩⟩, key⟩
      · exact ⟨⟨saved, related, scope.trans owner⟩, key⟩
      · exact ⟨⟨saved, related, scope⟩, key⟩
  | some client =>
    rw [merged_rows_some distinct owner, update,
      get_item_update (scope_keys_distinct distinct _)]
    cases found : getItem key (keyed (scopeRows database context (some client))) with
    | some override =>
      obtain ⟨inside, same⟩ := (get_scope_row distinct).mp found
      obtain ⟨saved, related, scope⟩ := mem_scope_rows.mp inside
      simp only [Option.some_or, Option.some.injEq]
      constructor
      · rintro rfl
        exact ⟨⟨saved, related, .inl (scope.trans owner.symm)⟩, same⟩
      · rintro ⟨⟨savedRow, relatedRow, scopeRow | ⟨-, alone⟩⟩, sameRow⟩
        · have row := (get_scope_row distinct).mpr
            ⟨mem_scope_rows.mpr ⟨savedRow, relatedRow, scopeRow.trans owner⟩, sameRow⟩
          exact Option.some.inj (found.symm.trans row)
        · exact absurd (scope.trans owner.symm)
            (alone override saved related (same.trans sameRow.symm))
    | none =>
      have free : ∀ other ∈ database.groupMappings,
          relevant context.source context.organizationId other = true →
          sourceKey other = key → other.oidcClientId ≠ some client := by
        intro other saved related same scope
        have present := (get_scope_row distinct).mpr
          ⟨mem_scope_rows.mpr ⟨saved, related, scope⟩, same⟩
        rw [found] at present
        simp at present
      simp only [Option.none_or]
      rw [get_scope_row distinct, mem_scope_rows]
      constructor
      · rintro ⟨⟨saved, related, scope⟩, rfl⟩
        exact ⟨⟨saved, related, .inr ⟨scope, owner ▸ free⟩⟩, rfl⟩
      · rintro ⟨⟨saved, related, scope | ⟨scope, -⟩⟩, same⟩
        · exact absurd (scope.trans owner) (free row saved related same)
        · exact ⟨⟨saved, related, scope⟩, same⟩

/-! ### Validation -/

theorem check_names_ok {names : List (String × SourceKey)}
    {rows : List (SourceKey × GroupMapping)} (distinct : (rows.map Prod.fst).Nodup)
    (apart : ∀ name key, getItem name names = some key → key ∉ rows.map Prod.fst) :
    checkNames services names rows = .ok () ↔
      (rows.map fun item => services.casefold item.2.externalGroupName).Nodup ∧
        ∀ item ∈ rows, getItem (services.casefold item.2.externalGroupName) names = none := by
  induction rows generalizing names with
  | nil => simp [checkNames]
  | cons item rows induction =>
    obtain ⟨key, row⟩ := item
    obtain ⟨fresh, distinct⟩ := List.nodup_cons.mp distinct
    rw [checkNames]
    cases found : getItem (services.casefold row.externalGroupName) names with
    | some other =>
      have differs : other ≠ key := by
        rintro rfl
        exact apart _ _ found List.mem_cons_self
      have refused : ((some other).any fun other => decide (other ≠ key)) = true := by
        simpa using differs
      rw [if_pos refused]
      simp [found]
    | none =>
      rw [if_neg (by simp)]
      rw [induction distinct]
      · simp only [List.map_cons, List.nodup_cons, List.mem_map, List.mem_cons, forall_eq_or_imp,
          get_item_set_item, found, true_and, not_exists, not_and]
        constructor
        · rintro ⟨different, free⟩
          refine ⟨⟨fun item inside same => ?_, different⟩, fun item inside => ?_⟩
          · have := free item inside
            rw [if_pos same] at this
            simp at this
          · have := free item inside
            split_ifs at this
            exact this
        · rintro ⟨⟨apart, different⟩, free⟩
          refine ⟨different, fun item inside => ?_⟩
          rw [if_neg (apart item inside)]
          exact free item inside
      · intro name other present
        rw [get_item_set_item] at present
        split_ifs at present
        · obtain rfl := Option.some.inj present
          exact fresh
        · intro inside
          exact apart name other present (List.mem_cons_of_mem _ inside)

theorem validate_context_iff (distinct : DistinctKeys database.groupMappings) :
    validateContext services database context = .ok () ↔
      Unambiguous services database context := by
  have keys := @merged_keys_distinct database context distinct
  rw [validateContext, validateEffectiveMappingRows, check_names_ok keys (by simp [getItem])]
  constructor
  · rintro ⟨names, -⟩ first second left right same
    have inFirst := (mem_merged_rows distinct).mpr ⟨left, rfl⟩
    have inSecond := (mem_merged_rows distinct).mpr ⟨right, rfl⟩
    exact congrArg Prod.fst (List.inj_on_of_nodup_map names inFirst inSecond same)
  · intro clear
    refine ⟨List.Nodup.map_on ?_ (List.Nodup.of_map _ keys), fun _ _ => rfl⟩
    rintro ⟨firstKey, first⟩ inFirst ⟨secondKey, second⟩ inSecond same
    obtain ⟨left, rfl⟩ := (mem_merged_rows distinct).mp inFirst
    obtain ⟨right, rfl⟩ := (mem_merged_rows distinct).mp inSecond
    have key : sourceKey first = sourceKey second := clear first second left right same
    exact List.inj_on_of_nodup_map keys inFirst inSecond key

theorem for_m_ok {Item : Type} {check : Item → Except Raised Unit} {items : List Item} :
    items.forM check = .ok () ↔ ∀ item ∈ items, check item = .ok () := by
  induction items with
  | nil => simp
  | cons item items induction =>
    have step : (item :: items).forM check = check item >>= fun _ => items.forM check := rfl
    rw [step]
    cases first : check item with
    | error raised => simp [first]
    | ok done =>
      rw [ok_bind, induction, List.forall_mem_cons]
      exact ⟨fun rest => ⟨first, rest⟩, fun both => both.2⟩

theorem validate_all_iff (distinct : DistinctKeys database.groupMappings) :
    validateAllMappingContexts services database = .ok () ↔
      ∀ context, Live database context → Unambiguous services database context := by
  rw [validateAllMappingContexts, for_m_ok]
  constructor
  · intro valid context live
    exact (validate_context_iff distinct).mp (valid context (mem_mapping_contexts.mpr live))
  · intro clear context inside
    exact (validate_context_iff distinct).mpr (clear context (mem_mapping_contexts.mp inside))

end Contexts

end Atlaso.Oidc.EffectiveMappings
