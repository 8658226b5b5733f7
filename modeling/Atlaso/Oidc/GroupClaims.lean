import Atlaso.Oidc.Administration
import Atlaso.Oidc.EffectiveMappings

/-!
The group claims of every configuration that administrators can reach.

All contexts an identity can have stay unambiguous, since an edit validates them or can only
take mappings away from them.
-/

namespace Atlaso.Oidc.GroupClaims

open Library Dictionary Outcomes Worklist Records GroupMappings SigningKeys
open Administration EffectiveMappings

def Known (database : Database) (organizationId : Nat) : Prop :=
  ∃ organization ∈ database.organizations, organization.id = organizationId

/-- What every edit keeps. -/
structure WellMapped (services : Services) (database : Database) : Prop where
  numbers : (database.groupMappings.map GroupMapping.id).Nodup
  keys : DistinctKeys database.groupMappings
  sources : ∀ row ∈ database.groupMappings, ∀ organizationId,
    MappingSource.organizationId row.source = some organizationId → Known database organizationId
  homes : ∀ group ∈ database.ldapGroups, Known database group.organizationId
  clear : ∀ context, Live database context → Unambiguous services database context

section Edits

variable {services : Services} {before after database saved : Database}

variable {context : Context} {id now : Nat} {oidcClientId : Option Nat} {enabled : Bool}
  {members : List Member}

theorem live_organization (live : Live database context) (managed : context.source = .managedLdap) :
    ∃ organizationId, context.organizationId = some organizationId ∧
      Known database organizationId := by
  have place := live.organization
  rw [managed] at place
  obtain ⟨organization, known, same⟩ := place
  exact ⟨organization.id, same, organization, known, rfl⟩

theorem live_of_tables (live : Live after context) (clients : ∀ client ∈ after.clients, ∃ old ∈
      before.clients, old.id = client.id ∧ old.organizationId = client.organizationId)
    (organizations : ∀ organizationId, context.organizationId = some organizationId → Known after
      organizationId → Known before organizationId) : Live before context := by
  refine ⟨?_, ?_⟩
  · intro id owner
    obtain ⟨client, inside, rfl, binding⟩ := live.client id owner
    obtain ⟨old, present, same, bound⟩ := clients client inside
    exact ⟨old, present, same, bound.symm ▸ binding⟩
  · have place := live.organization
    cases kind : context.source with
    | localSource =>
      rw [kind] at place
      exact place
    | managedLdap =>
      obtain ⟨organizationId, here, known⟩ := live_organization live kind
      obtain ⟨organization, present, rfl⟩ := organizations organizationId here known
      exact ⟨organization, present, here⟩

theorem unambiguous_of_fewer (clear : Unambiguous services before context)
    (fewer : ∀ row, Effective after context row → Effective before context row) :
    Unambiguous services after context :=
  fun first second left right same => clear first second (fewer first left) (fewer second right) same

theorem effective_of_mappings {row : GroupMapping}
    (same : after.groupMappings = before.groupMappings) (effective : Effective after context row) :
    Effective before context row :=
  ⟨same ▸ effective.saved, effective.related, same ▸ effective.scope⟩

theorem well_mapped_frame (well : WellMapped services before)
    (mappings : after.groupMappings = before.groupMappings)
    (organizations : ∀ organizationId, Known after organizationId ↔ Known before organizationId)
    (clients : ∀ client ∈ after.clients, ∃ old ∈ before.clients, old.id = client.id ∧
      old.organizationId = client.organizationId)
    (homes : ∀ group ∈ after.ldapGroups, Known after group.organizationId) :
    WellMapped services after := by
  refine ⟨mappings ▸ well.numbers, mappings ▸ well.keys, ?_, homes, ?_⟩
  · intro row inside organizationId own
    exact (organizations _).mpr (well.sources row (mappings ▸ inside) organizationId own)
  · intro context live
    have earlier := well.clear context
      (live_of_tables live clients fun id _ => (organizations id).mp)
    exact unambiguous_of_fewer earlier fun row => effective_of_mappings mappings

theorem same_clients : ∀ client ∈ database.clients, ∃ old ∈ database.clients,
    old.id = client.id ∧ old.organizationId = client.organizationId :=
  fun client inside => ⟨client, inside, rfl, rfl⟩

/-- A validated database is clear whatever was edited. -/
theorem well_mapped_validated (numbers : (saved.groupMappings.map GroupMapping.id).Nodup)
    (keys : DistinctKeys saved.groupMappings)
    (sources : ∀ row ∈ saved.groupMappings, ∀ organizationId,
      MappingSource.organizationId row.source = some organizationId → Known saved organizationId)
    (homes : ∀ group ∈ saved.ldapGroups, Known saved group.organizationId)
    (valid : validateAllMappingContexts services saved = .ok ()) : WellMapped services saved :=
  ⟨numbers, keys, sources, homes, (validate_all_iff keys).mp valid⟩

/-! ### Clients -/

theorem create_client_well_mapped {form : ClientForm} {clientId clientSecretHash : String}
    (well : WellMapped services database)
    (done : createClient services database form id clientId clientSecretHash = .ok saved) :
    WellMapped services saved := by
  obtain ⟨scopes, -, done⟩ := bind_ok_iff.mp done
  split at done
  · simp at done
  · obtain ⟨⟨⟩, valid, done⟩ := bind_ok_iff.mp done
    obtain rfl := Except.ok.inj done
    exact well_mapped_validated well.numbers well.keys well.sources well.homes valid

theorem update_client_well_mapped {form : ClientForm} (well : WellMapped services database)
    (done : updateClient services database id form = .ok saved) : WellMapped services saved := by
  obtain ⟨-, -, done⟩ := bind_ok_iff.mp done
  obtain ⟨scopes, -, done⟩ := bind_ok_iff.mp done
  obtain ⟨⟨⟩, valid, done⟩ := bind_ok_iff.mp done
  obtain rfl := Except.ok.inj done
  exact well_mapped_validated well.numbers well.keys well.sources well.homes valid

theorem rewrite_client_well_mapped {change : Client → Client} (keeps : ∀ client, (change client).id
      = client.id ∧ (change client).organizationId = client.organizationId)
    (well : WellMapped services database) :
    WellMapped services (rewriteClient id change database) := by
  refine well_mapped_frame well rfl (fun _ => Iff.rfl) ?_ well.homes
  intro client inside
  obtain ⟨old, present, rfl⟩ := List.mem_map.mp inside
  refine ⟨old, present, ?_⟩
  split_ifs
  · exact ⟨(keeps old).1.symm, (keeps old).2.symm⟩
  · exact ⟨rfl, rfl⟩

theorem delete_client_well_mapped (well : WellMapped services database)
    (done : deleteClient database id = .ok saved) : WellMapped services saved := by
  obtain ⟨-, -, done⟩ := bind_ok_iff.mp done
  obtain rfl := Except.ok.inj done
  have part : (database.groupMappings.filter fun row => decide (row.oidcClientId ≠ some id)).Sublist
      database.groupMappings := List.filter_sublist
  refine ⟨(part.map _).nodup well.numbers, (part.map _).nodup well.keys,
    fun row inside => well.sources row (part.subset inside), well.homes, ?_⟩
  intro context live
  have earlier : Live database context := by
    refine live_of_tables live ?_ fun _ _ known => known
    intro client inside
    exact ⟨client, (List.mem_filter.mp inside).1, rfl, rfl⟩
  refine unambiguous_of_fewer (well.clear context earlier) ?_
  rintro row ⟨inside, related, scope⟩
  refine ⟨part.subset inside, related, scope.imp_right ?_⟩
  rintro ⟨default, alone⟩
  refine ⟨default, fun other present related same owner => ?_⟩
  refine alone other (List.mem_filter.mpr ⟨present, ?_⟩) related same owner
  -- the mappings of the deleted client belong to no context that is left
  rw [decide_eq_true_eq, owner]
  intro gone
  obtain ⟨client, inside, same, -⟩ := live.client id gone
  simp [same] at inside

/-! ### Mappings -/

theorem check_mapping_key_ok {rows : List GroupMapping} {source : MappingSource}
    (free : checkMappingKey rows source oidcClientId = .ok ()) :
    ∀ row ∈ rows, (row.source, row.oidcClientId) ≠ (source, oidcClientId) := by
  intro row inside same
  obtain ⟨sameSource, sameClient⟩ := Prod.mk.inj same
  rw [checkMappingKey, if_pos] at free
  · simp at free
  · exact List.any_eq_true.mpr ⟨row, inside, by simp [sameSource, sameClient]⟩

section

variable (well : WellMapped services database)
include well

theorem mapping_source_known {selection : Selection} {source : MappingSource} {organizationId : Nat}
    (found : mappingSource database selection = .ok source)
    (own : MappingSource.organizationId source = some organizationId) :
    Known database organizationId := by
  cases selection with
  | role role =>
    obtain rfl := Except.ok.inj found
    simp [MappingSource.organizationId] at own
  | group groupId =>
    simp only [mappingSource, groupById] at found
    split at found
    · rename_i group present
      obtain rfl := Except.ok.inj found
      obtain rfl := Option.some.inj own
      exact well.homes group (List.mem_of_find?_eq_some present)
    · simp at found

theorem create_group_mapping_well_mapped {sourceType localRole externalGroupName : String}
    {ldapGroupId : Option Nat}
    (done : createGroupMapping services database id sourceType localRole ldapGroupId oidcClientId
      externalGroupName = .ok saved) : WellMapped services saved := by
  obtain ⟨client, -, done⟩ := bind_ok_iff.mp done
  obtain ⟨⟨selection, name⟩, -, done⟩ := bind_ok_iff.mp done
  obtain ⟨source, found, done⟩ := bind_ok_iff.mp done
  obtain ⟨-, -, done⟩ := bind_ok_iff.mp done
  obtain ⟨⟨⟩, free, done⟩ := bind_ok_iff.mp done
  obtain ⟨⟨⟩, new, done⟩ := bind_ok_iff.mp done
  obtain ⟨⟨⟩, valid, done⟩ := bind_ok_iff.mp done
  obtain rfl := Except.ok.inj done
  have unused : ∀ row ∈ database.groupMappings, row.id ≠ id := by
    intro row inside same
    rw [checkRowNumber, if_pos] at new
    · simp at new
    · exact List.any_eq_true.mpr ⟨row, inside, by simp [same]⟩
  refine well_mapped_validated ?_ ?_ ?_ well.homes valid
  · rw [List.map_append]
    refine List.nodup_append.mpr ⟨well.numbers, by simp, ?_⟩
    intro number inside other single
    obtain ⟨row, present, rfl⟩ := List.mem_map.mp inside
    simp only [List.map_cons, List.map_nil, List.mem_singleton] at single
    exact single ▸ unused row present
  · rw [DistinctKeys, List.map_append]
    refine List.nodup_append.mpr ⟨well.keys, by simp, ?_⟩
    intro key inside other single
    obtain ⟨row, present, rfl⟩ := List.mem_map.mp inside
    simp only [List.map_cons, List.map_nil, List.mem_singleton] at single
    exact single ▸ check_mapping_key_ok free row present
  · intro row inside organizationId own
    rcases List.mem_append.mp inside with inside | single
    · exact well.sources row inside organizationId own
    · obtain rfl := List.mem_singleton.mp single
      have known : Known database organizationId := mapping_source_known well found own
      exact known

theorem update_group_mapping_well_mapped {externalGroupName : String}
    (done : updateGroupMapping services database id oidcClientId externalGroupName = .ok saved) :
    WellMapped services saved := by
  simp only [updateGroupMapping] at done
  split at done
  · simp at done
  rename_i row found
  obtain ⟨client, -, done⟩ := bind_ok_iff.mp done
  obtain ⟨-, -, done⟩ := bind_ok_iff.mp done
  obtain ⟨⟨⟩, free, done⟩ := bind_ok_iff.mp done
  obtain ⟨name, -, done⟩ := bind_ok_iff.mp done
  obtain ⟨⟨⟩, valid, done⟩ := bind_ok_iff.mp done
  obtain rfl := Except.ok.inj done
  have present := List.mem_of_find?_eq_some found
  have number : row.id = id := by simpa using List.find?_some found
  have only : ∀ other ∈ database.groupMappings, other.id = id → other = row := fun other inside same =>
    List.inj_on_of_nodup_map well.numbers inside present (same.trans number.symm)
  refine well_mapped_validated ?_ ?_ ?_ well.homes valid
  · rw [List.map_map]
    refine (List.map_congr_left ?_).symm ▸ well.numbers
    intro other inside
    simp only [Function.comp_apply]
    split_ifs with same
    · exact same.symm
    · rfl
  · rw [DistinctKeys, List.map_map]
    refine List.Nodup.map_on ?_ (List.Nodup.of_map _ well.numbers)
    have apart := check_mapping_key_ok free
    intro first inFirst second inSecond same
    simp only [Function.comp_apply] at same
    split_ifs at same with left right right
    · exact (only first inFirst left).trans (only second inSecond right).symm
    · rw [only first inFirst left] at same
      exact absurd same.symm (apart second (List.mem_filter.mpr ⟨inSecond, by simpa using right⟩))
    · rw [only second inSecond right] at same
      exact absurd same (apart first (List.mem_filter.mpr ⟨inFirst, by simpa using left⟩))
    · exact List.inj_on_of_nodup_map well.keys inFirst inSecond same
  · intro changed inside organizationId own
    obtain ⟨old, kept, rfl⟩ := List.mem_map.mp inside
    refine well.sources old kept organizationId ?_
    split_ifs at own
    · exact own
    · exact own

theorem delete_group_mapping_well_mapped
    (done : deleteGroupMapping services database id = .ok saved) : WellMapped services saved := by
  simp only [deleteGroupMapping] at done
  split at done
  · simp at done
  obtain ⟨⟨⟩, valid, done⟩ := bind_ok_iff.mp done
  obtain rfl := Except.ok.inj done
  have part : (database.groupMappings.filter fun row => decide (row.id ≠ id)).Sublist
      database.groupMappings := List.filter_sublist
  exact well_mapped_validated ((part.map _).nodup well.numbers) ((part.map _).nodup well.keys)
    (fun row inside => well.sources row (part.subset inside)) well.homes valid

end

/-! ### Organizations and groups -/

theorem effective_of_filter {row : GroupMapping} {keep : GroupMapping → Bool}
    (filtered : after.groupMappings = before.groupMappings.filter keep)
    (alike : ∀ first second, relevant context.source context.organizationId first = true → relevant
      context.source context.organizationId second = true → sourceKey first = sourceKey second →
      keep first = keep second) (effective : Effective after context row) :
    Effective before context row := by
  obtain ⟨inside, related, scope⟩ := effective
  rw [filtered] at inside scope
  obtain ⟨saved, kept⟩ := List.mem_filter.mp inside
  refine ⟨saved, related, scope.imp_right ?_⟩
  rintro ⟨default, alone⟩
  refine ⟨default, fun other present relatedOther same => ?_⟩
  refine alone other (List.mem_filter.mpr ⟨present, ?_⟩) relatedOther same
  exact (alike other row relatedOther related same).trans kept

theorem create_organization_well_mapped {organization : Organization}
    (well : WellMapped services database)
    (done : createLdapOrganization database organization = .ok saved) :
    WellMapped services saved := by
  simp only [createLdapOrganization] at done
  split at done
  · simp at done
  rename_i unused
  obtain rfl := Except.ok.inj done
  have grows : ∀ organizationId, Known database organizationId →
      ∃ other ∈ database.organizations ++ [organization], other.id = organizationId := by
    rintro organizationId ⟨other, inside, same⟩
    exact ⟨other, List.mem_append_left _ inside, same⟩
  have new : ¬Known database organization.id := by
    rintro ⟨other, inside, same⟩
    apply unused
    rw [organizationById, List.find?_isSome]
    exact ⟨other, inside, by simpa using same⟩
  refine ⟨well.numbers, well.keys, fun row inside organizationId own =>
    grows organizationId (well.sources row inside organizationId own),
    fun group inside => grows _ (well.homes group inside), ?_⟩
  intro context live
  by_cases fresh : context.organizationId = some organization.id
  · -- nothing maps groups of an organization that was not there
    intro first second left
    have related := left.related
    have source := well.sources first left.saved
    cases kind : context.source with
    | localSource =>
      have place := live.organization
      rw [kind] at place
      rw [fresh] at place
      simp at place
    | managedLdap =>
      rw [kind, fresh] at related
      cases origin : first.source with
      | localRole role => simp [relevant, origin] at related
      | ldapGroup groupId organizationId =>
        simp only [relevant, origin, decide_eq_true_eq, Option.some.injEq] at related
        subst related
        exact absurd (source organization.id (by rw [origin]; rfl)) new
  · refine unambiguous_of_fewer (well.clear context ?_) fun row => effective_of_mappings rfl
    refine live_of_tables live same_clients ?_
    rintro organizationId here ⟨other, inside, same⟩
    rcases List.mem_append.mp inside with inside | single
    · exact ⟨other, inside, same⟩
    · obtain rfl := List.mem_singleton.mp single
      exact absurd (here.trans (congrArg some same.symm)) fresh

theorem update_organization_well_mapped {name : String} (well : WellMapped services database)
    (done : updateLdapOrganization database id name enabled = .ok saved) :
    WellMapped services saved := by
  simp only [updateLdapOrganization] at done
  split at done
  · simp at done
  obtain rfl := Except.ok.inj done
  have same : ∀ organizationId, (∃ organization ∈ database.organizations.map fun organization =>
      if organization.id = id then ⟨id, stripped name, enabled⟩ else organization,
        organization.id = organizationId) ↔ Known database organizationId := by
    intro organizationId
    simp only [List.mem_map, exists_exists_and_eq_and, Known]
    refine exists_congr fun organization => and_congr_right fun _ => ?_
    split_ifs with changed
    · rw [changed]
    · rfl
  exact well_mapped_frame well rfl same same_clients fun group inside =>
    (same _).mpr (well.homes group inside)

theorem delete_organization_well_mapped (well : WellMapped services database)
    (done : deleteLdapOrganization database id = .ok saved) : WellMapped services saved := by
  simp only [deleteLdapOrganization] at done
  split at done
  · simp at done
  split at done
  · simp at done
  obtain rfl := Except.ok.inj done
  have remains : ∀ organizationId, organizationId ≠ id → Known database organizationId →
      ∃ organization ∈ database.organizations.filter fun organization =>
        decide (organization.id ≠ id), organization.id = organizationId := by
    rintro organizationId other ⟨organization, inside, rfl⟩
    exact ⟨organization, List.mem_filter.mpr ⟨inside, by simpa using other⟩, rfl⟩
  refine ⟨(List.filter_sublist.map _).nodup well.numbers,
    (List.filter_sublist.map _).nodup well.keys, ?_, ?_, ?_⟩
  · intro row inside organizationId own
    obtain ⟨present, kept⟩ := List.mem_filter.mp inside
    simp only [decide_eq_true_eq] at kept
    refine remains organizationId ?_ (well.sources row present organizationId own)
    rintro rfl
    exact kept.1 own
  · intro group inside
    obtain ⟨present, kept⟩ := List.mem_filter.mp inside
    exact remains _ (by simpa using kept) (well.homes group present)
  · intro context live
    have earlier : Live database context := by
      refine live_of_tables live same_clients ?_
      rintro organizationId - ⟨organization, inside, same⟩
      exact ⟨organization, (List.mem_filter.mp inside).1, same⟩
    refine unambiguous_of_fewer (well.clear context earlier) ?_
    intro row effective
    refine effective_of_filter rfl ?_ effective
    intro first second left right same
    rw [relevant_source left right same, same]

theorem set_members_frame {group : LdapGroup}
    (done : setLdapGroupMembers database group members = .ok saved) :
    ∃ memberships, saved = { database with memberships := memberships } := by
  obtain ⟨-, -, done⟩ := bind_ok_iff.mp done
  split at done
  · simp at done
  dsimp only at done
  split at done
  · simp at done
  · exact ⟨_, (Except.ok.inj done).symm⟩

theorem create_group_well_mapped {organizationId : Nat} {name : String}
    (well : WellMapped services database)
    (done : createLdapGroup database id organizationId name enabled members = .ok saved) :
    WellMapped services saved := by
  simp only [createLdapGroup] at done
  split at done
  · simp at done
  rename_i missing
  split at done
  · simp at done
  split at done
  · simp at done
  obtain ⟨memberships, rfl⟩ := set_members_frame done
  refine well_mapped_frame well rfl (fun _ => Iff.rfl) same_clients ?_
  intro group inside
  rcases List.mem_append.mp inside with inside | single
  · exact well.homes group inside
  · obtain rfl := List.mem_singleton.mp single
    cases found : organizationById database organizationId with
    | none => simp [found] at missing
    | some organization =>
      exact ⟨organization, List.mem_of_find?_eq_some found, by simpa using List.find?_some found⟩

theorem update_group_well_mapped {name : String} (well : WellMapped services database)
    (done : updateLdapGroup database id name enabled members = .ok saved) :
    WellMapped services saved := by
  simp only [updateLdapGroup] at done
  split at done
  · simp at done
  rename_i old found
  split at done
  · simp at done
  split at done
  · simp at done
  obtain ⟨memberships, rfl⟩ := set_members_frame done
  refine well_mapped_frame well rfl (fun _ => Iff.rfl) same_clients ?_
  intro group inside
  obtain ⟨other, present, rfl⟩ := List.mem_map.mp inside
  split_ifs
  · exact well.homes old (List.mem_of_find?_eq_some found)
  · exact well.homes other present

theorem delete_group_well_mapped (well : WellMapped services database)
    (done : deleteLdapGroup database id = .ok saved) : WellMapped services saved := by
  simp only [deleteLdapGroup] at done
  split at done
  · simp at done
  obtain rfl := Except.ok.inj done
  refine ⟨(List.filter_sublist.map _).nodup well.numbers,
    (List.filter_sublist.map _).nodup well.keys,
    fun row inside => well.sources row (List.mem_filter.mp inside).1,
    fun group inside => well.homes group (List.mem_filter.mp inside).1, ?_⟩
  intro context live
  refine unambiguous_of_fewer
    (well.clear context (live_of_tables live same_clients fun _ _ known => known)) ?_
  intro row effective
  refine effective_of_filter rfl ?_ effective
  intro first second _ _ same
  rw [same]

/-! ### Whole runs -/

/-- Accounts, settings and keys do not touch the mappings. -/
theorem well_mapped_same (well : WellMapped services before)
    (mappings : after.groupMappings = before.groupMappings)
    (organizations : after.organizations = before.organizations)
    (clients : after.clients = before.clients) (groups : after.ldapGroups = before.ldapGroups) :
    WellMapped services after := by
  have known : ∀ organizationId, Known after organizationId ↔ Known before organizationId := by
    intro organizationId
    rw [Known, Known, organizations]
  refine well_mapped_frame well mappings known (clients ▸ same_clients) ?_
  intro group inside
  exact (known _).mpr (well.homes group (groups ▸ inside))

theorem save_ldap_user_well_mapped {user : LdapUser} (well : WellMapped services database)
    (done : saveLdapUser database user = .ok saved) : WellMapped services saved := by
  simp only [saveLdapUser] at done
  split at done
  · simp at done
  · split at done
    · simp at done
    · obtain rfl := Except.ok.inj done
      exact well_mapped_same well rfl rfl rfl rfl
  · obtain rfl := Except.ok.inj done
    exact well_mapped_same well rfl rfl rfl rfl

theorem update_provider_frame {payload : Provider}
    (done : updateOidcProviderSettings services database payload = .ok saved) :
    saved = { database with provider := payload } := by
  simp only [updateOidcProviderSettings] at done
  split at done
  · simp at done
  split at done
  · simp at done
  · exact (Except.ok.inj done).symm

theorem generate_key_frame {rotate : Bool} {publicJwk : PublicJwk}
    (done : generateSigningKey database rotate now id publicJwk = .ok saved) :
    ∃ keys, saved = { database with signingKeys := keys } := by
  simp only [generateSigningKey] at done
  split at done
  · simp at done
  split at done
  · simp at done
  split at done
  · simp at done
  · exact ⟨_, (Except.ok.inj done).symm⟩

theorem delete_key_frame (done : deleteRetiredSigningKey database id now = .ok saved) :
    ∃ keys, saved = { database with signingKeys := keys } := by
  simp only [deleteRetiredSigningKey] at done
  split at done
  · simp at done
  split at done
  · simp at done
  split at done
  · simp at done
  split at done
  · simp at done
  · exact ⟨_, (Except.ok.inj done).symm⟩

theorem administer_well_mapped {action : Action} (well : WellMapped services database)
    (done : administer services now database action = .ok saved) : WellMapped services saved := by
  cases action with
  | createClient form id clientId clientSecretHash => exact create_client_well_mapped well done
  | updateClient id form => exact update_client_well_mapped well done
  | rotateClientSecret id clientSecretHash =>
    obtain ⟨-, -, done⟩ := bind_ok_iff.mp done
    obtain rfl := Except.ok.inj done
    exact rewrite_client_well_mapped (fun _ => ⟨rfl, rfl⟩) well
  | setClientEnabled id enabled =>
    obtain ⟨-, -, done⟩ := bind_ok_iff.mp done
    obtain rfl := Except.ok.inj done
    exact rewrite_client_well_mapped (fun _ => ⟨rfl, rfl⟩) well
  | deleteClient id => exact delete_client_well_mapped well done
  | createGroupMapping id sourceType localRole ldapGroupId oidcClientId externalGroupName =>
    exact create_group_mapping_well_mapped well done
  | updateGroupMapping id oidcClientId externalGroupName =>
    exact update_group_mapping_well_mapped well done
  | deleteGroupMapping id => exact delete_group_mapping_well_mapped well done
  | createLdapOrganization organization => exact create_organization_well_mapped well done
  | updateLdapOrganization id name enabled => exact update_organization_well_mapped well done
  | deleteLdapOrganization id => exact delete_organization_well_mapped well done
  | createLdapGroup id organizationId name enabled members =>
    exact create_group_well_mapped well done
  | updateLdapGroup id name enabled members => exact update_group_well_mapped well done
  | deleteLdapGroup id => exact delete_group_well_mapped well done
  | saveLdapUser user => exact save_ldap_user_well_mapped well done
  | updateProvider payload =>
    obtain rfl := update_provider_frame done
    exact well_mapped_same well rfl rfl rfl rfl
  | generateSigningKey rotate id publicJwk =>
    obtain ⟨keys, rfl⟩ := generate_key_frame done
    exact well_mapped_same well rfl rfl rfl rfl
  | deleteSigningKey id =>
    obtain ⟨keys, rfl⟩ := delete_key_frame done
    exact well_mapped_same well rfl rfl rfl rfl
  | saveLocalUser user =>
    obtain rfl := Except.ok.inj done
    exact well_mapped_same well rfl rfl rfl rfl
  | deleteLocalUser id =>
    obtain rfl := Except.ok.inj done
    exact well_mapped_same well rfl rfl rfl rfl
  | deleteLdapUser id =>
    obtain rfl := Except.ok.inj done
    exact well_mapped_same well rfl rfl rfl rfl
  | setLdapEnabled enabled =>
    obtain rfl := Except.ok.inj done
    exact well_mapped_same well rfl rfl rfl rfl
  | updateProviderFromUi form =>
    obtain rfl := Except.ok.inj done
    exact well_mapped_same well rfl rfl rfl rfl
  | setHostErrors errors =>
    obtain rfl := Except.ok.inj done
    exact well_mapped_same well rfl rfl rfl rfl

theorem empty_well_mapped : WellMapped services emptyDatabase := by
  refine ⟨List.nodup_nil, List.nodup_nil, fun row inside => ?_, fun group inside => ?_, ?_⟩
  · simp [emptyDatabase] at inside
  · simp [emptyDatabase] at inside
  · intro context _ first _ left
    have inside := left.saved
    simp [emptyDatabase] at inside

/-- The configuration after these requests, each at its time. -/
def runActions (services : Services) (database : Database) (actions : List (Nat × Action)) :
    Database :=
  actions.foldl (fun database request =>
    committed database (administer services request.1 database request.2)) database

theorem run_well_mapped (actions : List (Nat × Action)) (well : WellMapped services database) :
    WellMapped services (runActions services database actions) := by
  induction actions generalizing database with
  | nil => exact well
  | cons request actions induction =>
    refine induction ?_
    dsimp only
    cases outcome : administer services request.1 database request.2 with
    | ok saved => exact administer_well_mapped well outcome
    | error raised => exact well

end Edits

/-! ### Groups of a user -/

inductive Holds (database : Database) (user : LdapUser) : Nat → Prop where
  | direct {groupId : Nat} : groupId ∈ enabledGroupIds database user.organizationId →
      ⟨groupId, .user user.id⟩ ∈ database.memberships → Holds database user groupId
  | nested {inner outer : Nat} : Holds database user inner →
      outer ∈ enabledGroupIds database user.organizationId →
      ⟨outer, .group inner⟩ ∈ database.memberships → Holds database user outer

section Groups

variable {database : Database} {user : LdapUser}

variable {groupIds : List Nat} {groupId : Nat}

theorem mem_direct_groups {userId : Nat} :
    groupId ∈ directGroups database groupIds userId ↔
      groupId ∈ groupIds ∧ ⟨groupId, .user userId⟩ ∈ database.memberships := by
  simp only [directGroups, List.mem_dedup, List.mem_map, List.mem_filter, Bool.and_eq_true,
    decide_eq_true_eq]
  constructor
  · rintro ⟨⟨group, member⟩, ⟨saved, enabled, rfl⟩, rfl⟩
    exact ⟨enabled, saved⟩
  · rintro ⟨enabled, saved⟩
    exact ⟨_, ⟨saved, enabled, rfl⟩, rfl⟩

theorem mem_parents {inner outer : Nat} :
    outer ∈ parents database groupIds inner ↔
      outer ∈ groupIds ∧ inner ∈ groupIds ∧ ⟨outer, .group inner⟩ ∈ database.memberships := by
  simp only [parents, List.mem_map, List.mem_filter, Bool.and_eq_true, decide_eq_true_eq]
  constructor
  · rintro ⟨⟨group, member⟩, ⟨saved, ⟨enabled, known⟩, rfl⟩, rfl⟩
    exact ⟨enabled, known, saved⟩
  · rintro ⟨enabled, known, saved⟩
    exact ⟨_, ⟨saved, ⟨enabled, known⟩, rfl⟩, rfl⟩

theorem holds_enabled (holds : Holds database user groupId) :
    groupId ∈ enabledGroupIds database user.organizationId := by
  cases holds with
  | direct enabled _ => exact enabled
  | nested _ enabled _ => exact enabled

theorem reached_iff_holds :
    Reached (parents database (enabledGroupIds database user.organizationId))
      (directGroups database (enabledGroupIds database user.organizationId) user.id) groupId ↔
      Holds database user groupId := by
  constructor
  · rintro ⟨seed, start, path⟩
    induction path with
    | refl =>
      obtain ⟨enabled, saved⟩ := mem_direct_groups.mp start
      exact .direct enabled saved
    | tail path edge induction =>
      obtain ⟨enabled, -, saved⟩ := mem_parents.mp edge
      exact .nested induction enabled saved
  · intro holds
    induction holds with
    | direct enabled saved => exact ⟨_, mem_direct_groups.mpr ⟨enabled, saved⟩, .refl⟩
    | nested inner enabled saved induction =>
      obtain ⟨seed, start, path⟩ := induction
      exact ⟨seed, start, path.tail (mem_parents.mpr ⟨enabled, holds_enabled inner, saved⟩)⟩

theorem mem_resolved_groups :
    groupId ∈ resolvedEnabledLdapGroupIds database user ↔ Holds database user groupId := by
  rw [← reached_iff_holds]
  refine @mem_spread _ _ _ _ _ _ _ (enabledGroupIds database user.organizationId).toFinset ?_ ?_
    progress_start _
  · intro inner outer edge
    exact List.mem_toFinset.mpr (mem_parents.mp edge).1
  · refine Nat.add_le_add_left ?_ _
    exact (Finset.card_le_card Finset.sdiff_subset).trans (List.toFinset_card_le _)

end Groups

/-! ### The claim -/

def AccountEnabled (database : Database) (identity : VerifiedIdentity) : Prop :=
  match identity.source with
  | .localSource => ∃ user, localUserById database identity.sourceRecordId = some user ∧
      user.enabled = true ∧ user.authLocal = true
  | .managedLdap => ∃ user, ldapUserById database identity.sourceRecordId = some user ∧
      user.enabled = true

def SourceHeld (database : Database) (identity : VerifiedIdentity) (key : SourceKey) : Prop :=
  match identity.source with
  | .localSource => ∃ user, localUserById database identity.sourceRecordId = some user ∧
      ∃ role ∈ user.roles, key = .localRole role
  | .managedLdap => ∃ user, ldapUserById database identity.sourceRecordId = some user ∧
      ∃ groupId, Holds database user groupId ∧ key = .ldapGroup groupId

/-- The names of the claim: sorted, distinct under case folding, and those of the override,
else of the default, of each role or group the identity has. -/
structure ClaimedGroups (services : Services) (database : Database) (client : Client)
    (identity : VerifiedIdentity) (names : List String) : Prop where
  sorted : names.Pairwise fun left right => services.casefold left < services.casefold right
  exact : ∀ name, name ∈ names ↔ ∃ row,
    Effective database ⟨some client.id, identity.source, identity.organizationId⟩ row ∧
      SourceHeld database identity (sourceKey row) ∧ row.externalGroupName = name

section Claim

variable {services : Services} {database : Database} {client : Client}
  {identity : VerifiedIdentity}

theorem selected_keys_enabled (enabled : AccountEnabled database identity) :
    ∃ keys, selectedSourceKeys database identity = .ok keys ∧
      ∀ key, key ∈ keys ↔ SourceHeld database identity key := by
  simp only [AccountEnabled] at enabled
  cases kind : identity.source with
  | localSource =>
    rw [kind] at enabled
    obtain ⟨user, found, active, own⟩ := enabled
    refine ⟨user.roles.map .localRole, by simp [selectedSourceKeys, kind, found, active, own], ?_⟩
    intro key
    simp [SourceHeld, kind, found, eq_comm]
  | managedLdap =>
    rw [kind] at enabled
    obtain ⟨user, found, active⟩ := enabled
    refine ⟨(resolvedEnabledLdapGroupIds database user).map .ldapGroup,
      by simp [selectedSourceKeys, kind, found, active], ?_⟩
    intro key
    simp [SourceHeld, kind, found, mem_resolved_groups, eq_comm]

theorem selected_keys_disabled (disabled : ¬AccountEnabled database identity) :
    selectedSourceKeys database identity = .error (.configuration disabledMessage) := by
  simp only [AccountEnabled] at disabled
  simp only [selectedSourceKeys]
  cases kind : identity.source with
  | localSource =>
    rw [kind] at disabled
    cases found : localUserById database identity.sourceRecordId with
    | none => rfl
    | some user =>
      refine if_pos ?_
      by_contra active
      simp only [Bool.or_eq_true, Bool.not_eq_true', not_or, Bool.not_eq_false] at active
      exact disabled ⟨user, found, active.1, active.2⟩
  | managedLdap =>
    rw [kind] at disabled
    cases found : ldapUserById database identity.sourceRecordId with
    | none => rfl
    | some user =>
      refine if_pos ?_
      by_contra active
      simp only [Bool.not_eq_true', Bool.not_eq_false] at active
      exact disabled ⟨user, found, active⟩

theorem organization_known {id : Nat}
    (enabled : organizationEnabled (organizationById database id) = true) : Known database id := by
  cases found : organizationById database id with
  | none => simp [organizationEnabled, found] at enabled
  | some organization =>
    exact ⟨organization, List.mem_of_find?_eq_some found, by simpa using List.find?_some found⟩

theorem permitted_live (registered : client ∈ database.clients)
    (permitted : identityPermittedForClient database client identity = true) :
    Live database ⟨some client.id, identity.source, identity.organizationId⟩ := by
  simp only [identityPermittedForClient, Bool.and_eq_true] at permitted
  obtain ⟨-, permitted⟩ := permitted
  cases bound : client.organizationId with
  | some organizationId =>
    simp only [bound, Bool.and_eq_true, decide_eq_true_eq] at permitted
    obtain ⟨⟨⟨managed, member⟩, -⟩, enabled⟩ := permitted
    obtain ⟨organization, known, rfl⟩ := organization_known enabled
    refine ⟨?_, ?_⟩
    · intro id same
      exact ⟨client, registered, Option.some.inj same, .inr ⟨managed, bound.trans member.symm⟩⟩
    · simp only [managed]
      exact ⟨organization, known, member⟩
  | none =>
    have owner : ∀ id, some client.id = some id → ∃ other ∈ database.clients, other.id = id ∧
        (other.organizationId = none ∨ (identity.source = .managedLdap ∧
          other.organizationId = identity.organizationId)) :=
      fun id same => ⟨client, registered, Option.some.inj same, .inl bound⟩
    refine ⟨owner, ?_⟩
    cases kind : identity.source with
    | localSource =>
      simp only [bound, kind, Option.isNone_iff_eq_none] at permitted
      exact permitted
    | managedLdap =>
      cases member : identity.organizationId with
      | none => simp [bound, kind, member] at permitted
      | some organizationId =>
        simp only [bound, kind, member, Bool.and_eq_true] at permitted
        obtain ⟨organization, known, rfl⟩ := organization_known permitted.2
        exact ⟨organization, known, rfl⟩

theorem sorted_names {names : List String} (distinct : (names.map services.casefold).Nodup) :
    (names.insertionSort fun left right => services.casefold left ≤ services.casefold right).Pairwise
      fun left right => services.casefold left < services.casefold right := by
  have total : Std.Total fun left right => services.casefold left ≤ services.casefold right :=
    ⟨fun left right => le_total (services.casefold left) (services.casefold right)⟩
  have transitive : IsTrans String fun left right =>
      services.casefold left ≤ services.casefold right := ⟨fun _ _ _ => le_trans⟩
  have ordered := List.pairwise_insertionSort
    (fun left right => services.casefold left ≤ services.casefold right) names
  have different := List.pairwise_map.mp
    (((List.perm_insertionSort (fun left right => services.casefold left ≤
      services.casefold right) names).map services.casefold).nodup_iff.mpr distinct)
  exact (ordered.and different).imp fun both => lt_of_le_of_ne both.1 both.2

theorem names_distinct {context : Context} (keys : DistinctKeys database.groupMappings)
    (valid : validateEffectiveMappingRows services (mergedRows database context) = .ok ())
    (selected : List SourceKey) :
    ((((mergedRows database context).filter fun item => decide (item.1 ∈ selected)).map fun item =>
      item.2.externalGroupName).map services.casefold).Nodup := by
  obtain ⟨names, -⟩ := (check_names_ok (merged_keys_distinct keys) (by simp [getItem])).mp valid
  rw [List.map_map]
  exact (List.filter_sublist.map _).nodup names

theorem mapped_groups_spec (well : WellMapped services database)
    (live : Live database ⟨some client.id, identity.source, identity.organizationId⟩) :
    (AccountEnabled database identity → ∃ names,
        mappedExternalGroups services database client identity = .ok names ∧
          ClaimedGroups services database client identity names) ∧
      (¬AccountEnabled database identity → mappedExternalGroups services database client identity =
        .error (.configuration disabledMessage)) := by
  have valid := (validate_context_iff well.keys).mpr (well.clear _ live)
  simp only [validateContext] at valid
  have merged := fun key row => @mem_merged_rows database
    ⟨some client.id, identity.source, identity.organizationId⟩ well.keys key row
  constructor
  · intro enabled
    obtain ⟨keys, selected, held⟩ := selected_keys_enabled enabled
    simp only [mappedExternalGroups, valid, selected, ok_bind]
    have distinct := @names_distinct services database
      ⟨some client.id, identity.source, identity.organizationId⟩ well.keys valid keys
    refine ⟨_, rfl, sorted_names distinct, ?_⟩
    · intro name
      simp only [List.mem_insertionSort, List.mem_map, List.mem_filter, decide_eq_true_eq]
      constructor
      · rintro ⟨⟨key, row⟩, ⟨inside, chosen⟩, rfl⟩
        obtain ⟨effective, rfl⟩ := (merged key row).mp inside
        exact ⟨row, effective, (held _).mp chosen, rfl⟩
      · rintro ⟨row, effective, chosen, rfl⟩
        exact ⟨(sourceKey row, row), ⟨(merged _ row).mpr ⟨effective, rfl⟩, (held _).mpr chosen⟩, rfl⟩
  · intro disabled
    simp [mappedExternalGroups, valid, selected_keys_disabled disabled]

/-- In every configuration that administrators reach, the group claim of a permitted identity
is the sorted list of the names of its roles or groups, unless its account is disabled. -/
theorem group_claims_well_defined (services : Services) (actions : List (Nat × Action))
    (client : Client) (identity : VerifiedIdentity)
    (registered : client ∈ (runActions services emptyDatabase actions).clients)
    (permitted : identityPermittedForClient (runActions services emptyDatabase actions) client
      identity = true) :
    (AccountEnabled (runActions services emptyDatabase actions) identity → ∃ names,
        mappedExternalGroups services (runActions services emptyDatabase actions) client identity =
            .ok names ∧
          ClaimedGroups services (runActions services emptyDatabase actions) client identity
            names) ∧
      (¬AccountEnabled (runActions services emptyDatabase actions) identity →
        mappedExternalGroups services (runActions services emptyDatabase actions) client identity =
          .error (.configuration disabledMessage)) :=
  mapped_groups_spec (run_well_mapped actions empty_well_mapped)
    (permitted_live registered permitted)

end Claim

def nestedActions : List (Nat × Action) :=
  [(0, .setLdapEnabled true), (0, .createLdapOrganization ⟨1, "Lab", true⟩),
    (0, .saveLdapUser ⟨7, 1, "ada", "Ada", "Lovelace", "", "ada@lab.test", true⟩),
    (0, .createLdapGroup 3 1 "inner" true [.user 7]),
    (0, .createLdapGroup 4 1 "outer" true [.group 3]),
    (0, .createClient sampleForm 1 "lf_oidc_app" "$argon2id$secret"),
    (0, .createGroupMapping 1 "ldap_group" "" (some 3) none "Readers"),
    (0, .createGroupMapping 2 "ldap_group" "" (some 4) none "Operators"),
    (0, .createGroupMapping 3 "ldap_group" "" (some 4) (some 1) "admins")]

def nestedClient : Client :=
  clientRow sampleForm ["openid", "email", "groups"] 1 "lf_oidc_app" "$argon2id$secret"

def nestedIdentity : VerifiedIdentity :=
  ⟨.managedLdap, 7, "ada", "Ada Lovelace", "ada@lab.test", some 1, "Lab"⟩

theorem nested_groups_claimed :
    (∃ names, mappedExternalGroups sampleServices
        (runActions sampleServices emptyDatabase nestedActions) nestedClient nestedIdentity =
          .ok names ∧
        ClaimedGroups sampleServices (runActions sampleServices emptyDatabase nestedActions)
          nestedClient nestedIdentity names) ∧
      mappedExternalGroups sampleServices
        (runActions sampleServices emptyDatabase nestedActions) nestedClient nestedIdentity =
          .ok ["admins", "Readers"] := by
  have registered : nestedClient ∈
      (runActions sampleServices emptyDatabase nestedActions).clients := by decide
  have permitted : identityPermittedForClient
      (runActions sampleServices emptyDatabase nestedActions) nestedClient nestedIdentity =
        true := by decide
  have enabled : AccountEnabled (runActions sampleServices emptyDatabase nestedActions)
      nestedIdentity :=
    ⟨⟨7, 1, "ada", "Ada", "Lovelace", "", "ada@lab.test", true⟩, by decide, rfl⟩
  exact ⟨(group_claims_well_defined sampleServices nestedActions nestedClient nestedIdentity
    registered permitted).1 enabled, by decide⟩

end Atlaso.Oidc.GroupClaims
