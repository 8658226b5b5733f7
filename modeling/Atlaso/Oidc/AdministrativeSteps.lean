import Atlaso.Oidc.GroupClaims

/-!
What the requests of administrators write, said once for all of them.
-/

namespace Atlaso.Oidc.AdministrativeSteps

open Library.Outcomes Records GroupMappings SigningKeys Administration GroupClaims

variable {services : Services} {now : Nat} {database saved : Database}

structure Untouched (database saved : Database) : Prop where
  provider : saved.provider = database.provider
  keys : saved.signingKeys = database.signingKeys
  clients : saved.clients = database.clients
  organizations : saved.organizations = database.organizations
  codes : ∀ code ∈ saved.codes, code ∈ database.codes

/-- What a successful request leaves behind. -/
inductive Writes (services : Services) (now : Nat) (database : Database) :
    Action → Database → Prop
  | elsewhere {action : Action} {saved : Database} (untouched : Untouched database saved) :
      Writes services now database action saved
  | settings {action : Action} {provider : Provider}
      (overlap : 300 ≤ provider.signingKeyOverlapSeconds) :
      Writes services now database action { database with provider := provider }
  | keyGenerated {rotate : Bool} {id : Nat} {publicJwk : PublicJwk} {saved : Database}
      (done : generateSigningKey database rotate now id publicJwk = .ok saved) :
      Writes services now database (.generateSigningKey rotate id publicJwk) saved
  | keyDeleted {id : Nat} {saved : Database}
      (done : deleteRetiredSigningKey database id now = .ok saved) :
      Writes services now database (.deleteSigningKey id) saved
  | clientCreated {form : ClientForm} {scopes : List String} {id : Nat} {clientId hash : String}
      (new : ∀ client ∈ database.clients, client.id ≠ id ∧ client.clientId ≠ clientId) :
      Writes services now database (.createClient form id clientId hash)
        { database with clients := database.clients ++ [clientRow form scopes id clientId hash] }
  | clientUpdated {form : ClientForm} {scopes : List String} {id : Nat}
      (normalized : normalizeAllowedScopes form.allowedScopes = .ok scopes) :
      Writes services now database (.updateClient id form)
        (rewriteClient id (fun client =>
            clientRow form scopes client.id client.clientId client.clientSecretHash)
          { database with
            transactions := database.transactions.filter fun row => row.oidcClientId ≠ id })
  | secretRotated {id : Nat} {hash : String} :
      Writes services now database (.rotateClientSecret id hash)
        (rewriteClient id (fun client => { client with clientSecretHash := hash }) database)
  | clientSwitched {id : Nat} {enabled : Bool} :
      Writes services now database (.setClientEnabled id enabled)
        (rewriteClient id (fun client => { client with enabled := enabled }) database)
  | clientDeleted {id : Nat} :
      Writes services now database (.deleteClient id) { database with
        clients := database.clients.filter fun client => client.id ≠ id
        groupMappings := database.groupMappings.filter fun row => row.oidcClientId ≠ some id
        transactions := database.transactions.filter fun row => row.oidcClientId ≠ id
        codes := database.codes.filter fun row => row.oidcClientId ≠ id }
  | organizationCreated {organization : Organization}
      (new : organizationById database organization.id = none) :
      Writes services now database (.createLdapOrganization organization)
        { database with organizations := database.organizations ++ [organization] }
  | organizationUpdated {id : Nat} {name : String} {enabled : Bool} :
      Writes services now database (.updateLdapOrganization id name enabled) { database with
        organizations := database.organizations.map fun organization =>
          if organization.id = id then ⟨id, stripped name, enabled⟩ else organization }
  | organizationDeleted {id : Nat} {saved : Database}
      (untouched : Untouched database
        { saved with organizations := database.organizations })
      (organizations : saved.organizations =
        database.organizations.filter fun organization => organization.id ≠ id)
      (unbound : ∀ client ∈ database.clients, client.organizationId ≠ some id) :
      Writes services now database (.deleteLdapOrganization id) saved

/-! ### Clients -/

variable {form : ClientForm} {id : Nat} {action : Action} {enabled : Bool}

theorem check_client_form_scopes {scopes : List String}
    (checked : checkClientForm services database form = .ok scopes) :
    normalizeAllowedScopes form.allowedScopes = .ok scopes := by
  simp only [checkClientForm] at checked
  split at checked
  · simp at checked
  obtain ⟨-, -, checked⟩ := bind_ok_iff.mp checked
  obtain ⟨-, -, checked⟩ := bind_ok_iff.mp checked
  obtain ⟨-, -, checked⟩ := bind_ok_iff.mp checked
  obtain ⟨-, -, checked⟩ := bind_ok_iff.mp checked
  exact checked

theorem create_client_writes {clientId hash : String}
    (done : createClient services database form id clientId hash = .ok saved) :
    Writes services now database (.createClient form id clientId hash) saved := by
  obtain ⟨scopes, -, done⟩ := bind_ok_iff.mp done
  split at done
  · simp at done
  rename_i new
  obtain ⟨⟨⟩, -, done⟩ := bind_ok_iff.mp done
  obtain rfl := Except.ok.inj done
  refine .clientCreated fun client inside => ⟨fun same => ?_, fun same => ?_⟩
  · exact new (List.any_eq_true.mpr ⟨client, inside, by simp [same]⟩)
  · exact new (List.any_eq_true.mpr ⟨client, inside, by simp [same]⟩)

theorem update_client_writes (done : updateClient services database id form = .ok saved) :
    Writes services now database (.updateClient id form) saved := by
  obtain ⟨-, -, done⟩ := bind_ok_iff.mp done
  obtain ⟨scopes, checked, done⟩ := bind_ok_iff.mp done
  obtain ⟨⟨⟩, -, done⟩ := bind_ok_iff.mp done
  obtain rfl := Except.ok.inj done
  exact .clientUpdated (check_client_form_scopes checked)

/-! ### Everything else -/

variable {externalGroupName : String} {oidcClientId : Option Nat} {members : List Member}

theorem create_mapping_writes {sourceType localRole : String} {ldapGroupId : Option Nat}
    (done : createGroupMapping services database id sourceType localRole ldapGroupId oidcClientId
      externalGroupName = .ok saved) :
    Writes services now database action saved := by
  obtain ⟨client, -, done⟩ := bind_ok_iff.mp done
  obtain ⟨⟨selection, name⟩, -, done⟩ := bind_ok_iff.mp done
  obtain ⟨source, -, done⟩ := bind_ok_iff.mp done
  obtain ⟨⟨⟩, -, done⟩ := bind_ok_iff.mp done
  obtain ⟨⟨⟩, -, done⟩ := bind_ok_iff.mp done
  obtain ⟨⟨⟩, -, done⟩ := bind_ok_iff.mp done
  obtain ⟨⟨⟩, -, done⟩ := bind_ok_iff.mp done
  obtain rfl := Except.ok.inj done
  exact .elsewhere ⟨rfl, rfl, rfl, rfl, fun _ inside => inside⟩

theorem update_mapping_writes
    (done : updateGroupMapping services database id oidcClientId externalGroupName = .ok saved) :
    Writes services now database action saved := by
  simp only [updateGroupMapping] at done
  split at done
  · simp at done
  obtain ⟨client, -, done⟩ := bind_ok_iff.mp done
  obtain ⟨⟨⟩, -, done⟩ := bind_ok_iff.mp done
  obtain ⟨⟨⟩, -, done⟩ := bind_ok_iff.mp done
  obtain ⟨normalized, -, done⟩ := bind_ok_iff.mp done
  obtain ⟨⟨⟩, -, done⟩ := bind_ok_iff.mp done
  obtain rfl := Except.ok.inj done
  exact .elsewhere ⟨rfl, rfl, rfl, rfl, fun _ inside => inside⟩

theorem delete_mapping_writes (done : deleteGroupMapping services database id = .ok saved) :
    Writes services now database action saved := by
  simp only [deleteGroupMapping] at done
  split at done
  · simp at done
  obtain ⟨⟨⟩, -, done⟩ := bind_ok_iff.mp done
  obtain rfl := Except.ok.inj done
  exact .elsewhere ⟨rfl, rfl, rfl, rfl, fun _ inside => inside⟩

theorem create_organization_writes {organization : Organization}
    (done : createLdapOrganization database organization = .ok saved) :
    Writes services now database (.createLdapOrganization organization) saved := by
  simp only [createLdapOrganization] at done
  split at done
  · simp at done
  rename_i new
  obtain rfl := Except.ok.inj done
  exact .organizationCreated (by simpa using new)

theorem update_organization_writes {name : String}
    (done : updateLdapOrganization database id name enabled = .ok saved) :
    Writes services now database (.updateLdapOrganization id name enabled) saved := by
  simp only [updateLdapOrganization] at done
  split at done
  · simp at done
  obtain rfl := Except.ok.inj done
  exact .organizationUpdated

theorem delete_organization_writes (done : deleteLdapOrganization database id = .ok saved) :
    Writes services now database (.deleteLdapOrganization id) saved := by
  simp only [deleteLdapOrganization] at done
  split at done
  · simp at done
  split at done
  · simp at done
  rename_i unbound
  obtain rfl := Except.ok.inj done
  refine .organizationDeleted ⟨rfl, rfl, rfl, rfl, fun code inside => (List.mem_filter.mp inside).1⟩
    rfl ?_
  intro client inside bound
  refine unbound ?_
  rw [Bool.or_eq_true]
  exact .inl (List.any_eq_true.mpr ⟨client, inside, by simpa using bound⟩)

theorem create_group_writes {organizationId : Nat} {name : String}
    (done : createLdapGroup database id organizationId name enabled members = .ok saved) :
    Writes services now database action saved := by
  simp only [createLdapGroup] at done
  split at done
  · simp at done
  split at done
  · simp at done
  split at done
  · simp at done
  obtain ⟨memberships, rfl⟩ := set_members_frame done
  exact .elsewhere ⟨rfl, rfl, rfl, rfl, fun _ inside => inside⟩

theorem update_group_writes {name : String}
    (done : updateLdapGroup database id name enabled members = .ok saved) :
    Writes services now database action saved := by
  simp only [updateLdapGroup] at done
  split at done
  · simp at done
  split at done
  · simp at done
  split at done
  · simp at done
  obtain ⟨memberships, rfl⟩ := set_members_frame done
  exact .elsewhere ⟨rfl, rfl, rfl, rfl, fun _ inside => inside⟩

theorem delete_group_writes (done : deleteLdapGroup database id = .ok saved) :
    Writes services now database action saved := by
  simp only [deleteLdapGroup] at done
  split at done
  · simp at done
  obtain rfl := Except.ok.inj done
  exact .elsewhere ⟨rfl, rfl, rfl, rfl, fun _ inside => inside⟩

theorem save_ldap_user_writes {user : LdapUser} (done : saveLdapUser database user = .ok saved) :
    Writes services now database action saved := by
  simp only [saveLdapUser] at done
  split at done
  · simp at done
  · split at done
    · simp at done
    · obtain rfl := Except.ok.inj done
      exact .elsewhere ⟨rfl, rfl, rfl, rfl, fun _ inside => inside⟩
  · obtain rfl := Except.ok.inj done
    exact .elsewhere ⟨rfl, rfl, rfl, rfl, fun _ inside => inside⟩

theorem update_provider_writes {payload : Provider}
    (done : updateOidcProviderSettings services database payload = .ok saved) :
    Writes services now database action saved := by
  obtain rfl := update_provider_frame done
  simp only [updateOidcProviderSettings] at done
  split at done
  · simp at done
  rename_i bounds
  simp only [Bool.not_eq_true', Bool.not_eq_false, Bool.and_eq_true, decide_eq_true_eq] at bounds
  exact .settings bounds.1.2

theorem clamped_ge {low high : Nat} {value : Int} : low ≤ clamped low high value := by
  simp only [clamped]
  omega

theorem administer_writes (done : administer services now database action = .ok saved) :
    Writes services now database action saved := by
  cases action with
  | createClient form id clientId clientSecretHash => exact create_client_writes done
  | updateClient id form => exact update_client_writes done
  | rotateClientSecret id clientSecretHash =>
    obtain ⟨-, -, done⟩ := bind_ok_iff.mp done
    obtain rfl := Except.ok.inj done
    exact .secretRotated
  | setClientEnabled id enabled =>
    obtain ⟨-, -, done⟩ := bind_ok_iff.mp done
    obtain rfl := Except.ok.inj done
    exact .clientSwitched
  | deleteClient id =>
    obtain ⟨-, -, done⟩ := bind_ok_iff.mp done
    obtain rfl := Except.ok.inj done
    exact .clientDeleted
  | createGroupMapping id sourceType localRole ldapGroupId oidcClientId externalGroupName =>
    exact create_mapping_writes done
  | updateGroupMapping id oidcClientId externalGroupName => exact update_mapping_writes done
  | deleteGroupMapping id => exact delete_mapping_writes done
  | createLdapOrganization organization => exact create_organization_writes done
  | updateLdapOrganization id name enabled => exact update_organization_writes done
  | deleteLdapOrganization id => exact delete_organization_writes done
  | createLdapGroup id organizationId name enabled members => exact create_group_writes done
  | updateLdapGroup id name enabled members => exact update_group_writes done
  | deleteLdapGroup id => exact delete_group_writes done
  | saveLdapUser user => exact save_ldap_user_writes done
  | updateProvider payload => exact update_provider_writes done
  | generateSigningKey rotate id publicJwk => exact .keyGenerated done
  | deleteSigningKey id => exact .keyDeleted done
  | saveLocalUser user =>
    obtain rfl := Except.ok.inj done
    exact .elsewhere ⟨rfl, rfl, rfl, rfl, fun _ inside => inside⟩
  | deleteLocalUser id =>
    obtain rfl := Except.ok.inj done
    exact .elsewhere ⟨rfl, rfl, rfl, rfl, fun _ inside => (List.mem_filter.mp inside).1⟩
  | deleteLdapUser id =>
    obtain rfl := Except.ok.inj done
    exact .elsewhere ⟨rfl, rfl, rfl, rfl, fun _ inside => (List.mem_filter.mp inside).1⟩
  | setLdapEnabled enabled =>
    obtain rfl := Except.ok.inj done
    exact .elsewhere ⟨rfl, rfl, rfl, rfl, fun _ inside => inside⟩
  | updateProviderFromUi form =>
    obtain rfl := Except.ok.inj done
    exact .settings clamped_ge
  | setHostErrors errors =>
    obtain rfl := Except.ok.inj done
    exact .elsewhere ⟨rfl, rfl, rfl, rfl, fun _ inside => inside⟩

end Atlaso.Oidc.AdministrativeSteps
