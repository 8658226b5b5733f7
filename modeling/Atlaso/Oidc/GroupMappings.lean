import Atlaso.Library.Dictionary
import Atlaso.Library.Outcomes
import Atlaso.Library.Worklist
import Atlaso.Oidc.Records
import Mathlib.Data.List.Dedup
import Mathlib.Data.List.Sort
import Mathlib.Data.String.Basic

/-!
Identities, the clients they may use, and the external group names of their claims.

Defaults and client overrides are merged per source key. The names of a merged map must
differ under case folding, which is validated for every context an identity can have.
-/

namespace Atlaso.Oidc.GroupMappings

open Library Dictionary Outcomes Worklist Records

structure VerifiedIdentity where
  source : Source
  sourceRecordId : Nat
  (username displayName email : String)
  organizationId : Option Nat
  organizationName : String
  deriving DecidableEq, Repr

def ldapDisplayName (user : LdapUser) : String :=
  let fullName := stripped (user.givenName ++ " " ++ user.surname)
  if user.displayName ≠ "" then user.displayName
  else if fullName ≠ "" then fullName
  else user.uid

def localIdentity (user : LocalUser) : VerifiedIdentity where
  source := .localSource
  sourceRecordId := user.id
  username := user.username
  displayName := if user.externalDisplayName = "" then user.username else user.externalDisplayName
  email := user.externalEmail
  organizationId := none
  organizationName := "Local"

def ldapIdentity (user : LdapUser) (organization : Organization) : VerifiedIdentity where
  source := .managedLdap
  sourceRecordId := user.id
  username := user.uid
  displayName := ldapDisplayName user
  email := user.email
  organizationId := some user.organizationId
  organizationName := organization.name

def identityFromSource (database : Database) (source : Source) (sourceRecordId : Nat)
    (organizationId : Option Nat) : Option VerifiedIdentity :=
  match source with
  | .localSource => do
      let user ← localUserById database sourceRecordId
      if !user.enabled || !user.authLocal || organizationId.isSome then none
      else some (localIdentity user)
  | .managedLdap => do
      let user ← if database.ldapEnabled then ldapUserById database sourceRecordId else none
      let organization ← organizationById database user.organizationId
      if !user.enabled || !organization.enabled ||
          decide (some user.organizationId ≠ organizationId) then none
      else some (ldapIdentity user organization)

def organizationEnabled (organization : Option Organization) : Bool :=
  organization.any Organization.enabled

def identityPermittedForClient (database : Database) (client : Client)
    (identity : VerifiedIdentity) : Bool :=
  client.enabled && match client.organizationId with
    | some bound =>
      decide (identity.source = .managedLdap) && decide (identity.organizationId = some bound) &&
        database.ldapEnabled && organizationEnabled (organizationById database bound)
    | none => match identity.source, identity.organizationId with
        | .localSource, organizationId => organizationId.isNone
        | .managedLdap, none => false
        | .managedLdap, some organizationId =>
          database.ldapEnabled && organizationEnabled (organizationById database organizationId)

/-! ### Effective mappings -/

/-- `_mapping_source_key`. -/
inductive SourceKey where
  | localRole (role : Role)
  | ldapGroup (groupId : Nat)
  deriving DecidableEq, Repr

def sourceKey (row : GroupMapping) : SourceKey :=
  match row.source with
  | .localRole role => .localRole role
  | .ldapGroup groupId _ => .ldapGroup groupId

def MappingSource.organizationId : MappingSource → Option Nat
  | .localRole _ => none
  | .ldapGroup _ organizationId => some organizationId

/-- The texts of `source_type` and `local_role`. -/
def MappingSource.columns : MappingSource → String × String
  | .localRole role => ("local_role", role.value)
  | .ldapGroup _ _ => ("ldap_group", "")

/-- `ORDER BY organization_id, oidc_client_id, source_type, local_role, id`. -/
def rowOrder (left right : GroupMapping) : Ordering :=
  (compare (MappingSource.organizationId left.source)
      (MappingSource.organizationId right.source)).then <|
    (compare left.oidcClientId right.oidcClientId).then <|
      (compare (MappingSource.columns left.source).1 (MappingSource.columns right.source).1).then <|
        (compare (MappingSource.columns left.source).2
          (MappingSource.columns right.source).2).then (compare left.id right.id)

def listGroupMappings (database : Database) : List GroupMapping :=
  database.groupMappings.insertionSort fun left right => rowOrder left right ≠ .gt

/-- Whether a mapping belongs to this kind of identity. -/
def relevant (source : Source) (organizationId : Option Nat) (row : GroupMapping) : Bool :=
  match source, row.source with
  | .localSource, .localRole _ => true
  | .managedLdap, .ldapGroup _ rowOrganization => decide (some rowOrganization = organizationId)
  | _, _ => false

def keyed (rows : List GroupMapping) : List (SourceKey × GroupMapping) :=
  rows.map fun row => (sourceKey row, row)

def update (pairs items : List (SourceKey × GroupMapping)) : List (SourceKey × GroupMapping) :=
  pairs.foldl (fun items pair => setItem pair.1 pair.2 items) items

def effectiveMappingRows (database : Database) (client : Option Nat) (source : Source)
    (organizationId : Option Nat) : List (SourceKey × GroupMapping) :=
  let rows := (listGroupMappings database).filter (relevant source organizationId)
  let defaults := ofPairs (keyed (rows.filter fun row => row.oidcClientId = none))
  match client with
  | none => defaults
  | some client => update (keyed (rows.filter fun row => row.oidcClientId = some client)) defaults

def uniquenessMessage : String :=
  "Effective external group names must be unique case-insensitively " ++
    "for each client and organization."

section Claims

variable (services : Services)

def checkNames : List (String × SourceKey) → List (SourceKey × GroupMapping) →
    Except Raised Unit
  | _, [] => .ok ()
  | names, (key, row) :: rows =>
    let name := services.casefold row.externalGroupName
    if (getItem name names).any (· ≠ key) then .error (.configuration uniquenessMessage)
    else checkNames (setItem name key names) rows

def validateEffectiveMappingRows (rows : List (SourceKey × GroupMapping)) : Except Raised Unit :=
  checkNames services [] rows

/-- A client, or the defaults alone, with a kind of identity. -/
structure Context where
  client : Option Nat
  source : Source
  organizationId : Option Nat
  deriving DecidableEq, Repr

/-- The contexts of `validate_all_mapping_contexts` in its order. -/
def mappingContexts (database : Database) : List Context :=
  ⟨none, .localSource, none⟩ ::
    ((database.clients.filter fun client => client.organizationId = none).map fun client =>
      ⟨some client.id, .localSource, none⟩) ++
    database.organizations.flatMap fun organization =>
      ⟨none, .managedLdap, some organization.id⟩ ::
        (database.clients.filter fun client => client.organizationId = none ∨
          client.organizationId = some organization.id).map fun client =>
            ⟨some client.id, .managedLdap, some organization.id⟩

def validateContext (database : Database) (context : Context) : Except Raised Unit :=
  validateEffectiveMappingRows services
    (effectiveMappingRows database context.client context.source context.organizationId)

def validateAllMappingContexts (database : Database) : Except Raised Unit :=
  (mappingContexts database).forM (validateContext services database)

/-! ### Edits of mappings -/

def normalizeExternalGroupName (value : String) : Except Raised String :=
  let normalized := stripped value
  if normalized = "" ∨ 160 < normalized.toList.length ∨
      normalized.toList.any fun c => decide (c.toNat < 0x20) then
    .error (.configuration "External group names must contain 1-160 printable characters.")
  else .ok normalized

inductive Selection where
  | role (role : Role)
  | group (groupId : Nat)
  deriving DecidableEq, Repr

def validateGroupMappingValues (sourceType localRole : String) (ldapGroupId : Option Nat)
    (externalGroupName : String) : Except Raised (Selection × String) := do
  let normalizedRole := services.casefold (stripped localRole)
  let selection ← if sourceType = "local_role" then
      match Role.all.find? (fun role => role.value = normalizedRole), ldapGroupId with
      | some role, none => .ok (.role role)
      | _, _ => .error (.configuration "Select one supported local Atlaso role.")
    else if sourceType = "ldap_group" then
      match ldapGroupId with
      | some groupId =>
        if normalizedRole = "" then .ok (.group groupId)
        else .error (.configuration "Select one managed LDAP group.")
      | none => .error (.configuration "Select one managed LDAP group.")
    else .error (.configuration "Unsupported OIDC group mapping source.")
  let name ← normalizeExternalGroupName externalGroupName
  .ok (selection, name)

def getClient (database : Database) (id : Nat) : Except Raised Client :=
  match clientById database id with
  | some client => .ok client
  | none => .error (.configuration "OIDC client not found.")

def overrideClient (database : Database) : Option Nat → Except Raised (Option Client)
  | none => .ok none
  | some id => do
      let client ← getClient database id
      .ok (some client)

def checkBinding (client : Option Client) (source : MappingSource) : Except Raised Unit :=
  match client.bind Client.organizationId, source with
  | some _, .localRole _ =>
    .error (.configuration "Local role overrides are valid only for unbound OIDC clients.")
  | some bound, .ldapGroup _ organizationId =>
    if bound ≠ organizationId then
      .error (.configuration "A client override must use a group from its bound organization.")
    else .ok ()
  | none, _ => .ok ()

def mappingSource (database : Database) : Selection → Except Raised MappingSource
  | .role role => .ok (.localRole role)
  | .group groupId =>
    match groupById database groupId with
    | some group => .ok (.ldapGroup group.id group.organizationId)
    | none => .error (.configuration "Managed LDAP group not found.")

def conflictMessage : String := "A mapping already exists for this source and mapping scope."

/-- The unique `mapping_key` names the scope and the source. -/
def checkMappingKey (rows : List GroupMapping) (source : MappingSource)
    (oidcClientId : Option Nat) : Except Raised Unit :=
  if rows.any fun row => decide (row.source = source ∧ row.oidcClientId = oidcClientId) then
    .error (.conflict conflictMessage)
  else .ok ()

/-- The primary key. -/
def checkRowNumber (database : Database) (id : Nat) : Except Raised Unit :=
  if database.groupMappings.any fun row => row.id = id then .error .integrity else .ok ()

/-- `create_group_mapping`; `id` is the number the table gives to the row. -/
def createGroupMapping (database : Database) (id : Nat) (sourceType localRole : String)
    (ldapGroupId oidcClientId : Option Nat) (externalGroupName : String) :
    Except Raised Database := do
  let client ← overrideClient database oidcClientId
  let (selection, name) ← validateGroupMappingValues services sourceType localRole ldapGroupId
    externalGroupName
  let source ← mappingSource database selection
  checkBinding client source
  checkMappingKey database.groupMappings source (client.map Client.id)
  checkRowNumber database id
  let row : GroupMapping := ⟨id, source, client.map Client.id, name⟩
  let saved := { database with groupMappings := database.groupMappings ++ [row] }
  validateAllMappingContexts services saved
  .ok saved

def updateGroupMapping (database : Database) (id : Nat) (oidcClientId : Option Nat)
    (externalGroupName : String) : Except Raised Database :=
  match database.groupMappings.find? fun row => row.id = id with
  | none => .error (.notFound "OIDC group mapping not found.")
  | some row => do
      let client ← overrideClient database oidcClientId
      checkBinding client row.source
      checkMappingKey (database.groupMappings.filter fun other => other.id ≠ id) row.source
        (client.map Client.id)
      let name ← normalizeExternalGroupName externalGroupName
      let change : GroupMapping → GroupMapping := fun other =>
        if other.id = id then ⟨id, other.source, client.map Client.id, name⟩ else other
      let saved := { database with groupMappings := database.groupMappings.map change }
      validateAllMappingContexts services saved
      .ok saved

def deleteGroupMapping (database : Database) (id : Nat) : Except Raised Database :=
  if database.groupMappings.all fun row => row.id ≠ id then
    .error (.notFound "OIDC group mapping not found.")
  else do
    let saved := { database with
      groupMappings := database.groupMappings.filter fun row => row.id ≠ id }
    validateAllMappingContexts services saved
    .ok saved

/-! ### Claims -/

def enabledGroupIds (database : Database) (organizationId : Nat) : List Nat :=
  (database.ldapGroups.filter fun group =>
    decide (group.organizationId = organizationId) && group.enabled).map LdapGroup.id

def parents (database : Database) (groupIds : List Nat) (current : Nat) : List Nat :=
  (database.memberships.filter fun membership =>
    decide (membership.groupId ∈ groupIds) && decide (current ∈ groupIds) &&
      decide (membership.member = .group current)).map Membership.groupId

def directGroups (database : Database) (groupIds : List Nat) (userId : Nat) : List Nat :=
  ((database.memberships.filter fun membership =>
    decide (membership.groupId ∈ groupIds) &&
      decide (membership.member = .user userId)).map Membership.groupId).dedup

def resolvedEnabledLdapGroupIds (database : Database) (user : LdapUser) : List Nat :=
  let groupIds := enabledGroupIds database user.organizationId
  let resolved := directGroups database groupIds user.id
  spread (parents database groupIds) (resolved.length + groupIds.length) resolved resolved

def disabledMessage : String := "Identity is disabled."

def selectedSourceKeys (database : Database) (identity : VerifiedIdentity) :
    Except Raised (List SourceKey) :=
  match identity.source with
  | .localSource =>
    match localUserById database identity.sourceRecordId with
    | some user =>
      if !user.enabled || !user.authLocal then .error (.configuration disabledMessage)
      else .ok (user.roles.map .localRole)
    | none => .error (.configuration disabledMessage)
  | .managedLdap =>
    match ldapUserById database identity.sourceRecordId with
    | some user =>
      if !user.enabled then .error (.configuration disabledMessage)
      else .ok ((resolvedEnabledLdapGroupIds database user).map .ldapGroup)
    | none => .error (.configuration disabledMessage)

def mappedExternalGroups (database : Database) (client : Client) (identity : VerifiedIdentity) :
    Except Raised (List String) := do
  let effective := effectiveMappingRows database (some client.id) identity.source
    identity.organizationId
  validateEffectiveMappingRows services effective
  let selected ← selectedSourceKeys database identity
  let names := (effective.filter fun item => decide (item.1 ∈ selected)).map fun item =>
    item.2.externalGroupName
  .ok (names.insertionSort fun left right => services.casefold left ≤ services.casefold right)

/-- The claims that depend on the granted scopes. -/
structure IdentityClaims where
  /-- `preferred_username`, `name` and `organization`. -/
  profile : Option (String × String × String)
  email : Option String
  groups : Option (List String)
  deriving DecidableEq, Repr

def scopedIdentityClaims (database : Database) (client : Client) (identity : VerifiedIdentity)
    (scopes : List String) : Except Raised IdentityClaims := do
  let groups ← if scopes.contains "groups" then do
      let names ← mappedExternalGroups services database client identity
      .ok (some names)
    else .ok none
  .ok {
    profile := if scopes.contains "profile" then
        some (identity.username, identity.displayName, identity.organizationName)
      else none
    email := if scopes.contains "email" then some identity.email else none
    groups := groups }

end Claims

end Atlaso.Oidc.GroupMappings
