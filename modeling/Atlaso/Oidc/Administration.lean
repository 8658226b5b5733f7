import Atlaso.Oidc.GroupMappings
import Atlaso.Oidc.SigningKeys

/-!
What administrators do: clients and their policy, managed LDAP organizations and groups,
accounts, provider settings and keys.

A handler that raises leaves the database as it was: it rolls back, or closes the session
without a commit.
-/

namespace Atlaso.Oidc.Administration

open Library Dictionary Outcomes Records GroupMappings SigningKeys

def OIDC_SCOPES : List String := ["openid", "profile", "email", "groups"]

def OIDC_AUTHORIZATION_CODE_LIFETIME_SECONDS : Nat := 60

/-! ### Clients -/

def distinctScopes (scopes : List String) : List String :=
  scopes.foldl (fun normalized scope =>
    let value := stripped scope
    if value ≠ "" ∧ value ∉ normalized then normalized ++ [value] else normalized) []

def normalizeAllowedScopes (scopes : List String) : Except Raised (List String) :=
  let normalized := distinctScopes scopes
  let unknown := normalized.filter fun scope => scope ∉ OIDC_SCOPES
  if unknown ≠ [] then
    .error (.configuration ("Unsupported OIDC scopes: " ++
      String.intercalate ", " (unknown.insertionSort (· ≤ ·)) ++ "."))
  else if "openid" ∉ normalized then
    .error (.configuration "OIDC clients must allow the openid scope.")
  else .ok (OIDC_SCOPES.filter fun scope => scope ∈ normalized)

section Clients

variable (services : Services)

/-- `scheme.lower()`; the reader leaves only ASCII characters in a scheme. -/
def lowered (text : String) : String := String.ofList (text.toList.map Char.toLower)

/-- The checks of `validate_redirect_uri` behind the URL reader. -/
def checkRedirectParts (allowLoopback : Bool) (parsed : SplitUrl) : Except Raised Unit :=
  if parsed.username.any (· ≠ "") || parsed.password.any (· ≠ "") then
    .error (.configuration "Redirect URIs must not contain user information.")
  else if (parsed.hostname.getD "") = "" ∨ parsed.netloc = "" then
    .error (.configuration "Redirect URIs must be absolute.")
  else if parsed.fragment ≠ "" then
    .error (.configuration "Redirect URIs must not contain fragments.")
  else if lowered parsed.scheme = "https" then .ok ()
  else if lowered parsed.scheme ≠ "http" ∨ allowLoopback = false then
    .error (.configuration "Redirect URIs must use HTTPS.")
  else if !services.isLoopback (parsed.hostname.getD "") || parsed.port.isNone then
    .error (.configuration ("HTTP redirect URIs are allowed only for explicit loopback " ++
      "development clients with a port."))
  else .ok ()

def validateRedirectUri (allowLoopback : Bool) (uri : String) : Except Raised Unit :=
  if uri = "" ∨ uri ≠ stripped uri then
    .error (.configuration
      "Redirect URIs must not be blank or contain surrounding whitespace.")
  else if uri.toList.contains '*' then
    .error (.configuration "Wildcard redirect URIs are not supported.")
  else if uri.toList.any fun c => decide (c = '\\') || decide (c.toNat < 0x20) then
    .error (.configuration "Redirect URI contains an invalid character.")
  else match services.urlsplit uri with
    | none => .error (.configuration "Redirect URI is not valid.")
    | some parsed => checkRedirectParts services allowLoopback parsed

def validateRedirectUriList (values : List String) (allowLoopback required : Bool) :
    Except Raised Unit :=
  if required && values.isEmpty then
    .error (.configuration "At least one exact redirect URI is required.")
  else do
    values.forM (validateRedirectUri services allowLoopback)
    if values.Nodup then .ok ()
    else .error (.configuration "Duplicate redirect URIs are not allowed.")

structure ClientForm where
  name : String
  organizationId : Option Nat
  (redirectUris postLogoutRedirectUris allowedScopes : List String)
  allowLoopbackRedirects : Bool
  (accessTokenLifetimeSeconds idTokenLifetimeSeconds authorizationCodeLifetimeSeconds : Nat)
  enabled : Bool
  deriving DecidableEq, Repr

def validateClientLifetimes (form : ClientForm) : Except Raised Unit :=
  if form.accessTokenLifetimeSeconds ≠ OIDC_TOKEN_LIFETIME_SECONDS ∨
      form.idTokenLifetimeSeconds ≠ OIDC_TOKEN_LIFETIME_SECONDS then
    .error (.configuration "OIDC clients must use the fixed five-minute token lifetime.")
  else if form.authorizationCodeLifetimeSeconds ≠ OIDC_AUTHORIZATION_CODE_LIFETIME_SECONDS then
    .error (.configuration
      "OIDC clients must use the fixed 60-second authorization-code lifetime.")
  else .ok ()

def checkOrganization (database : Database) : Option Nat → Except Raised Unit
  | none => .ok ()
  | some id =>
    if organizationEnabled (organizationById database id) then .ok ()
    else .error (.configuration "Bound OIDC client organization must exist and be enabled.")

/-- What `create_client` and `update_client` check before they write. -/
def checkClientForm (database : Database) (form : ClientForm) : Except Raised (List String) := do
  if stripped form.name = "" then .error (.configuration "OIDC client name is required.")
  else do
    checkOrganization database form.organizationId
    validateRedirectUriList services form.redirectUris form.allowLoopbackRedirects true
    validateRedirectUriList services form.postLogoutRedirectUris form.allowLoopbackRedirects false
    validateClientLifetimes form
    normalizeAllowedScopes form.allowedScopes

def clientRow (form : ClientForm) (scopes : List String) (id : Nat)
    (clientId clientSecretHash : String) : Client where
  id := id
  clientId := clientId
  clientSecretHash := clientSecretHash
  organizationId := form.organizationId
  redirectUris := form.redirectUris
  postLogoutRedirectUris := form.postLogoutRedirectUris
  allowedScopes := scopes
  accessTokenLifetimeSeconds := form.accessTokenLifetimeSeconds
  idTokenLifetimeSeconds := form.idTokenLifetimeSeconds
  authorizationCodeLifetimeSeconds := form.authorizationCodeLifetimeSeconds
  allowLoopbackRedirects := form.allowLoopbackRedirects
  enabled := form.enabled

/-- `create_client`; the row's number, the public identifier and the hash of the secret are
drawn for it. -/
def createClient (database : Database) (form : ClientForm) (id : Nat)
    (clientId clientSecretHash : String) : Except Raised Database := do
  let scopes ← checkClientForm services database form
  if database.clients.any fun client => decide (client.id = id) ||
      decide (client.clientId = clientId) then
    .error .integrity
  else do
    let saved := { database with
      clients := database.clients ++ [clientRow form scopes id clientId clientSecretHash] }
    validateAllMappingContexts services saved
    .ok saved

def rewriteClient (id : Nat) (change : Client → Client) (database : Database) : Database :=
  { database with
    clients := database.clients.map fun client => if client.id = id then change client else client }

def updateClient (database : Database) (id : Nat) (form : ClientForm) :
    Except Raised Database := do
  let _ ← getClient database id
  let scopes ← checkClientForm services database form
  -- the waiting sign-in pages of the client end here; its codes stay
  let closed := { database with
    transactions := database.transactions.filter fun row => row.oidcClientId ≠ id }
  let saved := rewriteClient id (fun client =>
    clientRow form scopes client.id client.clientId client.clientSecretHash) closed
  validateAllMappingContexts services saved
  .ok saved

end Clients

def rotateClientSecret (database : Database) (id : Nat) (clientSecretHash : String) :
    Except Raised Database := do
  let _ ← getClient database id
  .ok (rewriteClient id
    (fun client => { client with clientSecretHash := clientSecretHash }) database)

def setClientEnabled (database : Database) (id : Nat) (enabled : Bool) :
    Except Raised Database := do
  let _ ← getClient database id
  .ok (rewriteClient id (fun client => { client with enabled := enabled }) database)

/-- The rows of a client go with it: redirects, overrides, transactions and codes. -/
def deleteClient (database : Database) (id : Nat) : Except Raised Database := do
  let _ ← getClient database id
  .ok { database with
    clients := database.clients.filter fun client => client.id ≠ id
    groupMappings := database.groupMappings.filter fun row => row.oidcClientId ≠ some id
    transactions := database.transactions.filter fun row => row.oidcClientId ≠ id
    codes := database.codes.filter fun row => row.oidcClientId ≠ id }

/-! ### Accounts -/

/-- `ON DELETE CASCADE` from accounts to subjects and from subjects to codes. -/
def dropSubjects (gone : Owner → Bool) (database : Database) : Database :=
  { database with
    subjects := database.subjects.filter fun subject => !gone subject.owner
    codes := database.codes.filter fun row => !database.subjects.any fun subject =>
      decide (subject.id = row.subjectId) && gone subject.owner }

def saveLocalUser (database : Database) (user : LocalUser) : Database :=
  { database with
    localUsers := (database.localUsers.filter fun other => other.id ≠ user.id) ++ [user] }

def deleteLocalUser (database : Database) (id : Nat) : Database :=
  dropSubjects (fun owner => owner = .localUser id) { database with
    localUsers := database.localUsers.filter fun user => user.id ≠ id }

def saveLdapUser (database : Database) (user : LdapUser) : Except Raised Database :=
  match organizationById database user.organizationId, ldapUserById database user.id with
  | none, _ => .error (.notFound "LDAP organization not found")
  | some _, some saved =>
    if saved.organizationId ≠ user.organizationId then .error .integrity
    else .ok { database with
      ldapUsers := database.ldapUsers.map fun other => if other.id = user.id then user else other }
  | some _, none => .ok { database with ldapUsers := database.ldapUsers ++ [user] }

def deleteLdapUser (database : Database) (id : Nat) : Database :=
  dropSubjects (fun owner => owner = .ldapUser id) { database with
    ldapUsers := database.ldapUsers.filter fun user => user.id ≠ id
    memberships := database.memberships.filter fun row => row.member ≠ .user id }

/-! ### Organizations and groups -/

def createLdapOrganization (database : Database) (organization : Organization) :
    Except Raised Database :=
  if (organizationById database organization.id).isSome then .error .integrity
  else .ok { database with organizations := database.organizations ++ [organization] }

def updateLdapOrganization (database : Database) (id : Nat) (name : String) (enabled : Bool) :
    Except Raised Database :=
  if (organizationById database id).isNone then
    .error (.notFound "LDAP organization not found")
  else .ok { database with
    organizations := database.organizations.map fun organization =>
      if organization.id = id then ⟨id, stripped name, enabled⟩ else organization }

/-- The accounts and groups of the organization go first, then the organization itself,
which a bound client or a remaining code restricts. -/
def deleteLdapOrganization (database : Database) (id : Nat) : Except Raised Database :=
  if (organizationById database id).isNone then
    .error (.notFound "LDAP organization not found")
  else
    let users := (database.ldapUsers.filter fun user => user.organizationId = id).map LdapUser.id
    let groups := (database.ldapGroups.filter fun group => group.organizationId = id).map
      LdapGroup.id
    let emptied := dropSubjects (fun owner => users.any fun user => owner = .ldapUser user)
      { database with
        ldapUsers := database.ldapUsers.filter fun user => user.organizationId ≠ id
        ldapGroups := database.ldapGroups.filter fun group => group.organizationId ≠ id
        memberships := database.memberships.filter fun row => !(groups.contains row.groupId ||
          groups.any (fun group => row.member = .group group) ||
          users.any fun user => row.member = .user user)
        groupMappings := database.groupMappings.filter fun row =>
          MappingSource.organizationId row.source ≠ some id ∧
            !groups.any fun group => sourceKey row = .ldapGroup group }
    if (emptied.clients.any fun client => client.organizationId = some id) ||
        emptied.codes.any fun row => row.organizationId = some id then
      .error .integrity
    else .ok { emptied with
      organizations := emptied.organizations.filter fun organization => organization.id ≠ id }

/-- `LDAP_GROUP_PATTERN`. -/
def isGroupName (name : String) : Bool :=
  let plain : Char → Bool := fun c => c.isAlphanum
  match name.toList with
  | [] => false
  | first :: rest => plain first && decide (rest.length ≤ 119) &&
      rest.all fun c => plain c || [' ', '.', '_', '-'].contains c

def checkMember (database : Database) (groupId organizationId : Nat) :
    Member → Except Raised Unit
  | .user id =>
    match ldapUserById database id with
    | some user =>
      if user.organizationId = organizationId then .ok ()
      else .error (.badRequest
        "LDAP group member user must belong to the same organization.")
    | none => .error (.badRequest
        "LDAP group member user must belong to the same organization.")
  | .group id =>
    match groupById database id with
    | some group =>
      if group.organizationId ≠ organizationId then
        .error (.badRequest "Nested LDAP group must belong to the same organization.")
      else if group.id = groupId then
        .error (.badRequest "LDAP group cannot contain itself.")
      else .ok ()
    | none => .error (.badRequest "Nested LDAP group must belong to the same organization.")

/-- The state of the depth-first walk of `validate_group_cycles`. -/
structure Walk where
  (visiting visited : List Nat)
  cycles : List (List Nat)
  deriving DecidableEq, Repr

def nestedGroups (memberships : List Membership) (groupId : Nat) : List Nat :=
  ((memberships.filter fun row => row.groupId = groupId).filterMap fun row =>
    match row.member with
    | .group id => some id
    | .user _ => none).dedup

/-- `visit`. The path grows by a group that is not on it, so its length bounds the depth. -/
def visit (memberships : List Membership) : Nat → Nat → List Nat → Walk → Walk
  | 0, _, _, walk => walk
  | fuel + 1, groupId, path, walk =>
    if groupId ∈ walk.visiting then
      let cycle := if groupId ∈ path then path.drop (path.idxOf groupId) ++ [groupId]
        else [groupId, groupId]
      { walk with cycles := walk.cycles ++ [cycle] }
    else if groupId ∈ walk.visited then walk
    else
      let inner := (nestedGroups memberships groupId).foldl
        (fun walk child => visit memberships fuel child (path ++ [groupId]) walk)
        { walk with visiting := groupId :: walk.visiting }
      { inner with
        visiting := inner.visiting.filter (· ≠ groupId)
        visited := groupId :: inner.visited }

def groupNameOf (database : Database) (id : Nat) : String :=
  ((groupById database id).map LdapGroup.name).getD (toString id)

def validateGroupCycles (database : Database) (organizationId : Nat) : List String :=
  let groups := (database.ldapGroups.filter fun group =>
    group.organizationId = organizationId).map LdapGroup.id
  let walk := groups.foldl (fun walk groupId =>
    visit database.memberships (database.ldapGroups.length + 2) groupId [] walk) ⟨[], [], []⟩
  (walk.cycles.map fun cycle => "Nested LDAP groups contain a cycle: " ++
    String.intercalate " -> " (cycle.map (groupNameOf database)) ++ ".").dedup

def setLdapGroupMembers (database : Database) (group : LdapGroup) (members : List Member) :
    Except Raised Database := do
  members.forM (checkMember database group.id group.organizationId)
  let saved := { database with
    memberships := (database.memberships.filter fun row => row.groupId ≠ group.id) ++
      members.map fun member => ⟨group.id, member⟩ }
  if ¬members.Nodup then .error .integrity
  else match validateGroupCycles saved group.organizationId with
    | cycle :: _ => .error (.badRequest cycle)
    | [] => .ok saved

def nameTaken (database : Database) (group : LdapGroup) : Bool :=
  database.ldapGroups.any fun other => decide (other.id ≠ group.id) &&
    decide (other.organizationId = group.organizationId) && decide (other.name = group.name)

def createLdapGroup (database : Database) (id organizationId : Nat) (name : String)
    (enabled : Bool) (members : List Member) : Except Raised Database :=
  let group : LdapGroup := ⟨id, organizationId, stripped name, enabled⟩
  if (organizationById database organizationId).isNone then
    .error (.notFound "LDAP organization not found")
  else if !isGroupName group.name then
    .error (.badRequest "LDAP group name contains unsupported characters.")
  else if (groupById database id).isSome || nameTaken database group then .error .integrity
  else setLdapGroupMembers { database with ldapGroups := database.ldapGroups ++ [group] } group
    members

def updateLdapGroup (database : Database) (id : Nat) (name : String) (enabled : Bool)
    (members : List Member) : Except Raised Database :=
  match groupById database id with
  | none => .error (.notFound "LDAP group not found")
  | some saved =>
    let group : LdapGroup := ⟨id, saved.organizationId, stripped name, enabled⟩
    if !isGroupName group.name then
      .error (.badRequest "LDAP group name contains unsupported characters.")
    else if nameTaken database group then .error .integrity
    else setLdapGroupMembers { database with
      ldapGroups := database.ldapGroups.map fun other => if other.id = id then group else other }
        group members

def deleteLdapGroup (database : Database) (id : Nat) : Except Raised Database :=
  if (groupById database id).isNone then .error (.notFound "LDAP group not found")
  else .ok { database with
    ldapGroups := database.ldapGroups.filter fun group => group.id ≠ id
    memberships := database.memberships.filter fun row =>
      row.groupId ≠ id ∧ row.member ≠ .group id
    groupMappings := database.groupMappings.filter fun row => sourceKey row ≠ .ldapGroup id }

/-! ### Every action -/

inductive Action where
  | createClient (form : ClientForm) (id : Nat) (clientId clientSecretHash : String)
  | updateClient (id : Nat) (form : ClientForm)
  | rotateClientSecret (id : Nat) (clientSecretHash : String)
  | setClientEnabled (id : Nat) (enabled : Bool)
  | deleteClient (id : Nat)
  | createGroupMapping (id : Nat) (sourceType localRole : String)
      (ldapGroupId oidcClientId : Option Nat) (externalGroupName : String)
  | updateGroupMapping (id : Nat) (oidcClientId : Option Nat) (externalGroupName : String)
  | deleteGroupMapping (id : Nat)
  | createLdapOrganization (organization : Organization)
  | updateLdapOrganization (id : Nat) (name : String) (enabled : Bool)
  | deleteLdapOrganization (id : Nat)
  | createLdapGroup (id organizationId : Nat) (name : String) (enabled : Bool)
      (members : List Member)
  | updateLdapGroup (id : Nat) (name : String) (enabled : Bool) (members : List Member)
  | deleteLdapGroup (id : Nat)
  | saveLocalUser (user : LocalUser)
  | deleteLocalUser (id : Nat)
  | saveLdapUser (user : LdapUser)
  | deleteLdapUser (id : Nat)
  | setLdapEnabled (enabled : Bool)
  | updateProvider (payload : Provider)
  | updateProviderFromUi (form : ProviderForm)
  | setHostErrors (errors : List String)
  | generateSigningKey (rotate : Bool) (id : Nat) (publicJwk : PublicJwk)
  | deleteSigningKey (id : Nat)
  deriving DecidableEq, Repr

def administer (services : Services) (now : Nat) (database : Database) :
    Action → Except Raised Database
  | .createClient form id clientId clientSecretHash =>
    createClient services database form id clientId clientSecretHash
  | .updateClient id form => updateClient services database id form
  | .rotateClientSecret id clientSecretHash => rotateClientSecret database id clientSecretHash
  | .setClientEnabled id enabled => setClientEnabled database id enabled
  | .deleteClient id => deleteClient database id
  | .createGroupMapping id sourceType localRole ldapGroupId oidcClientId externalGroupName =>
    createGroupMapping services database id sourceType localRole ldapGroupId oidcClientId
      externalGroupName
  | .updateGroupMapping id oidcClientId externalGroupName =>
    updateGroupMapping services database id oidcClientId externalGroupName
  | .deleteGroupMapping id => deleteGroupMapping services database id
  | .createLdapOrganization organization => createLdapOrganization database organization
  | .updateLdapOrganization id name enabled => updateLdapOrganization database id name enabled
  | .deleteLdapOrganization id => deleteLdapOrganization database id
  | .createLdapGroup id organizationId name enabled members =>
    createLdapGroup database id organizationId name enabled members
  | .updateLdapGroup id name enabled members => updateLdapGroup database id name enabled members
  | .deleteLdapGroup id => deleteLdapGroup database id
  | .saveLocalUser user => .ok (saveLocalUser database user)
  | .deleteLocalUser id => .ok (deleteLocalUser database id)
  | .saveLdapUser user => saveLdapUser database user
  | .deleteLdapUser id => .ok (deleteLdapUser database id)
  | .setLdapEnabled enabled => .ok { database with ldapEnabled := enabled }
  | .updateProvider payload => updateOidcProviderSettings services database payload
  | .updateProviderFromUi form => .ok (updateOidcProviderFromUi services database form)
  | .setHostErrors errors => .ok { database with hostErrors := errors }
  | .generateSigningKey rotate id publicJwk =>
    generateSigningKey database rotate now id publicJwk
  | .deleteSigningKey id => deleteRetiredSigningKey database id now

def committed (before : Database) : Except Raised Database → Database
  | .ok database => database
  | .error _ => before

/-! ### Concrete requests -/

def sampleCode : String := "Zk3uPq8sT1vWx2Yz4Ab5Cd6Ef7Gh8Ij9Kl0Mn1Op2Qr3St4Uv5Wx6Yz7Ab8Cd9Ef"

def sampleCodeHash : String := "b1880a365ed8a08a4e09916edebe9c00e86bd06236ad18b29cf7cd7d453dc7be"

def sampleVerifier : String := "dBjftJeZ4CVP-mB92K27uhbUJU1p1r_wW1gFWFOEjXk"

def sampleChallenge : String := "E9Melhoa2OwvFrEMTJguCHaoeK1t8URWbuGJSstw-cM"

def sampleServices : Services where
  casefold text := String.ofList (text.toList.map Char.toLower)
  tokenHash text :=
    if text = sampleCode then sampleCodeHash
    else if text = sampleCodeHash then sampleCode
    else text
  challenge text := if text = sampleVerifier then sampleChallenge else text
  verifyClientSecret hash secret := decide (hash = "$argon2id$" ++ secret)
  urlsplit uri :=
    if uri = "https://app.example/callback" ∨ uri = "https://app.example/login" then
      some ⟨"https", "app.example", none, none, some "app.example", none, ""⟩
    else none
  isLoopback host := decide (host = "127.0.0.1")
  keyErrors _ := []

def sampleForm : ClientForm where
  name := "Application"
  organizationId := none
  redirectUris := ["https://app.example/callback", "https://app.example/login"]
  postLogoutRedirectUris := []
  allowedScopes := ["openid", "email", "groups"]
  allowLoopbackRedirects := false
  accessTokenLifetimeSeconds := 300
  idTokenLifetimeSeconds := 300
  authorizationCodeLifetimeSeconds := 60
  enabled := true

end Atlaso.Oidc.Administration
