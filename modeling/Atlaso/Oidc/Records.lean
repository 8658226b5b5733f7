import Atlaso.Library.TextFields

/-!
The tables behind the OpenID Connect provider: clients and their policy, identity sources,
group mappings, signing keys, and the short-lived rows of the authorization code flow.

Times are microseconds. What reads URLs, hashes and certificates is a parameter.
-/

namespace Atlaso.Oidc.Records

open Library.TextFields

inductive Raised where
  | configuration (message : String)
  | conflict (message : String)
  | notFound (message : String)
  | badRequest (message : String)
  /-- `IntegrityError` of the database. -/
  | integrity
  deriving DecidableEq, Repr

/-- `int(moment.timestamp())`. -/
def epochSeconds (moment : Nat) : Nat := moment / 1000000

/-- `moment + timedelta(seconds=seconds)`. -/
def addSeconds (moment seconds : Nat) : Nat := moment + seconds * 1000000

inductive Role where
  | admin | networkAdmin | serviceAdmin | certificateOperator | viewer
  deriving DecidableEq, Repr

def Role.value : Role → String
  | .admin => "admin"
  | .networkAdmin => "network-admin"
  | .serviceAdmin => "service-admin"
  | .certificateOperator => "certificate-operator"
  | .viewer => "viewer"

def Role.all : List Role :=
  [.admin, .networkAdmin, .serviceAdmin, .certificateOperator, .viewer]

inductive Source where
  | localSource | managedLdap
  deriving DecidableEq, Repr

structure LocalUser where
  id : Nat
  (username externalDisplayName externalEmail : String)
  /-- Whether `auth_provider` is `local`. -/
  (authLocal enabled : Bool)
  roles : List Role
  deriving DecidableEq, Repr

structure Organization where
  id : Nat
  name : String
  enabled : Bool
  deriving DecidableEq, Repr

structure LdapUser where
  (id organizationId : Nat)
  (uid givenName surname displayName email : String)
  enabled : Bool
  deriving DecidableEq, Repr

structure LdapGroup where
  (id organizationId : Nat)
  name : String
  enabled : Bool
  deriving DecidableEq, Repr

inductive Member where
  | user (id : Nat)
  | group (id : Nat)
  deriving DecidableEq, Repr

/-- `LdapGroupMembership`. -/
structure Membership where
  groupId : Nat
  member : Member
  deriving DecidableEq, Repr

/-- `OidcClient` with its redirect rows of either kind. -/
structure Client where
  id : Nat
  (clientId clientSecretHash : String)
  organizationId : Option Nat
  (redirectUris postLogoutRedirectUris allowedScopes : List String)
  (accessTokenLifetimeSeconds idTokenLifetimeSeconds authorizationCodeLifetimeSeconds : Nat)
  (allowLoopbackRedirects enabled : Bool)
  deriving DecidableEq, Repr

/-- The two shapes the check constraint of `oidc_group_mappings` admits. -/
inductive MappingSource where
  | localRole (role : Role)
  | ldapGroup (groupId organizationId : Nat)
  deriving DecidableEq, Repr

structure GroupMapping where
  id : Nat
  source : MappingSource
  oidcClientId : Option Nat
  externalGroupName : String
  deriving DecidableEq, Repr

/-- The one source of an `OidcSubject`. -/
inductive Owner where
  | localUser (id : Nat)
  | ldapUser (id : Nat)
  deriving DecidableEq, Repr

structure Subject where
  id : Nat
  subjectUuid : String
  owner : Owner
  deriving DecidableEq, Repr

inductive Prompt where
  | none | login
  deriving DecidableEq, Repr

/-- `OidcAuthorizationTransaction`. -/
structure Transaction where
  transactionId : String
  oidcClientId : Nat
  redirectUri : String
  scopes : List String
  (state nonce codeChallenge browserSessionId : String)
  prompt : Prompt
  maxAge : Option Nat
  loginHint : String
  expiresAt : Nat
  deriving DecidableEq, Repr

/-- `OidcAuthorizationCode`. -/
structure AuthorizationCode where
  codeHash : String
  (oidcClientId subjectId : Nat)
  organizationId : Option Nat
  redirectUri : String
  scopes : List String
  (state nonce codeChallenge browserSessionId : String)
  source : Source
  (authTime expiresAt : Nat)
  redeemedAt : Option Nat
  deriving DecidableEq, Repr

inductive KeyStatus where
  | active | retired
  deriving DecidableEq, Repr

/-- The public form of a signing key. -/
structure PublicJwk where
  (kid modulus exponent : String)
  deriving DecidableEq, Repr

structure SigningKey where
  id : Nat
  kid : String
  publicJwk : PublicJwk
  status : KeyStatus
  activeSlot : Option Nat
  createdAt : Nat
  (retiredAt publishUntil : Option Nat)
  deriving DecidableEq, Repr

structure Provider where
  enabled : Bool
  (accessTokenLifetimeSeconds idTokenLifetimeSeconds authorizationCodeLifetimeSeconds : Nat)
  (clockSkewSeconds signingKeyOverlapSeconds : Nat)
  deriving DecidableEq, Repr

def defaultProvider : Provider := ⟨false, 300, 300, 60, 120, 3600⟩

structure Database where
  provider : Provider
  /-- What `provider_validation_errors` finds in the issuer URL, the DNS record, the
  listeners and the certificate. -/
  hostErrors : List String
  signingKeys : List SigningKey
  /-- `LdapSettings.enabled`. -/
  ldapEnabled : Bool
  localUsers : List LocalUser
  organizations : List Organization
  ldapUsers : List LdapUser
  ldapGroups : List LdapGroup
  memberships : List Membership
  clients : List Client
  groupMappings : List GroupMapping
  subjects : List Subject
  transactions : List Transaction
  codes : List AuthorizationCode
  deriving DecidableEq, Repr

def emptyDatabase : Database :=
  ⟨defaultProvider, [], [], false, [], [], [], [], [], [], [], [], [], []⟩

/-- The parts of a URL that `urlsplit` and its port reader return. -/
structure SplitUrl where
  (scheme netloc : String)
  (username password hostname : Option String)
  port : Option Nat
  fragment : String
  deriving DecidableEq, Repr

/-- Library functions: Unicode case folding, SHA-256 in its two forms, the password hash,
the URL reader and the key import. -/
structure Services where
  casefold : String → String
  /-- `sha256(value).hexdigest()`. -/
  tokenHash : String → String
  /-- `_base64url_sha256`. -/
  challenge : String → String
  verifyClientSecret : String → String → Bool
  /-- `none` is the `ValueError` of the reader or of its port. -/
  urlsplit : String → Option SplitUrl
  isLoopback : String → Bool
  /-- `signing_key_cryptographic_validation_errors`. -/
  keyErrors : SigningKey → List String

def clientById (database : Database) (id : Nat) : Option Client :=
  database.clients.find? fun client => client.id = id

def clientByPublicId (database : Database) (clientId : String) : Option Client :=
  database.clients.find? fun client => client.clientId = clientId

def organizationById (database : Database) (id : Nat) : Option Organization :=
  database.organizations.find? fun organization => organization.id = id

def groupById (database : Database) (id : Nat) : Option LdapGroup :=
  database.ldapGroups.find? fun group => group.id = id

def ldapUserById (database : Database) (id : Nat) : Option LdapUser :=
  database.ldapUsers.find? fun user => user.id = id

def localUserById (database : Database) (id : Nat) : Option LocalUser :=
  database.localUsers.find? fun user => user.id = id

/-- `text.strip()`. -/
def stripped (text : String) : String := String.ofList (strip text.toList)

/-- `text.split()`. -/
def scopeWords (text : String) : List String := (words text.toList).map String.ofList

end Atlaso.Oidc.Records
