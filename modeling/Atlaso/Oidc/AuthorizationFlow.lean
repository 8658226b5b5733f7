import Atlaso.Oidc.Administration

/-!
The authorization code flow: begin, sign-in, code, tokens.

A step is what one handler does without waiting. The token endpoint waits for the form after
it has authenticated the client, so it is two steps: the second one works with the rows that
the session read in the first.
-/

namespace Atlaso.Oidc.AuthorizationFlow

open Library.Outcomes Records GroupMappings SigningKeys Administration

def OIDC_LOGIN_TRANSACTION_LIFETIME_SECONDS : Nat := 300

def OIDC_SESSION_MAX_AGE_SECONDS : Nat := 12 * 60 * 60

/-- `OIDC_CODE_CHALLENGE_RE`. -/
def isCodeChallenge (text : String) : Bool :=
  decide (text.toList.length = 43) &&
    text.toList.all fun c => c.isAlphanum || c == '_' || c == '-'

/-- `OIDC_PKCE_RE`. -/
def isVerifier (text : String) : Bool :=
  decide (43 ≤ text.toList.length) && decide (text.toList.length ≤ 128) &&
    text.toList.all fun c => c.isAlphanum || c == '.' || c == '_' || c == '~' || c == '-'

/-! ### Begin -/

structure AuthorizeParams where
  https : Bool
  /-- Whether `request`, `request_uri`, `claims` or `registration` is among them. -/
  extended : Bool
  (responseType responseMode codeChallengeMethod : Option String)
  (clientId redirectUri scope state nonce codeChallenge : String)
  prompt : Option String
  /-- `some none` is a text without decimal digits. -/
  maxAge : Option (Option Nat)
  loginHint : String
  deriving DecidableEq, Repr

def promptOf : Option String → Option Prompt
  | none => some .login
  | some text =>
    if text = "none" then some .none else if text = "login" then some .login else none

/-- Whether the client may be used at all. -/
def clientUsable (database : Database) (client : Client) : Bool :=
  client.enabled && match client.organizationId with
    | some id => organizationEnabled (organizationById database id)
    | none => true

def checkBegin (database : Database) (params : AuthorizeParams) (client : Client)
    (maxAge : Option Nat) : Except Raised Unit :=
  let requested := scopeWords params.scope
  if !clientUsable database client then
    .error (.configuration "Unknown or disabled client.")
  else if params.redirectUri ∉ client.redirectUris then
    .error (.configuration "Invalid redirect URI.")
  else if "openid" ∉ requested ∨ !requested.all fun scope => client.allowedScopes.contains scope then
    .error (.configuration "Invalid scope.")
  else if params.state = "" ∨ 1024 < params.state.toList.length ∨ params.nonce = "" ∨
      1024 < params.nonce.toList.length ∨ !isCodeChallenge params.codeChallenge ∨
      maxAge.any fun seconds => decide (2147483647 < seconds) then
    .error (.configuration "Invalid authorization request.")
  else .ok ()

def purge (now : Nat) (database : Database) : Database :=
  { database with
    transactions := database.transactions.filter fun row => now < row.expiresAt
    codes := database.codes.filter fun row => now < row.expiresAt }

def beginAuthorization (services : Services) (now : Nat) (database : Database)
    (params : AuthorizeParams) (prompt : Prompt) (maxAge : Option Nat)
    (browserSessionId transactionId : String) : Except Raised (Transaction × Database) := do
  protocolProvider services database database.provider
  match clientByPublicId database params.clientId with
  | none => .error (.configuration "Unknown or disabled client.")
  | some client => do
      checkBegin database params client maxAge
      let lifetime := if prompt = .none then OIDC_AUTHORIZATION_CODE_LIFETIME_SECONDS
        else OIDC_LOGIN_TRANSACTION_LIFETIME_SECONDS
      let row : Transaction := {
        transactionId := transactionId
        oidcClientId := client.id
        redirectUri := params.redirectUri
        scopes := (scopeWords params.scope).reverse.dedup.reverse
        state := params.state
        nonce := params.nonce
        codeChallenge := params.codeChallenge
        browserSessionId := browserSessionId
        prompt := prompt
        maxAge := maxAge
        loginHint := String.ofList (params.loginHint.toList.take 240)
        expiresAt := addSeconds now lifetime }
      let kept := purge now database
      if kept.transactions.any fun other => other.transactionId = transactionId then
        .error .integrity
      else .ok (row, { kept with transactions := kept.transactions ++ [row] })

/-! ### Code -/

/-- `ensure_oidc_subject`; the number and the UUID of a new row are drawn for it. -/
def ensureOidcSubject (database : Database) (owner : Owner) (id : Nat) (uuid : String) :
    Except Raised (Subject × Database) :=
  match database.subjects.find? fun subject => subject.owner = owner with
  | some subject => .ok (subject, database)
  | none =>
    if database.subjects.any fun subject => decide (subject.id = id) ||
        decide (subject.subjectUuid = uuid) then
      .error .integrity
    else
      let subject : Subject := ⟨id, uuid, owner⟩
      .ok (subject, { database with subjects := database.subjects ++ [subject] })

def ownerOf (identity : VerifiedIdentity) : Owner :=
  match identity.source with
  | .localSource => .localUser identity.sourceRecordId
  | .managedLdap => .ldapUser identity.sourceRecordId

/-- The request still stands: it has not expired, comes from its browser session, and its
client still allows what it asks for. -/
def checkTransaction (now : Nat) (database : Database) (transaction : Transaction)
    (browserSessionId : String) : Except Raised Client :=
  if transaction.expiresAt ≤ now ∨ transaction.browserSessionId ≠ browserSessionId then
    .error (.configuration "Authorization request expired.")
  else match clientById database transaction.oidcClientId with
    | none => .error (.configuration "Unknown or disabled client.")
    | some client =>
      if !clientUsable database client then
        .error (.configuration "Unknown or disabled client.")
      else if transaction.redirectUri ∉ client.redirectUris ∨ "openid" ∉ transaction.scopes ∨
          !transaction.scopes.all fun scope => client.allowedScopes.contains scope then
        .error (.configuration "Authorization request expired.")
      else .ok client

def currentIdentity (database : Database) (client : Client) (identity : VerifiedIdentity) :
    Except Raised VerifiedIdentity :=
  match identityFromSource database identity.source identity.sourceRecordId
      identity.organizationId with
  | none => .error (.configuration "Identity is not permitted for this client.")
  | some current =>
    if identityPermittedForClient database client current then .ok current
    else .error (.configuration "Identity is not permitted for this client.")

/-- The values that a request draws at random. -/
structure Draws where
  (sid csrf transactionId code : String)
  subjectId : Nat
  subjectUuid : String
  deriving DecidableEq, Repr

/-- A sign-in as the session cookie carries it. -/
structure Login where
  source : Source
  sourceId : Nat
  organizationId : Option Nat
  /-- Seconds. -/
  authTime : Nat
  deriving DecidableEq, Repr

structure Grant where
  code : String
  transaction : Transaction
  /-- The browser session of the request that obtained the code. -/
  requestSid : String
  /-- The browser session of the sign-in. -/
  authenticatedSid : String
  login : Login
  subjectUuid : String
  expiresAt : Nat
  deriving DecidableEq, Repr

def codeRow (services : Services) (now : Nat) (client : Client) (transaction : Transaction)
    (identity : VerifiedIdentity) (subject : Subject) (sid : String) (authTime : Nat)
    (code : String) : AuthorizationCode where
  codeHash := services.tokenHash code
  oidcClientId := client.id
  subjectId := subject.id
  organizationId := identity.organizationId
  redirectUri := transaction.redirectUri
  scopes := transaction.scopes
  state := transaction.state
  nonce := transaction.nonce
  codeChallenge := transaction.codeChallenge
  browserSessionId := sid
  source := identity.source
  authTime := authTime
  expiresAt := addSeconds now client.authorizationCodeLifetimeSeconds
  redeemedAt := none

def issueAuthorizationCode (services : Services) (now : Nat) (database : Database)
    (transaction : Transaction) (identity : VerifiedIdentity)
    (requestSid authenticatedSid : String) (authTime : Nat) (draws : Draws) :
    Except Raised (Grant × Database) := do
  let client ← checkTransaction now database transaction requestSid
  let current ← currentIdentity database client identity
  let _ ← scopedIdentityClaims services database client current transaction.scopes
  let (subject, known) ← ensureOidcSubject database (ownerOf current) draws.subjectId
    draws.subjectUuid
  let row := codeRow services now client transaction current subject authenticatedSid authTime
    draws.code
  let grant : Grant := {
    code := draws.code
    transaction := transaction
    requestSid := requestSid
    authenticatedSid := authenticatedSid
    login := ⟨current.source, current.sourceRecordId, current.organizationId,
      epochSeconds authTime⟩
    subjectUuid := subject.subjectUuid
    expiresAt := row.expiresAt }
  if known.codes.any fun other => other.codeHash = row.codeHash then .error .integrity
  else .ok (grant, { known with
    codes := known.codes ++ [row]
    transactions := known.transactions.filter fun other =>
      other.transactionId ≠ transaction.transactionId })

/-! ### Tokens -/

/-- An authenticated token request: the rows that its session holds. -/
structure TokenRequest where
  client : Client
  organization : Option Organization
  deriving DecidableEq, Repr

structure TokenForm where
  grantType : String
  /-- Whether it has other fields than the four known ones. -/
  extended : Bool
  (code redirectUri codeVerifier : String)
  deriving DecidableEq, Repr

def basicClient (services : Services) (database : Database) (clientId secret : String) :
    Option TokenRequest :=
  match clientByPublicId database clientId with
  | none => none
  | some client =>
    if clientUsable database client &&
        services.verifyClientSecret client.clientSecretHash secret then
      some ⟨client, client.organizationId.bind (organizationById database)⟩
    else none

def sessionView (organization : Option Organization) (database : Database) : Database :=
  match organization with
  | none => database
  | some row => { database with
      organizations := (database.organizations.filter fun other => other.id ≠ row.id) ++ [row] }

def redeems (services : Services) (now : Nat) (client : Client) (form : TokenForm)
    (row : AuthorizationCode) : Bool :=
  decide (row.codeHash = services.tokenHash form.code) && decide (row.oidcClientId = client.id) &&
    decide (row.redirectUri = form.redirectUri) &&
    decide (row.codeChallenge = services.challenge form.codeVerifier) && row.redeemedAt.isNone &&
    decide (now < row.expiresAt)

def redeemAuthorizationCode (services : Services) (now : Nat) (database : Database)
    (client : Client) (form : TokenForm) : Except Raised (AuthorizationCode × Database) :=
  if !isVerifier form.codeVerifier then .error (.configuration "Invalid authorization code.")
  else match database.codes.find? (redeems services now client form) with
    | none => .error (.configuration "Invalid authorization code.")
    | some row => .ok ({ row with redeemedAt := some now }, { database with
        codes := database.codes.map fun other =>
          if redeems services now client form other then { other with redeemedAt := some now }
          else other })

structure TokenPayload where
  (sub aud nonce : String)
  authTime : Nat
  scopes : List String
  (iat exp : Nat)
  kid : String
  identityClaims : IdentityClaims
  deriving DecidableEq, Repr

def subjectRecord (source : Source) (owner : Owner) : Option Nat :=
  match source, owner with
  | .localSource, .localUser id => some id
  | .managedLdap, .ldapUser id => some id
  | _, _ => none

def codeIdentity (database : Database) (code : AuthorizationCode) :
    Option (Subject × VerifiedIdentity) := do
  let subject ← database.subjects.find? fun subject => subject.id = code.subjectId
  let recordId ← subjectRecord code.source subject.owner
  let identity ← identityFromSource database code.source recordId code.organizationId
  some (subject, identity)

/-- `issue_tokens` for the provider row, the client row and the database that the session
sees. -/
def issueTokens (services : Services) (now : Nat) (database : Database) (provider : Provider)
    (client : Client) (code : AuthorizationCode) : Except Raised TokenPayload := do
  protocolProvider services database provider
  match codeIdentity database code with
  | none => .error (.configuration "Invalid authorization code.")
  | some (subject, identity) =>
    if !identityPermittedForClient database client identity then
      .error (.configuration "Invalid authorization code.")
    else do
      let claims ← scopedIdentityClaims services database client identity code.scopes
      let kid ← signingKid database
      .ok {
        sub := subject.subjectUuid
        aud := client.clientId
        nonce := code.nonce
        authTime := epochSeconds code.authTime
        scopes := code.scopes
        iat := epochSeconds now
        exp := epochSeconds now + OIDC_TOKEN_LIFETIME_SECONDS
        kid := kid
        identityClaims := claims }

/-- The second half of `token`: redeem and issue in one transaction. -/
def redeemAndIssue (services : Services) (now : Nat) (database : Database) (provider : Provider)
    (request : TokenRequest) (form : TokenForm) : Except Raised (TokenPayload × Database) := do
  if form.grantType ≠ "authorization_code" then .error (.badRequest "unsupported_grant_type")
  else if form.extended then .error (.badRequest "invalid_request")
  else do
    let (code, redeemed) ← redeemAuthorizationCode services now database request.client form
    let payload ← issueTokens services now (sessionView request.organization redeemed) provider
      request.client code
    .ok (payload, redeemed)

end Atlaso.Oidc.AuthorizationFlow
