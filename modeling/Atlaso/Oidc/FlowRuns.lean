import Atlaso.Oidc.AuthorizationFlow

/-!
Browsers, clients and administrators at work: the steps of the provider and their history.

The history records what no table keeps: which request began a transaction, which sign-in a
code came from, and which tokens a code was turned into. A signed cookie is one of those the
provider has set; any other is no session.
-/

namespace Atlaso.Oidc.FlowRuns

open Library Outcomes TextFields Records GroupMappings SigningKeys Administration
open AuthorizationFlow

structure BrowserCookie where
  (sid csrf : String)
  login : Option Login
  setAt : Nat
  deriving DecidableEq, Repr

/-- `OidcBrowserSession`. -/
structure BrowserSession where
  id : String
  (issuedAt lastInteractiveAt : Nat)
  expiredAt : Option Nat
  deriving DecidableEq, Repr

structure System where
  now : Nat
  database : Database
  browserSessions : List BrowserSession
  idleTimeoutMinutes : Nat
  cookies : List BrowserCookie
  /-- Token requests whose form has not arrived. -/
  requests : List TokenRequest
  deriving DecidableEq, Repr

structure Exchange where
  request : TokenRequest
  form : TokenForm
  payload : TokenPayload
  deriving DecidableEq, Repr

inductive Fact where
  | began (clientId : String) (transaction : Transaction)
  /-- A sign-in that the session `requestSid` sent in, and the session it opened. -/
  | signedIn (requestSid sid : String) (login : Login)
  | granted (grant : Grant)
  | exchanged (exchange : Exchange)
  deriving DecidableEq, Repr

/-! ### Sessions -/

/-- `_load_oidc_session`, and the sessions it leaves: one that was idle too long ends. -/
def loadOidcSession (system : System) (index : Option Nat) :
    Option BrowserCookie × List BrowserSession :=
  match index.bind fun index => system.cookies[index]? with
  | none => (none, system.browserSessions)
  | some cookie =>
    if OIDC_SESSION_MAX_AGE_SECONDS < epochSeconds system.now - epochSeconds cookie.setAt then
      (none, system.browserSessions)
    else if cookie.login.isNone then (some cookie, system.browserSessions)
    else match system.browserSessions.find? fun row => row.id = cookie.sid with
      | none => (none, system.browserSessions)
      | some row =>
        if row.expiredAt.isSome then (none, system.browserSessions)
        else if addSeconds row.lastInteractiveAt (system.idleTimeoutMinutes * 60) ≤
            system.now then
          (none, system.browserSessions.map fun other =>
            if other.id = row.id then { other with expiredAt := some system.now } else other)
        else (some cookie, system.browserSessions)

def setCookie (system : System) (cookie : BrowserCookie) : System :=
  { system with cookies := system.cookies ++ [{ cookie with setAt := system.now }] }

def sessionIdentity (database : Database) (cookie : BrowserCookie) :
    Option (Login × VerifiedIdentity) := do
  let login ← cookie.login
  let identity ← identityFromSource database login.source login.sourceId login.organizationId
  some (login, identity)

/-! ### Authorization endpoint -/

/-- The checks of `_authorize_request` before it begins. -/
def authorizeSupported (params : AuthorizeParams) : Option (Prompt × Option Nat) :=
  if !params.https || params.extended || decide (params.responseType ≠ some "code") ||
      decide (params.responseMode.getD "query" ≠ "query") ||
      decide (params.codeChallengeMethod ≠ some "S256") then none
  else do
    let maxAge ← match params.maxAge with
      | none => some none
      | some seconds => seconds.map some
    let prompt ← promptOf params.prompt
    some (prompt, maxAge)

def silentCode (services : Services) (system : System) (cookie : BrowserCookie)
    (transaction : Transaction) (draws : Draws) : Option (Grant × Database) :=
  match sessionIdentity system.database cookie with
  | none => none
  | some (login, identity) =>
    if transaction.maxAge.any fun seconds =>
        decide (seconds < epochSeconds system.now - login.authTime) then none
    else match issueAuthorizationCode services system.now system.database transaction identity
        cookie.sid cookie.sid (login.authTime * 1000000) draws with
      | .ok issued => some issued
      | .error _ => none

def authorizeGet (services : Services) (system : System) (params : AuthorizeParams)
    (cookie : Option Nat) (draws : Draws) : System × List Fact :=
  match authorizeSupported params with
  | none => (system, [])
  | some (prompt, maxAge) =>
    let (loaded, sessions) := loadOidcSession system cookie
    let active := { system with browserSessions := sessions }
    let session := loaded.getD ⟨draws.sid, draws.csrf, none, system.now⟩
    match beginAuthorization services system.now system.database params prompt maxAge
        session.sid draws.transactionId with
    | .error _ => (active, [])
    | .ok (transaction, begun) =>
      let waiting := { active with database := begun }
      let began := Fact.began params.clientId transaction
      if prompt = .none then
        match silentCode services waiting session transaction draws with
        | none => (waiting, [began])
        | some (grant, saved) =>
          (setCookie { waiting with database := saved } session, [began, .granted grant])
      else (setCookie waiting session, [began])

structure LoginForm where
  https : Bool
  (transactionId csrf source username : String)
  /-- The answer of the account store to the password. -/
  passwordAccepted : Bool
  /-- Whether there were too many failures before. -/
  throttled : Bool
  deriving DecidableEq, Repr

def enabledLoginOrganizations (database : Database) : List Organization :=
  if database.ldapEnabled then database.organizations.filter Organization.enabled else []

/-- The number behind `managed_ldap:`, when it has decimal digits only. -/
def selectedOrganization (selection : String) : Option Nat :=
  let marker := "managed_ldap:".toList
  let digits := selection.toList.drop marker.length
  if !marker.isPrefixOf selection.toList || digits.isEmpty then none
  else (digits.mapM decimalValue).map fun values =>
    values.foldl (fun number digit => number * 10 + digit) 0

def resolveLoginSource (database : Database) (client : Client) (selection : String) :
    Option (Source × Option Nat) :=
  match client.organizationId with
  | some id =>
    if selection ≠ "" ∨ !database.ldapEnabled ∨
        !organizationEnabled (organizationById database id) then none
    else some (.managedLdap, some id)
  | none =>
    if selection = "local" then some (.localSource, none)
    else match selectedOrganization selection with
      | none => none
      | some id =>
        if (enabledLoginOrganizations database).any fun organization => organization.id = id then
          some (.managedLdap, some id)
        else none

def verifyCredentials (database : Database) (source : Source) (organizationId : Option Nat)
    (username : String) (accepted : Bool) : Option VerifiedIdentity :=
  match source, organizationId with
  | .localSource, none => do
      let user ← database.localUsers.find? fun user =>
        user.username = stripped username ∧ user.authLocal = true
      if user.enabled && accepted then some (localIdentity user) else none
  | .managedLdap, some id => do
      let organization ← organizationById database id
      let user ← database.ldapUsers.find? fun user =>
        user.organizationId = id ∧ user.uid = stripped username
      if organization.enabled && database.ldapEnabled && user.enabled && accepted then
        some (ldapIdentity user organization)
      else none
  | _, _ => none

/-- `authorize_post` behind its session check. -/
def signIn (services : Services) (system : System) (session : BrowserCookie)
    (transaction : Transaction) (form : LoginForm) (draws : Draws) : System × List Fact :=
  match clientById system.database transaction.oidcClientId with
  | none => (system, [])
  | some client =>
    if !client.enabled then (system, [])
    else match resolveLoginSource system.database client form.source with
      | none => (setCookie system session, [])
      | some (source, organizationId) =>
        if form.throttled then (setCookie system session, [])
        else match verifyCredentials system.database source organizationId form.username
            form.passwordAccepted with
          | none => (setCookie system session, [])
          | some identity =>
            let login : Login := ⟨identity.source, identity.sourceRecordId,
              identity.organizationId, epochSeconds system.now⟩
            let kept := system.browserSessions.filter fun row =>
              system.now ≤ addSeconds row.issuedAt OIDC_SESSION_MAX_AGE_SECONDS
            match issueAuthorizationCode services system.now system.database transaction
                identity session.sid draws.sid system.now draws with
            | .error _ => (system, [])
            | .ok (grant, saved) =>
              if kept.any fun row => row.id = draws.sid then (system, [])
              else
                let opened := { system with
                  database := saved
                  browserSessions := kept ++ [⟨draws.sid, system.now, system.now, none⟩] }
                (setCookie opened ⟨draws.sid, draws.csrf, some login, system.now⟩,
                  [.signedIn session.sid draws.sid login, .granted grant])

def authorizePost (services : Services) (system : System) (form : LoginForm)
    (cookie : Option Nat) (draws : Draws) : System × List Fact :=
  if !form.https then (system, [])
  else match system.database.transactions.find? fun row =>
      row.transactionId = form.transactionId with
    | none => (system, [])
    | some transaction =>
      let (loaded, sessions) := loadOidcSession system cookie
      let active := { system with browserSessions := sessions }
      match loaded with
      | none => (active, [])
      | some session =>
        if session.sid ≠ transaction.browserSessionId ∨ form.csrf ≠ session.csrf then
          (active, [])
        else signIn services active session transaction form draws

/-- `_logout_response`, of which only the end of the session lasts. -/
def logout (system : System) (cookie : Option Nat) : System :=
  let (loaded, sessions) := loadOidcSession system cookie
  match loaded with
  | none => { system with browserSessions := sessions }
  | some session => { system with
      browserSessions := sessions.map fun row =>
        if row.id = session.sid ∧ row.expiredAt = none then
          { row with expiredAt := some system.now }
        else row }

/-! ### Token endpoint -/

/-- The head of a token request: `_basic_client`. -/
def openToken (services : Services) (system : System) (https : Bool)
    (credentials : Option (String × String)) : System :=
  match credentials with
  | none => system
  | some (clientId, secret) =>
    match basicClient services system.database clientId secret with
    | some request =>
      if https then { system with requests := system.requests ++ [request] } else system
    | none => system

def finishToken (services : Services) (system : System) (index : Nat) (form : TokenForm)
    (provider : Provider) : System × List Fact :=
  match system.requests[index]? with
  | none => (system, [])
  | some request =>
    let closed := { system with requests := system.requests.eraseIdx index }
    match redeemAndIssue services system.now system.database provider request form with
    | .error _ => (closed, [])
    | .ok (payload, redeemed) =>
      ({ closed with database := redeemed }, [.exchanged ⟨request, form, payload⟩])

/-! ### Runs -/

inductive Event where
  | wait (duration : Nat)
  | administer (action : Action)
  | setIdleTimeout (minutes : Nat)
  | authorizeGet (params : AuthorizeParams) (cookie : Option Nat) (draws : Draws)
  | authorizePost (form : LoginForm) (cookie : Option Nat) (draws : Draws)
  | logout (cookie : Option Nat)
  | openToken (https : Bool) (credentials : Option (String × String))
  /-- The session may hold the provider row of an earlier moment. -/
  | finishToken (index : Nat) (form : TokenForm) (provider : Provider)
  deriving DecidableEq, Repr

def step (services : Services) (system : System) : Event → System × List Fact
  | .wait duration => ({ system with now := system.now + duration }, [])
  | .administer action =>
    ({ system with
        database := committed system.database
          (administer services system.now system.database action) }, [])
  | .setIdleTimeout minutes => ({ system with idleTimeoutMinutes := minutes }, [])
  | .authorizeGet params cookie draws => authorizeGet services system params cookie draws
  | .authorizePost form cookie draws => authorizePost services system form cookie draws
  | .logout cookie => (logout system cookie, [])
  | .openToken https credentials => (openToken services system https credentials, [])
  | .finishToken index form provider => finishToken services system index form provider

def runEvents (services : Services) (state : System × List Fact) (events : List Event) :
    System × List Fact :=
  events.foldl (fun state event =>
    ((step services state.1 event).1, state.2 ++ (step services state.1 event).2)) state

def freshSystem (database : Database) : System :=
  ⟨0, database, [], 30, [], []⟩

theorem run_invariant {services : Services} {Invariant : System × List Fact → Prop}
    (keeps : ∀ state event, Invariant state →
      Invariant ((step services state.1 event).1, state.2 ++ (step services state.1 event).2))
    {state : System × List Fact} (start : Invariant state) (events : List Event) :
    Invariant (runEvents services state events) := by
  induction events generalizing state with
  | nil => exact start
  | cons event events induction => exact induction (keeps state event start)

/-! ### Concrete runs -/

def sampleProvider : Provider := { defaultProvider with enabled := true }

def sampleSetup : List Action :=
  [.createClient sampleForm 1 "application" "$argon2id$secret",
    .saveLocalUser ⟨1, "alice", "", "alice@example.test", true, true, [.viewer]⟩,
    .generateSigningKey false 1 ⟨"first", "modulus", "AQAB"⟩,
    .updateProvider sampleProvider]

def sampleParams : AuthorizeParams where
  https := true
  extended := false
  responseType := some "code"
  responseMode := none
  codeChallengeMethod := some "S256"
  clientId := "application"
  redirectUri := "https://app.example/callback"
  scope := "openid email"
  state := "state"
  nonce := "nonce"
  codeChallenge := sampleChallenge
  prompt := none
  maxAge := none
  loginHint := ""

def sampleBegin : Event :=
  .authorizeGet sampleParams none ⟨"browser", "csrf", "transaction", "unused", 1, "unused"⟩

def sampleSignIn : Event :=
  .authorizePost ⟨true, "transaction", "csrf", "local", "alice", true, false⟩ (some 0)
    ⟨"authenticated", "renewed", "unused", sampleCode, 1, "subject"⟩

def sampleTokenForm : TokenForm where
  grantType := "authorization_code"
  extended := false
  code := sampleCode
  redirectUri := "https://app.example/callback"
  codeVerifier := sampleVerifier

def sampleTokenRequest : List Event :=
  [.openToken true (some ("application", "secret")), .finishToken 0 sampleTokenForm sampleProvider]

def sampleFlow : List Event :=
  sampleSetup.map .administer ++ [sampleBegin, sampleSignIn] ++ sampleTokenRequest

def sampleClient : Client :=
  clientRow sampleForm ["openid", "email", "groups"] 1 "application" "$argon2id$secret"

def sampleExchange : Exchange where
  request := ⟨sampleClient, none⟩
  form := sampleTokenForm
  payload := ⟨"subject", "application", "nonce", 0, ["openid", "email"], 0, 300, "first",
    ⟨none, some "alice@example.test", none⟩⟩

end Atlaso.Oidc.FlowRuns
