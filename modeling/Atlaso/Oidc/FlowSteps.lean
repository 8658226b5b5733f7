import Atlaso.Oidc.FlowRuns

/-!
What the steps of the flow do, said once for each of them.
-/

namespace Atlaso.Oidc.FlowSteps

open Library.Outcomes Records GroupMappings SigningKeys Administration AuthorizationFlow FlowRuns

section Functions

variable {services : Services} {now : Nat} {database saved : Database}

variable {id : Nat} {client : Client} {transaction : Transaction} {subject : Subject}

theorem client_by_id (found : clientById database id = some client) :
    client ∈ database.clients ∧ client.id = id :=
  ⟨List.mem_of_find?_eq_some found, by simpa using List.find?_some found⟩

theorem client_by_public_id {clientId : String}
    (found : clientByPublicId database clientId = some client) :
    client ∈ database.clients ∧ client.clientId = clientId :=
  ⟨List.mem_of_find?_eq_some found, by simpa using List.find?_some found⟩

theorem identity_from_source_keys {source : Source} {recordId : Nat} {organizationId : Option Nat}
    {identity : VerifiedIdentity}
    (found : identityFromSource database source recordId organizationId = some identity) :
    identity.source = source ∧ identity.sourceRecordId = recordId ∧
      identity.organizationId = organizationId := by
  cases source with
  | localSource =>
    simp only [identityFromSource, Option.bind_eq_bind, Option.bind_eq_some_iff] at found
    obtain ⟨user, located, found⟩ := found
    split at found
    · simp at found
    rename_i usable
    obtain rfl := Option.some.inj found
    have number : user.id = recordId := by simpa using List.find?_some located
    refine ⟨rfl, number, ?_⟩
    cases organizationId with
    | none => rfl
    | some id => simp at usable
  | managedLdap =>
    simp only [identityFromSource] at found
    split at found
    · simp only [Option.bind_eq_bind, Option.bind_eq_some_iff] at found
      obtain ⟨user, located, organization, -, found⟩ := found
      split at found
      · simp at found
      rename_i usable
      obtain rfl := Option.some.inj found
      have number : user.id = recordId := by simpa using List.find?_some located
      simp only [Bool.or_eq_true, decide_eq_true_eq, not_or, Decidable.not_not] at usable
      exact ⟨rfl, number, usable.2⟩
    · simp at found

def Allows (client : Client) (redirectUri : String) (scopes : List String) : Prop :=
  redirectUri ∈ client.redirectUris ∧ ∀ scope ∈ scopes, scope ∈ client.allowedScopes

structure Begun (now : Nat) (database : Database) (clientId sid : String)
    (transaction : Transaction) (saved : Database) : Prop where
  client : ∃ client ∈ database.clients, client.clientId = clientId ∧
    transaction.oidcClientId = client.id ∧
    Allows client transaction.redirectUri transaction.scopes
  session : transaction.browserSessionId = sid
  new : ∀ other ∈ (purge now database).transactions, other.transactionId ≠ transaction.transactionId
  written : saved = { purge now database with
    transactions := (purge now database).transactions ++ [transaction] }

variable {sid uuid : String} {owner : Owner} {form : TokenForm} {provider : Provider}

theorem begin_ok {params : AuthorizeParams} {prompt : Prompt} {maxAge : Option Nat}
    {transactionId : String} (begun : beginAuthorization services now database params prompt maxAge
      sid transactionId = .ok (transaction, saved)) :
    Begun now database params.clientId sid transaction saved ∧
      transaction.transactionId = transactionId := by
  obtain ⟨-, -, begun⟩ := bind_ok_iff.mp begun
  split at begun
  · simp at begun
  rename_i client found
  obtain ⟨inside, named⟩ := client_by_public_id found
  obtain ⟨⟨⟩, checked, begun⟩ := bind_ok_iff.mp begun
  simp only [checkBegin] at checked
  split at checked
  · simp at checked
  split at checked
  · simp at checked
  rename_i registered
  split at checked
  · simp at checked
  rename_i allowed
  dsimp only at begun
  split at begun
  · simp at begun
  rename_i new
  obtain ⟨rfl, rfl⟩ := Prod.mk.inj (Except.ok.inj begun)
  refine ⟨⟨⟨client, inside, named, rfl, by simpa using registered, ?_⟩, rfl, ?_, rfl⟩, rfl⟩
  · intro scope member
    simp only [List.mem_reverse, List.mem_dedup] at member
    simp only [not_or, Bool.not_eq_true', Bool.not_eq_false, List.all_eq_true,
      List.contains_iff_mem] at allowed
    exact allowed.2 scope member
  · intro other present same
    exact new (List.any_eq_true.mpr ⟨other, present, by simpa using same⟩)

theorem check_transaction_ok
    (checked : checkTransaction now database transaction sid = .ok client) :
    now < transaction.expiresAt ∧ transaction.browserSessionId = sid ∧
      clientById database transaction.oidcClientId = some client ∧
      Allows client transaction.redirectUri transaction.scopes := by
  simp only [checkTransaction] at checked
  split at checked
  · simp at checked
  rename_i standing
  split at checked
  · simp at checked
  rename_i found
  split at checked
  · simp at checked
  split at checked
  · simp at checked
  rename_i allowed
  obtain rfl := Except.ok.inj checked
  simp only [not_or, Nat.not_le, Decidable.not_not] at standing
  simp only [not_or, Decidable.not_not, Bool.not_eq_true', Bool.not_eq_false, List.all_eq_true,
    List.contains_iff_mem] at allowed
  exact ⟨standing.1, standing.2, found, allowed.1, allowed.2.2⟩

theorem current_identity_ok {identity current : VerifiedIdentity}
    (checked : currentIdentity database client identity = .ok current) :
    identityFromSource database identity.source identity.sourceRecordId identity.organizationId =
      some current ∧ identityPermittedForClient database client current = true := by
  simp only [currentIdentity] at checked
  split at checked
  · simp at checked
  rename_i found
  split at checked
  · rename_i permitted
    obtain rfl := Except.ok.inj checked
    exact ⟨found, permitted⟩
  · simp at checked

/-- The subject of an account is found, or a new row is written for it. -/
theorem ensure_subject_ok (done : ensureOidcSubject database owner id uuid = .ok (subject, saved)) :
    subject.owner = owner ∧
      (subject ∈ database.subjects ∧ saved = database ∨
        (∀ other ∈ database.subjects, other.id ≠ subject.id ∧ other.owner ≠ owner) ∧
          saved = { database with subjects := database.subjects ++ [subject] }) := by
  simp only [ensureOidcSubject] at done
  split at done
  · rename_i found
    obtain ⟨rfl, rfl⟩ := Prod.mk.inj (Except.ok.inj done)
    exact ⟨by simpa using List.find?_some found, .inl ⟨List.mem_of_find?_eq_some found, rfl⟩⟩
  · rename_i missing
    split at done
    · simp at done
    rename_i new
    obtain ⟨rfl, rfl⟩ := Prod.mk.inj (Except.ok.inj done)
    refine ⟨rfl, .inr ⟨fun other present => ⟨?_, ?_⟩, rfl⟩⟩
    · intro same
      exact new (List.any_eq_true.mpr ⟨other, present, by simp [same]⟩)
    · have none := List.find?_eq_none.mp missing other present
      simpa using none

structure Issued (services : Services) (now : Nat) (database : Database)
    (transaction : Transaction) (identity : VerifiedIdentity)
    (requestSid authenticatedSid : String) (authTime : Nat) (draws : Draws) (client : Client)
    (current : VerifiedIdentity) (subject : Subject) (known : Database) (grant : Grant)
    (saved : Database) : Prop where
  standing : now < transaction.expiresAt
  session : transaction.browserSessionId = requestSid
  found : clientById database transaction.oidcClientId = some client
  allows : Allows client transaction.redirectUri transaction.scopes
  permitted : currentIdentity database client identity = .ok current
  ensured : ensureOidcSubject database (ownerOf current) draws.subjectId draws.subjectUuid =
    .ok (subject, known)
  new : ∀ other ∈ database.codes, other.codeHash ≠ services.tokenHash draws.code
  recorded : grant = {
    code := draws.code
    transaction := transaction
    requestSid := requestSid
    authenticatedSid := authenticatedSid
    login := ⟨current.source, current.sourceRecordId, current.organizationId,
      epochSeconds authTime⟩
    subjectUuid := subject.subjectUuid
    expiresAt := addSeconds now client.authorizationCodeLifetimeSeconds }
  written : saved = { known with
    codes := known.codes ++ [codeRow services now client transaction current subject
      authenticatedSid authTime draws.code]
    transactions := known.transactions.filter fun other =>
      other.transactionId ≠ transaction.transactionId }

theorem known_codes (done : ensureOidcSubject database owner id uuid = .ok (subject, saved)) :
    saved = { database with subjects := saved.subjects } := by
  obtain ⟨-, ⟨-, rfl⟩ | ⟨-, rfl⟩⟩ := ensure_subject_ok done
  · rfl
  · rfl

theorem issue_ok {identity : VerifiedIdentity} {requestSid authenticatedSid : String}
    {authTime : Nat} {draws : Draws} {grant : Grant}
    (issued : issueAuthorizationCode services now database transaction identity requestSid
      authenticatedSid authTime draws = .ok (grant, saved)) :
    ∃ client current subject known, Issued services now database transaction identity requestSid
      authenticatedSid authTime draws client current subject known grant saved := by
  obtain ⟨client, checked, issued⟩ := bind_ok_iff.mp issued
  obtain ⟨current, permitted, issued⟩ := bind_ok_iff.mp issued
  obtain ⟨-, -, issued⟩ := bind_ok_iff.mp issued
  obtain ⟨⟨subject, known⟩, ensured, issued⟩ := bind_ok_iff.mp issued
  obtain ⟨standing, session, found, allows⟩ := check_transaction_ok checked
  dsimp only at issued
  split at issued
  · simp at issued
  rename_i new
  obtain ⟨rfl, rfl⟩ := Prod.mk.inj (Except.ok.inj issued)
  refine ⟨client, current, subject, known, standing, session, found, allows, permitted, ensured, ?_,
    rfl, rfl⟩
  intro other present same
  refine new (List.any_eq_true.mpr ⟨other, ?_, decide_eq_true same⟩)
  rw [known_codes ensured]
  exact present

theorem redeem_ok {code : AuthorizationCode}
    (redeemed : redeemAuthorizationCode services now database client form = .ok (code, saved)) :
    ∃ row ∈ database.codes, redeems services now client form row = true ∧
      code = { row with redeemedAt := some now } ∧
      saved = { database with
        codes := database.codes.map fun other =>
          if redeems services now client form other then { other with redeemedAt := some now }
          else other } := by
  simp only [redeemAuthorizationCode] at redeemed
  split at redeemed
  · simp at redeemed
  split at redeemed
  · simp at redeemed
  rename_i row found
  obtain ⟨rfl, rfl⟩ := Prod.mk.inj (Except.ok.inj redeemed)
  exact ⟨row, List.mem_of_find?_eq_some found, List.find?_some found, rfl, rfl⟩

theorem code_identity_ok {code : AuthorizationCode} {identity : VerifiedIdentity}
    (found : codeIdentity database code = some (subject, identity)) :
    subject ∈ database.subjects ∧ subject.id = code.subjectId ∧
      ∃ recordId, subjectRecord code.source subject.owner = some recordId ∧
        identityFromSource database code.source recordId code.organizationId = some identity := by
  simp only [codeIdentity, Option.bind_eq_bind, Option.bind_eq_some_iff, Option.some.injEq,
    Prod.mk.injEq] at found
  obtain ⟨owned, located, recordId, recorded, current, identified, rfl, rfl⟩ := found
  exact ⟨List.mem_of_find?_eq_some located, by simpa using List.find?_some located, recordId,
    recorded, identified⟩

theorem issue_tokens_ok {code : AuthorizationCode} {payload : TokenPayload}
    (issued : issueTokens services now database provider client code = .ok payload) :
    ∃ subject identity, codeIdentity database code = some (subject, identity) ∧
      identityPermittedForClient database client identity = true ∧
      signingKid database = .ok payload.kid ∧ payload.sub = subject.subjectUuid ∧
      payload.aud = client.clientId ∧ payload.nonce = code.nonce ∧
      payload.authTime = epochSeconds code.authTime ∧ payload.scopes = code.scopes ∧
      payload.exp = epochSeconds now + OIDC_TOKEN_LIFETIME_SECONDS := by
  obtain ⟨-, -, issued⟩ := bind_ok_iff.mp issued
  split at issued
  · simp at issued
  rename_i subject identity found
  split at issued
  · simp at issued
  rename_i permitted
  obtain ⟨claims, -, issued⟩ := bind_ok_iff.mp issued
  obtain ⟨kid, signed, issued⟩ := bind_ok_iff.mp issued
  obtain rfl := Except.ok.inj issued
  exact ⟨subject, identity, found, by simpa using permitted, signed, rfl, rfl, rfl, rfl, rfl, rfl⟩

theorem redeem_and_issue_ok {request : TokenRequest} {payload : TokenPayload}
    (done : redeemAndIssue services now database provider request form = .ok (payload, saved)) :
    ∃ code, redeemAuthorizationCode services now database request.client form =
        .ok (code, saved) ∧
      issueTokens services now (sessionView request.organization saved) provider request.client
        code = .ok payload := by
  simp only [redeemAndIssue] at done
  split at done
  · simp at done
  split at done
  · simp at done
  obtain ⟨⟨code, redeemed⟩, taken, done⟩ := bind_ok_iff.mp done
  obtain ⟨issued, signed, done⟩ := bind_ok_iff.mp done
  obtain ⟨rfl, rfl⟩ := Prod.mk.inj (Except.ok.inj done)
  exact ⟨code, taken, signed⟩

end Functions

/-! ### Handlers -/

def Carries (cookies : List BrowserCookie) (cookie : BrowserCookie) : Prop :=
  cookie.login = none ∨ ∃ old ∈ cookies, old.sid = cookie.sid ∧ old.login = cookie.login

/-- Time goes on, no token request opens, and no sign-in appears. -/
structure Frame (system after : System) : Prop where
  later : system.now ≤ after.now
  requests : ∀ request ∈ after.requests, request ∈ system.requests
  cookies : ∀ cookie ∈ after.cookies, Carries system.cookies cookie

/-- What a step other than an administrator's can do. -/
inductive Moves (services : Services) (system : System) : Option Draws → System → List Fact → Prop
  | quiet {draws : Option Draws} {after : System} (frame : Frame system after)
      (database : after.database = system.database) : Moves services system draws after []
  | opened {draws : Option Draws} {clientId secret : String} {request : TokenRequest}
      (authenticated : basicClient services system.database clientId secret = some request) :
      Moves services system draws { system with requests := system.requests ++ [request] } []
  | began {draws : Draws} {clientId sid : String} {transaction : Transaction} {after : System}
      (frame : Frame system after) (moment : after.now = system.now)
      (begun : Begun system.now system.database clientId sid transaction after.database)
      (drawn : transaction.transactionId = draws.transactionId) :
      Moves services system (some draws) after [.began clientId transaction]
  | silent {draws : Draws} {clientId : String} {transaction : Transaction} {begun : Database}
      {session : BrowserCookie} {login : Login} {identity current : VerifiedIdentity}
      {client : Client} {subject : Subject} {known : Database} {grant : Grant} {after : System}
      (frame : Frame system after) (moment : after.now = system.now)
      (started : Begun system.now system.database clientId session.sid transaction begun)
      (drawn : transaction.transactionId = draws.transactionId)
      (carried : Carries system.cookies session) (signed : session.login = some login)
      (identified : identityFromSource begun login.source login.sourceId login.organizationId =
        some identity)
      (issued : Issued services system.now begun transaction identity session.sid session.sid
        (login.authTime * 1000000) draws client current subject known grant after.database) :
      Moves services system (some draws) after [.began clientId transaction, .granted grant]
  | signedIn {draws : Draws} {transaction : Transaction} {session opened : BrowserCookie}
      {identity current : VerifiedIdentity} {client : Client} {subject : Subject}
      {known : Database} {grant : Grant} {login : Login} {after : System}
      (waiting : transaction ∈ system.database.transactions)
      (requests : after.requests = system.requests) (moment : after.now = system.now)
      (cookies : after.cookies = system.cookies ++ [opened]) (sid : opened.sid = draws.sid)
      (signed : opened.login = some login)
      (verified : login = ⟨identity.source, identity.sourceRecordId, identity.organizationId,
        epochSeconds system.now⟩)
      (issued : Issued services system.now system.database transaction identity session.sid
        draws.sid system.now draws client current subject known grant after.database) :
      Moves services system (some draws) after
        [.signedIn session.sid draws.sid login, .granted grant]
  | exchanged {draws : Option Draws} {provider : Provider} {request : TokenRequest}
      {form : TokenForm} {payload : TokenPayload} {after : System}
      (frame : Frame system after) (moment : after.now = system.now)
      (held : request ∈ system.requests)
      (done : redeemAndIssue services system.now system.database provider request form =
        .ok (payload, after.database)) :
      Moves services system draws after [.exchanged ⟨request, form, payload⟩]


section Handlers

variable {services : Services} {system after : System} {facts : List Fact}

variable {cookie : BrowserCookie} {draws : Option Draws}

theorem carries_member {cookies : List BrowserCookie} (inside : cookie ∈ cookies) :
    Carries cookies cookie :=
  .inr ⟨cookie, inside, rfl, rfl⟩

theorem frame_same (now : after.now = system.now) (requests : after.requests = system.requests)
    (cookies : after.cookies = system.cookies) : Frame system after where
  later := now.ge
  requests _ inside := requests ▸ inside
  cookies _ inside := carries_member (cookies ▸ inside)

theorem frame_set_cookie (frame : Frame system after) (moment : after.now = system.now)
    (carried : Carries system.cookies cookie) :
    Frame system (setCookie after cookie) where
  later := moment.ge
  requests := frame.requests
  cookies := by
    intro other inside
    rcases List.mem_append.mp inside with old | new
    · exact frame.cookies other old
    · obtain rfl := List.mem_singleton.mp new
      exact carried

theorem load_member {index : Option Nat} {session : BrowserCookie}
    (loaded : (loadOidcSession system index).1 = some session) : session ∈ system.cookies := by
  simp only [loadOidcSession] at loaded
  split at loaded
  · simp at loaded
  rename_i cookie found
  have inside : cookie ∈ system.cookies := by
    obtain ⟨place, -, located⟩ := Option.bind_eq_some_iff.mp found
    exact List.mem_of_getElem? located
  split at loaded
  · simp at loaded
  split at loaded
  · exact Option.some.inj loaded ▸ inside
  split at loaded
  · simp at loaded
  split at loaded
  · simp at loaded
  split at loaded
  · simp at loaded
  · exact Option.some.inj loaded ▸ inside

theorem silent_code_ok {transaction : Transaction} {draws : Draws} {grant : Grant}
    {saved : Database}
    (issued : silentCode services system cookie transaction draws = some (grant, saved)) :
    ∃ login identity, cookie.login = some login ∧
      identityFromSource system.database login.source login.sourceId login.organizationId =
        some identity ∧
      issueAuthorizationCode services system.now system.database transaction identity cookie.sid
        cookie.sid (login.authTime * 1000000) draws = .ok (grant, saved) := by
  simp only [silentCode] at issued
  split at issued
  · simp at issued
  rename_i login identity found
  split at issued
  · simp at issued
  split at issued
  · rename_i result done
    obtain rfl := Option.some.inj issued
    simp only [sessionIdentity, Option.bind_eq_bind, Option.bind_eq_some_iff, Option.some.injEq,
      Prod.mk.injEq] at found
    obtain ⟨_, signed, _, identified, rfl, rfl⟩ := found
    exact ⟨_, _, signed, identified, done⟩
  · simp at issued

theorem authorize_get_moves {params : AuthorizeParams} {cookie : Option Nat} {draws : Draws} :
    Moves services system (some draws) (authorizeGet services system params cookie draws).1
      (authorizeGet services system params cookie draws).2 := by
  simp only [authorizeGet]
  split
  · exact .quiet (frame_same rfl rfl rfl) rfl
  rename_i prompt maxAge _
  split
  · exact .quiet (frame_same rfl rfl rfl) rfl
  rename_i transaction begun started
  have carried : Carries system.cookies
      ((loadOidcSession system cookie).1.getD ⟨draws.sid, draws.csrf, none, system.now⟩) := by
    cases loaded : (loadOidcSession system cookie).1 with
    | none => exact .inl rfl
    | some session => exact carries_member (load_member loaded)
  obtain ⟨row, drawn⟩ := begin_ok started
  split
  · split
    · exact .began (frame_same rfl rfl rfl) rfl row drawn
    · rename_i grant saved issued
      obtain ⟨login, identity, signed, identified, issued⟩ := silent_code_ok issued
      obtain ⟨client, current, subject, known, issued⟩ := issue_ok issued
      exact .silent (frame_set_cookie (frame_same rfl rfl rfl) rfl carried) rfl row drawn carried
        signed identified issued
  · exact .began (frame_set_cookie (frame_same rfl rfl rfl) rfl carried) rfl row drawn

theorem sign_in_moves {session : BrowserCookie} {transaction : Transaction} {form : LoginForm}
    {draws : Draws} {active : System} (frame : Frame system active)
    (moment : active.now = system.now) (requests : active.requests = system.requests)
    (cookies : active.cookies = system.cookies) (database : active.database = system.database)
    (present : session ∈ system.cookies) (waiting : transaction ∈ system.database.transactions) :
    Moves services system (some draws) (signIn services active session transaction form draws).1
      (signIn services active session transaction form draws).2 := by
  have shown : Moves services system (some draws) (setCookie active session) [] :=
    .quiet (frame_set_cookie frame moment (carries_member present)) database
  have refused : Moves services system (some draws) active [] := .quiet frame database
  simp only [signIn]
  split
  · exact refused
  split
  · exact refused
  split
  · exact shown
  split
  · exact shown
  split
  · exact shown
  rename_i identity _
  split
  · exact refused
  rename_i grant saved issued
  split
  · exact refused
  rw [moment, database] at issued
  obtain ⟨client, current, subject, known, issued⟩ := issue_ok issued
  exact .signedIn waiting requests moment (congrArg (· ++ _) cookies) rfl rfl
    (by rw [moment]) issued

theorem authorize_post_moves {form : LoginForm} {cookie : Option Nat} {draws : Draws} :
    Moves services system (some draws) (authorizePost services system form cookie draws).1
      (authorizePost services system form cookie draws).2 := by
  simp only [authorizePost]
  split
  · exact .quiet (frame_same rfl rfl rfl) rfl
  split
  · exact .quiet (frame_same rfl rfl rfl) rfl
  rename_i transaction found
  split
  · exact .quiet (frame_same rfl rfl rfl) rfl
  rename_i session loaded
  split
  · exact .quiet (frame_same rfl rfl rfl) rfl
  · exact sign_in_moves (frame_same rfl rfl rfl) rfl rfl rfl rfl (load_member loaded)
      (List.mem_of_find?_eq_some found)

theorem logout_moves {cookie : Option Nat} :
    Moves services system draws (logout system cookie) [] := by
  simp only [logout]
  split
  · exact .quiet (frame_same rfl rfl rfl) rfl
  · exact .quiet (frame_same rfl rfl rfl) rfl

theorem open_token_moves {https : Bool} {credentials : Option (String × String)} :
    Moves services system draws (openToken services system https credentials) [] := by
  simp only [openToken]
  split
  · exact .quiet (frame_same rfl rfl rfl) rfl
  split
  · rename_i request authenticated
    split
    · exact .opened authenticated
    · exact .quiet (frame_same rfl rfl rfl) rfl
  · exact .quiet (frame_same rfl rfl rfl) rfl

theorem finish_token_moves {index : Nat} {form : TokenForm} {provider : Provider} :
    Moves services system draws (finishToken services system index form provider).1
      (finishToken services system index form provider).2 := by
  simp only [finishToken]
  split
  · exact .quiet (frame_same rfl rfl rfl) rfl
  rename_i request held
  have closed : ∀ database, Frame system
      { system with requests := system.requests.eraseIdx index, database := database } := by
    intro database
    exact ⟨le_refl _, fun _ inside => List.mem_of_mem_eraseIdx inside,
      fun _ inside => carries_member inside⟩
  split
  · exact .quiet (closed _) rfl
  · rename_i payload redeemed done
    exact .exchanged (closed _) rfl (List.mem_of_getElem? held) done

/-- The values that a request drew. -/
def drawsOf : Event → Option Draws
  | .authorizeGet _ _ draws => some draws
  | .authorizePost _ _ draws => some draws
  | _ => none

/-- Whether a step is an administrator's. -/
def Administrative : Event → Prop
  | .administer _ => True
  | _ => False

theorem step_moves {event : Event} (protocol : ¬Administrative event) :
    Moves services system (drawsOf event) (step services system event).1
      (step services system event).2 := by
  cases event with
  | wait duration =>
    exact .quiet ⟨Nat.le_add_right _ _, fun _ inside => inside,
      fun _ inside => carries_member inside⟩ rfl
  | administer action => exact absurd trivial protocol
  | setIdleTimeout minutes => exact .quiet (frame_same rfl rfl rfl) rfl
  | authorizeGet params cookie draws => exact authorize_get_moves
  | authorizePost form cookie draws => exact authorize_post_moves
  | logout cookie => exact logout_moves
  | openToken https credentials => exact open_token_moves
  | finishToken index form provider => exact finish_token_moves

section

variable (moves : Moves services system draws after facts)
include moves

/-- The tables that only administrators write. -/
theorem moves_configuration :
    after.database = { system.database with
      subjects := after.database.subjects
      transactions := after.database.transactions
      codes := after.database.codes } := by
  cases moves with
  | quiet frame database => rw [database]
  | opened authenticated => rfl
  | began frame moment begun drawn => rw [begun.written]; rfl
  | silent frame moment started drawn carried signed identified issued =>
    rw [issued.written, known_codes issued.ensured, started.written]
    rfl
  | signedIn waiting requests moment cookies sid signed verified issued =>
    rw [issued.written, known_codes issued.ensured]
  | exchanged frame moment held done =>
    obtain ⟨code, redeemed, -⟩ := redeem_and_issue_ok done
    obtain ⟨row, -, -, -, written⟩ := redeem_ok redeemed
    rw [written]

theorem moves_later :
    system.now ≤ after.now := by
  cases moves with
  | quiet frame database => exact frame.later
  | opened authenticated => exact le_refl _
  | began frame moment begun drawn => exact frame.later
  | silent frame moment started drawn carried signed identified issued => exact frame.later
  | signedIn waiting requests moment cookies sid signed verified issued => exact moment.ge
  | exchanged frame moment held done => exact frame.later

/-- Tokens come from the token endpoint only. -/
theorem moves_exchanged {exchange : Exchange} (fact : .exchanged exchange ∈ facts) :
    facts = [.exchanged exchange] ∧ Frame system after ∧ after.now = system.now ∧
      exchange.request ∈ system.requests ∧
      ∃ provider, redeemAndIssue services system.now system.database provider exchange.request
        exchange.form = .ok (exchange.payload, after.database) := by
  cases moves with
  | quiet frame database => simp at fact
  | opened authenticated => simp at fact
  | began frame moment begun drawn => simp at fact
  | silent frame moment started drawn carried signed identified issued => simp at fact
  | signedIn waiting requests moment cookies sid signed verified issued => simp at fact
  | exchanged frame moment held done =>
    obtain rfl := Fact.exchanged.inj (List.mem_singleton.mp fact)
    exact ⟨rfl, frame, moment, held, _, done⟩

end

end Handlers

end Atlaso.Oidc.FlowSteps
