import Atlaso.Oidc.FlowSteps
import Mathlib.Data.List.Pairwise

/-!
Codes, the sign-ins they come from and the tokens they turn into.

The history of a run ties five rows together that are written, purged and rolled back
independently. Each fact of it is unique under the name that was drawn for it, every row of
the flow tables points into it, and tokens are issued along these links only.
-/

namespace Atlaso.Oidc.CodeBinding

open Library.Outcomes Records GroupMappings SigningKeys Administration AuthorizationFlow FlowRuns
open FlowSteps

/-! ### Histories -/

def grantedCode : Fact → Option String
  | .granted grant => some grant.code
  | _ => none

def begunId : Fact → Option String
  | .began _ transaction => some transaction.transactionId
  | _ => none

def signedSid : Fact → Option String
  | .signedIn _ sid _ => some sid
  | _ => none

def exchangedCode : Fact → Option String
  | .exchanged exchange => some exchange.form.code
  | _ => none

/-- The account of a sign-in. -/
def loginOwner (login : Login) : Owner :=
  match login.source with
  | .localSource => .localUser login.sourceId
  | .managedLdap => .ldapUser login.sourceId

/-- The origin of a grant: the transaction its browser session began, and a sign-in that this
session sent in or had been opened by. -/
structure Traced (subjects : List Subject) (facts : List Fact) (grant : Grant) : Prop where
  began : ∃ clientId, .began clientId grant.transaction ∈ facts
  session : grant.transaction.browserSessionId = grant.requestSid
  signed : ∃ requestSid, .signedIn requestSid grant.authenticatedSid grant.login ∈ facts ∧
    (requestSid = grant.requestSid ∨ grant.authenticatedSid = grant.requestSid)
  subject : ∃ subject ∈ subjects, subject.subjectUuid = grant.subjectUuid ∧
    subject.owner = loginOwner grant.login

structure Answers (services : Services) (facts : List Fact) (exchange : Exchange)
    (grant : Grant) : Prop where
  granted : .granted grant ∈ facts
  began : .began exchange.payload.aud grant.transaction ∈ facts
  code : exchange.form.code = grant.code
  redirectUri : exchange.form.redirectUri = grant.transaction.redirectUri
  challenge : services.challenge exchange.form.codeVerifier = grant.transaction.codeChallenge
  sub : exchange.payload.sub = grant.subjectUuid
  nonce : exchange.payload.nonce = grant.transaction.nonce
  authTime : exchange.payload.authTime = grant.login.authTime
  scopes : exchange.payload.scopes = grant.transaction.scopes

structure RowOf (services : Services) (subjects : List Subject) (row : AuthorizationCode)
    (grant : Grant) : Prop where
  codeHash : row.codeHash = services.tokenHash grant.code
  client : row.oidcClientId = grant.transaction.oidcClientId
  redirectUri : row.redirectUri = grant.transaction.redirectUri
  scopes : row.scopes = grant.transaction.scopes
  nonce : row.nonce = grant.transaction.nonce
  challenge : row.codeChallenge = grant.transaction.codeChallenge
  authTime : epochSeconds row.authTime = grant.login.authTime
  expiresAt : row.expiresAt = grant.expiresAt
  subject : ∃ subject ∈ subjects, subject.id = row.subjectId ∧
    subject.subjectUuid = grant.subjectUuid

structure Linked (services : Services) (system : System) (facts : List Fact) : Prop where
  clientNumbers : (system.database.clients.map Client.id).Nodup
  subjectNumbers : (system.database.subjects.map Subject.id).Nodup
  hashes : (system.database.codes.map AuthorizationCode.codeHash).Nodup
  grantsOnce : (facts.filterMap grantedCode).Nodup
  begunOnce : (facts.filterMap begunId).Nodup
  signedOnce : (facts.filterMap signedSid).Nodup
  exchangedOnce : (facts.filterMap exchangedCode).Nodup
  requests : ∀ request ∈ system.requests, request.client ∈ system.database.clients
  cookies : ∀ cookie ∈ system.cookies, ∀ login, cookie.login = some login →
    ∃ requestSid, .signedIn requestSid cookie.sid login ∈ facts
  waiting : ∀ row ∈ system.database.transactions, ∃ clientId, .began clientId row ∈ facts
  clients : ∀ clientId row, .began clientId row ∈ facts → ∃ client ∈ system.database.clients,
    client.clientId = clientId ∧ client.id = row.oidcClientId
  grants : ∀ grant, .granted grant ∈ facts → Traced system.database.subjects facts grant
  rows : ∀ row ∈ system.database.codes, ∃ grant, .granted grant ∈ facts ∧
    RowOf services system.database.subjects row grant ∧
    (grant.code ∈ facts.filterMap exchangedCode → row.redeemedAt ≠ none)
  alive : ∀ grant, .granted grant ∈ facts → grant.code ∉ facts.filterMap exchangedCode →
    system.now < grant.expiresAt → ∃ row ∈ system.database.codes,
      row.codeHash = services.tokenHash grant.code ∧ row.redeemedAt = none
  exchanges : ∀ exchange, .exchanged exchange ∈ facts →
    ∃ grant, Answers services facts exchange grant

section Facts

variable {facts : List Fact} {name : Fact → Option String} {fact : Fact}

theorem named_once {first second : Fact} {value : String}
    (once : (facts.filterMap name).Nodup) (left : first ∈ facts) (right : second ∈ facts)
    (same : name first = some value) (other : name second = some value) : first = second := by
  by_contra distinct
  have symmetric : Std.Symm fun first second : Fact => ∀ value, name first = some value →
      ∀ value', name second = some value' → value ≠ value' :=
    ⟨fun _ _ apart value right value' left => (apart value' left value right).symm⟩
  exact (List.pairwise_filterMap.mp once).forall left right distinct value same value other rfl

theorem mem_names {value : String} (inside : fact ∈ facts) (same : name fact = some value) :
    value ∈ facts.filterMap name :=
  List.mem_filterMap.mpr ⟨fact, inside, same⟩

theorem mem_names_snoc {value : String} :
    value ∈ (facts ++ [fact]).filterMap name ↔
      value ∈ facts.filterMap name ∨ name fact = some value := by
  simp only [List.filterMap_append, List.mem_append, List.mem_filterMap, List.mem_singleton,
    exists_eq_left]

theorem once_snoc (once : (facts.filterMap name).Nodup)
    (new : ∀ value, name fact = some value → value ∉ facts.filterMap name) :
    ((facts ++ [fact]).filterMap name).Nodup := by
  rw [List.filterMap_append]
  cases named : name fact with
  | none => simpa [named] using once
  | some value =>
    refine List.nodup_append.mpr ⟨once, by simp [named], ?_⟩
    intro old inside single present
    simp only [List.filterMap_cons, named, List.filterMap_nil, List.mem_singleton] at present
    rintro rfl
    exact new value named (present ▸ inside)

theorem traced_mono {subjects more : List Subject} {grant : Grant} (new : List Fact)
    (traced : Traced subjects facts grant) (keeps : ∀ subject ∈ subjects, subject ∈ more) :
    Traced more (facts ++ new) grant := by
  obtain ⟨⟨clientId, began⟩, session, ⟨sid, signed, own⟩, subject, inside, known⟩ := traced
  exact ⟨⟨clientId, List.mem_append_left _ began⟩, session,
    ⟨sid, List.mem_append_left _ signed, own⟩, subject, keeps subject inside, known⟩

theorem answers_mono {services : Services} {exchange : Exchange} {grant : Grant} (new : List Fact)
    (answers : Answers services facts exchange grant) :
    Answers services (facts ++ new) exchange grant :=
  { answers with
    granted := List.mem_append_left _ answers.granted
    began := List.mem_append_left _ answers.began }

theorem row_of_mono {services : Services} {subjects more : List Subject}
    {row : AuthorizationCode} {grant : Grant} (rowOf : RowOf services subjects row grant)
    (keeps : ∀ subject ∈ subjects, subject ∈ more) : RowOf services more row grant := by
  obtain ⟨subject, inside, known⟩ := rowOf.subject
  exact { rowOf with subject := ⟨subject, keeps subject inside, known⟩ }

end Facts

/-! ### Steps -/

section Steps

variable {services : Services} {system after : System} {facts : List Fact}

section

variable (linked : Linked services system facts)
include linked

theorem exchanged_granted {code : String} (exchanged : code ∈ facts.filterMap exchangedCode) :
    code ∈ facts.filterMap grantedCode := by
  obtain ⟨fact, inside, named⟩ := List.mem_filterMap.mp exchanged
  cases fact with
  | exchanged exchange =>
    obtain ⟨grant, answers⟩ := linked.exchanges exchange inside
    obtain rfl : exchange.form.code = code := Option.some.inj named
    exact mem_names answers.granted (congrArg some answers.code.symm)
  | began clientId transaction => simp [exchangedCode] at named
  | signedIn requestSid sid login => simp [exchangedCode] at named
  | granted grant => simp [exchangedCode] at named

theorem grant_of_code {first second : Grant} (left : .granted first ∈ facts)
    (right : .granted second ∈ facts) (same : first.code = second.code) : first = second :=
  Fact.granted.inj (named_once linked.grantsOnce left right rfl (congrArg some same.symm))

theorem linked_frame (frame : Frame system after) (database : after.database = system.database) :
    Linked services after facts := by
  have cookies : ∀ cookie ∈ after.cookies, ∀ login, cookie.login = some login →
      ∃ requestSid, .signedIn requestSid cookie.sid login ∈ facts := by
    intro cookie inside login signed
    rcases frame.cookies cookie inside with unsigned | ⟨old, present, sid, same⟩
    · rw [unsigned] at signed
      simp at signed
    · rw [← sid]
      exact linked.cookies old present login (same.trans signed)
  exact {
    clientNumbers := database ▸ linked.clientNumbers
    subjectNumbers := database ▸ linked.subjectNumbers
    hashes := database ▸ linked.hashes
    grantsOnce := linked.grantsOnce
    begunOnce := linked.begunOnce
    signedOnce := linked.signedOnce
    exchangedOnce := linked.exchangedOnce
    requests := fun request inside =>
      database ▸ linked.requests request (frame.requests request inside)
    cookies := cookies
    waiting := database ▸ linked.waiting
    clients := database ▸ linked.clients
    grants := database ▸ linked.grants
    rows := database ▸ linked.rows
    alive := fun grant granted unused standing =>
      database ▸ linked.alive grant granted unused (lt_of_le_of_lt frame.later standing)
    exchanges := linked.exchanges }

theorem linked_opened {clientId secret : String} {request : TokenRequest}
    (authenticated : basicClient services system.database clientId secret = some request) :
    Linked services { system with requests := system.requests ++ [request] } facts := by
  refine { linked with requests := ?_ }
  intro other inside
  rcases List.mem_append.mp inside with old | new
  · exact linked.requests other old
  · obtain rfl := List.mem_singleton.mp new
    simp only [basicClient] at authenticated
    split at authenticated
    · simp at authenticated
    rename_i client found
    split at authenticated
    · obtain rfl := Option.some.inj authenticated
      exact (client_by_public_id found).1
    · simp at authenticated

end

theorem row_standing {row : AuthorizationCode} {grant : Grant}
    (injective : Function.Injective services.tokenHash) (linked : Linked services system facts)
    (inside : row ∈ system.database.codes) (granted : .granted grant ∈ facts)
    (same : row.codeHash = services.tokenHash grant.code) :
    RowOf services system.database.subjects row grant := by
  obtain ⟨other, known, rowOf, -⟩ := linked.rows row inside
  obtain rfl := grant_of_code linked known granted (injective (rowOf.codeHash.symm.trans same))
  exact rowOf

theorem linked_begun {clientId sid : String} {transaction : Transaction} {saved : Database}
    (injective : Function.Injective services.tokenHash) (linked : Linked services system facts)
    (begun : Begun system.now system.database clientId sid transaction saved)
    (new : transaction.transactionId ∉ facts.filterMap begunId) :
    Linked services { system with database := saved } (facts ++ [.began clientId transaction]) := by
  have exchanged : ∀ code, code ∈ (facts ++ [Fact.began clientId transaction]).filterMap exchangedCode ↔
      code ∈ facts.filterMap exchangedCode := by
    intro code
    simp [exchangedCode]
  have granted : ∀ grant, Fact.granted grant ∈ facts ++ [.began clientId transaction] →
      .granted grant ∈ facts := by
    intro grant inside
    simpa using inside
  obtain rfl := begun.written
  exact {
    clientNumbers := linked.clientNumbers
    subjectNumbers := linked.subjectNumbers
    hashes := (List.filter_sublist.map _).nodup linked.hashes
    grantsOnce := once_snoc linked.grantsOnce (by simp [grantedCode])
    begunOnce := once_snoc linked.begunOnce (by
      intro value same
      obtain rfl := Option.some.inj same
      exact new)
    signedOnce := once_snoc linked.signedOnce (by simp [signedSid])
    exchangedOnce := once_snoc linked.exchangedOnce (by simp [exchangedCode])
    requests := linked.requests
    cookies := by
      intro cookie inside login signed
      obtain ⟨requestSid, fact⟩ := linked.cookies cookie inside login signed
      exact ⟨requestSid, List.mem_append_left _ fact⟩
    waiting := by
      intro row inside
      rcases List.mem_append.mp inside with old | single
      · obtain ⟨other, fact⟩ := linked.waiting row (List.mem_filter.mp old).1
        exact ⟨other, List.mem_append_left _ fact⟩
      · obtain rfl := List.mem_singleton.mp single
        exact ⟨clientId, List.mem_append_right _ (List.mem_singleton_self _)⟩
    clients := by
      intro other row fact
      rcases List.mem_append.mp fact with old | single
      · exact linked.clients other row old
      · obtain ⟨rfl, rfl⟩ := Fact.began.inj (List.mem_singleton.mp single)
        obtain ⟨client, inside, named, number, -⟩ := begun.client
        exact ⟨client, inside, named, number.symm⟩
    grants := fun grant fact =>
      traced_mono _ (linked.grants grant (granted grant fact)) fun _ inside => inside
    rows := by
      intro row inside
      obtain ⟨grant, fact, rowOf, spent⟩ := linked.rows row (List.mem_filter.mp inside).1
      refine ⟨grant, List.mem_append_left _ fact, rowOf, ?_⟩
      rw [exchanged]
      exact spent
    alive := by
      intro grant fact unused standing
      rw [exchanged] at unused
      obtain ⟨row, inside, same, unredeemed⟩ :=
        linked.alive grant (granted grant fact) unused standing
      have rowOf := row_standing injective linked inside (granted grant fact) same
      refine ⟨row, List.mem_filter.mpr ⟨inside, ?_⟩, same, unredeemed⟩
      rw [rowOf.expiresAt]
      exact decide_eq_true standing
    exchanges := by
      intro exchange fact
      obtain ⟨grant, answers⟩ := linked.exchanges exchange (by simpa using fact)
      exact ⟨grant, answers_mono _ answers⟩ }

theorem linked_signed {opened : BrowserCookie} {requestSid : String} {login : Login}
    (linked : Linked services system facts) (signed : opened.login = some login)
    (new : opened.sid ∉ facts.filterMap signedSid) :
    Linked services { system with cookies := system.cookies ++ [opened] }
      (facts ++ [.signedIn requestSid opened.sid login]) := by
  have exchanged : ∀ code, code ∈ (facts ++ [Fact.signedIn requestSid opened.sid login]).filterMap
      exchangedCode ↔ code ∈ facts.filterMap exchangedCode := by
    intro code
    simp [exchangedCode]
  have granted : ∀ grant, Fact.granted grant ∈ facts ++ [.signedIn requestSid opened.sid login] →
      .granted grant ∈ facts := by
    intro grant inside
    simpa using inside
  exact {
    clientNumbers := linked.clientNumbers
    subjectNumbers := linked.subjectNumbers
    hashes := linked.hashes
    grantsOnce := once_snoc linked.grantsOnce (by simp [grantedCode])
    begunOnce := once_snoc linked.begunOnce (by simp [begunId])
    signedOnce := once_snoc linked.signedOnce (by
      intro value same
      obtain rfl := Option.some.inj same
      exact new)
    exchangedOnce := once_snoc linked.exchangedOnce (by simp [exchangedCode])
    requests := linked.requests
    cookies := by
      intro cookie inside other carried
      rcases List.mem_append.mp inside with old | single
      · obtain ⟨sid, fact⟩ := linked.cookies cookie old other carried
        exact ⟨sid, List.mem_append_left _ fact⟩
      · obtain rfl := List.mem_singleton.mp single
        obtain rfl : login = other := Option.some.inj (signed.symm.trans carried)
        exact ⟨requestSid, List.mem_append_right _ (List.mem_singleton_self _)⟩
    waiting := by
      intro row inside
      obtain ⟨clientId, fact⟩ := linked.waiting row inside
      exact ⟨clientId, List.mem_append_left _ fact⟩
    clients := fun clientId row fact => linked.clients clientId row (by simpa using fact)
    grants := fun grant fact =>
      traced_mono _ (linked.grants grant (granted grant fact)) fun _ inside => inside
    rows := by
      intro row inside
      obtain ⟨grant, fact, rowOf, spent⟩ := linked.rows row inside
      refine ⟨grant, List.mem_append_left _ fact, rowOf, ?_⟩
      rw [exchanged]
      exact spent
    alive := by
      intro grant fact unused standing
      rw [exchanged] at unused
      exact linked.alive grant (granted grant fact) unused standing
    exchanges := by
      intro exchange fact
      obtain ⟨grant, answers⟩ := linked.exchanges exchange (by simpa using fact)
      exact ⟨grant, answers_mono _ answers⟩ }

section Issuing

variable {transaction : Transaction} {identity current : VerifiedIdentity}
  {requestSid authenticatedSid : String} {authTime : Nat} {draws : Draws} {client : Client}
  {subject : Subject} {known saved : Database} {grant : Grant}

/-- The subjects behind a code: the old ones, and its own. -/
theorem issued_subjects
    (numbers : (system.database.subjects.map Subject.id).Nodup)
    (issued : Issued services system.now system.database transaction identity requestSid
      authenticatedSid authTime draws client current subject known grant saved) :
    subject.owner = loginOwner grant.login ∧ subject ∈ saved.subjects ∧
      (∀ other ∈ system.database.subjects, other ∈ saved.subjects) ∧
      (saved.subjects.map Subject.id).Nodup := by
  have subjects : saved.subjects = known.subjects := by rw [issued.written]
  have login : ownerOf current = loginOwner grant.login := by rw [issued.recorded]; rfl
  rw [subjects, ← login]
  obtain ⟨owner, ⟨inside, rfl⟩ | ⟨new, rfl⟩⟩ := ensure_subject_ok issued.ensured
  · exact ⟨owner, inside, fun _ present => present, numbers⟩
  · refine ⟨owner, List.mem_append_right _ (List.mem_singleton_self _),
      fun other present => List.mem_append_left _ present, ?_⟩
    rw [List.map_append]
    refine List.nodup_append.mpr ⟨numbers, by simp, ?_⟩
    intro number inside other single
    obtain ⟨old, present, rfl⟩ := List.mem_map.mp inside
    simp only [List.map_cons, List.map_nil, List.mem_singleton] at single
    exact single ▸ (new old present).1

theorem issued_row
    (issued : Issued services system.now system.database transaction identity requestSid
      authenticatedSid authTime draws client current subject known grant saved)
    (inside : subject ∈ saved.subjects) :
    RowOf services saved.subjects (codeRow services system.now client transaction current subject
      authenticatedSid authTime draws.code) grant := by
  have number : client.id = transaction.oidcClientId := (client_by_id issued.found).2
  rw [issued.recorded]
  exact ⟨rfl, number, rfl, rfl, rfl, rfl, rfl, rfl, subject, inside, rfl, rfl⟩

theorem linked_issued (linked : Linked services system facts)
    (issued : Issued services system.now system.database transaction identity requestSid
      authenticatedSid authTime draws client current subject known grant saved)
    (new : draws.code ∉ facts.filterMap grantedCode)
    (began : ∃ clientId, .began clientId transaction ∈ facts)
    (signed : ∃ sid, .signedIn sid authenticatedSid grant.login ∈ facts ∧
      (sid = requestSid ∨ authenticatedSid = requestSid)) :
    Linked services { system with database := saved } (facts ++ [.granted grant]) := by
  obtain ⟨owner, inside, keeps, numbers⟩ := issued_subjects linked.subjectNumbers issued
  have rowOf := issued_row issued inside
  have code : grant.code = draws.code := by rw [issued.recorded]
  have unspent : draws.code ∉ facts.filterMap exchangedCode := fun spent =>
    new (exchanged_granted linked spent)
  have exchanged : ∀ value, value ∈ (facts ++ [Fact.granted grant]).filterMap exchangedCode ↔
      value ∈ facts.filterMap exchangedCode := by
    intro value
    simp [exchangedCode]
  have traced : Traced saved.subjects (facts ++ [.granted grant]) grant := by
    have own : grant.transaction = transaction := by rw [issued.recorded]
    have sids : grant.requestSid = requestSid ∧ grant.authenticatedSid = authenticatedSid := by
      rw [issued.recorded]
      exact ⟨rfl, rfl⟩
    have uuid : subject.subjectUuid = grant.subjectUuid := by rw [issued.recorded]
    obtain ⟨clientId, fact⟩ := began
    obtain ⟨sid, signIn, same⟩ := signed
    refine ⟨⟨clientId, ?_⟩, ?_, ⟨sid, ?_, ?_⟩, subject, inside, uuid, owner⟩
    · rw [own]
      exact List.mem_append_left _ fact
    · rw [own, sids.1]
      exact issued.session
    · rw [sids.2]
      exact List.mem_append_left _ signIn
    · rw [sids.1, sids.2]
      exact same
  have settings : saved.clients = system.database.clients := by
    rw [issued.written, known_codes issued.ensured]
  have codes : saved.codes = system.database.codes ++ [codeRow services system.now client
      transaction current subject authenticatedSid authTime draws.code] := by
    rw [issued.written, known_codes issued.ensured]
  have transactions : ∀ row ∈ saved.transactions, row ∈ system.database.transactions := by
    intro row present
    rw [issued.written, known_codes issued.ensured] at present
    exact (List.mem_filter.mp present).1
  exact {
    clientNumbers := settings ▸ linked.clientNumbers
    subjectNumbers := numbers
    hashes := by
      rw [codes, List.map_append]
      refine List.nodup_append.mpr ⟨linked.hashes, by simp, ?_⟩
      intro hash present other single
      obtain ⟨row, stored, rfl⟩ := List.mem_map.mp present
      simp only [List.map_cons, List.map_nil, List.mem_singleton] at single
      exact single ▸ issued.new row stored
    grantsOnce := once_snoc linked.grantsOnce (by
      intro value same
      obtain rfl := Option.some.inj same
      exact code ▸ new)
    begunOnce := once_snoc linked.begunOnce (by simp [begunId])
    signedOnce := once_snoc linked.signedOnce (by simp [signedSid])
    exchangedOnce := once_snoc linked.exchangedOnce (by simp [exchangedCode])
    requests := fun request present => settings ▸ linked.requests request present
    cookies := by
      intro cookie present login carried
      obtain ⟨sid, fact⟩ := linked.cookies cookie present login carried
      exact ⟨sid, List.mem_append_left _ fact⟩
    waiting := by
      intro row present
      obtain ⟨clientId, fact⟩ := linked.waiting row (transactions row present)
      exact ⟨clientId, List.mem_append_left _ fact⟩
    clients := fun clientId row fact =>
      settings ▸ linked.clients clientId row (by simpa using fact)
    grants := by
      intro other fact
      rcases List.mem_append.mp fact with old | single
      · exact traced_mono _ (linked.grants other old) keeps
      · obtain rfl := Fact.granted.inj (List.mem_singleton.mp single)
        exact traced
    rows := by
      intro row present
      rw [codes] at present
      rcases List.mem_append.mp present with old | single
      · obtain ⟨other, fact, own, spent⟩ := linked.rows row old
        refine ⟨other, List.mem_append_left _ fact, row_of_mono own keeps, ?_⟩
        rw [exchanged]
        exact spent
      · obtain rfl := List.mem_singleton.mp single
        refine ⟨grant, List.mem_append_right _ (List.mem_singleton_self _), rowOf, ?_⟩
        rw [exchanged, code]
        exact fun spent => absurd spent unspent
    alive := by
      intro other fact unused standing
      rw [exchanged] at unused
      rw [codes]
      rcases List.mem_append.mp fact with old | single
      · obtain ⟨row, stored, same, unredeemed⟩ := linked.alive other old unused standing
        exact ⟨row, List.mem_append_left _ stored, same, unredeemed⟩
      · obtain rfl := Fact.granted.inj (List.mem_singleton.mp single)
        exact ⟨_, List.mem_append_right _ (List.mem_singleton_self _), rowOf.codeHash, rfl⟩
    exchanges := by
      intro exchange fact
      obtain ⟨other, answers⟩ := linked.exchanges exchange (by simpa using fact)
      exact ⟨other, answers_mono _ answers⟩ }

end Issuing

section Exchanging

variable {provider : Provider} {exchange : Exchange} {saved : Database}

theorem view_subjects {organization : Option Organization} {database : Database} :
    (sessionView organization database).subjects = database.subjects := by
  cases organization with
  | none => rfl
  | some row => rfl

theorem exchange_answers (linked : Linked services system facts)
    (injective : Function.Injective services.tokenHash)
    (held : exchange.request ∈ system.requests)
    (done : redeemAndIssue services system.now system.database provider exchange.request
      exchange.form = .ok (exchange.payload, saved)) :
    ∃ grant row, Answers services facts exchange grant ∧ row ∈ system.database.codes ∧
      row.codeHash = services.tokenHash exchange.form.code ∧ row.redeemedAt = none ∧
      redeems services system.now exchange.request.client exchange.form row = true ∧
      exchange.form.code ∉ facts.filterMap exchangedCode ∧
      saved = { system.database with
        codes := system.database.codes.map fun other =>
          if redeems services system.now exchange.request.client exchange.form other then
            { other with redeemedAt := some system.now }
          else other } := by
  obtain ⟨code, redeemed, issued⟩ := redeem_and_issue_ok done
  obtain ⟨row, stored, matched, rfl, rfl⟩ := redeem_ok redeemed
  obtain ⟨subject, identity, found, -, -, sub, aud, nonce, authTime, scopes, -⟩ :=
    issue_tokens_ok issued
  obtain ⟨inside, number, -⟩ := code_identity_ok found
  rw [view_subjects] at inside
  have spelled := matched
  simp only [redeems, Bool.and_eq_true, decide_eq_true_eq, Option.isNone_iff_eq_none] at spelled
  obtain ⟨⟨⟨⟨⟨hash, owner⟩, redirect⟩, challenge⟩, unused⟩, -⟩ := spelled
  obtain ⟨grant, granted, rowOf, spent⟩ := linked.rows row stored
  have code : exchange.form.code = grant.code := injective (hash.symm.trans rowOf.codeHash)
  obtain ⟨known, present, sameNumber, uuid⟩ := rowOf.subject
  obtain rfl : subject = known := List.inj_on_of_nodup_map linked.subjectNumbers inside present
    (number.trans sameNumber.symm)
  obtain ⟨clientId, began⟩ := (linked.grants grant granted).began
  obtain ⟨client, listed, named, numbered⟩ := linked.clients clientId grant.transaction began
  obtain rfl : client = exchange.request.client :=
    List.inj_on_of_nodup_map linked.clientNumbers listed (linked.requests _ held)
      (numbered.trans (rowOf.client.symm.trans owner))
  refine ⟨grant, row, ⟨granted, ?_, code, redirect.symm.trans rowOf.redirectUri,
    challenge.symm.trans rowOf.challenge, sub.trans uuid, nonce.trans rowOf.nonce,
    authTime.trans rowOf.authTime, scopes.trans rowOf.scopes⟩, stored, hash, unused, matched, ?_,
    rfl⟩
  · rw [aud, named]
    exact began
  · rw [code]
    exact fun exchanged => spent exchanged unused

theorem linked_exchanged (linked : Linked services system facts)
    (injective : Function.Injective services.tokenHash)
    (held : exchange.request ∈ system.requests)
    (done : redeemAndIssue services system.now system.database provider exchange.request
      exchange.form = .ok (exchange.payload, saved)) :
    Linked services { system with database := saved } (facts ++ [.exchanged exchange]) := by
  obtain ⟨grant, row, answers, stored, hash, unused, matched, unspent, rfl⟩ :=
    exchange_answers linked injective held done
  have granted : ∀ grant, Fact.granted grant ∈ facts ++ [.exchanged exchange] →
      .granted grant ∈ facts := by
    intro grant inside
    simpa using inside
  have hashes : (system.database.codes.map fun other =>
      if redeems services system.now exchange.request.client exchange.form other then
        { other with redeemedAt := some system.now }
      else other).map AuthorizationCode.codeHash =
      system.database.codes.map AuthorizationCode.codeHash := by
    rw [List.map_map]
    refine List.map_congr_left fun other _ => ?_
    simp only [Function.comp_apply]
    split_ifs
    · rfl
    · rfl
  exact {
    clientNumbers := linked.clientNumbers
    subjectNumbers := linked.subjectNumbers
    hashes := by
      rw [hashes]
      exact linked.hashes
    grantsOnce := once_snoc linked.grantsOnce (by simp [grantedCode])
    begunOnce := once_snoc linked.begunOnce (by simp [begunId])
    signedOnce := once_snoc linked.signedOnce (by simp [signedSid])
    exchangedOnce := once_snoc linked.exchangedOnce (by
      intro value same
      obtain rfl := Option.some.inj same
      exact unspent)
    requests := linked.requests
    cookies := by
      intro cookie present login carried
      obtain ⟨sid, fact⟩ := linked.cookies cookie present login carried
      exact ⟨sid, List.mem_append_left _ fact⟩
    waiting := by
      intro row present
      obtain ⟨clientId, fact⟩ := linked.waiting row present
      exact ⟨clientId, List.mem_append_left _ fact⟩
    clients := fun clientId row fact => linked.clients clientId row (by simpa using fact)
    grants := fun grant fact =>
      traced_mono _ (linked.grants grant (granted grant fact)) fun _ inside => inside
    rows := by
      intro changed present
      obtain ⟨old, inside, rfl⟩ := List.mem_map.mp present
      obtain ⟨other, fact, rowOf, spent⟩ := linked.rows old inside
      refine ⟨other, List.mem_append_left _ fact, ?_, ?_⟩
      · split_ifs
        · exact { rowOf with }
        · exact rowOf
      · rw [mem_names_snoc]
        rintro (earlier | now)
        · split_ifs
          · simp
          · exact spent earlier
        · -- the row of this code is the one that was redeemed
          have same : old.codeHash = row.codeHash := by
            rw [rowOf.codeHash, hash, Option.some.inj now]
          obtain rfl := List.inj_on_of_nodup_map linked.hashes inside stored same
          simp [matched]
    alive := by
      intro other fact unspentNow standing
      rw [mem_names_snoc, not_or] at unspentNow
      obtain ⟨old, inside, same, unredeemed⟩ :=
        linked.alive other (granted other fact) unspentNow.1 standing
      refine ⟨old, List.mem_map.mpr ⟨old, inside, ?_⟩, same, unredeemed⟩
      rw [if_neg]
      intro taken
      simp only [redeems, Bool.and_eq_true, decide_eq_true_eq] at taken
      have code := injective (taken.1.1.1.1.1.symm.trans same)
      exact unspentNow.2 (congrArg some code)
    exchanges := by
      intro other fact
      rcases List.mem_append.mp fact with old | single
      · obtain ⟨known, earlier⟩ := linked.exchanges other old
        exact ⟨known, answers_mono _ earlier⟩
      · obtain rfl := Fact.exchanged.inj (List.mem_singleton.mp single)
        exact ⟨grant, answers_mono _ answers⟩ }

end Exchanging

end Steps

/-! ### Runs -/

/-- The values of a request that no history names yet. -/
structure Fresh (facts : List Fact) (draws : Draws) : Prop where
  code : draws.code ∉ facts.filterMap grantedCode
  transactionId : draws.transactionId ∉ facts.filterMap begunId
  sid : draws.sid ∉ facts.filterMap signedSid

/-- The names of a history were drawn. -/
structure Drawn (drawn : List Draws) (facts : List Fact) : Prop where
  codes : ∀ value ∈ facts.filterMap grantedCode, value ∈ drawn.map Draws.code
  transactionIds : ∀ value ∈ facts.filterMap begunId, value ∈ drawn.map Draws.transactionId
  sids : ∀ value ∈ facts.filterMap signedSid, value ∈ drawn.map Draws.sid

structure Unique (drawn : List Draws) : Prop where
  codes : (drawn.map Draws.code).Nodup
  transactionIds : (drawn.map Draws.transactionId).Nodup
  sids : (drawn.map Draws.sid).Nodup

section Runs

variable {services : Services} {system after : System} {facts new : List Fact}

theorem issued_login {now authTime : Nat} {database known saved : Database}
    {transaction : Transaction} {identity current : VerifiedIdentity}
    {requestSid authenticatedSid : String} {draws : Draws} {client : Client} {subject : Subject}
    {grant : Grant}
    (issued : Issued services now database transaction identity requestSid authenticatedSid
      authTime draws client current subject known grant saved) :
    grant.login = ⟨identity.source, identity.sourceRecordId, identity.organizationId,
      epochSeconds authTime⟩ := by
  obtain ⟨found, -⟩ := current_identity_ok issued.permitted
  obtain ⟨source, record, organization⟩ := identity_from_source_keys found
  rw [issued.recorded, source, record, organization]

theorem moves_linked {draws : Option Draws} (injective : Function.Injective services.tokenHash)
    (linked : Linked services system facts) (moves : Moves services system draws after new)
    (fresh : ∀ drawn, draws = some drawn → Fresh facts drawn) :
    Linked services after (facts ++ new) := by
  cases moves with
  | quiet frame database =>
    rw [List.append_nil]
    exact linked_frame linked frame database
  | opened authenticated =>
    rw [List.append_nil]
    exact linked_opened linked authenticated
  | @began draws clientId sid transaction after frame moment begun drawn =>
    have begunLinked := linked_begun injective linked begun
      (drawn ▸ (fresh draws rfl).transactionId)
    exact linked_frame begunLinked ⟨frame.later, frame.requests, frame.cookies⟩ rfl
  | @silent draws clientId transaction begun session login identity current client subject known
      grant after frame moment started drawn carried signed identified issued =>
      have begunLinked := linked_begun injective linked started
        (drawn ▸ (fresh draws rfl).transactionId)
      have signIn : ∃ sid, Fact.signedIn sid session.sid login ∈ facts := by
        rcases carried with unsigned | ⟨old, present, sid, same⟩
        · rw [unsigned] at signed
          simp at signed
        · rw [← sid]
          exact linked.cookies old present login (same.trans signed)
      have carriedLogin : grant.login = login := by
        obtain ⟨source, record, organization⟩ := identity_from_source_keys identified
        rw [issued_login issued, source, record, organization, epochSeconds,
          Nat.mul_div_cancel _ (by decide)]
      have issuedLinked := linked_issued begunLinked issued (by
          rw [mem_names_snoc]
          rintro (earlier | named)
          · exact (fresh draws rfl).code earlier
          · simp [grantedCode] at named)
        ⟨clientId, List.mem_append_right _ (List.mem_singleton_self _)⟩ (by
          obtain ⟨sid, fact⟩ := signIn
          rw [carriedLogin]
          exact ⟨sid, List.mem_append_left _ fact, .inr rfl⟩)
      rw [List.append_assoc] at issuedLinked
      exact linked_frame issuedLinked ⟨frame.later, frame.requests, frame.cookies⟩ rfl
  | @signedIn draws transaction session opened identity current client subject known grant login
      after waiting requests moment cookies sid signed verified issued =>
      obtain ⟨clientId, began⟩ := linked.waiting transaction waiting
      have signedLinked := @linked_signed services system facts opened session.sid login linked
        signed (sid ▸ (fresh draws rfl).sid)
      have carriedLogin : grant.login = login := by
        rw [issued_login issued, verified]
      have issuedLinked := linked_issued signedLinked issued (by
          rw [mem_names_snoc]
          rintro (earlier | named)
          · exact (fresh draws rfl).code earlier
          · simp [grantedCode] at named)
        ⟨clientId, List.mem_append_left _ began⟩ (by
          rw [carriedLogin, ← sid]
          exact ⟨session.sid, List.mem_append_right _ (List.mem_singleton_self _), .inl rfl⟩)
      rw [List.append_assoc, sid] at issuedLinked
      exact linked_frame issuedLinked (frame_same moment requests cookies) rfl
  | @exchanged _ provider request form payload after frame moment held done =>
    have exchangedLinked : Linked services { system with database := after.database }
        (facts ++ [.exchanged ⟨request, form, payload⟩]) :=
      linked_exchanged linked injective held done
    exact linked_frame exchangedLinked ⟨frame.later, frame.requests, frame.cookies⟩ rfl

theorem moves_drawn {draws : Option Draws} (moves : Moves services system draws after new) :
    Drawn draws.toList new := by
  cases moves with
  | quiet frame database => exact ⟨by simp, by simp, by simp⟩
  | opened authenticated => exact ⟨by simp, by simp, by simp⟩
  | began frame moment begun drawn =>
    exact ⟨by simp [grantedCode], by simp [begunId, drawn], by simp [signedSid]⟩
  | silent frame moment started drawn carried signed identified issued =>
    have code := congrArg Grant.code issued.recorded
    exact ⟨by simp [grantedCode, code], by simp [begunId, drawn], by simp [signedSid]⟩
  | signedIn waiting requests moment cookies sid signed verified issued =>
    have code := congrArg Grant.code issued.recorded
    exact ⟨by simp [grantedCode, code], by simp [begunId], by simp [signedSid]⟩
  | exchanged frame moment held done =>
    exact ⟨by simp [grantedCode], by simp [begunId], by simp [signedSid]⟩

theorem drawn_append {drawn more : List Draws} (old : Drawn drawn facts) (late : Drawn more new) :
    Drawn (drawn ++ more) (facts ++ new) := by
  constructor
  · intro value inside
    rw [List.filterMap_append, List.mem_append] at inside
    rw [List.map_append, List.mem_append]
    exact inside.imp (old.codes value) (late.codes value)
  · intro value inside
    rw [List.filterMap_append, List.mem_append] at inside
    rw [List.map_append, List.mem_append]
    exact inside.imp (old.transactionIds value) (late.transactionIds value)
  · intro value inside
    rw [List.filterMap_append, List.mem_append] at inside
    rw [List.map_append, List.mem_append]
    exact inside.imp (old.sids value) (late.sids value)

theorem unique_start {drawn more : List Draws} (unique : Unique (drawn ++ more)) :
    Unique drawn := by
  obtain ⟨codes, transactionIds, sids⟩ := unique
  rw [List.map_append] at codes transactionIds sids
  exact ⟨codes.of_append_left, transactionIds.of_append_left, sids.of_append_left⟩

theorem unique_fresh {drawn : List Draws} {draws : Draws} (unique : Unique (drawn ++ [draws]))
    (named : Drawn drawn facts) : Fresh facts draws := by
  obtain ⟨codes, transactionIds, sids⟩ := unique
  rw [List.map_append, List.nodup_append] at codes transactionIds sids
  constructor
  · intro inside
    exact codes.2.2 _ (named.codes _ inside) _ (List.mem_singleton_self _) rfl
  · intro inside
    exact transactionIds.2.2 _ (named.transactionIds _ inside) _ (List.mem_singleton_self _) rfl
  · intro inside
    exact sids.2.2 _ (named.sids _ inside) _ (List.mem_singleton_self _) rfl

/-- A configuration that satisfies the constraints of the tables, before the first request. -/
structure Configured (database : Database) : Prop where
  clientNumbers : (database.clients.map Client.id).Nodup
  subjectNumbers : (database.subjects.map Subject.id).Nodup
  transactions : database.transactions = []
  codes : database.codes = []

theorem fresh_linked {database : Database} (configured : Configured database) :
    Linked services (freshSystem database) [] where
  clientNumbers := configured.clientNumbers
  subjectNumbers := configured.subjectNumbers
  hashes := by simp [freshSystem, configured.codes]
  grantsOnce := List.nodup_nil
  begunOnce := List.nodup_nil
  signedOnce := List.nodup_nil
  exchangedOnce := List.nodup_nil
  requests := by simp [freshSystem]
  cookies := by simp [freshSystem]
  waiting := by simp [freshSystem, configured.transactions]
  clients := by simp
  grants := by simp
  rows := by simp [freshSystem, configured.codes]
  alive := by simp
  exchanges := by simp

theorem run_snoc {state : System × List Fact} {events : List Event} {event : Event} :
    runEvents services state (events ++ [event]) =
      ((step services (runEvents services state events).1 event).1,
        (runEvents services state events).2 ++
          (step services (runEvents services state events).1 event).2) := by
  rw [runEvents, List.foldl_append]
  rfl

theorem run_linked {database : Database} (configured : Configured database)
    (injective : Function.Injective services.tokenHash) (events : List Event)
    (protocol : ∀ event ∈ events, ¬Administrative event)
    (unique : Unique (events.filterMap drawsOf)) :
    Linked services (runEvents services (freshSystem database, []) events).1
        (runEvents services (freshSystem database, []) events).2 ∧
      Drawn (events.filterMap drawsOf)
        (runEvents services (freshSystem database, []) events).2 := by
  induction events using List.reverseRecOn with
  | nil => exact ⟨fresh_linked configured, ⟨by simp [runEvents], by simp [runEvents],
      by simp [runEvents]⟩⟩
  | append_singleton past event induction =>
    rw [List.filterMap_append] at unique ⊢
    obtain ⟨linked, drawn⟩ := induction
      (fun earlier inside => protocol earlier (List.mem_append_left _ inside))
      (unique_start unique)
    have moves := @step_moves services (runEvents services (freshSystem database, []) past).1
      event (protocol event (List.mem_append_right _ (List.mem_singleton_self _)))
    have drawnNow : [event].filterMap drawsOf = (drawsOf event).toList := by
      cases same : drawsOf event with
      | none => simp [same]
      | some draws => simp [same]
    rw [drawnNow] at unique ⊢
    rw [run_snoc]
    refine ⟨moves_linked injective linked moves ?_, drawn_append drawn (moves_drawn moves)⟩
    intro draws same
    rw [same] at unique
    exact unique_fresh unique drawn

end Runs

/-! ### The binding -/

/-- One grant behind a token response: its code, its transaction and its sign-in are the only
ones of their names. -/
structure Bound (services : Services) (state : System × List Fact) (exchange : Exchange)
    (grant : Grant) : Prop where
  answers : Answers services state.2 exchange grant
  traced : Traced state.1.database.subjects state.2 grant
  code : ∀ other, .granted other ∈ state.2 → other.code = exchange.form.code → other = grant
  transaction : ∀ clientId other, .began clientId other ∈ state.2 →
    other.transactionId = grant.transaction.transactionId →
    clientId = exchange.payload.aud ∧ other = grant.transaction
  signIn : ∀ requestSid login, .signedIn requestSid grant.authenticatedSid login ∈ state.2 →
    login = grant.login

/-- The right party: the client of the transaction, with its redirect URI and a verifier of
its challenge. -/
structure RightParty (services : Services) (state : System × List Fact) (grant : Grant)
    (client : Client) (form : TokenForm) : Prop where
  registered : client ∈ state.1.database.clients
  began : .began client.clientId grant.transaction ∈ state.2
  code : form.code = grant.code
  redirectUri : form.redirectUri = grant.transaction.redirectUri
  verifier : isVerifier form.codeVerifier = true
  challenge : services.challenge form.codeVerifier = grant.transaction.codeChallenge

section Binding

variable {services : Services} {state : System × List Fact}

theorem exchange_bound {exchange : Exchange} (linked : Linked services state.1 state.2)
    (exchanged : .exchanged exchange ∈ state.2) : ∃ grant, Bound services state exchange grant := by
  obtain ⟨grant, answers⟩ := linked.exchanges exchange exchanged
  have traced := linked.grants grant answers.granted
  refine ⟨grant, answers, traced, ?_, ?_, ?_⟩
  · intro other granted same
    exact grant_of_code linked granted answers.granted (same.trans answers.code)
  · intro clientId other began same
    have equal := named_once linked.begunOnce began answers.began rfl (congrArg some same.symm)
    exact Fact.began.inj equal
  · intro requestSid login signed
    obtain ⟨sid, known, -⟩ := traced.signed
    have equal := named_once linked.signedOnce signed known rfl rfl
    exact (Fact.signedIn.inj equal).2.2

theorem right_party_redeems {grant : Grant} {client : Client} {form : TokenForm}
    (injective : Function.Injective services.tokenHash) (linked : Linked services state.1 state.2)
    (publicIds : (state.1.database.clients.map Client.clientId).Nodup)
    (granted : .granted grant ∈ state.2) (unused : grant.code ∉ state.2.filterMap exchangedCode)
    (standing : state.1.now < grant.expiresAt)
    (party : RightParty services state grant client form) :
    ∃ code saved, redeemAuthorizationCode services state.1.now state.1.database client form =
      .ok (code, saved) := by
  obtain ⟨row, stored, hash, unredeemed⟩ := linked.alive grant granted unused standing
  have rowOf := row_standing injective linked stored granted hash
  obtain ⟨owner, listed, named, number⟩ := linked.clients _ _ party.began
  obtain rfl := List.inj_on_of_nodup_map publicIds listed party.registered named
  have matched : redeems services state.1.now owner form row = true := by
    simp only [redeems, Bool.and_eq_true, decide_eq_true_eq, Option.isNone_iff_eq_none]
    refine ⟨⟨⟨⟨⟨?_, ?_⟩, ?_⟩, ?_⟩, unredeemed⟩, ?_⟩
    · rw [party.code]
      exact hash
    · rw [number]
      exact rowOf.client
    · rw [party.redirectUri]
      exact rowOf.redirectUri
    · rw [party.challenge]
      exact rowOf.challenge
    · rw [rowOf.expiresAt]
      exact standing
  rw [redeemAuthorizationCode, party.verifier]
  simp only [Bool.not_true, Bool.false_eq_true, if_false]
  cases found : state.1.database.codes.find? (redeems services state.1.now owner form) with
  | none => exact absurd matched (List.find?_eq_none.mp found row stored)
  | some other => exact ⟨_, _, rfl⟩

theorem moves_clients {events : List Event} {database : Database}
    (protocol : ∀ event ∈ events, ¬Administrative event) :
    (runEvents services (freshSystem database, []) events).1.database.clients =
      database.clients := by
  induction events using List.reverseRecOn with
  | nil => rfl
  | append_singleton past event induction =>
    have settings := moves_configuration (@step_moves services
      (runEvents services (freshSystem database, []) past).1 event
      (protocol event (List.mem_append_right _ (List.mem_singleton_self _))))
    rw [run_snoc]
    dsimp only
    rw [settings]
    exact induction fun earlier inside => protocol earlier (List.mem_append_left _ inside)

/-- Over every run of the protocol, a code is exchanged at most once, every token response
is bound to the one grant, transaction and sign-in of its code, and a code that was not
exchanged can be redeemed by the right party until it expires. -/
theorem code_flow_bound (services : Services) (injective : Function.Injective services.tokenHash)
    (database : Database) (configured : Configured database)
    (publicIds : (database.clients.map Client.clientId).Nodup) (events : List Event)
    (protocol : ∀ event ∈ events, ¬Administrative event)
    (unique : Unique (events.filterMap drawsOf)) :
    let state := runEvents services (freshSystem database, []) events
    (state.2.filterMap exchangedCode).Nodup ∧
    (∀ exchange, .exchanged exchange ∈ state.2 → ∃ grant, Bound services state exchange grant) ∧
    ∀ grant client form, .granted grant ∈ state.2 →
      grant.code ∉ state.2.filterMap exchangedCode → state.1.now < grant.expiresAt →
      RightParty services state grant client form →
      ∃ code saved, redeemAuthorizationCode services state.1.now state.1.database client form =
        .ok (code, saved) := by
  intro state
  obtain ⟨linked, -⟩ := @run_linked services database configured injective events protocol unique
  refine ⟨linked.exchangedOnce, fun exchange => exchange_bound linked, ?_⟩
  intro grant client form granted unused standing party
  have registered : (state.1.database.clients.map Client.clientId).Nodup := by
    rw [moves_clients protocol]
    exact publicIds
  exact right_party_redeems injective linked registered granted unused standing party

end Binding

theorem sample_hash_injective : Function.Injective sampleServices.tokenHash := by
  intro first second same
  have apart : sampleCode ≠ sampleCodeHash := by decide
  simp only [sampleServices] at same
  split_ifs at same with a b c d e f g h
  all_goals simp_all

def sampleDatabase : Database :=
  sampleSetup.foldl (fun database action =>
    committed database (administer sampleServices 0 database action)) emptyDatabase

theorem sample_flow_is_bound :
    ∃ grant, Bound sampleServices (runEvents sampleServices (freshSystem sampleDatabase, [])
      (sampleBegin :: sampleSignIn :: sampleTokenRequest)) sampleExchange grant := by
  have configured : Configured sampleDatabase :=
    ⟨by decide +kernel, by decide +kernel, by decide +kernel, by decide +kernel⟩
  have unique : Unique ((sampleBegin :: sampleSignIn :: sampleTokenRequest).filterMap drawsOf) :=
    ⟨by decide, by decide, by decide⟩
  exact (code_flow_bound sampleServices sample_hash_injective sampleDatabase configured
    (by decide +kernel) (sampleBegin :: sampleSignIn :: sampleTokenRequest)
    (by simp [sampleBegin, sampleSignIn, sampleTokenRequest, Administrative]) unique).2.1
    sampleExchange (by decide +kernel)

end Atlaso.Oidc.CodeBinding
