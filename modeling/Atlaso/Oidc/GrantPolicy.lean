import Atlaso.Oidc.AdministrativeSteps
import Atlaso.Oidc.FlowSteps

/-!
Grants and the policy of the client they belong to.

An edit of a client ends its waiting sign-in pages but not its codes, and a token request
keeps the rows it authenticated with. The edits that leave both alone are the careful ones;
between them every token follows the policy of its moment.
-/

namespace Atlaso.Oidc.GrantPolicy

open Library.Outcomes Records GroupMappings SigningKeys Administration AuthorizationFlow FlowRuns
open FlowSteps AdministrativeSteps

def Honoured (database : Database) (exchange : Exchange) : Prop :=
  ∃ client ∈ database.clients, client.clientId = exchange.payload.aud ∧ client.enabled = true ∧
    exchange.form.redirectUri ∈ client.redirectUris ∧
    (∀ scope ∈ exchange.payload.scopes, scope ∈ client.allowedScopes) ∧
    ∃ subject ∈ database.subjects, subject.subjectUuid = exchange.payload.sub ∧
      ∃ identity, ownerOf identity = subject.owner ∧
        identityFromSource database identity.source identity.sourceRecordId
          identity.organizationId = some identity ∧
        identityPermittedForClient database client identity = true

def Outstanding (now : Nat) (code : AuthorizationCode) : Prop :=
  code.redeemedAt = none ∧ now < code.expiresAt

instance (now : Nat) (code : AuthorizationCode) : Decidable (Outstanding now code) :=
  inferInstanceAs (Decidable (_ ∧ _))

/-- The edit keeps what the outstanding codes were granted, and what the open token requests
were authenticated with. -/
def Careful (system : System) : Action → Prop
  | .updateClient id form =>
    (∀ code ∈ system.database.codes, Outstanding system.now code → code.oidcClientId = id →
      code.redirectUri ∈ form.redirectUris ∧
      ∀ scope ∈ code.scopes, scope ∈ distinctScopes form.allowedScopes) ∧
    ∀ request ∈ system.requests, request.client.id = id →
      form.enabled = true ∧ form.organizationId = request.client.organizationId
  | .setClientEnabled id enabled =>
    ∀ request ∈ system.requests, request.client.id = id → enabled = true
  | .createClient _ id _ _ => ∀ request ∈ system.requests, request.client.id ≠ id
  | .updateLdapOrganization id _ enabled =>
    ∀ request ∈ system.requests, request.client.organizationId = some id → enabled = true
  | _ => True

instance (system : System) : ∀ action, Decidable (Careful system action)
  | .updateClient _ _ => inferInstanceAs (Decidable (_ ∧ _))
  | .setClientEnabled _ _ => inferInstanceAs (Decidable (∀ request ∈ system.requests, _ → _))
  | .createClient _ _ _ _ => inferInstanceAs (Decidable (∀ request ∈ system.requests, _))
  | .updateLdapOrganization _ _ _ =>
    inferInstanceAs (Decidable (∀ request ∈ system.requests, _ → _))
  | .rotateClientSecret _ _ | .deleteClient _ | .createGroupMapping _ _ _ _ _ _
  | .updateGroupMapping _ _ _ | .deleteGroupMapping _ | .createLdapOrganization _
  | .deleteLdapOrganization _ | .createLdapGroup _ _ _ _ _ | .updateLdapGroup _ _ _ _
  | .deleteLdapGroup _ | .saveLocalUser _ | .deleteLocalUser _ | .saveLdapUser _
  | .deleteLdapUser _ | .setLdapEnabled _ | .updateProvider _ | .updateProviderFromUi _
  | .setHostErrors _ | .generateSigningKey _ _ _ | .deleteSigningKey _ => .isTrue trivial

structure Backed (database : Database) (request : TokenRequest) : Prop where
  organization : ∀ row, request.organization = some row →
    request.client.organizationId = some row.id
  client : ∀ client ∈ database.clients, client.id = request.client.id →
    client.clientId = request.client.clientId ∧ client.enabled = true ∧
    client.organizationId = request.client.organizationId ∧
    ∀ id, client.organizationId = some id →
      organizationEnabled (organizationById database id) = true

structure Policed (system : System) : Prop where
  numbers : (system.database.clients.map Client.id).Nodup
  codes : ∀ code ∈ system.database.codes, ∃ client ∈ system.database.clients,
    client.id = code.oidcClientId ∧
    (Outstanding system.now code → Allows client code.redirectUri code.scopes)
  requests : ∀ request ∈ system.requests, Backed system.database request

section Steps

variable {services : Services} {system after : System} {facts : List Fact} {database : Database}

theorem outstanding_earlier {earlier later : Nat} {code : AuthorizationCode}
    (order : earlier ≤ later) (outstanding : Outstanding later code) : Outstanding earlier code :=
  ⟨outstanding.1, lt_of_le_of_lt order outstanding.2⟩

theorem same_client (numbers : (database.clients.map Client.id).Nodup) {first second : Client}
    (left : first ∈ database.clients) (right : second ∈ database.clients)
    (same : first.id = second.id) : first = second :=
  List.inj_on_of_nodup_map numbers left right same

variable {client : Client} {request : TokenRequest} {id : Nat}

theorem usable_ok (usable : clientUsable database client = true) :
    client.enabled = true ∧ ∀ id, client.organizationId = some id →
      organizationEnabled (organizationById database id) = true := by
  simp only [clientUsable, Bool.and_eq_true] at usable
  refine ⟨usable.1, ?_⟩
  intro id bound
  simpa [bound] using usable.2

theorem authenticated_backed {clientId secret : String}
    (numbers : (database.clients.map Client.id).Nodup)
    (authenticated : basicClient services database clientId secret = some request) :
    Backed database request := by
  simp only [basicClient] at authenticated
  split at authenticated
  · simp at authenticated
  rename_i client found
  split at authenticated
  · rename_i accepted
    rw [Bool.and_eq_true] at accepted
    obtain rfl := Option.some.inj authenticated
    obtain ⟨inside, -⟩ := client_by_public_id found
    obtain ⟨enabled, organization⟩ := usable_ok accepted.1
    constructor
    · intro row held
      obtain ⟨id, bound, located⟩ := Option.bind_eq_some_iff.mp held
      have number : row.id = id := by simpa using List.find?_some located
      rw [number]
      exact bound
    · intro other present same
      obtain rfl := same_client numbers present inside same
      exact ⟨rfl, enabled, rfl, organization⟩
  · simp at authenticated

theorem backed_same {after : Database} (backed : Backed database request)
    (clients : after.clients = database.clients)
    (organizations : after.organizations = database.organizations) : Backed after request := by
  refine ⟨backed.organization, ?_⟩
  rw [clients]
  intro client inside same
  obtain ⟨named, enabled, bound, organization⟩ := backed.client client inside same
  refine ⟨named, enabled, bound, fun id own => ?_⟩
  rw [organizationById, organizations]
  exact organization id own

/-! ### Protocol steps -/

theorem issued_policed {now authTime : Nat} {transaction : Transaction}
    {identity current : VerifiedIdentity} {requestSid sid : String} {draws : Draws}
    {subject : Subject} {known saved : Database} {grant : Grant} {Held : AuthorizationCode → Prop}
    (held : ∀ code ∈ database.codes, Held code) (fits : ∀ code : AuthorizationCode,
      code.oidcClientId = client.id → Allows client code.redirectUri code.scopes → Held code)
    (issued : Issued services now database transaction identity requestSid sid authTime draws client
      current subject known grant saved) :
    ∀ code ∈ saved.codes, Held code := by
  intro code inside
  rw [issued.written, known_codes issued.ensured] at inside
  rcases List.mem_append.mp inside with old | new
  · exact held code old
  · obtain rfl := List.mem_singleton.mp new
    exact fits _ rfl issued.allows

theorem moves_policed {draws : Option Draws} (before : Policed system)
    (moves : Moves services system draws after facts) : Policed after := by
  have settings := moves_configuration moves
  have clients : after.database.clients = system.database.clients := by rw [settings]
  have organizations : after.database.organizations = system.database.organizations := by
    rw [settings]
  have later := moves_later moves
  have earlierCodes : ∀ code ∈ system.database.codes, ∃ client ∈ after.database.clients,
      client.id = code.oidcClientId ∧
      (Outstanding after.now code → Allows client code.redirectUri code.scopes) := by
    rw [clients]
    intro code inside
    obtain ⟨client, present, own, allows⟩ := before.codes code inside
    exact ⟨client, present, own, fun outstanding =>
      allows (outstanding_earlier later outstanding)⟩
  have earlierRequests : ∀ request ∈ system.requests, Backed after.database request :=
    fun request inside => backed_same (before.requests request inside) clients organizations
  have fits : ∀ client ∈ system.database.clients, ∀ code : AuthorizationCode,
      code.oidcClientId = client.id → Allows client code.redirectUri code.scopes →
      ∃ client ∈ after.database.clients, client.id = code.oidcClientId ∧
        (Outstanding after.now code → Allows client code.redirectUri code.scopes) := by
    rw [clients]
    exact fun client inside code own allows => ⟨client, inside, own.symm, fun _ => allows⟩
  have numbers : (after.database.clients.map Client.id).Nodup := by
    rw [clients]
    exact before.numbers
  cases moves with
  | quiet frame database =>
    refine ⟨numbers, ?_, fun request inside => earlierRequests request (frame.requests _ inside)⟩
    rw [database] at earlierCodes ⊢
    exact earlierCodes
  | opened authenticated =>
    refine ⟨numbers, earlierCodes, ?_⟩
    intro request inside
    rcases List.mem_append.mp inside with old | new
    · exact before.requests request old
    · obtain rfl := List.mem_singleton.mp new
      exact authenticated_backed before.numbers authenticated
  | began frame moment begun drawn =>
    refine ⟨numbers, ?_, fun request inside => earlierRequests request (frame.requests _ inside)⟩
    intro code inside
    rw [begun.written] at inside
    exact earlierCodes code (List.mem_filter.mp inside).1
  | silent frame moment started drawn carried signed identified issued =>
    refine ⟨numbers, ?_, fun request inside => earlierRequests request (frame.requests _ inside)⟩
    obtain ⟨inside, -⟩ := client_by_id issued.found
    rw [started.written] at inside
    refine issued_policed ?_ (fits _ inside) issued
    intro code kept
    rw [started.written] at kept
    exact earlierCodes code (List.mem_filter.mp kept).1
  | signedIn waiting requests moment cookies sid signed verified issued =>
    refine ⟨numbers, ?_, fun request inside => earlierRequests request (requests ▸ inside)⟩
    exact issued_policed earlierCodes (fits _ (client_by_id issued.found).1) issued
  | exchanged frame moment held done =>
    refine ⟨numbers, ?_, fun request inside => earlierRequests request (frame.requests _ inside)⟩
    obtain ⟨code, redeemed, -⟩ := redeem_and_issue_ok done
    obtain ⟨-, -, -, -, written⟩ := redeem_ok redeemed
    intro row inside
    rw [written] at inside
    obtain ⟨old, present, rfl⟩ := List.mem_map.mp inside
    obtain ⟨client, listed, own, allows⟩ := earlierCodes old present
    refine ⟨client, listed, ?_⟩
    split_ifs
    · exact ⟨own, fun outstanding => by simp [Outstanding] at outstanding⟩
    · exact ⟨own, allows⟩

/-! ### Administrators -/

theorem organization_enabled_append {organization : Organization}
    (enabled : organizationEnabled (organizationById database id) = true) :
    organizationEnabled (organizationById
      { database with organizations := database.organizations ++ [organization] } id) = true := by
  cases found : organizationById database id with
  | none => simp [found, organizationEnabled] at enabled
  | some row =>
    rw [organizationById] at found
    rw [organizationById, List.find?_append, found]
    rw [organizationById, found] at enabled
    exact enabled

theorem organization_enabled_updated {name : String} {bound : Nat} {enabled : Bool}
    (allowed : bound = id → enabled = true)
    (before : organizationEnabled (organizationById database bound) = true) :
    organizationEnabled (organizationById { database with
      organizations := database.organizations.map fun organization =>
        if organization.id = id then ⟨id, stripped name, enabled⟩ else organization } bound) =
      true := by
  have sameNumber : ((fun row : Organization => decide (row.id = bound)) ∘
      fun row : Organization => if row.id = id then ⟨id, stripped name, enabled⟩ else row) =
      fun row => decide (row.id = bound) := by
    funext row
    by_cases own : row.id = id
    · simp [own]
    · simp [own]
  rw [organizationById, List.find?_map, sameNumber]
  rw [organizationById] at before
  cases found : database.organizations.find? fun row => row.id = bound with
  | none => simp [found, organizationEnabled] at before
  | some row =>
    have number : row.id = bound := by simpa using List.find?_some found
    rw [found] at before
    simp only [Option.map_some, organizationEnabled, Option.any_some] at before ⊢
    split_ifs with own
    · exact allowed (number.symm.trans own)
    · exact before

theorem organization_enabled_filtered {after : Database} {bound : Nat} (other : bound ≠ id)
    (organizations : after.organizations = database.organizations.filter fun organization =>
      organization.id ≠ id) :
    organizationById after bound = organizationById database bound := by
  rw [organizationById, organizationById, organizations, List.find?_filter]
  congr 1
  funext row
  by_cases own : row.id = bound
  · simp [own, other]
  · simp [own]

theorem rewritten_client {change : Client → Client}
    (number : ∀ row : Client, (change row).id = row.id)
    (inside : client ∈ (rewriteClient id change database).clients) :
    ∃ old ∈ database.clients, client.id = old.id ∧
      (client = change old ∧ old.id = id ∨ client = old ∧ old.id ≠ id) := by
  obtain ⟨old, present, rfl⟩ := List.mem_map.mp inside
  refine ⟨old, present, ?_⟩
  split_ifs with own
  · exact ⟨number old, .inl ⟨rfl, own⟩⟩
  · exact ⟨rfl, .inr ⟨rfl, own⟩⟩

theorem rewritten_numbers {change : Client → Client}
    (number : ∀ row : Client, (change row).id = row.id) :
    (rewriteClient id change database).clients.map Client.id = database.clients.map Client.id := by
  rw [rewriteClient, List.map_map]
  refine List.map_congr_left fun row _ => ?_
  by_cases own : row.id = id
  · simp [own, number]
  · simp [own]

theorem rewrite_policed {change : Client → Client} {transactions : List Transaction}
    (before : Policed system) (number : ∀ row : Client, (change row).id = row.id)
    (named : ∀ row : Client, (change row).clientId = row.clientId)
    (grants : ∀ client ∈ system.database.clients, client.id = id → ∀ code ∈ system.database.codes,
      code.oidcClientId = id → Outstanding system.now code → Allows client code.redirectUri
      code.scopes → Allows (change client) code.redirectUri code.scopes)
    (sessions : ∀ request ∈ system.requests, request.client.id = id → ∀ client ∈
      system.database.clients, client.id = id → client.enabled = true → client.organizationId =
      request.client.organizationId → (change client).enabled = true ∧ (change
      client).organizationId = client.organizationId) :
    Policed { system with
      database := rewriteClient id change { system.database with transactions := transactions } } := by
  refine ⟨?_, ?_, ?_⟩
  · rw [rewritten_numbers number]
    exact before.numbers
  · intro code inside
    obtain ⟨client, present, own, allows⟩ := before.codes code inside
    refine ⟨_, List.mem_map_of_mem present, ?_⟩
    split_ifs with chosen
    · exact ⟨(number client).trans own, fun outstanding => grants client present chosen code inside
        (own.symm.trans chosen) outstanding (allows outstanding)⟩
    · exact ⟨own, allows⟩
  · intro request inside
    have backed := before.requests request inside
    refine ⟨backed.organization, ?_⟩
    intro client present same
    obtain ⟨old, listed, numbered, ⟨rfl, chosen⟩ | ⟨rfl, -⟩⟩ := rewritten_client number present
    · obtain ⟨registered, enabled, bound, organization⟩ :=
        backed.client old listed (numbered.symm.trans same)
      obtain ⟨stays, kept⟩ := sessions request inside
        ((same.symm.trans numbered).trans chosen) old listed chosen enabled bound
      exact ⟨(named old).trans registered, stays, kept.trans bound, fun id own =>
        organization id (kept ▸ own)⟩
    · exact backed.client client listed same

theorem policed_same {saved : Database} (before : Policed system)
    (clients : saved.clients = system.database.clients)
    (codes : ∀ code ∈ saved.codes, code ∈ system.database.codes)
    (requests : ∀ request ∈ system.requests, Backed saved request) :
    Policed { system with database := saved } := by
  refine ⟨by rw [clients]; exact before.numbers, ?_, requests⟩
  rw [clients]
  exact fun code inside => before.codes code (codes code inside)

theorem backed_organizations {after : Database} (backed : Backed database request)
    (clients : after.clients = database.clients) (keeps : ∀ client ∈ database.clients, client.id =
      request.client.id → ∀ id, client.organizationId = some id → organizationEnabled
      (organizationById database id) = true → organizationEnabled (organizationById after id) =
      true) : Backed after request := by
  refine ⟨backed.organization, ?_⟩
  rw [clients]
  intro client inside same
  obtain ⟨named, enabled, bound, organization⟩ := backed.client client inside same
  exact ⟨named, enabled, bound, fun id own =>
    keeps client inside same id own (organization id own)⟩

theorem normalized_scopes {requested scopes : List String} {scope : String}
    (normalized : normalizeAllowedScopes requested = .ok scopes)
    (listed : scope ∈ distinctScopes requested) : scope ∈ scopes := by
  simp only [normalizeAllowedScopes] at normalized
  split at normalized
  · simp at normalized
  rename_i known
  split at normalized
  · simp at normalized
  obtain rfl := Except.ok.inj normalized
  refine List.mem_filter.mpr ⟨?_, by simpa using listed⟩
  by_contra unknown
  exact known (List.ne_nil_of_mem (List.mem_filter.mpr ⟨listed, by simpa using unknown⟩))

theorem administer_policed {action : Action} {saved : Database} (before : Policed system)
    (careful : Careful system action)
    (writes : Writes services system.now system.database action saved) :
    Policed { system with database := saved } := by
  cases writes with
  | elsewhere untouched =>
    exact policed_same before untouched.clients untouched.codes fun request inside =>
      backed_same (before.requests request inside) untouched.clients untouched.organizations
  | settings overlap =>
    exact policed_same before rfl (fun _ inside => inside) fun request inside =>
      backed_same (before.requests request inside) rfl rfl
  | keyGenerated done =>
    obtain ⟨keys, rfl⟩ := GroupClaims.generate_key_frame done
    exact policed_same before rfl (fun _ inside => inside) fun request inside =>
      backed_same (before.requests request inside) rfl rfl
  | keyDeleted done =>
    obtain ⟨keys, rfl⟩ := GroupClaims.delete_key_frame done
    exact policed_same before rfl (fun _ inside => inside) fun request inside =>
      backed_same (before.requests request inside) rfl rfl
  | clientCreated new =>
    refine ⟨?_, ?_, ?_⟩
    · rw [List.map_append]
      refine List.nodup_append.mpr ⟨before.numbers, by simp, ?_⟩
      intro number inside other single
      obtain ⟨client, present, rfl⟩ := List.mem_map.mp inside
      simp only [List.map_cons, List.map_nil, List.mem_singleton] at single
      exact single ▸ (new client present).1
    · intro code inside
      obtain ⟨client, present, rest⟩ := before.codes code inside
      exact ⟨client, List.mem_append_left _ present, rest⟩
    · intro request inside
      have backed := before.requests request inside
      refine ⟨backed.organization, ?_⟩
      intro client present same
      rcases List.mem_append.mp present with old | single
      · exact backed.client client old same
      · obtain rfl := List.mem_singleton.mp single
        exact absurd same.symm (careful request inside)
  | clientUpdated normalized =>
    refine rewrite_policed before (fun _ => rfl) (fun _ => rfl) ?_ ?_
    · intro client _ _ code inside own outstanding _
      obtain ⟨redirect, scopes⟩ := careful.1 code inside outstanding own
      exact ⟨redirect, fun scope granted =>
        normalized_scopes normalized (scopes scope granted)⟩
    · intro request inside same client _ _ _ bound
      obtain ⟨enabled, organization⟩ := careful.2 request inside same
      exact ⟨enabled, organization.trans bound.symm⟩
  | secretRotated =>
    exact rewrite_policed before (fun _ => rfl) (fun _ => rfl) (fun _ _ _ _ _ _ _ allows => allows)
      fun _ _ _ _ _ _ enabled _ => ⟨enabled, rfl⟩
  | clientSwitched =>
    refine rewrite_policed before (fun _ => rfl) (fun _ => rfl)
      (fun _ _ _ _ _ _ _ allows => allows) ?_
    intro request inside same client _ _ _ _
    exact ⟨careful request inside same, rfl⟩
  | @clientDeleted id =>
    refine ⟨(List.filter_sublist.map _).nodup before.numbers, ?_, ?_⟩
    · intro code inside
      obtain ⟨present, kept⟩ := List.mem_filter.mp inside
      obtain ⟨client, listed, own, allows⟩ := before.codes code present
      refine ⟨client, List.mem_filter.mpr ⟨listed, ?_⟩, own, allows⟩
      rw [own]
      exact kept
    · intro request inside
      have backed := before.requests request inside
      exact ⟨backed.organization, fun client present =>
        backed.client client (List.mem_filter.mp present).1⟩
  | organizationCreated new =>
    exact policed_same before rfl (fun _ inside => inside) fun request inside =>
      backed_organizations (before.requests request inside) rfl fun _ _ _ _ _ enabled =>
        organization_enabled_append enabled
  | organizationUpdated =>
    refine policed_same before rfl (fun _ inside => inside) fun request inside => ?_
    have backed := before.requests request inside
    refine backed_organizations backed rfl fun client present same id own enabled => ?_
    refine organization_enabled_updated ?_ enabled
    rintro rfl
    obtain ⟨-, -, bound, -⟩ := backed.client client present same
    exact careful request inside (bound.symm.trans own)
  | organizationDeleted untouched organizations unbound =>
    refine policed_same before untouched.clients untouched.codes fun request inside => ?_
    refine backed_organizations (before.requests request inside) untouched.clients
      fun client present _ bound own enabled => ?_
    rw [organization_enabled_filtered ?_ organizations]
    · exact enabled
    · rintro rfl
      exact unbound client present own

end Steps

/-! ### Exchanges -/

section Exchanges

variable {services : Services} {system : System} {database : Database}

theorem permitted_same {first second : Client} {identity : VerifiedIdentity}
    (enabled : first.enabled = second.enabled)
    (organization : first.organizationId = second.organizationId) :
    identityPermittedForClient database first identity =
      identityPermittedForClient database second identity := by
  rw [identityPermittedForClient, identityPermittedForClient, enabled, organization]

theorem permitted_enabled {client : Client} {identity : VerifiedIdentity}
    (permitted : identityPermittedForClient database client identity = true) :
    client.enabled = true := by
  simp only [identityPermittedForClient, Bool.and_eq_true] at permitted
  exact permitted.1

theorem organization_enabled_some {id : Nat}
    (enabled : organizationEnabled (organizationById database id) = true) :
    ∃ organization, organizationById database id = some organization ∧
      organization.enabled = true := by
  cases found : organizationById database id with
  | none => simp [found, organizationEnabled] at enabled
  | some organization =>
    exact ⟨organization, rfl, by simpa [found, organizationEnabled] using enabled⟩

theorem view_identity {row : Organization} {source : Source} {recordId : Nat}
    {organizationId : Option Nat} {identity : VerifiedIdentity} {client : Client}
    (bound : client.organizationId = some row.id)
    (enabled : organizationEnabled (organizationById database row.id) = true)
    (found : identityFromSource (sessionView (some row) database) source recordId organizationId =
      some identity)
    (permitted : identityPermittedForClient (sessionView (some row) database) client identity =
      true) :
    ∃ current, identityFromSource database source recordId organizationId = some current ∧
      identityPermittedForClient database client current = true := by
  simp only [identityPermittedForClient, bound, Bool.and_eq_true, decide_eq_true_eq] at permitted
  obtain ⟨usable, ⟨⟨managed, home⟩, configured⟩, -⟩ := permitted
  obtain ⟨rfl, -, -⟩ := identity_from_source_keys found
  rw [managed] at found ⊢
  have ldap : database.ldapEnabled = true := configured
  simp only [identityFromSource, configured, ldap, if_true, Option.bind_eq_bind,
    Option.bind_eq_some_iff] at found ⊢
  obtain ⟨user, located, organization, -, found⟩ := found
  split at found
  · simp at found
  rename_i accepted
  obtain rfl := Option.some.inj found
  simp only [Bool.or_eq_true, Bool.not_eq_true', decide_eq_true_eq, not_or, Decidable.not_not,
    Bool.not_eq_false] at accepted
  have member : user.organizationId = row.id := Option.some.inj home
  obtain ⟨stored, listed, active⟩ := organization_enabled_some enabled
  refine ⟨ldapIdentity user stored, ⟨user, located, stored, ?_, ?_⟩, ?_⟩
  · rw [member]
    exact listed
  · rw [if_neg]
    simpa [active, accepted.1.1] using accepted.2
  · simp [identityPermittedForClient, bound, usable, ldapIdentity, member, ldap, enabled]

theorem exchange_identity {request : TokenRequest} {code : AuthorizationCode} {client : Client}
    {subject : Subject} {identity : VerifiedIdentity} (backed : Backed database request)
    (listed : client ∈ database.clients) (own : client.id = request.client.id)
    (found : codeIdentity (sessionView request.organization database) code =
      some (subject, identity))
    (permitted : identityPermittedForClient (sessionView request.organization database)
      request.client identity = true) :
    subject ∈ database.subjects ∧ ∃ current, ownerOf current = subject.owner ∧
      identityFromSource database current.source current.sourceRecordId current.organizationId =
        some current ∧
      identityPermittedForClient database client current = true := by
  obtain ⟨-, enabled, bound, organization⟩ := backed.client client listed own
  obtain ⟨stored, -, recordId, recorded, identified⟩ := code_identity_ok found
  have inside : subject ∈ database.subjects := by
    cases held : request.organization with
    | none => simpa [held, sessionView] using stored
    | some row => simpa [held, sessionView] using stored
  have current : ∃ current, identityFromSource database code.source recordId code.organizationId =
      some current ∧ identityPermittedForClient database client current = true := by
    cases held : request.organization with
    | none =>
      rw [held] at identified permitted
      refine ⟨identity, identified, ?_⟩
      rw [permitted_same (enabled.trans (permitted_enabled permitted).symm) bound]
      exact permitted
    | some row =>
      rw [held] at identified permitted
      have home := backed.organization row held
      obtain ⟨current, resolved, allowed⟩ := view_identity home
        (organization row.id (bound.trans home)) identified permitted
      refine ⟨current, resolved, ?_⟩
      rw [permitted_same (enabled.trans (permitted_enabled permitted).symm) bound]
      exact allowed
  obtain ⟨current, resolved, allowed⟩ := current
  obtain ⟨source, record, home⟩ := identity_from_source_keys resolved
  refine ⟨inside, current, ?_, ?_, allowed⟩
  · rw [ownerOf, source, record]
    simp only [subjectRecord] at recorded
    split at recorded
    · rename_i kind owner
      simp [kind, owner, Option.some.inj recorded]
    · rename_i kind owner
      simp [kind, owner, Option.some.inj recorded]
    · simp at recorded
  · rw [source, record, home]
    exact resolved

theorem exchange_honoured {provider : Provider} {exchange : Exchange} {saved : Database}
    (policed : Policed system) (held : exchange.request ∈ system.requests)
    (done : redeemAndIssue services system.now system.database provider exchange.request
      exchange.form = .ok (exchange.payload, saved)) : Honoured saved exchange := by
  obtain ⟨code, redeemed, issued⟩ := redeem_and_issue_ok done
  obtain ⟨row, stored, matched, rfl, rfl⟩ := redeem_ok redeemed
  obtain ⟨subject, identity, found, permitted, -, sub, aud, -, -, scopes, -⟩ :=
    issue_tokens_ok issued
  simp only [redeems, Bool.and_eq_true, decide_eq_true_eq, Option.isNone_iff_eq_none] at matched
  obtain ⟨⟨⟨⟨⟨-, owner⟩, redirect⟩, -⟩, unused⟩, standing⟩ := matched
  obtain ⟨client, listed, own, allows⟩ := policed.codes row stored
  obtain ⟨registered, granted⟩ := allows ⟨unused, standing⟩
  have backed : Backed { system.database with
      codes := system.database.codes.map fun other =>
        if redeems services system.now exchange.request.client exchange.form other then
          { other with redeemedAt := some system.now } else other } exchange.request :=
    backed_same (policed.requests _ held) rfl rfl
  obtain ⟨named, enabled, -, -⟩ := backed.client client listed (own.trans owner)
  obtain ⟨inside, current, owned, resolved, allowed⟩ :=
    exchange_identity backed listed (own.trans owner) found permitted
  refine ⟨client, listed, named.trans aud.symm, enabled, redirect ▸ registered, ?_, subject, inside,
    sub.symm, current, owned, resolved, allowed⟩
  rw [scopes]
  exact granted

end Exchanges

/-! ### Runs -/

section Runs

variable {services : Services}

def CarefulStep (system : System) : Event → Prop
  | .administer action => Careful system action
  | _ => True

def CarefulRun (services : Services) : System × List Fact → List Event → Prop
  | _, [] => True
  | state, event :: events => CarefulStep state.1 event ∧
      CarefulRun services
        ((step services state.1 event).1, state.2 ++ (step services state.1 event).2) events

instance (system : System) : ∀ event, Decidable (CarefulStep system event)
  | .administer action => inferInstanceAs (Decidable (Careful system action))
  | .wait _ | .setIdleTimeout _ | .authorizeGet _ _ _ | .authorizePost _ _ _ | .logout _
  | .openToken _ _ | .finishToken _ _ _ => .isTrue trivial

instance decideCarefulRun (services : Services) :
    ∀ state events, Decidable (CarefulRun services state events)
  | _, [] => .isTrue trivial
  | state, event :: events =>
    have := decideCarefulRun services
      ((step services state.1 event).1, state.2 ++ (step services state.1 event).2) events
    inferInstanceAs (Decidable (CarefulStep state.1 event ∧ _))

theorem careful_start {state : System × List Fact} {past rest : List Event}
    (careful : CarefulRun services state (past ++ rest)) : CarefulRun services state past := by
  induction past generalizing state with
  | nil => trivial
  | cons event past induction => exact ⟨careful.1, induction careful.2⟩

theorem step_policed {system : System} {event : Event} (before : Policed system)
    (careful : CarefulStep system event) : Policed (step services system event).1 := by
  by_cases administrative : Administrative event
  · cases event with
    | administer action =>
      simp only [step]
      cases outcome : administer services system.now system.database action with
      | ok saved => exact administer_policed before careful (administer_writes outcome)
      | error raised => exact before
    | _ => exact absurd administrative id
  · exact moves_policed before (step_moves administrative)

theorem run_policed {state : System × List Fact} (events : List Event) (before : Policed state.1)
    (careful : CarefulRun services state events) : Policed (runEvents services state events).1 := by
  induction events generalizing state with
  | nil => exact before
  | cons event events induction => exact induction (step_policed before careful.1) careful.2

theorem fresh_policed : Policed (freshSystem emptyDatabase) := by
  refine ⟨List.nodup_nil, ?_, ?_⟩
  · intro code inside
    simp [freshSystem, emptyDatabase] at inside
  · intro request inside
    simp [freshSystem] at inside

end Runs

def editedFlow (form : ClientForm) : List Event :=
  sampleSetup.map .administer ++ [sampleBegin, sampleSignIn,
    .administer (.updateClient 1 form), .openToken true (some ("application", "secret"))]

def sampleFinish : Event := .finishToken 0 sampleTokenForm sampleProvider

def narrowedForm : ClientForm :=
  { sampleForm with redirectUris := ["https://app.example/login"], allowedScopes := ["openid"] }

end Atlaso.Oidc.GrantPolicy
