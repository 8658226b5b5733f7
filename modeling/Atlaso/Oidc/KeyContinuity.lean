import Atlaso.Oidc.AdministrativeSteps
import Atlaso.Oidc.FlowSteps

/-!
Tokens and the keys that signed them.

A rotation computes once how long the old key stays published. The overlap is never below
the lifetime of a token, and the key table drops a retired key only after that moment, so a
token that has not expired finds its key.
-/

namespace Atlaso.Oidc.KeyContinuity

open Records SigningKeys Administration AuthorizationFlow FlowRuns FlowSteps AdministrativeSteps

structure KeyTable (keys : List SigningKey) : Prop where
  numbers : (keys.map SigningKey.id).Nodup
  kids : (keys.map SigningKey.kid).Nodup
  named : ∀ key ∈ keys, key.publicJwk.kid = key.kid
  slots : ∀ key ∈ keys, key.status = .active ↔ key.activeSlot = some 1
  single : ∀ first ∈ keys, ∀ second ∈ keys, first.status = .active → second.status = .active →
    first = second

def SignedBy (keys : List SigningKey) (payload : TokenPayload) (key : SigningKey) : Prop :=
  key ∈ keys ∧ key.kid = payload.kid ∧
    (key.status = .active ∨ key.status = .retired ∧
      ∃ moment, key.publishUntil = some moment ∧ payload.exp * 1000000 ≤ moment)

structure Continuous (state : System × List Fact) : Prop where
  overlap : 300 ≤ state.1.database.provider.signingKeyOverlapSeconds
  keys : KeyTable state.1.database.signingKeys
  bounded : ∀ exchange, .exchanged exchange ∈ state.2 →
    exchange.payload.exp ≤ epochSeconds state.1.now + OIDC_TOKEN_LIFETIME_SECONDS
  signed : ∀ exchange, .exchanged exchange ∈ state.2 →
    epochSeconds state.1.now < exchange.payload.exp →
    ∃ key, SignedBy state.1.database.signingKeys exchange.payload key

section Keys

variable {database saved : Database} {now : Nat}

theorem eq_of_number {keys : List SigningKey} (table : KeyTable keys) {first second : SigningKey}
    (left : first ∈ keys) (right : second ∈ keys) (same : first.id = second.id) : first = second :=
  List.inj_on_of_nodup_map table.numbers left right same

theorem active_signing_key_some {key : SigningKey} (found : activeSigningKey database = some key) :
    key ∈ database.signingKeys ∧ key.status = .active ∧ key.activeSlot = some 1 :=
  ⟨List.mem_of_find?_eq_some found, by simpa using List.find?_some found⟩

theorem active_signing_key_of_active (table : KeyTable database.signingKeys) {key : SigningKey}
    (inside : key ∈ database.signingKeys) (active : key.status = .active) :
    activeSigningKey database = some key := by
  cases found : activeSigningKey database with
  | none =>
    have unmatched := List.find?_eq_none.mp found key inside
    simp [active, (table.slots key inside).mp active] at unmatched
  | some other =>
    obtain ⟨present, current, -⟩ := active_signing_key_some found
    rw [table.single other present key inside current active]

@[simp] theorem retire_id (id : Nat) (key : SigningKey) : (retire database now id key).id = key.id := by
  rw [retire]
  split_ifs
  · rfl
  · rfl

@[simp] theorem retire_kid (id : Nat) (key : SigningKey) :
    (retire database now id key).kid = key.kid := by
  rw [retire]
  split_ifs
  · rfl
  · rfl

@[simp] theorem retire_public_jwk (id : Nat) (key : SigningKey) :
    (retire database now id key).publicJwk = key.publicJwk := by
  rw [retire]
  split_ifs
  · rfl
  · rfl

variable {id : Nat} {rotate : Bool} {publicJwk : PublicJwk}

theorem retire_slots {key : SigningKey} (slots : key.status = .active ↔ key.activeSlot = some 1) :
    (retire database now id key).status = .active ↔
      (retire database now id key).activeSlot = some 1 := by
  rw [retire]
  split_ifs
  · simp
  · exact slots

theorem retire_active_rows : ∃ change : SigningKey → SigningKey,
    retireActive database now = database.signingKeys.map change ∧
      ∀ key, change key = key ∨ ∃ id, change key = retire database now id key := by
  simp only [retireActive]
  split
  · exact ⟨fun key => key, (List.map_id _).symm, fun key => .inl rfl⟩
  · exact ⟨_, rfl, fun key => .inr ⟨_, rfl⟩⟩

theorem retire_active_columns :
    (retireActive database now).map SigningKey.id = database.signingKeys.map SigningKey.id ∧
      (retireActive database now).map SigningKey.kid = database.signingKeys.map SigningKey.kid := by
  obtain ⟨change, rows, either⟩ := @retire_active_rows database now
  rw [rows, List.map_map, List.map_map]
  constructor
  · refine List.map_congr_left fun key _ => ?_
    rcases either key with same | ⟨id, same⟩
    · simp [same]
    · simp [same]
  · refine List.map_congr_left fun key _ => ?_
    rcases either key with same | ⟨id, same⟩
    · simp [same]
    · simp [same]

theorem generate_key_ok (done : generateSigningKey database rotate now id publicJwk = .ok saved) :
    (∀ key ∈ retireActive database now, key.id ≠ id ∧ key.kid ≠ publicJwk.kid ∧
      key.activeSlot ≠ some 1) ∧
    saved = { database with
      signingKeys := retireActive database now ++
        [⟨id, publicJwk.kid, publicJwk, .active, some 1, now, none, none⟩] } := by
  simp only [generateSigningKey] at done
  split at done
  · simp at done
  split at done
  · simp at done
  split at done
  · simp at done
  rename_i new
  refine ⟨fun key inside => ⟨fun same => ?_, fun same => ?_, fun same => ?_⟩,
    (Except.ok.inj done).symm⟩
  · exact new (List.any_eq_true.mpr ⟨key, inside, by simp [same]⟩)
  · exact new (List.any_eq_true.mpr ⟨key, inside, by simp [same]⟩)
  · exact new (List.any_eq_true.mpr ⟨key, inside, by simp [same]⟩)

theorem generate_key_table (table : KeyTable database.signingKeys)
    (done : generateSigningKey database rotate now id publicJwk = .ok saved) :
    KeyTable saved.signingKeys := by
  obtain ⟨new, rfl⟩ := generate_key_ok done
  obtain ⟨numbers, kids⟩ := @retire_active_columns database now
  obtain ⟨change, rows, either⟩ := @retire_active_rows database now
  have slots : ∀ key ∈ retireActive database now, key.status = .active ↔ key.activeSlot = some 1 := by
    intro key inside
    obtain ⟨old, present, rfl⟩ := List.mem_map.mp (rows ▸ inside)
    rcases either old with same | ⟨id, same⟩
    · rw [same]
      exact table.slots old present
    · rw [same]
      exact retire_slots (table.slots old present)
  have inactive : ∀ key ∈ retireActive database now, key.status ≠ .active := by
    intro key inside active
    exact (new key inside).2.2 ((slots key inside).mp active)
  refine ⟨?_, ?_, ?_, ?_, ?_⟩
  · rw [List.map_append, numbers]
    refine List.nodup_append.mpr ⟨table.numbers, by simp, ?_⟩
    intro number inside other single
    rw [← numbers] at inside
    obtain ⟨key, present, rfl⟩ := List.mem_map.mp inside
    simp only [List.map_cons, List.map_nil, List.mem_singleton] at single
    exact single ▸ (new key present).1
  · rw [List.map_append, kids]
    refine List.nodup_append.mpr ⟨table.kids, by simp, ?_⟩
    intro kid inside other single
    rw [← kids] at inside
    obtain ⟨key, present, rfl⟩ := List.mem_map.mp inside
    simp only [List.map_cons, List.map_nil, List.mem_singleton] at single
    exact single ▸ (new key present).2.1
  · intro key inside
    rcases List.mem_append.mp inside with old | single
    · obtain ⟨before, present, rfl⟩ := List.mem_map.mp (rows ▸ old)
      have named := table.named before present
      rcases either before with same | ⟨id, same⟩
      · rw [same, named]
      · rw [same, retire_public_jwk, retire_kid, named]
    · obtain rfl := List.mem_singleton.mp single
      rfl
  · intro key inside
    rcases List.mem_append.mp inside with old | single
    · exact slots key old
    · obtain rfl := List.mem_singleton.mp single
      simp
  · intro first left second right firstActive secondActive
    rcases List.mem_append.mp left with old | single
    · exact absurd firstActive (inactive first old)
    rcases List.mem_append.mp right with old | other
    · exact absurd secondActive (inactive second old)
    rw [List.mem_singleton.mp single, List.mem_singleton.mp other]

/-- Rotation keeps the key of a token that has not expired: its deadline is at least a token
lifetime away. -/
theorem generate_key_signed {payload : TokenPayload} {key : SigningKey}
    (table : KeyTable database.signingKeys)
    (overlap : 300 ≤ database.provider.signingKeyOverlapSeconds)
    (bounded : payload.exp ≤ epochSeconds now + OIDC_TOKEN_LIFETIME_SECONDS)
    (done : generateSigningKey database rotate now id publicJwk = .ok saved)
    (signed : SignedBy database.signingKeys payload key) :
    ∃ key, SignedBy saved.signingKeys payload key := by
  obtain ⟨-, rfl⟩ := generate_key_ok done
  obtain ⟨inside, kid, active | ⟨retired, published⟩⟩ := signed
  · have rows : retireActive database now =
        database.signingKeys.map (retire database now key.id) := by
      rw [retireActive, active_signing_key_of_active table inside active]
    refine ⟨retire database now key.id key, List.mem_append_left _ ?_, by simpa using kid, .inr ?_⟩
    · rw [rows]
      exact List.mem_map_of_mem inside
    · rw [retire, if_pos rfl]
      refine ⟨rfl, _, rfl, ?_⟩
      have enough : 300 ≤ overlapSeconds database := le_trans overlap (le_max_left _ _)
      simp only [epochSeconds, OIDC_TOKEN_LIFETIME_SECONDS] at bounded
      simp only [addSeconds]
      omega
  · refine ⟨key, List.mem_append_left _ ?_, kid, .inr ⟨retired, published⟩⟩
    cases found : activeSigningKey database with
    | none => simpa only [retireActive, found] using inside
    | some previous =>
      obtain ⟨present, current, -⟩ := active_signing_key_some found
      simp only [retireActive, found]
      refine List.mem_map.mpr ⟨key, inside, ?_⟩
      rw [retire, if_neg]
      intro same
      rw [eq_of_number table inside present same, current] at retired
      simp at retired

theorem delete_key_ok (done : deleteRetiredSigningKey database id now = .ok saved) :
    ∃ key ∈ database.signingKeys, key.id = id ∧ key.status ≠ .active ∧
      (∃ moment, key.publishUntil = some moment ∧ moment ≤ now) ∧
      saved = { database with signingKeys := database.signingKeys.filter fun key => key.id ≠ id } := by
  simp only [deleteRetiredSigningKey] at done
  split at done
  · simp at done
  rename_i key found
  split at done
  · simp at done
  rename_i stays
  split at done
  · simp at done
  rename_i moment until_
  split at done
  · simp at done
  rename_i expired
  rw [not_or] at stays
  exact ⟨key, List.mem_of_find?_eq_some found, by simpa using List.find?_some found, stays.1,
    ⟨moment, until_, Nat.not_lt.mp expired⟩, (Except.ok.inj done).symm⟩

theorem delete_key_table (table : KeyTable database.signingKeys)
    (done : deleteRetiredSigningKey database id now = .ok saved) : KeyTable saved.signingKeys := by
  obtain ⟨key, -, -, -, -, rfl⟩ := delete_key_ok done
  refine ⟨(List.filter_sublist.map _).nodup table.numbers,
    (List.filter_sublist.map _).nodup table.kids,
    fun key inside => table.named key (List.mem_filter.mp inside).1,
    fun key inside => table.slots key (List.mem_filter.mp inside).1, ?_⟩
  intro first left second right
  exact table.single first (List.mem_filter.mp left).1 second (List.mem_filter.mp right).1

theorem delete_key_signed {payload : TokenPayload} {key : SigningKey}
    (table : KeyTable database.signingKeys) (fresh : epochSeconds now < payload.exp)
    (done : deleteRetiredSigningKey database id now = .ok saved)
    (signed : SignedBy database.signingKeys payload key) :
    SignedBy saved.signingKeys payload key := by
  obtain ⟨gone, present, rfl, inactive, ⟨deadline, ends, expired⟩, rfl⟩ := delete_key_ok done
  obtain ⟨inside, kid, stays⟩ := signed
  refine ⟨List.mem_filter.mpr ⟨inside, ?_⟩, kid, stays⟩
  rw [decide_eq_true_eq]
  intro same
  obtain rfl := eq_of_number table inside present same
  rcases stays with active | ⟨-, moment, published, covers⟩
  · exact inactive active
  · obtain rfl : deadline = moment := Option.some.inj (ends.symm.trans published)
    simp only [epochSeconds] at fresh
    omega

end Keys

section Runs

variable {services : Services} {system after : System} {history facts : List Fact}

theorem active_signing_key_view {organization : Option Organization} {database : Database} :
    activeSigningKey (sessionView organization database) = activeSigningKey database := by
  cases organization with
  | none => rfl
  | some row => rfl

theorem exchange_signed {provider : Provider} {request : TokenRequest} {form : TokenForm}
    {payload : TokenPayload} {now : Nat} {database saved : Database}
    (done : redeemAndIssue services now database provider request form = .ok (payload, saved)) :
    payload.exp = epochSeconds now + OIDC_TOKEN_LIFETIME_SECONDS ∧
      ∃ key, SignedBy database.signingKeys payload key := by
  obtain ⟨code, redeemed, issued⟩ := redeem_and_issue_ok done
  obtain ⟨-, -, -, -, rfl⟩ := redeem_ok redeemed
  obtain ⟨subject, identity, -, -, kid, -, -, -, -, -, lifetime⟩ := issue_tokens_ok issued
  refine ⟨lifetime, ?_⟩
  rw [signingKid, active_signing_key_view] at kid
  split at kid
  · rename_i key found
    obtain ⟨inside, active, -⟩ := active_signing_key_some found
    exact ⟨key, inside, Except.ok.inj kid, .inl active⟩
  · simp at kid

theorem seconds_mono {earlier later : Nat} (order : earlier ≤ later) :
    epochSeconds earlier ≤ epochSeconds later :=
  Nat.div_le_div_right order

theorem moves_continuous {draws : Option Draws} (before : Continuous (system, history))
    (moves : Moves services system draws after facts) : Continuous (after, history ++ facts) := by
  have settings := moves_configuration moves
  have later := seconds_mono (moves_later moves)
  have same : after.database.signingKeys = system.database.signingKeys := by rw [settings]
  have provided : after.database.provider = system.database.provider := by rw [settings]
  refine ⟨by rw [provided]; exact before.overlap, by rw [same]; exact before.keys, ?_, ?_⟩
  · intro exchange fact
    rcases List.mem_append.mp fact with old | new
    · exact le_trans (before.bounded exchange old) (Nat.add_le_add_right later _)
    · obtain ⟨-, -, moment, -, provider, done⟩ := moves_exchanged moves new
      rw [(exchange_signed done).1, moment]
  · intro exchange fact fresh
    rw [same]
    rcases List.mem_append.mp fact with old | new
    · exact before.signed exchange old (lt_of_le_of_lt later fresh)
    · obtain ⟨-, -, -, -, provider, done⟩ := moves_exchanged moves new
      exact (exchange_signed done).2

theorem administer_continuous {action : Action} {saved : Database}
    (before : Continuous (system, history))
    (writes : Writes services system.now system.database action saved) :
    Continuous ({ system with database := saved }, history) := by
  cases writes with
  | elsewhere untouched =>
    refine ⟨by rw [untouched.provider]; exact before.overlap,
      by rw [untouched.keys]; exact before.keys, before.bounded, ?_⟩
    rw [untouched.keys]
    exact before.signed
  | settings overlap => exact ⟨overlap, before.keys, before.bounded, before.signed⟩
  | keyGenerated done =>
    refine ⟨?_, generate_key_table before.keys done, before.bounded, ?_⟩
    · obtain ⟨-, rfl⟩ := generate_key_ok done
      exact before.overlap
    · intro exchange fact fresh
      obtain ⟨key, signed⟩ := before.signed exchange fact fresh
      exact generate_key_signed before.keys before.overlap (before.bounded exchange fact) done
        signed
  | keyDeleted done =>
    refine ⟨?_, delete_key_table before.keys done, before.bounded, ?_⟩
    · obtain ⟨-, -, -, -, -, rfl⟩ := delete_key_ok done
      exact before.overlap
    · intro exchange fact fresh
      obtain ⟨key, signed⟩ := before.signed exchange fact fresh
      exact ⟨key, delete_key_signed before.keys fresh done signed⟩
  | clientCreated new => exact ⟨before.overlap, before.keys, before.bounded, before.signed⟩
  | clientUpdated normalized => exact ⟨before.overlap, before.keys, before.bounded, before.signed⟩
  | secretRotated => exact ⟨before.overlap, before.keys, before.bounded, before.signed⟩
  | clientSwitched => exact ⟨before.overlap, before.keys, before.bounded, before.signed⟩
  | clientDeleted => exact ⟨before.overlap, before.keys, before.bounded, before.signed⟩
  | organizationCreated new => exact ⟨before.overlap, before.keys, before.bounded, before.signed⟩
  | organizationUpdated => exact ⟨before.overlap, before.keys, before.bounded, before.signed⟩
  | organizationDeleted untouched organizations unbound =>
    have provider := untouched.provider
    have keys := untouched.keys
    dsimp only at provider keys
    refine ⟨by rw [provider]; exact before.overlap, by rw [keys]; exact before.keys,
      before.bounded, ?_⟩
    rw [keys]
    exact before.signed

theorem step_continuous (event : Event) (before : Continuous (system, history)) :
    Continuous ((step services system event).1, history ++ (step services system event).2) := by
  by_cases administrative : Administrative event
  · cases event with
    | administer action =>
      simp only [step, List.append_nil]
      cases outcome : administer services system.now system.database action with
      | ok saved => exact administer_continuous before (administer_writes outcome)
      | error raised => exact before
    | _ => exact absurd administrative id
  · exact moves_continuous before (step_moves administrative)

theorem fresh_continuous : Continuous (freshSystem emptyDatabase, []) := by
  refine ⟨by decide, ⟨List.nodup_nil, List.nodup_nil, ?_, ?_, ?_⟩, ?_, ?_⟩
  · intro key inside
    simp [freshSystem, emptyDatabase] at inside
  · intro key inside
    simp [freshSystem, emptyDatabase] at inside
  · intro first left
    simp [freshSystem, emptyDatabase] at left
  · intro exchange fact
    simp at fact
  · intro exchange fact
    simp at fact

theorem run_continuous (events : List Event) :
    Continuous (runEvents services (freshSystem emptyDatabase, []) events) :=
  run_invariant (fun _ event before => step_continuous event before) fresh_continuous events

end Runs

/-! ### Publication -/

section Publication

variable {services : Services} {database : Database} {now : Nat} {payload : TokenPayload}
  {key : SigningKey}

theorem signed_publishes (fresh : epochSeconds now < payload.exp)
    (signed : SignedBy database.signingKeys payload key) : publishes now key = true := by
  obtain ⟨-, -, active | ⟨retired, moment, published, covers⟩⟩ := signed
  · simp [publishes, active]
  · simp only [epochSeconds] at fresh
    have before : now < moment := by omega
    simp [publishes, retired, published, before]

theorem bearer_key_signed (table : KeyTable database.signingKeys)
    (fresh : epochSeconds now < payload.exp) (signed : SignedBy database.signingKeys payload key) :
    bearerKey database now payload.kid = .ok key := by
  have published := signed_publishes fresh signed
  obtain ⟨inside, kid, -⟩ := signed
  rw [bearerKey]
  cases found : database.signingKeys.find? fun key => key.kid = payload.kid with
  | none =>
    have unmatched := List.find?_eq_none.mp found key inside
    simp [kid] at unmatched
  | some other =>
    have same : other.kid = payload.kid := by simpa using List.find?_some found
    obtain rfl := List.inj_on_of_nodup_map table.kids (List.mem_of_find?_eq_some found) inside
      (same.trans kid.symm)
    simp [published]

theorem jwks_document_signed (ready : protocolProvider services database database.provider = .ok ())
    (fresh : epochSeconds now < payload.exp) (signed : SignedBy database.signingKeys payload key) :
    ∃ document, jwksDocument services database now = .ok document ∧ key.publicJwk ∈ document := by
  simp only [jwksDocument, ready, Library.Outcomes.ok_bind]
  refine ⟨_, rfl, List.mem_map_of_mem (List.mem_filter.mpr ⟨?_, signed_publishes fresh signed⟩)⟩
  rw [List.mem_insertionSort]
  exact signed.1

/-- In every run at most one key is active, and a token that has not expired was signed by a
key of the table that the bearer check accepts and that the key document publishes whenever
the provider answers protocol requests at all. -/
theorem tokens_keep_their_keys (services : Services) (events : List Event) :
    let state := runEvents services (freshSystem emptyDatabase, []) events
    let database := state.1.database
    (∀ first ∈ database.signingKeys, ∀ second ∈ database.signingKeys,
      first.status = .active → second.status = .active → first = second) ∧
    ∀ exchange, .exchanged exchange ∈ state.2 →
      epochSeconds state.1.now < exchange.payload.exp →
      ∃ key ∈ database.signingKeys, key.kid = exchange.payload.kid ∧
        bearerKey database state.1.now exchange.payload.kid = .ok key ∧
        (protocolProvider services database database.provider = .ok () →
          ∃ document, jwksDocument services database state.1.now = .ok document ∧
            key.publicJwk ∈ document ∧ key.publicJwk.kid = exchange.payload.kid) := by
  intro state database
  have continuous : Continuous state := run_continuous events
  refine ⟨continuous.keys.single, ?_⟩
  intro exchange fact fresh
  obtain ⟨key, signed⟩ := continuous.signed exchange fact fresh
  have inside : key ∈ database.signingKeys := signed.1
  have kid := signed.2.1
  refine ⟨key, inside, kid, bearer_key_signed continuous.keys fresh signed, fun ready => ?_⟩
  obtain ⟨document, answered, listed⟩ := jwks_document_signed ready fresh signed
  exact ⟨document, answered, listed, (continuous.keys.named key inside).trans kid⟩

end Publication

theorem sample_token_keeps_its_key :
    let state := runEvents sampleServices (freshSystem emptyDatabase, []) sampleFlow
    ∃ key ∈ state.1.database.signingKeys, key.kid = "first" ∧
      ∃ document, jwksDocument sampleServices state.1.database state.1.now = .ok document ∧
        key.publicJwk ∈ document := by
  intro state
  obtain ⟨key, inside, kid, -, published⟩ :=
    (tokens_keep_their_keys sampleServices sampleFlow).2 sampleExchange (by decide +kernel)
      (by decide +kernel)
  obtain ⟨document, answered, listed, -⟩ := published (by decide +kernel)
  exact ⟨key, inside, kid, document, answered, listed⟩

/-- A disabled provider answers no protocol request: the key of a token that was just issued
stays in the table and is published nowhere. -/
theorem disabled_provider_publishes_nothing :
    let state := runEvents sampleServices (freshSystem emptyDatabase, [])
      (sampleFlow ++ [.administer (.updateProvider defaultProvider)])
    (∃ exchange, .exchanged exchange ∈ state.2 ∧
      epochSeconds state.1.now < exchange.payload.exp ∧
      clientByPublicId state.1.database exchange.payload.aud = some exchange.request.client) ∧
    jwksDocument sampleServices state.1.database state.1.now =
      .error (.configuration "OIDC provider is disabled.") :=
  ⟨⟨sampleExchange, by decide +kernel, by decide +kernel, by decide +kernel⟩, by decide +kernel⟩

end Atlaso.Oidc.KeyContinuity
