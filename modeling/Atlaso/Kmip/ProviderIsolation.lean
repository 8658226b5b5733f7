import Atlaso.Kmip.BatchDispatch

/-!
What a KMIP client can do to the keys of other providers, and what it can learn of them, over
everything that its connection may send.
-/

namespace Atlaso.Kmip.ProviderIsolation

open BatchDispatch CommitProtocol Connections Exceptions Identifiers Library Outcomes
open SortedTables StoreDocuments StoreFiles StoreHistories StoreKeys StoreOperations
open StoredRows

def own (provider : String) (tables : Tables) : List WrappedRow :=
  tables.keys.filter fun row => row.providerId = provider

def others (provider : String) (tables : Tables) : List WrappedRow :=
  tables.keys.filter fun row => row.providerId ≠ provider

variable {provider providerId keyId : String} {tables other later : Tables}

/-! ### Rows -/

theorem insert_key_others {row : WrappedRow} (fits : row.providerId = provider)
    (insertion : tables.insertKey row = .ok later) :
    others provider later = others provider tables := by
  obtain ⟨-, -, -, keys⟩ := insert_key_ok insertion
  unfold others
  rw [keys]
  exact filter_insert_row_other (by simp [fits])

theorem insert_key_own {row : WrappedRow} (fits : row.providerId = provider)
    (same : own provider tables = own provider other) :
    (tables.insertKey row).map (own provider) = (other.insertKey row).map (own provider) := by
  have mine (tables : Tables) : (∀ found ∈ own provider tables, found.key ≠ row.key) ↔
      ∀ found ∈ tables.keys, found.key ≠ row.key := by
    simp only [own, List.mem_filter, decide_eq_true_eq, and_imp]
    constructor
    · intro absent found inside sameKey
      have owner : found.providerId = row.providerId :=
        congrArg (fun key => (ofLex key).1) sameKey
      exact absent found inside (owner.trans fits) sameKey
    · intro absent found inside _
      exact absent found inside
  have agree : (∀ found ∈ tables.keys, found.key ≠ row.key) ↔
      ∀ found ∈ other.keys, found.key ≠ row.key := by
    rw [← mine, ← mine, same]
  unfold Tables.insertKey
  split_ifs with checks absent absentOther
  · rfl
  · simp only [Except.map]
    congr 1
    have kept : decide (row.providerId = provider) = true := decide_eq_true fits
    unfold own at same ⊢
    rw [filter_insert_row tables.keysSorted kept, filter_insert_row other.keysSorted kept, same]
  · exact absurd (agree.mp absent) absentOther
  · exact absurd (agree.mpr ‹_›) absent
  · rfl

/-- The UPDATE changes only rows of its provider. -/
theorem activate_rows_filter (keep : WrappedRow → Bool) (activation : Activation)
    (ownership : ∀ row : WrappedRow, ∀ other : WrappedRow,
      other.providerId = row.providerId → keep other = keep row) :
    (tables.activateRows provider keyId activation).keys.filter keep =
      (tables.keys.filter keep).map fun row =>
        if activates provider keyId row then activation.apply row else row := by
  unfold Tables.activateRows
  rw [List.filter_map]
  congr 1
  apply List.filter_congr
  intro row _
  apply ownership
  dsimp only
  split <;> rfl

theorem activate_rows_others (activation : Activation) :
    others provider (tables.activateRows provider keyId activation) = others provider tables := by
  unfold others
  rw [activate_rows_filter _ activation fun row other same => by rw [same]]
  conv_rhs => rw [← List.map_id (List.filter _ _)]
  apply List.map_congr_left
  intro row inside
  have different := (List.mem_filter.mp inside).2
  rw [decide_eq_true_eq] at different
  simp [activates, different]

theorem activate_rows_own (activation : Activation)
    (same : own provider tables = own provider other) :
    own provider (tables.activateRows provider keyId activation) =
      own provider (other.activateRows provider keyId activation) := by
  unfold own at same ⊢
  rw [activate_rows_filter _ activation fun row other same => by rw [same],
    activate_rows_filter _ activation fun row other same => by rw [same], same]

theorem count_own (keep : WrappedRow → Bool)
    (owned : ∀ row, keep row = true → row.providerId = provider) :
    tables.keys.countP keep = (own provider tables).countP keep := by
  unfold own
  rw [List.countP_filter]
  apply List.countP_congr
  intro row _
  simp only [Bool.and_eq_true, decide_eq_true_eq]
  exact ⟨fun kept => ⟨kept, owned row kept⟩, And.left⟩

theorem filter_own (keep : WrappedRow → Bool)
    (owned : ∀ row, keep row = true → row.providerId = provider) :
    tables.keys.filter keep = (own provider tables).filter keep := by
  unfold own
  rw [List.filter_filter]
  apply List.filter_congr
  intro row _
  rw [Bool.eq_iff_iff, Bool.and_eq_true, decide_eq_true_eq]
  exact ⟨fun kept => ⟨kept, owned row kept⟩, And.left⟩

/-! ### Plans -/

/-- The answer of a plan, and the rows of the provider that it leaves. -/
def seen (provider : String) (plan : Plan) : Answer × Option (List WrappedRow) :=
  (plan.answer, plan.mutation.map (own provider))

section Plans

variable {crypto : Crypto} {kek : Bytes} {draws : Draws}
  (validated : validatedUuid providerId "provider_id" = .ok provider)
include validated

theorem read_plan_own (same : own provider tables = own provider other) :
    readPlan crypto kek tables providerId keyId = readPlan crypto kek other providerId keyId := by
  have found (key : String) (tables : Tables) :
      findRow WrappedRow.key (toLex (provider, key)) tables.keys =
        findRow WrappedRow.key (toLex (provider, key)) (own provider tables) := by
    apply Eq.symm
    apply find_row_filter
    intro row sameKey
    exact decide_eq_true (congrArg (fun key => (ofLex key).1) sameKey)
  simp only [readPlan, findKeyRow, validated, ok_bind, found, same]

theorem read_plan_provider {metadata : StoredKey} {material : Bytes}
    (read : readPlan crypto kek tables providerId keyId = .ok (metadata, material)) :
    metadata.providerId = provider := by
  simp only [readPlan, findKeyRow, validated, ok_bind] at read
  obtain ⟨row, found, decrypted⟩ := bind_ok_iff.mp read
  obtain ⟨key, -, found⟩ := bind_ok_iff.mp found
  obtain ⟨attributes, -, rfl⟩ := row_metadata_fields (decrypt_row_fields decrypted).1
  cases located : findRow WrappedRow.key (toLex (provider, key)) tables.keys with
  | none =>
    rw [located] at found
    cases found
  | some held =>
    rw [located] at found
    cases found
    exact congrArg (fun key => (ofLex key).1)
      ((find_row_some_iff tables.keysSorted).mp located).2

/-- A plan depends on the rows of its provider only. -/
theorem plan_own {operation : Operation} (owned : owner operation = some providerId)
    (same : own provider tables = own provider other) :
    (operation.plan crypto kek draws tables).map (seen provider) =
      (operation.plan crypto kek draws other).map (seen provider) := by
  cases operation with
  | create given name attributes =>
    cases owned
    simp only [Operation.plan, createPlan, validated, ok_bind]
    cases validatedCustomAttributes (textMembers attributes) with
    | error raised => rfl
    | ok checked =>
      cases validateName name with
      | error raised => rfl
      | ok _ =>
        simp only [ok_bind]
        have inserted := @insert_key_own provider tables other
          (wrappedRow crypto kek draws (newMetadata draws provider name checked)) rfl same
        have plans (tables : Tables) (row : WrappedRow) (metadata : StoredKey) :
            (tables.insertKey row >>= fun inserted =>
              (pure ⟨.metadata metadata, some inserted⟩ : Except Raised Plan)).map (seen provider) =
                ((tables.insertKey row).map (own provider)).map fun rows =>
                  (.metadata metadata, some rows) := by
          cases tables.insertKey row <;> rfl
        simp only [plans, inserted]
  | activate given key =>
    cases owned
    simp only [Operation.plan, read_plan_own validated same]
    cases read : readPlan crypto kek other providerId key with
    | error raised => rfl
    | ok found =>
      obtain ⟨metadata, material⟩ := found
      have provided := read_plan_provider validated read
      simp only [ok_bind, activationPlan, provided]
      rw [count_own (activates provider metadata.keyId) fun row chosen => by
          simp only [activates, Bool.and_eq_true, decide_eq_true_eq] at chosen
          exact chosen.1.1, same,
        ← count_own (activates provider metadata.keyId) fun row chosen => by
          simp only [activates, Bool.and_eq_true, decide_eq_true_eq] at chosen
          exact chosen.1.1]
      split_ifs
      · rfl
      · rfl
      · rfl
      · simp only [Except.map, seen, Option.map_some, activate_rows_own _ same]
  | getKey given key =>
    cases owned
    simp only [Operation.plan, read_plan_own validated same]
  | getMetadata given key =>
    cases owned
    simp only [Operation.plan, read_plan_own validated same]
  | locate given state name limit =>
    cases owned
    have ids : locatedIds tables provider state name limit =
        locatedIds other provider state name limit := by
      have chosen (row : WrappedRow) (kept : located provider state name row = true) :
          row.providerId = provider := by
        simp only [located, Bool.and_eq_true, decide_eq_true_eq] at kept
        exact kept.1.1
      unfold locatedIds
      rw [filter_own _ chosen, same, ← filter_own _ chosen]
    simp only [Operation.plan, validated, ok_bind, ids]
  | lifecycleCounts providers => cases owned

/-- A planned mutation leaves the rows of other providers. -/
theorem plan_others {operation : Operation} {answer : Answer}
    (owned : owner operation = some providerId)
    (planned : operation.plan crypto kek draws tables = .ok ⟨answer, some later⟩) :
    others provider later = others provider tables := by
  cases operation with
  | create given name attributes =>
    cases owned
    simp only [Operation.plan, createPlan, validated, ok_bind, bind_ok_iff] at planned
    obtain ⟨checked, -, -, -, inserted, insertion, result⟩ := planned
    cases result
    exact insert_key_others rfl insertion
  | activate given key =>
    cases owned
    obtain ⟨⟨metadata, material⟩, read, activated⟩ := bind_ok_iff.mp planned
    have provided := read_plan_provider validated read
    simp only [activationPlan, provided] at activated
    split_ifs at activated
    · cases activated
    · cases activated
      exact activate_rows_others _
  | getKey given key =>
    obtain ⟨found, -, result⟩ := bind_ok_iff.mp planned
    cases result
  | getMetadata given key =>
    obtain ⟨found, -, result⟩ := bind_ok_iff.mp planned
    cases result
  | locate given state name limit =>
    simp only [Operation.plan, bind_ok_iff] at planned
    obtain ⟨_, -, _, -, _, -, _, -, result⟩ := planned
    cases result
  | lifecycleCounts providers => cases owned

end Plans

/-! ### Connections -/

/-- What a daemon finds: the random bytes and the instants of each call, and its clock. -/
structure Surroundings where
  draws : Nat → Draws
  clock : Nat → Int

/-- The store, and the calls so far. -/
structure Daemon where
  store : Store
  calls : Nat

def service (crypto : Crypto) (surroundings : Surroundings) : Service Daemon where
  call daemon operation :=
    let ended := daemon.store.call crypto operation (surroundings.draws daemon.calls)
    (ended.1, ⟨ended.2, daemon.calls + 1⟩)
  time daemon := surroundings.clock daemon.calls

/-- A connection of the provider that sends the segments. -/
def connection (crypto : Crypto) (surroundings : Surroundings) (maxRequestBytes passes : Nat)
    (providerId : String) (daemon : Daemon) (segments : Segments) : Served Daemon :=
  handle receiveExact (dispatch (service crypto surroundings) providerId) maxRequestBytes passes
    daemon segments

section Calls

variable {site : Installation} {store second : Store} {generation number : Nat}
  (authentic : site.crypto.Authentic) (hash : site.crypto.CollisionFree)
  (ready : Ready site store.session store.disk tables generation)
  (validated : validatedUuid providerId "provider_id" = .ok provider)
  {operation : Operation} (owned : owner operation = some providerId) (draws : Draws)
include authentic hash ready validated owned

theorem call_others : ∃ later number,
    Ready site (store.call site.crypto operation draws).2.session
      (store.call site.crypto operation draws).2.disk later number ∧
        others provider later = others provider tables := by
  obtain ⟨later, number, readyLater, ⟨rfl, -⟩ | ⟨answer, planned⟩⟩ :=
    call_ready authentic hash ready operation draws
  · exact ⟨later, number, readyLater, rfl⟩
  · exact ⟨later, number, readyLater, plan_others validated owned planned⟩

theorem call_own (readySecond : Ready site second.session second.disk other number)
    (same : own provider tables = own provider other) :
    (store.call site.crypto operation draws).1 = (second.call site.crypto operation draws).1 ∧
      ∃ later generation rows number,
        Ready site (store.call site.crypto operation draws).2.session
          (store.call site.crypto operation draws).2.disk later generation ∧
        Ready site (second.call site.crypto operation draws).2.session
          (second.call site.crypto operation draws).2.disk rows number ∧
        own provider later = own provider rows := by
  have plans := @plan_own _ _ _ _ site.crypto site.kek draws validated operation owned same
  have answers := congrArg (Except.map Prod.fst) plans
  rw [call_answers authentic hash ready, call_answers authentic hash readySecond]
  obtain ⟨later, generation, readyLater, left⟩ := call_ready authentic hash ready operation draws
  obtain ⟨rows, number, readyRows, right⟩ := call_ready authentic hash readySecond operation draws
  refine ⟨?_, later, generation, rows, number, readyLater, readyRows, ?_⟩
  · revert answers
    cases operation.plan site.crypto site.kek draws tables <;>
      cases operation.plan site.crypto site.kek draws other <;> exact id
  · rcases left with ⟨rfl, unplanned⟩ | ⟨answer, planned⟩
    · rcases right with ⟨rfl, -⟩ | ⟨answer, planned⟩
      · exact same
      · rw [planned] at plans
        cases found : operation.plan site.crypto site.kek draws later with
        | error raised =>
          rw [found] at plans
          cases plans
        | ok plan =>
          obtain ⟨given, _ | mutated⟩ := plan
          · rw [found] at plans
            cases plans
          · exact absurd found (unplanned given mutated)
    · rw [planned] at plans
      rcases right with ⟨rfl, unplanned⟩ | ⟨given, found⟩
      · cases found : operation.plan site.crypto site.kek draws rows with
        | error raised =>
          rw [found] at plans
          cases plans
        | ok plan =>
          obtain ⟨given, _ | mutated⟩ := plan
          · rw [found] at plans
            cases plans
          · exact absurd found (unplanned given mutated)
      · rw [found] at plans
        simp only [Except.map, seen, Option.map_some, Except.ok.injEq, Prod.mk.injEq,
          Option.some.injEq] at plans
        exact plans.2

end Calls

section Connections

variable {crypto : Crypto} (authentic : crypto.Authentic) (hash : crypto.CollisionFree)
  (bound : crypto.KeyBound) {secretsKey : String} {initial : Disk} {opened : Store}
  (opens : Opens crypto secretsKey initial opened)
  (validated : validatedUuid providerId "provider_id" = .ok provider)
include authentic hash bound opens validated

/-- A connection leaves the rows of other providers, whatever it sends to a store at any point
of its runs, and the store at a further point of them. -/
theorem connection_keeps_others {daemon : Daemon}
    (before : StoreRun crypto secretsKey opened daemon.store) (surroundings : Surroundings)
    (maxRequestBytes passes : Nat) (segments : Segments) :
    let after := (connection crypto surroundings maxRequestBytes passes providerId daemon
      segments).state
    ∃ tables later : Tables, daemon.store.disk.database = some tables.database ∧
      after.store.disk.database = some later.database ∧
        others provider later = others provider tables ∧
          StoreRun crypto secretsKey daemon.store after.store := by
  obtain ⟨site, start, rfl, rfl, keyed, readyStart⟩ := opens_ready authentic hash opens
  obtain ⟨tables, generation, ready, -⟩ := run_kept authentic hash bound keyed readyStart before
  obtain ⟨_, recoverable⟩ := ready.recoverable
  let reached (one two : Daemon) : Prop := one = two ∧
    StoreRun site.crypto site.secretsKey daemon.store two.store ∧ ∃ later number,
      Ready site two.store.session two.store.disk later number ∧
        others provider later = others provider tables
  have bisimilar : Bisimilar reached providerId (service site.crypto surroundings)
      (service site.crypto surroundings) := by
    constructor
    · rintro one _ operation ⟨rfl, run, later, number, readyLater, kept⟩ owned
      obtain ⟨rows, last, readyRows, same⟩ := call_others authentic hash readyLater validated owned
        (surroundings.draws one.calls)
      exact ⟨rfl, rfl, run.tail (.call _ _ _), rows, last, readyRows, same.trans kept⟩
    · rintro one _ ⟨rfl, -⟩
      rfl
  obtain ⟨-, -, -, run, later, number, readyLater, kept⟩ := handle_alike bisimilar passes
    (⟨rfl, .refl, tables, generation, ready, rfl⟩ : reached daemon daemon) segments
  obtain ⟨_, recoverableLater⟩ := readyLater.recoverable
  exact ⟨tables, later, recoverable.database, recoverableLater.database, kept, run⟩

/-- A connection cannot tell apart two pasts of the store that agree on the keys of its
provider: it gets the same answers, ends alike, and leaves the same keys of the provider. -/
theorem connection_blind {first second : Daemon}
    (before : StoreRun crypto secretsKey opened first.store)
    (beforeSecond : StoreRun crypto secretsKey opened second.store)
    (calls : first.calls = second.calls) {tables rows : Tables}
    (holds : first.store.disk.database = some tables.database)
    (holdsSecond : second.store.disk.database = some rows.database)
    (same : own provider tables = own provider rows) (surroundings : Surroundings)
    (maxRequestBytes passes : Nat) (segments : Segments) :
    let served := connection crypto surroundings maxRequestBytes passes providerId first segments
    let other := connection crypto surroundings maxRequestBytes passes providerId second segments
    served.answers = other.answers ∧ served.raised = other.raised ∧
      ∃ later last : Tables, served.state.store.disk.database = some later.database ∧
        other.state.store.disk.database = some last.database ∧
          own provider later = own provider last := by
  obtain ⟨site, start, rfl, rfl, keyed, readyStart⟩ := opens_ready authentic hash opens
  obtain ⟨found, generation, ready, -⟩ := run_kept authentic hash bound keyed readyStart before
  obtain ⟨foundSecond, number, readySecond, -⟩ :=
    run_kept authentic hash bound keyed readyStart beforeSecond
  have database {store : Store} {tables : Tables} {generation : Nat}
      (ready : Ready site store.session store.disk tables generation) :
      store.disk.database = some tables.database := ready.recoverable.choose_spec.database
  obtain rfl : found = tables :=
    tables_database_injective (Option.some.inj ((database ready).symm.trans holds))
  obtain rfl : foundSecond = rows :=
    tables_database_injective (Option.some.inj ((database readySecond).symm.trans holdsSecond))
  let agree (one two : Daemon) : Prop := one.calls = two.calls ∧ ∃ tables generation rows number,
    Ready site one.store.session one.store.disk tables generation ∧
      Ready site two.store.session two.store.disk rows number ∧
        own provider tables = own provider rows
  have bisimilar : Bisimilar agree providerId (service site.crypto surroundings)
      (service site.crypto surroundings) := by
    constructor
    · rintro one two operation ⟨calls, tables, generation, rows, number, left, right, same⟩ owned
      obtain ⟨answers, kept⟩ := call_own authentic hash left validated owned
        (surroundings.draws one.calls) right same
      refine ⟨?_, congrArg (· + 1) calls, ?_⟩
      · simpa only [service, ← calls] using answers
      · simpa only [service, ← calls] using kept
    · rintro one two ⟨calls, -⟩
      exact congrArg surroundings.clock calls
  obtain ⟨answers, raised, -, later, _, last, _, left, right, kept⟩ := handle_alike bisimilar passes
    (⟨calls, found, generation, foundSecond, number, ready, readySecond, same⟩ :
      agree first second) segments
  exact ⟨answers, raised, later, last, database left, database right, kept⟩

end Connections

/-! ### A second provider beside the one with a key -/

def strangerProvider : String := Uuid.text ⟨3, by decide⟩

theorem stranger_apart : strangerProvider ≠ sampleProvider := by
  intro same
  have read := congrArg uuidOfText same
  unfold strangerProvider sampleProvider at read
  rw [uuid_of_text_text, uuid_of_text_text] at read
  cases read

theorem own_of_others {stranger : String} (apart : stranger ≠ provider) :
    own stranger tables = (others provider tables).filter fun row => row.providerId = stranger := by
  unfold own others
  rw [List.filter_filter]
  apply List.filter_congr
  intro row _
  by_cases same : row.providerId = stranger
  · simp [same, apart]
  · simp [same]

theorem stranger_validated :
    validatedUuid strangerProvider "provider_id" = .ok strangerProvider :=
  validated_uuid_text _ _

def sampleSurroundings : Surroundings := ⟨fun _ => sampleKey, fun _ => 0⟩

theorem sample_others_kept : ∃ (daemon : Daemon) (later : Tables),
    (connection Crypto.transparent sampleSurroundings 64 128 strangerProvider daemon
      [[0x42, 0], [0x78, 1, 0, 0, 0, 0]]).state.store.disk.database = some later.database ∧
        others strangerProvider later = [sampleRow] := by
  obtain ⟨store, tables, generation, ⟨initial, opened, opens, -, run⟩, ready, keys⟩ := sample_grown
  obtain ⟨_, recoverable⟩ := ready.recoverable
  have before : StoreRun Crypto.transparent "secret" opened (Daemon.mk store 0).store := run
  obtain ⟨found, later, holds, holdsLater, kept, -⟩ := connection_keeps_others transparent_authentic
    transparent_collision_free transparent_key_bound opens stranger_validated before
    sampleSurroundings 64 128 [[0x42, 0], [0x78, 1, 0, 0, 0, 0]]
  obtain rfl : found = tables :=
    tables_database_injective (Option.some.inj (holds.symm.trans recoverable.database))
  refine ⟨⟨store, 0⟩, later, holdsLater, kept.trans ?_⟩
  have apart : sampleRow.providerId ≠ strangerProvider := stranger_apart.symm
  simp [others, keys, apart]

/-- The provider with a key creates a second one, and the other provider cannot tell. -/
theorem sample_blind : ∃ (first second : Daemon) (tables rows : Tables),
    first.store.disk.database = some tables.database ∧
      second.store.disk.database = some rows.database ∧
        (connection Crypto.transparent sampleSurroundings 64 128 strangerProvider first
          [[0x42, 0], [0x78, 1, 0, 0, 0, 0]]).answers =
        (connection Crypto.transparent sampleSurroundings 64 128 strangerProvider second
          [[0x42, 0], [0x78, 1, 0, 0, 0, 0]]).answers := by
  obtain ⟨store, tables, generation, ⟨initial, opened, opens, -, run⟩, ready, -⟩ := sample_grown
  have asked : owner (.create sampleProvider none []) = some sampleProvider := rfl
  obtain ⟨rows, number, readyLater, kept⟩ := call_others transparent_authentic
    transparent_collision_free ready (validated_uuid_text _ _) asked (sampleDraws ⟨4, by decide⟩)
  obtain ⟨_, recoverable⟩ := ready.recoverable
  obtain ⟨_, recoverableLater⟩ := readyLater.recoverable
  let first : Daemon := ⟨store, 0⟩
  let second : Daemon := ⟨(store.call Crypto.transparent (.create sampleProvider none [])
    (sampleDraws ⟨4, by decide⟩)).2, 0⟩
  have before : StoreRun Crypto.transparent "secret" opened first.store := run
  have beforeSecond : StoreRun Crypto.transparent "secret" opened second.store :=
    run.tail (.call _ _ _)
  have same : own strangerProvider tables = own strangerProvider rows := by
    rw [own_of_others stranger_apart, own_of_others stranger_apart]
    exact congrArg _ kept.symm
  obtain ⟨answers, -⟩ := connection_blind transparent_authentic transparent_collision_free
    transparent_key_bound opens stranger_validated before beforeSecond rfl recoverable.database
    recoverableLater.database same sampleSurroundings 64 128 [[0x42, 0], [0x78, 1, 0, 0, 0, 0]]
  exact ⟨first, second, tables, rows, recoverable.database, recoverableLater.database, answers⟩

end Atlaso.Kmip.ProviderIsolation
