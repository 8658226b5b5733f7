import Atlaso.Kmip.StoreDocuments
import Atlaso.Kmip.StoreOpening

/-!
How the programs of the key store run: one rule for each primitive, for the run without
faults and for safety under faults.
-/

namespace Atlaso.Kmip.StoreRuns

open Exceptions Identifiers StoreDocuments StoreFiles StoreOpening StoreOperations
open Library FilePrograms Outcomes SortedTables

variable {Value Next : Type}

/-! ### Sequencing -/

theorem store_bind_assoc {Last : Type} (action : StoreM Value) (next : Value → StoreM Next)
    (last : Next → StoreM Last) :
    (action >>= next) >>= last = action >>= fun value => next value >>= last := by
  funext session
  change ((action session).bind _).bind _ = (action session).bind _
  rw [Program.bind_assoc]
  congr 1
  funext outcome
  obtain ⟨result, after⟩ := outcome
  cases result <;> rfl

@[simp] theorem store_pure_bind (value : Value) (next : Value → StoreM Next) :
    (pure value >>= next) = next value := rfl

@[simp] theorem store_lift_ok_bind (value : Value) (next : Value → StoreM Next) :
    (StoreM.lift (.ok value) >>= next) = next value := rfl

@[simp] theorem store_lift_error_bind (raised : Raised) (next : Value → StoreM Next) :
    (StoreM.lift (.error raised) >>= next) = StoreM.lift (.error raised) := rfl

/-! ### Runs without faults -/

def runStore (action : StoreM Value) (session : Session) (disk : Disk) :
    Except Raised Value × Session × Disk :=
  let ended := Program.run (action session) disk
  (ended.1.1, ended.1.2, ended.2)

theorem run_store_bind (action : StoreM Value) (next : Value → StoreM Next) (session : Session)
    (disk : Disk) :
    runStore (action >>= next) session disk =
      match runStore action session disk with
      | (.ok value, session, disk) => runStore (next value) session disk
      | (.error raised, session, disk) => (.error raised, session, disk) := by
  have unfolded : (action >>= next) session = (action session).bind _ := rfl
  simp only [runStore, unfolded, Program.run_bind]
  rcases (action session).run disk with ⟨⟨_ | _, _⟩, _⟩ <;> rfl

variable {action : StoreM Value} {disk : Disk}

theorem run_store_ok {value : Value} {session after : Session} {later : Disk}
    (ran : runStore action session disk = (.ok value, after, later)) (next : Value → StoreM Next) :
    runStore (action >>= next) session disk = runStore (next value) after later := by
  rw [run_store_bind, ran]

theorem run_store_error {raised : Raised} {session after : Session} {later : Disk}
    (ran : runStore action session disk = (.error raised, after, later))
    (next : Value → StoreM Next) :
    runStore (action >>= next) session disk = (.error raised, after, later) := by
  rw [run_store_bind, ran]

@[simp] theorem run_store_pure (value : Value) (session : Session) (disk : Disk) :
    runStore (pure value) session disk = (.ok value, session, disk) := rfl

@[simp] theorem run_store_lift (result : Except Raised Value) (session : Session) (disk : Disk) :
    runStore (StoreM.lift result) session disk = (result, session, disk) := rfl

@[simp] theorem run_store_raise (raised : Raised) (session : Session) (disk : Disk) :
    runStore (StoreM.raise raised : StoreM Value) session disk =
      (.error raised, session, disk) := rfl

@[simp] theorem run_store_session (session : Session) (disk : Disk) :
    runStore StoreM.session session disk = (.ok session, session, disk) := rfl

theorem run_read_tables {tables : Tables} (stored : disk.database = some tables.database)
    (session : Session) :
    runStore readTables session disk = (.ok tables, session, disk) := by
  simp [runStore, readTables, Program.run, stored, orRaise]

@[simp] theorem run_write_envelope (crypto : Crypto) (step : FileStep) (nonce : Bytes)
    (envelope : KekEnvelope) (session : Session) (disk : Disk) :
    runStore (writeEnvelope crypto step nonce envelope) session disk =
      (.ok (), session.remember envelope,
        disk.writeKek (envelopeText crypto session.masterKey nonce envelope)) := rfl

@[simp] theorem run_commit_tables (step : FileStep) (tables : Tables) (session : Session)
    (disk : Disk) :
    runStore (commitTables step tables) session disk =
      (.ok true, session, disk.writeTables tables) := rfl

theorem run_verify_store_commitment (crypto : Crypto) (nonce : Bytes) (tables : Tables)
    (session : Session) (disk : Disk) :
    runStore (verifyStoreCommitment crypto nonce tables) session disk =
      match settlement session (storeCommitment crypto tables) with
      | .accept => (.ok (), session, disk)
      | .rewrite envelope => (.ok (), session.remember envelope,
          disk.writeKek (envelopeText crypto session.masterKey nonce envelope))
      | .reject raised => (.error raised, session, disk) := by
  rw [verifyStoreCommitment, run_store_ok (run_store_session session disk)]
  cases settlement session (storeCommitment crypto tables) <;> rfl

/-- What the verification does after its decision. -/
def settle (crypto : Crypto) (nonce : Bytes) : Settlement → StoreM Unit
  | .accept => pure ()
  | .rewrite envelope => writeEnvelope crypto .settleEnvelope nonce envelope
  | .reject raised => StoreM.raise raised

theorem verify_store_commitment_settle (crypto : Crypto) (nonce : Bytes) (tables : Tables)
    (session : Session) :
    verifyStoreCommitment crypto nonce tables session =
      settle crypto nonce (settlement session (storeCommitment crypto tables)) session := rfl

/-! ### Methods that leave the disk -/

def Rests (disk : Disk) (session : Session) (action : StoreM Value) (value : Value) : Prop :=
  Relation.ReflTransGen (Idles disk) (action session) (.done (.ok value, session))

theorem rests_bind {session : Session} {value : Value} (rests : Rests disk session action value)
    (next : Value → StoreM Next) :
    Relation.ReflTransGen (Idles disk) ((action >>= next) session) (next value session) :=
  idles_bind rests _

theorem rests_session (disk : Disk) (session : Session) :
    Rests disk session StoreM.session session := .refl

theorem rests_read_tables {tables : Tables} (stored : disk.database = some tables.database)
    (session : Session) :
    Rests disk session readTables tables := by
  have read : orRaise (.osError "no such table") (disk.database.bind Database.tables) =
      .ok tables := by
    simp [stored, orRaise]
  have reads : Idles disk (readTables session) (.done (orRaise (.osError "no such table")
      (disk.database.bind Database.tables), session)) := .observe _
  rw [read] at reads
  exact .single reads

theorem rests_verify_accepts {crypto : Crypto} {nonce : Bytes} {tables : Tables}
    {session : Session} (disk : Disk)
    (accepts : settlement session (storeCommitment crypto tables) = .accept) :
    Rests disk session (verifyStoreCommitment crypto nonce tables) () := by
  refine (rests_bind (rests_session disk session) _).trans ?_
  rw [accepts]
  exact .refl

theorem create_idles {crypto : Crypto} {session : Session} {tables inserted : Tables}
    {providerId provider : String} {name : Option String}
    {customAttributes normalized : List (String × String)} {draws : Draws}
    (writable : session.readOnly = false) (holds : disk.database = some tables.database)
    (validated : validatedUuid providerId "provider_id" = .ok provider)
    (checked : validatedCustomAttributes (textMembers customAttributes) = .ok normalized)
    (named : validateName name = .ok ())
    (accepts : settlement session (storeCommitment crypto tables) = .accept)
    (insertion : tables.insertKey (wrappedRow crypto session.kek draws (newMetadata draws provider
      name normalized)) = .ok inserted) (next : StoredKey → StoreM Next) :
    Relation.ReflTransGen (Idles disk)
      ((createKey crypto draws providerId name customAttributes >>= next) session)
      ((commitMutation crypto draws inserted >>= fun _ =>
        next (newMetadata draws provider name normalized)) session) := by
  have stored := rests_read_tables holds session
  have inserts : insertKeyRow tables (wrappedRow crypto session.kek draws
      (newMetadata draws provider name normalized)) session = .done (.ok inserted, session) := by
    have unfolded : insertKeyRow tables (wrappedRow crypto session.kek draws
        (newMetadata draws provider name normalized)) session =
          (if session.readOnly then StoreM.raise (.osError "attempt to write a readonly database")
            else StoreM.lift (tables.insertKey (wrappedRow crypto session.kek draws
              (newMetadata draws provider name normalized))) : StoreM Tables) session := rfl
    rw [unfolded, writable, insertion]
    rfl
  have inserting : Rests disk session (insertKeyRow tables (wrappedRow crypto session.kek draws
      (newMetadata draws provider name normalized))) inserted := by
    unfold Rests
    rw [inserts]
  simp only [createKey, verifyStore, validated, checked, named, store_lift_ok_bind,
    store_bind_assoc, store_pure_bind]
  refine (rests_bind (rests_session disk session) _).trans ?_
  refine (rests_bind stored _).trans ?_
  refine (rests_bind (rests_verify_accepts disk accepts) _).trans ?_
  refine (rests_bind stored _).trans ?_
  exact rests_bind inserting _

/-! ### The constructor without faults -/

def runFiles (action : FilesM Value) (disk : Disk) : Except Raised Value × Disk :=
  Program.run action disk

theorem run_files_bind (action : FilesM Value) (next : Value → FilesM Next) (disk : Disk) :
    runFiles (action >>= next) disk =
      match runFiles action disk with
      | (.ok value, disk) => runFiles (next value) disk
      | (.error raised, disk) => (.error raised, disk) := by
  refine Eq.trans (Program.run_bind (show Files (Except Raised Value) from action) _ disk) ?_
  simp only [runFiles]
  rcases Program.run (show Files (Except Raised Value) from action) disk with ⟨_ | _, _⟩ <;> rfl

theorem run_files_ok {action : FilesM Value} {value : Value} {later : Disk}
    (ran : runFiles action disk = (.ok value, later)) (next : Value → FilesM Next) :
    runFiles (action >>= next) disk = runFiles (next value) later := by
  rw [run_files_bind, ran]

@[simp] theorem run_inspect (view : Disk → Except Raised Value) (disk : Disk) :
    runFiles (FilesM.inspect view) disk = (view disk, disk) := rfl

@[simp] theorem run_files_lift (result : Except Raised Value) (disk : Disk) :
    runFiles (FilesM.lift result) disk = (result, disk) := rfl

@[simp] theorem run_change (step : FileStep) (effect : Disk → Disk) (disk : Disk) :
    runFiles (FilesM.change step effect) disk = (.ok (), effect disk) := rfl

@[simp] theorem run_files_pure (value : Value) (disk : Disk) :
    runFiles (pure value) disk = (.ok value, disk) := rfl

def traceFiles (action : FilesM Value) (disk : Disk) : List Disk :=
  Program.trace action disk

theorem trace_files_bind (action : FilesM Value)
    (next : Value → FilesM Next) (disk : Disk) :
    traceFiles (action >>= next) disk = traceFiles action disk ++
      match runFiles action disk with
      | (.ok value, later) => traceFiles (next value) later
      | (.error _, _) => [] := by
  refine Eq.trans (Program.trace_bind (show Files (Except Raised Value) from action) _ disk) ?_
  simp only [traceFiles, runFiles]
  rcases Program.run (show Files (Except Raised Value) from action) disk with ⟨_ | _, _⟩ <;> rfl

@[simp] theorem trace_inspect (view : Disk → Except Raised Value) (disk : Disk) :
    traceFiles (FilesM.inspect view) disk = [] := rfl

@[simp] theorem trace_files_lift (result : Except Raised Value) (disk : Disk) :
    traceFiles (FilesM.lift result) disk = [] := rfl

@[simp] theorem trace_change (step : FileStep) (effect : Disk → Disk) (disk : Disk) :
    traceFiles (FilesM.change step effect) disk = [effect disk] := rfl

/-- A part of the constructor comes to a later point without a change of the disk. -/
def Lingers (disk : Disk) (action later : FilesM Value) : Prop :=
  @Relation.ReflTransGen (Files (Except Raised Value)) (Idles disk) action later

theorem lingers_bind {action : FilesM Value} {value : Value}
    (lingers : Lingers disk action (pure value)) (next : Value → FilesM Next) :
    Lingers disk (action >>= next) (next value) :=
  idles_bind lingers _

theorem lingers_inspect {view : Disk → Except Raised Value} {value : Value}
    (viewed : view disk = .ok value) : Lingers disk (FilesM.inspect view) (pure value) := by
  have reads : @Idles _ FileStep _ disk (.observe fun disk => .done (view disk))
      (.done (view disk)) := .observe _
  rw [viewed] at reads
  exact .single reads

theorem lingers_change {step : FileStep} {effect : Disk → Disk} (keeps : effect disk = disk) :
    Lingers disk (FilesM.change step effect) (pure ()) :=
  .single (.update _ keeps)

theorem lingers_lift {result : Except Raised Value} {value : Value} (disk : Disk)
    (known : result = .ok value) : Lingers disk (FilesM.lift result) (pure value) := by
  rw [known]
  exact .refl

def filledTables (database : Database) : Tables :=
  let metadata := database.metadata.getD ⟨[], Tables.empty.metadataSorted⟩
  let keys := database.keys.getD ⟨[], Tables.empty.keysSorted⟩
  ⟨metadata.1, keys.1, metadata.2, keys.2⟩

@[simp] theorem filled_tables_database (tables : Tables) : filledTables tables.database = tables :=
  rfl

theorem run_schema_script (disk : Disk) :
    runFiles runSchemaScript disk =
      (.ok (), disk.writeTables (filledTables (disk.database.getD ⟨none, none⟩))) := by
  have steps : runFiles runSchemaScript disk =
      (.ok (), createKeysTable (createMetadataTable (createDatabase disk))) := rfl
  rw [steps]
  obtain ⟨custody, databaseDirectory, kekDirectory, journal, kek, database⟩ := disk
  cases database <;> rfl

def commitIf (inserted : Bool) (tables : Tables) (disk : Disk) : Disk :=
  if inserted then disk.writeTables tables else disk

/-- What `_initialize` does to a session and a disk that holds `stored`. -/
def initializeOutcome (crypto : Crypto) (nonce : Bytes) (session : Session) (stored : Tables)
    (disk : Disk) : Except Raised Session × Disk :=
  match withSchemaVersion false stored with
  | .error raised => (.error raised, disk)
  | .ok (tables, inserted) =>
    match settlement session (storeCommitment crypto tables) with
    | .accept => (.ok session, commitIf inserted tables disk)
    | .rewrite envelope => (.ok (session.remember envelope), commitIf inserted tables
        (disk.writeKek (envelopeText crypto session.masterKey nonce envelope)))
    | .reject raised => (.error raised, disk)

theorem run_in_session (action : StoreM Unit) (session : Session) (disk : Disk) :
    runFiles (inSession action session) disk =
      ((runStore action session disk).1.map fun _ => (runStore action session disk).2.1,
        (runStore action session disk).2.2) :=
  Program.run_bind _ _ _

theorem run_initialize_rows (crypto : Crypto) (draws : OpenDraws) (session : Session)
    (stored : Tables) (disk : Disk) (writable : session.readOnly = false)
    (holds : disk.database = some stored.database) :
    runFiles (inSession (initializeRows crypto draws) session) disk =
      initializeOutcome crypto draws.settleNonce session stored disk := by
  rw [run_in_session, initializeOutcome, initializeRows, run_store_ok (run_store_session session disk),
    run_store_ok (run_read_tables holds session), writable]
  cases versioned : withSchemaVersion false stored with
  | error raised => rfl
  | ok result =>
    obtain ⟨tables, inserted⟩ := result
    rw [run_store_ok (run_store_lift (.ok (tables, inserted)) session disk), run_store_bind,
      run_verify_store_commitment]
    cases decided : settlement session (storeCommitment crypto tables) with
    | accept =>
      simp only [decided]
      cases inserted <;> rfl
    | rewrite envelope =>
      simp only [decided]
      cases inserted <;> rfl
    | reject raised =>
      simp only [decided]
      rfl

def loadedKek (crypto : Crypto) (secretsKey : String) (custody : Option Bytes) (text : String) :
    Except Raised (Bytes × KekEnvelope) := do
  let secretsMaster ← masterKey crypto secretsKey
  let master ← custodyMaster crypto secretsMaster custody
  let envelope ← readEnvelope crypto master text
  return (master, envelope)

theorem run_open_apart (crypto : Crypto) (secretsKey : String) (draws : OpenDraws)
    (disk : Disk) (apart : disk.database.isSome ≠ disk.kek.isSome) :
    runFiles (openStore crypto secretsKey false draws) disk = (.error (.keyStoreError
      "KMIP operational store and KEK envelope must exist together."), disk) := by
  have settled : runFiles (FilesM.inspect (journalSettled false)) disk = (.ok (), disk) := rfl
  unfold openStore
  rw [run_files_ok settled, run_files_bind, run_inspect, existTogether, if_neg apart]

theorem run_open_existing (crypto : Crypto) (secretsKey : String) (draws : OpenDraws)
    (disk : Disk) (text : String) (database : Database) (kek : disk.kek = some text)
    (stored : disk.database = some database) :
    runFiles (openStore crypto secretsKey false draws) disk =
      match loadedKek crypto secretsKey disk.custody text with
      | .error raised => (.error raised, makeDatabaseDirectory disk)
      | .ok (master, envelope) =>
        initializeOutcome crypto draws.settleNonce ⟨master, envelope.kek, envelope, false⟩
          (filledTables database)
          ((makeDatabaseDirectory disk).writeTables (filledTables database)) := by
  have together : existTogether disk = .ok () := by
    simp [existTogether, kek, stored]
  have load : runFiles (loadOrCreateKek crypto secretsKey false draws)
      (makeDatabaseDirectory disk) =
        (loadedKek crypto secretsKey disk.custody text, makeDatabaseDirectory disk) := by
    unfold loadOrCreateKek loadedKek
    rw [run_files_bind, run_files_lift]
    cases masterKey crypto secretsKey with
    | error raised => rfl
    | ok secretsMaster =>
      simp only [ok_bind]
      rw [run_files_bind, run_inspect]
      have custody : (makeDatabaseDirectory disk).custody = disk.custody := rfl
      rw [custody]
      cases custodyMaster crypto secretsMaster disk.custody with
      | error raised => rfl
      | ok master =>
        simp only [ok_bind]
        rw [run_files_bind, run_inspect]
        have file : (makeDatabaseDirectory disk).kek = some text := kek
        simp only [file]
        rw [run_files_bind, run_files_lift]
        cases readEnvelope crypto master text <;> rfl
  unfold openStore
  have settled : runFiles (FilesM.inspect (journalSettled false)) disk = (.ok (), disk) := rfl
  have prepared : runFiles (unlessReadOnly false
      (FilesM.change .makeDatabaseDirectory makeDatabaseDirectory)) disk =
        (.ok (), makeDatabaseDirectory disk) := rfl
  rw [run_files_ok settled, run_files_bind, run_inspect, together]
  simp only []
  rw [run_files_ok prepared, run_files_bind, load]
  cases loadedKek crypto secretsKey disk.custody text with
  | error raised => rfl
  | ok loaded =>
    obtain ⟨master, envelope⟩ := loaded
    have filled : (makeDatabaseDirectory disk).database = some database := stored
    simp only [initializeStore]
    have script := run_schema_script (makeDatabaseDirectory disk)
    rw [filled] at script
    rw [run_files_ok (show runFiles (unlessReadOnly false runSchemaScript) _ = _ from script)]
    exact run_initialize_rows crypto draws _ _ _ rfl rfl

/-- The disk of a new store before `_initialize` reads its rows. -/
def createdDisk (crypto : Crypto) (master : Bytes) (draws : OpenDraws) (disk : Disk) : Disk :=
  ((makeKekDirectory (makeDatabaseDirectory disk)).writeKek
    (envelopeText crypto master draws.createNonce
      (settledEnvelope draws.kek.bytes 0 ""))).writeTables Tables.empty

theorem run_open_fresh (crypto : Crypto) (secretsKey : String) (draws : OpenDraws)
    (disk : Disk) (kek : disk.kek = none) (database : disk.database = none) :
    runFiles (openStore crypto secretsKey false draws) disk =
      match (do
        let secretsMaster ← masterKey crypto secretsKey
        let _ ← custodyMaster crypto secretsMaster disk.custody
        return secretsMaster : Except Raised Bytes) with
      | .error raised => (.error raised, makeDatabaseDirectory disk)
      | .ok master =>
        initializeOutcome crypto draws.settleNonce
          ⟨master, draws.kek.bytes, settledEnvelope draws.kek.bytes 0 "", false⟩ Tables.empty
          (createdDisk crypto master draws disk) := by
  have together : existTogether disk = .ok () := by
    simp [existTogether, kek, database]
  have settled : runFiles (FilesM.inspect (journalSettled false)) disk = (.ok (), disk) := rfl
  have prepared : runFiles (unlessReadOnly false
      (FilesM.change .makeDatabaseDirectory makeDatabaseDirectory)) disk =
        (.ok (), makeDatabaseDirectory disk) := rfl
  unfold openStore
  rw [run_files_ok settled, run_files_bind, run_inspect, together]
  simp only []
  rw [run_files_ok prepared, run_files_bind, loadOrCreateKek, run_files_bind, run_files_lift]
  cases masters : masterKey crypto secretsKey with
  | error raised => rfl
  | ok master =>
    simp only [ok_bind]
    rw [run_files_bind, run_inspect]
    have custody : (makeDatabaseDirectory disk).custody = disk.custody := rfl
    rw [custody]
    cases custodyMaster crypto master disk.custody with
    | error raised => rfl
    | ok _ =>
      simp only [ok_bind, pure_is_ok]
      rw [run_files_bind, run_inspect]
      have absent : (makeDatabaseDirectory disk).kek = none := kek
      simp only [absent, Bool.false_eq_true, if_false]
      have created : runFiles (createKek crypto secretsKey draws)
          (makeDatabaseDirectory disk) =
            (.ok (master, settledEnvelope draws.kek.bytes 0 ""),
              (makeKekDirectory (makeDatabaseDirectory disk)).writeKek
                (envelopeText crypto master draws.createNonce
                  (settledEnvelope draws.kek.bytes 0 ""))) := by
        simp only [createKek, run_files_bind, run_change, masters, run_files_lift,
          run_files_pure]
      rw [created]
      simp only [initializeStore]
      have script := run_schema_script
        ((makeKekDirectory (makeDatabaseDirectory disk)).writeKek
          (envelopeText crypto master draws.createNonce
            (settledEnvelope draws.kek.bytes 0 "")))
      have missing : ((makeKekDirectory (makeDatabaseDirectory disk)).writeKek
          (envelopeText crypto master draws.createNonce
            (settledEnvelope draws.kek.bytes 0 ""))).database = none := database
      rw [missing] at script
      rw [run_files_ok (show runFiles (unlessReadOnly false runSchemaScript) _ = _ from
        script)]
      exact run_initialize_rows crypto draws _ _ _ rfl rfl

end Atlaso.Kmip.StoreRuns
