import Atlaso.Kmip.Bootstrap
import Atlaso.Kmip.CrashConsistency

/-!
Rows that were put in place of the committed ones while the KEK envelope stayed.

An envelope records one commitment, and a second one while a mutation is unfinished. Rows
with any other commitment make every opening and every operation raise `KeyStoreError`.
-/

namespace Atlaso.Kmip.RollbackDetection

open Bootstrap CommitProtocol CrashConsistency Exceptions Identifiers StoreDocuments StoreFiles
open StoreKeys StoreOpening StoreOperations StoreRuns Library FilePrograms JsonText
open Outcomes SortedTables

/-- The operation raises `KeyStoreError` and leaves the open store and the files. -/
def OperationRejected (crypto : Crypto) (operation : Operation) (draws : Draws)
    (session : Session) (disk : Disk) : Prop :=
  ∃ message, runStore (operation.perform crypto draws) session disk =
    (.error (.keyStoreError message), session, disk)

/-- The opening raises `KeyStoreError` and leaves the two files. -/
def OpeningRejected (crypto : Crypto) (secretsKey : String) (draws : OpenDraws) (disk : Disk) :
    Prop :=
  ∃ message later, runFiles (openStore crypto secretsKey false draws) disk =
      (.error (.keyStoreError message), later) ∧
    later.kek = disk.kek ∧ later.database = disk.database

variable {crypto : Crypto} {contents : Tables} {disk : Disk}

theorem records_unique (hash : crypto.CollisionFree) {envelope : KekEnvelope}
    (settled : envelope.pendingCommitment = none) {tables : Tables}
    (recorded : Records crypto envelope contents) (current : Records crypto envelope tables) :
    contents = tables := by
  have only : ∀ rows, Records crypto envelope rows →
      storeCommitment crypto rows = envelope.commitment := by
    rintro rows (committed | pending)
    · exact committed
    · rw [settled] at pending
      cases pending
  exact store_commitment_injective hash ((only contents recorded).trans (only tables current).symm)

theorem settlement_rejects {session : Session} (writable : session.readOnly = false)
    (initialised : session.envelope.commitment ≠ "")
    (unrecorded : ¬Records crypto session.envelope contents) :
    settlement session (storeCommitment crypto contents) = .reject (.keyStoreError
      "KMIP operational store rollback or integrity validation failed.") := by
  unfold settlement
  simp only [writable, Bool.false_eq_true, if_false, if_neg initialised,
    if_neg (fun same => unrecorded (.inl same)), if_neg (fun same => unrecorded (.inr same))]

/-! ### Operations of an open store -/

theorem verify_store_rejects {session : Session} (writable : session.readOnly = false)
    (initialised : session.envelope.commitment ≠ "")
    (holds : disk.database = some contents.database)
    (unrecorded : ¬Records crypto session.envelope contents) (draws : Draws) :
    runStore (verifyStore crypto draws) session disk = (.error (.keyStoreError
      "KMIP operational store rollback or integrity validation failed."), session, disk) := by
  rw [verifyStore, run_store_ok (run_read_tables holds session), run_verify_store_commitment,
    settlement_rejects writable initialised unrecorded]

theorem perform_rejects {session : Session} (writable : session.readOnly = false)
    (initialised : session.envelope.commitment ≠ "")
    (holds : disk.database = some contents.database)
    (unrecorded : ¬Records crypto session.envelope contents) (operation : Operation)
    (valid : operation.validate = .ok ()) (draws : Draws) :
    OperationRejected crypto operation draws session disk := by
  have rejected := verify_store_rejects writable initialised holds unrecorded draws
  refine ⟨"KMIP operational store rollback or integrity validation failed.", ?_⟩
  cases operation with
  | create providerId name customAttributes =>
    simp only [Operation.validate, bind_ok_iff] at valid
    obtain ⟨provider, normalized, attributes, checked, named⟩ := valid
    simp only [Operation.perform, createKey, normalized, checked, named, store_lift_ok_bind,
      store_bind_assoc]
    rw [run_store_ok (run_store_session session disk), run_store_error rejected]
  | activate providerId keyId =>
    simp only [Operation.perform, StoreOperations.activateKey, StoreOperations.getKey,
      store_bind_assoc]
    rw [run_store_error rejected]
  | getKey providerId keyId =>
    simp only [Operation.perform, StoreOperations.getKey, store_bind_assoc]
    rw [run_store_error rejected]
  | getMetadata providerId keyId =>
    simp only [Operation.perform, StoreOperations.getMetadata, StoreOperations.getKey,
      store_bind_assoc]
    rw [run_store_error rejected]
  | locate providerId state name limit =>
    simp only [Operation.validate, bind_ok_iff] at valid
    obtain ⟨provider, normalized, _, stated, _, limited, named⟩ := valid
    simp only [Operation.perform, locateKeys, normalized, stated, limited, named,
      store_lift_ok_bind, store_bind_assoc]
    rw [run_store_error rejected]
  | lifecycleCounts providerIds =>
    simp only [Operation.validate, bind_ok_iff] at valid
    obtain ⟨providers, normalized, -⟩ := valid
    simp only [Operation.perform, StoreOperations.lifecycleCounts, normalized,
      store_lift_ok_bind, store_bind_assoc]
    rw [run_store_error rejected]

/-! ### Openings -/

theorem with_schema_version_refuses {raised : Raised}
    (refused : withSchemaVersion false contents = .error raised) :
    ∃ message, raised = .keyStoreError message := by
  unfold withSchemaVersion at refused
  cases version : schemaVersion contents with
  | some value =>
    rw [version] at refused
    simp only at refused
    split at refused
    · cases refused
    · exact ⟨_, (Except.error.inj refused).symm⟩
  | none =>
    -- The missing version is inserted; its name is not taken.
    exfalso
    have absent : ∀ other ∈ contents.metadata, other.1 ≠ "schema_version" := by
      unfold schemaVersion at version
      rw [Option.map_eq_none_iff] at version
      exact find_row_none_iff.mp version
    simp [version, Tables.insertMetadata, dif_pos absent, Except.map] at refused

variable {site : Installation} {generation : Nat}

/-- Opening rows that the envelope does not record, with their schema version put back
where it is missing, is refused. -/
theorem open_rejects (unlocks : site.Unlocks) {envelope : KekEnvelope} {tables : Tables}
    (recoverable : Recoverable site disk envelope tables generation)
    (unrecorded : ∀ restored inserted, withSchemaVersion false contents = .ok (restored, inserted) →
      ¬Records site.crypto envelope restored) (draws : OpenDraws) :
    OpeningRejected site.crypto site.secretsKey draws (disk.writeTables contents) := by
  obtain ⟨text, file, read⟩ := recoverable.file
  have loaded : loadedKek site.crypto site.secretsKey disk.custody text =
      .ok (site.master, envelope) := by
    obtain ⟨secretsMaster, secrets, custody⟩ := bind_ok_iff.mp unlocks
    rw [← recoverable.custody] at custody
    simp only [loadedKek, secrets, custody, read, ok_bind, pure_is_ok]
  unfold OpeningRejected
  rw [run_open_existing _ _ draws (disk.writeTables contents) text contents.database file rfl]
  simp only [Disk.write_tables_custody, loaded, filled_tables_database, initializeOutcome]
  cases versioned : withSchemaVersion false contents with
  | error raised =>
    obtain ⟨message, rfl⟩ := with_schema_version_refuses versioned
    exact ⟨message, _, rfl, rfl, rfl⟩
  | ok result =>
    obtain ⟨restored, inserted⟩ := result
    have rejected := @settlement_rejects site.crypto restored
      ⟨site.master, envelope.kek, envelope, false⟩ rfl recoverable.initialised (unrecorded restored inserted versioned)
    simp only [rejected]
    exact ⟨_, _, rfl, rfl, rfl⟩

/-! ### Whole runs -/

/-- What an envelope admits when the committed rows are `tables`: these, and no other ones
when no mutation is unfinished. -/
structure Guards (crypto : Crypto) (envelope : KekEnvelope) (tables : Tables) : Prop where
  current : Records crypto envelope tables
  only : envelope.pendingCommitment = none →
    ∀ contents, Records crypto envelope contents → contents = tables

/-- At every point of every run with faults: the rows can be replaced by other ones only if
the envelope records those. An opening refuses all other contents, once it has put back a
missing schema version, and so does every operation with valid arguments that the open
store is asked for. -/
theorem unrecorded_rows_rejected {crypto : Crypto} (authentic : crypto.Authentic)
    (hash : crypto.CollisionFree) {secretsKey : String} {initial opened : Disk}
    {session : Session} {draws : OpenDraws} (kek : initial.kek.isSome)
    (ran : runFiles (openStore crypto secretsKey false draws) initial = (.ok session, opened))
    {reached : Process} {changes : Nat}
    (run : ProcessRun crypto ⟨.idle session, opened⟩ changes reached) :
    Function.Injective (fun tables => dumps (commitmentDocument tables)) ∧
      ∃ text envelope tables, reached.disk.kek = some text ∧
        readEnvelope crypto session.masterKey text = .ok envelope ∧
          reached.disk.database = some tables.database ∧ Guards crypto envelope tables ∧
            (∀ contents again, (∀ restored inserted,
                withSchemaVersion false contents = .ok (restored, inserted) →
                  ¬Records crypto envelope restored) →
              OpeningRejected crypto secretsKey again (reached.disk.writeTables contents)) ∧
              ∀ current, reached.activity = .idle current →
                Guards crypto current.envelope tables ∧
                  ∀ contents (operation : Operation) drawn, operation.validate = .ok () →
                    ¬Records crypto current.envelope contents →
                      OperationRejected crypto operation drawn current
                        (reached.disk.writeTables contents) := by
  refine ⟨fun _ _ same => commitment_text_injective same, ?_⟩
  obtain ⟨site, start, rfl, rfl, unlocks, ⟨first, recoverable⟩, remembers⟩ :=
    open_ready authentic hash kek ran
  obtain ⟨envelope, tables, holds, sound, -, -⟩ :=
    process_run_advances authentic hash recoverable (sound_idle opened remembers) run
  have guards : ∀ held : KekEnvelope, Records site.crypto held tables →
      Guards site.crypto held tables := by
    intro held recorded
    exact ⟨recorded, fun settled contents other => records_unique hash settled other recorded⟩
  obtain ⟨text, file, read⟩ := holds.file
  rw [remembers.master]
  refine ⟨text, envelope, tables, file, read, holds.database,
    guards envelope (settled_records holds.settles), ?_, ?_⟩
  · intro contents again unrecorded
    exact open_rejects unlocks holds unrecorded again
  · intro current idle
    rw [idle] at sound
    have knows : Remembers site current tables _ := sound
    refine ⟨guards current.envelope (settled_records knows.settles), ?_⟩
    intro contents operation drawn valid unrecorded
    exact perform_rejects knows.writable knows.initialised rfl unrecorded operation valid drawn

/-- Rows that no envelope of an initialised store records. -/
theorem foreign_rows_rejected : OperationRejected sampleSite.crypto (.lifecycleCounts [])
    sampleKey sampleSession (sampleDisk.writeTables Tables.empty) := by
  obtain ⟨-, text, envelope, tables, -, -, holds, -, -, operations⟩ := unrecorded_rows_rejected
    transparent_authentic transparent_collision_free rfl sample_opens (ProcessRun.start _)
  obtain ⟨guards, rejected⟩ := operations sampleSession rfl
  refine rejected Tables.empty _ _ rfl ?_
  intro recorded
  have same := guards.only rfl Tables.empty recorded
  have current : Tables.initialised = tables :=
    tables_database_injective (Option.some.inj holds)
  rw [← current] at same
  exact absurd same (by decide)

/-! ### Contents that are accepted -/

/-- The disk of an unfinished mutation that has committed its rows opens with the rows
before it, too. -/
theorem pending_opens_before (authentic : site.crypto.Authentic) (hash : site.crypto.CollisionFree)
    (unlocks : site.Unlocks) {envelope : KekEnvelope} {tables inserted : Tables}
    (recoverable : Recoverable site disk envelope tables generation) (nonce : Bytes)
    (draws : OpenDraws) : ∃ session later,
      runFiles (openStore site.crypto site.secretsKey false draws)
        (((disk.writeKek (envelopeText site.crypto site.master nonce
          (pendingEnvelope site generation tables inserted))).writeTables inserted).writeTables
            tables) = (.ok session, later) := by
  have valid := recoverable_valid recoverable
  have kekLength : site.kek.length = 32 := recoverable.kek ▸ valid.kek
  have replaces : Replaces site envelope (pendingEnvelope site generation tables inserted) tables
      generation :=
    ⟨⟨kekLength, rfl⟩, rfl, store_commitment_ne_empty hash tables,
      pending_settles_before site generation tables inserted,
      generation_le valid recoverable.settles⟩
  have pending := recoverable_write_kek authentic recoverable replaces nonce
  have restored := recoverable_write_tables pending rfl pending.settles
  obtain ⟨later, opens, -⟩ := open_recoverable authentic hash unlocks
    (recoverable_congr restored rfl rfl rfl) draws
  exact ⟨_, later, opens⟩

/-- Three kinds of other contents that are not refused. The rows before an unfinished
mutation whose commit is done are accepted by an opening; a deleted schema version is put
back; and an invalid argument is reported before the rows are looked at. -/
theorem replaced_rows_accepted :
    runFiles (openStore sampleSite.crypto "secret" false sampleOpenDraws) sampleDisk =
        (.ok sampleSession, sampleDisk) ∧
      (∃ changes reached envelope text inserted,
        ProcessRun sampleSite.crypto ⟨.idle sampleSession, sampleDisk⟩ changes reached ∧
          reached.disk.kek = some text ∧
            readEnvelope sampleSite.crypto sampleSite.master text = .ok envelope ∧
              reached.disk.database = some (Tables.database inserted) ∧
                Tables.initialised ≠ inserted ∧
                  envelope.pendingCommitment ≠
                      some (storeCommitment sampleSite.crypto Tables.initialised) ∧
                    ∃ session later, runFiles (openStore sampleSite.crypto "secret" false
                      sampleOpenDraws) (reached.disk.writeTables Tables.initialised) =
                        (.ok session, later)) ∧
        (Tables.empty ≠ Tables.initialised ∧
          ∃ session later, runFiles (openStore sampleSite.crypto "secret" false sampleOpenDraws)
            (sampleDisk.writeTables Tables.empty) = (.ok session, later)) ∧
          ∃ message, (runStore ((Operation.locate sampleProvider none none 0).perform
            sampleSite.crypto sampleKey) sampleSession
              (sampleDisk.writeTables Tables.empty)).1 = .error (.valueError message) := by
  refine ⟨sample_opens, ?_, ⟨by decide, ?_⟩, ?_⟩
  · obtain ⟨inserted, ⟨-, changed, -⟩, idles⟩ := sample_create_idles
    have called := ProcessRun.step (.start ⟨.idle sampleSession, sampleDisk⟩)
      (@ProcessStep.call sampleSite.crypto sampleSession sampleDisk
        (.create sampleProvider none []) sampleKey)
    have atCommit := idle_run called idles
    have pending := atCommit.step
      (.work (Step.update FileStep.pendingEnvelope _ _ sampleDisk .applied (.inl rfl)))
    have committed := pending.step
      (.work (Step.update FileStep.commitMutation _ _ _ .applied (.inl rfl)))
    refine ⟨_, _, _, _, inserted, committed, rfl, read_envelope_written transparent_authentic
      _ _ _ ⟨rfl, rfl⟩, rfl, changed.symm, ?_, ?_⟩
    · intro same
      exact changed (store_commitment_injective transparent_collision_free (Option.some.inj same))
    · exact pending_opens_before transparent_authentic transparent_collision_free sample_unlocks
        sample_recoverable [] sampleOpenDraws
  · have holds : (sampleDisk.writeTables Tables.empty).database = some Tables.empty.database := rfl
    have masters : masterKey sampleSite.crypto "secret" = .ok sampleSite.master := rfl
    have custody : custodyMaster sampleSite.crypto sampleSite.master
        (sampleDisk.writeTables Tables.empty).custody = .ok sampleSite.master := rfl
    obtain ⟨session, later, opens, -⟩ := (partial_restarts_iff transparent_authentic
      transparent_collision_free transparent_key_bound rfl rfl holds rfl (.inr rfl) masters
        custody sampleOpenDraws).mpr rfl
    exact ⟨session, later, opens⟩
  · refine ⟨"limit must be between 1 and 1024.", ?_⟩
    simp only [Operation.perform, locateKeys, sampleProvider, validated_uuid_text,
      store_lift_ok_bind]
    rfl

end Atlaso.Kmip.RollbackDetection
