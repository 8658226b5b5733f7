import Atlaso.Kmip.CommitProtocol

/-!
The first opening of a store, interrupted after any of its file-level steps, and the
opening that follows.

The KEK envelope is in place before the database file is; an opening that finds the one
without the other refuses. Every other intermediate disk is taken up where the first
opening left it.
-/

namespace Atlaso.Kmip.Bootstrap

open CommitProtocol Exceptions StoreDocuments StoreFiles StoreKeys StoreOpening StoreOperations
open StoreRuns Library FilePrograms Outcomes

/-! ### The intermediate disks -/

def envelopeDisk (crypto : Crypto) (master : Bytes) (draws : OpenDraws) (disk : Disk) : Disk :=
  (makeKekDirectory (makeDatabaseDirectory disk)).writeKek
    (envelopeText crypto master draws.createNonce (settledEnvelope draws.kek.bytes 0 ""))

def adoptedDisk (crypto : Crypto) (master : Bytes) (draws : OpenDraws) (disk : Disk) : Disk :=
  (createdDisk crypto master draws disk).writeKek (envelopeText crypto master draws.settleNonce
    (settledEnvelope draws.kek.bytes 0 (storeCommitment crypto Tables.initialised)))

def bootstrapDisks (crypto : Crypto) (master : Bytes) (draws : OpenDraws) (disk : Disk) :
    List Disk :=
  [makeDatabaseDirectory disk,
    makeKekDirectory (makeDatabaseDirectory disk),
    envelopeDisk crypto master draws disk,
    createDatabase (envelopeDisk crypto master draws disk),
    createMetadataTable (createDatabase (envelopeDisk crypto master draws disk)),
    createdDisk crypto master draws disk,
    adoptedDisk crypto master draws disk,
    (adoptedDisk crypto master draws disk).writeTables Tables.initialised]

theorem trace_initialize_fresh (crypto : Crypto) (master : Bytes) (draws : OpenDraws)
    (disk : Disk) (database : disk.database = none) :
    traceFiles (initializeStore crypto draws
        ⟨master, draws.kek.bytes, settledEnvelope draws.kek.bytes 0 "", false⟩)
        (envelopeDisk crypto master draws disk) =
      [createDatabase (envelopeDisk crypto master draws disk),
        createMetadataTable (createDatabase (envelopeDisk crypto master draws disk)),
        createdDisk crypto master draws disk,
        adoptedDisk crypto master draws disk,
        (adoptedDisk crypto master draws disk).writeTables Tables.initialised] := by
  obtain ⟨custody, databaseDirectory, kekDirectory, journal, kek, _⟩ := disk
  simp only at database
  subst database
  rfl

theorem trace_open_fresh (crypto : Crypto) (secretsKey : String) (draws : OpenDraws)
    (disk : Disk) (kek : disk.kek = none) (database : disk.database = none) :
    traceFiles (openStore crypto secretsKey false draws) disk =
      match (do
        let secretsMaster ← masterKey crypto secretsKey
        let _ ← custodyMaster crypto secretsMaster disk.custody
        return secretsMaster : Except Raised Bytes) with
      | .error _ => [makeDatabaseDirectory disk]
      | .ok master => bootstrapDisks crypto master draws disk := by
  have together : existTogether disk = .ok () := by
    simp [existTogether, kek, database]
  have custody : (makeDatabaseDirectory disk).custody = disk.custody := rfl
  have absent : (makeDatabaseDirectory disk).kek = none := kek
  have settled : journalSettled false disk = .ok () := rfl
  have prepared : unlessReadOnly false
      (FilesM.change .makeDatabaseDirectory makeDatabaseDirectory) =
        FilesM.change .makeDatabaseDirectory makeDatabaseDirectory := rfl
  unfold openStore
  simp only [trace_files_bind, trace_inspect, run_inspect, settled, together, prepared,
    trace_change, run_change, loadOrCreateKek, trace_files_lift, run_files_bind, run_files_lift]
  cases masters : masterKey crypto secretsKey with
  | error raised => rfl
  | ok master =>
    simp only [custody, ok_bind]
    cases custodyMaster crypto master disk.custody with
    | error raised => rfl
    | ok used =>
      simp only [absent, ok_bind, pure_is_ok, Bool.false_eq_true, if_false]
      simp only [createKek, trace_files_bind, run_files_bind, trace_change, run_change,
        masters, trace_files_lift, run_files_lift, run_files_pure]
      exact congrArg
        (makeDatabaseDirectory disk :: makeKekDirectory (makeDatabaseDirectory disk) ::
          envelopeDisk crypto master draws disk :: ·)
        (trace_initialize_fresh crypto master draws disk database)

/-! ### Opening again -/

/-- The opening succeeds and yields a store with no key, whose operations do what they are
specified to do on one. -/
def RestartsEmpty (crypto : Crypto) (secretsKey : String) (draws : OpenDraws) (stopped : Disk) :
    Prop :=
  ∃ session later,
    runFiles (openStore crypto secretsKey false draws) stopped = (.ok session, later) ∧
      later.database = some Tables.initialised.database ∧
        ∀ (operation : Operation) (draws : Draws),
          (runStore (operation.perform crypto draws) session later).1 =
            (operation.plan crypto session.kek draws Tables.initialised).map Plan.answer

variable {site : Installation}

variable {disk : Disk} {crypto : Crypto} {secretsKey : String} {master used : Bytes}

variable {inserted : Bool} {draws : OpenDraws} {stopped : Disk}

theorem initialize_restarts (authentic : site.crypto.Authentic) (hash : site.crypto.CollisionFree)
    {session : Session} {stored : Tables} (nonce : Bytes) (loaded : Loaded site session disk stored)
    (versioned : withSchemaVersion false stored = .ok (Tables.initialised, inserted))
    (settled : session.envelope.pendingCommitment = none)
    (commitment : session.envelope.commitment = "" ∨ session.envelope.commitment = storeCommitment
      site.crypto Tables.initialised) :
    ∃ after later, initializeOutcome site.crypto nonce session stored disk =
        (.ok after, later) ∧
      Ready site after later Tables.initialised after.envelope.generation := by
  have opens : ∃ after later, initializeOutcome site.crypto nonce session stored disk =
      (.ok after, later) := by
    simp only [initializeOutcome, versioned, settlement, loaded.writable, Bool.false_eq_true,
      if_false]
    rcases commitment with empty | same
    · exact ⟨_, _, by rw [if_pos empty]⟩
    · have nonempty : session.envelope.commitment ≠ "" := by
        rw [same]
        exact store_commitment_ne_empty hash _
      exact ⟨_, _, by rw [if_neg nonempty, if_pos same.symm, settled, if_neg (by simp)]⟩
  obtain ⟨after, later, ended⟩ := opens
  obtain ⟨tables, again, versionedAgain, ready⟩ := initialize_ready authentic hash loaded ended
  rw [versioned] at versionedAgain
  cases versionedAgain
  exact ⟨after, later, ended, ready⟩

theorem ready_restarts_empty (authentic : site.crypto.Authentic) (hash : site.crypto.CollisionFree)
    {later : Disk} {session : Session} {generation : Nat}
    (ran : runFiles (openStore site.crypto site.secretsKey false draws) stopped = (.ok session,
      later)) (ready : Ready site session later Tables.initialised generation) :
    RestartsEmpty site.crypto site.secretsKey draws stopped := by
  obtain ⟨envelope, recoverable⟩ := ready.recoverable
  refine ⟨session, later, ran, recoverable.database, ?_⟩
  intro operation drawn
  rw [ready.remembers.kek]
  exact ready_answers authentic hash ready operation drawn

theorem fresh_restarts (authentic : crypto.Authentic) (hash : crypto.CollisionFree)
    (kek : disk.kek = none) (database : disk.database = none)
    (masters : masterKey crypto secretsKey = .ok master)
    (custody : custodyMaster crypto master disk.custody = .ok used) (draws : OpenDraws) :
    RestartsEmpty crypto secretsKey draws disk := by
  have ran := run_open_fresh crypto secretsKey draws disk kek database
  simp only [masters, custody, ok_bind, pure_is_ok] at ran
  let site : Installation := ⟨crypto, secretsKey, disk.custody, master, draws.kek.bytes, true⟩
  have valid : (settledEnvelope draws.kek.bytes 0 "").Valid :=
    settled_envelope_valid draws.kek.length 0 ""
  have loaded : Loaded site
      ⟨master, draws.kek.bytes, settledEnvelope draws.kek.bytes 0 "", false⟩
      (createdDisk crypto master draws disk) Tables.empty :=
    ⟨rfl, rfl, rfl, rfl, rfl,
      ⟨_, rfl, read_envelope_written authentic master draws.createNonce _ valid⟩,
      fun _ => ⟨_, rfl⟩, rfl⟩
  have versioned : withSchemaVersion false Tables.empty = .ok (Tables.initialised, true) := rfl
  obtain ⟨after, later, ended, ready⟩ := initialize_restarts authentic hash draws.settleNonce
    loaded versioned rfl (.inl rfl)
  have opened : runFiles (openStore crypto secretsKey false draws) disk = (.ok after, later) :=
    ran.trans ended
  exact (ready_restarts_empty authentic hash opened ready :
    RestartsEmpty site.crypto site.secretsKey draws disk)

theorem partial_restarts_iff (authentic : crypto.Authentic) (hash : crypto.CollisionFree)
    (bound : crypto.KeyBound) {nonce kek : Bytes} {commitment : String} {database : Database}
    (length : kek.length = 32) (envelope : disk.kek = some (envelopeText crypto master nonce
      (settledEnvelope kek 0 commitment))) (holds : disk.database = some database)
    (versioned : withSchemaVersion false (filledTables database) = .ok (Tables.initialised,
      inserted))
    (committed : commitment = "" ∨ commitment = storeCommitment crypto Tables.initialised)
    (masters : masterKey crypto secretsKey = .ok master)
    (custody : custodyMaster crypto master disk.custody = .ok used) (draws : OpenDraws) :
    RestartsEmpty crypto secretsKey draws disk ↔ used = master := by
  have ran := run_open_existing crypto secretsKey draws disk _ database envelope holds
  have valid : (settledEnvelope kek 0 commitment).Valid := settled_envelope_valid length 0 _
  constructor
  · rintro ⟨session, later, opened, -⟩
    by_contra different
    have closed : loadedKek crypto secretsKey disk.custody (envelopeText crypto master nonce
        (settledEnvelope kek 0 commitment)) = .error kekNotOpened := by
      simp only [loadedKek, masters, custody, ok_bind,
        read_envelope_other_key bound different nonce, error_bind]
    rw [closed, opened] at ran
    cases ran
  · rintro rfl
    have loads : loadedKek crypto secretsKey disk.custody (envelopeText crypto used nonce
        (settledEnvelope kek 0 commitment)) = .ok (used, settledEnvelope kek 0 commitment) := by
      simp only [loadedKek, masters, custody, ok_bind,
        read_envelope_written authentic used nonce _ valid, pure_is_ok]
    rw [loads] at ran
    let site : Installation := ⟨crypto, secretsKey, disk.custody, used, kek, true⟩
    have loaded : Loaded site ⟨used, kek, settledEnvelope kek 0 commitment, false⟩
        ((makeDatabaseDirectory disk).writeTables (filledTables database))
          (filledTables database) :=
      ⟨rfl, rfl, rfl, rfl, rfl,
        ⟨_, envelope, read_envelope_written authentic used nonce _ valid⟩,
        fun _ => ⟨nonce, envelope⟩, rfl⟩
    obtain ⟨after, later, ended, ready⟩ := initialize_restarts authentic hash draws.settleNonce
      loaded versioned rfl committed
    exact (ready_restarts_empty authentic hash (ran.trans ended) ready :
      RestartsEmpty site.crypto site.secretsKey draws disk)

/-- When a first opening that is interrupted after this many file-level steps can be taken
up: the secrets key gives a master key, a recovery custody file is absent or authentic,
the interruption does not come between the envelope and the database file, and once there
is an envelope the custody file does not hold another master key. -/
def Restartable (crypto : Crypto) (secretsKey : String) (custody : Option Bytes) (steps : Nat) :
    Prop :=
  ∃ master used, masterKey crypto secretsKey = .ok master ∧
    custodyMaster crypto master custody = .ok used ∧ steps ≠ 3 ∧ (steps < 3 ∨ used = master)

theorem locked_not_restarted {raised : Raised} (kek : disk.kek = none)
    (database : disk.database = none)
    (locked : (do
      let secretsMaster ← masterKey crypto secretsKey
      let _ ← custodyMaster crypto secretsMaster disk.custody
      return secretsMaster : Except Raised Bytes) = .error raised) (draws : OpenDraws) :
    ¬RestartsEmpty crypto secretsKey draws disk := by
  rintro ⟨session, later, opened, -⟩
  have ran := run_open_fresh crypto secretsKey draws disk kek database
  rw [locked, opened] at ran
  cases ran

theorem lone_envelope_refused {again : OpenDraws} (database : disk.database = none) :
    ¬RestartsEmpty crypto secretsKey again (envelopeDisk crypto master draws disk) := by
  rintro ⟨session, later, opened, -⟩
  have apart : (envelopeDisk crypto master draws disk).database.isSome ≠
      (envelopeDisk crypto master draws disk).kek.isSome := by
    change disk.database.isSome ≠ true
    rw [database]
    decide
  rw [run_open_apart crypto secretsKey again _ apart] at opened
  cases opened

theorem unlocked_restarts_iff (authentic : crypto.Authentic) (hash : crypto.CollisionFree)
    (bound : crypto.KeyBound) (kek : disk.kek = none) (database : disk.database = none)
    (masters : masterKey crypto secretsKey = .ok master)
    (custody : custodyMaster crypto master disk.custody = .ok used) (draws again : OpenDraws)
    {steps : Nat}
    (interrupted : (disk :: bootstrapDisks crypto master draws disk)[steps]? = some stopped) :
    RestartsEmpty crypto secretsKey again stopped ↔
      steps ≠ 3 ∧ (steps < 3 ∨ used = master) := by
  obtain ⟨custodyFile, databaseDirectory, kekDirectory, journal, _, _⟩ := disk
  simp only at kek database
  subst kek database
  have early : ∀ fresh : Disk, fresh.kek = none → fresh.database = none →
      fresh.custody = custodyFile → RestartsEmpty crypto secretsKey again fresh := by
    rintro fresh noKek noDatabase rfl
    exact fresh_restarts authentic hash noKek noDatabase masters custody again
  have late : ∀ (found : Disk) (files : Database) (nonce : Bytes) (commitment : String)
      (inserted : Bool), found.kek = some (envelopeText crypto master nonce
        (settledEnvelope draws.kek.bytes 0 commitment)) → found.database = some files →
          withSchemaVersion false (filledTables files) = .ok (Tables.initialised, inserted) →
            (commitment = "" ∨ commitment = storeCommitment crypto Tables.initialised) →
              found.custody = custodyFile →
                (RestartsEmpty crypto secretsKey again found ↔ used = master) := by
    rintro found files nonce commitment inserted envelope holds version committed rfl
    exact partial_restarts_iff authentic hash bound draws.kek.length envelope holds version
      committed masters custody again
  rcases steps with _ | _ | _ | _ | _ | _ | _ | _ | _ | more
  · cases interrupted
    exact iff_of_true (early _ rfl rfl rfl) (by simp)
  · cases interrupted
    exact iff_of_true (early _ rfl rfl rfl) (by simp)
  · cases interrupted
    exact iff_of_true (early _ rfl rfl rfl) (by simp)
  · cases interrupted
    exact iff_of_false (lone_envelope_refused rfl) (by simp)
  · cases interrupted
    exact (late _ ⟨none, none⟩ _ "" true rfl rfl rfl (.inl rfl) rfl).trans (by simp)
  · cases interrupted
    exact (late _ ⟨some ⟨[], List.Pairwise.nil⟩, none⟩ _ "" true rfl rfl rfl (.inl rfl)
      rfl).trans (by simp)
  · cases interrupted
    exact (late _ Tables.empty.database _ "" true rfl rfl rfl (.inl rfl) rfl).trans (by simp)
  · cases interrupted
    exact (late _ Tables.empty.database _ _ true rfl rfl rfl (.inr rfl) rfl).trans (by simp)
  · cases interrupted
    exact (late _ Tables.initialised.database _ _ false rfl rfl rfl (.inr rfl) rfl).trans
      (by simp)
  · cases interrupted

/-- A first opening that is interrupted after any of its file-level steps is taken up by a
later one exactly when it is restartable. -/
theorem bootstrap_restarts_iff {crypto : Crypto} (authentic : crypto.Authentic)
    (hash : crypto.CollisionFree) (bound : crypto.KeyBound) (secretsKey : String)
    {disk stopped : Disk} (kek : disk.kek = none) (database : disk.database = none)
    (draws again : OpenDraws) (steps : Nat)
    (interrupted : (disk :: traceFiles (openStore crypto secretsKey false draws) disk)[steps]? =
      some stopped) :
    RestartsEmpty crypto secretsKey again stopped ↔
      Restartable crypto secretsKey disk.custody steps := by
  rw [trace_open_fresh crypto secretsKey draws disk kek database] at interrupted
  have shut : ∀ raised, (do
      let secretsMaster ← masterKey crypto secretsKey
      let _ ← custodyMaster crypto secretsMaster disk.custody
      return secretsMaster : Except Raised Bytes) = .error raised →
        ¬RestartsEmpty crypto secretsKey again stopped := by
    intro raised locked
    rw [locked] at interrupted
    have member := List.mem_of_getElem? interrupted
    simp only [List.mem_cons, List.not_mem_nil, or_false] at member
    rcases member with rfl | rfl
    · exact locked_not_restarted kek database locked again
    · have created : (makeDatabaseDirectory disk).kek = none := kek
      exact locked_not_restarted created database locked again
  cases masters : masterKey crypto secretsKey with
  | error raised =>
    refine iff_of_false (shut raised (by rw [masters]; rfl)) ?_
    rintro ⟨master, used, impossible, -⟩
    rw [masters] at impossible
    cases impossible
  | ok master =>
    cases custody : custodyMaster crypto master disk.custody with
    | error raised =>
      refine iff_of_false (shut raised (by simp only [masters, ok_bind, custody]; rfl)) ?_
      rintro ⟨other, used, same, impossible, -⟩
      rw [masters] at same
      cases same
      rw [custody] at impossible
      cases impossible
    | ok used =>
      simp only [masters, custody, ok_bind, pure_is_ok] at interrupted
      rw [unlocked_restarts_iff authentic hash bound kek database masters custody draws again
        interrupted]
      constructor
      · exact fun holds => ⟨master, used, masters, custody, holds⟩
      · rintro ⟨other, otherUsed, same, sameUsed, holds⟩
        rw [masters] at same
        cases same
        rw [custody] at sameUsed
        cases sameUsed
        exact holds

/-- A directory with nothing in it. -/
def emptyDisk : Disk := ⟨none, false, false, false, none, none⟩

theorem trace_sample_bootstrap :
    traceFiles (openStore sampleSite.crypto "secret" false sampleOpenDraws) emptyDisk =
      bootstrapDisks sampleSite.crypto sampleSite.master sampleOpenDraws emptyDisk :=
  trace_open_fresh sampleSite.crypto "secret" sampleOpenDraws emptyDisk rfl rfl

/-- Interrupted once the envelope has its commitment and before the rows are committed. -/
theorem adopted_envelope_restarts : ∃ stopped,
    (emptyDisk :: traceFiles (openStore sampleSite.crypto "secret" false sampleOpenDraws)
        emptyDisk)[7]? = some stopped ∧
      RestartsEmpty sampleSite.crypto "secret" sampleOpenDraws stopped := by
  have interrupted : (emptyDisk :: traceFiles (openStore sampleSite.crypto "secret" false
      sampleOpenDraws) emptyDisk)[7]? =
        some (adoptedDisk sampleSite.crypto sampleSite.master sampleOpenDraws emptyDisk) := by
    rw [trace_sample_bootstrap]
    rfl
  refine ⟨_, interrupted, ?_⟩
  exact (bootstrap_restarts_iff transparent_authentic transparent_collision_free
    transparent_key_bound "secret" rfl rfl sampleOpenDraws sampleOpenDraws 7 interrupted).mpr
      ⟨sampleSite.master, sampleSite.master, rfl, rfl, by decide, .inr rfl⟩

/-- Interrupted when the envelope is written and the database file is not there yet. -/
theorem lone_envelope_not_restarted : ∃ stopped,
    (emptyDisk :: traceFiles (openStore sampleSite.crypto "secret" false sampleOpenDraws)
        emptyDisk)[3]? = some stopped ∧
      ¬RestartsEmpty sampleSite.crypto "secret" sampleOpenDraws stopped := by
  refine ⟨envelopeDisk sampleSite.crypto sampleSite.master sampleOpenDraws emptyDisk, ?_, ?_⟩
  · rw [trace_sample_bootstrap]
    rfl
  · exact lone_envelope_refused rfl

end Atlaso.Kmip.Bootstrap
