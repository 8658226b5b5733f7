import Atlaso.Kmip.StoreKeys
import Atlaso.Kmip.StoreRuns

/-!
The two-file commit of the key store, step by step and under faults.

The envelope admits rows at a generation: its own when they are the committed ones, the
pending one when they are the rows of an unfinished mutation. The invariant of the
protocol is that the envelope on disk and the envelope in memory admit the committed
rows at one and the same generation. Only the database commit changes the rows, and it
moves that generation by one.
-/

namespace Atlaso.Kmip.CommitProtocol

open Exceptions Identifiers StoreDocuments StoreFiles StoreKeys StoreOpening StoreOperations
open StoreRuns Library ByteWords FilePrograms Outcomes SortedTables

/-! ### Envelopes that admit rows -/

def settledGeneration (crypto : Crypto) (envelope : KekEnvelope) (tables : Tables) :
    Option Nat :=
  if storeCommitment crypto tables = envelope.commitment then some envelope.generation
  else if some (storeCommitment crypto tables) = envelope.pendingCommitment then
    envelope.pendingGeneration
  else none

def Records (crypto : Crypto) (envelope : KekEnvelope) (contents : Tables) : Prop :=
  storeCommitment crypto contents = envelope.commitment ∨
    some (storeCommitment crypto contents) = envelope.pendingCommitment

variable {crypto : Crypto} {kek : Bytes}

theorem settled_records {envelope : KekEnvelope} {tables : Tables} {generation : Nat}
    (settles : settledGeneration crypto envelope tables = some generation) :
    Records crypto envelope tables := by
  unfold settledGeneration at settles
  split at settles
  · rename_i committed
    exact .inl committed
  · split at settles
    · rename_i pending
      exact .inr pending
    · cases settles

/-- The keys of one installation, which no operation changes, and whether it also wrote
the first envelope of the file. -/
structure Installation where
  crypto : Crypto
  secretsKey : String
  custody : Option Bytes
  (master kek : Bytes)
  created : Bool

def Installation.Unlocks (site : Installation) : Prop :=
  (masterKey site.crypto site.secretsKey >>= fun secretsMaster =>
    custodyMaster site.crypto secretsMaster site.custody) = .ok site.master

structure Legible (site : Installation) (disk : Disk) (envelope : KekEnvelope)
    (tables : Tables) : Prop where
  custody : disk.custody = site.custody
  file : ∃ text, disk.kek = some text ∧ readEnvelope site.crypto site.master text = .ok envelope
  written : site.created → ∃ nonce,
    disk.kek = some (envelopeText site.crypto site.master nonce envelope)
  kek : envelope.kek = site.kek
  database : disk.database = some tables.database
  initialised : envelope.commitment ≠ ""
  version : schemaVersion tables = some (toString storeSchemaVersion)

structure Recoverable (site : Installation) (disk : Disk) (envelope : KekEnvelope)
    (tables : Tables) (generation : Nat) : Prop extends Legible site disk envelope tables where
  settles : settledGeneration site.crypto envelope tables = some generation

structure Remembers (site : Installation) (session : Session) (tables : Tables)
    (generation : Nat) : Prop where
  master : session.masterKey = site.master
  kek : session.kek = site.kek
  writable : session.readOnly = false
  valid : session.envelope.Valid
  sameKek : session.envelope.kek = site.kek
  initialised : session.envelope.commitment ≠ ""
  settles : settledGeneration site.crypto session.envelope tables = some generation

structure Ready (site : Installation) (session : Session) (disk : Disk) (tables : Tables)
    (generation : Nat) : Prop where
  recoverable : ∃ envelope, Recoverable site disk envelope tables generation
  remembers : Remembers site session tables generation

variable {site : Installation}

theorem tables_database_injective {left right : Tables}
    (same : left.database = right.database) : left = right :=
  Option.some.inj (congrArg Database.tables same)

theorem recoverable_unique {disk : Disk} {envelope other : KekEnvelope} {tables rows : Tables}
    {generation number : Nat} (left : Recoverable site disk envelope tables generation)
    (right : Recoverable site disk other rows number) :
    other = envelope ∧ rows = tables ∧ number = generation := by
  have sameTables : rows = tables := by
    apply tables_database_injective
    have stored := right.database
    rw [left.database] at stored
    exact (Option.some.inj stored).symm
  have sameEnvelope : other = envelope := by
    obtain ⟨text, file, read⟩ := left.file
    obtain ⟨otherText, otherFile, otherRead⟩ := right.file
    rw [file] at otherFile
    cases otherFile
    rw [read] at otherRead
    exact (Except.ok.inj otherRead).symm
  refine ⟨sameEnvelope, sameTables, ?_⟩
  have settles := right.settles
  rw [sameEnvelope, sameTables, left.settles] at settles
  exact (Option.some.inj settles).symm

theorem settled_envelope_settles (crypto : Crypto) (kek : Bytes) (generation : Nat)
    (tables : Tables) : settledGeneration crypto
      (settledEnvelope kek generation (storeCommitment crypto tables)) tables =
        some generation :=
  if_pos rfl

theorem settled_envelope_valid (length : kek.length = 32) (generation : Nat) (commitment : String) :
    (settledEnvelope kek generation commitment).Valid :=
  ⟨length, rfl⟩

/-- The generation in the file is the one at which it admits the rows, or one less. -/
theorem generation_le {envelope : KekEnvelope} {tables : Tables} {generation : Nat}
    (valid : envelope.Valid)
    (settles : settledGeneration crypto envelope tables = some generation) :
    envelope.generation ≤ generation := by
  unfold settledGeneration at settles
  split at settles
  · exact le_of_eq (Option.some.inj settles)
  · split at settles
    · rename_i pending
      rw [valid.pending, ← pending] at settles
      have next : envelope.generation + 1 = generation := Option.some.inj settles
      omega
    · cases settles

theorem recoverable_valid {disk : Disk} {envelope : KekEnvelope} {tables : Tables}
    {generation : Nat} (recoverable : Recoverable site disk envelope tables generation) :
    envelope.Valid := by
  obtain ⟨text, -, read⟩ := recoverable.file
  exact read_envelope_valid read

theorem settlement_remembered {session : Session} {tables : Tables} {generation : Nat}
    (remembers : Remembers site session tables generation) :
    (settlement session (storeCommitment site.crypto tables) = .accept ∧
      session.envelope = settledEnvelope site.kek generation
        (storeCommitment site.crypto tables)) ∨
      settlement session (storeCommitment site.crypto tables) =
        .rewrite (settledEnvelope site.kek generation (storeCommitment site.crypto tables)) := by
  have settles := remembers.settles
  have valid := remembers.valid
  unfold settlement
  simp only [remembers.writable, Bool.false_eq_true, if_false, if_neg remembers.initialised,
    remembers.kek]
  unfold settledGeneration at settles
  split at settles
  · rename_i committed
    cases Option.some.inj settles
    cases pending : session.envelope.pendingCommitment with
    | none =>
      left
      have noGeneration := valid.pending
      rw [pending] at noGeneration
      refine ⟨by simp [committed], ?_⟩
      rw [committed, ← remembers.sameKek]
      cases envelope : session.envelope
      simp_all [settledEnvelope]
    | some waiting =>
      right
      simp [committed]
  · rename_i uncommitted
    split at settles
    · rename_i pending
      right
      simp only [if_neg uncommitted, if_pos pending, settles]
    · cases settles

theorem recoverable_congr {disk later : Disk} {envelope : KekEnvelope} {tables : Tables}
    {generation : Nat} (recoverable : Recoverable site disk envelope tables generation)
    (custody : later.custody = disk.custody) (kek : later.kek = disk.kek)
    (database : later.database = disk.database) :
    Recoverable site later envelope tables generation :=
  ⟨⟨custody.trans recoverable.custody, kek ▸ recoverable.file, kek ▸ recoverable.written,
    recoverable.kek, database ▸ recoverable.database, recoverable.initialised,
    recoverable.version⟩, recoverable.settles⟩

/-- The envelopes that the protocol may write over `envelope` while the rows are
`tables`. -/
structure Replaces (site : Installation) (envelope new : KekEnvelope) (tables : Tables)
    (generation : Nat) : Prop where
  valid : new.Valid
  kek : new.kek = site.kek
  initialised : new.commitment ≠ ""
  settles : settledGeneration site.crypto new tables = some generation
  later : envelope.generation ≤ new.generation

theorem recoverable_write_kek {disk : Disk} {envelope new : KekEnvelope} {tables : Tables}
    {generation : Nat} (authentic : site.crypto.Authentic)
    (recoverable : Recoverable site disk envelope tables generation)
    (replaces : Replaces site envelope new tables generation) (nonce : Bytes) :
    Recoverable site (disk.writeKek (envelopeText site.crypto site.master nonce new)) new tables
      generation :=
  ⟨⟨recoverable.custody, ⟨_, rfl, read_envelope_written authentic site.master nonce new
    replaces.valid⟩, fun _ => ⟨nonce, rfl⟩, replaces.kek, recoverable.database,
    replaces.initialised, recoverable.version⟩, replaces.settles⟩

def Tables.initialised : Tables :=
  ⟨[("schema_version", toString storeSchemaVersion)], [], List.pairwise_singleton _ _,
    Tables.empty.keysSorted⟩

def initialisedDisk (site : Installation) (nonce : Bytes) : Disk where
  custody := none
  databaseDirectory := true
  kekDirectory := true
  journal := false
  kek := some (envelopeText site.crypto site.master nonce
    (settledEnvelope site.kek 0 (storeCommitment site.crypto Tables.initialised)))
  database := some Tables.initialised.database

theorem initialised_recoverable (authentic : site.crypto.Authentic)
    (hash : site.crypto.CollisionFree) (custody : site.custody = none)
    (kek : site.kek.length = 32) (nonce : Bytes) :
    Recoverable site (initialisedDisk site nonce)
      (settledEnvelope site.kek 0 (storeCommitment site.crypto Tables.initialised))
      Tables.initialised 0 := by
  exact ⟨⟨custody.symm, ⟨_, rfl, read_envelope_written authentic site.master nonce _
    (settled_envelope_valid kek _ _)⟩, fun _ => ⟨nonce, rfl⟩, rfl, rfl,
    store_commitment_ne_empty hash _, rfl⟩, settled_envelope_settles _ _ _ _⟩

def sampleSite : Installation :=
  ⟨Crypto.transparent, "secret", none, Crypto.transparent.sha256
    (utf8Encode "atlaso-kmip-master-v1\x00" ++ utf8Encode "secret"), List.replicate 32 7, true⟩

def sampleOpenDraws : OpenDraws := ⟨⟨List.replicate 32 7, rfl⟩, [], []⟩

def sampleDraws (keyId : Uuid) : Draws :=
  ⟨keyId, ⟨⟨2024, 1, 1, 0, 0, 0, 0⟩, by decide⟩, ⟨List.replicate 32 5, rfl⟩,
    ⟨List.replicate 12 3, rfl⟩, [], [], []⟩

def sampleSession : Session :=
  ⟨sampleSite.master, sampleSite.kek, settledEnvelope sampleSite.kek 0
    (storeCommitment sampleSite.crypto Tables.initialised), false⟩

theorem sample_unlocks : sampleSite.Unlocks := rfl

theorem sample_recoverable : Recoverable sampleSite (initialisedDisk sampleSite [])
    (settledEnvelope sampleSite.kek 0 (storeCommitment sampleSite.crypto Tables.initialised))
      Tables.initialised 0 :=
  initialised_recoverable transparent_authentic transparent_collision_free rfl rfl []

theorem settled_replaces {disk : Disk} {envelope : KekEnvelope} {tables : Tables}
    {generation : Nat} (hash : site.crypto.CollisionFree)
    (recoverable : Recoverable site disk envelope tables generation) :
    Replaces site envelope (settledEnvelope site.kek generation
      (storeCommitment site.crypto tables)) tables generation := by
  have valid := recoverable_valid recoverable
  refine ⟨settled_envelope_valid ?_ _ _, rfl, ?_, settled_envelope_settles _ _ _ _, ?_⟩
  · rw [← recoverable.kek]
    exact valid.kek
  · exact store_commitment_ne_empty hash tables
  · exact generation_le valid recoverable.settles

theorem open_recoverable {disk : Disk} {envelope : KekEnvelope} {tables : Tables} {generation : Nat}
    (authentic : site.crypto.Authentic) (hash : site.crypto.CollisionFree) (unlocks : site.Unlocks)
    (recoverable : Recoverable site disk envelope tables generation) (draws : OpenDraws) :
    ∃ reopened, runFiles (openStore site.crypto site.secretsKey false draws) disk =
        (.ok ⟨site.master, site.kek, settledEnvelope site.kek generation
          (storeCommitment site.crypto tables), false⟩, reopened) ∧
      Recoverable site reopened (settledEnvelope site.kek generation
        (storeCommitment site.crypto tables)) tables generation := by
  obtain ⟨text, kek, read⟩ := recoverable.file
  have loaded : loadedKek site.crypto site.secretsKey disk.custody text =
      .ok (site.master, envelope) := by
    obtain ⟨secretsMaster, secrets, custody⟩ := bind_ok_iff.mp unlocks
    rw [← recoverable.custody] at custody
    simp only [loadedKek, secrets, custody, read, ok_bind, pure_is_ok]
  have remembers : Remembers site ⟨site.master, site.kek, envelope, false⟩ tables generation :=
    ⟨rfl, rfl, rfl, read_envelope_valid read, recoverable.kek, recoverable.initialised,
      recoverable.settles⟩
  have version : withSchemaVersion false tables = .ok (tables, false) := by
    simp [withSchemaVersion, recoverable.version]
  have prepared : Recoverable site ((makeDatabaseDirectory disk).writeTables tables) envelope
      tables generation :=
    recoverable_congr recoverable rfl rfl recoverable.database.symm
  have opened := run_open_existing site.crypto site.secretsKey draws disk text tables.database
    kek recoverable.database
  rw [loaded] at opened
  simp only [filled_tables_database, initializeOutcome, version, recoverable.kek] at opened
  rcases settlement_remembered remembers with ⟨accept, same⟩ | rewrite
  · simp only [accept] at opened
    have sameEnvelope : envelope = settledEnvelope site.kek generation
        (storeCommitment site.crypto tables) := same
    rw [← sameEnvelope]
    exact ⟨_, opened, prepared⟩
  · simp only [rewrite] at opened
    exact ⟨_, opened, recoverable_write_kek authentic prepared
      (settled_replaces hash recoverable) draws.settleNonce⟩

theorem settlement_settled {session : Session} {generation : Nat} {tables : Tables}
    (writable : session.readOnly = false)
    (settled : session.envelope = settledEnvelope kek generation (storeCommitment crypto tables))
    (initialised : storeCommitment crypto tables ≠ "") :
    settlement session (storeCommitment crypto tables) = .accept := by
  unfold settlement
  simp [writable, settled, settledEnvelope, initialised]

def sampleDisk : Disk := initialisedDisk sampleSite []

theorem sample_accepts : settlement sampleSession
    (storeCommitment sampleSite.crypto Tables.initialised) = .accept :=
  @settlement_settled sampleSite.crypto sampleSite.kek sampleSession 0 Tables.initialised rfl rfl
    (store_commitment_ne_empty transparent_collision_free Tables.initialised)

theorem sample_opens :
    runFiles (openStore sampleSite.crypto "secret" false sampleOpenDraws) sampleDisk =
      (.ok sampleSession, sampleDisk) := by
  obtain ⟨text, file, read⟩ := sample_recoverable.file
  have loaded : loadedKek sampleSite.crypto "secret" sampleDisk.custody text =
      .ok (sampleSite.master, sampleSession.envelope) := by
    obtain ⟨secretsMaster, secrets, custody⟩ := bind_ok_iff.mp sample_unlocks
    rw [← sample_recoverable.custody] at custody
    exact bind_ok_iff.mpr ⟨secretsMaster, secrets, bind_ok_iff.mpr ⟨_, custody,
      bind_ok_iff.mpr ⟨_, read, rfl⟩⟩⟩
  have version : withSchemaVersion false Tables.initialised = .ok (Tables.initialised, false) :=
    rfl
  rw [run_open_existing _ _ _ sampleDisk text Tables.initialised.database file rfl, loaded]
  have accepts : settlement ⟨sampleSite.master, sampleSession.envelope.kek,
      sampleSession.envelope, false⟩ (storeCommitment sampleSite.crypto Tables.initialised) =
        .accept := sample_accepts
  simp only [filled_tables_database, initializeOutcome, version, accepts]
  rfl

theorem sample_ready : Ready sampleSite sampleSession sampleDisk Tables.initialised 0 :=
  ⟨⟨_, sample_recoverable⟩, ⟨rfl, rfl, rfl, recoverable_valid sample_recoverable, rfl,
    sample_recoverable.initialised, sample_recoverable.settles⟩⟩

def sampleProvider : String := Uuid.text ⟨2, by decide⟩

def sampleKey : Draws := sampleDraws ⟨1, by decide⟩

/-- A creation in the sample store comes to its commit. -/
theorem sample_create_idles :
    ∃ inserted, Extends sampleSite.crypto sampleSite.kek Tables.initialised inserted ∧
      Relation.ReflTransGen (Idles sampleDisk)
        ((Operation.create sampleProvider none []).perform sampleSite.crypto sampleKey
          sampleSession)
        ((commitMutation sampleSite.crypto sampleKey inserted >>= fun _ =>
          pure (.metadata (newMetadata sampleKey sampleProvider none []))) sampleSession) := by
  obtain ⟨inserted, insertion⟩ : ∃ inserted, Tables.initialised.insertKey (wrappedRow
      sampleSite.crypto sampleSession.kek sampleKey
        (newMetadata sampleKey sampleProvider none [])) = .ok inserted := ⟨_, rfl⟩
  exact ⟨inserted, insert_key_extends insertion,
    create_idles rfl rfl (validated_uuid_text _ _) rfl rfl sample_accepts insertion _⟩

/-! ### Safety under faults -/

/-- The faults that the protocol tolerates: an envelope write fails before or after the
file is replaced, the database commit fails without effect, and so does the rollback. -/
def commitFaults : FileStep → Outcome → Prop
  | .settleEnvelope, _ | .pendingEnvelope, _ | .restoreEnvelope, _ | .finalEnvelope, _ => True
  | .commitMutation, outcome | .rollback, outcome => outcome = .refused
  | _, _ => False

def Calm (faults : FileStep → Outcome → Prop) : Prop := ∀ step outcome, ¬faults step outcome

section Safety

variable {faults : FileStep → Outcome → Prop} {guarantee : Disk → Disk → Prop}
  {Value Next : Type}

/-- Safety of a method that is called in a session. -/
def SafeM (faults : FileStep → Outcome → Prop) (guarantee : Disk → Disk → Prop)
    (post : Except Raised Value → Session → Disk → Prop) (action : StoreM Value)
    (session : Session) (disk : Disk) : Prop :=
  Safe faults guarantee (fun outcome disk => post outcome.1 outcome.2 disk) (action session) disk

variable {post : Except Raised Value → Session → Disk → Prop} {action : StoreM Value}

theorem safe_m_iff {session : Session} {disk : Disk} :
    SafeM faults guarantee post action session disk ↔
      Safe faults guarantee (fun outcome disk => post outcome.1 outcome.2 disk)
        (action session) disk :=
  Iff.rfl

/-- How a method goes on after an earlier one: an exception ends it. -/
def Continues (faults : FileStep → Outcome → Prop) (guarantee : Disk → Disk → Prop)
    (post : Except Raised Next → Session → Disk → Prop) (next : Value → StoreM Next)
    (result : Except Raised Value) (session : Session) (disk : Disk) : Prop :=
  match result with
  | .ok value => SafeM faults guarantee post (next value) session disk
  | .error raised => post (.error raised) session disk

theorem safe_m_bind {post : Except Raised Next → Session → Disk → Prop} {next : Value → StoreM Next}
    {session : Session} {disk : Disk}
    (safe : SafeM faults guarantee (Continues faults guarantee post next) action session disk) :
    SafeM faults guarantee post (action >>= next) session disk := by
  refine safe_bind (safe_weaken safe ?_)
  rintro ⟨result, after⟩ later continues
  cases result with
  | ok value => exact continues
  | error raised => exact continues

theorem safe_m_session {post : Except Raised Next → Session → Disk → Prop}
    {next : Session → StoreM Next} {session : Session} {disk : Disk}
    (safe : SafeM faults guarantee post (next session) session disk) :
    SafeM faults guarantee post (StoreM.session >>= next) session disk :=
  safe

theorem safe_m_weaken {after : Except Raised Value → Session → Disk → Prop} {session : Session}
    {disk : Disk} (safe : SafeM faults guarantee post action session disk)
    (weaker : ∀ result session disk, post result session disk → after result session disk) :
    SafeM faults guarantee after action session disk :=
  safe_weaken safe fun outcome disk => weaker outcome.1 outcome.2 disk

theorem run_of_safe {session : Session} {disk : Disk}
    (safe : SafeM faults guarantee post action session disk) :
    post (runStore action session disk).1 (runStore action session disk).2.1
      (runStore action session disk).2.2 := by
  have ends : ∀ (program : Files (Except Raised Value × Session)) (disk : Disk),
      Safe faults guarantee (fun outcome disk => post outcome.1 outcome.2 disk) program disk →
        post (program.run disk).1.1 (program.run disk).1.2 (program.run disk).2 := by
    intro program
    induction program with
    | done outcome => exact fun disk safe => safe
    | observe next induction => exact fun disk safe => induction disk disk safe
    | update step effect next induction =>
      intro disk safe
      exact induction true _ (safe .applied (.inl rfl)).2
  exact ends _ _ safe

theorem safe_read_tables {post : Except Raised Tables → Session → Disk → Prop} {disk : Disk}
    {tables : Tables} {session : Session} (stored : disk.database = some tables.database)
    (ends : post (.ok tables) session disk) :
    SafeM faults guarantee post readTables session disk := by
  have read : orRaise (.osError "no such table") (disk.database.bind Database.tables) =
      .ok tables := by
    simp [stored, orRaise]
  have shown : post (orRaise (.osError "no such table") (disk.database.bind Database.tables))
      session disk := read ▸ ends
  exact shown

end Safety

/-- One step of the protocol: the disk stays recoverable, the generation in the file does
not decrease, and the rows change only as `changes` allows, at the next generation. -/
def Progress (site : Installation) (changes : Tables → Tables → Prop) (disk later : Disk) :
    Prop :=
  ∀ envelope tables generation, Recoverable site disk envelope tables generation →
    ∃ envelope' tables' generation', Recoverable site later envelope' tables' generation' ∧
      envelope.generation ≤ envelope'.generation ∧
        ((tables' = tables ∧ generation' = generation) ∨
          (changes tables tables' ∧ generation' = generation + 1))

section Protocol

variable {faults : FileStep → Outcome → Prop} {changes : Tables → Tables → Prop}
  {session : Session} {disk : Disk} {envelope : KekEnvelope} {tables : Tables}
  {generation : Nat}

theorem progress_refl (disk : Disk) : Progress site changes disk disk :=
  fun envelope tables generation recoverable =>
    ⟨envelope, tables, generation, recoverable, le_rfl, .inl ⟨rfl, rfl⟩⟩

variable {new : KekEnvelope} {draws : Draws}

theorem progress_write_kek (authentic : site.crypto.Authentic)
    (recoverable : Recoverable site disk envelope tables generation)
    (replaces : Replaces site envelope new tables generation) (nonce : Bytes) :
    Progress site changes disk
      (disk.writeKek (envelopeText site.crypto site.master nonce new)) := by
  intro other rows number same
  obtain ⟨rfl, rfl, rfl⟩ := recoverable_unique recoverable same
  exact ⟨new, rows, number, recoverable_write_kek authentic same replaces nonce, replaces.later,
    .inl ⟨rfl, rfl⟩⟩

/-- How a write of the envelope ends: the file and the memory hold the new envelope; or it
failed, the memory is as before and the file holds one of the two. -/
def Written (site : Installation) (faults : FileStep → Outcome → Prop) (session : Session)
    (envelope new : KekEnvelope) (tables : Tables) (generation : Nat)
    (result : Except Raised Unit) (after : Session) (later : Disk) : Prop :=
  (result = .ok () ∧ after = session.remember new ∧
      Recoverable site later new tables generation) ∨
    (¬Calm faults ∧ (∃ raised, result = .error raised) ∧ after = session ∧
      ∃ held, (held = envelope ∨ held = new) ∧ Recoverable site later held tables generation)

theorem safe_write_envelope (authentic : site.crypto.Authentic)
    (recoverable : Recoverable site disk envelope tables generation)
    (replaces : Replaces site envelope new tables generation)
    (master : session.masterKey = site.master) (step : FileStep) (nonce : Bytes) :
    SafeM faults (Progress site changes)
      (Written site faults session envelope new tables generation)
      (writeEnvelope site.crypto step nonce new) session disk := by
  intro outcome possible
  rw [master]
  have written := recoverable_write_kek authentic recoverable replaces nonce
  have progress : Progress site changes disk _ :=
    progress_write_kek authentic recoverable replaces nonce
  have faulty : outcome ≠ .applied → ¬Calm faults := by
    intro failed calm
    rcases possible with applied | fault
    · exact failed applied
    · exact calm step outcome fault
  cases outcome with
  | applied => exact ⟨progress, .inl ⟨rfl, rfl, written⟩⟩
  | refused =>
    exact ⟨progress_refl disk, .inr ⟨faulty (by simp), ⟨_, rfl⟩, rfl, envelope, .inl rfl,
      recoverable⟩⟩
  | appliedLate =>
    exact ⟨progress, .inr ⟨faulty (by simp), ⟨_, rfl⟩, rfl, new, .inr rfl, written⟩⟩

theorem remembers_remember (remembers : Remembers site session tables generation)
    (replaces : Replaces site envelope new tables generation) :
    Remembers site (session.remember new) tables generation :=
  ⟨remembers.master, remembers.kek, remembers.writable, replaces.valid, replaces.kek,
    replaces.initialised, replaces.settles⟩

/-- How the verification at the start of an operation ends. -/
def Verified (site : Installation) (faults : FileStep → Outcome → Prop) (tables : Tables)
    (generation : Nat) (result : Except Raised Unit) (after : Session) (later : Disk) : Prop :=
  Ready site after later tables generation ∧
    ((result = .ok () ∧ after.envelope =
        settledEnvelope site.kek generation (storeCommitment site.crypto tables)) ∨
      (¬Calm faults ∧ ∃ raised, result = .error raised))

theorem safe_verify_store (authentic : site.crypto.Authentic) (hash : site.crypto.CollisionFree)
    (ready : Ready site session disk tables generation) (draws : Draws) :
    SafeM faults (Progress site changes) (Verified site faults tables generation)
      (verifyStore site.crypto draws) session disk := by
  obtain ⟨⟨envelope, recoverable⟩, remembers⟩ := ready
  refine safe_m_bind (safe_read_tables recoverable.database ?_)
  change SafeM _ _ _ (verifyStoreCommitment site.crypto draws.settleNonce tables) session disk
  have decided : SafeM faults (Progress site changes) (Verified site faults tables generation)
      (settle site.crypto draws.settleNonce
        (settlement session (storeCommitment site.crypto tables))) session disk := by
    rcases settlement_remembered remembers with ⟨accept, same⟩ | rewrite
    · rw [accept]
      exact ⟨⟨⟨envelope, recoverable⟩, remembers⟩, .inl ⟨rfl, same⟩⟩
    · rw [rewrite]
      have replaces := settled_replaces hash recoverable
      refine safe_m_weaken (safe_write_envelope authentic recoverable replaces remembers.master
        .settleEnvelope draws.settleNonce) ?_
      rintro result after later (⟨done, rfl, written⟩ | ⟨faulty, failed, rfl, held, -, holds⟩)
      · exact ⟨⟨⟨_, written⟩, remembers_remember remembers replaces⟩, .inl ⟨done, rfl⟩⟩
      · exact ⟨⟨⟨held, holds⟩, remembers⟩, .inr ⟨faulty, failed⟩⟩
  exact decided

/-- The pending envelope of a mutation from `tables` to `later`. -/
def pendingEnvelope (site : Installation) (generation : Nat) (tables later : Tables) :
    KekEnvelope :=
  ⟨site.kek, generation, storeCommitment site.crypto tables, some (generation + 1),
    some (storeCommitment site.crypto later)⟩

theorem pending_settles_before (site : Installation) (generation : Nat) (tables later : Tables) :
    settledGeneration site.crypto (pendingEnvelope site generation tables later) tables =
      some generation :=
  if_pos rfl

theorem pending_settles_after (hash : site.crypto.CollisionFree) (generation : Nat)
    {tables later : Tables} (changed : later ≠ tables) :
    settledGeneration site.crypto (pendingEnvelope site generation tables later) later =
      some (generation + 1) := by
  have different : storeCommitment site.crypto later ≠ storeCommitment site.crypto tables :=
    fun same => changed (store_commitment_injective hash same)
  exact (if_neg different).trans (if_pos rfl)

/-- How a commit ends: the new rows are committed; or it failed and the store is at the
old rows or at the new ones. -/
def Committed (site : Installation) (faults : FileStep → Outcome → Prop) (tables later : Tables)
    (generation : Nat) (result : Except Raised Unit) (after : Session) (disk : Disk) : Prop :=
  (result = .ok () ∧ Ready site after disk later (generation + 1)) ∨
    (¬Calm faults ∧ (∃ raised, result = .error raised) ∧
      (Ready site after disk tables generation ∨ Ready site after disk later (generation + 1)))

theorem recoverable_write_tables (recoverable : Recoverable site disk envelope tables generation)
    {later : Tables} {next : Nat} (version : schemaVersion later = schemaVersion tables)
    (settles : settledGeneration site.crypto envelope later = some next) :
    Recoverable site (disk.writeTables later) envelope later next :=
  ⟨⟨recoverable.custody, recoverable.file, recoverable.written, recoverable.kek, rfl,
    recoverable.initialised, version.trans recoverable.version⟩, settles⟩

theorem safe_finish_mutation (authentic : site.crypto.Authentic)
    (hash : site.crypto.CollisionFree) {later : Tables}
    (tolerated : ∀ step outcome, faults step outcome → commitFaults step outcome)
    (recoverable : Recoverable site disk (pendingEnvelope site generation tables later) tables
      generation)
    (remembers : Remembers site session tables generation)
    (inMemory : session.envelope = pendingEnvelope site generation tables later)
    (changed : later ≠ tables) (version : schemaVersion later = schemaVersion tables)
    (allowed : changes tables later) (draws : Draws) :
    SafeM faults (Progress site changes) (Committed site faults tables later generation)
      (finishMutation site.crypto draws site.kek generation
        (storeCommitment site.crypto tables) later) session disk := by
  have afterCommit := recoverable_write_tables recoverable version
    (pending_settles_after hash generation changed)
  have remembersLater : Remembers site session later (generation + 1) :=
    ⟨remembers.master, remembers.kek, remembers.writable, remembers.valid, remembers.sameKek,
      remembers.initialised, inMemory ▸ pending_settles_after hash generation changed⟩
  refine safe_m_bind ?_
  intro outcome possible
  have noLate : outcome = .applied ∨ (outcome = .refused ∧ ¬Calm faults) := by
    rcases possible with applied | fault
    · exact .inl applied
    · exact .inr ⟨tolerated _ _ fault, fun calm => calm _ _ fault⟩
  rcases noLate with rfl | ⟨rfl, faulty⟩
  · refine ⟨?_, ?_⟩
    · intro other rows number same
      obtain ⟨rfl, rfl, rfl⟩ := recoverable_unique recoverable same
      exact ⟨_, later, _, afterCommit, le_rfl, .inr ⟨allowed, rfl⟩⟩
    · have replaces := settled_replaces hash afterCommit
      refine safe_m_weaken (safe_write_envelope authentic afterCommit replaces remembers.master
        .finalEnvelope draws.closingNonce) ?_
      rintro result after disk (⟨done, rfl, written⟩ | ⟨faulty, failed, rfl, held, -, holds⟩)
      · exact .inl ⟨done, ⟨_, written⟩, remembers_remember remembersLater replaces⟩
      · exact .inr ⟨faulty, failed, .inr ⟨⟨held, holds⟩, remembersLater⟩⟩
  · refine ⟨progress_refl disk, ?_⟩
    refine safe_m_bind ?_
    intro rolled _
    cases rolled with
    | applied =>
      refine ⟨progress_refl disk, ?_⟩
      have replaces := settled_replaces hash recoverable
      refine safe_m_bind (safe_m_weaken (safe_write_envelope authentic recoverable replaces
        remembers.master .restoreEnvelope draws.closingNonce) ?_)
      rintro result after disk
        (⟨rfl, rfl, written⟩ | ⟨-, ⟨raised, rfl⟩, rfl, held, -, holds⟩)
      · exact .inr ⟨faulty, ⟨_, rfl⟩, .inl ⟨⟨_, written⟩, remembers_remember remembers
          replaces⟩⟩
      · exact .inr ⟨faulty, ⟨raised, rfl⟩, .inl ⟨⟨held, holds⟩, remembers⟩⟩
    | refused =>
      exact ⟨progress_refl disk, .inr ⟨faulty, ⟨_, rfl⟩, .inl ⟨⟨_, recoverable⟩, remembers⟩⟩⟩
    | appliedLate =>
      exact ⟨progress_refl disk, .inr ⟨faulty, ⟨_, rfl⟩, .inl ⟨⟨_, recoverable⟩, remembers⟩⟩⟩

theorem safe_commit_mutation (authentic : site.crypto.Authentic)
    (hash : site.crypto.CollisionFree) {later : Tables}
    (tolerated : ∀ step outcome, faults step outcome → commitFaults step outcome)
    (ready : Ready site session disk tables generation)
    (settled : session.envelope =
      settledEnvelope site.kek generation (storeCommitment site.crypto tables))
    (changed : later ≠ tables) (version : schemaVersion later = schemaVersion tables)
    (allowed : changes tables later) (draws : Draws) :
    SafeM faults (Progress site changes) (Committed site faults tables later generation)
      (commitMutation site.crypto draws later) session disk := by
  obtain ⟨⟨envelope, recoverable⟩, remembers⟩ := ready
  have replaces : Replaces site envelope (pendingEnvelope site generation tables later) tables
      generation := by
    have valid := recoverable_valid recoverable
    have kekLength : site.kek.length = 32 := recoverable.kek ▸ valid.kek
    exact ⟨⟨kekLength, rfl⟩, rfl, store_commitment_ne_empty hash tables,
      pending_settles_before site generation tables later,
      generation_le valid recoverable.settles⟩
  unfold SafeM commitMutation
  change SafeM faults (Progress site changes) (Committed site faults tables later generation)
    (do
      writeEnvelope site.crypto .pendingEnvelope draws.pendingNonce
        ⟨session.kek, session.envelope.generation, session.envelope.commitment,
          some (session.envelope.generation + 1), some (storeCommitment site.crypto later)⟩
      finishMutation site.crypto draws session.kek session.envelope.generation
        session.envelope.commitment later) session disk
  rw [settled, remembers.kek]
  refine safe_m_bind (safe_m_weaken (safe_write_envelope authentic recoverable replaces
    remembers.master .pendingEnvelope draws.pendingNonce) ?_)
  rintro result after disk
    (⟨rfl, rfl, pending⟩ | ⟨faulty, ⟨raised, rfl⟩, rfl, held, -, holds⟩)
  · exact safe_finish_mutation authentic hash tolerated pending
      (remembers_remember remembers replaces) rfl changed version allowed draws
  · exact .inr ⟨faulty, ⟨raised, rfl⟩, .inl ⟨⟨held, holds⟩, remembers⟩⟩

/-! ### Whole operations -/

/-- How an operation ends that started on `tables` at `generation`: as planned; or, where
a fault was possible, with an exception and the rows as before or as planned. -/
def Performed (site : Installation) (faults : FileStep → Outcome → Prop)
    (plan : Except Raised Plan) (tables : Tables) (generation : Nat)
    (result : Except Raised Answer) (after : Session) (disk : Disk) : Prop :=
  match plan with
  | .error raised => Ready site after disk tables generation ∧
      (result = .error raised ∨ (¬Calm faults ∧ ∃ other, result = .error other))
  | .ok ⟨answer, none⟩ => Ready site after disk tables generation ∧
      (result = .ok answer ∨ (¬Calm faults ∧ ∃ other, result = .error other))
  | .ok ⟨answer, some later⟩ =>
    (result = .ok answer ∧ Ready site after disk later (generation + 1)) ∨
      (¬Calm faults ∧ (∃ other, result = .error other) ∧
        (Ready site after disk tables generation ∨
          Ready site after disk later (generation + 1)))

theorem performed_fault {plan : Except Raised Plan} {raised : Raised} {after : Session}
    {later : Disk} (faulty : ¬Calm faults) (ready : Ready site after later tables generation) :
    Performed site faults plan tables generation (.error raised) after later := by
  unfold Performed
  split
  · exact ⟨ready, .inr ⟨faulty, raised, rfl⟩⟩
  · exact ⟨ready, .inr ⟨faulty, raised, rfl⟩⟩
  · exact .inr ⟨faulty, ⟨raised, rfl⟩, .inl ready⟩

theorem safe_after_verify {plan : Except Raised Plan} (authentic : site.crypto.Authentic)
    (hash : site.crypto.CollisionFree) {action : StoreM Answer}
    (ready : Ready site session disk tables generation) (next : ∀ after later, Ready site after
      later tables generation → after.envelope = settledEnvelope site.kek generation
      (storeCommitment site.crypto tables) → SafeM faults (Progress site changes) (Performed site
      faults plan tables generation) action after later) :
    SafeM faults (Progress site changes) (Performed site faults plan tables generation)
      (do
        verifyStore site.crypto draws
        action) session disk := by
  refine safe_m_bind (safe_m_weaken (safe_verify_store authentic hash ready draws) ?_)
  rintro result after later ⟨verified, ⟨rfl, settled⟩ | ⟨faulty, raised, rfl⟩⟩
  · exact next after later verified settled
  · exact performed_fault faulty verified

/-- The last part of an operation that only reads. -/
theorem safe_answer {result : Except Raised Answer}
    (ready : Ready site session disk tables generation) :
    SafeM faults (Progress site changes)
      (Performed site faults (result.map fun answer => ⟨answer, none⟩) tables generation)
      (StoreM.lift result) session disk := by
  cases result with
  | ok answer => exact ⟨ready, .inl rfl⟩
  | error raised => exact ⟨ready, .inl rfl⟩

theorem safe_read_key {plan : Except Raised Plan} (authentic : site.crypto.Authentic)
    (hash : site.crypto.CollisionFree) {next : StoredKey × Bytes → StoreM Answer}
    (providerId keyId : String) (ready : Ready site session disk tables generation)
    (goes : ∀ after later, Ready site after later tables generation → after.envelope =
      settledEnvelope site.kek generation (storeCommitment site.crypto tables) → Continues faults
      (Progress site changes) (Performed site faults plan tables generation) next (readPlan
      site.crypto site.kek tables providerId keyId) after later) :
    SafeM faults (Progress site changes) (Performed site faults plan tables generation)
      (do
        let read ← getKey site.crypto draws providerId keyId
        next read) session disk := by
  refine safe_m_bind (safe_m_bind (safe_m_weaken (safe_verify_store authentic hash ready draws)
    ?_))
  rintro result after later ⟨verified, ⟨rfl, settled⟩ | ⟨faulty, raised, rfl⟩⟩
  · obtain ⟨held, holds⟩ := verified.recoverable
    refine safe_m_bind (safe_read_tables holds.database ?_)
    have done := goes after later verified settled
    unfold readPlan at done
    change SafeM _ _ _ (do
      let row ← StoreM.lift (findKeyRow tables providerId keyId)
      let session ← StoreM.session
      StoreM.lift (decryptRow site.crypto session.kek row)) after later
    cases found : findKeyRow tables providerId keyId with
    | error raised =>
      rw [found] at done
      exact done
    | ok row =>
      rw [found, ok_bind, ← verified.remembers.kek] at done
      exact done
  · exact performed_fault faulty verified

theorem schema_version_of_metadata {tables later : Tables}
    (same : later.metadata = tables.metadata) : schemaVersion later = schemaVersion tables := by
  unfold schemaVersion
  rw [same]

theorem safe_planned_commit (authentic : site.crypto.Authentic) (hash : site.crypto.CollisionFree)
    {later : Tables} {answer : Answer}
    (tolerated : ∀ step outcome, faults step outcome → commitFaults step outcome)
    (ready : Ready site session disk tables generation)
    (settled : session.envelope = settledEnvelope site.kek generation (storeCommitment site.crypto
      tables)) (extends' : Extends site.crypto site.kek tables later)
    (allowed : changes tables later) :
    SafeM faults (Progress site changes)
      (Performed site faults (.ok ⟨answer, some later⟩) tables generation)
      (do
        commitMutation site.crypto draws later
        return answer) session disk := by
  refine safe_m_bind (safe_m_weaken (safe_commit_mutation authentic hash tolerated ready settled
    extends'.changed (schema_version_of_metadata extends'.metadata) allowed draws) ?_)
  rintro result after disk (⟨rfl, committed⟩ | ⟨faulty, ⟨raised, rfl⟩, either⟩)
  · exact .inl ⟨rfl, committed⟩
  · exact .inr ⟨faulty, ⟨raised, rfl⟩, either⟩

theorem insert_key_row_writable (writable : session.readOnly = false) (row : WrappedRow) :
    insertKeyRow tables row session = StoreM.lift (tables.insertKey row) session := by
  have unfolded : insertKeyRow tables row session =
      (if session.readOnly then StoreM.raise (.osError "attempt to write a readonly database")
        else StoreM.lift (tables.insertKey row) : StoreM Tables) session := rfl
  rw [unfolded, writable]
  rfl

variable (authentic : site.crypto.Authentic) (hash : site.crypto.CollisionFree)
  (ready : Ready site session disk tables generation)
include authentic hash ready

theorem safe_create (providerId : String) (name : Option String)
    (customAttributes : List (String × String))
    (tolerated : ∀ step outcome, faults step outcome → commitFaults step outcome)
    (allowed : ∀ answer later, (Operation.create providerId name customAttributes).plan site.crypto
      site.kek draws tables = .ok ⟨answer, some later⟩ → changes tables later) :
    SafeM faults (Progress site changes)
      (Performed site faults ((Operation.create providerId name customAttributes).plan
        site.crypto site.kek draws tables) tables generation)
      ((Operation.create providerId name customAttributes).perform site.crypto draws)
      session disk := by
  simp only [Operation.perform, createKey, store_bind_assoc]
  simp only [Operation.plan, createPlan] at allowed ⊢
  cases provider : validatedUuid providerId "provider_id" with
  | error raised => exact ⟨ready, .inl rfl⟩
  | ok normalized =>
    rw [provider] at allowed
    cases attributes : validatedCustomAttributes (textMembers customAttributes) with
    | error raised => exact ⟨ready, .inl rfl⟩
    | ok pairs =>
      rw [attributes] at allowed
      cases named : validateName name with
      | error raised => exact ⟨ready, .inl rfl⟩
      | ok _ =>
        rw [named] at allowed
        simp only [ok_bind, pure_is_ok] at allowed ⊢
        simp only [store_lift_ok_bind]
        change SafeM _ _ _ (do
          verifyStore site.crypto draws
          let tables ← readTables
          let inserted ← insertKeyRow tables (wrappedRow site.crypto session.kek draws
            (newMetadata draws normalized name pairs))
          commitMutation site.crypto draws inserted
          pure (Answer.metadata (newMetadata draws normalized name pairs))) session disk
        rw [ready.remembers.kek]
        refine safe_after_verify authentic hash ready ?_
        intro after later verified settled
        obtain ⟨held, holds⟩ := verified.recoverable
        refine safe_m_bind (safe_read_tables holds.database ?_)
        change SafeM _ _ _ (insertKeyRow tables _ >>= fun inserted => do
          commitMutation site.crypto draws inserted
          pure (Answer.metadata (newMetadata draws normalized name pairs))) after later
        refine safe_m_bind ?_
        unfold SafeM
        rw [insert_key_row_writable verified.remembers.writable]
        cases insertion : tables.insertKey (wrappedRow site.crypto site.kek draws
            (newMetadata draws normalized name pairs)) with
        | error raised => exact ⟨verified, .inl rfl⟩
        | ok inserted =>
          rw [insertion] at allowed
          exact safe_planned_commit authentic hash tolerated verified settled
            (insert_key_extends insertion) (allowed _ inserted rfl)

theorem safe_apply_activation {row : WrappedRow} {metadata : StoredKey} {material : Bytes}
    (tolerated : ∀ step outcome, faults step outcome → commitFaults step outcome)
    (settled : session.envelope = settledEnvelope site.kek generation (storeCommitment site.crypto
      tables)) (member : row ∈ tables.keys)
    (decrypted : decryptRow site.crypto site.kek row = .ok (metadata, material))
    (preActive : metadata.state = "Pre-Active")
    (allowed : ∀ answer later, activationPlan site.crypto site.kek draws tables metadata material =
      .ok ⟨answer, some later⟩ → changes tables later) :
    SafeM faults (Progress site changes)
      (Performed site faults
        (activationPlan site.crypto site.kek draws tables metadata material) tables generation)
      (do
        let key ← applyActivation site.crypto draws metadata material
        return Answer.metadata key) session disk := by
  have notActive : metadata.state ≠ "Active" := by
    rw [preActive]
    decide
  have plan : activationPlan site.crypto site.kek draws tables metadata material =
      if tables.keys.countP (activates metadata.providerId metadata.keyId) ≠ 1 then
        .error (.keyStateError "KMIP key activation was not applied.")
      else .ok ⟨.metadata (activatedMetadata draws metadata),
        some (tables.activateRows metadata.providerId metadata.keyId (activationOf site.crypto
          site.kek draws (activatedMetadata draws metadata) material))⟩ := by
    unfold activationPlan
    rw [if_neg notActive, if_neg (not_not.mpr preActive)]
  obtain ⟨held, holds⟩ := ready.recoverable
  have unfolded : applyActivation site.crypto draws metadata material session =
      (if session.readOnly then StoreM.raise (.osError "attempt to write a readonly database")
        else do
          let tables ← readTables
          if tables.keys.countP (activates metadata.providerId metadata.keyId) ≠ 1 then
            StoreM.raise (.keyStateError "KMIP key activation was not applied.")
          else do
            commitMutation site.crypto draws (tables.activateRows metadata.providerId
              metadata.keyId (activationOf site.crypto session.kek draws
                (activatedMetadata draws metadata) material))
            return activatedMetadata draws metadata : StoreM StoredKey) session := rfl
  rw [plan] at allowed ⊢
  refine safe_m_bind ?_
  unfold SafeM
  rw [unfolded, ready.remembers.writable, ready.remembers.kek]
  change SafeM faults (Progress site changes) _ (readTables >>= fun tables => _) session disk
  refine safe_m_bind (safe_read_tables holds.database ?_)
  change SafeM faults (Progress site changes) _
    (if tables.keys.countP (activates metadata.providerId metadata.keyId) ≠ 1 then _ else _)
      session disk
  split_ifs at allowed ⊢ with missing
  · exact ⟨ready, .inl rfl⟩
  · refine safe_m_bind (safe_m_weaken (safe_commit_mutation authentic hash tolerated ready settled
      ?_ ?_ (allowed _ _ rfl) draws) ?_)
    · exact (activate_rows_extends authentic draws member decrypted preActive).changed
    · exact schema_version_of_metadata rfl
    · rintro result after disk (⟨rfl, committed⟩ | ⟨faulty, ⟨raised, rfl⟩, either⟩)
      · exact .inl ⟨rfl, committed⟩
      · exact .inr ⟨faulty, ⟨raised, rfl⟩, either⟩

theorem safe_activate (providerId keyId : String)
    (tolerated : ∀ step outcome, faults step outcome → commitFaults step outcome)
    (allowed : ∀ answer later, (Operation.activate providerId keyId).plan site.crypto site.kek draws
      tables = .ok ⟨answer, some later⟩ → changes tables later) :
    SafeM faults (Progress site changes)
      (Performed site faults ((Operation.activate providerId keyId).plan site.crypto site.kek
        draws tables) tables generation)
      ((Operation.activate providerId keyId).perform site.crypto draws) session disk := by
  simp only [Operation.perform, activateKey, store_bind_assoc]
  refine safe_read_key authentic hash providerId keyId ready ?_
  intro after later verified settled
  simp only [Operation.plan] at allowed ⊢
  cases read : readPlan site.crypto site.kek tables providerId keyId with
  | error raised => exact ⟨verified, .inl rfl⟩
  | ok pair =>
    obtain ⟨metadata, material⟩ := pair
    rw [read] at allowed
    simp only [ok_bind] at allowed ⊢
    change SafeM faults (Progress site changes) _
      ((if metadata.state = "Active" then pure metadata
        else if metadata.state ≠ "Pre-Active" then
          StoreM.raise (.keyStateError "KMIP key cannot be activated from its current state.")
        else applyActivation site.crypto draws metadata material) >>= fun key =>
          pure (Answer.metadata key)) after later
    by_cases active : metadata.state = "Active"
    · rw [if_pos active]
      have plan : activationPlan site.crypto site.kek draws tables metadata material =
          .ok ⟨.metadata metadata, none⟩ := if_pos active
      rw [plan]
      exact ⟨verified, .inl rfl⟩
    · by_cases preActive : metadata.state = "Pre-Active"
      · rw [if_neg active, if_neg (not_not.mpr preActive)]
        obtain ⟨row, found, decrypted⟩ := bind_ok_iff.mp read
        exact safe_apply_activation authentic hash verified tolerated settled
          (find_key_row_member found) decrypted preActive allowed
      · rw [if_neg active, if_pos preActive]
        have plan : activationPlan site.crypto site.kek draws tables metadata material =
            .error (.keyStateError
              "KMIP key cannot be activated from its current state.") := by
          unfold activationPlan
          rw [if_neg active, if_pos preActive]
        rw [plan]
        exact ⟨verified, .inl rfl⟩

/-- What is read after the arguments were found valid. -/
theorem safe_query (plan : Tables → Except Raised Answer) :
    SafeM faults (Progress site changes)
      (Performed site faults ((plan tables).map fun answer => ⟨answer, none⟩) tables generation)
      (do
        verifyStore site.crypto draws
        let tables ← readTables
        StoreM.lift (plan tables)) session disk := by
  refine safe_after_verify authentic hash ready ?_
  intro after later verified _
  obtain ⟨held, holds⟩ := verified.recoverable
  refine safe_m_bind (safe_read_tables holds.database ?_)
  exact safe_answer verified

theorem safe_locate (providerId : String) (state name : Option String) (limit : Nat) :
    SafeM faults (Progress site changes)
      (Performed site faults ((Operation.locate providerId state name limit).plan site.crypto
        site.kek draws tables) tables generation)
      ((Operation.locate providerId state name limit).perform site.crypto draws)
      session disk := by
  simp only [Operation.perform, locateKeys, store_bind_assoc, Operation.plan]
  cases validatedUuid providerId "provider_id" with
  | error raised => exact ⟨ready, .inl rfl⟩
  | ok provider =>
    cases validateState state with
    | error raised => exact ⟨ready, .inl rfl⟩
    | ok _ =>
      cases validateLimit limit with
      | error raised => exact ⟨ready, .inl rfl⟩
      | ok _ =>
        cases validateName name with
        | error raised => exact ⟨ready, .inl rfl⟩
        | ok _ =>
          exact safe_query authentic hash ready fun tables =>
            .ok (.identifiers (locatedIds tables provider state name limit))

theorem safe_counts (providerIds : List String) :
    SafeM faults (Progress site changes)
      (Performed site faults ((Operation.lifecycleCounts providerIds).plan site.crypto
        site.kek draws tables) tables generation)
      ((Operation.lifecycleCounts providerIds).perform site.crypto draws) session disk := by
  simp only [Operation.perform, lifecycleCounts, store_bind_assoc, Operation.plan]
  cases providerIds.mapM fun providerId => validatedUuid providerId "provider_id" with
  | error raised => exact ⟨ready, .inl rfl⟩
  | ok providers =>
    simp only [store_lift_ok_bind, ok_bind]
    refine safe_after_verify authentic hash ready ?_
    intro after later verified _
    obtain ⟨held, holds⟩ := verified.recoverable
    refine safe_m_bind (safe_read_tables holds.database ?_)
    refine safe_m_session ?_
    rw [verified.remembers.kek]
    cases countKeys site.crypto site.kek providers tables with
    | error raised => exact ⟨verified, .inl rfl⟩
    | ok counted => exact ⟨verified, .inl rfl⟩

theorem safe_get_key (providerId keyId : String) :
    SafeM faults (Progress site changes)
      (Performed site faults ((Operation.getKey providerId keyId).plan site.crypto site.kek draws
        tables) tables generation)
      ((Operation.getKey providerId keyId).perform site.crypto draws) session disk := by
  simp only [Operation.perform]
  refine safe_read_key authentic hash providerId keyId ready ?_
  intro after later verified _
  simp only [Operation.plan]
  cases readPlan site.crypto site.kek tables providerId keyId with
  | error raised => exact ⟨verified, .inl rfl⟩
  | ok pair => exact ⟨verified, .inl rfl⟩

theorem safe_get_metadata (providerId keyId : String) :
    SafeM faults (Progress site changes)
      (Performed site faults ((Operation.getMetadata providerId keyId).plan site.crypto site.kek
        draws tables) tables generation)
      ((Operation.getMetadata providerId keyId).perform site.crypto draws) session disk := by
  simp only [Operation.perform, StoreOperations.getMetadata, store_bind_assoc]
  refine safe_read_key authentic hash providerId keyId ready ?_
  intro after later verified _
  simp only [Operation.plan]
  cases readPlan site.crypto site.kek tables providerId keyId with
  | error raised => exact ⟨verified, .inl rfl⟩
  | ok pair => exact ⟨verified, .inl rfl⟩

-- From here on the calculus is used through its rules only.
attribute [irreducible] SafeM

/-- Every operation, from every consistent state and under every tolerated fault, moves
the disk only as the protocol allows and ends as planned or with an exception. -/
theorem safe_perform (operation : Operation) (draws : Draws)
    (tolerated : ∀ step outcome, faults step outcome → commitFaults step outcome)
    (allowed : ∀ answer later, operation.plan site.crypto site.kek draws tables = .ok ⟨answer, some
      later⟩ → changes tables later) :
    SafeM faults (Progress site changes)
      (Performed site faults (operation.plan site.crypto site.kek draws tables) tables generation)
      (operation.perform site.crypto draws) session disk := by
  cases operation with
  | create providerId name customAttributes =>
    exact safe_create authentic hash ready providerId name customAttributes tolerated allowed
  | activate providerId keyId =>
    exact safe_activate authentic hash ready providerId keyId tolerated allowed
  | getKey providerId keyId => exact safe_get_key authentic hash ready providerId keyId
  | getMetadata providerId keyId => exact safe_get_metadata authentic hash ready providerId keyId
  | locate providerId state name limit =>
    exact safe_locate authentic hash ready providerId state name limit
  | lifecycleCounts providerIds => exact safe_counts authentic hash ready providerIds

end Protocol

theorem run_perform {session : Session} {disk : Disk} {tables : Tables} {generation : Nat}
    (authentic : site.crypto.Authentic) (hash : site.crypto.CollisionFree) (operation : Operation)
    (draws : Draws) (ready : Ready site session disk tables generation) :
    ∃ after later,
      match operation.plan site.crypto site.kek draws tables with
      | .error raised =>
        runStore (operation.perform site.crypto draws) session disk =
            (.error raised, after, later) ∧ Ready site after later tables generation
      | .ok ⟨answer, none⟩ =>
        runStore (operation.perform site.crypto draws) session disk =
            (.ok answer, after, later) ∧ Ready site after later tables generation
      | .ok ⟨answer, some mutated⟩ =>
        runStore (operation.perform site.crypto draws) session disk =
            (.ok answer, after, later) ∧ Ready site after later mutated (generation + 1) := by
  have calm : Calm fun (_ : FileStep) (_ : Outcome) => False := fun _ _ impossible => impossible
  have safe : SafeM _ (Progress site fun _ _ => True) _ _ session disk :=
    safe_perform authentic hash ready operation draws
      (fun step outcome fault => (calm step outcome fault).elim) fun _ _ _ => trivial
  have ended := run_of_safe safe
  refine ⟨(runStore (operation.perform site.crypto draws) session disk).2.1,
    (runStore (operation.perform site.crypto draws) session disk).2.2, ?_⟩
  unfold Performed at ended
  split at ended
  · obtain ⟨still, result | ⟨faulty, -⟩⟩ := ended
    · exact ⟨Prod.ext result rfl, still⟩
    · exact absurd calm faulty
  · obtain ⟨still, result | ⟨faulty, -⟩⟩ := ended
    · exact ⟨Prod.ext result rfl, still⟩
    · exact absurd calm faulty
  · rcases ended with ⟨result, committed⟩ | ⟨faulty, -⟩
    · exact ⟨Prod.ext result rfl, committed⟩
    · exact absurd calm faulty

theorem ready_answers (authentic : site.crypto.Authentic) (hash : site.crypto.CollisionFree)
    {session : Session} {disk : Disk} {tables : Tables} {generation : Nat}
    (ready : Ready site session disk tables generation) (operation : Operation) (draws : Draws) :
    (runStore (operation.perform site.crypto draws) session disk).1 =
      (operation.plan site.crypto site.kek draws tables).map Plan.answer := by
  obtain ⟨after, later, ended⟩ := run_perform authentic hash operation draws ready
  cases planned : operation.plan site.crypto site.kek draws tables with
  | error raised =>
    rw [planned] at ended
    rw [ended.1]
    rfl
  | ok plan =>
    rw [planned] at ended
    obtain ⟨answer, _ | mutated⟩ := plan
    · rw [ended.1]
      rfl
    · rw [ended.1]
      rfl

/-! ### A store that was opened -/

theorem settlement_outcome {session : Session} (observed : String)
    (writable : session.readOnly = false) :
    (settlement session observed = .accept → session.envelope.commitment ≠ "" ∧
      observed = session.envelope.commitment ∧ session.envelope.pendingCommitment = none) ∧
      ∀ envelope, settlement session observed = .rewrite envelope →
        envelope = settledEnvelope session.kek envelope.generation observed := by
  unfold settlement
  simp only [writable, Bool.false_eq_true, if_false]
  by_cases empty : session.envelope.commitment = ""
  · rw [if_pos empty]
    refine ⟨by simp, ?_⟩
    intro envelope same
    cases same
    rfl
  · rw [if_neg empty]
    by_cases committed : observed = session.envelope.commitment
    · rw [if_pos committed]
      by_cases pending : session.envelope.pendingCommitment = none
      · rw [if_neg (not_not.mpr pending)]
        exact ⟨fun _ => ⟨empty, committed, pending⟩, by simp⟩
      · rw [if_pos pending]
        refine ⟨by simp, ?_⟩
        intro envelope same
        cases same
        rw [committed]
        rfl
    · rw [if_neg committed]
      by_cases pending : some observed = session.envelope.pendingCommitment
      · rw [if_pos pending]
        cases session.envelope.pendingGeneration with
        | none => exact ⟨by simp, by simp⟩
        | some generation =>
          refine ⟨by simp, ?_⟩
          intro envelope same
          cases same
          rfl
      · rw [if_neg pending]
        exact ⟨by simp, by simp⟩

variable {inserted : Bool} {stored : Tables}

theorem with_schema_version_ok {readOnly : Bool} {tables : Tables}
    (versioned : withSchemaVersion readOnly stored = .ok (tables, inserted)) :
    schemaVersion tables = some (toString storeSchemaVersion) ∧
      (inserted = false → tables = stored) := by
  unfold withSchemaVersion at versioned
  split at versioned
  · rename_i value found
    split at versioned
    · rename_i supported
      cases versioned
      exact ⟨supported ▸ found, fun _ => rfl⟩
    · cases versioned
  · split at versioned
    · cases versioned
    · cases insertion : stored.insertMetadata "schema_version" (toString storeSchemaVersion) with
      | error raised =>
        rw [insertion] at versioned
        cases versioned
      | ok later =>
        rw [insertion] at versioned
        cases versioned
        refine ⟨?_, by simp⟩
        unfold Tables.insertMetadata at insertion
        split at insertion
        · cases insertion
          have found : findRow Prod.fst "schema_version" (insertRow Prod.fst
              ("schema_version", toString storeSchemaVersion) stored.metadata) =
                some ("schema_version", toString storeSchemaVersion) := by
            refine (find_row_some_iff ?_).mpr ⟨mem_insert_row.mpr (.inl rfl), rfl⟩
            exact sorted_insert_row stored.metadataSorted ‹_›
          unfold schemaVersion
          rw [found]
          rfl
        · cases insertion

/-- The session that the constructor starts `_initialize` with, and the files under it. -/
structure Loaded (site : Installation) (session : Session) (disk : Disk) (stored : Tables) :
    Prop where
  master : session.masterKey = site.master
  kek : session.kek = site.kek
  writable : session.readOnly = false
  sameKek : session.envelope.kek = site.kek
  custody : disk.custody = site.custody
  file : ∃ text, disk.kek = some text ∧
    readEnvelope site.crypto site.master text = .ok session.envelope
  written : site.created → ∃ nonce,
    disk.kek = some (envelopeText site.crypto site.master nonce session.envelope)
  database : disk.database = some stored.database

theorem loaded_commit_if {session : Session} {disk : Disk} {tables : Tables}
    (loaded : Loaded site session disk stored)
    (versioned : withSchemaVersion false stored = .ok (tables, inserted)) :
    Loaded site session (commitIf inserted tables disk) tables := by
  cases inserted with
  | true =>
    exact ⟨loaded.master, loaded.kek, loaded.writable, loaded.sameKek, loaded.custody,
      loaded.file, loaded.written, rfl⟩
  | false =>
    rw [(with_schema_version_ok versioned).2 rfl]
    exact loaded

theorem loaded_write_kek (authentic : site.crypto.Authentic) {session : Session} {disk : Disk}
    {new : KekEnvelope} (loaded : Loaded site session disk stored) (valid : new.Valid)
    (kek : new.kek = site.kek) (nonce : Bytes) :
    Loaded site (session.remember new)
      (disk.writeKek (envelopeText site.crypto session.masterKey nonce new)) stored := by
  rw [loaded.master]
  exact ⟨loaded.master, loaded.kek, loaded.writable, kek, loaded.custody,
    ⟨_, rfl, read_envelope_written authentic site.master nonce new valid⟩,
    fun _ => ⟨nonce, rfl⟩, loaded.database⟩

theorem loaded_ready {session : Session} {disk : Disk} {tables : Tables}
    (loaded : Loaded site session disk tables)
    (version : schemaVersion tables = some (toString storeSchemaVersion))
    (nonempty : session.envelope.commitment ≠ "")
    (committed : storeCommitment site.crypto tables = session.envelope.commitment) :
    Ready site session disk tables session.envelope.generation := by
  have settles : settledGeneration site.crypto session.envelope tables =
      some session.envelope.generation := if_pos committed
  obtain ⟨text, file, read⟩ := loaded.file
  exact ⟨⟨session.envelope, ⟨loaded.custody, ⟨text, file, read⟩, loaded.written, loaded.sameKek,
    loaded.database, nonempty, version⟩, settles⟩, ⟨loaded.master, loaded.kek, loaded.writable,
    read_envelope_valid read, loaded.sameKek, nonempty, settles⟩⟩

theorem initialize_ready (authentic : site.crypto.Authentic) (hash : site.crypto.CollisionFree)
    {session after : Session} {disk later : Disk} {nonce : Bytes}
    (loaded : Loaded site session disk stored)
    (ended : initializeOutcome site.crypto nonce session stored disk = (.ok after, later)) :
    ∃ tables inserted, withSchemaVersion false stored = .ok (tables, inserted) ∧
      Ready site after later tables after.envelope.generation := by
  simp only [initializeOutcome] at ended
  cases versioned : withSchemaVersion false stored with
  | error raised =>
    rw [versioned] at ended
    cases ended
  | ok result =>
    obtain ⟨tables, inserted⟩ := result
    rw [versioned] at ended
    refine ⟨tables, inserted, rfl, ?_⟩
    have version := (with_schema_version_ok versioned).1
    obtain ⟨accepted, rewritten⟩ :=
      settlement_outcome (storeCommitment site.crypto tables) loaded.writable
    obtain ⟨text, -, read⟩ := loaded.file
    have valid := read_envelope_valid read
    cases decided : settlement session (storeCommitment site.crypto tables) with
    | reject raised =>
      simp only [decided] at ended
      cases ended
    | accept =>
      simp only [decided] at ended
      cases ended
      obtain ⟨nonempty, committed, -⟩ := accepted decided
      exact loaded_ready (loaded_commit_if loaded versioned) version nonempty committed
    | rewrite new =>
      simp only [decided] at ended
      cases ended
      have shape := rewritten new decided
      have newKek : new.kek = site.kek := by
        rw [shape]
        exact loaded.kek
      have newValid : new.Valid := by
        rw [shape]
        refine settled_envelope_valid ?_ _ _
        rw [loaded.kek, ← loaded.sameKek]
        exact valid.kek
      have nonempty : new.commitment ≠ "" := by
        rw [shape]
        exact store_commitment_ne_empty hash tables
      have committed : storeCommitment site.crypto tables = new.commitment := by rw [shape]; rfl
      exact loaded_ready (loaded_commit_if (loaded_write_kek authentic loaded newValid newKek
        nonce) versioned) version nonempty committed

theorem open_ready {crypto : Crypto} (authentic : crypto.Authentic)
    (hash : crypto.CollisionFree) {secretsKey : String} {draws : OpenDraws}
    {disk opened : Disk} {session : Session} (kek : disk.kek.isSome)
    (ran : runFiles (openStore crypto secretsKey false draws) disk = (.ok session, opened)) :
    ∃ site tables, site.crypto = crypto ∧ site.secretsKey = secretsKey ∧ site.Unlocks ∧
      Ready site session opened tables session.envelope.generation := by
  obtain ⟨text, file⟩ := Option.isSome_iff_exists.mp kek
  have database : disk.database.isSome := by
    by_contra missing
    rw [run_open_apart crypto secretsKey draws disk (by rw [kek]; exact missing)] at ran
    cases ran
  obtain ⟨stored, holds⟩ := Option.isSome_iff_exists.mp database
  rw [run_open_existing crypto secretsKey draws disk text stored file holds] at ran
  cases loading : loadedKek crypto secretsKey disk.custody text with
  | error raised =>
    rw [loading] at ran
    cases ran
  | ok loaded =>
    obtain ⟨master, envelope⟩ := loaded
    rw [loading] at ran
    obtain ⟨secretsMaster, secrets, custodyStep⟩ := bind_ok_iff.mp loading
    obtain ⟨_, custody, readStep⟩ := bind_ok_iff.mp custodyStep
    obtain ⟨_, read, result⟩ := bind_ok_iff.mp readStep
    cases result
    let site : Installation := ⟨crypto, secretsKey, disk.custody, master, envelope.kek, false⟩
    have unlocks : site.Unlocks := bind_ok_iff.mpr ⟨secretsMaster, secrets, custody⟩
    have loaded : Loaded site ⟨master, envelope.kek, envelope, false⟩
        ((makeDatabaseDirectory disk).writeTables (filledTables stored))
          (filledTables stored) :=
      ⟨rfl, rfl, rfl, rfl, rfl, ⟨text, file, read⟩, nofun, rfl⟩
    obtain ⟨tables, inserted, -, ready⟩ := initialize_ready authentic hash loaded ran
    exact ⟨site, tables, rfl, rfl, unlocks, ready⟩

end Atlaso.Kmip.CommitProtocol
