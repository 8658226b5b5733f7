import Atlaso.Kmip.RollbackDetection
import Atlaso.Library.Interference

/-!
A running daemon and other processes that open the same store at the same time, step by
step in any order.

The daemon works from the envelope in its memory and never reads the file, so its part of
the run is the one it would have alone. The others read the envelope, then the rows, and
may then replace the envelope by one that settles the rows they saw. The store stays
openable as long as such a replacement comes while those are still the committed rows, or
while the daemon still has an envelope of its own to write.
-/

namespace Atlaso.Kmip.CommitInterleavings

open CommitProtocol CrashConsistency Exceptions Identifiers RollbackDetection StoreDocuments
open StoreFiles StoreKeys StoreOpening StoreOperations StoreRuns Library FilePrograms
open Interference Outcomes

/-! ### Programs that do not read the envelope -/

variable {Value Next : Type}

def inWindow {Result : Type} : Files Result → Bool
  | .update .commitMutation _ _ | .update .rollback _ _ | .update .restoreEnvelope _ _
  | .update .finalEnvelope _ _ => true
  | _ => false

/-- The updates of the daemon: an envelope, or a step inside the window. -/
inductive BlindUpdate {Result : Type} : FileStep → (Disk → Disk) → (Bool → Files Result) → Prop
  | envelope {kind : FileStep} (text : String) (next : Bool → Files Result)
      (other : kind ≠ .commitMutation) : BlindUpdate kind (fun disk => disk.writeKek text) next
  | commit (tables : Tables) {next : Bool → Files Result} (committed : inWindow (next true))
      (failed : inWindow (next false)) :
      BlindUpdate .commitMutation (fun disk => disk.writeTables tables) next
  | rollback {next : Bool → Files Result} (rolled : inWindow (next true)) :
      BlindUpdate .rollback id next

/-- The program reads nothing but the rows. -/
def Blind {Result : Type} : Files Result → Prop
  | .done _ => True
  | .observe next =>
    (∀ disk other : Disk, disk.database = other.database → next disk = next other) ∧
      ∀ disk, Blind (next disk)
  | .update kind effect next =>
    BlindUpdate kind effect next ∧ ∀ reported, Blind (next reported)

theorem in_window_bind {Result After : Type} {program : Files Result}
    (window : inWindow program) (next : Result → Files After) :
    inWindow (program.bind next) := by
  cases program with
  | done result => cases window
  | observe after => cases window
  | update kind effect after => cases kind <;> exact window

theorem blind_bind {Result After : Type} {program : Files Result} {next : Result → Files After}
    (blind : Blind program) (rest : ∀ result, Blind (next result)) :
    Blind (program.bind next) := by
  induction program with
  | done result => exact rest result
  | observe after induction =>
    refine ⟨?_, fun disk => induction disk (blind.2 disk)⟩
    intro disk other same
    exact congrArg (fun program => Program.bind program next) (blind.1 disk other same)
  | update kind effect after induction =>
    refine ⟨?_, fun reported => induction reported (blind.2 reported)⟩
    cases blind.1 with
    | envelope text _ other => exact .envelope text _ other
    | commit tables committed failed =>
      exact .commit tables (in_window_bind committed next) (in_window_bind failed next)
    | rollback rolled => exact .rollback (in_window_bind rolled next)

/-- A method that does not read the envelope file. -/
def BlindM (action : StoreM Value) : Prop := ∀ session, Blind (action session)

theorem blind_m_bind {action : StoreM Value} {next : Value → StoreM Next}
    (blind : BlindM action) (rest : ∀ value, BlindM (next value)) : BlindM (action >>= next) := by
  intro session
  refine blind_bind (blind session) ?_
  rintro ⟨result, after⟩
  cases result with
  | ok value => exact rest value after
  | error raised => exact trivial

theorem blind_pure (value : Value) : BlindM (pure value : StoreM Value) := fun _ => trivial

theorem blind_lift (result : Except Raised Value) : BlindM (StoreM.lift result) :=
  fun _ => trivial

theorem blind_session : BlindM StoreM.session := fun _ => trivial

theorem blind_read_tables : BlindM readTables := by
  intro session
  refine ⟨?_, fun disk => trivial⟩
  intro disk other same
  simp only [same]

section

variable (crypto : Crypto)
include crypto

theorem blind_write_envelope {step : FileStep} (other : step ≠ .commitMutation) (nonce : Bytes)
    (envelope : KekEnvelope) :
    BlindM (writeEnvelope crypto step nonce envelope) := by
  intro session
  refine ⟨.envelope _ _ other, ?_⟩
  intro reported
  cases reported <;> exact trivial

theorem blind_verify_store (draws : Draws) :
    BlindM (verifyStore crypto draws) := by
  refine blind_m_bind blind_read_tables fun tables => blind_m_bind blind_session fun session => ?_
  cases settlement session (storeCommitment crypto tables) with
  | accept => exact blind_pure ()
  | rewrite envelope => exact blind_write_envelope crypto (by decide) _ envelope
  | reject raised => exact blind_lift _

theorem blind_finish_mutation (draws : Draws) (kek : Bytes) (generation : Nat) (commitment : String)
    (tables : Tables) :
    BlindM (finishMutation crypto draws kek generation commitment tables) := by
  intro session
  refine ⟨.commit tables rfl rfl, ?_⟩
  intro committed
  cases committed with
  | true => exact blind_write_envelope crypto (by decide) _ _ session
  | false =>
    refine ⟨.rollback rfl, ?_⟩
    intro rolled
    cases rolled with
    | true =>
      exact blind_m_bind (blind_write_envelope crypto (by decide) _ _)
        (fun _ => blind_lift _) session
    | false => exact trivial

theorem blind_commit_mutation (draws : Draws) (tables : Tables) :
    BlindM (commitMutation crypto draws tables) :=
  blind_m_bind blind_session fun _ => blind_m_bind
    (blind_write_envelope crypto (by decide) _ _) fun _ => blind_finish_mutation _ _ _ _ _ _

theorem blind_get_key (draws : Draws) (providerId keyId : String) :
    BlindM (StoreOperations.getKey crypto draws providerId keyId) :=
  blind_m_bind (blind_verify_store crypto draws) fun _ =>
    blind_m_bind blind_read_tables fun _ => blind_m_bind (blind_lift _) fun _ =>
      blind_m_bind blind_session fun _ => blind_lift _

theorem blind_apply_activation (draws : Draws) (metadata : StoredKey) (plaintext : Bytes) :
    BlindM (applyActivation crypto draws metadata plaintext) := by
  refine blind_m_bind blind_session fun session => ?_
  by_cases readOnly : session.readOnly
  · simp only [readOnly, if_true]
    exact blind_lift _
  · simp only [readOnly]
    refine blind_m_bind blind_read_tables fun tables => ?_
    split
    · exact blind_lift _
    · exact blind_m_bind (blind_commit_mutation _ _ _) fun _ => blind_pure _

/-- No operation of an open store reads the envelope file. -/
theorem blind_perform (draws : Draws) (operation : Operation) :
    BlindM (operation.perform crypto draws) := by
  cases operation with
  | create providerId name customAttributes =>
    refine blind_m_bind ?_ fun _ => blind_pure _
    refine blind_m_bind (blind_lift _) fun provider => blind_m_bind (blind_lift _) fun pairs =>
      blind_m_bind (blind_lift _) fun _ => blind_m_bind blind_session fun session =>
        blind_m_bind (blind_verify_store crypto draws) fun _ =>
          blind_m_bind blind_read_tables fun tables => blind_m_bind ?_ fun inserted =>
            blind_m_bind (blind_commit_mutation _ _ _) fun _ => blind_pure _
    refine blind_m_bind blind_session fun session => ?_
    by_cases readOnly : session.readOnly
    · simp only [readOnly, if_true]
      exact blind_lift _
    · simp only [readOnly]
      exact blind_lift _
  | activate providerId keyId =>
    refine blind_m_bind ?_ fun _ => blind_pure _
    refine blind_m_bind (blind_get_key _ _ _ _) ?_
    rintro ⟨metadata, plaintext⟩
    simp only
    split
    · exact blind_pure _
    · split
      · exact blind_lift _
      · exact blind_apply_activation _ _ _ _
  | getKey providerId keyId => exact blind_m_bind (blind_get_key _ _ _ _) fun _ => blind_pure _
  | getMetadata providerId keyId =>
    exact blind_m_bind (blind_m_bind (blind_get_key _ _ _ _) fun _ => blind_pure _) fun _ =>
      blind_pure _
  | locate providerId state name limit =>
    exact blind_m_bind (blind_m_bind (blind_lift _) fun _ => blind_m_bind (blind_lift _) fun _ =>
      blind_m_bind (blind_lift _) fun _ => blind_m_bind (blind_lift _) fun _ =>
        blind_m_bind (blind_verify_store _ _) fun _ => blind_m_bind blind_read_tables fun _ =>
          blind_pure _) fun _ => blind_pure _
  | lifecycleCounts providerIds =>
    exact blind_m_bind (blind_m_bind (blind_lift _) fun _ =>
      blind_m_bind (blind_verify_store _ _) fun _ => blind_m_bind blind_read_tables fun _ =>
        blind_m_bind blind_session fun _ => blind_lift _) fun _ => blind_pure _

end

/-! ### What an opening does to a store in use -/

def Readable (site : Installation) (disk : Disk) : Prop :=
  ∃ envelope tables, Legible site disk envelope tables

/-- The updates of an opening: one that changes neither file, or a new envelope that
settles the rows seen last. -/
def Allowed (site : Installation) (seen : Disk) (kind : FileStep) (effect : Disk → Disk) : Prop :=
  (∀ disk, Readable site disk → (effect disk).kek = disk.kek ∧
      (effect disk).database = disk.database ∧ (effect disk).custody = disk.custody) ∨
    (kind = .settleEnvelope ∧ ∃ nonce generation tables,
      seen.database = some (Tables.database tables) ∧
        effect = fun disk => disk.writeKek (envelopeText site.crypto site.master nonce
          (settledEnvelope site.kek generation (storeCommitment site.crypto tables))))

variable {site : Installation}

def Opening (site : Installation) (post : Disk → Except Raised Value → Prop) (seen : Disk)
    (action : FilesM Value) : Prop :=
  Isolated (Readable site) (Allowed site) post seen action

/-- How an opening goes on: an exception ends it. -/
def Proceeds (site : Installation) (post : Disk → Except Raised Next → Prop)
    (next : Value → FilesM Next) (seen : Disk) : Except Raised Value → Prop
  | .ok value => Opening site post seen (next value)
  | .error raised => post seen (.error raised)

variable {seen disk : Disk}

theorem opening_bind {post : Disk → Except Raised Next → Prop} {action : FilesM Value}
    {next : Value → FilesM Next} (opening : Opening site (Proceeds site post next) seen action) :
    Opening site post seen (action >>= next) := by
  refine isolated_bind (isolated_weaken opening ?_)
  intro seen outcome proceeds
  cases outcome with
  | ok value => exact proceeds
  | error raised => exact proceeds

variable {post : Disk → Except Raised Value → Prop}

theorem opening_lift {result : Except Raised Value} (ends : post seen result) :
    Opening site post seen (FilesM.lift result) :=
  ends

theorem opening_inspect {view : Disk → Except Raised Value}
    (ends : ∀ disk, Readable site disk → post disk (view disk)) :
    Opening site post seen (FilesM.inspect view) :=
  ends

theorem opening_change {post : Disk → Except Raised Unit → Prop} {step : FileStep}
    {effect : Disk → Disk} (harmless : ∀ disk, Readable site disk → (effect disk).kek = disk.kek ∧
      (effect disk).database = disk.database ∧ (effect disk).custody = disk.custody)
    (ends : post seen (.ok ())) : Opening site post seen (FilesM.change step effect) :=
  ⟨.inl harmless, ends⟩

theorem harmless_schema (readable : Readable site disk) :
    createDatabase disk = disk ∧ createMetadataTable disk = disk ∧
      createKeysTable disk = disk := by
  obtain ⟨envelope, tables, legible⟩ := readable
  obtain ⟨custody, databaseDirectory, kekDirectory, journal, kek, database⟩ := disk
  have holds := legible.database
  simp only at holds
  subst holds
  exact ⟨rfl, rfl, rfl⟩

theorem opening_load (unlocks : site.Unlocks) (draws : OpenDraws) (seen : Disk)
    {post : Disk → Except Raised (Bytes × KekEnvelope) → Prop}
    (ends : ∀ seen envelope, envelope.kek = site.kek → envelope.commitment ≠ "" →
      post seen (.ok (site.master, envelope))) :
    Opening site post seen (loadOrCreateKek site.crypto site.secretsKey false draws) := by
  obtain ⟨secretsMaster, secrets, custody⟩ := bind_ok_iff.mp unlocks
  unfold loadOrCreateKek
  refine opening_bind (opening_lift ?_)
  rw [secrets]
  refine opening_bind (opening_inspect ?_)
  rintro first ⟨_, _, legible⟩
  rw [legible.custody, custody]
  refine opening_bind (opening_inspect ?_)
  rintro second ⟨envelope, _, legibleSecond⟩
  obtain ⟨text, file, read⟩ := legibleSecond.file
  rw [file]
  refine opening_bind (opening_lift ?_)
  rw [read]
  exact ends second envelope legibleSecond.kek legibleSecond.initialised

theorem opening_settle {tables : Tables} {session : Session}
    (master : session.masterKey = site.master) (kek : session.kek = site.kek)
    (writable : session.readOnly = false) (saw : seen.database = some tables.database)
    (nonce : Bytes) :
    Isolated (Readable site) (Allowed site) (fun _ _ => True) seen
      (verifyStoreCommitment site.crypto nonce tables session) := by
  rw [verify_store_commitment_settle]
  cases decided : settlement session (storeCommitment site.crypto tables) with
  | accept => exact trivial
  | reject raised => exact trivial
  | rewrite envelope =>
    have shape := (settlement_outcome _ writable).2 envelope decided
    refine ⟨.inr ⟨rfl, nonce, envelope.generation, tables, saw, ?_⟩, trivial⟩
    rw [master, ← kek, ← shape]

theorem opening_initialize_rows (draws : OpenDraws) (seen : Disk) {envelope : KekEnvelope}
    (kek : envelope.kek = site.kek) :
    Opening site (fun _ _ => True) seen (inSession (initializeRows site.crypto draws)
      ⟨site.master, envelope.kek, envelope, false⟩) := by
  refine isolated_bind ?_
  suffices rows : Isolated (Readable site) (Allowed site) (fun _ _ => True) seen
      (initializeRows site.crypto draws ⟨site.master, envelope.kek, envelope, false⟩) from
    isolated_weaken rows fun _ _ _ => trivial
  change Isolated _ _ _ seen ((do
    let stored ← readTables
    let result ← StoreM.lift (withSchemaVersion false stored)
    verifyStoreCommitment site.crypto draws.settleNonce result.1
    if result.2 then do
      let committed ← commitTables .commitSchema result.1
      if committed then pure () else StoreM.raise (.osError "database commit failed")
    else pure () : StoreM Unit) ⟨site.master, envelope.kek, envelope, false⟩)
  refine isolated_bind ?_
  rintro disk ⟨_, tables, legible⟩
  have version : withSchemaVersion false tables = .ok (tables, false) := by
    simp [withSchemaVersion, legible.version]
  have read : orRaise (.osError "no such table") (disk.database.bind Database.tables) =
      .ok tables := by
    simp [legible.database, orRaise]
  simp only [Isolated, read, version, store_lift_ok_bind]
  refine isolated_bind (isolated_weaken (opening_settle rfl kek rfl legible.database _) ?_)
  rintro later ⟨result, after⟩ -
  cases result <;> exact trivial

/-- An opening of a store in use changes neither file, but for an envelope that settles the
rows it has seen. -/
theorem opening_isolated (unlocks : site.Unlocks) (draws : OpenDraws) (seen : Disk) :
    Opening site (fun _ _ => True) seen
      (openStore site.crypto site.secretsKey false draws) := by
  unfold openStore
  refine opening_bind (opening_inspect fun _ _ => ?_)
  refine opening_bind (opening_inspect fun disk readable => ?_)
  have together : existTogether disk = .ok () := by
    obtain ⟨envelope, tables, legible⟩ := readable
    obtain ⟨text, file, -⟩ := legible.file
    simp [existTogether, file, legible.database]
  rw [together]
  refine opening_bind (opening_change (fun _ _ => ⟨rfl, rfl, rfl⟩) ?_)
  refine opening_bind (opening_load unlocks draws disk ?_)
  intro loaded envelope kek initialised
  refine opening_bind ?_
  refine opening_bind (opening_change ?_ ?_)
  · intro disk readable
    rw [(harmless_schema readable).1]
    exact ⟨rfl, rfl, rfl⟩
  refine opening_bind (opening_change ?_ ?_)
  · intro disk readable
    rw [(harmless_schema readable).2.1]
    exact ⟨rfl, rfl, rfl⟩
  refine opening_change ?_ ?_
  · intro disk readable
    rw [(harmless_schema readable).2.2]
    exact ⟨rfl, rfl, rfl⟩
  exact opening_initialize_rows draws loaded kek

/-! ### The system -/

/-- The daemon: between two operations, or at some step of one. -/
inductive Daemon where
  | idle (session : Session)
  | busy (program : Files (Except Raised Answer × Session))

/-- A process of `--status` or `--check`, with the disk at its last read. -/
structure Observer where
  seen : Disk
  program : Files (Except Raised Session)

structure System where
  disk : Disk
  daemon : Daemon
  observers : List Observer

/-- A database commit of the daemon may fail without effect. -/
def commitRefused (kind : FileStep) (outcome : Outcome) : Prop :=
  kind = .commitMutation ∧ outcome = .refused

inductive Event where
  | daemon | start | read
  | write (kind : FileStep) (seen : Disk)

/-- One step of one of the processes; an update of an observer is labelled with its kind
and with the disk that the observer saw last. -/
inductive SystemStep (crypto : Crypto) (secretsKey : String) : System → Event → System → Prop
  | call (disk : Disk) (session : Session) (observers : List Observer) (operation : Operation)
      (draws : Draws) :
      SystemStep crypto secretsKey ⟨disk, .idle session, observers⟩ .daemon
        ⟨disk, .busy (operation.perform crypto draws session), observers⟩
  | work {disk later : Disk} {program rest : Files (Except Raised Answer × Session)}
      (observers : List Observer) (step : Step commitRefused (program, disk) (rest, later)) :
      SystemStep crypto secretsKey ⟨disk, .busy program, observers⟩ .daemon
        ⟨later, .busy rest, observers⟩
  | finish (disk : Disk) (result : Except Raised Answer) (session : Session)
      (observers : List Observer) :
      SystemStep crypto secretsKey ⟨disk, .busy (.done (result, session)), observers⟩ .daemon
        ⟨disk, .idle session, observers⟩
  | start (disk : Disk) (daemon : Daemon) (observers : List Observer) (draws : OpenDraws) :
      SystemStep crypto secretsKey ⟨disk, daemon, observers⟩ .start
        ⟨disk, daemon, ⟨disk, openStore crypto secretsKey false draws⟩ :: observers⟩
  | read (disk seen : Disk) (daemon : Daemon) (before after : List Observer)
      (next : Disk → Files (Except Raised Session)) :
      SystemStep crypto secretsKey ⟨disk, daemon, before ++ ⟨seen, .observe next⟩ :: after⟩ .read
        ⟨disk, daemon, before ++ ⟨disk, next disk⟩ :: after⟩
  | write (disk seen : Disk) (daemon : Daemon) (before after : List Observer) (kind : FileStep)
      (effect : Disk → Disk) (next : Bool → Files (Except Raised Session)) :
      SystemStep crypto secretsKey
        ⟨disk, daemon, before ++ ⟨seen, .update kind effect next⟩ :: after⟩ (.write kind seen)
        ⟨effect disk, daemon, before ++ ⟨seen, next true⟩ :: after⟩

inductive SystemRun (crypto : Crypto) (secretsKey : String) (condition : System → Event → Prop) :
    System → System → Prop
  | start (system : System) : SystemRun crypto secretsKey condition system system
  | step {first last next : System} {event : Event}
      (run : SystemRun crypto secretsKey condition first last)
      (step : SystemStep crypto secretsKey last event next) (meets : condition last event) :
      SystemRun crypto secretsKey condition first next

/-- The daemon has still to write the envelope of a mutation. -/
def Daemon.inWindow : Daemon → Bool
  | .idle _ => false
  | .busy program => CommitInterleavings.inWindow program

/-- An observer replaces the envelope only while the rows that it saw are the committed
ones, or while the daemon has still to write the envelope of a mutation. -/
def Timely (system : System) : Event → Prop
  | .write .settleEnvelope seen =>
    seen.database = system.disk.database ∨ system.daemon.inWindow
  | _ => True

/-- No process is between its own steps. -/
def Quiescent (system : System) : Prop :=
  (∃ session, system.daemon = .idle session) ∧
    ∀ observer ∈ system.observers, ∃ result, observer.program = .done result

/-! ### The invariant -/

def Alone (daemon : Daemon) (activity : Activity) : Prop :=
  match daemon, activity with
  | .idle session, .idle same => same = session
  | .busy program, .busy _ _ _ _ same => same = program ∧ Blind program
  | _, _ => False

structure Consistent (site : Installation) (system : System) : Prop where
  exists_rows : ∃ envelope tables, Legible site system.disk envelope tables ∧
    (system.daemon.inWindow ∨
      ∃ generation, settledGeneration site.crypto envelope tables = some generation) ∧
    ∃ activity shadow held number, Alone system.daemon activity ∧
      Recoverable site shadow held tables number ∧ Sound site activity shadow tables number
  observers : ∀ observer ∈ system.observers,
    Opening site (fun _ _ => True) observer.seen observer.program

/-- A step of the daemon is the same on any disk with the same rows. It reads; or it
replaces the envelope; or it stays in the window. -/
theorem blind_step {Result : Type} {program rest : Files Result} {later shadow : Disk}
    (blind : Blind program) (step : Step commitRefused (program, disk) (rest, later))
    (same : shadow.database = disk.database) :
    ∃ after, Step commitFaults (program, shadow) (rest, after) ∧ Blind rest ∧
      later.custody = disk.custody ∧ after.database = later.database ∧
        ((later = disk ∧ inWindow program = false) ∨ later.kek = after.kek ∨
          (later.kek = disk.kek ∧ inWindow rest)) := by
  cases step with
  | observe next =>
    have unaware := blind.1 shadow disk same
    refine ⟨shadow, ?_, blind.2 disk, rfl, same, .inl ⟨rfl, rfl⟩⟩
    rw [← unaware]
    exact .observe next shadow
  | update kind effect next _ outcome possible =>
    have tolerated : Possible commitFaults kind outcome := by
      rcases possible with applied | ⟨rfl, rfl⟩
      · exact .inl applied
      · exact .inr rfl
    refine ⟨outcome.change effect shadow, .update kind effect next shadow outcome tolerated,
      blind.2 _, ?_⟩
    cases blind.1 with
    | envelope text _ other =>
      rcases possible with rfl | ⟨commit, -⟩
      · exact ⟨rfl, same, .inr (.inl rfl)⟩
      · exact absurd commit other
    | commit tables committed failed =>
      rcases possible with rfl | ⟨-, rfl⟩
      · exact ⟨rfl, rfl, .inr (.inr ⟨rfl, committed⟩)⟩
      · exact ⟨rfl, same, .inr (.inr ⟨rfl, failed⟩)⟩
    | rollback rolled =>
      rcases possible with rfl | ⟨commit, -⟩
      · exact ⟨rfl, same, .inr (.inr ⟨rfl, rolled⟩)⟩
      · cases commit

theorem work_consistent (authentic : site.crypto.Authentic) (hash : site.crypto.CollisionFree)
    {later : Disk} {program rest : Files (Except Raised Answer × Session)}
    {observers : List Observer} (consistent : Consistent site ⟨disk, .busy program, observers⟩)
    (step : Step commitRefused (program, disk) (rest, later)) :
    Consistent site ⟨later, .busy rest, observers⟩ := by
  obtain ⟨⟨envelope, tables, legible, admits, activity, shadow, held, number, alone, holds,
    sound⟩, isolated⟩ := consistent
  refine ⟨?_, isolated⟩
  cases activity with
  | idle session => exact alone.elim
  | busy operation draws session start same =>
    obtain ⟨rfl, blind⟩ := alone
    obtain ⟨after, shadowStep, blindRest, custody, database, kept⟩ :=
      blind_step blind step (holds.database.trans legible.database.symm)
    obtain ⟨⟨newer, rows, newHolds, newSound, -⟩, -⟩ := @process_step_advances number
      ⟨.busy operation draws session start same, shadow⟩ site authentic hash _ held tables holds sound
        (.work shadowStep)
    have stored : later.database = some rows.database := database.symm.trans newHolds.database
    have witness : ∃ activity shadow held number, Alone (.busy rest) activity ∧
        Recoverable site shadow held rows number ∧ Sound site activity shadow rows number :=
      ⟨.busy operation draws session start rest, after, newer, _, ⟨rfl, blindRest⟩, newHolds,
        newSound⟩
    rcases kept with ⟨rfl, outside⟩ | written | ⟨unwritten, window⟩
    · have sameRows : rows = tables := tables_database_injective
        (Option.some.inj (stored.symm.trans legible.database))
      subst sameRows
      refine ⟨envelope, rows, legible, .inr ?_, witness⟩
      rcases admits with inside | settled
      · exact absurd inside (by simp [Daemon.inWindow, outside])
      · exact settled
    · refine ⟨newer, rows, ?_, .inr ⟨_, newHolds.settles⟩, witness⟩
      exact ⟨custody.trans legible.custody, written ▸ newHolds.file, written ▸ newHolds.written,
        newHolds.kek, stored, newHolds.initialised, newHolds.version⟩
    · refine ⟨envelope, rows, ?_, .inl window, witness⟩
      exact ⟨custody.trans legible.custody, unwritten ▸ legible.file,
        unwritten ▸ legible.written, legible.kek, stored, legible.initialised,
        newHolds.version⟩

theorem switch_consistent {daemon next : Daemon} {observers : List Observer}
    (consistent : Consistent site ⟨disk, daemon, observers⟩) (outside : daemon.inWindow = false)
    (switches : ∀ first shadow held tables number, Alone daemon first → Recoverable site shadow held
      tables number → Sound site first shadow tables number → ∃ second, Alone next second ∧ Sound
      site second shadow tables number) :
    Consistent site ⟨disk, next, observers⟩ := by
  obtain ⟨⟨envelope, tables, legible, admits, first, shadow, held, number, alone, holds,
    sound⟩, isolated⟩ := consistent
  obtain ⟨second, aloneNext, soundNext⟩ := switches first shadow held tables number alone holds
    sound
  refine ⟨⟨envelope, tables, legible, .inr ?_, second, shadow, held, number, aloneNext, holds,
    soundNext⟩, isolated⟩
  rcases admits with inside | settled
  · exact absurd inside (by simp [outside])
  · exact settled

theorem legible_readable {system : System} (consistent : Consistent site system) :
    Readable site system.disk := by
  obtain ⟨⟨envelope, tables, legible, -⟩, -⟩ := consistent
  exact ⟨envelope, tables, legible⟩

section

variable (authentic : site.crypto.Authentic) (hash : site.crypto.CollisionFree)
include authentic hash

theorem write_consistent {disk seen : Disk} {daemon : Daemon} {observers : List Observer}
    {kind : FileStep} {effect : Disk → Disk}
    (consistent : Consistent site ⟨disk, daemon, observers⟩)
    (allowed : Allowed site seen kind effect)
    (timely : Timely ⟨disk, daemon, observers⟩ (.write kind seen)) :
    Consistent site ⟨effect disk, daemon, observers⟩ := by
  have readable := legible_readable consistent
  obtain ⟨⟨envelope, tables, legible, admits, alone⟩, isolated⟩ := consistent
  refine ⟨?_, isolated⟩
  rcases allowed with harmless | ⟨rfl, nonce, generation, rows, saw, rfl⟩
  · obtain ⟨kek, database, custody⟩ := harmless disk readable
    exact ⟨envelope, tables, ⟨custody.trans legible.custody, kek ▸ legible.file,
      kek ▸ legible.written, legible.kek, database.trans legible.database, legible.initialised,
      legible.version⟩, admits, alone⟩
  · obtain ⟨text, -, read⟩ := legible.file
    have kekLength : site.kek.length = 32 := legible.kek ▸ (read_envelope_valid read).kek
    have valid := settled_envelope_valid kekLength generation (storeCommitment site.crypto rows)
    refine ⟨settledEnvelope site.kek generation (storeCommitment site.crypto rows), tables,
      ⟨legible.custody, ⟨_, rfl, read_envelope_written authentic site.master nonce _ valid⟩,
        fun _ => ⟨nonce, rfl⟩, rfl, legible.database, store_commitment_ne_empty hash rows,
        legible.version⟩, ?_, alone⟩
    rcases timely with current | window
    · have same : rows = tables := by
        refine tables_database_injective (Option.some.inj (saw.symm.trans ?_))
        exact current.trans legible.database
      rw [same]
      exact .inr ⟨generation, settled_envelope_settles _ _ _ _⟩
    · exact .inl window

theorem system_step_consistent (unlocks : site.Unlocks) {system next : System} {event : Event}
    (consistent : Consistent site system)
    (step : SystemStep site.crypto site.secretsKey system event next)
    (timely : Timely system event) : Consistent site next := by
  cases step with
  | call disk session observers operation draws =>
    refine switch_consistent consistent rfl ?_
    intro first shadow held tables number alone holds sound
    cases first with
    | busy _ _ _ _ _ => exact alone.elim
    | idle same =>
      cases alone
      exact ⟨.busy operation draws session shadow
          (operation.perform site.crypto draws session),
        ⟨rfl, blind_perform site.crypto draws operation session⟩, sound_call authentic hash holds
          sound operation draws⟩
  | work observers inner => exact work_consistent authentic hash consistent inner
  | finish disk result session observers =>
    refine switch_consistent consistent rfl ?_
    intro first shadow held tables number alone holds sound
    cases first with
    | idle _ => exact alone.elim
    | busy operation draws before start same =>
      obtain ⟨rfl, -⟩ := alone
      exact ⟨.idle session, rfl, sound_finish holds sound⟩
  | start disk daemon observers draws =>
    refine ⟨consistent.exists_rows, ?_⟩
    intro observer member
    rcases List.mem_cons.mp member with rfl | old
    · exact opening_isolated unlocks draws disk
    · exact consistent.observers observer old
  | read disk seen daemon before after rest =>
    have readable := legible_readable consistent
    have reading := consistent.observers ⟨seen, .observe rest⟩ (by simp)
    refine ⟨consistent.exists_rows, ?_⟩
    intro observer member
    rcases List.mem_append.mp member with old | new
    · exact consistent.observers observer (List.mem_append_left _ old)
    · rcases List.mem_cons.mp new with rfl | old
      · exact reading disk readable
      · exact consistent.observers observer
          (List.mem_append_right _ (List.mem_cons_of_mem _ old))
  | write disk seen daemon before after kind effect rest =>
    obtain ⟨allowed, isolated⟩ :=
      consistent.observers ⟨seen, .update kind effect rest⟩ (by simp)
    have written := write_consistent authentic hash consistent allowed timely
    refine ⟨written.exists_rows, ?_⟩
    intro observer member
    rcases List.mem_append.mp member with old | new
    · exact written.observers observer (List.mem_append_left _ old)
    · rcases List.mem_cons.mp new with rfl | old
      · exact isolated
      · exact written.observers observer
          (List.mem_append_right _ (List.mem_cons_of_mem _ old))

theorem system_run_consistent (unlocks : site.Unlocks) {system last : System}
    (consistent : Consistent site system)
    (run : SystemRun site.crypto site.secretsKey Timely system last) : Consistent site last := by
  induction run with
  | start => exact consistent
  | step _ step timely induction =>
    exact system_step_consistent authentic hash unlocks induction step timely

end

variable {secretsKey : String} {first : System}

theorem daemon_idles {crypto : Crypto} {condition : System → Event → Prop}
    (free : ∀ system, condition system .daemon) {disk : Disk} {observers : List Observer}
    {program rest : Files (Except Raised Answer × Session)}
    (run : SystemRun crypto secretsKey condition first ⟨disk, .busy program, observers⟩)
    (idles : Relation.ReflTransGen (Idles disk) program rest) :
    SystemRun crypto secretsKey condition first ⟨disk, .busy rest, observers⟩ := by
  induction idles with
  | refl => exact run
  | tail _ step induction => exact induction.step (.work observers (idles_step step)) (free _)

/-! ### A stale status check -/

theorem opening_idles (unlocks : site.Unlocks) {disk : Disk} {envelope : KekEnvelope}
    {tables : Tables} (legible : Legible site disk envelope tables)
    (directory : disk.databaseDirectory = true) (draws : OpenDraws) :
    Lingers disk (openStore site.crypto site.secretsKey false draws)
      (inSession (initializeRows site.crypto draws)
        ⟨site.master, envelope.kek, envelope, false⟩) := by
  obtain ⟨secretsMaster, secrets, custody⟩ := bind_ok_iff.mp unlocks
  obtain ⟨text, file, read⟩ := legible.file
  have together : existTogether disk = .ok () := by
    simp [existTogether, file, legible.database]
  have prepared : makeDatabaseDirectory disk = disk := by
    obtain ⟨_, _, _, _, _, _⟩ := disk
    simp only at directory
    rw [directory]
    rfl
  obtain ⟨created, metadataCreated, keysCreated⟩ := harmless_schema ⟨envelope, tables, legible⟩
  rw [← legible.custody] at custody
  have loading : Lingers disk (loadOrCreateKek site.crypto site.secretsKey false draws)
      (pure (site.master, envelope)) := by
    unfold loadOrCreateKek
    refine (lingers_bind (lingers_lift disk secrets) _).trans ?_
    refine (lingers_bind (lingers_inspect custody) _).trans ?_
    refine (lingers_bind (lingers_inspect rfl) _).trans ?_
    rw [file]
    exact lingers_bind (lingers_lift disk read) _
  have script : Lingers disk runSchemaScript (pure ()) := by
    refine (lingers_bind (lingers_change created) _).trans ?_
    refine (lingers_bind (lingers_change metadataCreated) _).trans ?_
    exact lingers_change keysCreated
  unfold openStore
  refine (lingers_bind (lingers_inspect rfl) _).trans ?_
  refine (lingers_bind (lingers_inspect together) _).trans ?_
  refine (lingers_bind (lingers_change prepared) _).trans ?_
  refine (lingers_bind loading _).trans ?_
  exact lingers_bind script _

theorem opening_idles_settle {disk : Disk} {tables : Tables} {session : Session}
    {envelope : KekEnvelope} (holds : disk.database = some tables.database)
    (versioned : withSchemaVersion session.readOnly tables = .ok (tables, false))
    (decided : settlement session (storeCommitment site.crypto tables) = .rewrite envelope)
    (draws : OpenDraws) :
    Lingers disk (inSession (initializeRows site.crypto draws) session)
      (inSession (do
        writeEnvelope site.crypto .settleEnvelope draws.settleNonce envelope
        pure ()) session) := by
  refine idles_before ?_ _
  refine (rests_bind (rests_session disk session) _).trans ?_
  refine (rests_bind (rests_read_tables holds session) _).trans ?_
  rw [versioned, store_lift_ok_bind]
  have settles : verifyStoreCommitment site.crypto draws.settleNonce tables session =
      writeEnvelope site.crypto .settleEnvelope draws.settleNonce envelope session := by
    rw [verify_store_commitment_settle, decided]
    rfl
  have continues : ∀ next : Unit → StoreM Unit,
      (verifyStoreCommitment site.crypto draws.settleNonce tables >>= next) session =
        (writeEnvelope site.crypto .settleEnvelope draws.settleNonce envelope >>= next)
          session :=
    fun next => congrArg (fun program => Program.bind program _) settles
  change Relation.ReflTransGen (Idles disk)
    ((verifyStoreCommitment site.crypto draws.settleNonce tables >>= fun _ => pure ()) session) _
  rw [continues]

theorem observer_idles {crypto : Crypto} {disk : Disk} {daemon : Daemon}
    {program rest : Files (Except Raised Session)}
    (run : SystemRun crypto secretsKey (fun _ _ => True) first ⟨disk, daemon, [⟨disk, program⟩]⟩)
    (idles : Relation.ReflTransGen (Idles disk) program rest) :
    SystemRun crypto secretsKey (fun _ _ => True) first ⟨disk, daemon, [⟨disk, rest⟩]⟩ := by
  induction idles with
  | refl => exact run
  | tail _ step induction =>
    cases step with
    | observe next => exact induction.step (.read disk disk daemon [] [] next) trivial
    | @update kind effect next keeps =>
      have written := induction.step (.write disk disk daemon [] [] kind effect next) trivial
      rw [keeps] at written
      exact written

end Atlaso.Kmip.CommitInterleavings
