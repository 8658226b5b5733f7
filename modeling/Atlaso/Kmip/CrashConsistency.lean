import Atlaso.Kmip.CommitProtocol

/-!
One process that runs operations on an open store, with faults, stopped at any point.

A step of the process starts an operation, does one file-level step of it, or takes its
result; stopping is having no further step. The rows change in the steps that commit,
and the run counts them.
-/

namespace Atlaso.Kmip.CrashConsistency

open CommitProtocol Exceptions StoreFiles StoreKeys StoreOpening StoreOperations StoreRuns
open Library.FilePrograms

/-- What the process is doing; a running operation is kept with the session and the disk
it started from. -/
inductive Activity where
  | idle (session : Session)
  | busy (operation : Operation) (draws : Draws) (session : Session) (start : Disk)
      (program : Files (Except Raised Answer × Session))

structure Process where
  activity : Activity
  disk : Disk

inductive ProcessStep (crypto : Crypto) : Process → Process → Prop
  | call (session : Session) (disk : Disk) (operation : Operation) (draws : Draws) :
      ProcessStep crypto ⟨.idle session, disk⟩
        ⟨.busy operation draws session disk (operation.perform crypto draws session), disk⟩
  | work {operation : Operation} {draws : Draws} {session : Session} {start disk later : Disk}
      {program rest : Files (Except Raised Answer × Session)}
      (step : Step commitFaults (program, disk) (rest, later)) :
      ProcessStep crypto ⟨.busy operation draws session start program, disk⟩
        ⟨.busy operation draws session start rest, later⟩
  | finish (operation : Operation) (draws : Draws) (session : Session) (start disk : Disk)
      (result : Except Raised Answer) (after : Session) :
      ProcessStep crypto ⟨.busy operation draws session start (.done (result, after)), disk⟩
        ⟨.idle after, disk⟩

def rowChanges (disk later : Disk) : Nat := if later.database = disk.database then 0 else 1

theorem row_changes_self (disk : Disk) : rowChanges disk disk = 0 := if_pos rfl

inductive ProcessRun (crypto : Crypto) : Process → Nat → Process → Prop
  | start (process : Process) : ProcessRun crypto process 0 process
  | step {first last next : Process} {changes : Nat} (run : ProcessRun crypto first changes last)
      (step : ProcessStep crypto last next) :
      ProcessRun crypto first (changes + rowChanges last.disk next.disk) next

variable {disk : Disk} {generation : Nat} {process : Process}

variable {draws : Draws} {result : Except Raised Answer}

theorem idle_run {crypto : Crypto} {first : Process} {operation : Operation} {session : Session}
    {start : Disk} {changes : Nat} {program rest : Files (Except Raised Answer × Session)}
    (run : ProcessRun crypto first changes ⟨.busy operation draws session start program, disk⟩)
    (idles : Relation.ReflTransGen (Idles disk) program rest) :
    ProcessRun crypto first changes ⟨.busy operation draws session start rest, disk⟩ := by
  induction idles with
  | refl => exact run
  | tail _ step induction =>
    have next := induction.step (.work (idles_step step))
    rwa [row_changes_self, Nat.add_zero] at next

def fileGeneration (crypto : Crypto) (master : Bytes) (disk : Disk) : Nat :=
  match disk.kek with
  | none => 0
  | some text =>
    match readEnvelope crypto master text with
    | .ok envelope => envelope.generation
    | .error _ => 0

/-- The rows are the ones that the running operation found, or the ones that it leaves
when it runs to its end. -/
def BeforeOrAfter (crypto : Crypto) (process : Process) (tables : Tables) : Prop :=
  match process.activity with
  | .idle _ => process.disk.database = some tables.database
  | .busy operation draws session start _ =>
    start.database = some tables.database ∨
      (runStore (operation.perform crypto draws) session start).2.2.database =
        some tables.database

/-! ### The invariant -/

variable {site : Installation}

theorem recoverable_file_generation {envelope : KekEnvelope} {tables : Tables}
    (recoverable : Recoverable site disk envelope tables generation) :
    fileGeneration site.crypto site.master disk = envelope.generation := by
  obtain ⟨text, file, read⟩ := recoverable.file
  simp [fileGeneration, file, read]

/-- The rows of a running operation are the ones it found or the ones it planned. -/
def Reached (site : Installation) (operation : Operation) (draws : Draws) (first tables : Tables)
    (before generation : Nat) : Prop :=
  (tables = first ∧ generation = before) ∨
    ((∃ answer, operation.plan site.crypto site.kek draws first = .ok ⟨answer, some tables⟩) ∧
      generation = before + 1)

/-- The state of the process when the rows are `tables` at `generation`. -/
def Sound (site : Installation) (activity : Activity) (disk : Disk) (tables : Tables)
    (generation : Nat) : Prop :=
  match activity with
  | .idle session => Remembers site session tables generation
  | .busy operation draws session start program => ∃ first before,
      Ready site session start first before ∧
        Reached site operation draws first tables before generation ∧
          Safe commitFaults
            (Progress site fun rows later => rows = first ∧ ∃ answer,
              operation.plan site.crypto site.kek draws first = .ok ⟨answer, some later⟩)
            (fun outcome disk => Performed site commitFaults
              (operation.plan site.crypto site.kek draws first) first before outcome.1 outcome.2
                disk) program disk

theorem sound_idle {session : Session} {tables : Tables} (disk : Disk)
    (remembers : Remembers site session tables generation) :
    Sound site (Process.mk (.idle session) disk).activity (Process.mk (.idle session) disk).disk
      tables generation :=
  remembers

/-- What one step preserves: the process stays sound, the generation counts the changes
of the rows, the generation in the file does not decrease, and no key is lost. -/
structure Advanced (site : Installation) (disk : Disk) (tables : Tables) (generation : Nat)
    (next : Process) : Prop where
  exists_rows : ∃ envelope rows, Recoverable site next.disk envelope rows
      (generation + rowChanges disk next.disk) ∧
    Sound site next.activity next.disk rows (generation + rowChanges disk next.disk) ∧
      KeysKept site.crypto site.kek tables rows
  monotone : fileGeneration site.crypto site.master disk ≤
    fileGeneration site.crypto site.master next.disk

theorem performed_ready {plan : Except Raised Plan} {first : Tables} {before : Nat}
    {after : Session}
    (performed : Performed site commitFaults plan first before result after disk) :
    ∃ tables generation, Ready site after disk tables generation := by
  unfold Performed at performed
  split at performed
  · exact ⟨_, _, performed.1⟩
  · exact ⟨_, _, performed.1⟩
  · rcases performed with ⟨-, ready⟩ | ⟨-, -, ready | ready⟩
    · exact ⟨_, _, ready⟩
    · exact ⟨_, _, ready⟩
    · exact ⟨_, _, ready⟩

theorem sound_call (authentic : site.crypto.Authentic) (hash : site.crypto.CollisionFree)
    {session : Session} {envelope : KekEnvelope} {tables : Tables}
    (recoverable : Recoverable site disk envelope tables generation)
    (sound : Sound site (.idle session) disk tables generation) (operation : Operation)
    (draws : Draws) :
    Sound site (.busy operation draws session disk
      (operation.perform site.crypto draws session)) disk tables generation := by
  have ready : Ready site session disk tables generation := ⟨⟨envelope, recoverable⟩, sound⟩
  exact ⟨tables, generation, ready, .inl ⟨rfl, rfl⟩,
    safe_m_iff.mp (safe_perform authentic hash ready operation draws (fun _ _ fault => fault)
      fun answer later planned => ⟨rfl, answer, planned⟩)⟩

theorem sound_finish {operation : Operation} {session after : Session} {start : Disk}
    {envelope : KekEnvelope} {tables : Tables}
    (recoverable : Recoverable site disk envelope tables generation)
    (sound : Sound site (.busy operation draws session start (.done (result, after))) disk tables
      generation) : Sound site (.idle after) disk tables generation := by
  obtain ⟨first, before, -, -, performed⟩ := sound
  obtain ⟨rows, number, ⟨held, holds⟩, remembers⟩ := performed_ready performed
  obtain ⟨rfl, rfl, rfl⟩ := recoverable_unique recoverable holds
  exact remembers

theorem process_step_advances (authentic : site.crypto.Authentic) (hash : site.crypto.CollisionFree)
    {next : Process} {envelope : KekEnvelope} {tables : Tables}
    (recoverable : Recoverable site process.disk envelope tables generation)
    (sound : Sound site process.activity process.disk tables generation)
    (step : ProcessStep site.crypto process next) :
    Advanced site process.disk tables generation next := by
  cases step with
  | call session disk operation draws =>
    refine ⟨⟨envelope, tables, ?_, ?_, keys_kept_refl _ _ _⟩, le_rfl⟩
    · rw [row_changes_self]
      exact recoverable
    · rw [row_changes_self]
      exact sound_call authentic hash recoverable sound operation draws
  | work inner =>
    rename_i operation draws session start disk later program rest
    obtain ⟨first, before, ready, reached, safe⟩ := sound
    obtain ⟨moved, safeRest⟩ := safe_step safe inner
    have progress : Progress site (fun rows later => rows = first ∧ ∃ answer,
        operation.plan site.crypto site.kek draws first = .ok ⟨answer, some later⟩)
          disk later := by
      rcases moved with rfl | progress
      · exact progress_refl later
      · exact progress
    obtain ⟨held, rows, number, holds, grows, change⟩ := progress envelope tables generation
      recoverable
    have monotone : fileGeneration site.crypto site.master disk ≤
        fileGeneration site.crypto site.master later := by
      rw [recoverable_file_generation recoverable, recoverable_file_generation holds]
      exact grows
    rcases change with ⟨rfl, rfl⟩ | ⟨⟨rfl, answer, planned⟩, rfl⟩
    · have counted : rowChanges disk later = 0 :=
        if_pos (holds.database.trans recoverable.database.symm)
      refine ⟨⟨held, rows, ?_, ?_, keys_kept_refl _ _ _⟩, monotone⟩
      · rw [counted]
        exact holds
      · rw [counted]
        exact ⟨first, before, ready, reached, safeRest⟩
    · have grown := plan_extends authentic planned
      have counted : rowChanges disk later = 1 := by
        refine if_neg ?_
        intro same
        rw [holds.database, recoverable.database] at same
        exact grown.changed (tables_database_injective (Option.some.inj same))
      have atStart : generation = before := by
        rcases reached with ⟨-, same⟩ | ⟨⟨_, again⟩, -⟩
        · exact same
        · exact absurd rfl (plan_extends authentic again).changed
      refine ⟨⟨held, rows, ?_, ?_, grown.kept⟩, monotone⟩
      · rw [counted]
        exact holds
      · rw [counted]
        exact ⟨tables, before, ready, .inr ⟨⟨answer, planned⟩, by rw [atStart]⟩, safeRest⟩
  | finish operation draws session start disk result after =>
    refine ⟨⟨envelope, tables, ?_, ?_, keys_kept_refl _ _ _⟩, le_rfl⟩
    · rw [row_changes_self]
      exact recoverable
    · rw [row_changes_self]
      exact sound_finish recoverable sound

theorem process_run_advances (authentic : site.crypto.Authentic) (hash : site.crypto.CollisionFree)
    {last : Process} {envelope : KekEnvelope} {tables : Tables} {changes : Nat}
    (recoverable : Recoverable site process.disk envelope tables generation)
    (sound : Sound site process.activity process.disk tables generation)
    (run : ProcessRun site.crypto process changes last) :
    ∃ held rows, Recoverable site last.disk held rows (generation + changes) ∧
      Sound site last.activity last.disk rows (generation + changes) ∧
        KeysKept site.crypto site.kek tables rows ∧
          fileGeneration site.crypto site.master process.disk ≤
            fileGeneration site.crypto site.master last.disk := by
  induction run with
  | start => exact ⟨envelope, tables, recoverable, sound, keys_kept_refl _ _ _, le_rfl⟩
  | step run step induction =>
    obtain ⟨held, rows, holds, soundHere, kept, grows⟩ := induction
    obtain ⟨⟨newer, newRows, newHolds, newSound, newKept⟩, monotone⟩ :=
      process_step_advances authentic hash holds soundHere step
    rw [Nat.add_assoc] at newHolds newSound
    exact ⟨newer, newRows, newHolds, newSound, keys_kept_trans kept newKept,
      grows.trans monotone⟩

/-! ### Stopping and reopening -/

theorem sound_before_or_after (authentic : site.crypto.Authentic) (hash : site.crypto.CollisionFree)
    {envelope : KekEnvelope} {tables : Tables}
    (recoverable : Recoverable site process.disk envelope tables generation)
    (sound : Sound site process.activity process.disk tables generation) :
    BeforeOrAfter site.crypto process tables := by
  obtain ⟨activity, disk⟩ := process
  cases activity with
  | idle session => exact recoverable.database
  | busy operation draws session start program =>
    obtain ⟨first, before, ready, reached, -⟩ := sound
    rcases reached with ⟨rfl, -⟩ | ⟨⟨answer, planned⟩, -⟩
    · obtain ⟨held, holds⟩ := ready.recoverable
      exact .inl holds.database
    · obtain ⟨after, later, ended⟩ := run_perform authentic hash operation draws ready
      rw [planned] at ended
      obtain ⟨ran, ⟨⟨held, holds⟩, -⟩⟩ := ended
      refine .inr ?_
      rw [ran]
      exact holds.database

/-- A process opened a store, ran operations with faults to any point, and went on to any
later point where it stopped. The store opens again with the rows before or after the
operation that was running, no key of the earlier point is lost or altered, the
generation has grown by one for each change of the rows, and the generation in the file
has not decreased. -/
theorem stopped_store_reopens {crypto : Crypto} (authentic : crypto.Authentic)
    (hash : crypto.CollisionFree) {secretsKey : String} {initial opened : Disk}
    {session : Session} {draws : OpenDraws} (kek : initial.kek.isSome)
    (ran : runFiles (openStore crypto secretsKey false draws) initial = (.ok session, opened))
    {earlier stopped : Process} {before since : Nat}
    (reached : ProcessRun crypto ⟨.idle session, opened⟩ before earlier)
    (continued : ProcessRun crypto earlier since stopped) (again : OpenDraws) :
    ∃ reopened later known tables,
      runFiles (openStore crypto secretsKey false again) stopped.disk = (.ok reopened, later) ∧
        later.database = some tables.database ∧ BeforeOrAfter crypto stopped tables ∧
          earlier.disk.database = some known.database ∧
            KeysKept crypto session.kek known tables ∧
              reopened.envelope.generation = session.envelope.generation + before + since ∧
                fileGeneration crypto session.masterKey earlier.disk ≤
                  fileGeneration crypto session.masterKey stopped.disk := by
  obtain ⟨site, start, rfl, rfl, unlocks, ⟨envelope, recoverable⟩, remembers⟩ :=
    open_ready authentic hash kek ran
  obtain ⟨held, known, holds, sound, -, -⟩ :=
    process_run_advances authentic hash recoverable (sound_idle opened remembers) reached
  obtain ⟨last, tables, recovers, soundLast, kept, grows⟩ :=
    process_run_advances authentic hash holds sound continued
  obtain ⟨later, opens, settled⟩ := open_recoverable authentic hash unlocks recovers again
  rw [remembers.kek, remembers.master]
  have interrupted := sound_before_or_after authentic hash recovers soundLast
  exact ⟨_, later, known, tables, opens, settled.database, interrupted, holds.database, kept,
    rfl, grows⟩

/-- A process that stops in a creation, after the database commit. -/
theorem stopped_creation_reopens : ∃ stopped reopened later tables,
    runFiles (openStore sampleSite.crypto "secret" false sampleOpenDraws) stopped =
        (.ok reopened, later) ∧
      later.database = some (Tables.database tables) ∧
        KeysKept sampleSite.crypto sampleSite.kek Tables.initialised tables ∧
          reopened.envelope.generation = 1 := by
  obtain ⟨inserted, ⟨-, changed, -⟩, idles⟩ := sample_create_idles
  have called := ProcessRun.step (.start ⟨.idle sampleSession, sampleDisk⟩)
    (@ProcessStep.call sampleSite.crypto sampleSession sampleDisk
      (.create sampleProvider none []) sampleKey)
  have pending := (idle_run called idles).step
    (.work (Step.update FileStep.pendingEnvelope _ _ sampleDisk .applied (.inl rfl)))
  have committed := pending.step
    (.work (Step.update FileStep.commitMutation _ _ _ .applied (.inl rfl)))
  obtain ⟨reopened, later, known, tables, opens, database, -, same, kept, generation, -⟩ :=
    stopped_store_reopens transparent_authentic transparent_collision_free rfl sample_opens
      (ProcessRun.start _) committed sampleOpenDraws
  have first : known = Tables.initialised :=
    tables_database_injective (Option.some.inj same).symm
  rw [first] at kept
  refine ⟨_, reopened, later, tables, opens, database, kept, generation.trans ?_⟩
  have unchanged : ∀ text, rowChanges sampleDisk (sampleDisk.writeKek text) = 0 :=
    fun text => if_pos rfl
  have moved : ∀ disk : Disk, disk.database = some Tables.initialised.database →
      rowChanges disk (disk.writeTables inserted) = 1 := by
    intro disk before
    refine if_neg ?_
    intro equal
    rw [before] at equal
    exact changed (tables_database_injective (Option.some.inj equal))
  change 0 + 0 + (0 + rowChanges sampleDisk sampleDisk +
    rowChanges sampleDisk (sampleDisk.writeKek _) +
      rowChanges (sampleDisk.writeKek _) ((sampleDisk.writeKek _).writeTables inserted)) = 1
  rw [row_changes_self, unchanged, moved _ rfl]

end Atlaso.Kmip.CrashConsistency
