import Atlaso.NetworkBoot.MediaSwaps

/-!
What the recovery leaves of a media swap that was stopped between two durable steps.

A stopped swap is described by a phase: what stands at the name of the new directory, and
which of the staging directory, the journal, the backup and the new row are there. Every
prefix of a run ends in a phase, and the recovery is computed on phases.
-/

namespace Atlaso.NetworkBoot.MediaRecovery

open MediaSwaps

section Settled

variable (early : Root → EntryName → Bool)

theorem recover_settled {root : Root} (environment : Environment)
    (rows : String → Option Row) (settled : Settled root) :
    recoverRoot early environment rows root = root := by
  obtain ⟨media, journals, stagings, backups⟩ := root
  obtain ⟨journalsNil, stagingsNil, -⟩ := settled
  simp only at journalsNil stagingsNil
  subst journalsNil stagingsNil
  rfl

theorem settled_empty : Settled Root.empty := ⟨rfl, rfl, rfl⟩

theorem recover_environment_rows (world : World) (environment : Environment) :
    (recoverEnvironment early world environment).rows = world.rows := by
  unfold recoverEnvironment
  cases world.roots environment <;> rfl

theorem recover_environment_roots (world : World) (taken environment : Environment) :
    (recoverEnvironment early world taken).roots environment =
      if environment = taken then
        (world.roots environment).map (recoverRoot early environment (world.rows environment))
      else world.roots environment := by
  unfold recoverEnvironment
  by_cases same : environment = taken
  · subst same
    rw [if_pos rfl]
    cases found : world.roots environment with
    | none => exact found
    | some root => exact Function.update_self environment _ _
  · rw [if_neg same]
    cases world.roots taken with
    | none => rfl
    | some root => exact Function.update_of_ne same _ _

theorem recover_environments_rows (environments : List Environment) (world : World) :
    (environments.foldl (recoverEnvironment early) world).rows = world.rows := by
  induction environments generalizing world with
  | nil => rfl
  | cons taken rest induction =>
    exact (induction _).trans (recover_environment_rows early world taken)

theorem recover_environments_roots (environments : List Environment) (world : World)
    (environment : Environment) (once : environments.Nodup) :
    (environments.foldl (recoverEnvironment early) world).roots environment =
      if environment ∈ environments then
        (world.roots environment).map (recoverRoot early environment (world.rows environment))
      else world.roots environment := by
  induction environments generalizing world with
  | nil => rfl
  | cons taken rest induction =>
    obtain ⟨fresh, restOnce⟩ := List.nodup_cons.mp once
    rw [List.foldl_cons, induction _ restOnce, recover_environment_rows,
      recover_environment_roots]
    by_cases same : environment = taken
    · subst same
      simp [fresh]
    · simp [same]

theorem recover_rows (world : World) : (recover early world).rows = world.rows :=
  recover_environments_rows early environmentCatalog world

theorem recover_roots (world : World) (environment : Environment) :
    (recover early world).roots environment =
      (world.roots environment).map
        (recoverRoot early environment (world.rows environment)) := by
  unfold recover
  rw [recover_environments_roots early _ _ _ (by decide), if_pos (by cases environment <;> decide)]

theorem recover_root (world : World) (environment : Environment) :
    (recover early world).root environment =
      recoverRoot early environment (world.rows environment) (world.root environment) := by
  unfold World.root
  rw [recover_roots]
  cases world.roots environment with
  | none => exact (recover_settled early environment _ settled_empty).symm
  | some root => rfl

theorem recover_roots_settled {world : World} {environment : Environment}
    (settled : Settled (world.root environment)) :
    (recover early world).roots environment = world.roots environment := by
  rw [recover_roots]
  unfold World.root at settled
  cases found : world.roots environment with
  | none => rfl
  | some root =>
    rw [found] at settled
    exact congrArg some (recover_settled early environment _ settled)

/-- A recovery that leaves nothing behind changes nothing when it runs again. -/
theorem recover_again {world : World}
    (settled : ∀ environment, Settled ((recover early world).root environment)) :
    recover early (recover early world) = recover early world := by
  have rootsSame : (recover early (recover early world)).roots = (recover early world).roots :=
    funext fun environment => recover_roots_settled early (settled environment)
  have rowsSame := recover_rows early (recover early world)
  cases once : recover early world with
  | mk roots rows =>
    cases twice : recover early (recover early world) with
    | mk rootsAgain rowsAgain =>
      rw [once] at twice
      rw [once, twice] at rootsSame rowsSame
      rw [twice]
      simp only at rootsSame rowsSame
      rw [rootsSame, rowsSame]

end Settled

section Phases

/-- What stands at the name of the new directory. -/
inductive Place where
  | kept | vacated | published
  deriving DecidableEq, Repr

structure Phase where
  place : Place
  (staged journalled aside committed trimmed : Bool)
  deriving DecidableEq, Repr

def Phase.start : Phase := ⟨.kept, false, false, false, false, false⟩

def Phase.after (phase : Phase) : Step → Phase
  | .stage => { phase with staged := true }
  | .journal => { phase with journalled := true }
  | .setAside => { phase with place := .vacated, aside := true }
  | .publish => { phase with place := .published }
  | .unstage => { phase with staged := false }
  | .commit => { phase with committed := true }
  | .removeBackup => { phase with aside := false }
  | .removeSuperseded => { phase with trimmed := true }
  | .removeFinal => { phase with place := .vacated }
  | .restore => { phase with place := .kept, aside := false }
  | .removeJournal => { phase with journalled := false }

/-- A step finds what it moves, and does not make anything twice. -/
def Phase.ready (phase : Phase) : Step → Bool
  | .stage => !phase.staged
  | .journal => !phase.journalled
  | .setAside => phase.place = .kept
  | .restore => phase.aside
  | .removeSuperseded => !phase.trimmed
  | _ => true

/-- The new row is committed after the new directory, a directory is only aside in a
replacement that has its journal, and the new directory stands under a journal or a row. -/
def Phase.sound (replaced : Bool) (phase : Phase) : Bool :=
  (!phase.committed || phase.place = .published) &&
    (!phase.aside || (replaced && phase.journalled)) &&
    (phase.place ≠ .published || phase.journalled || phase.committed)

def Phase.passes (replaced : Bool) (phase : Phase) : List Step → Bool
  | [] => phase.sound replaced
  | taken :: rest =>
    phase.sound replaced && phase.ready taken && (phase.after taken).passes replaced rest

def Phase.node (plan : Plan) (root : Root) (phase : Phase) : Option Node :=
  match phase.place with
  | .kept => root.media plan.final
  | .vacated => none
  | .published => some (.directory (some plan.tree))

def Phase.backup (plan : Plan) (root : Root) (phase : Phase) : Option Node :=
  bif phase.aside then root.media plan.final else none

def noBackups : String × String → Option Node := fun _ => none

def Phase.root (plan : Plan) (root : Root) (phase : Phase) : Root where
  media := Function.update
    (bif phase.trimmed then
      plan.superseded.elim root.media fun name => Function.update root.media name none
    else root.media)
    plan.final (phase.node plan root)
  journals := bif phase.journalled then [(plan.transaction, plan.journal)] else []
  stagings := bif phase.staged then [(plan.staging, true)] else []
  backups := Function.update noBackups (plan.version, plan.transaction) (phase.backup plan root)

theorem phase_root_start {plan : Plan} {root : Root} (settled : Settled root) :
    Phase.start.root plan root = root := by
  obtain ⟨media, journals, stagings, backups⟩ := root
  obtain ⟨journalsNil, stagingsNil, backupsNone⟩ := settled
  simp only at journalsNil stagingsNil backupsNone
  subst journalsNil stagingsNil backupsNone
  have backupsSame : Function.update noBackups (plan.version, plan.transaction) none = noBackups :=
    Function.update_eq_self (plan.version, plan.transaction) noBackups
  simp only [Phase.root, Phase.start, Phase.node, Phase.backup, cond_false,
    Function.update_eq_self, backupsSame]
  rfl

@[simp] theorem phase_root_media (plan : Plan) (root : Root) (phase : Phase) :
    (phase.root plan root).media plan.final = phase.node plan root :=
  Function.update_self _ _ _

@[simp] theorem phase_root_backups (plan : Plan) (root : Root) (phase : Phase) :
    (phase.root plan root).backups (plan.version, plan.transaction) = phase.backup plan root :=
  Function.update_self _ _ _

theorem phase_root_journals (plan : Plan) (root : Root) (phase : Phase) :
    (phase.root plan root).journals = [] ↔ phase.journalled = false := by
  cases journalled : phase.journalled <;> simp [Phase.root, journalled]

variable {phase : Phase} {before : World}

variable {taken : Step} {world : World}

theorem step_root_phase {plan : Plan} {root : Root} (apart : plan.superseded ≠ some plan.final)
    (ready : phase.ready taken = true) :
    stepRoot plan (phase.root plan root) taken = (phase.after taken).root plan root := by
  cases taken with
  | stage =>
    simp only [Phase.ready, Bool.not_eq_true'] at ready
    simp [stepRoot, Phase.root, Phase.after, Phase.node, Phase.backup, ready]
  | journal =>
    simp only [Phase.ready, Bool.not_eq_true'] at ready
    simp [stepRoot, Phase.root, Phase.after, Phase.node, Phase.backup, ready]
  | setAside =>
    simp only [Phase.ready, decide_eq_true_eq] at ready
    simp [stepRoot, Phase.root, Phase.after, Phase.node, Phase.backup, ready,
      Function.update_idem]
  | publish =>
    simp [stepRoot, Phase.root, Phase.after, Phase.node, Phase.backup, Function.update_idem]
  | unstage =>
    cases staged : phase.staged <;>
      simp [stepRoot, Phase.root, Phase.after, Phase.node, Phase.backup, staged]
  | commit => rfl
  | removeBackup =>
    simp [stepRoot, Phase.root, Phase.after, Phase.node, Phase.backup, Function.update_idem]
  | removeSuperseded =>
    simp only [Phase.ready, Bool.not_eq_true'] at ready
    cases chosen : plan.superseded with
    | none =>
      simp [stepRoot, Phase.root, Phase.after, Phase.node, Phase.backup, ready, chosen]
    | some name =>
      have distinct : plan.final ≠ name := fun same => apart (same ▸ chosen)
      simp [stepRoot, Phase.root, Phase.after, Phase.node, Phase.backup, ready, chosen,
        Function.update_comm distinct]
  | removeFinal =>
    simp [stepRoot, Phase.root, Phase.after, Phase.node, Phase.backup, Function.update_idem]
  | restore =>
    simp only [Phase.ready] at ready
    simp [stepRoot, Phase.root, Phase.after, Phase.node, Phase.backup, ready,
      Function.update_idem]
  | removeJournal =>
    cases journalled : phase.journalled <;>
      simp [stepRoot, Phase.root, Phase.after, Phase.node, Phase.backup, journalled]

structure Reached (plan : Plan) (before : World) (phase : Phase) (world : World) : Prop where
  root : world.root plan.environment = phase.root plan (before.root plan.environment)
  others : ∀ environment, environment ≠ plan.environment →
    world.roots environment = before.roots environment
  rows : world.rows = if phase.committed then stepRows plan before.rows .commit else before.rows

theorem reached_start {plan : Plan} (settled : Settled (before.root plan.environment)) :
    Reached plan before .start before :=
  ⟨(phase_root_start settled).symm, fun _ _ => rfl, rfl⟩

theorem step_root (plan : Plan) (world : World) (taken : Step) :
    (step plan world taken).root plan.environment =
      stepRoot plan (world.root plan.environment) taken := by
  unfold step World.root World.withRoot
  simp

theorem step_rows_phase {plan : Plan} (taken : Step) :
    stepRows plan
        (if phase.committed then stepRows plan before.rows .commit else before.rows) taken =
      if (phase.after taken).committed then stepRows plan before.rows .commit
      else before.rows := by
  cases taken with
  | commit =>
    funext environment version
    cases committed : phase.committed
    · rfl
    · by_cases same : environment = plan.environment ∧ version = plan.version <;>
        simp [stepRows, Phase.after, same]
  | _ => rfl

theorem reached_step {plan : Plan} (apart : plan.superseded ≠ some plan.final)
    (ready : phase.ready taken = true) (reached : Reached plan before phase world) :
    Reached plan before (phase.after taken) (step plan world taken) where
  root := by
    rw [step_root, reached.root]
    exact step_root_phase apart ready
  others environment other :=
    (Function.update_of_ne other _ _).trans (reached.others environment other)
  rows := by
    change stepRows plan world.rows taken = _
    rw [reached.rows]
    exact step_rows_phase taken

theorem run_reached {plan : Plan} (apart : plan.superseded ≠ some plan.final) (steps : List Step)
    (passes : phase.passes plan.replaced steps = true) (reached : Reached plan before phase world)
    (count : Nat) :
    ∃ last, last.sound plan.replaced = true ∧
      Reached plan before last (run plan (steps.take count) world) := by
  induction steps generalizing phase world count with
  | nil => exact ⟨phase, passes, by simpa [run] using reached⟩
  | cons taken rest induction =>
    simp only [Phase.passes, Bool.and_eq_true] at passes
    obtain ⟨⟨sound, ready⟩, restPasses⟩ := passes
    cases count with
    | zero => exact ⟨phase, sound, reached⟩
    | succ count => exact induction restPasses (reached_step apart ready reached) count

theorem run_passes {plan : Plan} {steps : List Step} (runs : Run plan before steps) :
    Phase.start.passes plan.replaced steps = true := by
  cases runs with
  | completed => cases plan.replaced <;> cases plan.superseded <;> rfl
  | abandoned | refused => cases plan.replaced <;> rfl
  | unpublished moved =>
    rw [moved]
    rfl
  | unsynced | rolledBack => cases plan.replaced <;> rfl

end Phases

section Plans

variable {early : Root → EntryName → Bool}

theorem enumerated_directory {root : Root} {version : String}
    (found : enumeratedMediaDirectory early root version = true) :
    ∃ tree, root.media ⟨version, none⟩ = some (.directory tree) := by
  unfold enumeratedMediaDirectory at found
  split at found
  · next tree present => exact ⟨tree, present⟩
  · exact absurd found Bool.false_ne_true

structure Decided (request : Request) (root : Root) (plan : Plan) : Prop where
  shape : plan = planned request plan.final plan.replaced plan.superseded
  version : plan.final.version = request.version
  apart : plan.superseded ≠ some plan.final
  directory : plan.replaced = true → ∃ tree, root.media plan.final = some (.directory tree)

theorem planned_in_place (request : Request) (root : Root) (replaced : Bool)
    (directory : replaced = true →
      ∃ tree, root.media ⟨request.version, none⟩ = some (.directory tree)) :
    Decided request root (planned request ⟨request.version, none⟩ replaced none) :=
  ⟨rfl, rfl, nofun, directory⟩

variable {request : Request}

theorem plan_repair_decided {root : Root} {existing : Row} {plan : Plan}
    (repair : planRepair request root existing = .ok (some plan)) :
    Decided request root plan := by
  unfold planRepair at repair
  cases snapshot : request.applied with
  | none =>
    rw [snapshot] at repair
    exact absurd repair nofun
  | some applied =>
    rw [snapshot] at repair
    simp only at repair
    by_cases digest : isDigest request.descriptorSha256 = true
    · rw [if_pos digest] at repair
      split at repair
      · exact absurd repair nofun
      · next vacant =>
        cases repair
        refine ⟨rfl, rfl, fun chosen => ?_, nofun⟩
        obtain ⟨-, present⟩ := Option.filter_eq_some_iff.mp chosen
        simp only [Bool.and_eq_true] at present
        have missing := Option.not_isSome_iff_eq_none.mp vacant
        have listed := present.2
        simp only [planned, missing] at listed
        exact Bool.false_ne_true listed
    · rw [if_neg digest] at repair
      exact absurd repair nofun

theorem plan_sync_decided {before : World} {plan : Plan}
    (decided : planSync early request before = .ok (some plan)) :
    Decided request (before.root request.environment) plan := by
  unfold planSync at decided
  simp only at decided
  cases found : before.rows request.environment request.version with
  | some existing =>
    rw [found] at decided
    simp only at decided
    split at decided
    · exact absurd decided nofun
    · split at decided
      · exact plan_repair_decided decided
      · cases decided
        exact planned_in_place request _ _ enumerated_directory
  | none =>
    rw [found] at decided
    simp only at decided
    split at decided
    · next listed =>
      cases decided
      exact planned_in_place request _ _ fun _ => enumerated_directory listed
    · split at decided
      · exact absurd decided nofun
      · cases decided
        exact planned_in_place request _ _ nofun

section

variable {root : Root} {plan : Plan} (decided : Decided request root plan)
include decided

theorem decided_environment :
    plan.environment = request.environment := by
  rw [decided.shape]
  rfl

theorem decided_version :
    plan.version = request.version := by
  rw [decided.shape]
  rfl

theorem decided_accepted :
    accepted plan.environment plan.transaction plan.journal = true := by
  rw [decided.shape]
  simp only [accepted, Plan.journal, planned, Option.all_some, decide_true, Bool.true_and]
  exact decide_eq_true decided.version

end

theorem decided_row_fresh {before : World} {plan : Plan}
    (decided : Decided request (before.root request.environment) plan)
    (fresh : ∀ row, before.rows request.environment request.version = some row → row.id ≠
      request.rowId) :
    before.rows plan.environment plan.version ≠ some plan.row := by
  rw [decided_environment decided, decided_version decided]
  intro found
  refine fresh _ found ?_
  rw [decided.shape]
  rfl

end Plans

section Stops

variable (early : Root → EntryName → Bool)

def Due (plan : Plan) (before stopped : World) (node : Option Node) : Prop :=
  (Committed plan stopped → node = some (.directory (some plan.tree))) ∧
    (¬Committed plan stopped → node = (before.root plan.environment).media plan.final)

def Verifies (plan : Plan) (stopped : World) : Prop :=
  (stopped.rows plan.environment plan.version).bind
    (verifiedCachedMedia early (removeOrphans early (stopped.root plan.environment))) =
      some plan.final

/-- A swap has stopped where the recovery takes the entry that is due. Without a journal it
keeps what is there, and needs to find the staging directory. With a journal it keeps what
verifies, and otherwise puts the backup, or nothing, in its place. -/
structure Recoverable (plan : Plan) (before stopped : World) : Prop where
  found : (stopped.root plan.environment).journals = [] →
    ∀ entry ∈ (stopped.root plan.environment).stagings,
      early (stopped.root plan.environment) (.staging entry.1) = true
  unjournalled : (stopped.root plan.environment).journals = [] →
    Due plan before stopped ((stopped.root plan.environment).media plan.final)
  kept : (stopped.root plan.environment).journals ≠ [] → Verifies early plan stopped →
    Due plan before stopped ((stopped.root plan.environment).media plan.final)
  undone : (stopped.root plan.environment).journals ≠ [] → ¬Verifies early plan stopped →
    Due plan before stopped
      ((stopped.root plan.environment).backups (plan.version, plan.transaction))

variable {before stopped : World} {phase : Phase}

theorem reached_committed {plan : Plan} (reached : Reached plan before phase stopped)
    (fresh : before.rows plan.environment plan.version ≠ some plan.row) :
    Committed plan stopped ↔ phase.committed = true := by
  unfold Committed
  rw [reached.rows]
  cases committed : phase.committed with
  | true => simp [stepRows]
  | false => simpa using fresh

theorem phase_root_other_media {plan : Plan} {root : Root} {name : MediaName} (phase : Phase)
    (other : name ≠ plan.final) (unnamed : plan.superseded ≠ some name) :
    (phase.root plan root).media name = root.media name := by
  refine (Function.update_of_ne other _ _).trans ?_
  cases phase.trimmed with
  | false => rfl
  | true =>
    cases chosen : plan.superseded with
    | none => rfl
    | some named =>
      refine Function.update_of_ne (fun same => unnamed ?_) _ _
      rw [chosen, same]

/-- Only the entry at the name of the new directory and the traces decide about a recovery. -/
theorem recovered_iff {plan : Plan} (settled : ∀ environment, Settled (before.root environment))
    (reached : Reached plan before phase stopped) (media : ∀ name, name ≠ plan.final → ((recover
      early stopped).root plan.environment).media name = (stopped.root plan.environment).media
      name) :
    Recovered early plan before stopped ↔
      Due plan before stopped
          (((recover early stopped).root plan.environment).media plan.final) ∧
        Settled ((recover early stopped).root plan.environment) := by
  have untouched : ∀ environment, environment ≠ plan.environment →
      (recover early stopped).roots environment = before.roots environment := by
    intro environment other
    have same := reached.others environment other
    have quiet : Settled (stopped.root environment) := by
      unfold World.root
      rw [same]
      exact settled environment
    exact (recover_roots_settled early quiet).trans same
  constructor
  · intro recovered
    exact ⟨⟨recovered.published, recovered.unpublished⟩, recovered.settled⟩
  · rintro ⟨due, quiet⟩
    refine ⟨due.1, due.2, quiet, recover_again early fun environment => ?_,
      recover_rows early stopped, untouched, fun name other unnamed => ?_⟩
    · by_cases same : environment = plan.environment
      · exact same ▸ quiet
      · unfold World.root
        rw [untouched environment same]
        exact settled environment
    · rw [media name other, reached.root]
      exact phase_root_other_media phase other unnamed

theorem remove_orphans_settled (plan : Plan) (root : Root) (journalled : phase.journalled = false)
    (aside : phase.aside = false) :
    Settled (removeOrphans early (phase.root plan root)) ↔
      ∀ entry ∈ (phase.root plan root).stagings,
        early (phase.root plan root) (.staging entry.1) = true := by
  have journals := (phase_root_journals plan root phase).mpr journalled
  have backups : (phase.root plan root).backups = fun _ => none := by
    simp only [Phase.root, Phase.backup, aside, cond_false]
    exact Function.update_eq_self (plan.version, plan.transaction) noBackups
  have leased : ∀ entry ∈ (phase.root plan root).stagings, entry.2 = true := by
    cases staged : phase.staged <;> simp [Phase.root, staged]
  constructor
  · intro settled entry member
    have dropped := List.filter_eq_nil_iff.mp settled.stagings entry member
    rw [leased entry member] at dropped
    simpa using dropped
  · intro found
    refine ⟨journals, List.filter_eq_nil_iff.mpr fun entry member => ?_, backups⟩
    rw [leased entry member, found entry member]
    simp

theorem close_settled {plan : Plan} {root : Root} (opened : Root)
    (journals : opened.journals = (phase.root plan root).journals)
    (stagings : ∀ entry ∈ opened.stagings, entry ∈ (phase.root plan root).stagings)
    (backups : opened.backups = fun _ => none) :
    Settled (opened.close plan.transaction plan.journal) := by
  refine ⟨?_, List.filter_eq_nil_iff.mpr fun entry member => ?_, backups⟩
  · unfold Root.close
    rw [journals]
    cases journalled : phase.journalled <;> simp [Phase.root, journalled]
  · have listed := stagings entry member
    cases staged : phase.staged <;> simp [Phase.root, staged] at listed
    simp [listed, Plan.journal]

theorem recover_journalled {plan : Plan} {root : Root} (rows : String → Option Row)
    (journalled : phase.journalled = true)
    (accepts : accepted plan.environment plan.transaction plan.journal = true) :
    recoverRoot early plan.environment rows (phase.root plan root) =
      if (rows plan.version).bind
          (verifiedCachedMedia early (removeOrphans early (phase.root plan root))) =
            some plan.final then
        finishSwap (removeOrphans early (phase.root plan root)) plan.transaction plan.journal
      else if isOther (phase.node plan root) || isOther (phase.backup plan root) then
        removeOrphans early (phase.root plan root)
      else undoSwap (removeOrphans early (phase.root plan root)) plan.transaction plan.journal := by
  have journals : (removeOrphans early (phase.root plan root)).journals =
      [(plan.transaction, plan.journal)] := by
    simp [removeOrphans, Phase.root, journalled]
  have node : (removeOrphans early (phase.root plan root)).media plan.journal.final =
      phase.node plan root := phase_root_media plan root phase
  have backup : (removeOrphans early (phase.root plan root)).backups
      (plan.version, plan.transaction) = phase.backup plan root :=
    phase_root_backups plan root phase
  unfold recoverRoot
  rw [journals, List.foldl_cons, List.foldl_nil, recoverJournal, if_pos accepts]
  simp only [node]
  change (if _ then _ else if (isOther (phase.node plan root) ||
    isOther ((removeOrphans early (phase.root plan root)).backups
      (plan.version, plan.transaction))) = true then _ else _) = _
  rw [backup]
  rfl

theorem backup_not_other {plan : Plan} {root : Root} (sound : phase.sound plan.replaced = true)
    (directory : plan.replaced = true → ∃ tree, root.media plan.final = some (.directory tree)) :
    isOther (phase.backup plan root) = false := by
  unfold Phase.backup
  cases aside : phase.aside with
  | false => rfl
  | true =>
    simp only [Phase.sound, aside, Bool.not_true, Bool.false_or, Bool.and_eq_true] at sound
    obtain ⟨tree, present⟩ := directory sound.1.2.1
    rw [cond_true, present]
    rfl

theorem finish_swap_settled {plan : Plan} {root : Root} (sound : phase.sound plan.replaced = true)
    (directory : plan.replaced = true → ∃ tree, root.media plan.final = some (.directory tree)) :
    Settled (finishSwap (removeOrphans early (phase.root plan root)) plan.transaction
      plan.journal) := by
  refine close_settled _ rfl (fun entry member => List.mem_of_mem_filter member) ?_
  funext name
  have backup := phase_root_backups plan root phase
  have elsewhere : ∀ name, name ≠ (plan.version, plan.transaction) →
      (phase.root plan root).backups name = none :=
    fun name other => Function.update_of_ne other _ _
  have noOther := backup_not_other sound directory
  have unchanged : (removeOrphans early (phase.root plan root)).backups =
      (phase.root plan root).backups := rfl
  dsimp only
  rw [unchanged]
  by_cases same : name = (plan.version, plan.transaction)
  · rw [same, backup]
    split
    · exact if_pos rfl
    · next absent =>
      cases held : phase.backup plan root with
      | none => rfl
      | some node =>
        rw [held] at noOther absent
        cases node with
        | directory tree => exact absurd rfl (absent tree)
        | other => exact absurd noOther (by decide)
  · rw [elsewhere name same]

theorem undo_swap_settled (plan : Plan) (root : Root) (phase : Phase) :
    Settled (undoSwap (removeOrphans early (phase.root plan root)) plan.transaction
      plan.journal) := by
  refine close_settled _ rfl (fun entry member => List.mem_of_mem_filter member) ?_
  change Function.update (Function.update noBackups _ _) (plan.version, plan.transaction) none = _
  rw [Function.update_idem]
  exact Function.update_eq_self (plan.version, plan.transaction) noBackups

theorem undo_swap_media (plan : Plan) (root : Root) (phase : Phase) :
    (undoSwap (removeOrphans early (phase.root plan root)) plan.transaction
      plan.journal).media =
      Function.update (phase.root plan root).media plan.final (phase.backup plan root) :=
  congrArg (Function.update (phase.root plan root).media plan.final)
    (phase_root_backups plan root phase)

/-- A file or symbolic link at the place of the new directory is never due to become what the
backup holds. -/
theorem other_not_due {plan : Plan} (sound : phase.sound plan.replaced = true)
    (committed : Committed plan stopped ↔ phase.committed = true)
    (directory : plan.replaced = true → ∃ tree, (before.root plan.environment).media plan.final =
      some (.directory tree))
    (other : isOther (phase.node plan (before.root plan.environment)) = true) :
    ¬Due plan before stopped (phase.backup plan (before.root plan.environment)) := by
  have kept : phase.place = .kept := by
    cases place : phase.place with
    | kept => rfl
    | vacated | published => simp [Phase.node, place, isOther] at other
  have uncommitted : ¬Committed plan stopped := by
    intro done
    have published := committed.mp done
    simp [Phase.sound, published, kept] at sound
  intro due
  have same := due.2 uncommitted
  rw [Phase.node, kept] at other
  rw [← same] at other
  rw [backup_not_other sound directory] at other
  exact Bool.false_ne_true other

section

variable (settled : ∀ environment, Settled (before.root environment))
include settled

theorem unjournalled_recovered_iff {plan : Plan} (reached : Reached plan before phase stopped)
    (sound : phase.sound plan.replaced = true) (journalled : phase.journalled = false) :
    Recovered early plan before stopped ↔ Recoverable early plan before stopped := by
  have aside : phase.aside = false := by
    cases aside : phase.aside with
    | false => rfl
    | true => simp [Phase.sound, aside, journalled] at sound
  have journals : (stopped.root plan.environment).journals = [] := by
    rw [reached.root]
    exact (phase_root_journals _ _ _).mpr journalled
  have result : (recover early stopped).root plan.environment =
      removeOrphans early (stopped.root plan.environment) := by
    rw [recover_root, recoverRoot]
    change List.foldl _ _ (stopped.root plan.environment).journals = _
    rw [journals, List.foldl_nil]
  have quiet := remove_orphans_settled early plan (before.root plan.environment) journalled aside
  rw [← reached.root] at quiet
  rw [recovered_iff early settled reached fun name _ => by rw [result]; rfl, result, quiet]
  constructor
  · rintro ⟨due, found⟩
    exact ⟨fun _ => found, fun _ => due, fun left => absurd journals left,
      fun left => absurd journals left⟩
  · intro recoverable
    exact ⟨recoverable.unjournalled journals, recoverable.found journals⟩

theorem journalled_recovered_iff {plan : Plan} (reached : Reached plan before phase stopped)
    (sound : phase.sound plan.replaced = true)
    (committed : Committed plan stopped ↔ phase.committed = true)
    (directory : plan.replaced = true → ∃ tree, (before.root plan.environment).media plan.final =
      some (.directory tree))
    (accepts : accepted plan.environment plan.transaction plan.journal = true)
    (journalled : phase.journalled = true) :
    Recovered early plan before stopped ↔ Recoverable early plan before stopped := by
  have journals : (stopped.root plan.environment).journals ≠ [] := by
    rw [reached.root, Ne, phase_root_journals, journalled]
    nofun
  have node : (stopped.root plan.environment).media plan.final =
      phase.node plan (before.root plan.environment) := by
    rw [reached.root, phase_root_media]
  have backup : (stopped.root plan.environment).backups (plan.version, plan.transaction) =
      phase.backup plan (before.root plan.environment) := by
    rw [reached.root, phase_root_backups]
  have result := recover_root early stopped plan.environment
  rw [reached.root, recover_journalled early _ journalled accepts, ← reached.root] at result
  by_cases verifies : Verifies early plan stopped
  · have verified := verifies
    unfold Verifies at verified
    rw [if_pos verified] at result
    have quiet := finish_swap_settled early sound directory
    rw [← reached.root] at quiet
    rw [recovered_iff early settled reached fun name _ => by rw [result]; rfl, result]
    constructor
    · rintro ⟨due, -⟩
      exact ⟨fun none => absurd none journals, fun none => absurd none journals,
        fun _ _ => due, fun _ unverified => absurd verifies unverified⟩
    · intro recoverable
      exact ⟨recoverable.kept journals verifies, quiet⟩
  · have onlyUndone : Recoverable early plan before stopped ↔
        Due plan before stopped (phase.backup plan (before.root plan.environment)) := by
      constructor
      · intro recoverable
        rw [← backup]
        exact recoverable.undone journals verifies
      · intro due
        rw [← backup] at due
        exact ⟨fun none => absurd none journals, fun none => absurd none journals,
          fun _ verified => absurd verified verifies, fun _ _ => due⟩
    have unverified := verifies
    unfold Verifies at unverified
    rw [if_neg unverified, backup_not_other sound directory, Bool.or_false] at result
    rw [onlyUndone]
    cases other : isOther (phase.node plan (before.root plan.environment)) with
    | true =>
      rw [if_pos other] at result
      have refused := other_not_due sound committed directory other
      refine iff_of_false (fun recovered => journals ?_) refused
      have gone := recovered.settled.journals
      rw [result] at gone
      exact gone
    | false =>
      rw [if_neg (other ▸ Bool.false_ne_true)] at result
      have quiet := undo_swap_settled early plan (before.root plan.environment) phase
      have media := undo_swap_media early plan (before.root plan.environment) phase
      rw [← reached.root, ← result] at quiet media
      have taken : ((recover early stopped).root plan.environment).media plan.final =
          phase.backup plan (before.root plan.environment) := by
        rw [media]
        exact Function.update_self _ _ _
      rw [recovered_iff early settled reached fun name elsewhere => by
        rw [media]; exact Function.update_of_ne elsewhere _ _, taken]
      exact and_iff_left quiet

theorem reached_recovered_iff {request : Request} {plan : Plan}
    (facts : Decided request (before.root plan.environment) plan)
    (newRow : before.rows plan.environment plan.version ≠ some plan.row)
    (reached : Reached plan before phase stopped) (sound : phase.sound plan.replaced = true) :
    Recovered early plan before stopped ↔ Recoverable early plan before stopped := by
  cases journalled : phase.journalled with
  | false => exact unjournalled_recovered_iff early settled reached sound journalled
  | true =>
    exact journalled_recovered_iff early settled reached sound
      (reached_committed reached newRow) facts.directory (decided_accepted facts) journalled

end

end Stops

section Kinds

variable {early : Root → EntryName → Bool}

theorem plan_sync_unverified {request : Request} {before : World} {plan : Plan} {existing : Row}
    (decided : planSync early request before = .ok (some plan))
    (found : before.rows request.environment request.version = some existing) :
    verifiedCachedMedia early (before.root request.environment) existing = none := by
  unfold planSync at decided
  simp only [found] at decided
  split at decided
  · exact absurd decided nofun
  · next unverified => exact Option.not_isSome_iff_eq_none.mp unverified

/-- Where every entry is listed, a replacement that stops after its journal, while the old
directory is still in its place, is not recovered: the recovery removes that directory. -/
theorem unmoved_directory_lost (request : Request) (before : World) (plan : Plan)
    (listed : ∀ root entry, early root entry = true)
    (decided : planSync early request before = .ok (some plan))
    (settled : ∀ environment, Settled (before.root environment))
    (fresh : ∀ row, before.rows request.environment request.version = some row →
      row.id ≠ request.rowId)
    (replaced : plan.replaced = true) :
    ¬Recovered early plan before (run plan [.stage, .journal] before) := by
  have facts := plan_sync_decided decided
  have newRow := decided_row_fresh facts fresh
  have environment := decided_environment facts
  have version := decided_version facts
  rw [← environment] at facts
  have staged := reached_step facts.apart (show Phase.start.ready .stage = true from rfl)
    (reached_start (settled plan.environment))
  have reached : Reached plan before ((Phase.start.after .stage).after .journal)
      (run plan [.stage, .journal] before) :=
    reached_step facts.apart
      (show (Phase.start.after .stage).ready .journal = true from rfl) staged
  have committed := reached_committed reached newRow
  have root := reached.root
  have rows : (run plan [.stage, .journal] before).rows = before.rows := reached.rows
  intro recovered
  have recoverable := (reached_recovered_iff early settled facts newRow reached
    (by rw [replaced]; rfl)).mp recovered
  have media : ((run plan [.stage, .journal] before).root plan.environment).media =
      (before.root plan.environment).media := by
    rw [root]
    exact Function.update_eq_self _ _
  have unverified : ¬Verifies early plan (run plan [.stage, .journal] before) := by
    unfold Verifies
    rw [rows]
    intro verifies
    obtain ⟨existing, found, verified⟩ := Option.bind_eq_some_iff.mp verifies
    rw [environment, version] at found
    have missing := plan_sync_unverified decided found
    unfold verifiedCachedMedia removeOrphans at verified
    unfold verifiedCachedMedia at missing
    simp only [media, listed, Bool.true_and] at verified missing
    rw [← environment, verified] at missing
    exact absurd missing nofun
  have due := (recoverable.undone (by rw [root]; nofun) unverified).2
    fun done => absurd (committed.mp done) nofun
  obtain ⟨tree, present⟩ := facts.directory replaced
  rw [present, root, phase_root_backups] at due
  exact absurd due nofun

end Kinds

section Sample

def sampleDigest : Digest :=
  ⟨"aaaaaaaaaaaaaaaaaaaaaaaaaaaaaaaaaaaaaaaaaaaaaaaaaaaaaaaaaaaaaaaa", by decide +kernel⟩

def sampleWorld : World where
  roots environment :=
    if environment = .memtest86plus then
      some
        { Root.empty with
          media := fun name =>
            if name = ⟨"7.20", none⟩ then some (.directory (some ⟨none, fun _ => none⟩))
            else none }
    else none
  rows _ _ := none

def sampleRequest : Request where
  environment := .memtest86plus
  version := "7.20"
  artifactSha256 := sampleDigest
  descriptorSha256 := sampleDigest.1
  digests _ := sampleDigest
  activeVersion := none
  applied := none
  transaction := "0123456789abcdef0123456789abcdef"
  suffix := "a1b2c3d4"
  rowId := 1

def samplePlan : Plan := planned sampleRequest ⟨"7.20", none⟩ true none

def sampleListed (_ : Root) (_ : EntryName) : Bool := true

theorem sample_decided :
    planSync sampleListed sampleRequest sampleWorld = .ok (some samplePlan) := by
  simp [planSync, sampleWorld, sampleRequest, samplePlan, enumeratedMediaDirectory, World.root,
    sampleListed]

theorem sample_settled (environment : Environment) : Settled (sampleWorld.root environment) := by
  cases environment <;> exact ⟨rfl, rfl, rfl⟩

end Sample

end Atlaso.NetworkBoot.MediaRecovery
