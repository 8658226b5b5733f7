import Atlaso.Jobs.JobRaces

/-!
Claims and cancellations exclude each other.

An uncommitted row belongs to the one actor whose next statement commits or drops it, so
that every committed change of a task is one of the moves of `Moves`. What the runs
promise about a task follows from the moves alone.
-/

namespace Atlaso.Jobs.ExclusiveClaims

open JobRaces TaskCancellation Kmip.Clock Library RowTransactions RowTransactions.Rows

/-! ### Moves of one task -/

/-- What a committed transaction does to a task. -/
inductive Moves (id : String) : Job → Job → List Event → Prop
  | claim {job : Job} (now : Reading) (worker : Actor) (pending : job.status = .pending)
      (unrequested : job.cancelRequestedAt = none) :
      Moves id job (claimedRow now job) [.claimed id worker]
  | request {job : Job} (now : Reading) (identity : Identity)
      (unrequested : job.cancelRequestedAt = none) :
      Moves id job (requestedRow now identity job) [.requested id job.status]
  | cancel {job : Job} (now : Reading) (pending : job.status = .pending)
      (requested : job.cancelRequestedAt ≠ none) : Moves id job (stoppedRow now job) []
  | run {job later : Job} (running : job.status = .running) (started : later.status ≠ .pending)
      (requested : later.cancelRequestedAt = job.cancelRequestedAt) : Moves id job later []
  | keep {job later : Job} (status : later.status = job.status)
      (result : later.result = job.result)
      (requested : later.cancelRequestedAt = job.cancelRequestedAt) : Moves id job later []

/-- The committed rows and the history after a step: unchanged, or one task has moved. -/
def Advances (system next : System) : Prop :=
  (next.rows.committed = system.rows.committed ∧ next.history = system.history) ∨
    ∃ id job later events, system.rows.committed id = some job ∧ Moves id job later events ∧
      next.rows.committed = Function.update system.rows.committed id (some later) ∧
        next.history = events ++ system.history

/-! ### Uncommitted rows -/

/-- Why an actor holds an uncommitted version of a task. -/
inductive Holds (committed : Option Job) (id : String) (row : Job) : Activity → Prop
  | taken {job : Job} (now : Reading) (found : committed = some job)
      (pending : job.status = .pending) (unrequested : job.cancelRequestedAt = none)
      (written : row = claimedRow now job) : Holds committed id row (.taken id)
  | recorded {job : Job} (now : Reading) (identity : Identity) (found : committed = some job)
      (unrequested : job.cancelRequestedAt = none)
      (written : row = requestedRow now identity job) : Holds committed id row (.recorded id)
  | reserved {rest : List Job} (found : committed = some row) (pending : row.status = .pending)
      (requested : row.cancelRequestedAt ≠ none) : Holds committed id row (.reserved id rest)

/-- The task whose uncommitted version the actor holds. -/
def held : Activity → Option String
  | .taken id => some id
  | .recorded id => some id
  | .reserved id _ => some id
  | _ => none

structure Consistent (system : System) : Prop where
  holds : ∀ id actor row, system.rows.written id = some (actor, row) →
    Holds (system.rows.committed id) id row (system.activity actor)
  written : ∀ actor id, held (system.activity actor) = some id →
    ∃ row, system.rows.written id = some (actor, row)
  running : ∀ actor id, system.activity actor = .executing id →
    ∃ job, system.rows.committed id = some job ∧ job.status = .running
  alone : ∀ actor other id, system.activity actor = .executing id →
    system.activity other = .executing id → actor = other

variable {activity : Activity} {other : Actor} {events : List Event} {job : Job} {now : Reading}

theorem holds_held {committed : Option Job} {id : String} {row : Job}
    (holds : Holds committed id row activity) : held activity = some id := by
  cases holds <;> rfl

variable {system next : System} {actor : Actor} {id : String} {row : Job}

theorem unwritten (consistent : Consistent system) (free : held (system.activity actor) = none)
    (id : String) (row : Job) : system.rows.written id ≠ some (actor, row) := by
  intro written
  have holding := holds_held (consistent.holds id actor row written)
  rw [free] at holding
  cases holding

theorem written_unique (consistent : Consistent system) {key : String} {other : Job}
    (mine : system.rows.written id = some (actor, row))
    (again : system.rows.written key = some (actor, other)) : key = id := by
  have first := holds_held (consistent.holds id actor row mine)
  have second := holds_held (consistent.holds key actor other again)
  rw [first] at second
  exact (Option.some.inj second).symm

theorem visible_free (consistent : Consistent system)
    (free : held (system.activity actor) = none) (id : String) :
    system.rows.visible actor id = system.rows.committed id :=
  visible_unwritten (unwritten consistent free id)

theorem become_activity (system : System) (actor other : Actor) (activity : Activity) :
    (system.become actor activity).activity other =
      if other = actor then activity else system.activity other := by
  simp [System.become, Function.update_apply]

def Quiet (activity : Activity) : Prop :=
  held activity = none ∧ ∀ id, activity ≠ .executing id

/-- A statement that only reads. -/
theorem consistent_become (consistent : Consistent system)
    (free : held (system.activity actor) = none) (quiet : Quiet activity) :
    Consistent (system.become actor activity) := by
  refine ⟨?_, ?_, ?_, ?_⟩
  · intro id other row written
    have different : other ≠ actor := by
      rintro rfl
      exact unwritten consistent free id row written
    rw [become_activity, if_neg different]
    exact consistent.holds id other row written
  · intro other id holding
    rw [become_activity] at holding
    split_ifs at holding with same
    · rw [quiet.1] at holding
      cases holding
    · exact consistent.written other id holding
  · intro other id executing
    rw [become_activity] at executing
    split_ifs at executing with same
    · exact absurd executing (quiet.2 id)
    · exact consistent.running other id executing
  · intro first second id one two
    rw [become_activity] at one two
    split_ifs at one two with firstSame secondSame
    · rw [firstSame, secondSame]
    · exact absurd one (quiet.2 id)
    · exact absurd two (quiet.2 id)
    · exact consistent.alone first second id one two

theorem consistent_rollback (consistent : Consistent system) (quiet : Quiet activity) :
    Consistent ((system.rollback actor).become actor activity) := by
  refine ⟨?_, ?_, ?_, ?_⟩
  · intro id other row written
    obtain ⟨before, different⟩ := written_rollback.mp written
    rw [become_activity, if_neg different]
    exact consistent.holds id other row before
  · intro other id holding
    rw [become_activity] at holding
    split_ifs at holding with same
    · rw [quiet.1] at holding
      cases holding
    · obtain ⟨row, before⟩ := consistent.written other id holding
      exact ⟨row, written_rollback.mpr ⟨before, same⟩⟩
  · intro other id executing
    rw [become_activity] at executing
    split_ifs at executing with same
    · exact absurd executing (quiet.2 id)
    · exact consistent.running other id executing
  · intro first second id one two
    rw [become_activity] at one two
    split_ifs at one two with firstSame secondSame
    · rw [firstSame, secondSame]
    · exact absurd one (quiet.2 id)
    · exact absurd two (quiet.2 id)
    · exact consistent.alone first second id one two

theorem writable_owner {version : Job} (writable : system.rows.writable actor id = true)
    (written : system.rows.written id = some (other, version)) : other = actor := by
  simpa [Rows.writable, written] using writable

theorem holds_quiet {committed : Option Job} (holds : Holds committed id row activity)
    (key : String) : activity ≠ .executing key := by
  cases holds <;> simp

/-- An UPDATE that leaves an uncommitted version. -/
theorem consistent_write (consistent : Consistent system)
    (free : held (system.activity actor) = none) (writable : system.rows.writable actor id = true)
    (holds : Holds (system.rows.committed id) id row activity) :
    Consistent ((system.write actor id row).become actor activity) := by
  refine ⟨?_, ?_, ?_, ?_⟩
  · intro key other version written
    change (system.rows.write actor id row).written key = some (other, version) at written
    by_cases same : key = id
    · subst same
      rw [written_write] at written
      cases written
      rw [become_activity, if_pos rfl]
      exact holds
    · rw [written_write_ne same] at written
      have different : other ≠ actor := by
        rintro rfl
        exact unwritten consistent free key version written
      rw [become_activity, if_neg different]
      exact consistent.holds key other version written
  · intro other key holding
    rw [become_activity] at holding
    split_ifs at holding with same
    · rw [holds_held holds] at holding
      cases holding
      exact ⟨row, by rw [same]; exact written_write⟩
    · obtain ⟨version, before⟩ := consistent.written other key holding
      have different : key ≠ id := by
        rintro rfl
        exact same (writable_owner writable before)
      exact ⟨version, (written_write_ne different).trans before⟩
  · intro other key executing
    rw [become_activity] at executing
    split_ifs at executing with same
    · exact absurd executing (holds_quiet holds key)
    · exact consistent.running other key executing
  · intro first second key one two
    rw [become_activity] at one two
    split_ifs at one two with firstSame secondSame
    · rw [firstSame, secondSame]
    · exact absurd one (holds_quiet holds key)
    · exact absurd two (holds_quiet holds key)
    · exact consistent.alone first second key one two

structure Sole (system : System) (actor : Actor) (id : String) : Prop where
  only : ∀ key version, system.rows.written key = some (actor, version) → key = id
  writable : system.rows.writable actor id = true

theorem sole_free (consistent : Consistent system) (free : held (system.activity actor) = none)
    (writable : system.rows.writable actor id = true) : Sole system actor id :=
  ⟨fun key version written => absurd written (unwritten consistent free key version), writable⟩

theorem sole_holding (consistent : Consistent system)
    (holding : held (system.activity actor) = some id) : Sole system actor id := by
  obtain ⟨version, mine⟩ := consistent.written actor id holding
  refine ⟨fun key other written => written_unique consistent mine written, ?_⟩
  simp [Rows.writable, mine]

theorem committed_install (sole : Sole system actor id) :
    ((system.rows.write actor id row).commit actor).committed =
      Function.update system.rows.committed id (some row) := by
  funext key
  rw [commit_committed]
  by_cases same : key = id
  · subst same
    rw [Function.update_self, visible_written written_write]
  · rw [Function.update_of_ne same, visible_unwritten, write_committed]
    intro version written
    rw [written_write_ne same] at written
    exact same (sole.only key version written)

theorem written_install {key : String} {version : Job} (sole : Sole system actor id)
    (written : ((system.rows.write actor id row).commit actor).written key = some (other,
      version)) :
    system.rows.written key = some (other, version) ∧ other ≠ actor ∧ key ≠ id := by
  rw [commit_written] at written
  obtain ⟨before, different⟩ := written_rollback.mp written
  have other_row : key ≠ id := by
    rintro rfl
    rw [written_write] at before
    cases before
    exact different rfl
  rw [written_write_ne other_row] at before
  exact ⟨before, different, other_row⟩

theorem written_kept {key : String} {version : Job} (sole : Sole system actor id)
    (different : other ≠ actor) (before : system.rows.written key = some (other, version)) :
    ((system.rows.write actor id row).commit actor).written key = some (other, version) := by
  have other_row : key ≠ id := by
    rintro rfl
    exact different (writable_owner sole.writable before)
  rw [commit_written]
  exact written_rollback.mpr ⟨(written_write_ne other_row).trans before, different⟩

section

variable (consistent : Consistent system)
include consistent

theorem consistent_install (sole : Sole system actor id) (free : held activity = none)
    (executes : ∀ key, activity = .executing key → key = id ∧ row.status = .running ∧ ∀ other, other
      ≠ actor → system.activity other ≠ .executing id)
    (others : ∀ other, other ≠ actor → system.activity other = .executing id → row.status =
      .running) :
    Consistent (((system.write actor id row).commit actor events).become actor activity) := by
  have committed : (((system.write actor id row).commit actor events).become actor
      activity).rows.committed = Function.update system.rows.committed id (some row) :=
    committed_install sole
  refine ⟨?_, ?_, ?_, ?_⟩
  · intro key other version written
    obtain ⟨before, different, other_row⟩ := written_install sole written
    rw [become_activity, if_neg different, committed, Function.update_of_ne other_row]
    exact consistent.holds key other version before
  · intro other key holding
    rw [become_activity] at holding
    split_ifs at holding with same
    · rw [free] at holding
      cases holding
    · obtain ⟨version, before⟩ := consistent.written other key holding
      exact ⟨version, written_kept sole same before⟩
  · intro other key executing
    rw [become_activity] at executing
    rw [committed]
    split_ifs at executing with same
    · obtain ⟨rfl, running, -⟩ := executes key executing
      exact ⟨row, Function.update_self .., running⟩
    · by_cases installed : key = id
      · subst installed
        exact ⟨row, Function.update_self .., others other same executing⟩
      · rw [Function.update_of_ne installed]
        exact consistent.running other key executing
  · intro first second key one two
    rw [become_activity] at one two
    split_ifs at one two with firstSame secondSame
    · rw [firstSame, secondSame]
    · obtain ⟨rfl, -, alone⟩ := executes key one
      exact absurd two (alone second secondSame)
    · rename_i secondSame
      obtain ⟨rfl, -, alone⟩ := executes key two
      exact absurd one (alone first firstSame)
    · exact consistent.alone first second key one two

/-! ### Steps -/

/-- What every step preserves, and what it does to the committed rows. -/
structure Sound (system next : System) : Prop where
  consistent : Consistent next
  advances : Advances system next

theorem sound_become (free : held (system.activity actor) = none) (quiet : Quiet activity) :
    Sound system (system.become actor activity) :=
  ⟨consistent_become consistent free quiet, .inl ⟨rfl, rfl⟩⟩

theorem sound_rollback (quiet : Quiet activity) :
    Sound system ((system.rollback actor).become actor activity) :=
  ⟨consistent_rollback consistent quiet, .inl ⟨rfl, rfl⟩⟩

theorem sound_write (free : held (system.activity actor) = none)
    (writable : system.rows.writable actor id = true)
    (holds : Holds (system.rows.committed id) id row activity) :
    Sound system ((system.write actor id row).become actor activity) :=
  ⟨consistent_write consistent free writable holds, .inl ⟨rfl, rfl⟩⟩

theorem sound_install (sole : Sole system actor id) (found : system.rows.committed id = some job)
    (moves : Moves id job row events) (free : held activity = none)
    (executes : ∀ key, activity = .executing key → key = id ∧ row.status = .running ∧ ∀ other, other
      ≠ actor → system.activity other ≠ .executing id)
    (others : ∀ other, other ≠ actor → system.activity other = .executing id → row.status =
      .running) :
    Sound system (((system.write actor id row).commit actor events).become actor activity) :=
  ⟨consistent_install consistent sole free executes others,
    .inr ⟨id, job, row, events, found, moves, committed_install sole, rfl⟩⟩

end

theorem commit_written_row (written : system.rows.written id = some (actor, row))
    (events : List Event) :
    system.commit actor events = (system.write actor id row).commit actor events := by
  have same : system.rows.write actor id row = system.rows := by
    simp only [Rows.write, ← written, Function.update_eq_self]
  simp [System.commit, System.write, same]

theorem not_executing (consistent : Consistent system) (found : system.rows.committed id = some job)
    (idle : job.status ≠ .running) (other : Actor) :
    system.activity other ≠ .executing id := by
  intro executing
  obtain ⟨held, here, running⟩ := consistent.running other id executing
  rw [found] at here
  cases here
  exact idle running

theorem quiet_idle : Quiet .idle := ⟨rfl, by simp⟩

theorem quiet_reconciling (rest : List Job) : Quiet (.reconciling rest) := ⟨rfl, by simp⟩

theorem quiet_reserving (id : String) (rest : List Job) : Quiet (.reserving id rest) :=
  ⟨rfl, by simp⟩

theorem quiet_after_read (id : String) (job : Job) (identity : Identity) (api : Bool) :
    Quiet (afterRead id job identity api) := by
  unfold afterRead
  split_ifs <;> exact ⟨rfl, by simp⟩

section

variable (consistent : Consistent system)
include consistent

theorem sound_executing (executing : system.activity actor = .executing id)
    (writable : system.rows.writable actor id = true)
    (visible : system.rows.visible actor id = some job) (started : row.status ≠ .pending)
    (requested : row.cancelRequestedAt = job.cancelRequestedAt) (free : held activity = none)
    (goes : ∀ key, activity = .executing key → key = id ∧ row.status = .running) :
    Sound system (((system.write actor id row).commit actor []).become actor activity) := by
  have holding : held (system.activity actor) = none := by rw [executing]; rfl
  rw [visible_free consistent holding] at visible
  obtain ⟨other, found, running⟩ := consistent.running actor id executing
  rw [visible] at found
  cases found
  have alone : ∀ other, other ≠ actor → system.activity other ≠ .executing id :=
    fun other different again => different (consistent.alone other actor id again executing)
  refine sound_install consistent (sole_free consistent holding writable) visible
    (.run running started requested) free ?_ ?_
  · intro key same
    obtain ⟨here, stays⟩ := goes key same
    exact ⟨here, stays, alone⟩
  · intro other different again
    exact absurd again (alone other different)

theorem claim_sound (stepped : step system (.claim actor now) = some next) : Sound system next := by
  simp only [step] at stepped
  split at stepped
  · rename_i candidate taking
    have free : held (system.activity actor) = none := by rw [taking]; rfl
    split_ifs at stepped with blocked
    rw [visible_free consistent free] at stepped
    split at stepped
    · rename_i job found
      split_ifs at stepped with claimable
      · cases stepped
        simp only [isClaimable, Bool.and_eq_true, decide_eq_true_eq, Option.isNone_iff_eq_none]
          at claimable
        exact sound_write consistent free (by simpa using blocked)
          (.taken now found claimable.1.1 claimable.1.2 rfl)
      · cases stepped
        exact sound_rollback consistent ⟨rfl, by simp⟩
    · cases stepped
      exact sound_rollback consistent ⟨rfl, by simp⟩
  · cases stepped

theorem commit_claim_sound (stepped : step system (.commitClaim actor) = some next) :
    Sound system next := by
  simp only [step] at stepped
  split at stepped
  · rename_i candidate taken
    cases stepped
    have holding : held (system.activity actor) = some candidate := by rw [taken]; rfl
    obtain ⟨row, written⟩ := consistent.written actor candidate holding
    have holds := consistent.holds candidate actor row written
    rw [taken] at holds
    cases holds with
    | taken now found pending unrequested same =>
      rename_i job
      have idle : job.status ≠ .running := by rw [pending]; decide
      rw [commit_written_row written, same]
      refine sound_install consistent (sole_holding consistent holding) found
        (.claim now actor pending unrequested) rfl ?_ ?_
      · intro key executing
        cases executing
        exact ⟨rfl, rfl, fun other _ => not_executing consistent found idle other⟩
      · intro other _ executing
        exact absurd executing (not_executing consistent found idle other)
  · cases stepped

theorem record_request_sound (stepped : step system (.recordRequest actor now) = some next) :
    Sound system next := by
  simp only [step] at stepped
  split at stepped
  · rename_i id seen identity recording
    have free : held (system.activity actor) = none := by rw [recording]; rfl
    split_ifs at stepped with blocked
    rw [visible_free consistent free] at stepped
    split at stepped
    · rename_i job found
      split_ifs at stepped with unchanged
      · cases stepped
        simp only [unchangedSince, Bool.and_eq_true, Option.isNone_iff_eq_none] at unchanged
        exact sound_write consistent free (by simpa using blocked)
          (.recorded now identity found unchanged.2 rfl)
      · cases stepped
        exact sound_rollback consistent quiet_idle
    · cases stepped
      exact sound_rollback consistent quiet_idle
  · cases stepped

theorem commit_request_sound (stepped : step system (.commitRequest actor) = some next) :
    Sound system next := by
  simp only [step] at stepped
  split at stepped
  · rename_i id recorded
    have holding : held (system.activity actor) = some id := by rw [recorded]; rfl
    obtain ⟨row, written⟩ := consistent.written actor id holding
    rw [visible_written written] at stepped
    cases stepped
    have holds := consistent.holds id actor row written
    rw [recorded] at holds
    cases holds with
    | recorded now identity found unrequested same =>
      rename_i job
      rw [commit_written_row written, same]
      refine sound_install consistent (sole_holding consistent holding) found
        (.request now identity unrequested) ?_ ?_ ?_
      · split_ifs <;> rfl
      · intro key executing
        split_ifs at executing
      · intro other _ executing
        obtain ⟨running, here, status⟩ := consistent.running other id executing
        rw [found] at here
        cases here
        exact status
  · cases stepped

/-- The reservation of a pending task. -/
theorem reserve_sound (stepped : step system (.reserve actor) = some next) : Sound system next := by
  simp only [step] at stepped
  split at stepped
  · rename_i id rest reserving
    have free : held (system.activity actor) = none := by rw [reserving]; rfl
    split_ifs at stepped with blocked
    rw [visible_free consistent free] at stepped
    split at stepped
    · rename_i job found
      split_ifs at stepped with reservable
      · cases stepped
        exact sound_write consistent free (by simpa using blocked)
          (.reserved found reservable.1 reservable.2)
      · cases stepped
        exact sound_rollback consistent (quiet_reconciling rest)
    · cases stepped
      exact sound_rollback consistent (quiet_reconciling rest)
  · cases stepped

theorem release_sound {cleanupFails : Bool}
    (stepped : step system (.release actor cleanupFails now) = some next) :
    Sound system next := by
  simp only [step] at stepped
  split at stepped
  · rename_i id rest reserved
    have holding : held (system.activity actor) = some id := by rw [reserved]; rfl
    obtain ⟨row, written⟩ := consistent.written actor id holding
    rw [visible_written written] at stepped
    have holds := consistent.holds id actor row written
    rw [reserved] at holds
    cases holds with
    | reserved found pending requested =>
      have idle : row.status ≠ .running := by rw [pending]; decide
      have sole := sole_holding consistent holding
      have nobody := not_executing consistent found idle
      simp only at stepped
      split_ifs at stepped with known failed
      · cases stepped
        exact sound_install consistent sole found (.keep rfl rfl rfl) rfl (by simp)
          (fun other _ executing => absurd executing (nobody other))
      · cases stepped
        have stops : (finishStop now row).1 = stoppedRow now row := by
          simp [finishStop, pending, JobStatus.isActive, requested]
        rw [stops]
        exact sound_install consistent sole found (.cancel now pending requested) rfl (by simp)
          (fun other _ executing => absurd executing (nobody other))
      · cases stepped
        exact sound_rollback consistent (quiet_reconciling rest)
  · cases stepped

theorem visit_sound {reload : Bool} (stepped : step system (.visit actor reload now) = some next) :
    Sound system next := by
  simp only [step] at stepped
  split at stepped
  · rename_i seen rest reconciling
    have free : held (system.activity actor) = none := by rw [reconciling]; rfl
    rw [visible_free consistent free] at stepped
    split at stepped
    · rename_i job found
      generalize (if reload = true then job else seen) = shown at stepped
      split_ifs at stepped with reservable active blocked
      · cases stepped
        exact sound_become consistent free (quiet_reserving _ _)
      · cases stepped
        exact sound_become consistent free (quiet_reconciling rest)
      · cases stepped
        refine sound_install consistent (sole_free consistent free (by simpa using blocked)) found
          (.keep rfl rfl rfl) rfl (by simp) ?_
        intro other _ executing
        obtain ⟨running, here, status⟩ := consistent.running other _ executing
        rw [found] at here
        cases here
        exact status
    · cases stepped
      exact sound_become consistent free (quiet_reconciling rest)
  · cases stepped

theorem worker_sound :
    (∀ result progress, step system (.reportProgress actor result progress) = some next →
      Sound system next) ∧
    (∀ status result error now, step system (.endJob actor status result error now) = some next →
      Sound system next) ∧
    ∀ now, step system (.stopJob actor now) = some next → Sound system next := by
  refine ⟨?_, ?_, ?_⟩
  · intro result progress stepped
    simp only [step] at stepped
    split at stepped
    · rename_i id executing
      split_ifs at stepped with blocked
      split at stepped
      · rename_i job visible
        cases stepped
        have free : held (system.activity actor) = none := by rw [executing]; rfl
        obtain ⟨other, found, running⟩ := consistent.running actor id executing
        rw [← visible_free consistent free, visible] at found
        cases found
        exact sound_executing consistent executing (by simpa using blocked) visible
          (by rw [running]; decide) rfl rfl (fun key same => by cases same; exact ⟨rfl, running⟩)
      · cases stepped
    · cases stepped
  · intro status result error now stepped
    simp only [step] at stepped
    split at stepped
    · rename_i id executing
      split_ifs at stepped with blocked
      split at stepped
      · rename_i job visible
        cases stepped
        simp only [not_or, Bool.not_eq_false, Bool.not_eq_true] at blocked
        refine sound_executing consistent executing blocked.1 visible ?_ rfl rfl (by simp)
        intro pending
        have ended : status = .pending := pending
        rw [ended] at blocked
        exact absurd blocked.2 (by decide)
      · cases stepped
    · cases stepped
  · intro now stepped
    simp only [step] at stepped
    split at stepped
    · rename_i id executing
      split_ifs at stepped with blocked
      split at stepped
      · rename_i job visible
        split_ifs at stepped with stops
        cases stepped
        have row : (finishStop now job).1 = stoppedRow now job := by
          unfold finishStop at stops ⊢
          split_ifs at stops ⊢
          rfl
        rw [row]
        exact sound_executing consistent executing (by simpa using blocked) visible
          (by simp [stoppedRow]) rfl rfl (by simp)
      · cases stepped
    · cases stepped

theorem step_sound {action : Action} (stepped : step system action = some next) :
    Sound system next := by
  cases action with
  | beginClaim actor =>
    simp only [step] at stepped
    split at stepped
    · rename_i idle
      cases stepped
      exact sound_become consistent (by rw [idle]; rfl) ⟨rfl, by simp⟩
    · cases stepped
  | selectRunning actor =>
    simp only [step] at stepped
    split at stepped
    · rename_i claiming
      cases stepped
      exact sound_become consistent (by rw [claiming]; rfl) ⟨rfl, by simp⟩
    · cases stepped
  | selectCandidate actor =>
    simp only [step] at stepped
    split at stepped
    · rename_i vcfRunning choosing
      have free : held (system.activity actor) = none := by rw [choosing]; rfl
      split at stepped
      · cases stepped
        exact sound_become consistent free quiet_idle
      · cases stepped
        exact sound_become consistent free ⟨rfl, by simp⟩
    · cases stepped
  | claim actor now => exact claim_sound consistent stepped
  | commitClaim actor => exact commit_claim_sound consistent stepped
  | reportProgress actor result progress => exact (worker_sound consistent).1 _ _ stepped
  | endJob actor status result error now => exact (worker_sound consistent).2.1 _ _ _ _ stepped
  | stopJob actor now => exact (worker_sound consistent).2.2 _ stepped
  | beginRequest actor job identity api =>
    simp only [step] at stepped
    split at stepped
    · rename_i idle
      cases stepped
      exact sound_become consistent (by rw [idle]; rfl) ⟨rfl, by simp⟩
    · cases stepped
  | readRequest actor =>
    simp only [step] at stepped
    split at stepped
    · rename_i id identity api requesting
      have free : held (system.activity actor) = none := by rw [requesting]; rfl
      split at stepped
      · cases stepped
        exact sound_become consistent free (quiet_after_read _ _ _ _)
      · cases stepped
        exact sound_become consistent free quiet_idle
    · cases stepped
  | recordRequest actor now => exact record_request_sound consistent stepped
  | commitRequest actor => exact commit_request_sound consistent stepped
  | reserve actor => exact reserve_sound consistent stepped
  | release actor cleanupFails now => exact release_sound consistent stepped
  | beginReconcile actor =>
    simp only [step] at stepped
    split at stepped
    · rename_i idle
      cases stepped
      exact sound_become consistent (by rw [idle]; rfl) (quiet_reconciling _)
    · cases stepped
  | visit actor reload now => exact visit_sound consistent stepped
  | endReconcile actor =>
    simp only [step] at stepped
    split at stepped
    · rename_i done
      cases stepped
      exact sound_become consistent (by rw [done]; rfl) quiet_idle
    · cases stepped
  | crash actor =>
    cases stepped
    exact sound_rollback consistent quiet_idle

end

/-! ### Runs -/

/-- Before the run every actor is idle or executes a running task of its own, and no
transaction is open. -/
structure Started (system : System) : Prop where
  closed : ∀ id, system.rows.written id = none
  calm : ∀ actor, held (system.activity actor) = none
  running : ∀ actor id, system.activity actor = .executing id →
    ∃ job, system.rows.committed id = some job ∧ job.status = .running
  alone : ∀ actor other id, system.activity actor = .executing id →
    system.activity other = .executing id → actor = other
  history : system.history = []

def Step (system next : System) : Prop := ∃ action, step system action = some next

abbrev Run : System → System → Prop := Relation.ReflTransGen Step

theorem started_consistent (started : Started system) : Consistent system := by
  refine ⟨?_, ?_, started.running, started.alone⟩
  · intro id actor row written
    rw [started.closed] at written
    cases written
  · intro actor id holding
    rw [started.calm] at holding
    cases holding

theorem run_consistent {last : System} (consistent : Consistent system) (run : Run system last) :
    Consistent last := by
  induction run with
  | refl => exact consistent
  | tail _ stepped induction =>
    obtain ⟨action, stepped⟩ := stepped
    exact (step_sound induction stepped).consistent

def isClaimOf (id : String) : Event → Bool
  | .claimed job _ => job = id
  | .requested _ _ => false

def isRequestOf (id : String) : Event → Bool
  | .requested job _ => job = id
  | .claimed _ _ => false

structure Recorded (system : System) (id : String) : Prop where
  claims : system.history.countP (isClaimOf id) ≤ 1
  claimed : ∀ worker, .claimed id worker ∈ system.history →
    ∃ job, system.rows.committed id = some job ∧ job.status ≠ .pending
  requests : system.history.countP (isRequestOf id) ≤ 1
  requested : ∀ status, .requested id status ∈ system.history →
    ∃ job, system.rows.committed id = some job ∧ job.cancelRequestedAt ≠ none
  reserved : .requested id .pending ∈ system.history →
    (∃ job, system.rows.committed id = some job ∧
      (job.status = .pending ∨ job.status = .cancelled)) ∧
        ∀ worker, .claimed id worker ∉ system.history

theorem moves_status {later : Job} (moves : Moves id job later events) :
    (job.status ≠ .pending → later.status ≠ .pending) ∧
      (job.status.isActive = false → later.status = job.status ∧ later.result = job.result) ∧
        (job.cancelRequestedAt ≠ none → later.cancelRequestedAt ≠ none) ∧
          (job.cancelRequestedAt ≠ none → job.status = .pending ∨ job.status = .cancelled →
            later.status = .pending ∨ later.status = .cancelled) := by
  cases moves with
  | claim now worker pending unrequested =>
    refine ⟨fun other => absurd pending other, fun finished => ?_,
      fun requested => absurd unrequested requested,
      fun requested _ => absurd unrequested requested⟩
    rw [pending] at finished
    cases finished
  | request now identity unrequested =>
    exact ⟨fun other => other, fun _ => ⟨rfl, rfl⟩, fun _ => by simp [requestedRow],
      fun requested _ => absurd unrequested requested⟩
  | cancel now pending requested =>
    refine ⟨fun other => absurd pending other, fun finished => ?_, fun _ => requested,
      fun _ _ => .inr rfl⟩
    rw [pending] at finished
    cases finished
  | run running started requested =>
    refine ⟨fun _ => started, fun finished => ?_, fun before => by rw [requested]; exact before,
      fun _ kept => ?_⟩
    · rw [running] at finished
      cases finished
    · rw [running] at kept
      rcases kept with other | other <;> cases other
  | keep status result requested =>
    exact ⟨fun other => by rw [status]; exact other, fun _ => ⟨status, result⟩,
      fun before => by rw [requested]; exact before, fun _ kept => by rw [status]; exact kept⟩

theorem moves_events {later : Job} (moves : Moves id job later events) :
    events = [] ∨
      (∃ worker, events = [.claimed id worker] ∧ job.status = .pending ∧
        job.cancelRequestedAt = none ∧ later.status ≠ .pending) ∨
      (events = [.requested id job.status] ∧ job.cancelRequestedAt = none ∧
        later.status = job.status ∧ later.cancelRequestedAt ≠ none) := by
  cases moves with
  | claim now worker pending unrequested =>
    exact .inr (.inl ⟨worker, rfl, pending, unrequested, by simp [claimedRow]⟩)
  | request now identity unrequested =>
    exact .inr (.inr ⟨rfl, unrequested, rfl, by simp [requestedRow]⟩)
  | cancel now pending requested => exact .inl rfl
  | run running started requested => exact .inl rfl
  | keep status result requested => exact .inl rfl

/-- A move of another task says nothing about this one. -/
theorem moves_elsewhere {key : String} {later : Job} (moves : Moves key job later events)
    (different : key ≠ id) :
    events.countP (isClaimOf id) = 0 ∧ events.countP (isRequestOf id) = 0 ∧
      (∀ worker, .claimed id worker ∉ events) ∧ ∀ status, .requested id status ∉ events := by
  rcases moves_events moves with none | ⟨worker, claimed, _⟩ | ⟨requested, _⟩
  · subst none
    simp
  · subst claimed
    simp [isClaimOf, isRequestOf, different, Ne.symm different]
  · subst requested
    simp [isClaimOf, isRequestOf, different, Ne.symm different]

theorem no_claims (never : ∀ worker, .claimed id worker ∉ system.history) :
    system.history.countP (isClaimOf id) = 0 := by
  rw [List.countP_eq_zero]
  intro event member
  cases event with
  | claimed job worker =>
    simp only [isClaimOf, decide_eq_true_eq]
    rintro rfl
    exact never worker member
  | requested job status => simp [isClaimOf]

theorem no_requests (never : ∀ status, .requested id status ∉ system.history) :
    system.history.countP (isRequestOf id) = 0 := by
  rw [List.countP_eq_zero]
  intro event member
  cases event with
  | claimed job worker => simp [isRequestOf]
  | requested job status =>
    simp only [isRequestOf, decide_eq_true_eq]
    rintro rfl
    exact never status member

section

variable (recorded : Recorded system id) (found : system.rows.committed id = some job)
include recorded found

theorem never_claimed (pending : job.status = .pending) (worker : Actor) :
    .claimed id worker ∉ system.history := by
  intro claimed
  obtain ⟨other, here, started⟩ := recorded.claimed worker claimed
  rw [found] at here
  cases here
  exact started pending

theorem never_requested (unrequested : job.cancelRequestedAt = none) (status : JobStatus) :
    .requested id status ∉ system.history := by
  intro requested
  obtain ⟨other, here, marked⟩ := recorded.requested status requested
  rw [found] at here
  cases here
  exact marked unrequested

theorem recorded_move {later : Job} (moves : Moves id job later events)
    (committed : next.rows.committed id = some later)
    (history : next.history = events ++ system.history) : Recorded next id := by
  obtain ⟨started, _, marked, waiting⟩ := moves_status moves
  have claimed : ∀ worker, .claimed id worker ∈ system.history → later.status ≠ .pending := by
    intro worker member
    obtain ⟨other, here, before⟩ := recorded.claimed worker member
    rw [found] at here
    cases here
    exact started before
  have requested : ∀ status, .requested id status ∈ system.history →
      later.cancelRequestedAt ≠ none := by
    intro status member
    obtain ⟨other, here, before⟩ := recorded.requested status member
    rw [found] at here
    cases here
    exact marked before
  have reserved : .requested id .pending ∈ system.history →
      later.status = .pending ∨ later.status = .cancelled := by
    intro member
    obtain ⟨other, here, before⟩ := recorded.requested .pending member
    obtain ⟨⟨again, same, status⟩, _⟩ := recorded.reserved member
    rw [found] at here same
    cases here
    cases same
    exact waiting before status
  rcases moves_events moves with none | ⟨worker, only, pending, unrequested, left⟩ |
    ⟨only, unrequested, status, left⟩
  · subst none
    rw [List.nil_append] at history
    refine ⟨?_, ?_, ?_, ?_, ?_⟩
    · rw [history]
      exact recorded.claims
    · rw [history]
      exact fun worker member => ⟨later, committed, claimed worker member⟩
    · rw [history]
      exact recorded.requests
    · rw [history]
      exact fun status member => ⟨later, committed, requested status member⟩
    · rw [history]
      exact fun member => ⟨⟨later, committed, reserved member⟩, (recorded.reserved member).2⟩
  · have fresh := never_claimed recorded found pending
    have unasked := never_requested recorded found unrequested
    subst only
    refine ⟨?_, ?_, ?_, ?_, ?_⟩
    · rw [history]
      simp [no_claims fresh, isClaimOf]
    · exact fun _ _ => ⟨later, committed, left⟩
    · rw [history]
      simp [no_requests unasked, isRequestOf]
    · intro status member
      rw [history] at member
      simp [unasked status] at member
    · intro member
      rw [history] at member
      simp [unasked .pending] at member
  · have unasked := never_requested recorded found unrequested
    subst only
    refine ⟨?_, ?_, ?_, ?_, ?_⟩
    · rw [history]
      simpa [List.countP_cons, isClaimOf] using recorded.claims
    · intro worker member
      rw [history] at member
      simp only [List.singleton_append, List.mem_cons, reduceCtorEq, false_or] at member
      exact ⟨later, committed, claimed worker member⟩
    · rw [history]
      simp [no_requests unasked, isRequestOf]
    · exact fun _ _ => ⟨later, committed, left⟩
    · intro member
      rw [history] at member
      simp only [List.singleton_append, List.mem_cons, Event.requested.injEq, true_and,
        unasked .pending, or_false] at member
      refine ⟨⟨later, committed, .inl (status.trans member.symm)⟩, fun worker again => ?_⟩
      rw [history] at again
      simp only [List.singleton_append, List.mem_cons, reduceCtorEq, false_or] at again
      exact never_claimed recorded found member.symm worker again

end

theorem recorded_step (advances : Advances system next) (recorded : Recorded system id) :
    Recorded next id := by
  rcases advances with ⟨rows, history⟩ | ⟨key, job, later, events, found, moves, rows, history⟩
  · obtain ⟨claims, claimed, requests, requested, reserved⟩ := recorded
    refine ⟨?_, ?_, ?_, ?_, ?_⟩ <;> rw [history] <;> first | assumption | (rw [rows]; assumption)
  · by_cases same : key = id
    · subst same
      exact recorded_move recorded found moves (by rw [rows, Function.update_self]) history
    · obtain ⟨unclaimed, unasked, neither, nor⟩ := moves_elsewhere moves same
      have kept : next.rows.committed id = system.rows.committed id := by
        rw [rows, Function.update_of_ne (Ne.symm same)]
      refine ⟨?_, ?_, ?_, ?_, ?_⟩
      · rw [history, List.countP_append, unclaimed, Nat.zero_add]
        exact recorded.claims
      · intro worker member
        rw [history, List.mem_append, or_iff_right (neither worker)] at member
        rw [kept]
        exact recorded.claimed worker member
      · rw [history, List.countP_append, unasked, Nat.zero_add]
        exact recorded.requests
      · intro status member
        rw [history, List.mem_append, or_iff_right (nor status)] at member
        rw [kept]
        exact recorded.requested status member
      · intro member
        rw [history, List.mem_append, or_iff_right (nor .pending)] at member
        obtain ⟨row, never⟩ := recorded.reserved member
        refine ⟨by rw [kept]; exact row, fun worker again => ?_⟩
        rw [history, List.mem_append, or_iff_right (neither worker)] at again
        exact never worker again

theorem run_recorded {last : System} (consistent : Consistent system)
    (recorded : Recorded system id) (run : Run system last) : Recorded last id := by
  induction run with
  | refl => exact recorded
  | tail before stepped induction =>
    obtain ⟨action, stepped⟩ := stepped
    exact recorded_step (step_sound (run_consistent consistent before) stepped).advances
      induction

theorem started_recorded (started : Started system) (id : String) : Recorded system id := by
  refine ⟨?_, ?_, ?_, ?_, ?_⟩ <;> rw [started.history] <;> simp

/-- What a run keeps of a row: the columns of a finished task, and the time of its request. -/
structure Kept (job later : Job) : Prop where
  finished : job.status.isActive = false → later.status = job.status ∧ later.result = job.result
  requested : job.cancelRequestedAt ≠ none → later.cancelRequestedAt = job.cancelRequestedAt

theorem moves_kept {later : Job} (moves : Moves id job later events) :
    Kept job later := by
  refine ⟨(moves_status moves).2.1, ?_⟩
  cases moves with
  | claim now worker pending unrequested => exact fun requested => absurd unrequested requested
  | request now identity unrequested => exact fun requested => absurd unrequested requested
  | cancel now pending requested => exact fun _ => rfl
  | run running started requested => exact fun _ => requested
  | keep status result requested => exact fun _ => requested

theorem kept_trans {first second third : Job} (before : Kept first second)
    (after : Kept second third) : Kept first third := by
  refine ⟨fun finished => ?_, fun requested => ?_⟩
  · obtain ⟨status, result⟩ := before.finished finished
    obtain ⟨again, last⟩ := after.finished (by rw [status]; exact finished)
    exact ⟨again.trans status, last.trans result⟩
  · have same := before.requested requested
    exact (after.requested (by rw [same]; exact requested)).trans same

theorem run_kept {last : System} (consistent : Consistent system)
    (found : system.rows.committed id = some job) (run : Run system last) :
    ∃ later, last.rows.committed id = some later ∧ Kept job later := by
  induction run with
  | refl => exact ⟨job, found, fun _ => ⟨rfl, rfl⟩, fun _ => rfl⟩
  | tail before stepped induction =>
    obtain ⟨action, stepped⟩ := stepped
    obtain ⟨middle, here, kept⟩ := induction
    have advances := (step_sound (run_consistent consistent before) stepped).advances
    rcases advances with ⟨rows, _⟩ | ⟨key, moved, later, events, there, moves, rows, _⟩
    · exact ⟨middle, by rw [rows]; exact here, kept⟩
    · by_cases same : id = key
      · subst same
        rw [here] at there
        cases there
        exact ⟨later, by rw [rows, Function.update_self], kept_trans kept (moves_kept moves)⟩
      · exact ⟨middle, by rw [rows, Function.update_of_ne same]; exact here, kept⟩

theorem run_history {last : System} {event : Event} (consistent : Consistent system)
    (run : Run system last) (member : event ∈ system.history) : event ∈ last.history := by
  induction run with
  | refl => exact member
  | tail before stepped induction =>
    obtain ⟨action, stepped⟩ := stepped
    rcases (step_sound (run_consistent consistent before) stepped).advances with
      ⟨_, history⟩ | ⟨_, _, _, _, _, _, _, history⟩
    · rw [history]
      exact induction
    · rw [history]
      exact List.mem_append_right _ induction

/-- At most one worker claims a task and at most one request is recorded; a task whose
cancellation was accepted while it was pending is not claimed and can only become
cancelled; a finished task keeps its status and result. -/
theorem claims_and_cancellations_exclusive {start now later : System} (started : Started start)
    (before : Run start now) (after : Run now later) (id : String) :
    later.history.countP (isClaimOf id) ≤ 1 ∧
      (.requested id .pending ∈ now.history →
        (∃ job, later.rows.committed id = some job ∧
          (job.status = .pending ∨ job.status = .cancelled)) ∧
        ∀ worker, .claimed id worker ∉ later.history) ∧
      (∀ job, now.rows.committed id = some job → job.status.isActive = false →
        ∃ last, later.rows.committed id = some last ∧
          last.status = job.status ∧ last.result = job.result) ∧
      later.history.countP (isRequestOf id) ≤ 1 ∧
      ∀ job, now.rows.committed id = some job → job.cancelRequestedAt ≠ none →
        ∃ last, later.rows.committed id = some last ∧
          last.cancelRequestedAt = job.cancelRequestedAt := by
  have consistent := run_consistent (started_consistent started) before
  have recorded := run_recorded (started_consistent started) (started_recorded started id)
    (before.trans after)
  refine ⟨recorded.claims, fun accepted => ?_, fun job found finished => ?_, recorded.requests,
    fun job found requested => ?_⟩
  · exact recorded.reserved (run_history consistent after accepted)
  · obtain ⟨last, there, kept⟩ := run_kept consistent found after
    exact ⟨last, there, kept.finished finished⟩
  · obtain ⟨last, there, kept⟩ := run_kept consistent found after
    exact ⟨last, there, kept.requested requested⟩

def sampleReading : Reading := ⟨⟨2026, 1, 1, 0, 0, 0, 0⟩, by decide⟩

def sampleJob : Job where
  id := "verify"
  type := "dhcp-pool-verify"
  status := .pending
  createdAt := sampleReading
  startedAt := none
  finishedAt := none
  progressPercent := 0
  result := none
  error := none
  taskConfigJson := ""
  networkBootSource := none
  vcfDepotOperation := false
  cancelRequestedAt := none
  cancelRequestedBy := none
  cancelCompletedAt := none
  cancelOutcome := none
  steps := []

def sampleSystem : System where
  ids := ["verify"]
  rows := ⟨fun id => if id = "verify" then some sampleJob else none, fun _ => none⟩
  activity := fun _ => .idle
  history := []

def sampleOperator : Identity := ⟨"admin", true, false, false⟩

theorem sample_started : Started sampleSystem := by
  refine ⟨fun _ => rfl, fun _ => rfl, ?_, ?_, rfl⟩
  · intro actor id executing
    cases executing
  · intro actor other id executing
    cases executing

theorem sample_after_read :
    afterRead "verify" sampleJob sampleOperator false =
      .recording "verify" sampleJob sampleOperator := by
  have allowed : (capability sampleJob sampleOperator false).canCancel = true := by decide +kernel
  unfold afterRead
  rw [if_neg (by decide), if_neg (by decide), if_neg (by decide), if_pos allowed]

def sampleRequesting : System :=
  sampleSystem.become 1 (.requesting "verify" sampleOperator false)

def sampleRecording : System :=
  sampleRequesting.become 1 (.recording "verify" sampleJob sampleOperator)

def sampleRecorded : System :=
  (sampleRecording.write 1 "verify" (requestedRow sampleReading sampleOperator sampleJob)).become 1
    (.recorded "verify")

def sampleAccepted : System :=
  (sampleRecorded.commit 1 [.requested "verify" .pending]).become 1 (.reserving "verify" [])

/-- An operator's request for the queued task is accepted. -/
theorem sample_accepted : Run sampleSystem sampleAccepted := by
  have opened : Step sampleSystem sampleRequesting :=
    ⟨.beginRequest 1 "verify" sampleOperator false, rfl⟩
  have read : Step sampleRequesting sampleRecording := by
    refine ⟨.readRequest 1, ?_⟩
    change some (sampleRequesting.become 1 (afterRead "verify" sampleJob sampleOperator false)) = _
    rw [sample_after_read]
    rfl
  have recorded : Step sampleRecording sampleRecorded := ⟨.recordRequest 1 sampleReading, rfl⟩
  have committed : Step sampleRecorded sampleAccepted := ⟨.commitRequest 1, rfl⟩
  exact (((Relation.ReflTransGen.refl.tail opened).tail read).tail recorded).tail committed

/-- No worker claims the task after the accepted request. -/
theorem sample_never_claimed :
    Run sampleSystem sampleAccepted ∧ ∀ worker, .claimed "verify" worker ∉ sampleAccepted.history :=
  ⟨sample_accepted, ((claims_and_cancellations_exclusive sample_started sample_accepted .refl
    "verify").2.1 (List.mem_cons_self)).2⟩

end Atlaso.Jobs.ExclusiveClaims
