import Atlaso.Vcf.CertificateInvariant

/-!
One save, one native call or one read of the certificate workflow among the others.

A worker owns the permit of its running task; a reconciliation works on a row whose task has
ended. For both a save that is admitted replaces exactly the row that they loaded.
-/

namespace Atlaso.Vcf.CertificateSteps

open Library.RequestThreads CertificateOperations CertificateWorkflow CertificateInvariant

variable [digests : Digests]

section Threads

/-- The stored row is `base`, or a later one. -/
def Based (world : World) (base : Operation) : Prop :=
  ∃ current, world.operations base.operationId = some current ∧
    current.toPlan = base.toPlan ∧
      (current = base ∨ base.writeRevision < current.writeRevision)

def Running (owned : Set Permit) (world : World) (jobId : String) : Prop :=
  Permit.worker jobId ∈ owned ∧ ∃ job, world.jobs jobId = some job ∧ job.status = .running

def Idle (world : World) (jobId : String) : Prop :=
  ∃ job, world.jobs jobId = some job ∧ job.active = false

inductive Mode where
  | worker | reconciler

def Acts (mode : Mode) (owned : Set Permit) (world : World) (jobId : String) : Prop :=
  match mode with
  | .worker => Running owned world jobId
  | .reconciler => Idle world jobId

/-- Only a reconciliation may leave a row that is not live. -/
def Allowed : Mode → Stage → Prop
  | .worker, stage => Live stage
  | .reconciler, _ => True

variable {owned held : Set Permit} {world later : World} {base state : Operation}
  {jobId : String} {mode : Mode}

omit digests in
theorem based_evolves (based : Based world base) (changed : Evolves owned world later) :
    Based later base := by
  obtain ⟨current, row, plan, newer⟩ := based
  obtain ⟨last, final, same, more⟩ := changed.rows _ current row
  refine ⟨last, final, same.trans plan, ?_⟩
  rcases newer with rfl | newer
  · exact more
  · rcases more with rfl | newest
    · exact .inr newer
    · exact .inr (Nat.lt_trans newer newest)

omit digests in
theorem based_row (row : world.operations base.operationId = some base) : Based world base :=
  ⟨base, row, rfl, .inl rfl⟩

omit digests in
theorem acts_evolves (acts : Acts mode owned world jobId)
    (changed : Evolves owned world later) : Acts mode owned later jobId := by
  cases mode with
  | worker =>
    obtain ⟨mine, job, found, running⟩ := acts
    obtain ⟨last, final, -⟩ := changed.jobs jobId job found
    exact ⟨mine, last, final, (changed.mine jobId job last mine found final).trans running⟩
  | reconciler =>
    obtain ⟨job, found, idle⟩ := acts
    obtain ⟨last, final, -, -, still⟩ := changed.jobs jobId job found
    exact ⟨last, final, still idle⟩

omit digests in
theorem admitted_row (based : Based world base) (named : state.operationId = base.operationId)
    (revision : state.writeRevision = base.writeRevision)
    (admission : admitted world state = true) :
    world.operations base.operationId = some base := by
  obtain ⟨current, row, -, newer⟩ := based
  rw [admitted, named, row] at admission
  have same : current.writeRevision = base.writeRevision :=
    (of_decide_eq_true admission).trans revision
  rcases newer with rfl | newer
  · exact row
  · omega

end Threads

section Successors

/-- A copy of a row that a plain save may put in its place. -/
structure Successor (base next : Operation) : Prop where
  plan : next.toPlan = base.toPlan
  revision : next.writeRevision = base.writeRevision
  job : next.jobId = base.jobId
  certificate : next.certificateId = base.certificateId
  replacement : next.replacementCertificate = base.replacementCertificate
  nonce : next.reviewNonce = none ∨ next.reviewNonce = base.reviewNonce
  records : Records next
  early : Early next.checkpoint → Early base.checkpoint
  dispatched : Dispatched base.checkpoint → Dispatched next.checkpoint
  installing : Installing next.checkpoint → Installing base.checkpoint
  finished : Finished base.checkpoint → Finished next.checkpoint

omit digests in
theorem plan_operation {base next : Operation} (same : next.toPlan = base.toPlan) :
    next.operationId = base.operationId :=
  congrArg Plan.operationId same

/-- The other changes that the commit of a save publishes. -/
structure Publishes (owned : Set Permit) (before after : World) : Prop where
  operations : after.operations = before.operations
  jobIds : after.jobIds = before.jobIds
  log : after.log = before.log
  jobs : ∀ jobId job, before.jobs jobId = some job → ∃ later, after.jobs jobId = some later ∧
    SameTask job later ∧ (later.status = job.status ∨
      later.active = false ∧ job.status ≠ .pending ∧ Permit.worker jobId ∈ owned)
  fresh : ∀ jobId job, after.jobs jobId = some job → ∃ earlier, before.jobs jobId = some earlier

variable {owned : Set Permit} {before middle after world : World} {base next state : Operation}
  {jobId : String}

omit digests in
theorem publishes_same (owned : Set Permit) (world : World) : Publishes owned world world where
  operations := rfl
  jobIds := rfl
  log := rfl
  jobs := fun _ job found => ⟨job, found, same_task_refl job, .inl rfl⟩
  fresh := fun _ job found => ⟨job, found⟩

omit digests in
theorem publishes_trans (first : Publishes owned before middle)
    (second : Publishes owned middle after) : Publishes owned before after where
  operations := second.operations.trans first.operations
  jobIds := second.jobIds.trans first.jobIds
  log := second.log.trans first.log
  jobs := by
    intro jobId job found
    obtain ⟨inner, reached, ⟨owner, action, creator⟩, status⟩ := first.jobs jobId job found
    obtain ⟨last, final, ⟨owner', action', creator'⟩, status'⟩ := second.jobs jobId inner reached
    refine ⟨last, final, ⟨owner'.trans owner, action'.trans action, creator'.trans creator⟩, ?_⟩
    rcases status with same | ⟨ended, begun, mine⟩
    · rcases status' with same' | ⟨ended', begun', mine'⟩
      · exact .inl (same'.trans same)
      · exact .inr ⟨ended', same ▸ begun', mine'⟩
    · rcases status' with same' | ⟨ended', -, -⟩
      · exact .inr ⟨by rw [Job.active, same']; exact ended, begun, mine⟩
      · exact .inr ⟨ended', begun, mine⟩
  fresh := by
    intro jobId job found
    obtain ⟨inner, reached⟩ := second.fresh jobId job found
    exact first.fresh jobId inner reached

variable {job : Job} {status : JobStatus} {message : String}

omit digests in
theorem publishes_job {replaced : Job} (found : world.jobs jobId = some job)
    (same : SameTask job replaced) (status : replaced.status = job.status ∨ replaced.active = false
      ∧ job.status ≠ .pending ∧ Permit.worker jobId ∈ owned) :
    Publishes owned world (world.withJob jobId replaced) where
  operations := rfl
  jobIds := rfl
  log := rfl
  jobs := by
    intro other was known
    by_cases here : other = jobId
    · subst here
      rw [found] at known
      cases known
      exact ⟨replaced, world.with_job_self other replaced, same, status⟩
    · exact ⟨was, (world.with_job_other replaced here).trans known, same_task_refl was, .inl rfl⟩
  fresh := by
    intro other was known
    by_cases here : other = jobId
    · subst here
      exact ⟨job, found⟩
    · exact ⟨was, (world.with_job_other replaced here).symm.trans known⟩

omit digests in
theorem publishes_end (ended : status = .succeeded ∨ status = .failed)
    (running : Running owned world jobId) :
    Publishes owned world (endJob jobId status message world) := by
  obtain ⟨mine, job, found, runs⟩ := running
  rw [endJob, found]
  refine publishes_job found ⟨rfl, rfl, rfl⟩ (.inr ⟨?_, ?_, mine⟩)
  · rcases ended with rfl | rfl <;> rfl
  · rw [runs]
    exact fun waiting => nomatch waiting

omit digests in
theorem end_job (ended : status = .succeeded ∨ status = .failed)
    (found : (endJob jobId status message world).jobs jobId = some job) :
    job.active = false := by
  cases known : world.jobs jobId with
  | none =>
    rw [endJob, known] at found
    dsimp only at found
    rw [known] at found
    cases found
  | some was =>
    rw [endJob, known] at found
    dsimp only at found
    rw [World.with_job_self] at found
    cases found
    rcases ended with rfl | rfl <;> rfl

omit digests in
theorem publishes_release (state : Operation) (world : World) :
    Publishes owned world (release state world) where
  operations := rfl
  jobIds := rfl
  log := rfl
  jobs := fun _ job found => ⟨job, found, same_task_refl job, .inl rfl⟩
  fresh := fun _ job found => ⟨job, found⟩

omit digests in
/-- The rows of tasks after a save, up to their progress. -/
theorem commit_state_jobs (state : Operation) (world : World) :
    ∀ jobId job, (commitState state world).jobs jobId = some job →
      ∃ was, world.jobs jobId = some was ∧ SameTask was job ∧ job.status = was.status := by
  intro jobId job found
  rw [commitState, showProgress] at found
  cases known : world.jobs state.jobId with
  | none =>
    rw [show (world.withOperation (saved state)).jobs (saved state).jobId = none from known]
      at found
    exact ⟨job, found, same_task_refl job, rfl⟩
  | some was =>
    rw [show (world.withOperation (saved state)).jobs (saved state).jobId = some was from known]
      at found
    dsimp only at found
    by_cases active : was.active = true
    · rw [if_pos active] at found
      by_cases here : jobId = state.jobId
      · subst here
        have same := (World.with_job_self _ (saved state).jobId _).symm.trans found
        cases same
        exact ⟨was, known, ⟨rfl, rfl, rfl⟩, rfl⟩
      · exact ⟨job, (World.with_job_other _ _ here).symm.trans found, same_task_refl job, rfl⟩
    · rw [if_neg active] at found
      exact ⟨job, found, same_task_refl job, rfl⟩

omit digests in
theorem commit_state_keeps (state : Operation) (found : world.jobs jobId = some job) :
    ∃ later, (commitState state world).jobs jobId = some later ∧ SameTask job later ∧
      later.status = job.status := by
  rw [commitState, showProgress]
  cases known : world.jobs state.jobId with
  | none =>
    rw [show (world.withOperation (saved state)).jobs (saved state).jobId = none from known]
    exact ⟨job, found, same_task_refl job, rfl⟩
  | some was =>
    rw [show (world.withOperation (saved state)).jobs (saved state).jobId = some was from known]
    dsimp only
    by_cases active : was.active = true
    · rw [if_pos active]
      by_cases here : jobId = state.jobId
      · subst here
        rw [known] at found
        cases found
        exact ⟨_, World.with_job_self .., ⟨rfl, rfl, rfl⟩, rfl⟩
      · exact ⟨job, (World.with_job_other _ _ here).trans found, same_task_refl job, rfl⟩
    · rw [if_neg active]
      exact ⟨job, found, same_task_refl job, rfl⟩

omit digests in
theorem show_progress_frame (state : Operation) (world : World) :
    (showProgress state world).operations = world.operations ∧
      (showProgress state world).reservations = world.reservations ∧
        (showProgress state world).jobIds = world.jobIds ∧
          (showProgress state world).log = world.log := by
  unfold showProgress
  split
  · split
    · exact ⟨rfl, rfl, rfl, rfl⟩
    · exact ⟨rfl, rfl, rfl, rfl⟩
  · exact ⟨rfl, rfl, rfl, rfl⟩

omit digests in
theorem active_status {later : Job} (same : later.status = job.status) :
    later.active = job.active := by
  rw [Job.active, Job.active, same]

def World.recordAll (world : World) (events : List Event) : World :=
  { world with log := events ++ world.log }

theorem state_commit {events : List Event} (invariant : Invariant before)
    (row : before.operations base.operationId = some base) (plan : state.toPlan = base.toPlan)
    (revision : state.writeRevision = base.writeRevision) (job : state.jobId = base.jobId)
    (records : Records state) (early : Early state.checkpoint → Early base.checkpoint)
    (dispatched : Dispatched base.checkpoint → Dispatched state.checkpoint)
    (publishes : Publishes owned before middle)
    (begun : ∀ job, before.jobs base.jobId = some job → job.status ≠ .pending)
    (live : ∀ job, middle.jobs base.jobId = some job → job.active = true → Live state.state)
    (held : ¬Finished state.checkpoint → ∀ key ∈ base.reservationKeys,
      middle.reservations key = some base.operationId)
    (released : Finished state.checkpoint → ∀ key ∈ base.reservationKeys,
      middle.reservations key ≠ some base.operationId)
    (others : ∀ key operationId, operationId ≠ base.operationId →
      (middle.reservations key = some operationId ↔
        before.reservations key = some operationId))
    (about : ∀ event ∈ events, permitOf event = none ∧
      Event.operation event = base.operationId)
    (approved : ∀ nonce, state.reviewNonce = some nonce →
      .reviewed base.operationId nonce (reviewed state) ∈ events ++ before.log)
    (authorised : Installing state.checkpoint →
      Executed base.operationId (reviewed state) (events ++ before.log))
    (certificates : issuedFor base.operationId (events ++ before.log) =
      state.certificateId.toList)
    (justified : Justified (events ++ before.log)) :
    Commit owned before (World.recordAll (commitState state middle) events) base
      (saved state) := by
  obtain ⟨operations, reservations, jobIds, log⟩ :=
    show_progress_frame (saved state) (middle.withOperation (saved state))
  have named : state.operationId = base.operationId := congrArg Plan.operationId plan
  have allLog : (World.recordAll (commitState state middle) events).log =
      events ++ before.log := congrArg (events ++ ·) (log.trans publishes.log)
  have jobs : ∀ jobId job, before.jobs jobId = some job → ∃ later,
      (commitState state middle).jobs jobId = some later ∧ SameTask job later ∧
        (later.status = job.status ∨
          later.active = false ∧ job.status ≠ .pending ∧ Permit.worker jobId ∈ owned) := by
    intro jobId job found
    obtain ⟨inner, reached, ⟨owner, action, creator⟩, status⟩ := publishes.jobs jobId job found
    obtain ⟨last, final, ⟨owner', action', creator'⟩, same⟩ := commit_state_keeps state reached
    refine ⟨last, final, ⟨owner'.trans owner, action'.trans action, creator'.trans creator⟩, ?_⟩
    rw [active_status same, same]
    exact status
  refine
    { row, plan, records, jobs, begun, dispatched, operations := ?_, revision := ?_,
      fresh := ?_, task := ?_, early := fun first => ⟨early first, job⟩, log := ?_,
      approved := ?_, authorised := ?_, certificates := ?_, justified := ?_, held := ?_,
      released := ?_, others := ?_, listed := ?_ }
  · rw [← named, show (World.recordAll (commitState state middle) events).operations = _
      from operations]
    exact congrArg (Function.update · _ _) publishes.operations
  · exact revision ▸ Nat.lt_succ_self state.writeRevision
  · intro jobId job missing found
    obtain ⟨inner, reached, -⟩ := commit_state_jobs state middle jobId job found
    obtain ⟨was, known⟩ := publishes.fresh jobId inner reached
    rw [missing] at known
    cases known
  · obtain ⟨was, task, owner⟩ := invariant.task _ _ row
    obtain ⟨last, final, same, status⟩ := jobs _ was task
    refine ⟨last, job ▸ final, same.1.trans owner, ?_, ?_⟩
    · intro active
      obtain ⟨inner, reached, -, equal⟩ := commit_state_jobs state middle _ last final
      exact live inner reached ((active_status equal).symm.trans active)
    · intro waiting
      rcases status with equal | ⟨ended, -⟩
      · exact absurd (equal.symm.trans waiting) (begun was task)
      · rw [Job.active, waiting] at ended
        cases ended
  · exact ⟨events, allLog, about⟩
  · rw [allLog]
    exact approved
  · rw [allLog]
    exact authorised
  · rw [allLog]
    exact certificates
  · rw [allLog]
    exact justified
  · intro unfinished key inside
    rw [show (World.recordAll (commitState state middle) events).reservations = _
      from reservations]
    exact held unfinished key inside
  · intro finished key inside
    rw [show (World.recordAll (commitState state middle) events).reservations = _
      from reservations]
    exact released finished key inside
  · intro key operationId foreign
    rw [show (World.recordAll (commitState state middle) events).reservations = _
      from reservations]
    exact others key operationId foreign
  · intro jobId job found
    obtain ⟨inner, reached, -⟩ := commit_state_jobs state middle jobId job found
    obtain ⟨was, known⟩ := publishes.fresh jobId inner reached
    rw [show (World.recordAll (commitState state middle) events).jobIds = _ from jobIds]
    exact publishes.jobIds ▸ invariant.listed jobId was known

theorem successor_commit (invariant : Invariant before)
    (row : before.operations base.operationId = some base)
    (successor : Successor base state) (publishes : Publishes owned before middle)
    (begun : ∀ job, before.jobs base.jobId = some job → job.status ≠ .pending)
    (live : ∀ job, middle.jobs base.jobId = some job → job.active = true → Live state.state)
    (held : ¬Finished state.checkpoint → ∀ key ∈ base.reservationKeys,
      middle.reservations key = some base.operationId)
    (released : Finished state.checkpoint → ∀ key ∈ base.reservationKeys,
      middle.reservations key ≠ some base.operationId)
    (others : ∀ key operationId, operationId ≠ base.operationId →
      (middle.reservations key = some operationId ↔
        before.reservations key = some operationId)) :
    Commit owned before (commitState state middle) base (saved state) := by
  have sameContent : reviewed state = reviewed base := by
    have plan := successor.plan
    simp only [reviewed, successor.replacement, plan]
  have commit := @state_commit digests owned before middle base state [] invariant row successor.plan
    successor.revision successor.job successor.records successor.early successor.dispatched
    publishes begun live held released others (fun _ inside => absurd inside List.not_mem_nil)
  refine commit ?_ ?_ ?_ invariant.justified
  · intro nonce recorded
    rw [sameContent]
    rcases successor.nonce with none | same
    · rw [none] at recorded
      cases recorded
    · exact invariant.approved _ base nonce row (same.symm.trans recorded)
  · intro installing
    rw [sameContent]
    exact invariant.authorised _ base row (successor.installing installing)
  · rw [successor.certificate]
    exact invariant.certificates _ base row

end Successors

section Saves

variable {owned held : Set Permit} {world later : World} {base state : Operation}
  {jobId : String} {mode : Mode} {pending : World → World}

omit digests in
theorem acts_begun (acts : Acts mode owned world jobId) {job : Job}
    (found : world.jobs jobId = some job) : job.status ≠ .pending := by
  intro waiting
  cases mode with
  | worker =>
    obtain ⟨-, again, known, running⟩ := acts
    rw [found] at known
    cases known
    rw [waiting] at running
    cases running
  | reconciler =>
    obtain ⟨again, known, idle⟩ := acts
    rw [found] at known
    cases known
    rw [Job.active, waiting] at idle
    cases idle

omit digests in
theorem acts_live {stage : Stage} (acts : Acts mode owned world jobId)
    (allowed : Allowed mode stage) {job : Job} (found : world.jobs jobId = some job)
    (active : job.active = true) : Live stage := by
  cases mode with
  | worker => exact allowed
  | reconciler =>
    obtain ⟨again, known, idle⟩ := acts
    rw [found] at known
    cases known
    rw [idle] at active
    cases active

theorem commit_kept {after : World} {next : Operation}
    (commit : Commit owned world after base next) : owned ⊆ rules.kept owned world after :=
  fun _ own => Discipline.mem_kept own (commit_spent commit)

theorem acts_commit {after : World} {next : Operation} (acts : Acts mode owned world jobId)
    (commit : Commit owned world after base next)
    (same : ∀ job later, world.jobs jobId = some job → after.jobs jobId = some later →
      later.status = job.status) :
    Acts mode (rules.kept owned world after) after jobId := by
  cases mode with
  | worker =>
    obtain ⟨mine, job, found, running⟩ := acts
    obtain ⟨last, final, -⟩ := commit.jobs jobId job found
    exact ⟨commit_kept commit mine, last, final, (same job last found final).trans running⟩
  | reconciler =>
    obtain ⟨job, found, idle⟩ := acts
    obtain ⟨last, final, -⟩ := commit.jobs jobId job found
    exact ⟨last, final, (active_status (same job last found final)).trans idle⟩

theorem save_commits {post : Set Permit → Operation → World → Prop}
    {failed : Set Permit → String → World → Prop} (acts : Acts mode owned world base.jobId)
    (based : Based world base) (successor : Successor base state)
    (publishes : ∀ later, Acts mode owned later base.jobId →
      Publishes owned later (pending later))
    (live : ∀ later job, Acts mode owned later base.jobId →
      (pending later).jobs base.jobId = some job → job.active = true → Live state.state)
    (held : ∀ later, Invariant later → later.operations base.operationId = some base →
      ¬Finished state.checkpoint → ∀ key ∈ base.reservationKeys,
        (pending later).reservations key = some base.operationId)
    (released : ∀ later, Finished state.checkpoint → ∀ key ∈ base.reservationKeys,
      (pending later).reservations key ≠ some base.operationId)
    (others : ∀ later key operationId, operationId ≠ base.operationId →
      ((pending later).reservations key = some operationId ↔
        later.reservations key = some operationId))
    (ends : ∀ later, Acts mode owned later base.jobId → Invariant later →
      Commit owned later (commitState state (pending later)) base (saved state) →
        ∀ last, rules.rely (rules.kept owned later (commitState state (pending later)))
          (commitState state (pending later)) last →
            post (rules.kept owned later (commitState state (pending later))) (saved state) last)
    (fails : ∀ later, Acts mode owned later base.jobId → failed owned changedMessage later) :
    rules.Proceeds post failed owned (save pending state) world := by
  refine Discipline.proceeds_transact (guarantee_same owned) ?_ ?_
  · intro later final result changed done
    by_cases admission : admitted later state = true
    · rw [if_pos admission] at done
      cases done
      have acting := acts_evolves acts changed.1
      have row := admitted_row (based_evolves based changed.1) (plan_operation successor.plan)
        successor.revision admission
      have commit := successor_commit changed.2 row successor (publishes later acting)
        (fun job found => acts_begun acting found) (fun job => live later job acting)
        (held later changed.2 row) (released later) (others later)
      exact ⟨commit_guarantee commit changed.2, commit_fair commit,
        ends later acting changed.2 commit⟩
    · rw [if_neg admission] at done
      cases done
  · intro later error changed refused last more
    by_cases admission : admitted later state = true
    · rw [if_pos admission] at refused
      cases refused
    · rw [if_neg admission] at refused
      cases refused
      exact fails last (acts_evolves (acts_evolves acts changed.1) more.1)

/-- What a thread knows between its steps: `base` is the row that it loaded or saved last,
and `jobId` its task. -/
structure At (mode : Mode) (jobId : String) (owned : Set Permit) (base : Operation)
    (world : World) : Prop where
  job : base.jobId = jobId
  acts : Acts mode owned world jobId
  based : Based world base
  executed : Installing base.checkpoint →
    Executed base.operationId (reviewed base) world.log

structure AfterSave (mode : Mode) (jobId : String) (owned : Set Permit) (base state : Operation)
    (held : Set Permit) (result : Operation) (world : World) : Prop where
  outcome : result = saved state
  here : At mode jobId held result world
  more : owned ⊆ held
  csr : Early base.checkpoint → ¬Early state.checkpoint → Permit.csr base.operationId ∈ held
  install : ¬Dispatched base.checkpoint → Dispatched state.checkpoint →
    Permit.install base.operationId ∈ held

omit digests in
theorem executed_evolves {operationId : String} {content : Reviewed}
    (executed : Executed operationId content world.log)
    (changed : Evolves owned world later) : Executed operationId content later.log :=
  executed.imp fun _ inside => changed.log.subset inside

omit digests in
theorem at_evolves (here : At mode jobId owned base world)
    (changed : Evolves owned world later) : At mode jobId owned base later where
  job := here.job
  acts := acts_evolves here.acts changed
  based := based_evolves here.based changed
  executed := fun installing => executed_evolves (here.executed installing) changed

theorem save_proceeds (here : At mode jobId owned base world) (successor : Successor base state)
    (allowed : Allowed mode state.state) (reached : Checkpoint)
    (reaches : state.checkpoint = reached) (unfinished : ¬Finished reached) :
    rules.Proceeds (AfterSave mode jobId owned base state)
      (fun held _ later => Acts mode held later jobId) owned (save id state) world := by
  subst reaches
  obtain ⟨rfl, acts, based, executed⟩ := here
  have named : state.operationId = base.operationId := plan_operation successor.plan
  refine save_commits acts based successor
    (fun later _ => publishes_same owned later)
    (fun later job acting found active => acts_live acting allowed found active)
    (fun later invariant row _ => invariant.held _ base row
      (fun finished => unfinished (successor.finished finished)))
    (fun later finished => absurd finished unfinished) (fun _ _ _ _ => Iff.rfl) ?_
    (fun later acting => acting)
  intro later acting invariant commit last changed
  have row : (commitState state later).operations base.operationId = some (saved state) :=
    commit_row commit
  have owner : (saved state).operationId = base.operationId := named
  have task : (saved state).jobId = base.jobId := successor.job
  have acts : Acts mode (rules.kept owned later (commitState state later))
      (commitState state later) base.jobId := by
    refine acts_commit acting commit fun job last found final => ?_
    obtain ⟨was, known, -, same⟩ := commit_state_jobs state later _ last final
    rw [found] at known
    cases known
    exact same
  have here : At mode base.jobId (rules.kept owned later (commitState state later))
      (saved state) (commitState state later) :=
    ⟨task, acts, based_row (owner ▸ row), owner ▸ commit.authorised⟩
  refine
    { outcome := rfl, here := at_evolves here changed.1, more := commit_kept commit,
      csr := ?_, install := ?_ }
  · intro early late
    refine Discipline.issued_kept ?_ ?_ (commit_spent commit)
    · exact ⟨saved state, row, late⟩
    · rintro ⟨current, found, issued⟩
      rw [commit.row] at found
      cases found
      exact issued early
  · intro before sent
    refine Discipline.issued_kept ?_ ?_ (commit_spent commit)
    · exact ⟨saved state, row, sent⟩
    · rintro ⟨current, found, issued⟩
      rw [commit.row] at found
      cases found
      exact before issued

theorem save_ends {status : JobStatus} {message : String} (here : At .worker jobId owned base world)
    (successor : Successor base state) (reached : Checkpoint) (reaches : state.checkpoint = reached)
    (unfinished : ¬Finished reached) (ended : status = .succeeded ∨ status = .failed) :
    rules.Proceeds (fun _ _ _ => True) (fun held _ later => Acts .worker held later jobId)
      owned (save (endJob jobId status message) state) world := by
  subst reaches
  obtain ⟨rfl, acts, based, executed⟩ := here
  have frame : ∀ later, (endJob base.jobId status message later).reservations =
      later.reservations := by
    intro later
    unfold endJob
    split <;> rfl
  refine save_commits acts based successor
    (fun later acting => publishes_end ended acting) ?_ ?_
    (fun later finished => absurd finished unfinished) ?_ (fun _ _ _ _ _ _ => trivial)
    (fun later acting => acting)
  · intro later job acting found active
    rw [end_job ended found] at active
    cases active
  · intro later invariant row _
    rw [frame]
    exact invariant.held _ base row fun finished => unfinished (successor.finished finished)
  · intro later key operationId _
    rw [frame]

omit digests in
theorem release_others (state : Operation) (world : World) {key operationId : String}
    (foreign : operationId ≠ state.operationId) :
    (release state world).reservations key = some operationId ↔
      world.reservations key = some operationId := by
  unfold release
  dsimp only
  by_cases ours : key ∈ state.reservationKeys ∧ world.reservations key = some state.operationId
  · rw [if_pos ours, ours.2]
    refine ⟨fun wrong => (nomatch wrong), fun same => ?_⟩
    cases same
    exact absurd rfl foreign
  · rw [if_neg ours]

omit digests in
theorem release_releases (state : Operation) (world : World) {key : String}
    (inside : key ∈ state.reservationKeys) :
    (release state world).reservations key ≠ some state.operationId := by
  unfold release
  dsimp only
  by_cases ours : world.reservations key = some state.operationId
  · rw [if_pos ⟨inside, ours⟩]
    exact fun wrong => nomatch wrong
  · rw [if_neg fun both => ours both.2]
    exact ours

theorem save_finishes (here : At mode jobId owned base world)
    (plan : state.toPlan = base.toPlan) {final : Operation}
    (successor : Successor base final) (finished : Finished final.checkpoint)
    (publishes : ∀ later, Acts mode owned later jobId →
      Publishes owned (release state later) (pending (release state later)))
    (frame : ∀ later, (pending (release state later)).reservations =
      (release state later).reservations)
    (idle : ∀ later job, Acts mode owned later jobId →
      (pending (release state later)).jobs jobId = some job → job.active = false) :
    rules.Proceeds (fun _ _ _ => True) (fun held _ later => Acts mode held later jobId)
      owned (save (pending ∘ release state) final) world := by
  obtain ⟨rfl, acts, based, executed⟩ := here
  have named : state.operationId = base.operationId := plan_operation plan
  have keys : state.reservationKeys = base.reservationKeys := congrArg Plan.reservationKeys plan
  refine save_commits acts based successor
    (fun later acting => publishes_trans (publishes_release state later) (publishes later acting))
    ?_ (fun later invariant row open_ => absurd finished open_) ?_ ?_
    (fun _ _ _ _ _ _ => trivial) (fun later acting => acting)
  · intro later job acting found active
    rw [idle later job acting found] at active
    cases active
  · intro later _ key inside
    rw [Function.comp_apply, frame, ← named]
    exact release_releases state later (keys ▸ inside)
  · intro later key operationId foreign
    rw [Function.comp_apply, frame]
    exact release_others state later (named ▸ foreign)

end Saves

end Atlaso.Vcf.CertificateSteps
