import Atlaso.Vcf.CertificateRequests

/-!
The guarantees of the certificate workflow over every interleaving and restart.

A restart fails every task that has not ended and marks its operation for recovery, so that
no task runs after it; it spends and issues no permit.
-/

namespace Atlaso.Vcf.CertificateGuarantees

open Library.RequestThreads CertificateOperations CertificateWorkflow CertificateInvariant
open CertificateSteps CertificateThreads CertificateWorker CertificateRequests

variable [digests : Digests] {world before middle after : World} {state : Operation}
  {jobId : String}

section Restarts

variable {job replaced : Job} {message : String}

theorem end_job_durable (durable : Durable world) (found : world.jobs jobId = some job)
    (same : SameTask job replaced) (ended : replaced.active = false) :
    Durable (world.withJob jobId replaced) := by
  have jobs : ∀ other later, (world.withJob jobId replaced).jobs other = some later →
      ∃ was, world.jobs other = some was ∧ SameTask was later ∧
        (was.active = false → later.active = false) := by
    intro other later final
    by_cases here : other = jobId
    · subst here
      rw [World.with_job_self] at final
      cases final
      exact ⟨job, found, same, fun _ => ended⟩
    · rw [World.with_job_other world replaced here] at final
      exact ⟨later, final, same_task_refl later, id⟩
  refine
    { keyed := durable.keyed, named := durable.named, records := durable.records,
      approved := durable.approved, authorised := durable.authorised,
      certificates := durable.certificates, unknown := durable.unknown,
      justified := durable.justified, held := durable.held, released := durable.released,
      housed := ?_, task := ?_, first := ?_, discarded := ?_, listed := ?_ }
  · intro other later final
    obtain ⟨was, known, same, -⟩ := jobs other later final
    rw [same.1]
    exact durable.housed other was known
  · intro operationId row known
    obtain ⟨was, task, owner⟩ := durable.task operationId row known
    by_cases here : row.jobId = jobId
    · rw [here, found] at task
      cases task
      exact ⟨replaced, here ▸ World.with_job_self .., same.1.trans owner⟩
    · exact ⟨was, (World.with_job_other world replaced here).trans task, owner⟩
  · intro operationId row other later known early final owner
    obtain ⟨was, task, same, -⟩ := jobs other later final
    exact durable.first operationId row other was known early task (same.1.symm.trans owner)
  · intro operationId row later known discarded final
    obtain ⟨was, task, -, idle⟩ := jobs _ later final
    exact idle (durable.discarded operationId row was known discarded task)
  · intro other later final
    obtain ⟨was, task, -⟩ := jobs other later final
    exact durable.listed other was task

omit digests in
theorem interrupted_row_records (records : Records state)
    (kept : state.checkpoint ≠ .reconciledNotDispatched) :
    Records (interruptedState message state) := by
  unfold Records at records ⊢
  cases at_ : state.checkpoint <;> rw [at_] at records <;> simp only [interruptedState, at_]
  case reconciledNotDispatched => exact absurd at_ kept
  all_goals exact ⟨.inr rfl, records.2⟩

/-- A row that is marked for recovery keeps everything but its state and its error. -/
theorem interrupt_durable (durable : Durable world)
    (found : world.operations state.operationId = some state)
    (kept : state.checkpoint ≠ .reconciledNotDispatched) :
    Durable (world.withOperation (interruptedState message state)) := by
  have rows : ∀ operationId row,
      (world.withOperation (interruptedState message state)).operations operationId = some row →
        ∃ was, world.operations operationId = some was ∧ row.toPlan = was.toPlan ∧
          Records row ∧ row.jobId = was.jobId ∧ row.checkpoint = was.checkpoint ∧
            row.reviewNonce = was.reviewNonce ∧ reviewed row = reviewed was ∧
              row.certificateId = was.certificateId := by
    intro operationId row known
    by_cases here : operationId = state.operationId
    · subst here
      have same := (Function.update_self ..).symm.trans known
      cases same
      exact ⟨state, found, rfl, interrupted_row_records (durable.records _ state found) kept,
        rfl, rfl, rfl, rfl, rfl⟩
    · have old := (Function.update_of_ne here ..).symm.trans known
      exact ⟨row, old, rfl, durable.records operationId row old, rfl, rfl, rfl, rfl, rfl⟩
  refine
    { keyed := ?_, housed := ?_, named := ?_, records := ?_, task := ?_, first := ?_,
      discarded := ?_, approved := ?_, authorised := ?_, certificates := ?_, unknown := ?_,
      justified := durable.justified, held := ?_, released := ?_, listed := durable.listed }
  · intro operationId row known
    obtain ⟨was, old, plan, -⟩ := rows operationId row known
    exact plan ▸ durable.keyed operationId was old
  · intro other job known
    by_cases here : job.operationId = state.operationId
    · rw [here]
      exact Option.isSome_iff_exists.mpr ⟨_, Function.update_self ..⟩
    · exact (congrArg Option.isSome (Function.update_of_ne here ..)).trans
        (durable.housed other job known)
  · intro operationId row known
    obtain ⟨was, old, plan, -⟩ := rows operationId row known
    exact (plan_operation plan).trans (durable.named operationId was old)
  · intro operationId row known
    obtain ⟨was, -, -, records, -⟩ := rows operationId row known
    exact records
  · intro operationId row known
    obtain ⟨was, old, -, -, job, -⟩ := rows operationId row known
    rw [job]
    exact durable.task operationId was old
  · intro operationId row other job known early
    obtain ⟨was, old, -, -, same, checkpoint, -⟩ := rows operationId row known
    rw [same]
    exact durable.first operationId was other job old (checkpoint ▸ early)
  · intro operationId row job known discarded
    obtain ⟨was, old, -, -, same, checkpoint, -⟩ := rows operationId row known
    rw [same]
    exact durable.discarded operationId was job old (checkpoint ▸ discarded)
  · intro operationId row nonce known recorded
    obtain ⟨was, old, -, -, -, -, same, content, -⟩ := rows operationId row known
    rw [content]
    exact durable.approved operationId was nonce old (same ▸ recorded)
  · intro operationId row known installing
    obtain ⟨was, old, -, -, -, checkpoint, -, content, -⟩ := rows operationId row known
    rw [content]
    exact durable.authorised operationId was old (checkpoint ▸ installing)
  · intro operationId row known
    obtain ⟨was, old, -, -, -, -, -, -, certificate⟩ := rows operationId row known
    rw [certificate]
    exact durable.certificates operationId was old
  · intro operationId missing
    refine durable.unknown operationId ?_
    by_cases here : operationId = state.operationId
    · subst here
      cases (Function.update_self ..).symm.trans missing
    · exact (Function.update_of_ne here ..).symm.trans missing
  · intro operationId row known unfinished key inside
    obtain ⟨was, old, plan, -, -, checkpoint, -⟩ := rows operationId row known
    exact durable.held operationId was old (checkpoint ▸ unfinished) key
      (congrArg Plan.reservationKeys plan ▸ inside)
  · intro operationId row known finished key inside
    obtain ⟨was, old, plan, -, -, checkpoint, -⟩ := rows operationId row known
    exact durable.released operationId was old (checkpoint ▸ finished) key
      (congrArg Plan.reservationKeys plan ▸ inside)

/-- What the recovery of one task, and of all tasks, does to the tables. -/
structure Recovers (before after : World) : Prop where
  durable : Durable after
  log : after.log = before.log
  jobIds : after.jobIds = before.jobIds
  rows : ∀ operationId row, before.operations operationId = some row →
    ∃ later, after.operations operationId = some later ∧ later.checkpoint = row.checkpoint
  jobs : ∀ jobId job, before.jobs jobId = some job → ∃ later, after.jobs jobId = some later ∧
    (job.active = false → later.active = false)
  created : ∀ jobId, before.jobs jobId = none → after.jobs jobId = none

theorem recovers_same (durable : Durable world) : Recovers world world where
  durable := durable
  log := rfl
  jobIds := rfl
  rows := fun _ row found => ⟨row, found, rfl⟩
  jobs := fun _ job found => ⟨job, found, id⟩
  created := fun _ missing => missing

theorem recovers_trans (first : Recovers before middle) (second : Recovers middle after) :
    Recovers before after where
  durable := second.durable
  log := second.log.trans first.log
  jobIds := second.jobIds.trans first.jobIds
  rows := by
    intro operationId row found
    obtain ⟨inner, reached, same⟩ := first.rows operationId row found
    obtain ⟨last, final, again⟩ := second.rows operationId inner reached
    exact ⟨last, final, again.trans same⟩
  jobs := by
    intro jobId job found
    obtain ⟨inner, reached, idle⟩ := first.jobs jobId job found
    obtain ⟨last, final, still⟩ := second.jobs jobId inner reached
    exact ⟨last, final, still ∘ idle⟩
  created := fun jobId missing => second.created jobId (first.created jobId missing)

theorem recovers_job (durable : Durable world) (found : world.jobs jobId = some job)
    (same : SameTask job replaced) (ended : replaced.active = false) :
    Recovers world (world.withJob jobId replaced) where
  durable := end_job_durable durable found same ended
  log := rfl
  jobIds := rfl
  rows := fun _ row known => ⟨row, known, rfl⟩
  jobs := by
    intro other was known
    by_cases here : other = jobId
    · subst here
      exact ⟨replaced, World.with_job_self .., fun _ => ended⟩
    · exact ⟨was, (World.with_job_other world replaced here).trans known, id⟩
  created := by
    intro other missing
    have here : other ≠ jobId := by
      rintro rfl
      cases found.symm.trans missing
    exact (World.with_job_other world replaced here).trans missing

theorem recovers_row (durable : Durable world)
    (found : world.operations state.operationId = some state)
    (kept : state.checkpoint ≠ .reconciledNotDispatched) :
    Recovers world (world.withOperation (interruptedState message state)) where
  durable := interrupt_durable durable found kept
  log := rfl
  jobIds := rfl
  rows := by
    intro operationId row known
    by_cases here : operationId = state.operationId
    · subst here
      cases found.symm.trans known
      exact ⟨_, Function.update_self .., rfl⟩
    · exact ⟨row, (Function.update_of_ne here ..).trans known, rfl⟩
  jobs := fun _ job known => ⟨job, known, id⟩
  created := fun _ missing => missing

/-- The recovery of one task: it has ended afterwards. -/
theorem recover_job_recovers (durable : Durable world) (jobId : String) :
    Recovers world (recoverJob world jobId) ∧
      ∀ job, (recoverJob world jobId).jobs jobId = some job → job.active = false := by
  unfold recoverJob
  cases found : world.jobs jobId with
  | none =>
    refine ⟨recovers_same durable, fun job known => ?_⟩
    cases found.symm.trans known
  | some job =>
    dsimp only
    by_cases active : job.active = true
    · rw [if_pos active]
      have fails : ∀ message, Recovers world
          (world.withJob jobId { job with status := .failed, error := message }) ∧
            ∀ later, (world.withJob jobId
              { job with status := .failed, error := message }).jobs jobId = some later →
                later.active = false := by
        intro message
        refine ⟨recovers_job durable found ⟨rfl, rfl, rfl⟩ rfl, fun later final => ?_⟩
        cases (World.with_job_self ..).symm.trans final
        rfl
      cases row : world.operations job.operationId with
      | none => exact fails _
      | some state =>
        dsimp only
        by_cases own : state.actor = job.createdBy
        · rw [if_pos own]
          have named := durable.named _ state row
          have kept : state.checkpoint ≠ .reconciledNotDispatched := by
            intro discarded
            have here := durable.first _ state jobId job row (.inr discarded) found rfl
            have idle := durable.discarded _ state job row discarded (here ▸ found)
            rw [idle] at active
            cases active
          have marked := @recovers_row digests world state restartMessage durable
            (named.symm ▸ row) kept
          refine ⟨recovers_trans marked (recovers_job marked.durable found ⟨rfl, rfl, rfl⟩ rfl),
            fun later final => ?_⟩
          cases (World.with_job_self ..).symm.trans final
          rfl
        · rw [if_neg own]
          exact fails _
    · rw [if_neg active]
      refine ⟨recovers_same durable, fun later known => ?_⟩
      cases found.symm.trans known
      exact Bool.eq_false_iff.mpr active

theorem recover_jobs_recovers (jobIds : List String) :
    ∀ world, Durable world → Recovers world (jobIds.foldl recoverJob world) ∧
      ∀ jobId ∈ jobIds, ∀ job, (jobIds.foldl recoverJob world).jobs jobId = some job →
        job.active = false := by
  induction jobIds with
  | nil => exact fun world durable => ⟨recovers_same durable, fun _ inside => absurd inside
      List.not_mem_nil⟩
  | cons first rest induction =>
    intro world durable
    obtain ⟨step, ended⟩ := recover_job_recovers durable first
    obtain ⟨others, all⟩ := induction (recoverJob world first) step.durable
    refine ⟨recovers_trans step others, fun jobId inside job found => ?_⟩
    rcases List.mem_cons.mp inside with rfl | later
    · cases known : (recoverJob world jobId).jobs jobId with
      | none => cases (others.created jobId known).symm.trans found
      | some was =>
        obtain ⟨last, final, still⟩ := others.jobs jobId was known
        cases final.symm.trans found
        exact still (ended was known)
    · exact all jobId later job found

theorem restart_invariant (durable : Durable before) (restarts : Restarts before after) :
    Invariant after ∧ rules.issued before ⊆ rules.issued after ∧
      rules.spent after = rules.spent before := by
  have recovery := recover_jobs_recovers before.jobIds before durable
  change after = before.jobIds.foldl recoverJob before at restarts
  rw [← restarts] at recovery
  obtain ⟨recovers, ended⟩ := recovery
  have idle : ∀ jobId job, after.jobs jobId = some job → job.active = false := by
    intro jobId job found
    have listed := recovers.durable.listed jobId job found
    exact ended jobId (recovers.jobIds ▸ listed) job found
  refine ⟨{ recovers.durable with pending := ?_, live := ?_ }, ?_, ?_⟩
  · intro jobId job found waiting
    have rests := idle jobId job found
    rw [Job.active, waiting] at rests
    cases rests
  · intro operationId row job _ found active
    rw [idle _ job found] at active
    cases active
  · rintro (jobId | operationId | operationId) issued
    · obtain ⟨job, known⟩ := Option.isSome_iff_exists.mp issued
      obtain ⟨later, reached, -⟩ := recovers.jobs jobId job known
      exact Option.isSome_iff_exists.mpr ⟨later, reached⟩
    · obtain ⟨row, known, late⟩ := issued
      obtain ⟨later, reached, same⟩ := recovers.rows operationId row known
      exact ⟨later, reached, same ▸ late⟩
    · obtain ⟨row, known, sent⟩ := issued
      obtain ⟨later, reached, same⟩ := recovers.rows operationId row known
      exact ⟨later, reached, same ▸ sent⟩
  · exact congrArg (List.filterMap permitOf) recovers.log

end Restarts

section Systems

theorem changes_invariant (invariant : Invariant before) (changes : Changes before after) :
    Invariant after := by
  have held : ∀ operationId row, before.operations operationId = some row → ∀ key,
      (after.reservations key = some operationId ↔
        before.reservations key = some operationId) := fun operationId row known key =>
    changes.reservations key operationId (Option.isSome_of_eq_some known)
  obtain ⟨operations, jobs, jobIds, -, log, -⟩ := changes
  refine
    { keyed := ?_, housed := ?_, named := ?_, records := ?_, task := ?_, first := ?_,
      discarded := ?_, approved := ?_, authorised := ?_, certificates := ?_, unknown := ?_,
      justified := log ▸ invariant.justified, held := ?_, released := ?_, listed := ?_,
      pending := ?_, live := ?_ }
  · exact operations ▸ invariant.keyed
  · exact operations ▸ jobs ▸ invariant.housed
  · exact operations ▸ invariant.named
  · exact operations ▸ invariant.records
  · exact operations ▸ jobs ▸ invariant.task
  · exact operations ▸ jobs ▸ invariant.first
  · exact operations ▸ jobs ▸ invariant.discarded
  · exact operations ▸ log ▸ invariant.approved
  · exact operations ▸ log ▸ invariant.authorised
  · exact operations ▸ log ▸ invariant.certificates
  · exact operations ▸ log ▸ invariant.unknown
  · intro operationId row known unfinished key inside
    rw [operations] at known
    exact (held operationId row known key).mpr
      (invariant.held operationId row known unfinished key inside)
  · intro operationId row known finished key inside
    rw [operations] at known
    rw [Ne, held operationId row known key]
    exact invariant.released operationId row known finished key inside
  · exact jobs ▸ jobIds ▸ invariant.listed
  · exact operations ▸ jobs ▸ invariant.pending
  · exact operations ▸ jobs ▸ invariant.live

omit digests in
theorem changes_evolves (owned : Set Permit) (changes : Changes before after) :
    Evolves owned before after where
  rows := fun _ row found => ⟨row, changes.operations ▸ found, rfl, .inl rfl⟩
  jobs := fun _ job found => ⟨job, changes.jobs ▸ found, same_task_refl job, id, id⟩
  mine := by
    intro jobId job later _ known final
    rw [changes.jobs] at final
    cases known.symm.trans final
    rfl
  log := changes.log ▸ List.suffix_rfl

theorem changes_issued (changes : Changes before after) :
    rules.issued before ⊆ rules.issued after := by
  rintro (jobId | operationId | operationId) issued
  · exact (congrArg Option.isSome (congrFun changes.jobs jobId)).trans issued
  · exact issued.imp fun row found => ⟨changes.operations ▸ found.1, found.2⟩
  · exact issued.imp fun row found => ⟨changes.operations ▸ found.1, found.2⟩

theorem empty_invariant (empty : Empty world) : Invariant world := by
  obtain ⟨operations, jobs, -, log⟩ := empty
  have noRow : ∀ {operationId row}, world.operations operationId ≠ some row := by
    intro operationId row found
    rw [operations] at found
    cases found
  have noJob : ∀ {jobId job}, world.jobs jobId ≠ some job := by
    intro jobId job found
    rw [jobs] at found
    cases found
  exact
    { keyed := fun _ _ found => absurd found noRow
      housed := fun _ _ found => absurd found noJob
      named := fun _ _ found => absurd found noRow
      records := fun _ _ found => absurd found noRow
      task := fun _ _ found => absurd found noRow
      first := fun _ _ _ _ found => absurd found noRow
      discarded := fun _ _ _ found => absurd found noRow
      approved := fun _ _ _ found => absurd found noRow
      authorised := fun _ _ found => absurd found noRow
      certificates := fun _ _ found => absurd found noRow
      unknown := fun _ _ event inside => by rw [log] at inside; cases inside
      justified := by rw [log]; trivial
      held := fun _ _ found => absurd found noRow
      released := fun _ _ found => absurd found noRow
      listed := fun _ _ found => absurd found noJob
      pending := fun _ _ found => absurd found noJob
      live := fun _ _ _ found => absurd found noRow }

theorem system_sound : Sound rules Invariant (Request digests) Changes Restarts where
  trans := rely_trans
  starts := by
    intro world program _ request
    cases request with
    | prepare values operationId jobId rounds =>
      exact prepare_proceeds values operationId jobId rounds
    | review values nonce => exact review_proceeds values nonce
    | execute values approval jobId rounds =>
      exact execute_proceeds values approval jobId rounds
    | reconcile values => exact reconcile_proceeds values
  steps := fun owned before after _ allowed =>
    ⟨allowed.2, fun others apart issued => ⟨allowed.1 others apart issued, allowed.2⟩⟩
  refl := fun owned world invariant => ⟨evolves_refl owned world, invariant⟩
  outside := fun before after invariant changes =>
    ⟨changes_invariant invariant changes, changes_issued changes,
      congrArg (List.filterMap permitOf) changes.log,
      fun owned => ⟨changes_evolves owned changes, changes_invariant invariant changes⟩⟩
  restart := fun before after invariant restarts =>
    restart_invariant invariant.toDurable restarts

theorem reached_invariant {initial : World} (empty : Empty initial)
    {pool : Pool World String} (reached : Reached digests initial pool) :
    Invariant pool.world ∧ (spentPermits pool.world).Nodup := by
  have unspent : rules.spent initial = [] := by
    change initial.log.filterMap permitOf = []
    rw [empty.log]
    rfl
  obtain ⟨owners, settled⟩ :=
    reachable_settled system_sound (empty_invariant empty) unspent reached
  exact ⟨settled.holds, settled.once⟩

end Systems

section Guarantees

/-- How often a CSR was requested for an operation. -/
def csrRequests (operationId : String) (log : List Event) : Nat :=
  log.countP fun event => permitOf event == some (.csr operationId)

def installations (operationId : String) (log : List Event) : Nat :=
  log.countP fun event => permitOf event == some (.install operationId)

def Reserves (digests : Digests) (state : Operation) (value : String) : Prop :=
  "vcf_cert_lock:" ++ digests.reservation state.product value ∈ state.reservationKeys

omit digests in
theorem spent_once {permit : Permit} (once : (spentPermits world).Nodup) :
    (world.log.countP fun event => permitOf event == some permit) ≤ 1 := by
  have counted := List.nodup_iff_count_le_one.mp once permit
  rw [spentPermits, List.count_filterMap] at counted
  exact counted

omit digests in
theorem just_of_justified {event : Event} {earlier : List Event} (later : List Event)
    (justified : Justified (later ++ event :: earlier)) :
    Just earlier event ∧ Justified earlier := by
  induction later with
  | nil => exact justified
  | cons last rest induction => exact induction justified.2

omit digests in
/-- An installation follows an execution, and that follows its review. -/
theorem installed_after_review {later earlier : List Event} {operationId : String}
    {leaf : Metadata} {content : Reviewed}
    (justified : Justified (later ++ .installed operationId leaf content :: earlier)) :
    content.replacementCertificate = some leaf ∧
      ∃ nonce between first, earlier = between ++ .executed operationId nonce content :: first ∧
        .reviewed operationId nonce content ∈ first := by
  obtain ⟨⟨⟨nonce, executed⟩, same⟩, before⟩ := just_of_justified later justified
  obtain ⟨between, first, split⟩ := List.append_of_mem executed
  rw [split] at before
  exact ⟨same, nonce, between, first, split, (just_of_justified between before).1⟩

theorem reserves_identity (keyed : Keyed state.toPlan) :
    Reserves digests state ("identity:" ++ state.identity) := by
  obtain ⟨addresses, -, keys⟩ := keyed
  rw [Reserves, keys, locks]
  exact List.mem_cons_self

/-- In every interleaving of all requests, workers and restarts each operation requests its CSR
at most once, has at most one certificate, and sends at most one installation, which is for the
content of a review that was consumed before it; unfinished operations share no target. -/
theorem certificate_writes_sent_once {initial : World} (empty : Empty initial)
    {pool : Pool World String} (reached : Reached digests initial pool) :
    (∀ operationId, csrRequests operationId pool.world.log ≤ 1 ∧
      installations operationId pool.world.log ≤ 1) ∧
    (∀ operationId, issuedFor operationId pool.world.log =
      ((pool.world.operations operationId).bind (·.certificateId)).toList) ∧
    (∀ later earlier operationId leaf content,
      pool.world.log = later ++ .installed operationId leaf content :: earlier →
        content.replacementCertificate = some leaf ∧
          ∃ nonce between first,
            earlier = between ++ .executed operationId nonce content :: first ∧
              .reviewed operationId nonce content ∈ first) ∧
    (∀ operationId state, pool.world.operations operationId = some state →
      ¬Finished state.checkpoint →
        Reserves digests state ("identity:" ++ state.identity) ∧
          ∀ key ∈ state.reservationKeys, pool.world.reservations key = some operationId) ∧
    (∀ first second one other value, pool.world.operations first = some one →
      pool.world.operations second = some other → ¬Finished one.checkpoint →
        ¬Finished other.checkpoint → one.product = other.product →
          Reserves digests one value → Reserves digests other value → first = second) := by
  obtain ⟨invariant, once⟩ := reached_invariant empty reached
  refine ⟨fun operationId => ⟨spent_once once, spent_once once⟩, ?_, ?_, ?_, ?_⟩
  · intro operationId
    cases found : pool.world.operations operationId with
    | none => exact issued_for_other (invariant.unknown operationId found)
    | some state => exact invariant.certificates operationId state found
  · intro later earlier operationId leaf content split
    exact installed_after_review (split ▸ invariant.justified)
  · intro operationId state found unfinished
    exact ⟨reserves_identity (invariant.keyed operationId state found),
      invariant.held operationId state found unfinished⟩
  · intro first second one other value found again unfinished open_ same mine theirs
    have held := invariant.held first one found unfinished _ mine
    rw [Reserves, ← same] at theirs
    have also := invariant.held second other again open_ _ theirs
    exact Option.some.inj (held.symm.trans also)

end Guarantees

section Samples

@[reducible]
def sampleDigests : Digests := ⟨fun _ value => value, fun _ => "revision"⟩

def sampleNames : Names := ⟨"srm.example.test", ["srm.example.test"], []⟩

def sampleCertificate (fingerprint : String) : Metadata where
  subject := "CN=srm.example.test"
  issuer := "CN=Atlaso"
  serialNumber := "1"
  notBefore := "2026-01-01"
  notAfter := "2027-01-01"
  fingerprintSha256 := fingerprint
  dnsNames := ["srm.example.test"]
  ipAddresses := []

def sampleSnapshot : CaSnapshot where
  root := sampleCertificate "aa"
  profile := ⟨1, "server", 365, "RSA", 2048, "digitalSignature", "serverAuth", true, true⟩

def sampleInspection : Inspection where
  identity := "srm.example.test"
  productInfo := ⟨"9.0", "srm", none, none, none⟩
  names := sampleNames
  currentCertificate := sampleCertificate "bb"
  baselineHealth := "green"

def sampleOutside : Outside where
  administrator := fun _ => true
  probe := fun target => .ok target.fingerprint
  resolve := fun selection =>
    match selection with
    | .manual username password => .ok (.manual username, ⟨username, password⟩)
    | .vault .. => .error "Credential selection is unavailable."
  inspect := fun _ _ _ => .ok sampleInspection
  addresses := fun _ => ["192.0.2.10"]
  caSnapshot := fun _ _ => .ok sampleSnapshot
  rootChain := fun _ _ => .ok "root"
  csrCommonNames := fun _ _ names => .ok [names.commonName]
  issue := fun _ => some "leaf"
  validateIssued := fun _ _ _ _ _ => .ok (sampleCertificate "cc")
  login := fun _ _ => .ok ()
  generateCsr := fun _ => .ok "csr"
  startCsr := fun _ => .ok "csr-task"
  waitCsr := fun _ _ => .ok "csr"
  startValidation := fun _ _ _ => .ok "validation"
  waitValidation := fun _ _ => .ok ()
  importRoot := fun _ _ => .ok ()
  installCsr := fun _ _ _ => .answered ()
  startInstall := fun _ _ _ => .answered "install-task"
  served := fun _ _ _ => .error "The appliance does not answer."
  replacedLogin := fun _ _ _ => .ok ()
  health := fun _ _ => .ok true
  taskComplete := fun _ _ => .ok true

def sampleWorld : World where
  operations := fun _ => none
  reservations := fun _ => none
  jobs := fun _ => none
  jobIds := []
  certificates := fun _ => none
  nextCertificate := 1
  outside := sampleOutside
  log := []

def sampleValues : Values where
  actor := "admin"
  product := .srm
  target := ⟨"srm.example.test", 443, "bb"⟩
  confirmed := true
  acknowledged := true
  recoveryReady := true
  selection := .manual "root" "secret"
  operationId := "operation"
  recoveryReference := "snapshot 7"
  names := sampleNames
  profileId := 1

def sampleApproval : Approval := ⟨"admin", "operation", "nonce", "revision"⟩

def samplePrepare : Steps Unit := prepare sampleDigests sampleValues "operation" "first" 0

def sampleReview : Steps Unit := review sampleDigests sampleValues "nonce"

def sampleExecute : Steps Unit :=
  execute sampleDigests sampleValues (some sampleApproval) "second" 0

def preparedWorld : World := (samplePrepare.advance 100 sampleWorld).2

def reviewedWorld : World := (sampleReview.advance 100 preparedWorld).2

def executedWorld : World := (sampleExecute.advance 100 reviewedWorld).2

omit digests in
theorem sample_empty : Empty sampleWorld := ⟨rfl, rfl, rfl, rfl⟩

omit digests in
/-- One administrator prepares, reviews and executes. -/
theorem sample_reached : ∃ threads, Reached sampleDigests sampleWorld ⟨executedWorld, threads⟩ := by
  have prepared := @reachable_start World String (Request sampleDigests) Changes Restarts
    ⟨sampleWorld, fun _ => none⟩ 0 sampleWorld .refl 100 samplePrepare
    (.prepare sampleValues _ _ 0) rfl
  have reviewed := @reachable_start World String (Request sampleDigests) Changes Restarts
    _ 1 sampleWorld prepared 100 sampleReview (.review sampleValues _) rfl
  have executed := @reachable_start World String (Request sampleDigests) Changes Restarts
    _ 2 sampleWorld reviewed 100 sampleExecute (.execute sampleValues _ _ 0) rfl
  exact ⟨_, executed⟩

omit digests in
theorem sample_writes_sent_once :
    csrRequests "operation" executedWorld.log = 1 ∧
      installations "operation" executedWorld.log = 1 ∧
        ∀ operationId, installations operationId executedWorld.log ≤ 1 := by
  obtain ⟨threads, reached⟩ := sample_reached
  have guarantees := @certificate_writes_sent_once sampleDigests _ sample_empty _ reached
  exact ⟨by decide +kernel, by decide +kernel, fun operationId => (guarantees.1 operationId).2⟩

end Samples

end Atlaso.Vcf.CertificateGuarantees
