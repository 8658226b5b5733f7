import Atlaso.Vcf.CertificateWorkflow

/-!
What holds of the certificate tables between the steps of all requests and workers.

A row is replaced only by a request that loaded it last, so that every commit is a step from
the stored row to its successor: `Commit` says what such a step may do. The permits are the
right to be the worker of a task, and the rights to request a CSR and to install that the
commits of their dispatch checkpoints issue.
-/

namespace Atlaso.Vcf.CertificateInvariant

open Library.RequestThreads CertificateOperations CertificateWorkflow

section Rows

def Unissued (state : Operation) : Prop :=
  state.certificateId = none ∧ state.replacementCertificate = none ∧ state.reviewNonce = none

def HasTask (state : Operation) : Prop :=
  state.product = .sddc → state.nativeCsrTaskId.isSome

def Issued (state : Operation) : Prop :=
  state.certificateId.isSome ∧ state.replacementCertificate.isSome ∧ state.csrPem.isSome ∧
    HasTask state

def Validated (state : Operation) : Prop :=
  state.product = .sddc → state.nativeValidationId.isSome

def Within (state : Operation) (stage : Stage) : Prop :=
  state.state = stage ∨ state.state = .needsRecovery

def Records (state : Operation) : Prop :=
  match state.checkpoint with
  | .queuedPreparation | .csrDispatchPending => Within state .preparing ∧ Unissued state
  | .csrTaskSubmitted =>
    Within state .preparing ∧ Unissued state ∧ state.product = .sddc ∧ HasTask state
  | .csrReceived =>
    Within state .preparing ∧ Unissued state ∧ state.csrPem.isSome ∧ HasTask state
  | .certificateIssued | .validationDispatchPending =>
    Within state .preparing ∧ Issued state ∧ state.product = .sddc ∧ state.reviewNonce = none
  | .validationTaskSubmitted =>
    Within state .preparing ∧ Issued state ∧ state.product = .sddc ∧
      state.reviewNonce = none ∧ Validated state
  | .certificatePrepared => Within state .prepared ∧ Issued state ∧ Validated state
  | .queuedInstallation | .rootImportDispatchPending | .installationDispatchPending
  | .verifyingReadiness =>
    Within state .installing ∧ Issued state ∧ Validated state ∧ state.reviewNonce = none
  | .verified | .reconciledVerified => Within state .succeeded ∧ Issued state
  | .reconciledNotDispatched => state.state = .failed ∧ Unissued state

def Live (stage : Stage) : Prop := stage = .preparing ∨ stage = .prepared ∨ stage = .installing

/-- No CSR has been requested. -/
def Early (checkpoint : Checkpoint) : Prop :=
  checkpoint = .queuedPreparation ∨ checkpoint = .reconciledNotDispatched

def Finished (checkpoint : Checkpoint) : Prop :=
  checkpoint = .verified ∨ checkpoint = .reconciledVerified ∨
    checkpoint = .reconciledNotDispatched

def Installing (checkpoint : Checkpoint) : Prop :=
  checkpoint = .queuedInstallation ∨ checkpoint = .rootImportDispatchPending ∨
    checkpoint = .installationDispatchPending ∨ checkpoint = .verifyingReadiness

/-- An installation may have been sent. -/
def Dispatched (checkpoint : Checkpoint) : Prop :=
  checkpoint = .installationDispatchPending ∨ checkpoint = .verifyingReadiness ∨
    checkpoint = .verified ∨ checkpoint = .reconciledVerified

def Waiting : Action → Operation → Prop
  | .prepare, state => state.state = .preparing ∧ state.checkpoint = .queuedPreparation
  | .install, state => state.state = .installing ∧ state.checkpoint = .queuedInstallation

end Rows

section Logs

def Event.operation : Event → String
  | .csrRequested operationId => operationId
  | .issued operationId _ => operationId
  | .reviewed operationId _ _ => operationId
  | .executed operationId _ _ => operationId
  | .installed operationId _ _ => operationId

inductive Permit where
  | worker (jobId : String)
  | csr (operationId : String)
  | install (operationId : String)
  deriving DecidableEq

def permitOf : Event → Option Permit
  | .csrRequested operationId => some (.csr operationId)
  | .installed operationId _ _ => some (.install operationId)
  | _ => none

def issuedFor (operationId : String) (log : List Event) : List Nat :=
  log.filterMap fun event =>
    match event with
    | .issued other certificateId => if other = operationId then some certificateId else none
    | _ => none

def Executed (operationId : String) (content : Reviewed) (log : List Event) : Prop :=
  ∃ nonce, .executed operationId nonce content ∈ log

def Just (earlier : List Event) : Event → Prop
  | .executed operationId nonce content => .reviewed operationId nonce content ∈ earlier
  | .installed operationId leaf content =>
    Executed operationId content earlier ∧ content.replacementCertificate = some leaf
  | _ => True

def Justified : List Event → Prop
  | [] => True
  | event :: earlier => Just earlier event ∧ Justified earlier

end Logs

section Invariants

variable [digests : Digests]

def Keyed (plan : Plan) : Prop :=
  ∃ addresses, addresses ≠ [] ∧
    plan.reservationKeys = locks digests plan.product addresses plan.identity

/-- What also a restart keeps. -/
structure Durable (world : World) : Prop where
  keyed : ∀ operationId state, world.operations operationId = some state → Keyed state.toPlan
  housed : ∀ jobId job, world.jobs jobId = some job →
    (world.operations job.operationId).isSome
  named : ∀ operationId state, world.operations operationId = some state →
    state.operationId = operationId
  records : ∀ operationId state, world.operations operationId = some state → Records state
  task : ∀ operationId state, world.operations operationId = some state →
    ∃ job, world.jobs state.jobId = some job ∧ job.operationId = operationId
  first : ∀ operationId state jobId job, world.operations operationId = some state →
    Early state.checkpoint → world.jobs jobId = some job → job.operationId = operationId →
      jobId = state.jobId
  discarded : ∀ operationId state job, world.operations operationId = some state →
    state.checkpoint = .reconciledNotDispatched → world.jobs state.jobId = some job →
      job.active = false
  approved : ∀ operationId state nonce, world.operations operationId = some state →
    state.reviewNonce = some nonce →
      .reviewed operationId nonce (reviewed state) ∈ world.log
  authorised : ∀ operationId state, world.operations operationId = some state →
    Installing state.checkpoint → Executed operationId (reviewed state) world.log
  certificates : ∀ operationId state, world.operations operationId = some state →
    issuedFor operationId world.log = state.certificateId.toList
  unknown : ∀ operationId, world.operations operationId = none →
    ∀ event ∈ world.log, Event.operation event ≠ operationId
  justified : Justified world.log
  held : ∀ operationId state, world.operations operationId = some state →
    ¬Finished state.checkpoint → ∀ key ∈ state.reservationKeys,
      world.reservations key = some operationId
  released : ∀ operationId state, world.operations operationId = some state →
    Finished state.checkpoint → ∀ key ∈ state.reservationKeys,
      world.reservations key ≠ some operationId
  listed : ∀ jobId job, world.jobs jobId = some job → jobId ∈ world.jobIds

structure Invariant (world : World) : Prop extends Durable world where
  pending : ∀ jobId job, world.jobs jobId = some job → job.status = .pending →
    ∃ state, world.operations job.operationId = some state ∧ state.jobId = jobId ∧
      Waiting job.action state
  live : ∀ operationId state job, world.operations operationId = some state →
    world.jobs state.jobId = some job → job.active = true → Live state.state

def issuedPermits (world : World) : Set Permit
  | .worker jobId => (world.jobs jobId).isSome
  | .csr operationId =>
    ∃ state, world.operations operationId = some state ∧ ¬Early state.checkpoint
  | .install operationId =>
    ∃ state, world.operations operationId = some state ∧ Dispatched state.checkpoint

def spentPermits (world : World) : List Permit := world.log.filterMap permitOf

def SameTask (job later : Job) : Prop :=
  later.operationId = job.operationId ∧ later.action = job.action ∧
    later.createdBy = job.createdBy

/-- What the steps of the other threads do: rows keep their plan and are replaced under
higher revisions, and only its own worker changes the status of a task. -/
structure Evolves (owned : Set Permit) (before after : World) : Prop where
  rows : ∀ operationId state, before.operations operationId = some state →
    ∃ later, after.operations operationId = some later ∧ later.toPlan = state.toPlan ∧
      (later = state ∨ state.writeRevision < later.writeRevision)
  jobs : ∀ jobId job, before.jobs jobId = some job → ∃ later, after.jobs jobId = some later ∧
    SameTask job later ∧ (job.status ≠ .pending → later.status ≠ .pending) ∧
      (job.active = false → later.active = false)
  mine : ∀ jobId job later, Permit.worker jobId ∈ owned → before.jobs jobId = some job →
    after.jobs jobId = some later → later.status = job.status
  log : before.log <:+ after.log

def rules : Discipline World Permit where
  rely owned before after := Evolves owned before after ∧ Invariant after
  guarantee owned before after :=
    (∀ others, Disjoint owned others → others ⊆ issuedPermits before →
      Evolves others before after) ∧ Invariant after
  issued := issuedPermits
  spent := spentPermits

omit digests in
theorem same_task_refl (job : Job) : SameTask job job := ⟨rfl, rfl, rfl⟩

omit digests in
theorem evolves_refl (owned : Set Permit) (world : World) : Evolves owned world world where
  rows := fun _ state found => ⟨state, found, rfl, .inl rfl⟩
  jobs := fun _ job found => ⟨job, found, same_task_refl job, id, id⟩
  mine := by
    intro jobId job later _ found again
    rw [found] at again
    cases again
    rfl
  log := List.suffix_rfl

omit digests in
theorem evolves_trans {owned : Set Permit} {first second third : World}
    (early : Evolves owned first second) (late : Evolves owned second third) :
    Evolves owned first third where
  rows := by
    intro operationId state found
    obtain ⟨middle, reached, plan, kept⟩ := early.rows operationId state found
    obtain ⟨last, final, again, more⟩ := late.rows operationId middle reached
    refine ⟨last, final, again.trans plan, ?_⟩
    rcases kept with rfl | newer
    · exact more
    · rcases more with rfl | newest
      · exact .inr newer
      · exact .inr (Nat.lt_trans newer newest)
  jobs := by
    intro jobId job found
    obtain ⟨middle, reached, ⟨operation, action, creator⟩, begun, ended⟩ :=
      early.jobs jobId job found
    obtain ⟨last, final, ⟨operation', action', creator'⟩, begun', ended'⟩ :=
      late.jobs jobId middle reached
    exact ⟨last, final, ⟨operation'.trans operation, action'.trans action,
      creator'.trans creator⟩, begun' ∘ begun, ended' ∘ ended⟩
  mine := by
    intro jobId job last own found final
    obtain ⟨middle, reached, -⟩ := early.jobs jobId job found
    exact (late.mine jobId middle last own reached final).trans
      (early.mine jobId job middle own found reached)
  log := early.log.trans late.log

theorem rely_trans (owned : Set Permit) (first second third : World)
    (early : rules.rely owned first second) (late : rules.rely owned second third) :
    rules.rely owned first third :=
  ⟨evolves_trans early.1 late.1, late.2⟩

theorem rely_settles (owned : Set Permit) (first second : World)
    (early : rules.rely owned first second) : rules.rely owned second second :=
  ⟨evolves_refl owned second, early.2⟩

theorem guarantee_same (owned : Set Permit) (first second : World)
    (early : rules.rely owned first second) : rules.guarantee owned second second :=
  ⟨fun others _ _ => evolves_refl others second, early.2⟩

end Invariants

section Commits

variable [digests : Digests]

/-- A commit that replaces the row `base` by its successor `next`. -/
structure Commit (owned : Set Permit) (before after : World) (base next : Operation) : Prop where
  row : before.operations base.operationId = some base
  operations : after.operations =
    Function.update before.operations base.operationId (some next)
  plan : next.toPlan = base.toPlan
  revision : base.writeRevision < next.writeRevision
  jobs : ∀ jobId job, before.jobs jobId = some job → ∃ later, after.jobs jobId = some later ∧
    SameTask job later ∧ (later.status = job.status ∨
      later.active = false ∧ job.status ≠ .pending ∧ Permit.worker jobId ∈ owned)
  fresh : ∀ jobId job, before.jobs jobId = none → after.jobs jobId = some job →
    jobId = next.jobId
  task : ∃ job, after.jobs next.jobId = some job ∧ job.operationId = base.operationId ∧
    (job.active = true → Live next.state) ∧ (job.status = .pending → Waiting job.action next)
  begun : ∀ job, before.jobs base.jobId = some job → job.status ≠ .pending
  early : Early next.checkpoint →
    Early base.checkpoint ∧ next.jobId = base.jobId
  records : Records next
  dispatched : Dispatched base.checkpoint → Dispatched next.checkpoint
  log : ∃ events, after.log = events ++ before.log ∧
    ∀ event ∈ events, permitOf event = none ∧ Event.operation event = base.operationId
  approved : ∀ nonce, next.reviewNonce = some nonce →
    .reviewed base.operationId nonce (reviewed next) ∈ after.log
  authorised : Installing next.checkpoint →
    Executed base.operationId (reviewed next) after.log
  certificates : issuedFor base.operationId after.log = next.certificateId.toList
  justified : Justified after.log
  held : ¬Finished next.checkpoint → ∀ key ∈ base.reservationKeys,
    after.reservations key = some base.operationId
  released : Finished next.checkpoint → ∀ key ∈ base.reservationKeys,
    after.reservations key ≠ some base.operationId
  others : ∀ key operationId, operationId ≠ base.operationId →
    (after.reservations key = some operationId ↔ before.reservations key = some operationId)
  listed : ∀ jobId job, after.jobs jobId = some job → jobId ∈ after.jobIds

variable {owned : Set Permit} {before after : World} {base next : Operation}

omit digests in
theorem issued_for_append (operationId : String) (events log : List Event) :
    issuedFor operationId (events ++ log) =
      issuedFor operationId events ++ issuedFor operationId log :=
  List.filterMap_append

variable {operationId : String}

omit digests in
theorem issued_for_other {events : List Event}
    (apart : ∀ event ∈ events, Event.operation event ≠ operationId) :
    issuedFor operationId events = [] := by
  rw [issuedFor, List.filterMap_eq_nil_iff]
  intro event inside
  have differs := apart event inside
  cases event with
  | issued other certificateId => exact if_neg differs
  | _ => rfl

omit digests in
theorem executed_append {content : Reviewed} {events log : List Event}
    (executed : Executed operationId content log) :
    Executed operationId content (events ++ log) :=
  executed.imp fun _ inside => List.mem_append_right events inside

omit digests in
theorem commit_row (commit : Commit owned before after base next) :
    after.operations base.operationId = some next := by
  rw [commit.operations, Function.update_self]

omit digests in
theorem commit_other (commit : Commit owned before after base next)
    (other : operationId ≠ base.operationId) :
    after.operations operationId = before.operations operationId := by
  rw [commit.operations, Function.update_of_ne other]

omit digests in
theorem commit_rows (commit : Commit owned before after base next) {state : Operation}
    (found : after.operations operationId = some state) :
    operationId = base.operationId ∧ state = next ∨
      operationId ≠ base.operationId ∧ before.operations operationId = some state := by
  by_cases same : operationId = base.operationId
  · subst same
    rw [commit_row commit] at found
    cases found
    exact .inl ⟨rfl, rfl⟩
  · rw [commit_other commit same] at found
    exact .inr ⟨same, found⟩

section

variable (commit : Commit owned before after base next)
include commit

omit digests in
theorem commit_job {jobId : String} {later : Job} (found : after.jobs jobId = some later)
    (foreign : later.operationId ≠ base.operationId) :
    ∃ job, before.jobs jobId = some job ∧ SameTask job later := by
  cases old : before.jobs jobId with
  | none =>
    have here := commit.fresh jobId later old found
    obtain ⟨job, task, owner, -⟩ := commit.task
    rw [← here, found] at task
    cases task
    exact absurd owner foreign
  | some job =>
    obtain ⟨again, reached, same, -⟩ := commit.jobs jobId job old
    rw [found] at reached
    cases reached
    exact ⟨job, rfl, same⟩

theorem commit_durable (invariant : Invariant before) : Durable after := by
  obtain ⟨events, log, about⟩ := commit.log
  have name := invariant.named _ _ commit.row
  refine
    { keyed := ?_, housed := ?_, named := ?_, records := ?_, task := ?_, first := ?_,
      discarded := ?_, approved := ?_, authorised := ?_, certificates := ?_, unknown := ?_,
      justified := commit.justified, held := ?_, released := ?_, listed := commit.listed }
  · intro operationId state found
    rcases commit_rows commit found with ⟨rfl, rfl⟩ | ⟨-, old⟩
    · exact commit.plan ▸ invariant.keyed _ base commit.row
    · exact invariant.keyed operationId state old
  · intro jobId job found
    by_cases here : job.operationId = base.operationId
    · rw [here, commit_row commit]
      rfl
    · obtain ⟨was, known, same⟩ := commit_job commit found here
      rw [commit_other commit here, same.1]
      exact invariant.housed jobId was known
  · intro operationId state found
    rcases commit_rows commit found with ⟨rfl, rfl⟩ | ⟨-, old⟩
    · exact congrArg Plan.operationId commit.plan
    · exact invariant.named operationId state old
  · intro operationId state found
    rcases commit_rows commit found with ⟨rfl, rfl⟩ | ⟨-, old⟩
    · exact commit.records
    · exact invariant.records operationId state old
  · intro operationId state found
    rcases commit_rows commit found with ⟨rfl, rfl⟩ | ⟨-, old⟩
    · obtain ⟨job, task, owner, -⟩ := commit.task
      exact ⟨job, task, owner⟩
    · obtain ⟨job, task, owner⟩ := invariant.task operationId state old
      obtain ⟨later, reached, same, -⟩ := commit.jobs _ job task
      exact ⟨later, reached, same.1.trans owner⟩
  · intro operationId state jobId job found early task owner
    rcases commit_rows commit found with ⟨rfl, rfl⟩ | ⟨foreign, old⟩
    · obtain ⟨earlier, stays⟩ := commit.early early
      cases known : before.jobs jobId with
      | none => exact commit.fresh jobId job known task
      | some was =>
        obtain ⟨later, reached, same, -⟩ := commit.jobs jobId was known
        rw [task] at reached
        cases reached
        rw [stays]
        exact invariant.first _ _ jobId was commit.row earlier known (same.1.symm.trans owner)
    · obtain ⟨was, known, same⟩ := commit_job commit task (owner ▸ foreign)
      exact invariant.first operationId state jobId was old early known (same.1.symm.trans owner)
  · intro operationId state job found discarded task
    rcases commit_rows commit found with ⟨rfl, rfl⟩ | ⟨foreign, old⟩
    · obtain ⟨own, reached, -, live, -⟩ := commit.task
      rw [task] at reached
      cases reached
      have records := commit.records
      rw [Records, discarded] at records
      by_contra active
      have alive := live (Bool.eq_true_of_not_eq_false active)
      rw [records.1] at alive
      rcases alive with wrong | wrong | wrong <;> cases wrong
    · obtain ⟨was, known, owner⟩ := invariant.task operationId state old
      have idle := invariant.discarded operationId state was old discarded known
      obtain ⟨later, reached, -, status⟩ := commit.jobs _ was known
      rw [task] at reached
      cases reached
      rcases status with same | ⟨ended, -⟩
      · rw [Job.active, same]
        exact idle
      · exact ended
  · intro operationId state nonce found recorded
    rcases commit_rows commit found with ⟨rfl, rfl⟩ | ⟨-, old⟩
    · exact commit.approved nonce recorded
    · rw [log]
      exact List.mem_append_right events (invariant.approved operationId state nonce old recorded)
  · intro operationId state found installing
    rcases commit_rows commit found with ⟨rfl, rfl⟩ | ⟨-, old⟩
    · exact commit.authorised installing
    · rw [log]
      exact executed_append (invariant.authorised operationId state old installing)
  · intro operationId state found
    rcases commit_rows commit found with ⟨rfl, rfl⟩ | ⟨foreign, old⟩
    · exact commit.certificates
    · rw [log, issued_for_append, issued_for_other fun event inside =>
        (about event inside).2 ▸ Ne.symm foreign, List.nil_append]
      exact invariant.certificates operationId state old
  · intro operationId missing event inside
    have foreign : operationId ≠ base.operationId := by
      rintro rfl
      rw [commit_row commit] at missing
      cases missing
    rw [log] at inside
    rcases List.mem_append.mp inside with now | earlier
    · rw [(about event now).2]
      exact Ne.symm foreign
    · rw [commit_other commit foreign] at missing
      exact invariant.unknown operationId missing event earlier
  · intro operationId state found unfinished key inside
    rcases commit_rows commit found with ⟨rfl, rfl⟩ | ⟨foreign, old⟩
    · exact commit.held unfinished key (congrArg Plan.reservationKeys commit.plan ▸ inside)
    · exact (commit.others key operationId foreign).mpr
        (invariant.held operationId state old unfinished key inside)
  · intro operationId state found finished key inside
    rcases commit_rows commit found with ⟨rfl, rfl⟩ | ⟨foreign, old⟩
    · exact commit.released finished key (congrArg Plan.reservationKeys commit.plan ▸ inside)
    · rw [Ne, commit.others key operationId foreign]
      exact invariant.released operationId state old finished key inside

theorem commit_invariant (invariant : Invariant before) : Invariant after := by
  refine { commit_durable commit invariant with pending := ?_, live := ?_ }
  · intro jobId job found waiting
    by_cases fresh : jobId = next.jobId
    · subst fresh
      obtain ⟨own, reached, owner, -, waits⟩ := commit.task
      rw [found] at reached
      cases reached
      rw [owner]
      exact ⟨next, commit_row commit, rfl, waits waiting⟩
    · cases known : before.jobs jobId with
      | none => exact absurd (commit.fresh jobId job known found) fresh
      | some was =>
        obtain ⟨later, reached, same, status⟩ := commit.jobs jobId was known
        rw [found] at reached
        cases reached
        have still : was.status = .pending := by
          rcases status with equal | ⟨ended, -⟩
          · exact equal ▸ waiting
          · rw [Job.active, waiting] at ended
            cases ended
        obtain ⟨state, row, owner, waits⟩ := invariant.pending jobId was known still
        by_cases here : was.operationId = base.operationId
        · rw [here, commit.row] at row
          cases row
          rw [← owner] at known
          exact absurd still (commit.begun was known)
        · rw [same.1, same.2.1]
          exact ⟨state, by rwa [commit_other commit here], owner, waits⟩
  · intro operationId state job found task active
    rcases commit_rows commit found with ⟨rfl, rfl⟩ | ⟨foreign, old⟩
    · obtain ⟨own, reached, -, live, -⟩ := commit.task
      rw [task] at reached
      cases reached
      exact live active
    · obtain ⟨was, known, owner⟩ := invariant.task operationId state old
      obtain ⟨later, reached, -, status⟩ := commit.jobs _ was known
      rw [task] at reached
      cases reached
      refine invariant.live operationId state was old known ?_
      rcases status with same | ⟨ended, -⟩
      · rw [Job.active, ← same]
        exact active
      · rw [ended] at active
        cases active

end

omit digests in
theorem commit_evolves (commit : Commit owned before after base next) {others : Set Permit}
    (apart : Disjoint owned others) : Evolves others before after where
  rows := by
    intro operationId state found
    by_cases same : operationId = base.operationId
    · subst same
      rw [commit.row] at found
      cases found
      exact ⟨next, commit_row commit, commit.plan, .inr commit.revision⟩
    · exact ⟨state, by rwa [commit_other commit same], rfl, .inl rfl⟩
  jobs := by
    intro jobId job found
    obtain ⟨later, reached, same, status⟩ := commit.jobs jobId job found
    refine ⟨later, reached, same, ?_, ?_⟩
    · intro begun waiting
      rcases status with equal | ⟨ended, -⟩
      · exact begun (equal ▸ waiting)
      · rw [Job.active, waiting] at ended
        cases ended
    · intro idle
      rcases status with equal | ⟨ended, -⟩
      · rw [Job.active, equal]
        exact idle
      · exact ended
  mine := by
    intro jobId job later theirs found final
    obtain ⟨again, reached, -, status⟩ := commit.jobs jobId job found
    rw [final] at reached
    cases reached
    rcases status with same | ⟨-, -, mine⟩
    · exact same
    · exact absurd theirs (Set.disjoint_left.mp apart mine)
  log := by
    obtain ⟨events, log, -⟩ := commit.log
    exact ⟨events, log.symm⟩

section

variable (commit : Commit owned before after base next)
include commit

theorem commit_guarantee (invariant : Invariant before) : rules.guarantee owned before after :=
  ⟨fun _ apart _ => commit_evolves commit apart, commit_invariant commit invariant⟩

theorem commit_spent :
    rules.spent after = rules.spent before := by
  obtain ⟨events, log, about⟩ := commit.log
  have nothing : events.filterMap permitOf = [] :=
    List.filterMap_eq_nil_iff.mpr fun event inside => (about event inside).1
  change after.log.filterMap permitOf = before.log.filterMap permitOf
  rw [log, List.filterMap_append, nothing, List.nil_append]

theorem commit_issued :
    rules.issued before ⊆ rules.issued after := by
  rintro (jobId | operationId | operationId) held
  · obtain ⟨job, found⟩ := Option.isSome_iff_exists.mp held
    obtain ⟨later, reached, -⟩ := commit.jobs jobId job found
    exact Option.isSome_iff_exists.mpr ⟨later, reached⟩
  · obtain ⟨state, found, late⟩ := held
    by_cases same : operationId = base.operationId
    · subst same
      rw [commit.row] at found
      cases found
      exact ⟨next, commit_row commit, fun early => late (commit.early early).1⟩
    · exact ⟨state, by rwa [commit_other commit same], late⟩
  · obtain ⟨state, found, sent⟩ := held
    by_cases same : operationId = base.operationId
    · subst same
      rw [commit.row] at found
      cases found
      exact ⟨next, commit_row commit, commit.dispatched sent⟩
    · exact ⟨state, by rwa [commit_other commit same], sent⟩

theorem commit_fair :
    rules.Fair owned before after :=
  Discipline.fair_unspent (commit_issued commit) (commit_spent commit)

end

end Commits

end Atlaso.Vcf.CertificateInvariant
