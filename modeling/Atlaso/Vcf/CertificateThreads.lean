import Atlaso.Library.Outcomes
import Atlaso.Vcf.CertificateSteps

/-!
The worker of a certificate task among all other requests.

Each part of the worker starts from the row that the part before left, and ends with the row
that it saved last. A failure anywhere leaves the worker with its permit, for the handler.
-/

namespace Atlaso.Vcf.CertificateThreads

open Library RequestThreads Outcomes CertificateOperations CertificateWorkflow
open CertificateInvariant CertificateSteps

variable [digests : Digests]

section Rules

variable {owned held : Set Permit} {world later : World} {base state : Operation}
  {jobId : String} {mode : Mode} {Result Next : Type}

instance : DecidablePred Early := fun checkpoint =>
  inferInstanceAs (Decidable (checkpoint = _ ∨ checkpoint = _))

instance : DecidablePred Finished := fun checkpoint =>
  inferInstanceAs (Decidable (checkpoint = _ ∨ checkpoint = _ ∨ checkpoint = _))

instance : DecidablePred Installing := fun checkpoint =>
  inferInstanceAs (Decidable (checkpoint = _ ∨ checkpoint = _ ∨ checkpoint = _ ∨ checkpoint = _))

instance : DecidablePred Dispatched := fun checkpoint =>
  inferInstanceAs (Decidable (checkpoint = _ ∨ checkpoint = _ ∨ checkpoint = _ ∨ checkpoint = _))

/-- A checkpoint that a plain save may put in the place of another. -/
def Onward (before after : Checkpoint) : Prop :=
  (Early after → Early before) ∧ (Dispatched before → Dispatched after) ∧
    (Installing after → Installing before) ∧ (Finished before → Finished after)

instance (before after : Checkpoint) : Decidable (Onward before after) :=
  inferInstanceAs (Decidable (_ ∧ _ ∧ _ ∧ _))

omit digests in
theorem successor_of (plan : state.toPlan = base.toPlan)
    (revision : state.writeRevision = base.writeRevision) (job : state.jobId = base.jobId)
    (certificate : state.certificateId = base.certificateId)
    (replacement : state.replacementCertificate = base.replacementCertificate)
    (nonce : state.reviewNonce = none ∨ state.reviewNonce = base.reviewNonce)
    (records : Records state) (before after : Checkpoint) (leaves : base.checkpoint = before)
    (reaches : state.checkpoint = after) (onward : Onward before after) :
    Successor base state := by
  subst leaves reaches
  exact
    { plan, revision, job, certificate, replacement, nonce, records,
      early := onward.1, dispatched := onward.2.1, installing := onward.2.2.1,
      finished := onward.2.2.2 }

variable {failed : Set Permit → String → World → Prop} {program : Steps Result}
  {post : Set Permit → Result → World → Prop}

theorem then_proceeds {between : Set Permit → Result → World → Prop}
    {post : Set Permit → Next → World → Prop} {next : Result → Steps Next}
    (first : rules.Proceeds between failed owned program world) (second : ∀ held result later,
      between held result later → rules.Proceeds post failed held (next result) later) :
    rules.Proceeds post failed owned (program >>= next) world :=
  Discipline.proceeds_bind rely_settles
    (Discipline.proceeds_weaken first second fun _ _ _ => id)

theorem reads_proceed (readOnly : program.ReadOnly) (here : At mode jobId owned base world) :
    rules.Proceeds (fun held _ later => At mode jobId held base later ∧ owned ⊆ held)
      (fun held _ later => Acts mode held later jobId) owned program world := by
  refine Discipline.proceeds_weaken (Discipline.proceeds_read_only (guarantee_same owned)
    (fun _ _ changed now => at_evolves now changed.1) readOnly here) ?_ ?_
  · rintro held _ later ⟨rfl, there⟩
    exact ⟨there, subset_rfl⟩
  · rintro held _ later ⟨rfl, there⟩
    exact there.acts

theorem observe_proceeds {read : World → Except String Result}
    (here : At mode jobId owned base world) :
    rules.Proceeds
      (fun held result later => At mode jobId held base later ∧ owned ⊆ held ∧
        ∃ seen, read seen = .ok result)
      (fun held _ later => Acts mode held later jobId) owned
      (Program.observe read) world := by
  refine Discipline.proceeds_observe (guarantee_same owned) ?_ ?_
  · intro seen result changed found last more
    exact ⟨at_evolves (at_evolves here changed.1) more.1, subset_rfl, seen, found⟩
  · intro seen error changed refused last more
    exact (at_evolves (at_evolves here changed.1) more.1).acts

theorem pure_proceeds {result : Result}
    (ends : ∀ later, rules.rely owned world later → post owned result later) :
    rules.Proceeds post failed owned (pure result) world :=
  ends

theorem refuse_proceeds {message : String} (acts : Acts mode owned world jobId) :
    rules.Proceeds post (fun held _ later => Acts mode held later jobId) owned
      (refuse message) world :=
  fun _ changed => acts_evolves acts changed.1

omit digests in
theorem read_only_require (condition : Bool) (message : String) :
    (require condition message).ReadOnly := by
  unfold require
  split <;> trivial

omit digests in
theorem read_only_material (state : Operation) : (readMaterial state).ReadOnly :=
  Program.read_only_observe _

omit digests in
theorem read_only_login (state : Operation) (credentials : Credentials) :
    (login state credentials).ReadOnly :=
  Program.read_only_observe _

omit digests in
theorem read_only_administrator (actor : String) : (requireAdministrator actor).ReadOnly :=
  Program.read_only_observe _

omit digests in
theorem read_only_compare (refusal : String) (state : Operation) (credentials : Credentials) :
    (compareTarget refusal state credentials).ReadOnly :=
  Program.read_only_bind (Program.read_only_observe _) fun _ => Program.read_only_observe _

omit digests in
theorem read_only_revalidate (state : Operation) (credentials : Credentials) :
    (revalidate state credentials).ReadOnly := by
  refine Program.read_only_bind (read_only_compare ..) fun _ => ?_
  refine Program.read_only_bind (read_only_material state) fun _ => ?_
  by_cases sddc : state.product = .sddc
  · rw [if_pos sddc]
    exact Program.read_only_bind (read_only_login ..) fun _ => Program.read_only_observe _
  · rw [if_neg sddc]
    trivial

end Rules

section Records

variable {world : World} {event : Event}

theorem record_invariant (invariant : Invariant world)
    (known : ∃ state, world.operations (Event.operation event) = some state)
    (just : Just world.log event) (plain : ∀ operationId, issuedFor operationId [event] = []) :
    Invariant (world.record event) where
  keyed := invariant.keyed
  housed := invariant.housed
  named := invariant.named
  records := invariant.records
  task := invariant.task
  first := invariant.first
  discarded := invariant.discarded
  approved := fun operationId state nonce found recorded =>
    List.mem_cons_of_mem event (invariant.approved operationId state nonce found recorded)
  authorised := fun operationId state found installing =>
    @executed_append _ _ [event] _ (invariant.authorised operationId state found installing)
  certificates := by
    intro operationId state found
    rw [World.record, ← List.singleton_append, issued_for_append, plain, List.nil_append]
    exact invariant.certificates operationId state found
  unknown := by
    intro operationId missing other inside
    rcases List.mem_cons.mp inside with rfl | earlier
    · rintro rfl
      obtain ⟨state, found⟩ := known
      rw [show world.operations _ = none from missing] at found
      cases found
    · exact invariant.unknown operationId missing other earlier
  justified := ⟨just, invariant.justified⟩
  held := invariant.held
  released := invariant.released
  listed := invariant.listed
  pending := invariant.pending
  live := invariant.live

omit digests in
theorem record_evolves (owned : Set Permit) (world : World) (event : Event) :
    Evolves owned world (world.record event) where
  rows := fun _ state found => ⟨state, found, rfl, .inl rfl⟩
  jobs := fun _ job found => ⟨job, found, same_task_refl job, id, id⟩
  mine := by
    intro jobId job later _ found again
    rw [show world.jobs jobId = some later from again] at found
    cases found
    rfl
  log := List.suffix_cons event world.log

variable {owned : Set Permit} {base : Operation} {permit : Permit} {mode : Mode} {later : World}
  {jobId : String}

theorem record_step (here : At mode jobId owned base later) (invariant : Invariant later)
    (spends : permitOf event = some permit) (mine : permit ∈ owned)
    (owner : Event.operation event = base.operationId) (just : Just later.log event)
    (plain : ∀ operationId, issuedFor operationId [event] = [])
    (other : ∀ jobId, permit ≠ .worker jobId) :
    rules.guarantee owned later (later.record event) ∧
      rules.Fair owned later (later.record event) ∧
        At mode jobId (rules.kept owned later (later.record event)) base (later.record event) := by
  have known : ∃ state, later.operations (Event.operation event) = some state := by
    obtain ⟨current, row, -⟩ := here.based
    exact ⟨current, owner ▸ row⟩
  have paid : rules.spent (later.record event) = [permit] ++ rules.spent later := by
    change List.filterMap permitOf (event :: later.log) = _
    rw [List.filterMap_cons_some spends]
    rfl
  refine ⟨⟨fun others _ _ => record_evolves others later event,
    record_invariant invariant known just plain⟩,
    ⟨subset_rfl, [permit], paid, List.nodup_singleton permit, ?_⟩, ?_⟩
  · intro token used
    rw [List.mem_singleton.mp used]
    exact mine
  · have there := at_evolves here (record_evolves owned later event)
    refine ⟨there.job, ?_, there.based, there.executed⟩
    cases mode with
    | worker =>
      obtain ⟨own, running⟩ := there.acts
      refine ⟨⟨.inl own, fun used => ?_⟩, running⟩
      rw [paid] at used
      rcases List.mem_append.mp used with now | before
      · exact absurd (List.mem_singleton.mp now).symm (other _)
      · exact before
    | reconciler => exact there.acts

end Records

section Preparation

variable {owned : Set Permit} {world : World} {base : Operation} {mode : Mode} {jobId : String}

theorem request_csr_proceeds {Answer : Type} {reply : World → Except String Answer}
    (here : At .worker jobId owned base world) (mine : Permit.csr base.operationId ∈ owned) :
    rules.Proceeds (fun held _ later => At .worker jobId held base later)
      (fun held _ later => Acts .worker held later jobId) owned
      (requestCsr base reply) world := by
  intro later changed
  have step := record_step (at_evolves here changed.1) changed.2
    (show permitOf (.csrRequested base.operationId) = _ from rfl) mine rfl trivial
    (fun _ => rfl) (fun _ wrong => nomatch wrong)
  refine ⟨step.1, step.2.1, ?_⟩
  dsimp only
  cases reply later with
  | ok answer => exact fun last more => at_evolves step.2.2 more.1
  | error message => exact fun last more => acts_evolves step.2.2.acts more.1

/-- The row waits for the CSR that was requested for it. -/
def Requested (state : Operation) : Prop :=
  Records state ∧ state.state = .preparing ∧
    (state.checkpoint = .csrDispatchPending ∧ state.product ≠ .sddc ∨
      state.checkpoint = .csrTaskSubmitted)

theorem collect_csr_proceeds (here : At .worker jobId owned base world)
    (mine : Permit.csr base.operationId ∈ owned) (records : Records base)
    (preparing : base.state = .preparing) (pending : base.checkpoint = .csrDispatchPending) :
    rules.Proceeds
      (fun held result later => At .worker jobId held result.1 later ∧ Requested result.1)
      (fun held _ later => Acts .worker held later jobId) owned (collectCsr base) world := by
  have facts := records
  rw [Records, pending] at facts
  unfold collectCsr
  cases product : base.product with
  | sddc =>
    dsimp only
    refine then_proceeds (request_csr_proceeds here mine) fun held task later there => ?_
    have successor : Successor base
        { base with nativeCsrTaskId := some task, checkpoint := .csrTaskSubmitted } :=
      successor_of rfl rfl rfl rfl rfl (.inr rfl) ⟨facts.1, facts.2, product, fun _ => rfl⟩
        .csrDispatchPending .csrTaskSubmitted pending rfl (by decide)
    refine then_proceeds (save_proceeds there successor (.inl preparing)
        .csrTaskSubmitted rfl (by decide))
      fun held result later after => ?_
    refine then_proceeds (observe_proceeds after.here) fun held csr later found => ?_
    refine pure_proceeds fun last more => ⟨at_evolves found.1 more.1, ?_⟩
    rw [after.outcome]
    exact ⟨successor.records, preparing, .inr rfl⟩
  | srm =>
    refine then_proceeds (request_csr_proceeds here mine) fun held csr later there => ?_
    refine pure_proceeds fun last more => ⟨at_evolves there more.1, records, preparing, ?_⟩
    exact .inl ⟨pending, fun wrong => by rw [product] at wrong; cases wrong⟩
  | vcenter =>
    refine then_proceeds (request_csr_proceeds here mine) fun held csr later there => ?_
    refine pure_proceeds fun last more => ⟨at_evolves there more.1, records, preparing, ?_⟩
    exact .inl ⟨pending, fun wrong => by rw [product] at wrong; cases wrong⟩

variable {before : World} {leaf : Metadata}

omit digests in
/-- What the transaction of `_issue` does when it commits. -/
theorem issuance_ok {csrPem : String} {final : World} {result : Operation}
    (done : issuance base csrPem before = .ok (final, result)) :
    admitted before base = true ∧ ∃ leaf certificates, ∃ state : Operation,
      state = preparedState { base with certificateId := some before.nextCertificate } leaf ∧
        result = saved state ∧
          final = World.recordAll
            (commitState state
              { before with certificates, nextCertificate := before.nextCertificate + 1 })
            [.issued base.operationId before.nextCertificate] := by
  unfold issuance at done
  by_cases admission : admitted before base = true
  · rw [if_pos admission] at done
    obtain ⟨snapshot, -, done⟩ := bind_ok_iff.mp done
    by_cases same : snapshot = base.caSnapshot
    · rw [if_pos same] at done
      obtain ⟨pem, -, done⟩ := bind_ok_iff.mp done
      obtain ⟨found, -, done⟩ := bind_ok_iff.mp done
      cases done
      exact ⟨admission, found.metadata, _, _, rfl, rfl, rfl⟩
    · rw [if_neg same] at done
      cases done
  · rw [if_neg admission] at done
    cases done

/-- The row has a certificate that its administrator can review, or that SDDC Manager has
still to validate. -/
def Prepared (state : Operation) : Prop :=
  Records state ∧
    (state.product = .sddc ∧ state.state = .preparing ∧ state.checkpoint = .certificateIssued ∨
      state.product ≠ .sddc ∧ state.state = .prepared ∧ state.checkpoint = .certificatePrepared)

omit digests in
theorem prepared_state {certificateId : Nat} (records : Records base)
    (received : base.checkpoint = .csrReceived) :
    Prepared (preparedState { base with certificateId := some certificateId } leaf) := by
  rw [Records, received] at records
  obtain ⟨-, unissued, csr, task⟩ := records
  have issued : Issued (preparedState { base with certificateId := some certificateId } leaf) :=
    ⟨rfl, rfl, csr, task⟩
  by_cases sddc : base.product = .sddc
  · have stage : (preparedState { base with certificateId := some certificateId } leaf).state =
        .preparing := if_pos sddc
    have checkpoint : (preparedState { base with certificateId := some certificateId }
        leaf).checkpoint = .certificateIssued := if_pos sddc
    refine ⟨?_, .inl ⟨sddc, stage, checkpoint⟩⟩
    rw [Records, checkpoint]
    exact ⟨.inl stage, issued, sddc, unissued.2.2⟩
  · have stage : (preparedState { base with certificateId := some certificateId } leaf).state =
        .prepared := if_neg sddc
    have checkpoint : (preparedState { base with certificateId := some certificateId }
        leaf).checkpoint = .certificatePrepared := if_neg sddc
    refine ⟨?_, .inr ⟨sddc, stage, checkpoint⟩⟩
    rw [Records, checkpoint]
    exact ⟨.inl stage, issued, fun wrong => absurd wrong sddc⟩

theorem issuance_commit {certificates : Nat → Option CaCertificate} (invariant : Invariant before)
    (acts : Acts mode owned before base.jobId)
    (row : before.operations base.operationId = some base)
    (received : base.checkpoint = .csrReceived) :
    Commit owned before
      (World.recordAll
        (commitState
          (preparedState { base with certificateId := some before.nextCertificate } leaf)
          { before with certificates, nextCertificate := before.nextCertificate + 1 })
        [.issued base.operationId before.nextCertificate]) base
      (saved (preparedState { base with certificateId := some before.nextCertificate } leaf)) := by
  have records := invariant.records _ base row
  have prepared := @prepared_state base leaf before.nextCertificate records received
  rw [Records, received] at records
  have unfinished : ¬Finished (preparedState
      { base with certificateId := some before.nextCertificate } leaf).checkpoint := by
    rcases prepared.2 with ⟨-, -, checkpoint⟩ | ⟨-, -, checkpoint⟩
    · rw [checkpoint]
      decide
    · rw [checkpoint]
      decide
  have open_ : ¬Finished base.checkpoint := by
    rw [received]
    decide
  have unissued : issuedFor base.operationId before.log = [] := by
    rw [invariant.certificates _ base row, records.2.1.1]
    rfl
  refine state_commit invariant row rfl rfl rfl prepared.1 ?_ ?_
    ⟨rfl, rfl, rfl, fun _ job found => ⟨job, found, same_task_refl job, .inl rfl⟩,
      fun _ job found => ⟨job, found⟩⟩
    (fun job found => acts_begun acts found) ?_ (fun _ => invariant.held _ base row open_)
    (fun finished => absurd finished unfinished) (fun _ _ _ => Iff.rfl) ?_ ?_ ?_ ?_
    ⟨trivial, invariant.justified⟩
  · rcases prepared.2 with ⟨-, -, checkpoint⟩ | ⟨-, -, checkpoint⟩
    · rw [checkpoint]
      exact fun wrong => absurd wrong (by decide)
    · rw [checkpoint]
      exact fun wrong => absurd wrong (by decide)
  · rw [received]
    exact fun wrong => absurd wrong (by decide)
  · intro job _ _
    rcases prepared.2 with ⟨-, stage, -⟩ | ⟨-, stage, -⟩
    · exact .inl stage
    · exact .inr (.inl stage)
  · intro event inside
    rw [List.mem_singleton.mp inside]
    exact ⟨rfl, rfl⟩
  · intro nonce recorded
    rw [show (preparedState { base with certificateId := some before.nextCertificate }
      leaf).reviewNonce = none from records.2.1.2.2] at recorded
    cases recorded
  · rcases prepared.2 with ⟨-, -, checkpoint⟩ | ⟨-, -, checkpoint⟩
    · rw [checkpoint]
      exact fun wrong => absurd wrong (by decide)
    · rw [checkpoint]
      exact fun wrong => absurd wrong (by decide)
  · rw [issued_for_append, unissued, List.append_nil]
    simp [issuedFor, preparedState]

theorem at_commit {after final : World} {next : Operation} (acts : Acts mode owned before jobId)
    (commit : Commit owned before after base next) (named : next.operationId = base.operationId)
    (job : next.jobId = jobId) (same : ∀ job later, before.jobs jobId = some job → after.jobs jobId
      = some later → later.status = job.status)
    (changed : rules.rely (rules.kept owned before after) after final) :
    At mode jobId (rules.kept owned before after) next final := by
  have acting := acts_commit acts commit same
  refine at_evolves ⟨job, acting, based_row (named ▸ commit_row commit), ?_⟩ changed.1
  rw [named]
  exact commit.authorised

theorem issue_proceeds (here : At mode jobId owned base world) (records : Records base)
    (received : base.checkpoint = .csrReceived) :
    rules.Proceeds
      (fun held result later => At mode jobId held result later ∧
        Prepared result)
      (fun held _ later => Acts mode held later jobId) owned
      (issueCertificate base) world := by
  unfold issueCertificate
  cases csr : base.csrPem with
  | none => exact refuse_proceeds here.acts
  | some csrPem =>
    refine then_proceeds (observe_proceeds here) fun held names later found => ?_
    refine then_proceeds (reads_proceed (read_only_require ..) found.1)
      fun held _ later found => ?_
    have there := found.1
    refine Discipline.proceeds_transact (guarantee_same held) ?_ ?_
    · intro middle final result changed done
      obtain ⟨admission, leaf, certificates, state, shape, rfl, rfl⟩ := issuance_ok done
      have now := at_evolves there changed.1
      have row := admitted_row now.based rfl rfl admission
      subst shape
      have commit := @issuance_commit digests held base mode middle leaf certificates changed.2
        (now.job ▸ now.acts) row received
      refine ⟨commit_guarantee commit changed.2, commit_fair commit, fun last more => ?_⟩
      refine ⟨at_commit now.acts commit rfl now.job ?_ more, prepared_state records received⟩
      intro job later known final
      obtain ⟨was, reached, -, same⟩ := commit_state_jobs _ _ _ later final
      rw [show middle.jobs _ = some was from reached] at known
      cases known
      exact same
    · intro middle error changed refused last more
      exact (at_evolves (at_evolves there changed.1) more.1).acts

end Preparation

section Validation

variable {owned : Set Permit} {world : World} {base : Operation} {mode : Mode} {jobId : String}

/-- A row of SDDC Manager whose certificate has to be validated: before the review, or once
more before the installation. -/
def Validating (installing : Bool) (state : Operation) : Prop :=
  Records state ∧ state.product = .sddc ∧
    match installing with
    | false => state.checkpoint = .certificateIssued ∨
        state.checkpoint = .validationDispatchPending ∨
          state.checkpoint = .validationTaskSubmitted
    | true => state.checkpoint = .queuedInstallation

variable {installing : Bool}

omit digests in
theorem issued_records {state : Operation} (validating : Validating installing state) :
    Issued state ∧ state.reviewNonce = none ∧ (installing = true → Validated state) ∧
      (installing = false → Within state .preparing) := by
  obtain ⟨records, -, place⟩ := validating
  cases installing with
  | false =>
    rcases place with at_ | at_ | at_
    · rw [Records, at_] at records
      exact ⟨records.2.1, records.2.2.2, fun wrong => absurd wrong Bool.false_ne_true, fun _ => records.1⟩
    · rw [Records, at_] at records
      exact ⟨records.2.1, records.2.2.2, fun wrong => absurd wrong Bool.false_ne_true, fun _ => records.1⟩
    · rw [Records, at_] at records
      exact ⟨records.2.1, records.2.2.2.1, fun wrong => absurd wrong Bool.false_ne_true, fun _ => records.1⟩
  | true =>
    rw [Records, show state.checkpoint = _ from place] at records
    exact ⟨records.2.1, records.2.2.2, fun _ => records.2.2.1, fun wrong => absurd wrong.symm Bool.false_ne_true⟩

omit digests in
theorem onward_validation {state : Operation} (validating : Validating false state)
    {reached : Checkpoint} (reaches : reached = .validationDispatchPending ∨
      reached = .validationTaskSubmitted ∨ reached = .certificatePrepared) :
    Onward state.checkpoint reached := by
  rcases validating.2.2 with at_ | at_ | at_ <;> rw [at_] <;>
    rcases reaches with rfl | rfl | rfl <;> decide

theorem dispatch_validation_proceeds {found : Material} (here : At mode jobId owned base world)
    (validating : Validating false base) (allowed : Allowed mode base.state) :
    rules.Proceeds
      (fun held result later => At mode jobId held result.1 later ∧
        Validating false result.1 ∧ Validated result.1 ∧
          result.1.replacementCertificate = base.replacementCertificate)
      (fun held _ later => Acts mode held later jobId) owned
      (dispatchValidation base found) world := by
  obtain ⟨issued, nonce, -, opening⟩ := issued_records validating
  have records : Records { base with checkpoint := .validationDispatchPending } :=
    ⟨opening rfl, issued, validating.2.1, nonce⟩
  have successor : Successor base { base with checkpoint := .validationDispatchPending } :=
    successor_of rfl rfl rfl rfl rfl (.inr rfl) records base.checkpoint
      .validationDispatchPending rfl rfl (onward_validation validating (.inl rfl))
  refine then_proceeds (save_proceeds here successor allowed
    .validationDispatchPending rfl (by decide)) fun held middle later after => ?_
  obtain ⟨rfl, there, -, -, -⟩ := after
  refine then_proceeds (observe_proceeds there) fun held validation later seen => ?_
  have submitted : Records
      { saved { base with checkpoint := .validationDispatchPending } with
        nativeValidationId := some validation, checkpoint := .validationTaskSubmitted } :=
    ⟨opening rfl, issued, validating.2.1, nonce, fun _ => rfl⟩
  have again : Successor (saved { base with checkpoint := .validationDispatchPending })
      { saved { base with checkpoint := .validationDispatchPending } with
        nativeValidationId := some validation, checkpoint := .validationTaskSubmitted } :=
    successor_of rfl rfl rfl rfl rfl (.inr rfl) submitted .validationDispatchPending
      .validationTaskSubmitted rfl rfl (by decide)
  refine then_proceeds (save_proceeds seen.1 again allowed .validationTaskSubmitted rfl
    (by decide)) fun held last later after => ?_
  obtain ⟨rfl, there, -, -, -⟩ := after
  exact pure_proceeds fun final changed => ⟨at_evolves there changed.1,
    ⟨submitted, validating.2.1, .inr (.inr rfl)⟩, fun _ => rfl, rfl⟩

theorem submit_validation_proceeds {found : Material} (here : At mode jobId owned base world)
    (validating : Validating installing base) (allowed : Allowed mode base.state) :
    rules.Proceeds
      (fun held result later => At mode jobId held result.1 later ∧
        Validating installing result.1 ∧ Validated result.1 ∧
          result.1.replacementCertificate = base.replacementCertificate)
      (fun held _ later => Acts mode held later jobId) owned
      (submitValidation base found) world := by
  obtain ⟨issued, nonce, valid, opening⟩ := issued_records validating
  unfold submitValidation
  cases known : base.nativeValidationId with
  | some validation =>
    refine pure_proceeds fun later changed =>
      ⟨at_evolves here changed.1, validating, ?_, rfl⟩
    exact fun _ => Option.isSome_of_eq_some known
  | none =>
    cases installing with
    | true =>
      have wrong := valid rfl validating.2.1
      rw [known] at wrong
      cases wrong
    | false => exact dispatch_validation_proceeds here validating allowed

/-- The row after a native validation. -/
def Checked (installing : Bool) (state : Operation) : Prop :=
  Records state ∧
    match installing with
    | false => state.state = .prepared ∧ state.checkpoint = .certificatePrepared
    | true => state.state = .installing ∧ state.checkpoint = .queuedInstallation

theorem sddc_validation_proceeds {credentials : Credentials} (here : At mode jobId owned base world)
    (validating : Validating installing base) (allowed : Allowed mode base.state) :
    rules.Proceeds
      (fun held result later => At mode jobId held result later ∧
        Checked installing result ∧
          result.replacementCertificate = base.replacementCertificate)
      (fun held _ later => Acts mode held later jobId) owned
      (sddcValidation installing base credentials) world := by
  unfold sddcValidation
  refine then_proceeds (observe_proceeds here) fun held found later seen => ?_
  refine then_proceeds (reads_proceed (read_only_login ..) seen.1) fun held _ later seen => ?_
  refine then_proceeds (submit_validation_proceeds seen.1 validating allowed)
    fun held submitted later after => ?_
  obtain ⟨state, validation⟩ := submitted
  obtain ⟨there, still, validated, replacement⟩ := after
  dsimp only at there still validated replacement ⊢
  refine then_proceeds (observe_proceeds there) fun held _ later seen => ?_
  obtain ⟨issued, nonce, -, opening⟩ := issued_records still
  have allowedLast : Allowed mode (validatedState installing state).state := by
    cases mode with
    | worker =>
      cases installing with
      | false => exact .inr (.inl rfl)
      | true => exact .inr (.inr rfl)
    | reconciler => trivial
  have records : Records (validatedState installing state) := by
    cases installing with
    | false => exact ⟨.inl rfl, issued, validated⟩
    | true => exact ⟨.inl rfl, issued, validated, nonce⟩
  have successor : Successor state (validatedState installing state) := by
    cases installing with
    | false =>
      exact successor_of rfl rfl rfl rfl rfl (.inr rfl) records state.checkpoint
        .certificatePrepared rfl rfl (onward_validation still (.inr (.inr rfl)))
    | true =>
      exact successor_of rfl rfl rfl rfl rfl (.inr rfl) records .queuedInstallation
        .queuedInstallation still.2.2 rfl (by decide)
  have unfinished : ¬Finished (validatedState installing state).checkpoint := by
    cases installing with
    | false => exact fun wrong => absurd wrong (show ¬Finished .certificatePrepared by decide)
    | true => exact fun wrong => absurd wrong (show ¬Finished .queuedInstallation by decide)
  refine Discipline.proceeds_weaken (save_proceeds seen.1 successor allowedLast _ rfl unfinished)
    ?_ (fun _ _ _ => id)
  intro held result later after
  refine ⟨after.here, ?_, ?_⟩
  · rw [after.outcome]
    refine ⟨records, ?_⟩
    cases installing with
    | false => exact ⟨rfl, rfl⟩
    | true => exact ⟨rfl, rfl⟩
  · rw [after.outcome]
    exact replacement

end Validation

end Atlaso.Vcf.CertificateThreads
