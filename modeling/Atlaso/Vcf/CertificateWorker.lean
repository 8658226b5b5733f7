import Atlaso.Vcf.CertificateThreads

/-!
The worker of a certificate task from its start to its last commit.

The installation is sent under the permit that the commit of its checkpoint issues, and for
the content that the row of that commit was approved for. A failure marks the row for
recovery only when the row is still of this task.
-/

namespace Atlaso.Vcf.CertificateWorker

open Library RequestThreads Outcomes CertificateOperations CertificateWorkflow
open CertificateInvariant CertificateSteps CertificateThreads

variable [digests : Digests]

variable {owned held : Set Permit} {world later : World} {base state : Operation}
  {jobId : String} {mode : Mode}

section Preparation

omit digests in
theorem requested_facts (requested : Requested base) :
    Unissued base ∧ HasTask base ∧
      Onward base.checkpoint .csrReceived := by
  obtain ⟨records, -, ⟨at_, other⟩ | at_⟩ := requested
  · rw [Records, at_] at records
    exact ⟨records.2, fun sddc => absurd sddc other, at_ ▸ by decide⟩
  · rw [Records, at_] at records
    exact ⟨records.2.1, records.2.2.2, at_ ▸ by decide⟩

variable {credentials : Credentials}

/-- The row after the SDDC Manager part of a preparation. -/
theorem validate_sddc_proceeds (here : At mode jobId owned base world) (prepared : Prepared base) :
    rules.Proceeds
      (fun held result later => At mode jobId held result later ∧ Checked false result)
      (fun held _ later => Acts mode held later jobId) owned
      (validateSddc false base credentials) world := by
  unfold validateSddc
  rcases prepared with ⟨records, ⟨sddc, stage, at_⟩ | ⟨other, stage, at_⟩⟩
  · rw [if_pos sddc]
    have allowed : Allowed mode base.state := by
      cases mode with
      | worker => exact .inl stage
      | reconciler => trivial
    refine Discipline.proceeds_weaken
      (sddc_validation_proceeds here ⟨records, sddc, .inl at_⟩ allowed) ?_ (fun _ _ _ => id)
    exact fun held result later after => ⟨after.1, after.2.1⟩
  · rw [if_neg other]
    exact pure_proceeds fun later changed =>
      ⟨at_evolves here changed.1, records, stage, at_⟩

theorem prepare_body_proceeds (here : At .worker jobId owned base world) (records : Records base)
    (preparing : base.state = .preparing) (queued : base.checkpoint = .queuedPreparation) :
    rules.Proceeds
      (fun held result later => At .worker jobId held result later ∧ Checked false result)
      (fun held _ later => Acts .worker held later jobId) owned
      (prepareBody base credentials) world := by
  unfold prepareBody
  refine then_proceeds (reads_proceed (read_only_compare ..) here) fun held _ later seen => ?_
  refine then_proceeds (reads_proceed (read_only_login ..) seen.1) fun held _ later seen => ?_
  refine then_proceeds (reads_proceed (read_only_administrator _) seen.1)
    fun held _ later seen => ?_
  rw [Records, queued] at records
  have successor : Successor base { base with checkpoint := .csrDispatchPending } :=
    successor_of rfl rfl rfl rfl rfl (.inr rfl) records .queuedPreparation .csrDispatchPending
      queued rfl (by decide)
  refine then_proceeds (save_proceeds seen.1 successor (.inl preparing) .csrDispatchPending rfl
    (by decide)) fun held pending later after => ?_
  obtain ⟨rfl, there, -, csr, -⟩ := after
  have mine : Permit.csr base.operationId ∈ held := by
    refine csr ?_ ?_
    · rw [queued]
      decide
    · exact fun wrong => absurd wrong (show ¬Early .csrDispatchPending by decide)
  refine then_proceeds (collect_csr_proceeds there mine records preparing rfl)
    fun held collected later after => ?_
  obtain ⟨state, csrPem⟩ := collected
  obtain ⟨there, requested⟩ := after
  dsimp only at there requested ⊢
  obtain ⟨unissued, task, onward⟩ := requested_facts requested
  have received : Records { state with csrPem := some csrPem, checkpoint := .csrReceived } :=
    ⟨.inl requested.2.1, unissued, rfl, task⟩
  have next : Successor state { state with csrPem := some csrPem, checkpoint := .csrReceived } :=
    successor_of rfl rfl rfl rfl rfl (.inr rfl) received state.checkpoint .csrReceived rfl rfl
      onward
  refine then_proceeds (save_proceeds there next (.inl requested.2.1) .csrReceived rfl
    (by decide)) fun held saved_ later after => ?_
  obtain ⟨rfl, there, -, -, -⟩ := after
  refine then_proceeds (issue_proceeds there received rfl) fun held issued later after => ?_
  exact validate_sddc_proceeds after.1 after.2

end Preparation

section Ending

theorem job_step {job replaced : Job} (invariant : Invariant world)
    (mine : Permit.worker jobId ∈ owned) (found : world.jobs jobId = some job)
    (same : SameTask job replaced) (begun : replaced.status ≠ .pending)
    (ended : replaced.active = true → job.active = true) :
    rules.guarantee owned world (world.withJob jobId replaced) ∧
      rules.Fair owned world (world.withJob jobId replaced) := by
  have jobs : ∀ other later, (world.withJob jobId replaced).jobs other = some later →
      ∃ was, world.jobs other = some was ∧ SameTask was later ∧
        (later.active = true → was.active = true) ∧
          (later.status = .pending → later = was) := by
    intro other later final
    by_cases here : other = jobId
    · subst here
      rw [World.with_job_self] at final
      cases final
      exact ⟨job, found, same, ended, fun waiting => absurd waiting begun⟩
    · rw [World.with_job_other world replaced here] at final
      exact ⟨later, final, same_task_refl later, id, fun _ => rfl⟩
  have keeps : ∀ other was, world.jobs other = some was → ∃ later,
      (world.withJob jobId replaced).jobs other = some later ∧ SameTask was later ∧
        (was.status ≠ .pending → later.status ≠ .pending) ∧
          (was.active = false → later.active = false) := by
    intro other was known
    by_cases here : other = jobId
    · subst here
      rw [found] at known
      cases known
      refine ⟨replaced, World.with_job_self .., same, fun _ => begun, fun idle => ?_⟩
      by_contra active
      rw [ended (Bool.eq_true_of_not_eq_false active)] at idle
      cases idle
    · exact ⟨was, (World.with_job_other world replaced here).trans known, same_task_refl was,
        id, id⟩
  refine ⟨⟨fun others apart _ => ?_, ?_⟩, ?_⟩
  · refine
      { rows := fun _ state row => ⟨state, row, rfl, .inl rfl⟩, jobs := keeps,
        mine := ?_, log := List.suffix_rfl }
    intro other was last theirs known final
    have differs : other ≠ jobId := by
      rintro rfl
      exact Set.disjoint_left.mp apart mine theirs
    rw [World.with_job_other world replaced differs, known] at final
    cases final
    rfl
  · refine
      { keyed := invariant.keyed, housed := ?_, named := invariant.named,
        records := invariant.records, approved := invariant.approved,
        authorised := invariant.authorised, certificates := invariant.certificates,
        unknown := invariant.unknown, justified := invariant.justified,
        held := invariant.held, released := invariant.released, task := ?_, first := ?_,
        discarded := ?_, listed := ?_, pending := ?_, live := ?_ }
    · intro other last final
      obtain ⟨was, known, same, -⟩ := jobs other last final
      rw [same.1]
      exact invariant.housed other was known
    · intro operationId state row
      obtain ⟨was, task, owner⟩ := invariant.task operationId state row
      obtain ⟨last, final, same, -⟩ := keeps _ was task
      exact ⟨last, final, same.1.trans owner⟩
    · intro operationId state other last row early final owner
      obtain ⟨was, known, same, -⟩ := jobs other last final
      exact invariant.first operationId state other was row early known
        (same.1.symm.trans owner)
    · intro operationId state last row discarded final
      obtain ⟨was, known, -, active, -⟩ := jobs _ last final
      have idle := invariant.discarded operationId state was row discarded known
      by_contra wrong
      rw [active (Bool.eq_true_of_not_eq_false wrong)] at idle
      cases idle
    · intro other last final
      obtain ⟨was, known, -⟩ := jobs other last final
      exact invariant.listed other was known
    · intro other last final waiting
      obtain ⟨was, known, -, -, equal⟩ := jobs other last final
      have same := equal waiting
      subst same
      exact invariant.pending other last known waiting
    · intro operationId state last row final active
      obtain ⟨was, known, -, still, -⟩ := jobs _ last final
      exact invariant.live operationId state was row known (still active)
  · refine Discipline.fair_unspent ?_ rfl
    rintro (other | operationId | operationId) issued
    · obtain ⟨was, known⟩ := Option.isSome_iff_exists.mp issued
      obtain ⟨last, final, -⟩ := keeps other was known
      exact Option.isSome_iff_exists.mpr ⟨last, final⟩
    · exact issued
    · exact issued

variable {message : String} {failed : Set Permit → String → World → Prop}

theorem end_job_proceeds {status : JobStatus} (ended : status = .succeeded ∨ status = .failed)
    (acts : Acts .worker owned world jobId) :
    rules.Proceeds (fun _ _ _ => True) failed owned
      (Program.transact fun world => .ok (endJob jobId status message world, ())) world := by
  refine Discipline.proceeds_transact (guarantee_same owned) ?_ ?_
  · intro later final result changed done
    cases done
    obtain ⟨mine, job, found, running⟩ := acts_evolves acts changed.1
    have step := @job_step digests owned later jobId job
      { job with status, error := message, progressPercent := 100 } changed.2 mine found
      ⟨rfl, rfl, rfl⟩ (by rcases ended with rfl | rfl <;> exact fun wrong => nomatch wrong)
      (by rcases ended with rfl | rfl <;> exact fun wrong => nomatch wrong)
    rw [endJob, found]
    exact ⟨step.1, step.2, fun _ _ => trivial⟩
  · intro later error changed refused
    cases refused

theorem last_save_proceeds {pending : World → World} (saves : rules.Proceeds (fun _ _ _ => True)
      (fun held _ later => Acts .worker held later jobId) owned (save pending { state with
      progressPercent := 100 }) world) :
    rules.Proceeds (fun _ _ _ => True) failed owned (lastSave jobId pending state) world := by
  have attempted : rules.Proceeds
      (fun held outcome later => ∀ error, outcome = .error error →
        Acts .worker held later jobId) failed owned
      (save pending { state with progressPercent := 100 }).attempt world := by
    refine Discipline.proceeds_attempt (Discipline.proceeds_weaken saves ?_ ?_)
    · exact fun held result later _ error wrong => nomatch wrong
    · exact fun held error later acts _ _ => acts
  refine then_proceeds attempted fun held outcome later after => ?_
  cases outcome with
  | ok result => exact pure_proceeds fun _ _ => trivial
  | error error => exact end_job_proceeds (.inr rfl) (after error rfl)

theorem finish_proceeds {status : JobStatus} (ended : status = .succeeded ∨ status = .failed)
    (here : At .worker jobId owned base world)
    (successor : Successor base { state with progressPercent := 100 })
    (unfinished : ¬Finished state.checkpoint) :
    rules.Proceeds (fun _ _ _ => True) failed owned
      (finish jobId status message state) world :=
  last_save_proceeds (save_ends here successor state.checkpoint rfl unfinished ended)

omit digests in
theorem interrupted_records (records : Records base) (live : Live base.state) :
    Records (interruptedState message base) ∧ ¬Finished base.checkpoint := by
  unfold Records at records ⊢
  unfold Finished
  cases at_ : base.checkpoint <;> rw [at_] at records <;> simp only [interruptedState, at_]
  case verified | reconciledVerified =>
    rcases records.1 with stage | stage <;> rw [stage] at live <;>
      rcases live with wrong | wrong | wrong <;> cases wrong
  case reconciledNotDispatched =>
    rw [records.1] at live
    rcases live with wrong | wrong | wrong <;> cases wrong
  all_goals
    refine ⟨⟨.inr rfl, records.2⟩, ?_⟩
    simp

theorem load_proceeds {operationId actor : String} {holds : World → Prop}
    (stable : ∀ first second, rules.rely owned first second → holds first → holds second)
    (now : holds world) :
    rules.Proceeds
      (fun held result later => held = owned ∧ holds later ∧ Based later result ∧
        ∃ seen, holds seen ∧ Invariant seen ∧ seen.operations operationId = some result ∧
          (Installing result.checkpoint →
            Executed result.operationId (reviewed result) later.log))
      (fun held _ later => held = owned ∧ holds later) owned (load operationId actor) world := by
  refine Discipline.proceeds_observe (guarantee_same owned) ?_ ?_
  · intro seen result changed found last more
    have there := stable _ _ changed now
    refine ⟨rfl, stable _ _ more there, ?_⟩
    cases row : seen.operations operationId with
    | none =>
      rw [row] at found
      cases found
    | some state =>
      rw [row] at found
      dsimp only at found
      by_cases own : state.actor = actor
      · rw [if_pos own] at found
        cases found
        have named := changed.2.named operationId result row
        refine ⟨based_evolves (based_row (named.symm ▸ row)) more.1, seen, there, changed.2,
          row, fun installing => ?_⟩
        rw [named]
        exact executed_evolves (changed.2.authorised operationId result row installing) more.1
      · rw [if_neg own] at found
        cases found
  · intro seen error changed refused last more
    exact ⟨rfl, stable _ _ more (stable _ _ changed now)⟩

theorem fail_job_proceeds {job : Job} (acts : Acts .worker owned world jobId) :
    rules.Proceeds (fun _ _ _ => True) (fun _ _ _ => True) owned
      (failJob jobId job message) world := by
  refine then_proceeds (Discipline.proceeds_weaken
    (load_proceeds (fun _ _ changed now => acts_evolves now changed.1) acts)
    (fun _ _ _ => id) (fun _ _ _ _ => trivial)) fun held state later loaded => ?_
  obtain ⟨rfl, acting, based, seen, then_, invariant, row, executed⟩ := loaded
  by_cases ours : state.jobId = jobId
  · rw [if_pos ours]
    have live : Live state.state := by
      obtain ⟨-, task, found, running⟩ := then_
      rw [← ours] at found
      refine invariant.live _ state task row found ?_
      rw [Job.active, running]
      rfl
    obtain ⟨records, unfinished⟩ :=
      @interrupted_records state message (invariant.records _ state row) live
    have successor : Successor state
        { interruptedState message state with progressPercent := 100 } :=
      { plan := rfl, revision := rfl, job := rfl, certificate := rfl, replacement := rfl,
        nonce := .inr rfl, records, early := id, dispatched := id, installing := id,
        finished := id }
    exact finish_proceeds (.inr rfl) ⟨ours, acting, based, executed⟩ successor unfinished
  · rw [if_neg ours]
    exact end_job_proceeds (.inr rfl) acting

end Ending

section Installation

/-- The worker may have set verification flags since its last save. -/
structure Flagged (base state : Operation) (checkpoint : Checkpoint) : Prop where
  same : ∃ verification, state = { base with verification }
  records : Records base
  installing : base.state = .installing
  at_ : base.checkpoint = checkpoint

omit digests in
/-- What follows the rows of an installation. -/
theorem installing_records {state : Operation} (records : Records base)
    (place : Installing base.checkpoint) (reached : Installing state.checkpoint)
    (stage : state.state = .installing) (certificate : state.certificateId = base.certificateId)
    (replacement : state.replacementCertificate = base.replacementCertificate)
    (csr : state.csrPem = base.csrPem) (plan : state.toPlan = base.toPlan)
    (csrTask : state.nativeCsrTaskId = base.nativeCsrTaskId)
    (validation : state.nativeValidationId = base.nativeValidationId)
    (nonce : state.reviewNonce = base.reviewNonce) : Records state := by
  have facts : Issued base ∧ Validated base ∧ base.reviewNonce = none := by
    rcases place with at_ | at_ | at_ | at_ <;> rw [Records, at_] at records <;>
      exact records.2
  have product : state.product = base.product := congrArg Plan.product plan
  have issued : Issued state := by
    rw [Issued, HasTask, certificate, replacement, csr, csrTask, product]
    exact facts.1
  have validated : Validated state := by
    rw [Validated, product, validation]
    exact facts.2.1
  have noNonce : state.reviewNonce = none := nonce.trans facts.2.2
  rcases reached with at_ | at_ | at_ | at_ <;> rw [Records, at_] <;>
    exact ⟨.inl stage, issued, validated, noNonce⟩

variable {found : Material} {credentials : Credentials}

theorem import_root_proceeds (here : At .worker jobId owned base world) (records : Records base)
    (installing : base.state = .installing) (queued : base.checkpoint = .queuedInstallation) :
    rules.Proceeds
      (fun held result later => At .worker jobId held result later ∧ Records result ∧
        result.state = .installing ∧ (result.checkpoint = .queuedInstallation ∨
          result.checkpoint = .rootImportDispatchPending) ∧
        result.replacementCertificate = base.replacementCertificate)
      (fun held _ later => Acts .worker held later jobId) owned
      (importRoot base found) world := by
  unfold importRoot
  by_cases vcenter : base.product = .vcenter
  · rw [if_pos vcenter]
    have next : Records { base with checkpoint := .rootImportDispatchPending } :=
      installing_records records (.inl queued) (.inr (.inl rfl)) installing rfl rfl rfl rfl rfl
        rfl rfl
    have successor : Successor base { base with checkpoint := .rootImportDispatchPending } :=
      successor_of rfl rfl rfl rfl rfl (.inr rfl) next .queuedInstallation
        .rootImportDispatchPending queued rfl (by decide)
    refine then_proceeds (save_proceeds here successor (.inr (.inr installing))
      .rootImportDispatchPending rfl (by decide)) fun held result later after => ?_
    obtain ⟨rfl, there, -, -, -⟩ := after
    refine then_proceeds (observe_proceeds there) fun held _ later seen => ?_
    exact pure_proceeds fun last changed =>
      ⟨at_evolves seen.1 changed.1, next, installing, .inr rfl, rfl⟩
  · rw [if_neg vcenter]
    exact pure_proceeds fun last changed =>
      ⟨at_evolves here changed.1, records, installing, .inl queued, rfl⟩

theorem install_proceeds (here : At .worker jobId owned base world)
    (mine : Permit.install base.operationId ∈ owned) (records : Records base)
    (installing : base.state = .installing)
    (pending : base.checkpoint = .installationDispatchPending)
    (exact_ : base.replacementCertificate = some found.metadata) :
    rules.Proceeds
      (fun held result later => ∃ last, At .worker jobId held last later ∧
        Flagged last result .installationDispatchPending)
      (fun held _ later => Acts .worker held later jobId) owned
      (install base found) world := by
  intro later changed
  have now := at_evolves here changed.1
  have executed : Executed base.operationId (reviewed base) later.log :=
    now.executed (.inr (.inr (.inl pending)))
  have step := record_step now changed.2
    (show permitOf (.installed base.operationId found.metadata (reviewed base)) = _ from rfl)
    mine rfl ⟨executed, exact_⟩ (fun _ => rfl) (fun _ wrong => nomatch wrong)
  have flagged : ∀ verification, Flagged base { base with verification }
      .installationDispatchPending := fun _ => ⟨⟨_, rfl⟩, records, installing, pending⟩
  refine ⟨step.1, step.2.1, ?_⟩
  have there := step.2.2
  dsimp only
  cases product : base.product with
  | sddc =>
    dsimp only
    cases later.outside.startInstall base.target found.leaf found.root with
    | answered task =>
      have next : Records { base with nativeInstallTaskId := some task } :=
        installing_records records (.inr (.inr (.inl pending)))
          (.inr (.inr (.inl pending))) installing rfl rfl rfl rfl rfl rfl rfl
      have successor : Successor base { base with nativeInstallTaskId := some task } :=
        successor_of rfl rfl rfl rfl rfl (.inr rfl) next .installationDispatchPending
          .installationDispatchPending pending pending (by decide)
      refine Discipline.proceeds_weaken (save_proceeds there successor
        (.inr (.inr installing)) .installationDispatchPending pending (by decide)) ?_
        (fun _ _ _ => id)
      intro held result last after
      refine ⟨result, after.here, ?_⟩
      rw [after.outcome]
      exact ⟨⟨_, rfl⟩, next, installing, pending⟩
    | remoteError =>
      exact fun last more => ⟨base, at_evolves there more.1, flagged base.verification⟩
    | interrupted message => exact fun last more => acts_evolves there.acts more.1
  | srm =>
    dsimp only
    cases later.outside.installCsr base.target found.leaf found.root with
    | answered answer =>
      exact fun last more => ⟨base, at_evolves there more.1, flagged _⟩
    | remoteError =>
      exact fun last more => ⟨base, at_evolves there more.1, flagged base.verification⟩
    | interrupted message => exact fun last more => acts_evolves there.acts more.1
  | vcenter =>
    dsimp only
    cases later.outside.installCsr base.target found.leaf found.root with
    | answered answer =>
      exact fun last more => ⟨base, at_evolves there more.1, flagged _⟩
    | remoteError =>
      exact fun last more => ⟨base, at_evolves there more.1, flagged base.verification⟩
    | interrupted message => exact fun last more => acts_evolves there.acts more.1

omit digests in
theorem flagged_records (flagged : Flagged base state .verifyingReadiness) :
    Records state ∧ Issued state := by
  obtain ⟨⟨verification, rfl⟩, records, installing, at_⟩ := flagged
  rw [Records, at_] at records
  rw [Records]
  simp only [at_]
  exact ⟨records, records.2.1⟩

theorem readiness_proceeds {root : String} (rounds : Nat) (here : At .worker jobId owned base world)
    (flagged : Flagged base state .verifyingReadiness) :
    rules.Proceeds (fun _ _ _ => True) (fun held _ later => Acts .worker held later jobId) owned
      (readiness jobId credentials root rounds state) world := by
  induction rounds generalizing owned world base state with
  | zero => exact refuse_proceeds here.acts
  | succ rounds induction =>
    obtain ⟨⟨earlier, rfl⟩, own, installing, at_⟩ := flagged
    unfold readiness
    refine then_proceeds (reads_proceed (read_only_administrator _) here)
      fun held _ later seen => ?_
    refine then_proceeds (observe_proceeds seen.1) fun held read later seen => ?_
    obtain ⟨ready, verification⟩ := read
    obtain ⟨there, -, -⟩ := seen
    obtain ⟨records, issued⟩ :=
      flagged_records ⟨⟨verification, rfl⟩, own, installing, at_⟩
    dsimp only
    cases ready with
    | true =>
      rw [if_pos rfl]
      have final : Successor base
          { base with
            verification, state := .succeeded, checkpoint := .verified,
            progressPercent := 100 } :=
        successor_of rfl rfl rfl rfl rfl (.inr rfl) ⟨.inl rfl, issued⟩ .verifyingReadiness
          .verified at_ rfl (by decide)
      refine last_save_proceeds (save_finishes there rfl final (.inl rfl) ?_ ?_ ?_)
      · exact fun later acts => publishes_end (.inl rfl) acts
      · intro later
        unfold endJob
        split <;> rfl
      · exact fun later job acts found => end_job (.inl rfl) found
    | false =>
      rw [if_neg Bool.false_ne_true]
      have successor : Successor base { base with verification } :=
        successor_of rfl rfl rfl rfl rfl (.inr rfl) records .verifyingReadiness
          .verifyingReadiness at_ at_ (by decide)
      refine then_proceeds (save_proceeds there successor (.inr (.inr installing))
        .verifyingReadiness at_ (by decide)) fun held result later after => ?_
      refine induction after.here ?_
      rw [after.outcome]
      exact ⟨⟨verification, rfl⟩, records, installing, at_⟩

omit digests in
theorem material_exact (done : material world base = .ok found) (issued : Issued base) :
    base.replacementCertificate = some found.metadata := by
  obtain ⟨certificateId, -, done⟩ := bind_ok_iff.mp done
  obtain ⟨root, -, done⟩ := bind_ok_iff.mp done
  obtain ⟨csrPem, -, done⟩ := bind_ok_iff.mp done
  obtain ⟨certificate, -, done⟩ := bind_ok_iff.mp done
  by_cases fits : certificate.fits csrPem = true
  · rw [if_pos fits] at done
    obtain ⟨leaf, -, done⟩ := bind_ok_iff.mp done
    by_cases expects : base.expects leaf = true
    · rw [if_pos expects] at done
      cases done
      rw [Operation.expects, Bool.or_eq_true, decide_eq_true_eq, decide_eq_true_eq] at expects
      rcases expects with none | same
      · have recorded := issued.2.1
        rw [none] at recorded
        cases recorded
      · exact same
    · rw [if_neg expects] at done
      cases done
  · rw [if_neg fits] at done
    cases done

theorem install_body_proceeds (rounds : Nat) (here : At .worker jobId owned base world)
    (records : Records base) (installing : base.state = .installing)
    (queued : base.checkpoint = .queuedInstallation) :
    rules.Proceeds (fun _ _ _ => True) (fun held _ later => Acts .worker held later jobId) owned
      (installBody jobId rounds base credentials) world := by
  unfold installBody
  refine then_proceeds (reads_proceed (read_only_revalidate ..) here) fun held _ later seen => ?_
  refine then_proceeds (observe_proceeds seen.1) fun held found later seen => ?_
  obtain ⟨there, -, earlier, read⟩ := seen
  have issued : Issued base := by
    rw [Records, queued] at records
    exact records.2.1
  have leaf := material_exact read issued
  have validated : rules.Proceeds
      (fun held result later => At .worker jobId held result later ∧ Checked true result ∧
        result.replacementCertificate = base.replacementCertificate)
      (fun held _ later => Acts .worker held later jobId) held
      (validateSddc true base credentials) later := by
    unfold validateSddc
    by_cases sddc : base.product = .sddc
    · rw [if_pos sddc]
      exact sddc_validation_proceeds there ⟨records, sddc, queued⟩ (.inr (.inr installing))
    · rw [if_neg sddc]
      exact pure_proceeds fun last changed =>
        ⟨at_evolves there changed.1, ⟨records, installing, queued⟩, rfl⟩
  refine then_proceeds validated fun held checked later after => ?_
  obtain ⟨there, ⟨records, installing, queued⟩, replacement⟩ := after
  refine then_proceeds (reads_proceed (read_only_login ..) there) fun held _ later seen => ?_
  refine then_proceeds (reads_proceed (read_only_administrator _) seen.1)
    fun held _ later seen => ?_
  refine then_proceeds (import_root_proceeds seen.1 records installing queued)
    fun held imported later after => ?_
  obtain ⟨there, records, installing, place, same⟩ := after
  have pending : Records { imported with checkpoint := .installationDispatchPending } :=
    installing_records records (by rcases place with at_ | at_ <;> rw [at_] <;> decide)
      (.inr (.inr (.inl rfl))) installing rfl rfl rfl rfl rfl rfl rfl
  have successor : Successor imported { imported with checkpoint := .installationDispatchPending } :=
    successor_of rfl rfl rfl rfl rfl (.inr rfl) pending imported.checkpoint
      .installationDispatchPending rfl rfl
      (by rcases place with at_ | at_ <;> rw [at_] <;> decide)
  refine then_proceeds (save_proceeds there successor (.inr (.inr installing))
    .installationDispatchPending rfl (by decide)) fun held dispatched later after => ?_
  obtain ⟨rfl, there, -, -, permit⟩ := after
  have mine : Permit.install imported.operationId ∈ held :=
    permit (by rcases place with at_ | at_ <;> rw [at_] <;> decide) (.inl rfl)
  refine then_proceeds (install_proceeds there mine pending installing rfl
    (same.trans (replacement.trans leaf))) fun held installed later after => ?_
  obtain ⟨last, there, flagged⟩ := after
  obtain ⟨⟨verification, rfl⟩, records, installing, at_⟩ := flagged
  have verifying : Records { last with verification, checkpoint := .verifyingReadiness } :=
    installing_records records (.inr (.inr (.inl at_))) (.inr (.inr (.inr rfl))) installing
      rfl rfl rfl rfl rfl rfl rfl
  have next : Successor last { last with verification, checkpoint := .verifyingReadiness } :=
    successor_of rfl rfl rfl rfl rfl (.inr rfl) verifying .installationDispatchPending
      .verifyingReadiness at_ rfl (by decide)
  refine then_proceeds (save_proceeds there next (.inr (.inr installing)) .verifyingReadiness rfl
    (by decide)) fun held final later after => ?_
  refine readiness_proceeds rounds after.here ?_
  rw [after.outcome]
  exact ⟨⟨_, rfl⟩, verifying, installing, rfl⟩

end Installation

section Runs

theorem checked_finishes {message : String} (here : At .worker jobId owned base world)
    (checked : Checked false base) {failed : Set Permit → String → World → Prop} :
    rules.Proceeds (fun _ _ _ => True) failed owned (finish jobId .succeeded message base)
      world := by
  have successor : Successor base { base with progressPercent := 100 } :=
    successor_of rfl rfl rfl rfl rfl (.inr rfl) checked.1 base.checkpoint base.checkpoint rfl rfl
      ⟨id, id, id, id⟩
  refine finish_proceeds (.inl rfl) here successor ?_
  rw [checked.2.2]
  decide

theorem job_body_proceeds {action : Action} {selected : Option Selection} (rounds : Nat)
    (here : At .worker jobId owned base world) (records : Records base)
    (waiting : Waiting action base) :
    rules.Proceeds (fun _ _ _ => True) (fun held _ later => Acts .worker held later jobId) owned
      (jobBody jobId selected rounds action base) world := by
  unfold jobBody
  refine then_proceeds (reads_proceed (read_only_administrator _) here) fun held _ later seen => ?_
  refine then_proceeds (observe_proceeds seen.1) fun held credentials later seen => ?_
  cases action with
  | prepare =>
    refine then_proceeds (prepare_body_proceeds seen.1 records waiting.1 waiting.2)
      fun held result later after => ?_
    exact checked_finishes after.1 after.2
  | install => exact install_body_proceeds rounds seen.1 records waiting.1 waiting.2

def Pending (owned : Set Permit) (world : World) (jobId : String) (job : Job) : Prop :=
  Permit.worker jobId ∈ owned ∧ job.status = .pending ∧
    ∃ current, world.jobs jobId = some current ∧ SameTask job current ∧ current.status = .pending

omit digests in
theorem pending_evolves {job : Job} (pending : Pending owned world jobId job)
    (changed : Evolves owned world later) : Pending owned later jobId job := by
  obtain ⟨mine, waits, current, found, ⟨operation, action, creator⟩, status⟩ := pending
  obtain ⟨last, final, ⟨operation', action', creator'⟩, -⟩ := changed.jobs jobId current found
  exact ⟨mine, waits, last, final,
    ⟨operation'.trans operation, action'.trans action, creator'.trans creator⟩,
    (changed.mine jobId current last mine found final).trans status⟩

theorem start_job_proceeds {job : Job} (pending : Pending owned world jobId job)
    (own : base.jobId = jobId) (based : Based world base)
    (executed : Installing base.checkpoint →
      Executed base.operationId (reviewed base) world.log) :
    rules.Proceeds (fun held _ later => At .worker jobId held base later)
      (fun _ _ _ => True) owned (startJob jobId) world := by
  refine Discipline.proceeds_transact (guarantee_same owned) ?_ fun _ _ _ _ _ _ => trivial
  intro later final result changed done
  obtain ⟨mine, -, current, found, -, status⟩ := pending_evolves pending changed.1
  have step := @job_step digests owned later jobId current { current with status := .running } changed.2
    mine found ⟨rfl, rfl, rfl⟩ (fun wrong => nomatch wrong)
    (fun _ => by rw [Job.active, status]; rfl)
  have there : Based later base := based_evolves based changed.1
  have still : Installing base.checkpoint →
      Executed base.operationId (reviewed base) later.log :=
    fun installing => executed_evolves (executed installing) changed.1
  rw [found] at done
  cases done
  have here : At .worker jobId
      (rules.kept owned later (later.withJob jobId { current with status := .running })) base
      (later.withJob jobId { current with status := .running }) :=
    ⟨own, ⟨Discipline.mem_kept mine rfl, _, World.with_job_self .., rfl⟩, there, still⟩
  exact ⟨step.1, step.2, fun last more => at_evolves here more.1⟩

theorem read_job_proceeds (mine : Permit.worker jobId ∈ owned) :
    rules.Proceeds
      (fun held result later => held = owned ∧ ∀ job, result = some job → job.status = .pending →
        Pending owned later jobId job)
      (fun _ _ _ => True) owned (readJob jobId) world := by
  refine Discipline.proceeds_observe (guarantee_same owned) ?_ fun _ _ _ _ _ _ => trivial
  intro later result changed found last more
  cases found
  refine ⟨rfl, fun job task status => pending_evolves ⟨mine, status, job, task, ?_, status⟩ more.1⟩
  exact same_task_refl job

theorem run_job_proceeds {selected : Option Selection} (rounds : Nat)
    (mine : Permit.worker jobId ∈ owned) :
    rules.Proceeds (fun _ _ _ => True) (fun _ _ _ => True) owned
      (runJob jobId selected rounds) world := by
  unfold runJob
  refine then_proceeds (read_job_proceeds mine) fun held found later read => ?_
  obtain ⟨rfl, waits⟩ := read
  cases found with
  | none => exact pure_proceeds fun _ _ => trivial
  | some job =>
    dsimp only
    by_cases status : job.status = .pending
    · rw [if_pos status]
      have pending := waits job rfl status
      refine then_proceeds (Discipline.proceeds_weaken
        (load_proceeds (fun _ _ changed now => pending_evolves now changed.1) pending)
        (fun _ _ _ => id) (fun _ _ _ _ => trivial)) fun held state later loaded => ?_
      obtain ⟨rfl, still, based, seen, then_, invariant, row, executed⟩ := loaded
      obtain ⟨-, -, current, known, same, waiting⟩ := then_
      obtain ⟨other, again, owner, ready⟩ := invariant.pending jobId current known waiting
      rw [same.1, row] at again
      cases again
      rw [same.2.1] at ready
      refine then_proceeds (start_job_proceeds still owner based executed)
        fun held _ later there => ?_
      have body := @job_body_proceeds digests held later state jobId job.action selected rounds there
        (invariant.records _ state row) ready
      have attempted : rules.Proceeds
          (fun held outcome later => ∀ error, outcome = .error error →
            Acts .worker held later jobId) (fun _ _ _ => True) held
          (jobBody jobId selected rounds job.action state).attempt later := by
        refine Discipline.proceeds_attempt (Discipline.proceeds_weaken body ?_ ?_)
        · exact fun _ _ _ _ error wrong => nomatch wrong
        · exact fun _ _ _ acts _ _ => acts
      refine then_proceeds attempted fun held outcome later after => ?_
      cases outcome with
      | ok result => exact pure_proceeds fun _ _ => trivial
      | error message => exact fail_job_proceeds (after message rfl)
    · rw [if_neg status]
      exact pure_proceeds fun _ _ => trivial

end Runs

end Atlaso.Vcf.CertificateWorker
