import Atlaso.Vcf.CertificateWorker

/-!
The requests of administrators among all other requests and workers.

`prepare` and `execute` create a task and then run its worker; `review` gives the stored row
a nonce, whatever row it loaded before; `reconcile` writes only to a row whose task has ended.
-/

namespace Atlaso.Vcf.CertificateRequests

open Library RequestThreads Outcomes CertificateOperations CertificateWorkflow
open CertificateInvariant CertificateSteps CertificateThreads CertificateWorker

variable [digests : Digests] {owned held : Set Permit} {world before after : World}
  {base state : Operation} {jobId : String}

section Reads

/-- What a request may do after its reads does not depend on them. -/
theorem plain_reads {Result : Type} {program : Steps Result} (readOnly : program.ReadOnly) :
    rules.Proceeds (fun held _ _ => held = owned) (fun _ _ _ => True) owned program world := by
  have reads := @Discipline.proceeds_read_only _ _ _ _ rules owned world program
    (guarantee_same owned) (fun _ => True) (fun _ _ _ => id) readOnly trivial
  exact Discipline.proceeds_weaken reads (fun _ _ _ kept => kept.1) fun _ _ _ _ => trivial

omit digests in
theorem read_only_enter (values : Values) : (enter values).ReadOnly := by
  refine Program.read_only_bind (read_only_administrator _) fun _ => ?_
  refine Program.read_only_bind (Program.read_only_observe _) fun _ => ?_
  exact Program.read_only_observe _

omit digests in
theorem read_only_open (values : Values) (reference : Reference) :
    (openOperation values reference).ReadOnly := by
  refine Program.read_only_bind (Program.read_only_observe _) fun _ => ?_
  exact Program.read_only_bind (read_only_require ..) fun _ => trivial

end Reads

section Admissions

omit digests in
theorem admission_ok {result : Unit} (done : admission state before = .ok (after, result)) :
    before.operations state.operationId = none ∧ before.jobs state.jobId = none ∧
      (∀ key ∈ state.reservationKeys, before.reservations key = none) ∧
        after = enqueue state.jobId (newJob state .prepare)
          { before.withOperation state with
            reservations := fun key =>
              if key ∈ state.reservationKeys then some state.operationId
              else before.reservations key } := by
  unfold admission at done
  split at done
  · cases done
  · rename_i free
    cases done
    simp only [Bool.or_eq_true, not_or, Bool.not_eq_true, Option.isSome_eq_false_iff,
      Option.isNone_iff_eq_none, List.any_eq_false] at free
    exact ⟨free.1.1.1, free.1.1.2, free.1.2, rfl⟩

structure Fresh (state : Operation) : Prop where
  keyed : Keyed state.toPlan
  stage : state.state = .preparing
  checkpoint : state.checkpoint = .queuedPreparation
  unissued : Unissued state

theorem admission_invariant (invariant : Invariant before) (fresh : Fresh state) {result : Unit}
    (done : admission state before = .ok (after, result)) : Invariant after := by
  obtain ⟨noRow, noJob, free, rfl⟩ := admission_ok done
  have rows : ∀ operationId row, Function.update before.operations state.operationId
      (some state) operationId = some row → operationId = state.operationId ∧ row = state ∨
        operationId ≠ state.operationId ∧ before.operations operationId = some row := by
    intro operationId row found
    by_cases same : operationId = state.operationId
    · subst same
      rw [Function.update_self] at found
      cases found
      exact .inl ⟨rfl, rfl⟩
    · rw [Function.update_of_ne same] at found
      exact .inr ⟨same, found⟩
  have tasks : ∀ jobId job, Function.update before.jobs state.jobId
      (some (newJob state .prepare)) jobId = some job →
        jobId = state.jobId ∧ job = newJob state .prepare ∨
          jobId ≠ state.jobId ∧ before.jobs jobId = some job := by
    intro jobId job found
    by_cases same : jobId = state.jobId
    · subst same
      rw [Function.update_self] at found
      cases found
      exact .inl ⟨rfl, rfl⟩
    · rw [Function.update_of_ne same] at found
      exact .inr ⟨same, found⟩
  have foreign : ∀ jobId job, before.jobs jobId = some job →
      job.operationId ≠ state.operationId := by
    intro jobId job known same
    have housed := invariant.housed jobId job known
    rw [same, noRow] at housed
    cases housed
  have records : Records state := by
    rw [Records, fresh.checkpoint]
    exact ⟨.inl fresh.stage, fresh.unissued⟩
  have started : ¬Finished state.checkpoint := by
    rw [fresh.checkpoint]
    decide
  refine
    { keyed := ?_, housed := ?_, named := ?_, records := ?_, task := ?_, first := ?_,
      discarded := ?_, approved := ?_, authorised := ?_, certificates := ?_, unknown := ?_,
      justified := invariant.justified, held := ?_, released := ?_, listed := ?_,
      pending := ?_, live := ?_ }
  · intro operationId row found
    rcases rows operationId row found with ⟨rfl, rfl⟩ | ⟨-, old⟩
    · exact fresh.keyed
    · exact invariant.keyed operationId row old
  · intro jobId job found
    rcases tasks jobId job found with ⟨rfl, rfl⟩ | ⟨-, old⟩
    · exact Option.isSome_iff_exists.mpr ⟨state, Function.update_self ..⟩
    · have housed := invariant.housed jobId job old
      exact (congrArg Option.isSome (Function.update_of_ne (foreign jobId job old) ..)).trans
        housed
  · intro operationId row found
    rcases rows operationId row found with ⟨rfl, rfl⟩ | ⟨-, old⟩
    · rfl
    · exact invariant.named operationId row old
  · intro operationId row found
    rcases rows operationId row found with ⟨rfl, rfl⟩ | ⟨-, old⟩
    · exact records
    · exact invariant.records operationId row old
  · intro operationId row found
    rcases rows operationId row found with ⟨rfl, rfl⟩ | ⟨-, old⟩
    · exact ⟨newJob row .prepare, Function.update_self .., rfl⟩
    · obtain ⟨job, known, owner⟩ := invariant.task operationId row old
      refine ⟨job, (Function.update_of_ne ?_ ..).trans known, owner⟩
      rintro same
      rw [same, noJob] at known
      cases known
  · intro operationId row jobId job found early task owner
    rcases rows operationId row found with ⟨rfl, rfl⟩ | ⟨other, old⟩
    · rcases tasks jobId job task with ⟨here, -⟩ | ⟨-, known⟩
      · exact here
      · exact absurd owner (foreign jobId job known)
    · rcases tasks jobId job task with ⟨-, rfl⟩ | ⟨-, known⟩
      · exact absurd owner.symm other
      · exact invariant.first operationId row jobId job old early known owner
  · intro operationId row job found discarded task
    rcases rows operationId row found with ⟨rfl, rfl⟩ | ⟨other, old⟩
    · rw [fresh.checkpoint] at discarded
      cases discarded
    · obtain ⟨was, known, owner⟩ := invariant.task operationId row old
      rcases tasks _ job task with ⟨here, -⟩ | ⟨-, again⟩
      · rw [here, noJob] at known
        cases known
      · exact invariant.discarded operationId row job old discarded again
  · intro operationId row nonce found recorded
    rcases rows operationId row found with ⟨rfl, rfl⟩ | ⟨-, old⟩
    · rw [fresh.unissued.2.2] at recorded
      cases recorded
    · exact invariant.approved operationId row nonce old recorded
  · intro operationId row found installing
    rcases rows operationId row found with ⟨rfl, rfl⟩ | ⟨-, old⟩
    · rw [fresh.checkpoint] at installing
      exact absurd installing (by decide)
    · exact invariant.authorised operationId row old installing
  · intro operationId row found
    rcases rows operationId row found with ⟨rfl, rfl⟩ | ⟨-, old⟩
    · rw [fresh.unissued.1]
      exact issued_for_other (invariant.unknown _ noRow)
    · exact invariant.certificates operationId row old
  · intro operationId missing
    refine invariant.unknown operationId ?_
    by_cases same : operationId = state.operationId
    · rw [same]
      exact noRow
    · exact (Function.update_of_ne same ..).symm.trans missing
  · intro operationId row found unfinished key inside
    rcases rows operationId row found with ⟨rfl, rfl⟩ | ⟨-, old⟩
    · exact if_pos inside
    · have held := invariant.held operationId row old unfinished key inside
      refine (if_neg fun ours => ?_).trans held
      rw [free key ours] at held
      cases held
  · intro operationId row found finished key inside
    rcases rows operationId row found with ⟨rfl, rfl⟩ | ⟨other, old⟩
    · exact absurd finished started
    · have released := invariant.released operationId row old finished key inside
      dsimp only [enqueue, World.withJob, World.withOperation]
      by_cases ours : key ∈ state.reservationKeys
      · rw [if_pos ours]
        intro wrong
        cases wrong
        exact other rfl
      · rw [if_neg ours]
        exact released
  · intro jobId job found
    rcases tasks jobId job found with ⟨rfl, -⟩ | ⟨-, old⟩
    · exact List.mem_append_right _ (List.mem_singleton_self _)
    · exact List.mem_append_left _ (invariant.listed jobId job old)
  · intro jobId job found waiting
    rcases tasks jobId job found with ⟨rfl, rfl⟩ | ⟨-, old⟩
    · exact ⟨state, Function.update_self .., rfl, fresh.stage, fresh.checkpoint⟩
    · obtain ⟨row, known, owner, waits⟩ := invariant.pending jobId job old waiting
      exact ⟨row, (Function.update_of_ne (foreign jobId job old) ..).trans known, owner, waits⟩
  · intro operationId row job found task active
    rcases rows operationId row found with ⟨rfl, rfl⟩ | ⟨other, old⟩
    · exact .inl fresh.stage
    · obtain ⟨was, known, owner⟩ := invariant.task operationId row old
      rcases tasks _ job task with ⟨here, -⟩ | ⟨-, again⟩
      · rw [here, noJob] at known
        cases known
      · exact invariant.live operationId row job old again active

/-- A new operation changes no row of another request, and its task has a new permit. -/
theorem admission_step (invariant : Invariant before) (fresh : Fresh state) {result : Unit}
    (done : admission state before = .ok (after, result)) :
    rules.guarantee owned before after ∧ rules.Fair owned before after ∧
      Permit.worker state.jobId ∈ rules.kept owned before after := by
  have still := admission_invariant invariant fresh done
  obtain ⟨noRow, noJob, free, rfl⟩ := admission_ok done
  have rows : ∀ operationId row, before.operations operationId = some row →
      Function.update before.operations state.operationId (some state) operationId =
        some row := by
    intro operationId row found
    refine (Function.update_of_ne ?_ ..).trans found
    rintro rfl
    rw [noRow] at found
    cases found
  have tasks : ∀ jobId job, before.jobs jobId = some job →
      Function.update before.jobs state.jobId (some (newJob state .prepare)) jobId =
        some job := by
    intro jobId job found
    refine (Function.update_of_ne ?_ ..).trans found
    rintro rfl
    rw [noJob] at found
    cases found
  refine ⟨⟨fun others _ _ => ?_, still⟩, Discipline.fair_unspent ?_ rfl, ?_⟩
  · refine
      { rows := fun operationId row found => ⟨row, rows operationId row found, rfl, .inl rfl⟩,
        jobs := fun jobId job found =>
          ⟨job, tasks jobId job found, same_task_refl job, id, id⟩,
        mine := ?_, log := List.suffix_rfl }
    intro jobId job later _ known final
    have same := (tasks jobId job known).symm.trans final
    cases same
    rfl
  · rintro (jobId | operationId | operationId) issued
    · obtain ⟨job, known⟩ := Option.isSome_iff_exists.mp issued
      exact Option.isSome_iff_exists.mpr ⟨job, tasks jobId job known⟩
    · exact issued.imp fun row found => ⟨rows operationId row found.1, found.2⟩
    · exact issued.imp fun row found => ⟨rows operationId row found.1, found.2⟩
  · refine Discipline.issued_kept ?_ ?_ rfl
    · exact Option.isSome_iff_exists.mpr ⟨_, Function.update_self ..⟩
    · intro issued
      obtain ⟨job, known⟩ := Option.isSome_iff_exists.mp issued
      rw [noJob] at known
      cases known

theorem prepare_proceeds (values : Values) (operationId jobId : String) (rounds : Nat) :
    rules.Proceeds (fun _ _ _ => True) (fun _ _ _ => True) owned
      (prepare digests values operationId jobId rounds) world := by
  unfold prepare
  refine then_proceeds (plain_reads (read_only_enter values)) fun held entered later same => ?_
  subst same
  refine then_proceeds (plain_reads (read_only_require ..)) fun held _ later same => ?_
  subst same
  refine then_proceeds (plain_reads (read_only_require ..)) fun held _ later same => ?_
  subst same
  refine then_proceeds (plain_reads (Program.read_only_observe _))
    fun held inspection later same => ?_
  subst same
  refine then_proceeds (plain_reads (read_only_require ..)) fun held _ later same => ?_
  subst same
  refine then_proceeds (plain_reads (Program.read_only_observe _))
    fun held snapshot later same => ?_
  subst same
  refine then_proceeds (plain_reads (Program.read_only_observe _))
    fun held addresses later same => ?_
  subst same
  by_cases resolved : addresses.isEmpty = true
  · rw [resolved]
    exact fun _ _ => trivial
  · rw [Bool.eq_false_iff.mpr resolved]
    refine then_proceeds (plain_reads (read_only_require ..)) fun held _ later same => ?_
    subst same
    suffices admits : rules.Proceeds (fun held _ _ => Permit.worker jobId ∈ held)
        (fun _ _ _ => True) held
        (Program.transact (admission (initialState values operationId jobId entered.1 inspection
          snapshot (locks digests values.product addresses inspection.identity)))) later from
      then_proceeds admits fun held _ later mine => run_job_proceeds rounds mine
    refine Discipline.proceeds_transact (guarantee_same held) ?_ fun _ _ _ _ _ _ => trivial
    intro later final result changed done
    have fresh : Fresh (initialState values operationId jobId entered.1 inspection snapshot
        (locks digests values.product addresses inspection.identity)) :=
      ⟨⟨addresses, fun empty => resolved (List.isEmpty_iff.mpr empty), rfl⟩, rfl, rfl,
        rfl, rfl, rfl⟩
    have step := @admission_step digests held later final _ changed.2 fresh result done
    exact ⟨step.1, step.2.1, fun _ _ => step.2.2⟩

end Admissions

section Approvals

omit digests in
theorem prepared_checkpoint (records : Records base) (prepared : base.state = .prepared) :
    base.checkpoint = .certificatePrepared ∧ Issued base ∧ Validated base := by
  unfold Records at records
  cases at_ : base.checkpoint <;> rw [at_] at records <;> try simp only at records
  case certificatePrepared => exact ⟨rfl, records.2⟩
  case reconciledNotDispatched =>
    rw [prepared] at records
    cases records.1
  all_goals
    rcases records.1 with stage | stage <;> rw [prepared] at stage <;> cases stage

theorem prepared_begun (invariant : Invariant before)
    (row : before.operations base.operationId = some base) (prepared : base.state = .prepared) :
    ∀ job, before.jobs base.jobId = some job → job.status ≠ .pending := by
  intro job known waiting
  obtain ⟨state, found, owner, waits⟩ := invariant.pending _ job known waiting
  obtain ⟨own, task, named⟩ := invariant.task _ base row
  rw [known] at task
  cases task
  rw [named, row] at found
  cases found
  cases action : job.action with
  | prepare =>
    rw [action, Waiting, prepared] at waits
    cases waits.1
  | install =>
    rw [action, Waiting, prepared] at waits
    cases waits.1

theorem approve_commit {nonce : String} (invariant : Invariant before)
    (row : before.operations base.operationId = some base) (prepared : base.state = .prepared) :
    Commit owned before
      ((commitState { base with reviewNonce := some nonce } before).record
        (.reviewed base.operationId nonce (reviewed base))) base
      (saved { base with reviewNonce := some nonce }) := by
  have records := invariant.records _ base row
  obtain ⟨checkpoint, facts⟩ := prepared_checkpoint records prepared
  have open_ : ¬Finished base.checkpoint := by
    rw [checkpoint]
    decide
  refine @state_commit digests owned before before base { base with reviewNonce := some nonce }
    [.reviewed base.operationId nonce (reviewed base)] invariant row rfl rfl rfl ?_ id id
    (publishes_same owned before) (prepared_begun invariant row prepared)
    (fun _ _ _ => .inr (.inl prepared)) (fun _ => invariant.held _ base row open_)
    (fun finished => absurd finished open_) (fun _ _ _ => Iff.rfl) ?_ ?_ ?_ ?_
    ⟨trivial, invariant.justified⟩
  · rw [Records]
    simp only [checkpoint]
    exact ⟨.inl prepared, facts⟩
  · intro event inside
    rw [List.mem_singleton.mp inside]
    exact ⟨rfl, rfl⟩
  · intro recorded same
    cases same
    exact List.mem_cons_self
  · intro installing
    rw [show ({ base with reviewNonce := some nonce } : Operation).checkpoint = _
      from checkpoint] at installing
    exact absurd installing (by decide)
  · exact invariant.certificates _ base row

theorem review_proceeds (values : Values) (nonce : String) :
    rules.Proceeds (fun _ _ _ => True) (fun _ _ _ => True) owned
      (review digests values nonce) world := by
  unfold review
  refine then_proceeds (plain_reads (read_only_enter values)) fun held entered later same => ?_
  subst same
  refine then_proceeds (plain_reads (read_only_open ..)) fun held state later same => ?_
  subst same
  refine then_proceeds (plain_reads (read_only_require ..)) fun held _ later same => ?_
  subst same
  refine then_proceeds (plain_reads (read_only_require ..)) fun held _ later same => ?_
  subst same
  refine then_proceeds (plain_reads (read_only_revalidate ..)) fun held _ later same => ?_
  subst same
  refine Discipline.proceeds_transact (guarantee_same held) ?_ fun _ _ _ _ _ _ => trivial
  intro middle final result changed done
  unfold approve at done
  cases row : middle.operations state.operationId with
  | none =>
    rw [row] at done
    cases done
  | some current =>
    rw [row] at done
    dsimp only at done
    by_cases accepted : current.state = .prepared ∧
        digests.revision (reviewed current) = digests.revision (reviewed state)
    · rw [if_pos accepted] at done
      cases done
      have named := changed.2.named _ current row
      have commit := @approve_commit digests held middle current nonce changed.2
        (named ▸ row) accepted.1
      exact ⟨commit_guarantee commit changed.2, commit_fair commit, fun _ _ => trivial⟩
    · rw [if_neg accepted] at done
      cases done

theorem consume_ok {approval : Approval} {values : Values} {credentials : Credentials}
    {result : Unit}
    (done : consume digests approval values credentials jobId before = .ok (after, result)) :
    ∃ row, before.operations values.operationId = some row ∧ row.state = .prepared ∧
      row.reviewNonce = some approval.nonce ∧ before.jobs jobId = none ∧
        after = (enqueue jobId (newJob (installingState jobId row) .install)
          (before.withOperation (saved (installingState jobId row)))).record
            (.executed row.operationId approval.nonce (reviewed row)) := by
  obtain ⟨row, found, done⟩ := bind_ok_iff.mp done
  cases known : before.operations values.operationId with
  | none =>
    rw [known] at found
    cases found
  | some stored =>
    rw [known] at found
    cases found
    by_cases approved : approves digests approval values row = true
    · rw [if_pos approved] at done
      obtain ⟨_, -, done⟩ := bind_ok_iff.mp done
      dsimp only at done
      cases task : before.jobs jobId with
      | some job =>
        rw [task] at done
        cases done
      | none =>
        rw [task] at done
        cases done
        unfold approves at approved
        cases nonce : row.reviewNonce with
        | none =>
          rw [nonce] at approved
          cases approved
        | some recorded =>
          rw [nonce] at approved
          rw [Bool.and_eq_true, decide_eq_true_eq, decide_eq_true_eq] at approved
          refine ⟨row, rfl, approved.1, ?_, rfl, rfl⟩
          rw [approved.2, nonce]
    · rw [if_neg approved] at done
      cases done

theorem consume_commit {nonce : String} (invariant : Invariant before)
    (row : before.operations base.operationId = some base) (prepared : base.state = .prepared)
    (recorded : base.reviewNonce = some nonce) (noJob : before.jobs jobId = none) :
    Commit owned before
      ((enqueue jobId (newJob (installingState jobId base) .install)
        (before.withOperation (saved (installingState jobId base)))).record
          (.executed base.operationId nonce (reviewed base))) base
      (saved (installingState jobId base)) := by
  obtain ⟨checkpoint, issued, validated⟩ :=
    prepared_checkpoint (invariant.records _ base row) prepared
  have open_ : ¬Finished base.checkpoint := by
    rw [checkpoint]
    decide
  have tasks : ∀ other job, before.jobs other = some job → Function.update before.jobs jobId
      (some (newJob (installingState jobId base) .install)) other = some job := by
    intro other job found
    refine (Function.update_of_ne ?_ ..).trans found
    rintro rfl
    rw [noJob] at found
    cases found
  refine
    { row, operations := rfl, plan := rfl, revision := Nat.lt_succ_self _, jobs := ?_,
      fresh := ?_, task := ?_, begun := prepared_begun invariant row prepared, early := ?_,
      records := ⟨.inl rfl, issued, validated, rfl⟩, dispatched := ?_, log := ?_,
      approved := ?_, authorised := ?_, certificates := ?_, justified := ?_,
      held := fun _ => invariant.held _ base row open_, released := ?_,
      others := fun _ _ _ => Iff.rfl, listed := ?_ }
  · exact fun other job found => ⟨job, tasks other job found, same_task_refl job, .inl rfl⟩
  · intro other job missing found
    by_contra differs
    cases missing.symm.trans ((Function.update_of_ne differs ..).symm.trans found)
  · refine ⟨newJob (installingState jobId base) .install, Function.update_self .., rfl, ?_, ?_⟩
    · exact fun _ => .inr (.inr rfl)
    · exact fun _ => ⟨rfl, rfl⟩
  · exact fun wrong => absurd wrong (show ¬Early .queuedInstallation by decide)
  · rw [checkpoint]
    exact fun wrong => absurd wrong (by decide)
  · refine ⟨[_], rfl, fun event inside => ?_⟩
    rw [List.mem_singleton.mp inside]
    exact ⟨rfl, rfl⟩
  · exact fun _ wrong => nomatch wrong
  · exact fun _ => ⟨nonce, List.mem_cons_self⟩
  · exact invariant.certificates _ base row
  · exact ⟨invariant.approved _ base nonce row recorded, invariant.justified⟩
  · exact fun wrong => absurd wrong (show ¬Finished .queuedInstallation by decide)
  · intro other job found
    by_cases same : other = jobId
    · rw [same]
      exact List.mem_append_right _ (List.mem_singleton_self _)
    · refine List.mem_append_left _ (invariant.listed other job ?_)
      exact (Function.update_of_ne same ..).symm.trans found

theorem execute_proceeds (values : Values) (approval : Option Approval) (jobId : String)
    (rounds : Nat) :
    rules.Proceeds (fun _ _ _ => True) (fun _ _ _ => True) owned
      (execute digests values approval jobId rounds) world := by
  unfold execute
  refine then_proceeds (plain_reads (read_only_enter values)) fun held entered later same => ?_
  subst same
  refine then_proceeds (plain_reads (read_only_open ..)) fun held state later same => ?_
  subst same
  refine then_proceeds (plain_reads (read_only_require ..)) fun held _ later same => ?_
  subst same
  refine then_proceeds (plain_reads (read_only_require ..)) fun held _ later same => ?_
  subst same
  cases approval with
  | none => exact fun _ _ => trivial
  | some approval =>
    suffices consumes : rules.Proceeds (fun held _ _ => Permit.worker jobId ∈ held)
        (fun _ _ _ => True) held
        (Program.transact (consume digests approval values entered.2 jobId)) later from
      then_proceeds consumes fun held _ later mine => run_job_proceeds rounds mine
    refine Discipline.proceeds_transact (guarantee_same held) ?_ fun _ _ _ _ _ _ => trivial
    intro middle final result changed done
    obtain ⟨row, found, prepared, recorded, noJob, rfl⟩ := consume_ok done
    have named := changed.2.named _ row found
    have commit := @consume_commit digests held middle row jobId approval.nonce changed.2
      (named ▸ found) prepared recorded noJob
    refine ⟨commit_guarantee commit changed.2, commit_fair commit, fun _ _ => ?_⟩
    refine Discipline.issued_kept ?_ ?_ (commit_spent commit)
    · exact Option.isSome_iff_exists.mpr ⟨_, Function.update_self ..⟩
    · intro issued
      obtain ⟨job, known⟩ := Option.isSome_iff_exists.mp issued
      rw [noJob] at known
      cases known

end Approvals

section Reconciliations

/-- An end that the rest of the request does not depend on. -/
def Ends (jobId : String) {Result : Type} (owned : Set Permit) (program : Steps Result)
    (world : World) : Prop :=
  rules.Proceeds (fun _ _ _ => True) (fun held _ later => Acts .reconciler held later jobId) owned
    program world

variable {credentials : Credentials}

section

variable (here : At .reconciler jobId owned base world)
include here

theorem confirm_ends (issued : Issued base) (onward : Onward base.checkpoint .reconciledVerified) :
    Ends jobId owned (confirmServed base credentials) world := by
  refine then_proceeds (observe_proceeds here) fun held found later seen => ?_
  refine then_proceeds (observe_proceeds seen.1) fun held read later seen => ?_
  obtain ⟨ready, verification⟩ := read
  dsimp only
  cases ready with
  | false =>
    rw [if_neg Bool.false_ne_true]
    exact refuse_proceeds seen.1.acts
  | true =>
    rw [if_pos rfl]
    have final : Successor base
        { base with
          state := .succeeded, checkpoint := .reconciledVerified, verification,
          error := none } :=
      successor_of rfl rfl rfl rfl rfl (.inr rfl) ⟨.inl rfl, issued⟩ base.checkpoint
        .reconciledVerified rfl rfl onward
    refine then_proceeds (@save_finishes digests held later base base jobId .reconciler id
      seen.1 rfl _ final (.inr (.inl rfl)) (fun later _ => publishes_same held _)
      (fun _ => rfl) ?_) fun held _ later _ => pure_proceeds fun _ _ => trivial
    intro later job acts found
    obtain ⟨again, known, idle⟩ := acts
    cases known.symm.trans found
    exact idle

theorem served_ends
    (onward : base.replacementCertificate.isSome → Issued base ∧ Onward base.checkpoint
      .reconciledVerified) :
    Ends jobId owned (reconcileServed base credentials) world := by
  unfold Ends reconcileServed
  cases recorded : base.replacementCertificate with
  | none => exact refuse_proceeds here.acts
  | some replacement =>
    have facts := onward (Option.isSome_of_eq_some recorded)
    exact confirm_ends here facts.1 facts.2

theorem discard_ends (records : Records base) (queued : base.checkpoint = .queuedPreparation) :
    Ends jobId owned (discard base) world := by
  rw [Records, queued] at records
  have final : Successor base
      { base with state := .failed, checkpoint := .reconciledNotDispatched } :=
    successor_of rfl rfl rfl rfl rfl (.inr rfl) ⟨rfl, records.2⟩ .queuedPreparation
      .reconciledNotDispatched queued rfl (by decide)
  refine then_proceeds (@save_finishes digests owned world base base jobId .reconciler id
    here rfl _ final (.inr (.inr rfl)) (fun later _ => publishes_same owned _)
    (fun _ => rfl) ?_) fun held _ later _ => pure_proceeds fun _ _ => trivial
  intro later job acts found
  obtain ⟨again, known, idle⟩ := acts
  cases known.symm.trans found
  exact idle

theorem resume_issue_ends (records : Records base) (received : base.checkpoint = .csrReceived) :
    Ends jobId owned (resumeIssue base credentials) world := by
  unfold Ends resumeIssue
  by_cases usable : hasCsr base = true
  · rw [if_pos usable]
    refine then_proceeds (issue_proceeds here records received) fun held issued later after => ?_
    refine then_proceeds (validate_sddc_proceeds after.1 after.2) fun held _ later _ => ?_
    exact pure_proceeds fun _ _ => trivial
  · rw [if_neg usable]
    refine served_ends here fun recorded => ?_
    rw [Records, received] at records
    rw [records.2.1.2.1] at recorded
    cases recorded

theorem await_csr_ends {task : String} (records : Records base)
    (submitted : base.checkpoint = .csrTaskSubmitted) :
    Ends jobId owned (awaitCsr base credentials task) world := by
  rw [Records, submitted] at records
  refine then_proceeds (reads_proceed (read_only_login ..) here) fun held _ later seen => ?_
  refine then_proceeds (observe_proceeds seen.1) fun held csr later seen => ?_
  have received : Records { base with csrPem := some csr, checkpoint := .csrReceived } :=
    ⟨records.1, records.2.1, rfl, records.2.2.2⟩
  have successor : Successor base { base with csrPem := some csr, checkpoint := .csrReceived } :=
    successor_of rfl rfl rfl rfl rfl (.inr rfl) received .csrTaskSubmitted .csrReceived
      submitted rfl (by decide)
  refine then_proceeds (save_proceeds seen.1 successor trivial .csrReceived rfl (by decide))
    fun held result later after => ?_
  obtain ⟨rfl, there, -, -, -⟩ := after
  exact resume_issue_ends there received rfl

theorem resume_csr_ends (records : Records base) (submitted : base.checkpoint = .csrTaskSubmitted) :
    Ends jobId owned (resumeCsr base credentials) world := by
  unfold Ends resumeCsr
  cases base.nativeCsrTaskId with
  | none => exact refuse_proceeds here.acts
  | some task => exact await_csr_ends here records submitted

theorem resume_validation_ends (validating : Validating false base) :
    Ends jobId owned (resumeValidation base credentials) world := by
  refine then_proceeds (reads_proceed (read_only_revalidate ..) here) fun held _ later seen => ?_
  refine then_proceeds (sddc_validation_proceeds seen.1 validating trivial)
    fun held _ later _ => ?_
  exact pure_proceeds fun _ _ => trivial

theorem step_back_ends (records : Records base)
    (unsent : base.checkpoint = .queuedInstallation ∨ base.checkpoint =
      .rootImportDispatchPending) :
    Ends jobId owned (stepBack base credentials) world := by
  have facts : Issued base ∧ Validated base := by
    rcases unsent with at_ | at_
    · rw [Records, at_] at records
      exact ⟨records.2.1, records.2.2.1⟩
    · rw [Records, at_] at records
      exact ⟨records.2.1, records.2.2.1⟩
  have onward : Onward base.checkpoint .certificatePrepared := by
    rcases unsent with at_ | at_
    · rw [at_]
      decide
    · rw [at_]
      decide
  refine then_proceeds (reads_proceed (read_only_revalidate ..) here) fun held _ later seen => ?_
  have successor : Successor base
      { base with
        state := .prepared, checkpoint := .certificatePrepared, reviewNonce := none,
        error := none } :=
    successor_of rfl rfl rfl rfl rfl (.inl rfl) ⟨.inl rfl, facts⟩ base.checkpoint
      .certificatePrepared rfl rfl onward
  refine then_proceeds (save_proceeds seen.1 successor trivial .certificatePrepared rfl
    (by decide)) fun held _ later _ => ?_
  exact pure_proceeds fun _ _ => trivial

end

omit digests in
/-- What a readback may end: a row with a certificate, or no row. -/
theorem served_onward (records : Records base) (recorded : base.replacementCertificate.isSome) :
    Issued base ∧ Onward base.checkpoint .reconciledVerified := by
  unfold Records at records
  cases at_ : base.checkpoint <;> rw [at_] at records <;> try simp only at records
  case queuedPreparation | csrDispatchPending | csrTaskSubmitted | csrReceived
      | reconciledNotDispatched =>
    have unissued : Unissued base := by
      first
      | exact records.2
      | exact records.2.1
    rw [unissued.2.1] at recorded
    cases recorded
  case certificateIssued | validationDispatchPending | validationTaskSubmitted
      | certificatePrepared | queuedInstallation | rootImportDispatchPending
      | installationDispatchPending | verifyingReadiness =>
    exact ⟨records.2.1, by decide⟩
  case verified | reconciledVerified => exact ⟨records.2, by decide⟩

theorem reconcile_checkpoint_ends (here : At .reconciler jobId owned base world)
    (records : Records base) :
    Ends jobId owned (reconcileCheckpoint base credentials) world := by
  have served : Ends jobId owned (reconcileServed base credentials) world :=
    served_ends here (served_onward records)
  unfold reconcileCheckpoint
  cases at_ : base.checkpoint with
  | queuedPreparation => exact discard_ends here records at_
  | csrTaskSubmitted =>
    dsimp only
    split
    · exact resume_csr_ends here records at_
    · exact served
  | csrReceived => exact resume_issue_ends here records at_
  | certificateIssued =>
    dsimp only
    split
    · rename_i sddc
      exact resume_validation_ends here ⟨records, sddc, .inl at_⟩
    · exact served
  | validationTaskSubmitted =>
    dsimp only
    split
    · rename_i sddc
      exact resume_validation_ends here ⟨records, sddc, .inr (.inr at_)⟩
    · exact served
  | validationDispatchPending =>
    dsimp only
    split
    · rename_i sddc
      exact resume_validation_ends here ⟨records, sddc, .inr (.inl at_)⟩
    · exact served
  | queuedInstallation => exact step_back_ends here records (.inl at_)
  | rootImportDispatchPending => exact step_back_ends here records (.inr at_)
  | csrDispatchPending => exact served
  | certificatePrepared => exact served
  | installationDispatchPending => exact served
  | verifyingReadiness => exact served
  | verified => exact served
  | reconciledVerified => exact served
  | reconciledNotDispatched => exact served

/-- The row is one that its own worker may still write to, if it has not ended. -/
def Unended (state : Operation) : Prop := state.state = .preparing ∨ state.state = .installing

/-- What `reconcile` knows of the row that it loaded. -/
structure Found (base : Operation) (world : World) : Prop where
  based : Based world base
  executed : Installing base.checkpoint →
    Executed base.operationId (reviewed base) world.log
  task : ∃ job, world.jobs base.jobId = some job
  ended : ¬Unended base → base.state ≠ .prepared → Idle world base.jobId

omit digests in
theorem idle_evolves {later : World} (idle : Idle world jobId)
    (changed : Evolves owned world later) : Idle later jobId :=
  @acts_evolves owned world later jobId .reconciler idle changed

omit digests in
theorem found_evolves {later : World} (found : Found base world)
    (changed : Evolves owned world later) : Found base later where
  based := based_evolves found.based changed
  executed := fun installing => executed_evolves (found.executed installing) changed
  task := by
    obtain ⟨job, known⟩ := found.task
    obtain ⟨last, final, -⟩ := changed.jobs _ job known
    exact ⟨last, final⟩
  ended := fun unended other => idle_evolves (found.ended unended other) changed

theorem row_found (invariant : Invariant world)
    (row : world.operations base.operationId = some base) : Found base world where
  based := based_row row
  executed := invariant.authorised _ base row
  task := (invariant.task _ base row).imp fun _ known => known.1
  ended := by
    intro unended other
    obtain ⟨job, known, -⟩ := invariant.task _ base row
    refine ⟨job, known, Bool.eq_false_iff.mpr fun active => ?_⟩
    rcases invariant.live _ base job row known active with stage | stage | stage
    · exact unended (.inl stage)
    · exact other stage
    · exact unended (.inr stage)

theorem load_finds (operationId actor : String) :
    rules.Proceeds (fun held result later => held = owned ∧ Records result ∧ Found result later)
      (fun _ _ _ => True) owned (load operationId actor) world := by
  refine Discipline.proceeds_observe (guarantee_same owned) ?_ fun _ _ _ _ _ _ => trivial
  intro seen result changed found last more
  cases row : seen.operations operationId with
  | none =>
    rw [row] at found
    cases found
  | some state =>
    rw [row] at found
    dsimp only at found
    by_cases own : state.actor = actor
    · rw [if_pos own] at found
      cases found
      have named := changed.2.named operationId result row
      exact ⟨rfl, changed.2.records operationId result row,
        found_evolves (row_found changed.2 (named.symm ▸ row)) more.1⟩
    · rw [if_neg own] at found
      cases found

theorem open_proceeds (values : Values) (reference : Reference) :
    rules.Proceeds (fun held result later => held = owned ∧ Records result ∧ Found result later)
      (fun _ _ _ => True) owned (openOperation values reference) world := by
  refine then_proceeds (load_finds values.operationId values.actor) fun held state later found => ?_
  obtain ⟨rfl, records, there⟩ := found
  have reads := @Discipline.proceeds_read_only _ _ _ _ rules held later _
    (guarantee_same held) (Found state) (fun _ _ changed now => found_evolves now changed.1)
    (read_only_require (sameRequest values reference state)
      "Target or credential identity changed since preparation.") there
  refine then_proceeds (Discipline.proceeds_weaken reads (fun _ _ _ => id)
    fun _ _ _ _ => trivial) fun held _ later after => ?_
  obtain ⟨rfl, still⟩ := after
  exact pure_proceeds fun last changed => ⟨rfl, records, found_evolves still changed.1⟩

theorem busy_proceeds (there : Found base world) :
    rules.Proceeds
      (fun held working later => held = owned ∧ (working = false → base.state ≠ .prepared →
        At .reconciler base.jobId held base later))
      (fun _ _ _ => True) owned (readBusy base) world := by
  refine Discipline.proceeds_observe (guarantee_same owned) ?_ fun _ _ _ _ _ _ => trivial
  intro seen working changed read last more
  cases read
  have now := found_evolves there changed.1
  refine ⟨rfl, fun resting other => at_evolves (?_ : At .reconciler base.jobId owned base seen)
    more.1⟩
  refine ⟨rfl, ?_, now.based, now.executed⟩
  by_cases unended : Unended base
  · obtain ⟨job, known⟩ := now.task
    refine ⟨job, known, ?_⟩
    have state : (decide (base.state = .preparing) || decide (base.state = .installing)) = true := by
      rcases unended with stage | stage <;> rw [stage] <;> rfl
    rw [busy, known, state] at resting
    exact resting
  · exact now.ended unended other

/-- `reconcile`: it writes only to a row whose task has ended. -/
theorem reconcile_proceeds (values : Values) :
    rules.Proceeds (fun _ _ _ => True) (fun _ _ _ => True) owned (reconcile values) world := by
  unfold reconcile
  refine then_proceeds (plain_reads (read_only_administrator _)) fun held _ later same => ?_
  subst same
  refine then_proceeds (plain_reads (read_only_require ..)) fun held _ later same => ?_
  subst same
  refine then_proceeds (plain_reads (Program.read_only_observe _))
    fun held resolved later same => ?_
  subst same
  refine then_proceeds (open_proceeds values resolved.1) fun held state later found => ?_
  obtain ⟨rfl, records, there⟩ := found
  refine then_proceeds (busy_proceeds there) fun held working later after => ?_
  obtain ⟨rfl, here⟩ := after
  cases working with
  | true => exact pure_proceeds fun _ _ => trivial
  | false =>
    rw [if_neg Bool.false_ne_true]
    have resumes : state.state ≠ .prepared →
        rules.Proceeds (fun _ _ _ => True) (fun _ _ _ => True) held
          (reconcileCheckpoint state resolved.2) later := by
      intro other
      exact Discipline.proceeds_weaken (reconcile_checkpoint_ends (here rfl other) records)
        (fun _ _ _ => id) fun _ _ _ _ => trivial
    unfold reconcileState
    cases stage : state.state with
    | succeeded => exact pure_proceeds fun _ _ => trivial
    | prepared =>
      exact Discipline.proceeds_weaken (plain_reads (read_only_revalidate ..))
        (fun _ _ _ _ => trivial) fun _ _ _ _ => trivial
    | preparing => exact resumes (stage ▸ fun wrong => nomatch wrong)
    | installing => exact resumes (stage ▸ fun wrong => nomatch wrong)
    | needsRecovery => exact resumes (stage ▸ fun wrong => nomatch wrong)
    | failed => exact resumes (stage ▸ fun wrong => nomatch wrong)

end Reconciliations

end Atlaso.Vcf.CertificateRequests
