import Atlaso.Vcf.CertificateGuarantees

/-!
When `reconcile` resolves an interrupted certificate operation.

The reconciliation runs alone, on a row whose task has ended and whose checkpoint leaves no
CSR request and no installation in doubt. It branches on the state and on the checkpoint; an
operation that a restart marked after its certificate was prepared has no branch of its own.
-/

namespace Atlaso.Vcf.CertificateRecovery

open Library RequestThreads Outcomes CertificateOperations CertificateWorkflow
open CertificateInvariant CertificateSteps CertificateThreads CertificateWorker CertificateRequests
open CertificateGuarantees

section Definitions

/-- A CSR request or an installation may have reached the appliance. -/
def InDoubt (checkpoint : Checkpoint) : Prop :=
  checkpoint = .csrDispatchPending ∨ checkpoint = .installationDispatchPending ∨
    checkpoint = .verifyingReadiness

structure Interrupted (world : World) (state : Operation) : Prop where
  row : world.operations state.operationId = some state
  unfinished : ¬Finished state.checkpoint
  certain : ¬InDoubt state.checkpoint
  ended : Idle world state.jobId

/-- The request is for the recorded target, which has not changed, nor have the CA, the
profile and the credentials; native reads succeed. -/
structure Unchanged (world : World) (values : Values) (state : Operation)
    (credentials : Credentials) : Prop where
  administrator : world.outside.administrator values.actor = true
  confirmed : values.confirmed = true
  actor : values.actor = state.actor
  operation : values.operationId = state.operationId
  product : values.product = state.product
  target : values.target = state.target
  resolved : world.outside.resolve values.selection =
    .ok (state.credentialReference, credentials)
  inspected : ∃ latest, world.outside.inspect state.product state.target credentials =
    .ok latest ∧ sameTarget latest state = true
  snapshot : world.outside.caSnapshot state.product state.profileId = .ok state.caSnapshot
  root : ∃ root, world.outside.rootChain state.product state.profileId = .ok root
  material : Issued state → ∃ found, material world state = .ok found
  login : world.outside.login state.target credentials = .ok ()
  csr : ∀ task, state.nativeCsrTaskId = some task →
    ∃ csr, world.outside.waitCsr state.target task = .ok csr ∧
      (state.csrPem.isSome → state.csrPem = some csr)

def Resolved (world : World) (operationId : String) : Prop :=
  ∃ state, world.operations operationId = some state ∧
    (state.state = .prepared ∨
      state.state = .failed ∧ ∀ key ∈ state.reservationKeys,
        world.reservations key ≠ some operationId)

def Resolves (world : World) (values : Values) : Prop :=
  ((reconcile values).run world).1 = .ok () ∧
    Resolved ((reconcile values).run world).2 values.operationId

/-- SDDC Manager accepts the certificate, under the recorded or a new validation. -/
def Validates (outside : Outside) (state : Operation) (leaf root : String) : Prop :=
  ∃ validation, (state.nativeValidationId = some validation ∨
    state.nativeValidationId = none ∧
      outside.startValidation state.target leaf root = .ok validation) ∧
    outside.waitValidation state.target validation = .ok ()

/-- The CSR is one for the reviewed identity, and the CA signs it. -/
def Signs (outside : Outside) (state : Operation) (csrPem pem : String) (leaf : Metadata)
    (root : String) : Prop :=
  outside.csrCommonNames state.product csrPem state.names = .ok [state.names.commonName] ∧
    outside.issue (stagedCertificate state csrPem) = some pem ∧
      outside.validateIssued state.product state.names csrPem pem root = .ok leaf

/-- The captured CSR leads to a certificate that can be reviewed. -/
def Accepts (outside : Outside) (state : Operation) (csrPem : String) : Prop :=
  csrPem ≠ "" ∧ ∃ root, outside.rootChain state.product state.profileId = .ok root ∧
    ∃ pem leaf, Signs outside state csrPem pem leaf root ∧
      (state.product = .sddc → Validates outside state pem root)

def Recoverable (world : World) (state : Operation) : Prop :=
  match state.checkpoint with
  | .csrTaskSubmitted => ∀ task csr, state.nativeCsrTaskId = some task →
      world.outside.waitCsr state.target task = .ok csr → Accepts world.outside state csr
  | .csrReceived => ∀ csr, state.csrPem = some csr → Accepts world.outside state csr
  | .certificateIssued | .validationDispatchPending | .validationTaskSubmitted =>
    ∀ found, material world state = .ok found →
      Validates world.outside state found.leaf found.root
  | .certificatePrepared => state.state ≠ .needsRecovery
  | _ => True

end Definitions

section Reads

variable {world later : World} {base state : Operation} {values : Values}
  {credentials : Credentials}

theorem run_found {Result : Type} {read : World → Except String Result} {result : Result}
    (found : read world = .ok result) :
    (Program.observe read).run world = (.ok result, world) :=
  Program.run_observe_ok_iff.mpr ⟨found, rfl⟩

variable {condition : Bool} {message : String}

theorem run_require (holds : condition = true) :
    (require condition message).run world = (.ok (), world) := by
  rw [require, if_pos holds]
  rfl

theorem require_of_run {result : Unit}
    (ran : (require condition message).run world = (.ok result, later)) :
    condition = true ∧ later = world := by
  unfold require at ran
  cases condition with
  | true =>
    cases ran
    exact ⟨rfl, rfl⟩
  | false => cases ran

theorem run_login (unchanged : Unchanged world values state credentials) :
    (login state credentials).run world = (.ok (), world) :=
  run_found unchanged.login

/-- A row whose target, CA and certificate are unchanged is valid. -/
theorem run_revalidate (unchanged : Unchanged world values state credentials)
    (issued : Issued state) : (revalidate state credentials).run world = (.ok (), world) := by
  obtain ⟨latest, inspected, same⟩ := unchanged.inspected
  obtain ⟨found, material⟩ := unchanged.material issued
  have compared : (compareTarget "Target, topology, names, CA or profile changed." state
      credentials).run world = (.ok (), world) := by
    refine (Program.run_bind_ok (run_found inspected)).trans (run_found ?_)
    rw [if_pos same, unchanged.snapshot]
    exact if_pos rfl
  refine (Program.run_bind_ok compared).trans ((Program.run_bind_ok (run_found material)).trans ?_)
  by_cases sddc : state.product = .sddc
  · rw [if_pos sddc]
    refine (Program.run_bind_ok (run_login unchanged)).trans (run_found ?_)
    obtain ⟨task, recorded⟩ := Option.isSome_iff_exists.mp (issued.2.2.2 sddc)
    obtain ⟨csr, waited, captured⟩ := unchanged.csr task recorded
    rw [recorded]
    dsimp only
    rw [waited]
    exact if_pos (captured issued.2.2.1)
  · rw [if_neg sddc]
    rfl

theorem run_reconcile (interrupted : Interrupted world state)
    (unchanged : Unchanged world values state credentials) :
    (reconcile values).run world = (reconcileState state credentials).run world := by
  have administrator : (requireAdministrator values.actor).run world = (.ok (), world) :=
    run_found (if_pos unchanged.administrator)
  have loaded : (load values.operationId values.actor).run world = (.ok state, world) := by
    refine run_found ?_
    rw [unchanged.operation, interrupted.row]
    exact if_pos unchanged.actor.symm
  have same : sameRequest values state.credentialReference state = true := by
    rw [sameRequest, unchanged.product, unchanged.target]
    simp
  have opened : (openOperation values state.credentialReference).run world = (.ok state, world) :=
    (Program.run_bind_ok loaded).trans (Program.run_bind_ok (run_require same))
  have resting : busy state world = false := by
    obtain ⟨job, found, idle⟩ := interrupted.ended
    rw [busy, found]
    exact (congrArg (_ && ·) idle).trans (Bool.and_false _)
  refine (Program.run_bind_ok administrator).trans ?_
  refine (Program.run_bind_ok (run_require unchanged.confirmed)).trans ?_
  refine (Program.run_bind_ok (run_found unchanged.resolved)).trans ?_
  refine (Program.run_bind_ok opened).trans ?_
  have rested : (readBusy state).run world = (.ok false, world) :=
    run_found (congrArg (@Except.ok String Bool) resting)
  refine (Program.run_bind_ok rested).trans ?_
  rw [if_neg Bool.false_ne_true]

end Reads

section Saves

variable {world later : World} {base state : Operation} {pending : World → World}

theorem run_save (row : (pending world).operations state.operationId = some base)
    (same : base.writeRevision = state.writeRevision)
    (frame : (pending world).operations = world.operations) :
    (save pending state).run world = (.ok (saved state), commitState state (pending world)) := by
  have admission : admitted world state = true := by
    rw [admitted, ← frame, row]
    exact decide_eq_true same
  rw [save, Program.run_transact, if_pos admission]

theorem commit_state_frame (state : Operation) (world : World) :
    (commitState state world).operations =
        Function.update world.operations state.operationId (some (saved state)) ∧
      (commitState state world).reservations = world.reservations ∧
        (commitState state world).outside = world.outside ∧
          (commitState state world).certificates = world.certificates := by
  unfold commitState showProgress
  split
  · split
    · exact ⟨rfl, rfl, rfl, rfl⟩
    · exact ⟨rfl, rfl, rfl, rfl⟩
  · exact ⟨rfl, rfl, rfl, rfl⟩

theorem commit_state_row (state : Operation) (world : World) :
    (commitState state world).operations state.operationId = some (saved state) := by
  rw [(commit_state_frame state world).1, Function.update_self]

theorem commit_state_outside (state : Operation) (world : World) :
    (commitState state world).outside = world.outside :=
  (commit_state_frame state world).2.2.1

theorem save_of_run {result : Operation} (ran : (save id state).run world = (.ok result, later)) :
    result = saved state ∧ later.outside = world.outside := by
  rw [save, Program.run_transact] at ran
  by_cases admission : admitted world state = true
  · rw [if_pos admission] at ran
    cases ran
    exact ⟨rfl, commit_state_outside ..⟩
  · rw [if_neg admission] at ran
    cases ran

end Saves

section Issuances

variable {world later : World} {base result : Operation} {csrPem root pem : String}
  {leaf : Metadata}

theorem issued_material {certificateId : Nat} {state : Operation}
    (identifier : state.certificateId = some certificateId)
    (chain : world.outside.rootChain state.product state.profileId = .ok root)
    (csr : state.csrPem = some csrPem)
    (row : world.certificates certificateId =
      some { stagedCertificate state csrPem with certificatePem := pem, issued := true })
    (valid : world.outside.validateIssued state.product state.names csrPem pem root = .ok leaf)
    (expected : state.expects leaf = true) :
    material world state = .ok ⟨pem, leaf, root⟩ := by
  have fits : ({ stagedCertificate state csrPem with
      certificatePem := pem, issued := true } : CaCertificate).fits csrPem = true := by
    simp [CaCertificate.fits, stagedCertificate]
  simp only [material, identifier, chain, csr, row, Option.elim_some, ok_bind]
  rw [if_pos fits, valid, ok_bind, if_pos expected]

theorem run_issuance (row : world.operations base.operationId = some base)
    (unissued : base.replacementCertificate = none) (csr : base.csrPem = some csrPem)
    (snapshot : world.outside.caSnapshot base.product base.profileId = .ok base.caSnapshot)
    (chain : world.outside.rootChain base.product base.profileId = .ok root)
    (signs : Signs world.outside base csrPem pem leaf root) :
    issuance base csrPem world = .ok
      ((commitState (issuedState base world.nextCertificate leaf)
          (withCertificate base csrPem pem world)).record
        (.issued base.operationId world.nextCertificate),
        saved (issuedState base world.nextCertificate leaf)) := by
  have admission : admitted world base = true := by
    rw [admitted, row]
    exact decide_eq_true rfl
  have found : material (withCertificate base csrPem pem world)
      { base with certificateId := some world.nextCertificate } = .ok ⟨pem, leaf, root⟩ := by
    refine issued_material rfl chain csr (Function.update_self ..) signs.2.2 ?_
    rw [Operation.expects, show ({ base with certificateId := some world.nextCertificate } :
      Operation).replacementCertificate = none from unissued]
    rfl
  unfold issuance
  rw [if_pos admission, snapshot, ok_bind, if_pos rfl, signs.2.1, Option.elim_some, ok_bind, found,
    ok_bind]

theorem run_issue (row : world.operations base.operationId = some base) (records : Records base)
    (received : base.checkpoint = .csrReceived) (csr : base.csrPem = some csrPem)
    (snapshot : world.outside.caSnapshot base.product base.profileId = .ok base.caSnapshot)
    (chain : world.outside.rootChain base.product base.profileId = .ok root)
    (signs : Signs world.outside base csrPem pem leaf root) :
    ∃ state later, (issueCertificate base).run world = (.ok state, later) ∧
      state.toPlan = base.toPlan ∧ state.nativeValidationId = base.nativeValidationId ∧
        Prepared state ∧ later.operations state.operationId = some state ∧
          later.outside = world.outside ∧ material later state = .ok ⟨pem, leaf, root⟩ := by
  have prepared := @prepared_state base leaf world.nextCertificate records received
  rw [Records, received] at records
  have unissued : base.replacementCertificate = none := records.2.1.2.1
  refine ⟨saved (issuedState base world.nextCertificate leaf),
    (commitState (issuedState base world.nextCertificate leaf)
      (withCertificate base csrPem pem world)).record
        (.issued base.operationId world.nextCertificate), ?_, rfl, rfl, prepared,
    commit_state_row .., commit_state_outside .., ?_⟩
  · have issues := run_issuance row unissued csr snapshot chain signs
    unfold issueCertificate
    rw [csr]
    refine (Program.run_bind_ok (run_found signs.1)).trans ?_
    refine (Program.run_bind_ok (run_require (decide_eq_true rfl))).trans ?_
    rw [Program.run_transact, issues]
  · obtain ⟨-, -, outside, certificates⟩ := commit_state_frame
      (issuedState base world.nextCertificate leaf) (withCertificate base csrPem pem world)
    refine issued_material rfl ?_ csr ?_ ?_ ?_
    · exact (congrArg (fun outside => outside.rootChain base.product base.profileId)
        outside).trans chain
    · exact (congrFun certificates world.nextCertificate).trans (Function.update_self ..)
    · exact (congrArg (fun outside => outside.validateIssued base.product base.names csrPem pem
        root) outside).trans signs.2.2
    · exact Bool.or_eq_true_iff.mpr (.inr (decide_eq_true rfl))

/-- What the CA has answered when its transaction commits. -/
theorem issuance_signs {committed : World × Operation}
    (chain : world.outside.rootChain base.product base.profileId = .ok root)
    (csr : base.csrPem = some csrPem) (done : issuance base csrPem world = .ok committed) :
    ∃ pem leaf, world.outside.issue (stagedCertificate base csrPem) = some pem ∧
      world.outside.validateIssued base.product base.names csrPem pem root = .ok leaf := by
  unfold issuance at done
  by_cases admission : admitted world base = true
  · rw [if_pos admission] at done
    obtain ⟨snapshot, -, done⟩ := bind_ok_iff.mp done
    by_cases unchanged : snapshot = base.caSnapshot
    · rw [if_pos unchanged] at done
      obtain ⟨pem, signed, done⟩ := bind_ok_iff.mp done
      obtain ⟨found, valid, -⟩ := bind_ok_iff.mp done
      cases issued : world.outside.issue (stagedCertificate base csrPem) with
      | none =>
        rw [issued] at signed
        cases signed
      | some signature =>
        rw [issued] at signed
        cases signed
        simp only [material, csr, Option.elim_some, ok_bind] at valid
        rw [show (withCertificate base csrPem pem world).outside = world.outside from rfl,
          chain, ok_bind, show (withCertificate base csrPem pem world).certificates
            world.nextCertificate = some
              { stagedCertificate base csrPem with certificatePem := pem, issued := true }
            from Function.update_self .., Option.elim_some, ok_bind] at valid
        split at valid
        · obtain ⟨leaf, validated, -⟩ := bind_ok_iff.mp valid
          exact ⟨pem, leaf, rfl, validated⟩
        · cases valid
    · rw [if_neg unchanged] at done
      cases done
  · rw [if_neg admission] at done
    cases done

theorem signs_of_run (csr : base.csrPem = some csrPem)
    (chain : world.outside.rootChain base.product base.profileId = .ok root)
    (ran : (issueCertificate base).run world = (.ok result, later)) :
    ∃ pem leaf, Signs world.outside base csrPem pem leaf root := by
  unfold issueCertificate at ran
  rw [csr] at ran
  obtain ⟨names, middle, named, ran⟩ := Program.run_bind_ok_iff.mp ran
  obtain ⟨named, same⟩ := Program.run_observe_ok_iff.mp named
  obtain ⟨_, last, required, ran⟩ := Program.run_bind_ok_iff.mp ran
  obtain ⟨reviewed, again⟩ := require_of_run required
  rw [of_decide_eq_true reviewed] at named
  rw [Program.run_transact, again, same] at ran
  cases done : issuance base csrPem world with
  | error error =>
    rw [done] at ran
    cases ran
  | ok committed =>
    obtain ⟨pem, leaf, signs⟩ := issuance_signs chain csr done
    exact ⟨pem, leaf, named, signs⟩

end Issuances

section Validations

variable {world later : World} {base result : Operation} {credentials : Credentials}
  {found : Material}

/-- The validation of SDDC Manager is submitted, unless its identifier is recorded. -/
theorem run_submit (row : world.operations base.operationId = some base) {validation : String}
    (submits : base.nativeValidationId = some validation ∨ base.nativeValidationId = none ∧
      world.outside.startValidation base.target found.leaf found.root = .ok validation) :
    ∃ state later, (submitValidation base found).run world = (.ok (state, validation), later) ∧
      state.toPlan = base.toPlan ∧ later.operations base.operationId = some state ∧
        later.outside = world.outside := by
  unfold submitValidation
  rcases submits with recorded | ⟨missing, started⟩
  · rw [recorded]
    exact ⟨base, world, rfl, rfl, row, rfl⟩
  · rw [missing]
    have first := @run_save world base { base with checkpoint := .validationDispatchPending } id
      row rfl rfl
    have outside := commit_state_outside
      { base with checkpoint := .validationDispatchPending } world
    have again := @run_save
      (commitState { base with checkpoint := .validationDispatchPending } world)
      (saved { base with checkpoint := .validationDispatchPending })
      { saved { base with checkpoint := .validationDispatchPending } with
        nativeValidationId := some validation, checkpoint := .validationTaskSubmitted } id
      (commit_state_row ..) rfl rfl
    refine ⟨_, _, (Program.run_bind_ok first).trans ((Program.run_bind_ok (run_found ?_)).trans
      (Program.run_bind_ok again)), rfl, commit_state_row .., ?_⟩
    · rw [id, outside]
      exact started
    · exact (commit_state_outside ..).trans outside

theorem run_sddc_validation (row : world.operations base.operationId = some base)
    (read : material world base = .ok found)
    (opened : world.outside.login base.target credentials = .ok ())
    (valid : Validates world.outside base found.leaf found.root) :
    ∃ state later, (sddcValidation false base credentials).run world = (.ok state, later) ∧
      later.operations base.operationId = some state ∧ state.state = .prepared := by
  obtain ⟨validation, submits, waited⟩ := valid
  obtain ⟨state, middle, submitted, plan, current, outside⟩ := run_submit row submits
  have named : state.operationId = base.operationId := plan_operation plan
  have target : state.target = base.target := congrArg Plan.target plan
  have waits : middle.outside.waitValidation state.target validation = .ok () := by
    rw [target, outside]
    exact waited
  refine ⟨_, _, (Program.run_bind_ok (run_found read)).trans
    ((Program.run_bind_ok (run_found opened)).trans ((Program.run_bind_ok submitted).trans
      ((Program.run_bind_ok (run_found waits)).trans
        (@run_save middle state (validatedState false state) id (named ▸ current) rfl rfl)))),
    ?_, rfl⟩
  rw [← named]
  exact commit_state_row (validatedState false state) middle

theorem submit_of_run {validation : String} {state : Operation}
    (ran : (submitValidation base found).run world = (.ok (state, validation), later)) :
    state.target = base.target ∧ later.outside = world.outside ∧
      (base.nativeValidationId = some validation ∨ base.nativeValidationId = none ∧
        world.outside.startValidation base.target found.leaf found.root = .ok validation) := by
  unfold submitValidation at ran
  cases recorded : base.nativeValidationId with
  | some known =>
    rw [recorded] at ran
    cases ran
    exact ⟨rfl, rfl, .inl rfl⟩
  | none =>
    rw [recorded] at ran
    obtain ⟨pending, first, saves, starting⟩ := Program.run_bind_ok_iff.mp ran
    obtain ⟨started, second, starts, recording⟩ := Program.run_bind_ok_iff.mp starting
    obtain ⟨submitted, third, again, ends⟩ := Program.run_bind_ok_iff.mp recording
    obtain ⟨shape, outside⟩ := save_of_run saves
    obtain ⟨starts, unmoved⟩ := Program.run_observe_ok_iff.mp starts
    obtain ⟨shapeAgain, outsideAgain⟩ := save_of_run again
    rw [shape] at starts shapeAgain
    rw [outside] at starts
    rw [unmoved, outside] at outsideAgain
    cases ends
    rw [shapeAgain]
    exact ⟨rfl, outsideAgain, .inr ⟨rfl, starts⟩⟩

theorem validates_of_run (read : material world base = .ok found)
    (ran : (sddcValidation false base credentials).run world = (.ok result, later)) :
    Validates world.outside base found.leaf found.root := by
  obtain ⟨again, first, reads, opening⟩ := Program.run_bind_ok_iff.mp ran
  obtain ⟨_, second, opens, submitting⟩ := Program.run_bind_ok_iff.mp opening
  obtain ⟨⟨state, validation⟩, third, submits, waiting⟩ := Program.run_bind_ok_iff.mp submitting
  obtain ⟨_, fourth, waits, -⟩ := Program.run_bind_ok_iff.mp waiting
  obtain ⟨same, unmoved⟩ := Program.run_observe_ok_iff.mp reads
  obtain ⟨-, still⟩ := Program.run_observe_ok_iff.mp opens
  obtain ⟨waited, -⟩ := Program.run_observe_ok_iff.mp waits
  cases read.symm.trans same
  rw [still, unmoved] at submits
  obtain ⟨target, outside, recorded⟩ := submit_of_run submits
  rw [target, outside] at waited
  exact ⟨validation, recorded, waited⟩

end Validations

section Branches

variable {world later : World} {base state : Operation} {values : Values}
  {credentials : Credentials} {csrPem root : String}

def Settles (program : Steps Unit) (world : World) (operationId : String) : Prop :=
  (program.run world).1 = .ok () ∧ Resolved (program.run world).2 operationId

variable {operationId : String}

theorem settles_of_run {program : Steps Unit} (ran : program.run world = (.ok (), later))
    (resolved : Resolved later operationId) :
    Settles program world operationId := by
  rw [Settles, ran]
  exact ⟨rfl, resolved⟩

theorem run_of_settles {program : Steps Unit} (settles : Settles program world operationId) :
    ∃ later, program.run world = (.ok (), later) ∧ Resolved later operationId :=
  ⟨_, Prod.ext settles.1 rfl, settles.2⟩

theorem prepared_resolved (row : world.operations operationId = some state)
    (prepared : state.state = .prepared) :
    Resolved world operationId :=
  ⟨state, row, .inl prepared⟩

theorem validates_same {outside : Outside} {leaf : String} (plan : state.toPlan = base.toPlan)
    (recorded : state.nativeValidationId = base.nativeValidationId) :
    Validates outside state leaf root ↔ Validates outside base leaf root := by
  have target : state.target = base.target := congrArg Plan.target plan
  rw [Validates, Validates, target, recorded]

/-- No worker had started: the operation fails and releases its target. -/
theorem discard_settles (row : world.operations base.operationId = some base) :
    Settles (discard base) world base.operationId := by
  have saves := @run_save world base
    { base with state := .failed, checkpoint := .reconciledNotDispatched } (release base)
    row rfl rfl
  obtain ⟨-, reservations, -, -⟩ := commit_state_frame
    { base with state := .failed, checkpoint := .reconciledNotDispatched } (release base world)
  refine settles_of_run (Program.run_bind_ok saves) ⟨_, commit_state_row .., .inr ⟨rfl, ?_⟩⟩
  intro key inside
  rw [reservations]
  exact release_releases base world inside

theorem has_csr_iff (csr : base.csrPem = some csrPem) : hasCsr base = true ↔ csrPem ≠ "" := by
  rw [hasCsr, csr]
  exact decide_eq_true_iff

theorem resume_issue_settles_iff (row : world.operations base.operationId = some base)
    (records : Records base) (received : base.checkpoint = .csrReceived)
    (csr : base.csrPem = some csrPem)
    (snapshot : world.outside.caSnapshot base.product base.profileId = .ok base.caSnapshot)
    (chain : world.outside.rootChain base.product base.profileId = .ok root)
    (opened : world.outside.login base.target credentials = .ok ()) :
    Settles (resumeIssue base credentials) world base.operationId ↔
      Accepts world.outside base csrPem := by
  unfold resumeIssue
  by_cases usable : hasCsr base = true
  · rw [if_pos usable]
    constructor
    · intro settles
      obtain ⟨last, ran, -⟩ := run_of_settles settles
      obtain ⟨issued, middle, issues, validating⟩ := Program.run_bind_ok_iff.mp ran
      obtain ⟨pem, leaf, signs⟩ := signs_of_run csr chain issues
      refine ⟨(has_csr_iff csr).mp usable, root, chain, pem, leaf, signs, fun sddc => ?_⟩
      obtain ⟨state, after, again, plan, recorded, -, -, outside, found⟩ :=
        run_issue row records received csr snapshot chain signs
      cases issues.symm.trans again
      obtain ⟨validated, final, validates, -⟩ := Program.run_bind_ok_iff.mp validating
      have product : issued.product = .sddc := (congrArg Plan.product plan).trans sddc
      rw [validateSddc, if_pos product] at validates
      have valid := validates_of_run found validates
      rw [outside, validates_same plan recorded] at valid
      exact valid
    · rintro ⟨-, other, again, pem, leaf, signs, validates⟩
      cases chain.symm.trans again
      obtain ⟨state, after, issues, plan, recorded, prepared, current, outside, found⟩ :=
        run_issue row records received csr snapshot chain signs
      have named : state.operationId = base.operationId := plan_operation plan
      have product : state.product = base.product := congrArg Plan.product plan
      by_cases sddc : base.product = .sddc
      · have valid := validates sddc
        rw [← validates_same plan recorded, ← outside] at valid
        have login : after.outside.login state.target credentials = .ok () := by
          rw [outside, show state.target = base.target from congrArg Plan.target plan]
          exact opened
        obtain ⟨last, final, ran, placed, ready⟩ := run_sddc_validation current found login valid
        have validated : (validateSddc false state credentials).run after = (.ok last, final) := by
          rw [validateSddc, if_pos (product.trans sddc)]
          exact ran
        refine settles_of_run ((Program.run_bind_ok issues).trans (Program.run_bind_ok validated))
          (prepared_resolved (named ▸ placed) ready)
      · have validated : (validateSddc false state credentials).run after = (.ok state, after) := by
          rw [validateSddc, if_neg (product ▸ sddc)]
          rfl
        refine settles_of_run ((Program.run_bind_ok issues).trans (Program.run_bind_ok validated))
          (prepared_resolved (named ▸ current) ?_)
        rcases prepared.2 with ⟨wrong, -⟩ | ⟨-, stage, -⟩
        · exact absurd (product.symm.trans wrong) sddc
        · exact stage
  · rw [if_neg usable]
    refine ⟨fun settles => ?_, fun accepts => absurd ((has_csr_iff csr).mpr accepts.1) usable⟩
    obtain ⟨last, ran, -⟩ := run_of_settles settles
    rw [Records, received] at records
    unfold reconcileServed at ran
    rw [records.2.1.2.1] at ran
    cases ran

theorem served_never_settles : ¬Settles (reconcileServed base credentials) world base.operationId := by
  intro settles
  obtain ⟨last, ran, resolved⟩ := run_of_settles settles
  unfold reconcileServed at ran
  cases recorded : base.replacementCertificate with
  | none =>
    rw [recorded] at ran
    cases ran
  | some replacement =>
    rw [recorded] at ran
    obtain ⟨found, first, reads, verifying⟩ := Program.run_bind_ok_iff.mp ran
    obtain ⟨⟨ready, verification⟩, second, verifies, saving⟩ :=
      Program.run_bind_ok_iff.mp verifying
    cases ready with
    | false => cases saving
    | true =>
      obtain ⟨saved_, third, saves, ends⟩ := Program.run_bind_ok_iff.mp saving
      cases ends
      rw [save, Program.run_transact] at saves
      split at saves
      · rename_i committed accepted
        split at accepted
        · cases accepted
          cases saves
          obtain ⟨state, row, outcome⟩ := resolved
          have placed := commit_state_row
            { base with
              state := .succeeded, checkpoint := .reconciledVerified, verification,
              error := none } (release base second)
          cases row.symm.trans placed
          rcases outcome with wrong | ⟨wrong, -⟩ <;> cases wrong
        · cases accepted
      · cases saves

theorem settles_bind {Result : Type} {first : Steps Result} {next : Result → Steps Unit}
    {result : Result} (ran : first.run world = (.ok result, later)) :
    Settles (first >>= next) world operationId ↔ Settles (next result) later operationId := by
  rw [Settles, Settles, Program.run_bind_ok ran]

section

variable (row : world.operations base.operationId = some base)
  (unchanged : Unchanged world values base credentials)
include row unchanged

theorem resume_csr_settles_iff (records : Records base)
    (submitted : base.checkpoint = .csrTaskSubmitted) :
    Settles (resumeCsr base credentials) world base.operationId ↔
      ∀ task csr, base.nativeCsrTaskId = some task →
        world.outside.waitCsr base.target task = .ok csr → Accepts world.outside base csr := by
  rw [Records, submitted] at records
  obtain ⟨task, recorded⟩ := Option.isSome_iff_exists.mp (records.2.2.2 records.2.2.1)
  obtain ⟨csr, waited, -⟩ := unchanged.csr task recorded
  obtain ⟨root, chain⟩ := unchanged.root
  have saves := @run_save world base
    { base with csrPem := some csr, checkpoint := .csrReceived } id row rfl rfl
  have outside := commit_state_outside
    { base with csrPem := some csr, checkpoint := .csrReceived } world
  have received : Records (saved { base with csrPem := some csr, checkpoint := .csrReceived }) :=
    ⟨records.1, records.2.1, rfl, records.2.2.2⟩
  have resumed := @resume_issue_settles_iff
    (commitState { base with csrPem := some csr, checkpoint := .csrReceived } world)
    (saved { base with csrPem := some csr, checkpoint := .csrReceived }) credentials csr root
    (commit_state_row ..) received rfl rfl (outside ▸ unchanged.snapshot) (outside ▸ chain)
    (outside ▸ unchanged.login)
  rw [outside] at resumed
  unfold resumeCsr
  rw [recorded]
  refine (settles_bind (run_login unchanged)).trans ((settles_bind (run_found waited)).trans
    ((settles_bind saves).trans (resumed.trans ⟨?_, ?_⟩)))
  · rintro accepts other again same answered
    cases same
    cases waited.symm.trans answered
    exact accepts
  · exact fun accepts => accepts task csr rfl waited

theorem resume_validation_settles_iff (issued : Issued base) :
    Settles (resumeValidation base credentials) world base.operationId ↔
      ∀ found, material world base = .ok found →
        Validates world.outside base found.leaf found.root := by
  obtain ⟨found, read⟩ := unchanged.material issued
  refine (settles_bind (run_revalidate unchanged issued)).trans ⟨?_, ?_⟩
  · intro settles other again
    cases read.symm.trans again
    obtain ⟨last, ran, -⟩ := run_of_settles settles
    obtain ⟨state, middle, validates, -⟩ := Program.run_bind_ok_iff.mp ran
    exact validates_of_run read validates
  · intro validates
    obtain ⟨state, last, ran, placed, prepared⟩ :=
      run_sddc_validation row read unchanged.login (validates found read)
    exact settles_of_run (Program.run_bind_ok ran) (prepared_resolved placed prepared)

/-- An installation that was not sent is reviewed again. -/
theorem step_back_settles (issued : Issued base) :
    Settles (stepBack base credentials) world base.operationId := by
  have saves := @run_save world base
    { base with
      state := .prepared, checkpoint := .certificatePrepared, reviewNonce := none,
      error := none } id row rfl rfl
  refine (settles_bind (run_revalidate unchanged issued)).mpr
    (settles_of_run (Program.run_bind_ok saves) (prepared_resolved (commit_state_row ..) rfl))

end

theorem reconcile_open (open_ : state.state = .preparing ∨ state.state = .installing ∨
    state.state = .needsRecovery) :
    reconcileState state credentials = reconcileCheckpoint state credentials := by
  unfold reconcileState
  rcases open_ with stage | stage | stage <;> rw [stage]

theorem reconcile_state_settles_iff (interrupted : Interrupted world state)
    (unchanged : Unchanged world values state credentials) (records : Records state) :
    Settles (reconcileState state credentials) world state.operationId ↔
      Recoverable world state := by
  obtain ⟨row, unfinished, certain, -⟩ := interrupted
  have facts := records
  unfold Records at facts
  unfold Recoverable
  cases at_ : state.checkpoint <;> rw [at_] at facts <;> dsimp only at facts ⊢
  case queuedPreparation =>
    rw [reconcile_open (facts.1.imp_right .inr), reconcileCheckpoint, at_]
    exact iff_true_intro (discard_settles row)
  case csrTaskSubmitted =>
    rw [reconcile_open (facts.1.imp_right .inr), reconcileCheckpoint, at_]
    dsimp only
    rw [if_pos facts.2.2.1]
    exact resume_csr_settles_iff row unchanged records at_
  case csrReceived =>
    rw [reconcile_open (facts.1.imp_right .inr), reconcileCheckpoint, at_]
    obtain ⟨csr, captured⟩ := Option.isSome_iff_exists.mp facts.2.2.1
    obtain ⟨root, chain⟩ := unchanged.root
    refine (resume_issue_settles_iff row records at_ captured unchanged.snapshot chain
      unchanged.login).trans ⟨?_, fun accepts => accepts csr captured⟩
    rintro accepts other again
    cases captured.symm.trans again
    exact accepts
  case certificateIssued | validationDispatchPending =>
    rw [reconcile_open (facts.1.imp_right .inr), reconcileCheckpoint, at_]
    dsimp only
    rw [if_pos facts.2.2.1]
    exact resume_validation_settles_iff row unchanged facts.2.1
  case validationTaskSubmitted =>
    rw [reconcile_open (facts.1.imp_right .inr), reconcileCheckpoint, at_]
    dsimp only
    rw [if_pos facts.2.2.1]
    exact resume_validation_settles_iff row unchanged facts.2.1
  case certificatePrepared =>
    rcases facts.1 with prepared | marked
    · refine ⟨fun _ wrong => ?_, fun _ => ?_⟩
      · rw [prepared] at wrong
        cases wrong
      · unfold reconcileState
        rw [prepared]
        exact settles_of_run (run_revalidate unchanged facts.2.1) (prepared_resolved row prepared)
    · rw [reconcile_open (.inr (.inr marked)), reconcileCheckpoint, at_]
      exact ⟨fun settles => absurd settles served_never_settles,
        fun wrong => absurd marked wrong⟩
  case queuedInstallation | rootImportDispatchPending =>
    rw [reconcile_open (.inr facts.1), reconcileCheckpoint, at_]
    exact iff_true_intro (step_back_settles row unchanged facts.2.1)
  case csrDispatchPending => exact absurd (.inl at_) certain
  case installationDispatchPending => exact absurd (.inr (.inl at_)) certain
  case verifyingReadiness => exact absurd (.inr (.inr at_)) certain
  case verified => exact absurd (.inl at_) unfinished
  case reconciledVerified => exact absurd (.inr (.inl at_)) unfinished
  case reconciledNotDispatched => exact absurd (.inr (.inr at_)) unfinished

theorem marked_never_resolves (interrupted : Interrupted world state)
    (unchanged : Unchanged world values state credentials) (marked : state.state = .needsRecovery)
    (prepared : state.checkpoint = .certificatePrepared) : ¬Resolves world values := by
  rw [Resolves, run_reconcile interrupted unchanged, reconcile_open (.inr (.inr marked)),
    reconcileCheckpoint, prepared, unchanged.operation]
  exact served_never_settles

/-- In every run: an interrupted operation whose target, CA, profile and credentials have not
changed is left for review, or failed without reservations, exactly when it was not marked
for recovery after its certificate was prepared, its captured CSR is one that the CA signs,
and SDDC Manager accepts its certificate. -/
theorem reconcile_resolves_iff [digests : Digests] {initial : World} (empty : Empty initial)
    {pool : Pool World String} (reached : Reached digests initial pool)
    (interrupted : Interrupted pool.world state)
    (unchanged : Unchanged pool.world values state credentials) :
    Resolves pool.world values ↔ Recoverable pool.world state := by
  have invariant := (reached_invariant empty reached).1
  have records := invariant.records _ state interrupted.row
  rw [Resolves, run_reconcile interrupted unchanged, unchanged.operation]
  exact reconcile_state_settles_iff interrupted unchanged records

end Branches

section Samples

def stoppedWorld (steps : Nat) : World :=
  recoverInterruptedJobs (samplePrepare.advance steps sampleWorld).2

def stoppedState (steps : Nat) : Operation :=
  ((stoppedWorld steps).operations "operation").getD
    (initialState sampleValues "" "" (.manual "") sampleInspection sampleSnapshot [])

theorem stopped_reached (steps : Nat) :
    Reached sampleDigests sampleWorld ⟨stoppedWorld steps, fun _ => none⟩ := by
  have stopped := @reachable_start World String (Request sampleDigests) Changes Restarts
    ⟨sampleWorld, fun _ => none⟩ 0 sampleWorld .refl steps samplePrepare
    (.prepare sampleValues _ _ 0) rfl
  exact stopped.tail (.restart rfl)

/-- What the request and the inspection compare of a row. -/
def AsPlanned (state : Operation) : Prop :=
  state.operationId = "operation" ∧ state.actor = "admin" ∧ state.product = .srm ∧
    state.target = sampleValues.target ∧ state.credentialReference = .manual "root" ∧
      sameTarget sampleInspection state = true ∧ state.caSnapshot = sampleSnapshot ∧
        state.nativeCsrTaskId = none

instance (state : Operation) : Decidable (AsPlanned state) :=
  inferInstanceAs (Decidable (_ ∧ _ ∧ _ ∧ _ ∧ _ ∧ _ ∧ _ ∧ _))

theorem sample_unchanged {world : World} {state : Operation}
    (outside : world.outside = sampleOutside) (planned : AsPlanned state)
    (read : Issued state → ∃ found, material world state = .ok found) :
    Unchanged world sampleValues state ⟨"root", "secret"⟩ := by
  obtain ⟨operation, actor, product, target, reference, same, snapshot, task⟩ := planned
  exact
    { administrator := by rw [outside]; rfl
      confirmed := rfl
      actor := actor.symm
      operation := operation.symm
      product := product.symm
      target := target.symm
      resolved := by rw [outside, reference]; rfl
      inspected := ⟨sampleInspection, by rw [outside]; rfl, same⟩
      snapshot := by rw [outside, snapshot]; rfl
      root := ⟨"root", by rw [outside]; rfl⟩
      material := read
      login := by rw [outside]; rfl
      csr := fun known recorded => by rw [task] at recorded; cases recorded }

/-- A restart after the issuance and before the worker's last commit: the operation is marked
for recovery at a checkpoint that `reconcile` does not resume. -/
theorem prepared_operation_dead_end :
    ¬∀ (initial : World) (pool : Pool World String) (values : Values) (state : Operation)
      (credentials : Credentials), Empty initial → Reached sampleDigests initial pool →
        Interrupted pool.world state → Unchanged pool.world values state credentials →
          Resolves pool.world values := by
  intro claimed
  have facts : (stoppedState 21).state = .needsRecovery ∧
      (stoppedState 21).checkpoint = .certificatePrepared ∧ AsPlanned (stoppedState 21) ∧
        (stoppedWorld 21).operations "operation" = some (stoppedState 21) ∧
          ((stoppedWorld 21).jobs (stoppedState 21).jobId).map Job.active = some false := by
    decide +kernel
  obtain ⟨marked, at_, planned, row, ended⟩ := facts
  have interrupted : Interrupted (stoppedWorld 21) (stoppedState 21) := by
    refine ⟨planned.1.symm ▸ row, ?_, ?_, Option.map_eq_some_iff.mp ended⟩
    · rw [at_]
      decide
    · rw [at_]
      rintro (wrong | wrong | wrong) <;> cases wrong
  have unchanged : Unchanged (stoppedWorld 21) sampleValues (stoppedState 21) ⟨"root", "secret"⟩ :=
    sample_unchanged rfl planned fun _ => ⟨⟨"leaf", sampleCertificate "cc", "root"⟩, rfl⟩
  exact marked_never_resolves interrupted unchanged marked at_
    (claimed sampleWorld _ sampleValues _ _ sample_empty (stopped_reached 21) interrupted unchanged)

/-- A restart after the CSR was received: the operation is resumed. -/
theorem received_operation_resolves : Resolves (stoppedWorld 19) sampleValues := by
  have facts : (stoppedState 19).checkpoint = .csrReceived ∧
      (stoppedState 19).csrPem = some "csr" ∧ (stoppedState 19).certificateId = none ∧
        AsPlanned (stoppedState 19) ∧
          (stoppedWorld 19).operations "operation" = some (stoppedState 19) ∧
            ((stoppedWorld 19).jobs (stoppedState 19).jobId).map Job.active = some false ∧
              (stoppedState 19).names = sampleNames := by
    decide +kernel
  obtain ⟨at_, captured, unissued, planned, row, ended, names⟩ := facts
  have interrupted : Interrupted (stoppedWorld 19) (stoppedState 19) := by
    refine ⟨planned.1.symm ▸ row, ?_, ?_, Option.map_eq_some_iff.mp ended⟩
    · rw [at_]
      decide
    · rw [at_]
      rintro (wrong | wrong | wrong) <;> cases wrong
  have unchanged : Unchanged (stoppedWorld 19) sampleValues (stoppedState 19)
      ⟨"root", "secret"⟩ := by
    refine sample_unchanged rfl planned fun issued => ?_
    rw [Issued, unissued] at issued
    cases issued.1
  refine (@reconcile_resolves_iff _ _ _ sampleDigests _ sample_empty _ (stopped_reached 19)
    interrupted unchanged).mpr ?_
  rw [Recoverable, at_]
  intro csr recorded
  cases captured.symm.trans recorded
  refine ⟨by decide, "root", rfl, "leaf", sampleCertificate "cc", ⟨?_, rfl, rfl⟩, fun sddc => ?_⟩
  · rfl
  · rw [planned.2.2.1] at sddc
    cases sddc

end Samples

end Atlaso.Vcf.CertificateRecovery
