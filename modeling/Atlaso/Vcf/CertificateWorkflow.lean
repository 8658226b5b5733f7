import Atlaso.Vcf.CertificateOperations

/-!
The requests and the worker of the native certificate workflow.

Each function is a sequence of reads, committed transactions and native calls; requests of
all administrators, reconciliations and workers run at once. The worker of a task runs after
the response of the request that created the task, in the same thread.
-/

namespace Atlaso.Vcf.CertificateWorkflow

open Library.RequestThreads CertificateOperations

/-- A validated request. -/
structure Values where
  actor : String
  product : Product
  target : Target
  (confirmed acknowledged recoveryReady : Bool)
  selection : Selection
  (operationId recoveryReference : String)
  names : Names
  profileId : Nat

/-- `_confirmed`. -/
def requireConfirmed (values : Values) : Steps Unit :=
  Program.observe fun world =>
    if values.confirmed then
      match world.outside.probe values.target with
      | .error message => .error message
      | .ok fingerprint =>
        if fingerprint = values.target.fingerprint then .ok ()
        else .error "TLS identity changed. Independently confirm the target again."
    else .error "Confirm the target TLS fingerprint before authentication."

def resolve (values : Values) : Steps (Reference × Credentials) :=
  Program.observe fun world => world.outside.resolve values.selection

def refuse {Result : Type} (message : String) : Steps Result := .fail message

def require (condition : Bool) (message : String) : Steps Unit :=
  if condition then pure () else refuse message

/-- What every request but `probe` and `reconcile` does first. -/
def enter (values : Values) : Steps (Reference × Credentials) := do
  requireAdministrator values.actor
  requireConfirmed values
  resolve values

def recoveryAccepted (recovery : String) : Bool :=
  recovery ≠ "" && recovery.length ≤ 500 && recovery.toList.all (fun c => 32 ≤ c.toNat) &&
    !recovery.toList.tails.any ("://".toList.isPrefixOf ·)

section Worker

def manual (selection : Selection) : Reference → Option Selection
  | .manual _ => some selection
  | .vault .. => none

/-- The selection of the worker: the manual one of its request, or the recorded entry. -/
def workerSelection (manual : Option Selection) : Reference → Selection
  | .manual _ => manual.getD (.vault 0 0)
  | .vault vaultId entryId _ _ => manual.getD (.vault vaultId entryId)

/-- The change of a task's row that a commit of its worker publishes. -/
def endJob (jobId : String) (status : JobStatus) (error : String) (world : World) : World :=
  match world.jobs jobId with
  | some job => world.withJob jobId { job with status, error, progressPercent := 100 }
  | none => world

/-- The request of a CSR: it may have reached the appliance whatever the reply. -/
def requestCsr {Answer : Type} (state : Operation)
    (reply : World → Except String Answer) : Steps Answer :=
  .atomic (fun world => world.record (.csrRequested state.operationId)) fun world =>
    match reply world with
    | .ok answer => .done answer
    | .error message => .fail message

/-- The CSR of the appliance, through its durable task on SDDC Manager. -/
def collectCsr (state : Operation) : Steps (Operation × String) :=
  match state.product with
  | .sddc => do
      let task ← requestCsr state fun world => world.outside.startCsr state.target
      let state ← save id
        { state with nativeCsrTaskId := some task, checkpoint := .csrTaskSubmitted }
      let csr ← Program.observe fun world => world.outside.waitCsr state.target task
      return (state, csr)
  | _ => do
      let csr ← requestCsr state fun world => world.outside.generateCsr state.target
      return (state, csr)

/-- The row of the certificate that `_issue` adds before the CA signs it. -/
def stagedCertificate (state : Operation) (csrPem : String) : CaCertificate :=
  ⟨state.profileId, csrPem, "", false, true, false⟩

/-- The state after the issuance: SDDC Manager has still to validate the certificate. -/
def preparedState (state : Operation) (leaf : Metadata) : Operation :=
  { state with
    replacementCertificate := some leaf
    state := if state.product = .sddc then .preparing else .prepared
    checkpoint := if state.product = .sddc then .certificateIssued else .certificatePrepared
    error := none }

/-- The operation with its certificate, as `_issue` saves it. -/
def issuedState (state : Operation) (certificateId : Nat) (leaf : Metadata) : Operation :=
  preparedState { state with certificateId := some certificateId } leaf

/-- The tables with the certificate that the CA has signed. -/
def withCertificate (state : Operation) (csrPem pem : String) (world : World) : World :=
  { world with
    certificates := Function.update world.certificates world.nextCertificate
      (some { stagedCertificate state csrPem with certificatePem := pem, issued := true })
    nextCertificate := world.nextCertificate + 1 }

/-- The transaction of `_issue`: the certificate row and the checkpoint commit together. -/
def issuance (state : Operation) (csrPem : String) (world : World) :
    Except String (World × Operation) := do
  if admitted world state then
    let snapshot ← world.outside.caSnapshot state.product state.profileId
    if snapshot = state.caSnapshot then
      let pem ← (world.outside.issue (stagedCertificate state csrPem)).elim
        (.error "The shared CA did not issue this operation's CSR.") .ok
      let found ← material (withCertificate state csrPem pem world)
        { state with certificateId := some world.nextCertificate }
      .ok ((commitState (issuedState state world.nextCertificate found.metadata)
          (withCertificate state csrPem pem world)).record
            (.issued state.operationId world.nextCertificate),
        saved (issuedState state world.nextCertificate found.metadata))
    else .error "CA or profile changed after CSR generation. Reconcile the captured CSR."
  else .error changedMessage

/-- `_issue`. -/
def issueCertificate (state : Operation) : Steps Operation :=
  match state.csrPem with
  | none => refuse "Native response or inputs are incomplete."
  | some csrPem => do
      let commonNames ← Program.observe fun world =>
        world.outside.csrCommonNames state.product csrPem state.names
      require (commonNames = [state.names.commonName])
        "Native CSR common name differs from the reviewed identity."
      Program.transact (issuance state csrPem)

def dispatchValidation (state : Operation) (found : Material) : Steps (Operation × String) := do
  let state ← save id { state with checkpoint := .validationDispatchPending }
  let validation ← Program.observe fun world =>
    world.outside.startValidation state.target found.leaf found.root
  let state ← save id
    { state with nativeValidationId := some validation, checkpoint := .validationTaskSubmitted }
  return (state, validation)

/-- The validation of the issued certificate, which is not submitted again once its
identifier is recorded. -/
def submitValidation (state : Operation) (found : Material) : Steps (Operation × String) :=
  match state.nativeValidationId with
  | some validation => return (state, validation)
  | none => dispatchValidation state found

/-- The state after the native validation. -/
def validatedState (installing : Bool) (state : Operation) : Operation :=
  { state with
    state := if installing then .installing else .prepared
    checkpoint := if installing then .queuedInstallation else .certificatePrepared
    error := none }

def sddcValidation (installing : Bool) (state : Operation) (credentials : Credentials) :
    Steps Operation := do
  let found ← readMaterial state
  login state credentials
  let (state, validation) ← submitValidation state found
  Program.observe fun world => world.outside.waitValidation state.target validation
  save id (validatedState installing state)

/-- The part of `_sddc_validation`'s callers that is for SDDC Manager only. -/
def validateSddc (installing : Bool) (state : Operation) (credentials : Credentials) :
    Steps Operation :=
  if state.product = .sddc then sddcValidation installing state credentials else return state

/-- The preparation in `run_job`. -/
def prepareBody (state : Operation) (credentials : Credentials) : Steps Operation := do
  compareTarget "Preparation prerequisites changed after acknowledgement." state credentials
  login state credentials
  requireAdministrator state.actor
  let state ← save id { state with checkpoint := .csrDispatchPending }
  let (state, csr) ← collectCsr state
  let state ← save id { state with csrPem := some csr, checkpoint := .csrReceived }
  let state ← issueCertificate state
  validateSddc false state credentials

def verify (outside : Outside) (state : Operation) (credentials : Credentials) (root : String) :
    Bool × Verification :=
  match state.replacementCertificate with
  | none => (false, state.verification)
  | some replacement =>
    match outside.served state.identity state.target root with
    | .error _ => (false, state.verification)
    | .ok fingerprint =>
      if fingerprint = replacement.fingerprintSha256.toLower then
        let served : Verification :=
          { state.verification with
            exactServedCertificate := true, strictTls := true, installation := true }
        match outside.replacedLogin state.identity state.target credentials with
        | .error _ => (false, served)
        | .ok () =>
          match outside.health state.target state.baselineHealth with
          | .error _ => (false, { served with authenticatedLogin := true })
          | .ok health =>
            let checked := { served with authenticatedLogin := true, health }
            match state.product, state.nativeInstallTaskId with
            | .sddc, some task =>
              (match outside.taskComplete state.target task with
                | .ok true => health
                | _ => false, checked)
            | _, _ => (health, checked)
      else (false, state.verification)

def readVerification (state : Operation) (credentials : Credentials) (root : String) :
    Steps (Bool × Verification) :=
  Program.observe fun world => .ok (verify world.outside state credentials root)

/-- The native installation and what the worker makes of its reply. A dropped response may
mean that the installation completed: it is verified, and never repeated. -/
def install (state : Operation) (found : Material) : Steps Operation :=
  .atomic
    (fun world => world.record (.installed state.operationId found.metadata (reviewed state)))
    fun world =>
      match state.product with
      | .sddc =>
        match world.outside.startInstall state.target found.leaf found.root with
        | .answered task => save id { state with nativeInstallTaskId := some task }
        | .remoteError => .done state
        | .interrupted message => .fail message
      | _ =>
        match world.outside.installCsr state.target found.leaf found.root with
        | .answered () =>
          .done { state with verification := { state.verification with installation := true } }
        | .remoteError => .done state
        | .interrupted message => .fail message

def importRoot (state : Operation) (found : Material) : Steps Operation :=
  if state.product = .vcenter then do
    let state ← save id { state with checkpoint := .rootImportDispatchPending }
    Program.observe fun world => world.outside.importRoot state.target found.root
    return state
  else return state

/-- The worker's last commit when another request has saved the operation meanwhile. -/
def endAdvanced (jobId : String) : Steps Unit :=
  Program.transact fun world =>
    .ok (endJob jobId .failed
      "Operation advanced during worker completion. Reconcile its current task." world, ())

def lastSave (jobId : String) (pending : World → World) (state : Operation) : Steps Unit := do
  let outcome ← (save pending { state with progressPercent := 100 }).attempt
  match outcome with
  | .ok _ => return ()
  | .error _ => endAdvanced jobId

def finish (jobId : String) (status : JobStatus) (message : String) (state : Operation) :
    Steps Unit :=
  lastSave jobId (endJob jobId status message) state

/-- The readiness loop: `rounds` are the iterations before the deadline. The last save
publishes the end of the task and releases the target. -/
def readiness (jobId : String) (credentials : Credentials) (root : String) :
    Nat → Operation → Steps Unit
  | 0, _ => refuse "Readiness did not complete within fifteen minutes."
  | rounds + 1, state => do
      requireAdministrator state.actor
      let (ready, verification) ← readVerification state credentials root
      let state := { state with verification }
      if ready then
        lastSave jobId (endJob jobId .succeeded "" ∘ release state)
          { state with state := .succeeded, checkpoint := .verified }
      else
        let state ← save id state
        readiness jobId credentials root rounds state

/-- The installation in `run_job`. -/
def installBody (jobId : String) (rounds : Nat) (state : Operation)
    (credentials : Credentials) : Steps Unit := do
  revalidate state credentials
  let found ← readMaterial state
  let state ← validateSddc true state credentials
  login state credentials
  requireAdministrator state.actor
  let state ← importRoot state found
  let state ← save id { state with checkpoint := .installationDispatchPending }
  let state ← install state found
  let state ← save id { state with checkpoint := .verifyingReadiness }
  readiness jobId credentials found.root rounds state

/-- The state that the exception handler of the worker leaves. -/
def interruptedState (message : String) (state : Operation) : Operation :=
  { state with state := .needsRecovery, error := some message }

/-- The exception handler of `run_job`. -/
def failJob (jobId : String) (job : Job) (message : String) : Steps Unit := do
  let state ← load job.operationId job.createdBy
  if state.jobId = jobId then
    finish jobId .failed message (interruptedState message state)
  else
    Program.transact fun world => .ok (endJob jobId .failed message world, ())

/-- The `try` block of `run_job`. -/
def jobBody (jobId : String) (selected : Option Selection) (rounds : Nat) (action : Action)
    (state : Operation) : Steps Unit := do
  requireAdministrator state.actor
  let credentials ← resolveCredentials
    (workerSelection selected state.credentialReference) state.credentialReference
  match action with
  | .prepare => do
      let state ← prepareBody state credentials
      finish jobId .succeeded "" state
  | .install => installBody jobId rounds state credentials

def startJob (jobId : String) : Steps Unit :=
  Program.transact fun world =>
    match world.jobs jobId with
    | some job => .ok (world.withJob jobId { job with status := .running }, ())
    | none => .ok (world, ())

def readJob (jobId : String) : Steps (Option Job) :=
  Program.observe fun world => .ok (world.jobs jobId)

def runJob (jobId : String) (selected : Option Selection) (rounds : Nat) : Steps Unit := do
  let found ← readJob jobId
  match found with
  | none => return ()
  | some job =>
    if job.status = .pending then do
      let state ← load job.operationId job.createdBy
      startJob jobId
      let outcome ← (jobBody jobId selected rounds job.action state).attempt
      match outcome with
      | .ok _ => return ()
      | .error message => failJob jobId job message
    else return ()

end Worker

section Requests

/-- SHA-256 of canonical JSON, for the keys of reservations and for reviewed revisions. -/
class Digests where
  reservation : Product → String → String
  revision : Reviewed → String

variable (digests : Digests)

def locks (product : Product) (addresses : List String) (identity : String) : List String :=
  (("identity:" ++ identity) :: addresses.map ("address:" ++ ·)).map fun value =>
    "vcf_cert_lock:" ++ digests.reservation product value

def noVerification : Verification := ⟨false, false, false, false, false⟩

def initialState (values : Values) (operationId jobId : String) (reference : Reference)
    (inspection : Inspection) (snapshot : CaSnapshot) (keys : List String) : Operation where
  operationId
  actor := values.actor
  product := values.product
  address := values.target.host
  port := values.target.port
  confirmedTlsFingerprint := values.target.fingerprint
  credentialReference := reference
  identity := inspection.identity
  productInfo := inspection.productInfo
  names := values.names
  profileId := values.profileId
  caSnapshot := snapshot
  currentCertificate := inspection.currentCertificate
  baselineHealth := inspection.baselineHealth
  recoveryReference := values.recoveryReference
  reservationKeys := keys
  state := .preparing
  checkpoint := .queuedPreparation
  verification := noVerification
  jobId
  progressPercent := 0
  writeRevision := 0
  nativeCsrTaskId := none
  csrPem := none
  certificateId := none
  replacementCertificate := none
  nativeValidationId := none
  nativeInstallTaskId := none
  reviewNonce := none
  error := none

/-- `_enqueue`. -/
def newJob (state : Operation) (action : Action) : Job :=
  ⟨.pending, state.actor, state.operationId, action, 0, ""⟩

def enqueue (jobId : String) (job : Job) (world : World) : World :=
  { world.withJob jobId job with jobIds := world.jobIds ++ [jobId] }

/-- The admission of `prepare`. Settings and tasks have unique keys: a reserved target, or a
generated identifier that exists, is refused as a whole. -/
def admission (state : Operation) (world : World) : Except String (World × Unit) :=
  if (world.operations state.operationId).isSome || (world.jobs state.jobId).isSome ||
      state.reservationKeys.any (fun key => (world.reservations key).isSome) ||
      !decide state.reservationKeys.Nodup then
    .error "Another operation reserves this target."
  else
    .ok (enqueue state.jobId (newJob state .prepare)
      { world.withOperation state with
        reservations := fun key =>
          if key ∈ state.reservationKeys then some state.operationId
          else world.reservations key }, ())

/-- The `prepare` request. `operationId` and `jobId` are the generated identifiers. -/
def prepare (values : Values) (operationId jobId : String) (rounds : Nat) : Steps Unit := do
  let (reference, credentials) ← enter values
  require (values.acknowledged && values.recoveryReady)
    "Acknowledge target-side key/CSR preparation and a supported recovery point first."
  require (recoveryAccepted values.recoveryReference)
    "Enter a supported recovery reference without credentials or URLs."
  let inspection ← Program.observe fun world =>
    world.outside.inspect values.product values.target credentials
  require (values.names = inspection.names)
    "Names must match native identity and discovered SANs."
  let snapshot ← Program.observe fun world =>
    world.outside.caSnapshot values.product values.profileId
  let addresses ← Program.observe fun world => .ok (world.outside.addresses values.target)
  require (!addresses.isEmpty) "The target could not be resolved."
  let keys := locks digests values.product addresses inspection.identity
  Program.transact
    (admission (initialState values operationId jobId reference inspection snapshot keys))
  runJob jobId (manual values.selection reference) rounds

def sameRequest (values : Values) (reference : Reference) (state : Operation) : Bool :=
  state.product = values.product && state.target = values.target &&
    state.credentialReference = reference

def openOperation (values : Values) (reference : Reference) : Steps Operation := do
  let state ← load values.operationId values.actor
  require (sameRequest values reference state)
    "Target or credential identity changed since preparation."
  return state

/-- The last transaction of `review`: the nonce is written to a row that is still the one
that was revalidated. -/
def approve (state : Operation) (nonce : String) (world : World) :
    Except String (World × Unit) :=
  match world.operations state.operationId with
  | none => .error "Certificate operation not found."
  | some current =>
    if current.state = .prepared ∧
        digests.revision (reviewed current) = digests.revision (reviewed state) then
      .ok ((commitState { current with reviewNonce := some nonce } world).record
        (.reviewed current.operationId nonce (reviewed current)), ())
    else .error "Operation changed during review."

/-- The `review` request. `nonce` is the generated one. -/
def review (values : Values) (nonce : String) : Steps Unit := do
  let (reference, credentials) ← enter values
  let state ← openOperation values reference
  require (state.state = .prepared) "Prepare successfully before reviewing or installing."
  require (values.names = state.names) "Names must match native identity and discovered SANs."
  revalidate state credentials
  Program.transact (approve digests state nonce)

/-- What a signed review token says. -/
structure Approval where
  (actor operationId nonce revision : String)
  deriving DecidableEq

def approves (approval : Approval) (values : Values) (state : Operation) : Bool :=
  match state.reviewNonce with
  | none => false
  | some nonce =>
    state.state = .prepared &&
      approval = ⟨values.actor, values.operationId, nonce, digests.revision (reviewed state)⟩

/-- The revalidation under the write lock, against the row that was read there. -/
def stillValid (world : World) (state : Operation) (credentials : Credentials) :
    Except String Unit :=
  ((revalidate state credentials).run world).1

def installingState (jobId : String) (state : Operation) : Operation :=
  { state with
    reviewNonce := none
    state := .installing
    checkpoint := .queuedInstallation
    jobId
    progressPercent := 0 }

/-- The transaction of `execute`, which holds the write lock during its native reads. -/
def consume (approval : Approval) (values : Values) (credentials : Credentials)
    (jobId : String) (world : World) : Except String (World × Unit) := do
  let state ← (world.operations values.operationId).elim
    (.error "Certificate operation not found.") .ok
  if approves digests approval values state then
    stillValid world state credentials
    let state := installingState jobId state
    if (world.jobs jobId).isSome then .error "Task identifier exists."
    else
      .ok ((enqueue jobId (newJob state .install) (world.withOperation (saved state))).record
        (.executed state.operationId approval.nonce (reviewed state)), ())
  else .error "Review was already used or this operation changed."

/-- The `execute` request. `approval` is what the token says, if its signature and its age
are accepted. -/
def execute (values : Values) (approval : Option Approval) (jobId : String) (rounds : Nat) :
    Steps Unit := do
  let (reference, credentials) ← enter values
  let state ← openOperation values reference
  require (state.state = .prepared) "Prepare successfully before reviewing or installing."
  require values.acknowledged
    "Approve the exact reviewed installation and trust changes explicitly."
  match approval with
  | none => refuse "Review expired or is invalid. Review the prepared certificate again."
  | some approval => do
      Program.transact (consume digests approval values credentials jobId)
      runJob jobId (manual values.selection reference) rounds

end Requests

section Reconciliation

def unresolvedMessage : String :=
  "Remote state remains unresolved; the reservation is retained. Do not regenerate the CSR " ++
    "or repeat replacement."

def confirmServed (state : Operation) (credentials : Credentials) : Steps Unit := do
  let found ← readMaterial state
  let (ready, verification) ← readVerification state credentials found.root
  if ready then
    let _ ← save (release state)
      { state with
        state := .succeeded
        checkpoint := .reconciledVerified
        verification
        error := none }
  else refuse unresolvedMessage

def reconcileServed (state : Operation) (credentials : Credentials) : Steps Unit :=
  match state.replacementCertificate with
  | none => refuse unresolvedMessage
  | some _ => confirmServed state credentials

def discard (state : Operation) : Steps Unit := do
  let _ ← save (release state)
    { state with state := .failed, checkpoint := .reconciledNotDispatched }

def hasCsr (state : Operation) : Bool :=
  match state.csrPem with
  | some csrPem => csrPem ≠ ""
  | none => false

/-- Reuse the captured CSR; no remote regeneration. -/
def resumeIssue (state : Operation) (credentials : Credentials) : Steps Unit :=
  if hasCsr state then do
    let state ← issueCertificate state
    let _ ← validateSddc false state credentials
  else reconcileServed state credentials

/-- The CSR of SDDC Manager's recorded task. -/
def awaitCsr (state : Operation) (credentials : Credentials) (task : String) : Steps Unit := do
  login state credentials
  let csr ← Program.observe fun world => world.outside.waitCsr state.target task
  let state ← save id { state with csrPem := some csr, checkpoint := .csrReceived }
  resumeIssue state credentials

def resumeCsr (state : Operation) (credentials : Credentials) : Steps Unit :=
  match state.nativeCsrTaskId with
  | none => refuse "Native response or inputs are incomplete."
  | some task => awaitCsr state credentials task

/-- The install checkpoint was never reached: readback and a new review can resume. -/
def stepBack (state : Operation) (credentials : Credentials) : Steps Unit := do
  revalidate state credentials
  let _ ← save id
    { state with
      state := .prepared
      checkpoint := .certificatePrepared
      reviewNonce := none
      error := none }

def resumeValidation (state : Operation) (credentials : Credentials) : Steps Unit := do
  revalidate state credentials
  let _ ← sddcValidation false state credentials

/-- The branches of `_reconcile` on the checkpoint. -/
def reconcileCheckpoint (state : Operation) (credentials : Credentials) : Steps Unit :=
  match state.checkpoint with
  | .queuedPreparation => discard state
  | .csrTaskSubmitted =>
    if state.product = .sddc then resumeCsr state credentials
    else reconcileServed state credentials
  | .csrReceived => resumeIssue state credentials
  | .certificateIssued | .validationTaskSubmitted | .validationDispatchPending =>
    if state.product = .sddc then resumeValidation state credentials
    else reconcileServed state credentials
  | .queuedInstallation | .rootImportDispatchPending => stepBack state credentials
  | _ => reconcileServed state credentials

/-- `_reconcile`. -/
def reconcileState (state : Operation) (credentials : Credentials) : Steps Unit :=
  match state.state with
  | .succeeded => pure ()
  | .prepared => revalidate state credentials
  | _ => reconcileCheckpoint state credentials

/-- The task of the operation still runs. -/
def busy (state : Operation) (world : World) : Bool :=
  (state.state = .preparing || state.state = .installing) &&
    (world.jobs state.jobId).any Job.active

def readBusy (state : Operation) : Steps Bool :=
  Program.observe fun world => .ok (busy state world)

def reconcile (values : Values) : Steps Unit := do
  requireAdministrator values.actor
  require values.confirmed "Confirm the operation's recorded target before reconciliation."
  let (reference, credentials) ← resolve values
  let state ← openOperation values reference
  let working ← readBusy state
  if working then pure () else reconcileState state credentials

end Reconciliation

section Restarts

def restartMessage : String :=
  "Atlaso restarted. Reconcile this recorded operation before another CSR or installation."

def recoverJob (world : World) (jobId : String) : World :=
  match world.jobs jobId with
  | none => world
  | some job =>
    if job.active then
      match world.operations job.operationId with
      | some state =>
        if state.actor = job.createdBy then
          (world.withOperation (interruptedState restartMessage state)).withJob jobId
            { job with status := .failed, error := restartMessage }
        else
          world.withJob jobId
            { job with
              status := .failed
              error := "Certificate operation records are missing or invalid." }
      | none =>
        world.withJob jobId
          { job with
            status := .failed
            error := "Certificate operation records are missing or invalid." }
    else world

def recoverInterruptedJobs (world : World) : World := world.jobIds.foldl recoverJob world

end Restarts

section System

variable (digests : Digests)

/-- Every request that an administrator can send, with its generated identifiers. -/
inductive Request : Steps Unit → Prop
  | prepare (values : Values) (operationId jobId : String) (rounds : Nat) :
      Request (CertificateWorkflow.prepare digests values operationId jobId rounds)
  | review (values : Values) (nonce : String) :
      Request (CertificateWorkflow.review digests values nonce)
  | execute (values : Values) (approval : Option Approval) (jobId : String) (rounds : Nat) :
      Request (CertificateWorkflow.execute digests values approval jobId rounds)
  | reconcile (values : Values) : Request (CertificateWorkflow.reconcile values)

/-- The outside changes its answers, the CA its certificates, and others reserve targets
and release their own. -/
structure Changes (before after : World) : Prop where
  operations : after.operations = before.operations
  jobs : after.jobs = before.jobs
  jobIds : after.jobIds = before.jobIds
  nextCertificate : before.nextCertificate ≤ after.nextCertificate
  log : after.log = before.log
  reservations : ∀ key operationId, (before.operations operationId).isSome →
    (after.reservations key = some operationId ↔ before.reservations key = some operationId)

def Restarts (before after : World) : Prop := after = recoverInterruptedJobs before

/-- The tables before any certificate operation. -/
structure Empty (world : World) : Prop where
  operations : world.operations = fun _ => none
  jobs : world.jobs = fun _ => none
  jobIds : world.jobIds = []
  log : world.log = []

/-- The pools of threads that some interleaving leads to. -/
def Reached (initial : World) (pool : Pool World String) : Prop :=
  Reachable (Request digests) Changes Restarts initial pool

end System

end Atlaso.Vcf.CertificateWorkflow
