import Atlaso.Library.RequestThreads

/-!
The durable records of the native certificate operations of VCF appliances.

An operation is one row of public JSON. `prepare` records its plan, and every later save
replaces the row under the network-objects write lock, provided that its write revision is
the one the saving request loaded. The locks on targets are rows of the same table. What
the appliance, the CA configuration, the vault and the accounts answer is `Outside`: it
may change at any time.
-/

namespace Atlaso.Vcf.CertificateOperations

open Library.RequestThreads

inductive Product where
  | srm | vcenter | sddc
  deriving DecidableEq, Repr

inductive Stage where
  | preparing | prepared | installing | needsRecovery | succeeded | failed
  deriving DecidableEq, Repr

inductive Checkpoint where
  | queuedPreparation | csrDispatchPending | csrTaskSubmitted | csrReceived | certificateIssued
  | validationDispatchPending | validationTaskSubmitted | certificatePrepared | queuedInstallation
  | rootImportDispatchPending | installationDispatchPending | verifyingReadiness | verified
  | reconciledVerified | reconciledNotDispatched
  deriving DecidableEq, Repr

/-- The table `stages` of `_save`. -/
def stages : Checkpoint → Option Nat
  | .queuedPreparation => some 0
  | .csrDispatchPending => some 25
  | .csrTaskSubmitted => some 35
  | .csrReceived => some 55
  | .certificateIssued => some 70
  | .validationDispatchPending => some 75
  | .validationTaskSubmitted => some 80
  | .certificatePrepared => some 100
  | .queuedInstallation => some 0
  | .rootImportDispatchPending => some 20
  | .installationDispatchPending => some 40
  | .verifyingReadiness => some 65
  | .verified => some 100
  | .reconciledVerified => some 100
  | .reconciledNotDispatched => none

structure Target where
  host : String
  port : Nat
  fingerprint : String
  deriving DecidableEq, Repr

structure Credentials where
  (username password : String)
  deriving DecidableEq, Repr

/-- What a request names as its credentials. -/
inductive Selection where
  | manual (username password : String)
  | vault (vaultId entryId : Nat)
  deriving DecidableEq, Repr

/-- What an operation records of them: never a password. -/
inductive Reference where
  | manual (username : String)
  | vault (vaultId entryId : Nat) (username revision : String)
  deriving DecidableEq, Repr

structure Names where
  commonName : String
  (dnsNames ipAddresses : List String)
  deriving DecidableEq, Repr

structure ProductInfo where
  (version identity : String)
  (role domainId resourceId : Option String)
  deriving DecidableEq, Repr

structure Metadata where
  (subject issuer serialNumber notBefore notAfter fingerprintSha256 : String)
  (dnsNames ipAddresses : List String)
  deriving DecidableEq, Repr

structure Profile where
  id : Nat
  name : String
  validityDays : Nat
  keyAlgorithm : String
  keySize : Nat
  (keyUsage extendedKeyUsage : String)
  (sanRequired enabled : Bool)
  deriving DecidableEq, Repr

structure CaSnapshot where
  root : Metadata
  profile : Profile
  deriving DecidableEq, Repr

structure Inspection where
  identity : String
  productInfo : ProductInfo
  names : Names
  currentCertificate : Metadata
  baselineHealth : String
  deriving DecidableEq, Repr

structure Verification where
  (installation exactServedCertificate strictTls authenticatedLogin health : Bool)
  deriving DecidableEq, Repr

/-- What `prepare` records of an operation. No later save changes it. -/
structure Plan where
  (operationId actor : String)
  product : Product
  address : String
  port : Nat
  confirmedTlsFingerprint : String
  credentialReference : Reference
  identity : String
  productInfo : ProductInfo
  names : Names
  profileId : Nat
  caSnapshot : CaSnapshot
  currentCertificate : Metadata
  (baselineHealth recoveryReference : String)
  reservationKeys : List String
  deriving DecidableEq, Repr

def Plan.target (plan : Plan) : Target :=
  ⟨plan.address, plan.port, plan.confirmedTlsFingerprint⟩

structure Operation extends Plan where
  state : Stage
  checkpoint : Checkpoint
  verification : Verification
  jobId : String
  (progressPercent writeRevision : Nat)
  (nativeCsrTaskId csrPem : Option String)
  certificateId : Option Nat
  replacementCertificate : Option Metadata
  (nativeValidationId nativeInstallTaskId reviewNonce error : Option String)
  deriving DecidableEq, Repr

/-- The fields that `_revision` binds an approval to. -/
structure Reviewed where
  productInfo : ProductInfo
  names : Names
  credentialReference : Reference
  caSnapshot : CaSnapshot
  currentCertificate : Metadata
  replacementCertificate : Option Metadata
  recoveryReference : String
  deriving DecidableEq, Repr

def reviewed (state : Operation) : Reviewed where
  productInfo := state.productInfo
  names := state.names
  credentialReference := state.credentialReference
  caSnapshot := state.caSnapshot
  currentCertificate := state.currentCertificate
  replacementCertificate := state.replacementCertificate
  recoveryReference := state.recoveryReference

inductive JobStatus where
  | pending | running | succeeded | failed
  deriving DecidableEq, Repr

inductive Action where
  | prepare | install
  deriving DecidableEq, Repr

structure Job where
  status : JobStatus
  (createdBy operationId : String)
  action : Action
  progressPercent : Nat
  error : String
  deriving DecidableEq, Repr

def Job.active (job : Job) : Bool := job.status = .pending || job.status = .running

/-- A row of the CA's certificates, as far as the workflow reads it. -/
structure CaCertificate where
  profileId : Nat
  (csrText certificatePem : String)
  (issued enabled privateKey : Bool)
  deriving DecidableEq, Repr

/-- The end of a native write: an answer, a `RemoteError`, or any other exception. -/
inductive Reply (Answer : Type) where
  | answered (answer : Answer)
  | remoteError
  | interrupted (message : String)

/-- What the world outside these tables answers. -/
structure Outside where
  administrator : String → Bool
  probe : Target → Except String String
  resolve : Selection → Except String (Reference × Credentials)
  inspect : Product → Target → Credentials → Except String Inspection
  addresses : Target → List String
  caSnapshot : Product → Nat → Except String CaSnapshot
  rootChain : Product → Nat → Except String String
  csrCommonNames : Product → String → Names → Except String (List String)
  issue : CaCertificate → Option String
  validateIssued : Product → Names → (csr leaf root : String) → Except String Metadata
  login : Target → Credentials → Except String Unit
  (generateCsr startCsr : Target → Except String String)
  waitCsr : Target → String → Except String String
  startValidation : Target → (leaf root : String) → Except String String
  (waitValidation importRoot : Target → String → Except String Unit)
  installCsr : Target → (leaf root : String) → Reply Unit
  startInstall : Target → (leaf root : String) → Reply String
  served : (identity : String) → Target → (root : String) → Except String String
  replacedLogin : (identity : String) → Target → Credentials → Except String Unit
  health : Target → (baseline : String) → Except String Bool
  taskComplete : Target → String → Except String Bool

/-- What happened, the latest first. -/
inductive Event where
  | csrRequested (operationId : String)
  | issued (operationId : String) (certificateId : Nat)
  | reviewed (operationId nonce : String) (content : Reviewed)
  | executed (operationId nonce : String) (content : Reviewed)
  | installed (operationId : String) (leaf : Metadata) (content : Reviewed)
  deriving DecidableEq

structure World where
  operations : String → Option Operation
  reservations : String → Option String
  jobs : String → Option Job
  jobIds : List String
  certificates : Nat → Option CaCertificate
  nextCertificate : Nat
  outside : Outside
  log : List Event

abbrev Steps := Program World String

def changedMessage : String :=
  "Operation changed during reconciliation or checkpoint update. Read its current state " ++
    "before retrying."

/-- `_admit_state_write`: only the copy that was loaded last may be saved. -/
def admitted (world : World) (state : Operation) : Bool :=
  match world.operations state.operationId with
  | some current => current.writeRevision = state.writeRevision
  | none => false

def saved (state : Operation) : Operation :=
  { state with
    progressPercent := (stages state.checkpoint).getD state.progressPercent
    writeRevision := state.writeRevision + 1 }

def World.withOperation (world : World) (state : Operation) : World :=
  { world with operations := Function.update world.operations state.operationId (some state) }

def World.withJob (world : World) (jobId : String) (job : Job) : World :=
  { world with jobs := Function.update world.jobs jobId (some job) }

theorem World.with_job_self (world : World) (jobId : String) (job : Job) :
    (world.withJob jobId job).jobs jobId = some job :=
  Function.update_self ..

theorem World.with_job_other {jobId other : String} (world : World) (job : Job)
    (differs : other ≠ jobId) : (world.withJob jobId job).jobs other = world.jobs other :=
  Function.update_of_ne differs ..

def World.record (world : World) (event : Event) : World :=
  { world with log := event :: world.log }

def showProgress (state : Operation) (world : World) : World :=
  match world.jobs state.jobId with
  | some job =>
    if job.active then
      world.withJob state.jobId { job with progressPercent := state.progressPercent }
    else world
  | none => world

def commitState (state : Operation) (world : World) : World :=
  showProgress (saved state) (world.withOperation (saved state))

/-- `_save`, where `pending` are the other changes that its commit publishes. -/
def save (pending : World → World) (state : Operation) : Steps Operation :=
  Program.transact fun world =>
    if admitted world state then .ok (commitState state (pending world), saved state)
    else .error changedMessage

/-- `_release`, as a change that the next commit publishes. -/
def release (state : Operation) (world : World) : World :=
  { world with
    reservations := fun key =>
      if key ∈ state.reservationKeys ∧ world.reservations key = some state.operationId then none
      else world.reservations key }

/-- `_state`. -/
def load (operationId actor : String) : Steps Operation :=
  Program.observe fun world =>
    match world.operations operationId with
    | none => .error "Certificate operation not found."
    | some state =>
      if state.actor = actor then .ok state
      else .error "This operation belongs to another administrator."

/-- `_actor`. -/
def requireAdministrator (actor : String) : Steps Unit :=
  Program.observe fun world =>
    if world.outside.administrator actor then .ok ()
    else .error "The submitting administrator is no longer authorized."

/-- `_credentials`: the reference must still be the one that was recorded. -/
def resolveCredentials (selection : Selection) (reference : Reference) : Steps Credentials :=
  Program.observe fun world =>
    match world.outside.resolve selection with
    | .error message => .error message
    | .ok (current, credentials) =>
      if current = reference then .ok credentials
      else .error "Credential selection changed; inspect again."

structure Material where
  leaf : String
  metadata : Metadata
  root : String
  deriving DecidableEq, Repr

def CaCertificate.fits (certificate : CaCertificate) (csrPem : String) : Bool :=
  certificate.issued && certificate.enabled && !certificate.privateKey &&
    certificate.csrText = csrPem

def Operation.expects (state : Operation) (leaf : Metadata) : Bool :=
  state.replacementCertificate = none || state.replacementCertificate = some leaf

def material (world : World) (state : Operation) : Except String Material := do
  let certificateId ← state.certificateId.elim (.error "Native response is incomplete.") .ok
  let root ← world.outside.rootChain state.product state.profileId
  let csrPem ← state.csrPem.elim (.error "Native response is incomplete.") .ok
  let certificate ← (world.certificates certificateId).elim
    (.error "This operation's public CSR certificate is unavailable or changed.") .ok
  if certificate.fits csrPem then
    let leaf ← world.outside.validateIssued state.product state.names csrPem
      certificate.certificatePem root
    if state.expects leaf then .ok ⟨certificate.certificatePem, leaf, root⟩
    else .error "The issued certificate changed after preparation."
  else .error "This operation's public CSR certificate is unavailable or changed."

/-- The four fields of a native inspection that a review and a preparation compare. -/
def sameTarget (latest : Inspection) (state : Operation) : Bool :=
  latest.identity = state.identity && latest.productInfo = state.productInfo &&
    latest.names = state.names && latest.currentCertificate = state.currentCertificate

def compareTarget (refusal : String) (state : Operation) (credentials : Credentials) :
    Steps Unit := do
  let latest ← Program.observe fun world =>
    world.outside.inspect state.product state.target credentials
  Program.observe fun world =>
    if sameTarget latest state then
      match world.outside.caSnapshot state.product state.profileId with
      | .error message => .error message
      | .ok snapshot => if snapshot = state.caSnapshot then .ok () else .error refusal
    else .error refusal

def login (state : Operation) (credentials : Credentials) : Steps Unit :=
  Program.observe fun world => world.outside.login state.target credentials

def readMaterial (state : Operation) : Steps Material :=
  Program.observe fun world => material world state

def compareCsr (state : Operation) (credentials : Credentials) : Steps Unit := do
  login state credentials
  Program.observe fun world =>
    match state.nativeCsrTaskId with
    | none => .error "Native response or inputs are incomplete."
    | some task =>
      match world.outside.waitCsr state.target task with
      | .error message => .error message
      | .ok csr =>
        if state.csrPem = some csr then .ok ()
        else .error "SDDC Manager's pending CSR changed."

def revalidate (state : Operation) (credentials : Credentials) : Steps Unit := do
  compareTarget "Target, topology, names, CA or profile changed." state credentials
  let _ ← readMaterial state
  if state.product = .sddc then compareCsr state credentials

end Atlaso.Vcf.CertificateOperations
