import Atlaso.Kmip.Clock
import Atlaso.Library.JsonText

/-!
Task rows, the cancellation contract of `task_cancellation.py`, and the row that
`claim_next_job` writes.

Every function here is about one row; what the actors do to the table, statement by
statement, is in `JobRaces`. The release of an upload's staging files is an outcome that
the caller is given, and the download profiles of the depot are left out.
-/

namespace Atlaso.Jobs.TaskCancellation

open Kmip.Clock Library Dictionary JsonText

inductive JobStatus where
  | pending | running | succeeded | failed | skipped | cancelled
  deriving DecidableEq, Repr

def JobStatus.text : JobStatus → String
  | .pending => "pending"
  | .running => "running"
  | .succeeded => "succeeded"
  | .failed => "failed"
  | .skipped => "skipped"
  | .cancelled => "cancelled"

/-- `status in ACTIVE`. -/
def JobStatus.isActive : JobStatus → Bool
  | .pending => true
  | .running => true
  | _ => false

structure JobStep where
  status : JobStatus
  finishedAt : Option Reading
  progressPercent : Nat
  (error result : Option String)
  deriving DecidableEq

structure Job where
  (id type : String)
  status : JobStatus
  createdAt : Reading
  (startedAt finishedAt : Option Reading)
  progressPercent : Nat
  (result error : Option String)
  taskConfigJson : String
  networkBootSource : Option String
  vcfDepotOperation : Bool
  cancelRequestedAt : Option Reading
  cancelRequestedBy : Option String
  cancelCompletedAt : Option Reading
  cancelOutcome : Option String
  steps : List JobStep
  deriving DecidableEq

def pendingTypes : List String :=
  ["dhcp-pool-verify", "appliance-apply", "appliance-update", "vcf-depot-download",
    "managed-script", "pxe-media-sync", "diagnostic-bundle", "manual-placeholder"]

def serviceAdminTypes : List String := ["pxe-media-sync", "dhcp-pool-verify"]

def workerJobTypes : List String :=
  ["vcf-certificate-renewal-check", "vcf-certificate-renewal", "dhcp-pool-verify",
    "diagnostic-bundle", "appliance-update", "vcf-depot-download", "managed-script",
    "pxe-media-sync"]

/-- The keys of `UPDATE_STREAM_LABELS`. -/
def updateStreams : List String :=
  ["photon_os", "powershell_modules", "atlaso_release", "guest_tools"]

structure Identity where
  username : String
  (isAdmin isServiceAdmin canAdminAll : Bool)
  deriving DecidableEq, Repr

/-! ### Stored JSON -/

def payload (value : Option String) : List (String × Json) :=
  let text := match value with
    | some text => if text = "" then "\x7b\x7d" else text
    | none => "\x7b\x7d"
  match loads text with
  | some (.object members) => members
  | _ => []

/-- The truth value of a parsed document; a number with a fraction or an exponent is
zero when all its digits before the exponent are. -/
def truthy : Json → Bool
  | .null => false
  | .bool value => value
  | .int value => value ≠ 0
  | .real literal => (literal.takeWhile fun c => c ≠ 'e' && c ≠ 'E').any fun c =>
    c ≠ '0' && c ≠ '.' && c ≠ '-'
  | .string value => value ≠ ""
  | .array items => !items.isEmpty
  | .object members => !members.isEmpty

/-- The separator `", "` of `json.dumps`. -/
def joinSpaced : List (List Char) → List Char
  | [] => []
  | [only] => only
  | first :: second :: rest => first ++ ',' :: ' ' :: joinSpaced (second :: rest)

mutual

/-- `json.dumps(document, sort_keys=True)`. -/
def renderSpaced : Json → List Char
  | .array items => '[' :: (joinSpaced (renderSpacedItems items) ++ [']'])
  | .object members =>
    '{' :: (joinSpaced (((renderSpacedMembers members).insertionSort fun left right =>
      left.1 ≤ right.1).map fun member => quote member.1 ++ ':' :: ' ' :: member.2) ++ ['}'])
  | .null => render .null
  | .bool value => render (.bool value)
  | .int value => render (.int value)
  | .real literal => render (.real literal)
  | .string value => render (.string value)

def renderSpacedItems : List Json → List (List Char)
  | [] => []
  | item :: items => renderSpaced item :: renderSpacedItems items

def renderSpacedMembers : List (String × Json) → List (String × List Char)
  | [] => []
  | (key, value) :: members => (key, renderSpaced value) :: renderSpacedMembers members

end

def jsonText (members : List (String × Json)) : String :=
  String.ofList (renderSpaced (.object members))

def optionalText : Option String → Json
  | some text => .string text
  | none => .null

/-! ### Eligibility -/

structure CancellationCapability where
  canCancel : Bool
  (reason confirmation : String)
  deriving DecidableEq, Repr

def refused (reason : String) : CancellationCapability := ⟨false, reason, ""⟩

def authorized (job : Job) (identity : Identity) (api : Bool) : Bool :=
  if api then identity.canAdminAll
  else identity.isAdmin || (identity.isServiceAdmin && job.type ∈ serviceAdminTypes)

def refusalReason (type : String) : String :=
  (getItem type [
    ("appliance-update",
      "Running installation or repository synchronization has no safe interruption contract."),
    ("managed-script", "Running scripts may mutate local or remote systems; " ++
      "terminating the watcher cannot undo their work."),
    ("vcf-depot-download",
      "The running VCFDT process has no verified task-owned stop and cleanup contract."),
    ("vcf-depot-software-id",
      "VCFDT identity replacement must finish under its existing operation owner."),
    ("vcf-sddc-manager-deploy", "Remote deployment can continue after its local watcher stops."),
    ("vcf-offline-depot-target-config",
      "Remote configuration has no verified cancellation and rollback boundary."),
    ("vcf-ca-trust",
      "Remote trust changes cannot be safely undone by stopping the local watcher."),
    ("pxe-media-sync",
      "Running media deletion or an unrecognized media mode cannot be cancelled.")]).getD
    "This task type has no registered safe cancellation contract."

/-- `streams` is a non-empty list of known update streams. -/
def knownStreams : Option Json → Bool
  | some (.array streams) => !streams.isEmpty && streams.all fun stream =>
    match stream with
    | .string name => name ∈ updateStreams
    | _ => false
  | _ => false

def isText (texts : List String) : Json → Bool
  | .string text => text ∈ texts
  | _ => false

def capability (job : Job) (identity : Identity) (api : Bool) : CancellationCapability :=
  let config := payload (some job.taskConfigJson)
  if authorized job identity api = false then
    refused "You do not have permission to cancel this task."
  else if job.status.isActive = false then refused "Task is already finished."
  else if job.cancelRequestedAt ≠ none then
    refused (if job.cancelOutcome = some "cleanup-required" then
        "Cancellation cleanup needs attention; the task has not been confirmed stopped."
      else "Cancellation requested; waiting for a safe stop and cleanup.")
  else if truthy ((getItem "ownership_unresolved" (payload job.result)).getD .null) then
    refused "Helper ownership is unresolved; recovery must verify cleanup first."
  else if job.status = .pending ∧ job.type ∈ pendingTypes then
    ⟨true, "Queued task has not been claimed.",
      "Prevent this queued task from starting and remove its owned staging, if any?"⟩
  else if job.type = "dhcp-pool-verify" then
    ⟨true, "Stops at the next bounded observation checkpoint.",
      "Stop pool verification and retain its partial report? DHCP service continues normally."⟩
  else if job.type = "appliance-update" ∧
      isText ["check"] ((getItem "mode" config).getD .null) = true then
    if knownStreams (getItem "selected_streams" config) then
      ⟨true, "Stops after the current bounded check and credential cleanup.",
        "Request cancellation after the current check stops and cleans up? Remaining checks " ++
          "will be skipped; the current check can take up to six minutes to stop."⟩
    else refused "Check ownership metadata is incomplete; cancellation cannot be verified."
  else if job.type = "appliance-apply" then
    ⟨true, "Stops between components; completed changes remain applied.",
      "Finish the current component and its cleanup, then skip remaining components? " ++
        "Already applied changes are retained."⟩
  else if job.type = "diagnostic-bundle" then
    refused ("Running diagnostics has no verified descendant-process stop contract; " ++
      "collection must finish under its bounded owner.")
  else if job.type = "pxe-media-sync" ∧ isText ["download", "upload"]
      ((getItem "source" config).getD (optionalText job.networkBootSource)) = true then
    ⟨true, "Stops staged media work before committing the new version.",
      "Stop staged media work and restore the previous cache version? Cancellation waits for " ++
        "the current bounded transfer or extraction checkpoint and cleanup."⟩
  else refused (refusalReason job.type)

/-! ### Rows -/

/-- The values of the UPDATE in `claim_next_job`. -/
def claimedRow (now : Reading) (job : Job) : Job :=
  { job with status := .running, startedAt := some now, progressPercent := 1 }

/-- The values of the UPDATE in `request`. -/
def requestedRow (now : Reading) (identity : Identity) (job : Job) : Job :=
  { job with
    cancelRequestedAt := some now
    cancelRequestedBy := some identity.username
    cancelOutcome := some "requested" }

def stoppedStep (now : Reading) (step : JobStep) : JobStep :=
  if step.status.isActive then
    let status : JobStatus := if step.status = .pending then .skipped else .cancelled
    { status := status
      finishedAt := some now
      progressPercent := 100
      error := some "Not continued after the parent's verified cancellation."
      result := some (jsonText [("status", .string status.text), ("success", .bool false),
        ("reason", .string "parent_cancelled")]) }
  else step

/-- The row of a task that `finish_stop` confirms as stopped. -/
def stoppedRow (now : Reading) (job : Job) : Job :=
  let state := setItem "cancelled_at" (.string (isoformat now))
    (setItem "cancelled_by" (optionalText job.cancelRequestedBy)
      (setItem "state" (.string "cancelled")
        ((payload job.result).filter fun member => member.1 ≠ "ownership_unresolved")))
  let state := if job.type = "diagnostic-bundle" then
      setItem "bundle_status" (.string "cancelled") state
    else state
  { job with
    status := .cancelled
    finishedAt := some now
    progressPercent := 100
    error := some "Task stopped after operator cancellation and verified cleanup."
    result := some (jsonText state)
    cancelCompletedAt := some now
    cancelOutcome := some "confirmed"
    steps := job.steps.map (stoppedStep now) }

def finishStop (now : Reading) (job : Job) : Job × Bool :=
  if job.status.isActive = false ∨ job.cancelRequestedAt = none then (job, false)
  else (stoppedRow now job, true)

def cleanupFailedRow (job : Job) : Job :=
  { job with
    cancelOutcome := some "cleanup-required"
    error := some "Cancellation staging cleanup failed; task remains unclaimed." }

/-- The task has staging files that `finish_pending` must release. -/
def hasUpload (job : Job) : Bool :=
  job.type = "pxe-media-sync" && isText ["upload"]
    ((getItem "source" (payload (some job.taskConfigJson))).getD .null)

/-- The columns that `reconcile_requests` settles for a task it saw finished as `seen`. -/
def settledRow (now : Reading) (seen job : Job) : Job :=
  { job with
    cancelCompletedAt := some (seen.finishedAt.getD now)
    cancelOutcome := some (if seen.status = .cancelled then "confirmed" else "completion-won") }

end Atlaso.Jobs.TaskCancellation
