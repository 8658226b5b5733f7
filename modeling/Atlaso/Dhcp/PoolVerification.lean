import Atlaso.Kmip.Clock
import Mathlib.Data.List.Sort
import Mathlib.Data.String.Basic
import Mathlib.Data.List.Dedup

/-!
Report-only verification of an applied DHCP pool: `dhcp_pool_verification.py`.

A run is given by what it meets at each turn of its loop. A list of turns that stops
early is a run whose process died there. The lock, the sessions and the job row are
represented by the checks they decide.
-/

namespace Atlaso.Dhcp.PoolVerification

open Kmip.Clock

def maxAddresses : Int := 1024

abbrev Address := UInt32

inductive Status where
  | unknown | noResponse | unexpectedOccupancy | occupantLeaseMismatch | confirmedConflict
  | legitimateUse
  deriving DecidableEq, Repr

def Status.text : Status → String
  | .unknown => "unknown"
  | .noResponse => "no_response"
  | .unexpectedOccupancy => "unexpected_occupancy"
  | .occupantLeaseMismatch => "occupant_lease_mismatch"
  | .confirmedConflict => "confirmed_conflict"
  | .legitimateUse => "legitimate_use"

def findings : List Status :=
  [.unexpectedOccupancy, .occupantLeaseMismatch, .confirmedConflict]

structure Reservation where
  ipAddress : Address
  macAddress : String
  deriving DecidableEq, Repr

structure Pool where
  scopeId : Nat
  (name interfaceName addressFamily : String)
  siteAddress : Address
  prefixLength : Nat
  ranges : List (Address × Address)
  reservations : List Reservation
  deriving DecidableEq, Repr

structure Lease where
  ipAddress : Address
  (macAddress clientId : String)
  expiresEpoch : Int
  deriving DecidableEq, Repr

inductive ObservationStatus where
  | response | noResponse | other
  deriving DecidableEq, Repr

structure Observation where
  ipAddress : Address
  macAddresses : List String
  status : ObservationStatus
  deriving DecidableEq, Repr

/-- The keys that `retain_history` copies out of a finding. -/
structure Evidence where
  status : Status
  (observedMacAddresses expectedMacAddresses expectedClientIds : List String)
  verifiedAt : Option String
  deriving DecidableEq, Repr

structure Row where
  ipAddress : Address
  status : Status
  reason : String
  (observedMacAddresses expectedMacAddresses expectedClientIds : List String)
  (firstSeen lastSeen : String)
  verifiedAt : Option String
  unresolved : Bool
  previousStatus : Option Status
  resolvedAt : Option String
  retainedFinding : Option Evidence
  deriving DecidableEq, Repr

/-! ### Classification -/

/-- `sorted(set(texts))`. -/
def sortedSet (texts : List String) : List String := texts.dedup.insertionSort (· ≤ ·)

/-- `_lease_identity`: hardware addresses and client identifiers of the leases that have
not expired. -/
def leaseIdentity (leases : List Lease) (address : Address) (now : Reading) :
    List String × List String :=
  let active := leases.filter fun lease => lease.ipAddress = address ∧
    (lease.expiresEpoch = 0 ∨
      microsecondsSinceEpoch now.time < lease.expiresEpoch * 1000000)
  (sortedSet ((active.map fun lease => lease.macAddress.toLower).filter
      fun mac => mac ≠ "" ∧ mac ≠ "*"),
    sortedSet ((active.map Lease.clientId).filter fun client => client ≠ "" ∧ client ≠ "*"))

def incompleteReason : String := "Observation incomplete; availability and identity are unknown."

/-- The state and the reason that `classify` gives to an observation. -/
def classification (observation : Observation) (observed expected clients reserved : List String)
    (previous : List String × List String) (leaseAttributionUnknown : Bool) : Status × String :=
  if leaseAttributionUnknown then
    (.unknown,
      "Lease file has no interface attribution for overlapping pools; identity is unknown.")
  else if (expected, clients) ≠ previous then
    (.unknown, "Lease changed during observation; retry before classifying identity.")
  else if observation.status = .noResponse then
    (.noResponse,
      "No response observed; this does not prove availability or resolve an earlier finding.")
  else if observation.status = .response then
    if 1 < observed.length then
      (.confirmedConflict, "Multiple MAC addresses replied for this IP on the selected link; " ++
        "proxy ARP remains possible.")
    else if observed = [] then
      (.unknown, "Response did not include a usable hardware identity.")
    else if expected ++ reserved = [] then
      (.unexpectedOccupancy, "Fresh ARP response without a matching active lease or " ++
        "reservation; static or proxy use may be legitimate.")
    else if ¬∀ mac ∈ observed, mac ∈ expected ++ reserved then
      (.occupantLeaseMismatch, "Observed MAC differs from the current lease/reservation; " ++
        "investigate static use, client identity, or proxy ARP.")
    else if expected ≠ [] ∧ reserved ≠ [] ∧ ¬(expected ⊆ reserved ∧ reserved ⊆ expected) then
      (.occupantLeaseMismatch, "Active lease and declared reservation identities disagree.")
    else
      (.legitimateUse, "Observed MAC matches the active lease or declared reservation; " ++
        "ARP is evidence of this link only.")
  else (.unknown, incompleteReason)

def classify (observation : Observation) (pool : Pool) (before after : List Lease)
    (observedAt : Reading) (leaseAttributionUnknown : Bool) : Row :=
  let address := observation.ipAddress
  let (expected, clients) := leaseIdentity after address observedAt
  let reserved := sortedSet ((pool.reservations.filter fun row => row.ipAddress = address).map
    fun row => row.macAddress.toLower)
  let observed := sortedSet observation.macAddresses
  let (state, reason) := classification observation observed expected clients reserved
    (leaseIdentity before address observedAt) leaseAttributionUnknown
  { ipAddress := address
    status := state
    reason := reason
    observedMacAddresses := observed
    expectedMacAddresses := sortedSet (expected ++ reserved)
    expectedClientIds := clients
    firstSeen := isoformat observedAt
    lastSeen := isoformat observedAt
    verifiedAt := some (isoformat observedAt)
    unresolved := state ∈ findings
    previousStatus := none
    resolvedAt := none
    retainedFinding := none }

/-! ### History -/

def Row.evidence (row : Row) : Evidence :=
  ⟨row.status, row.observedMacAddresses, row.expectedMacAddresses, row.expectedClientIds,
    row.verifiedAt⟩

def Evidence.identities (evidence : Evidence) : String :=
  let spelled := fun (label : String) (values : List String) =>
    label ++ ": " ++ (if values = [] then "not recorded" else ", ".intercalate values)
  "; ".intercalate [spelled "observed MAC" evidence.observedMacAddresses,
    spelled "expected MAC" evidence.expectedMacAddresses,
    spelled "client IDs" evidence.expectedClientIds]

def Evidence.reason (evidence : Evidence) : String :=
  " Retained unresolved " ++ evidence.status.text ++ " evidence from " ++
    evidence.verifiedAt.getD "None" ++ ": " ++ evidence.identities ++ "."

/-- `retain_history` for an address that the previous report lists. -/
def retainOver (current previous : Row) : Row :=
  let current := { current with firstSeen := previous.firstSeen }
  if previous.unresolved then
    let current := { current with
      previousStatus := some (previous.previousStatus.getD previous.status) }
    if current.status = .legitimateUse then { current with resolvedAt := current.verifiedAt }
    else
      let current := { current with unresolved := true }
      if current.status ∈ findings then current
      else
        let evidence := previous.retainedFinding.getD previous.evidence
        { current with
          lastSeen := previous.lastSeen
          retainedFinding := some evidence
          reason := current.reason ++ evidence.reason }
  else if current.status ∈ findings then current
  else { current with
    previousStatus := previous.previousStatus
    resolvedAt := previous.resolvedAt }

def retainHistory (current : Row) (previous : Option Row) : Row :=
  match previous with
  | none => current
  | some previous => retainOver current previous

def uncheckedHistory (previous : Row) (reason : String) : Row :=
  retainOver
    { previous with
      status := .unknown
      reason := reason
      observedMacAddresses := []
      expectedMacAddresses := []
      expectedClientIds := []
      verifiedAt := none
      unresolved := false
      previousStatus := none
      resolvedAt := none
      retainedFinding := none }
    previous

/-! ### Runs -/

/-- `next_offset` of a reply: absent, an integer, or something else. -/
inductive Cursor where
  | done
  | next (offset : Int)
  | malformed
  deriving DecidableEq, Repr

structure Chunk where
  observations : List Observation
  (leasesBefore leasesAfter : List Lease)
  observedAt : Reading
  dnsmasqVersion : Option String

/-- The helper's answer to one request. `total` and `offset` are `none` when they are no
integers, and `chunk` is `none` when a field of it is missing or has the wrong type. -/
structure Reply where
  returncode : Int
  (status configHash : Option String)
  scope : Option Pool
  (reason linkIdentityHash : Option String)
  (total offset : Option Int)
  nextOffset : Cursor
  chunk : Option Chunk

/-- What `run` is about: the applied pool and every pool of the applied preview. -/
structure Applied where
  digest : String
  pool : Pool
  overlapping : List Pool

inductive RunState where
  | pending | running | complete | partialReport | unknown | cancelled
  deriving DecidableEq, Repr

structure Report where
  state : RunState
  (reason configHash jobId : String)
  (verifiedAt dnsmasqVersion : Option String)
  observations : List Row
  deriving DecidableEq, Repr

/-- The variables of the loop in `run`. -/
structure Progress where
  offset : Nat
  observations : List Row
  (dnsmasqVersion linkIdentity : Option String)
  expectedTotal : Option Int
  verifiedAt : Option String

def Progress.start : Progress := ⟨0, [], none, none, none, none⟩

def inRanges (ranges : List (Address × Address)) (address : Address) : Bool :=
  ranges.any fun range => range.1 ≤ address && address ≤ range.2

def admitAddress (pool : Pool) (seen : List Address) (candidate : Address) :
    Option (List Address) :=
  if candidate ∈ seen ∨ candidate = pool.siteAddress ∨
      ¬(inRanges pool.ranges candidate = true ∨
        candidate ∈ pool.reservations.map Reservation.ipAddress) then none
  else some (candidate :: seen)

/-- Another link's pool could own the lease of the address. -/
def ambiguous (applied : Applied) (address : Address) : Bool :=
  applied.overlapping.any fun other => other.interfaceName ≠ applied.pool.interfaceName &&
    (inRanges other.ranges address || other.reservations.any fun row => row.ipAddress = address)

/-- `{row["ip_address"]: row for row in rows}.get(address)`: the last row wins. -/
def oldRow (rows : List Row) (address : Address) : Option Row :=
  rows.reverse.find? fun row => row.ipAddress = address

def classifyChunk (applied : Applied) (previous : List Row) (chunk : Chunk) : List Row :=
  chunk.observations.map fun observation =>
    retainHistory
      (classify observation applied.pool chunk.leasesBefore chunk.leasesAfter chunk.observedAt
        (ambiguous applied observation.ipAddress))
      (oldRow previous observation.ipAddress)

def uncheckedRows (previous observations : List Row) (reason : String) : List Row :=
  (previous.filter fun row => row.ipAddress ∉ observations.map Row.ipAddress).map
    fun row => uncheckedHistory row reason

def notYetChecked : String := "Not yet checked in this run; prior evidence is not fresh."
def notChecked : String := "Not checked in the completed portion; prior evidence is not fresh."

/-- The report published after each chunk. -/
def runningReport (applied : Applied) (jobId : String) (previous : List Row)
    (progress : Progress) : Report :=
  { state := .running
    reason := "Bounded verification in progress; unchecked evidence remains unknown."
    configHash := applied.digest
    jobId := jobId
    verifiedAt := progress.verifiedAt
    dnsmasqVersion := progress.dnsmasqVersion
    observations := progress.observations ++
      uncheckedRows previous progress.observations notYetChecked }

def finalReport (applied : Applied) (jobId : String) (previous : List Row) (progress : Progress)
    (state : RunState) (reason : String) : Report :=
  { state := state
    reason := reason
    configHash := applied.digest
    jobId := jobId
    verifiedAt := progress.verifiedAt
    dnsmasqVersion := progress.dnsmasqVersion
    observations :=
      if state = .complete then progress.observations
      else progress.observations ++ uncheckedRows previous progress.observations notChecked }

/-- How the loop goes on after a reply: it stops with a state for the final report, it
raises, or it has checked one more chunk. -/
inductive Continuation where
  | stop (state : RunState) (reason : String)
  | abort
  | checked (progress : Progress) (finished : Bool)

def interrupted (progress : Progress) : RunState :=
  if progress.observations = [] then .unknown else .partialReport

/-- `value or default`. -/
def textOr (default : String) : Option String → String
  | some text => if text = "" then default else text
  | none => default

/-- `str(version or "Unknown")[:200]`. -/
def shownVersion (version : Option String) : String :=
  String.ofList ((textOr "Unknown" version).toList.take 200)

/-- The part of a turn after the helper replied. -/
def takeReply (applied : Applied) (previous : List Row) (progress : Progress) (reply : Reply) :
    Continuation :=
  if reply.returncode ≠ 0 ∨ reply.status ≠ some "complete" ∨
      reply.configHash ≠ some applied.digest ∨ reply.scope ≠ some applied.pool then
    .stop (interrupted progress) (textOr
      "Pool observation unavailable; no availability conclusion can be made." reply.reason)
  else
    match reply.linkIdentityHash with
    | none => .stop (interrupted progress)
        "Pool link identity changed or is unavailable; verification is incomplete."
    | some link =>
      if link.length ≠ 64 ∨ (progress.linkIdentity ≠ none ∧ progress.linkIdentity ≠ some link) then
        .stop (interrupted progress)
          "Pool link identity changed or is unavailable; verification is incomplete."
      else
        match reply.total, reply.chunk with
        | some total, some chunk =>
          let length := chunk.observations.length
          if ¬(0 < total ∧ total ≤ maxAddresses) ∨ ¬(0 < length ∧ length ≤ 16) then .abort
          else if reply.offset ≠ some progress.offset ∨ total < progress.offset + length ∨
              (progress.expectedTotal ≠ none ∧ progress.expectedTotal ≠ some total) then .abort
          else
            let cursor : Nat := progress.offset + length
            let cursorValid := match reply.nextOffset with
              | .done => decide ((cursor : Int) = total)
              | .next offset => decide (offset = cursor ∧ offset < total)
              | .malformed => false
            if cursorValid = false then .abort
            else
              match (chunk.observations.map Observation.ipAddress).foldlM
                  (admitAddress applied.pool) (progress.observations.map Row.ipAddress) with
              | none => .abort
              | some _ =>
                .checked
                  { offset := cursor
                    observations :=
                      progress.observations ++ classifyChunk applied previous chunk
                    dnsmasqVersion := some (shownVersion chunk.dnsmasqVersion)
                    linkIdentity := some link
                    expectedTotal := some total
                    verifiedAt := some (isoformat chunk.observedAt) }
                  (reply.nextOffset = .done)
        | _, _ => .abort

inductive Turn where
  /-- The time limit is reached. -/
  | timeLimit
  /-- The job is gone, is no longer active, does not own the report, or the applied
  identity changed: the run ends without a further report. -/
  | disowned
  /-- A cancellation was requested before the turn. -/
  | cancelRequested
  /-- The helper replied, and the publication that follows a checked chunk is allowed or
  not. -/
  | replied (reply : Reply) (publishes : Bool)

/-- The checks before the final report. -/
inductive Closing where
  /-- The process died, the job is gone, or the ownership or applied identity changed. -/
  | disowned | cancelRequested | owned

/-- The reports that the loop publishes from this state on, and the state and reason of
the final one when the loop ends by itself. -/
def runLoop (applied : Applied) (jobId : String) (previous : List Row) :
    Progress → List Turn → List Report × Option (Progress × RunState × String)
  | _, [] => ([], none)
  | progress, .timeLimit :: _ => ([], some (progress, .partialReport,
      "Verification time limit reached; partial report retained."))
  | _, .disowned :: _ => ([], none)
  | progress, .cancelRequested :: _ => ([], some (progress, .cancelled,
      "Stopped at a bounded observation checkpoint; partial report retained."))
  | progress, .replied reply publishes :: turns =>
    match takeReply applied previous progress reply with
    | .stop state reason => ([], some (progress, state, reason))
    | .abort => ([], none)
    | .checked progress finished =>
      if publishes = false then ([], none)
      else
        let report := runningReport applied jobId previous progress
        if finished then
          ([report], some (progress, .complete, "Bounded verification completed; " ++
            "nonresponse is not proof of availability."))
        else
          let rest := runLoop applied jobId previous progress turns
          (report :: rest.1, rest.2)

def closingReport (applied : Applied) (jobId : String) (previous : List Row)
    (closing : Closing) : Option (Progress × RunState × String) → List Report
  | none => []
  | some (progress, state, reason) =>
    match closing with
    | .disowned => []
    | .cancelRequested => [finalReport applied jobId previous progress .cancelled
        "Cancellation acknowledged; partial report retained."]
    | .owned => [finalReport applied jobId previous progress state reason]

def run (applied : Applied) (jobId : String) (previous : List Row) (turns : List Turn)
    (closing : Closing) : List Report :=
  let ended := runLoop applied jobId previous Progress.start turns
  ended.1 ++ closingReport applied jobId previous closing ended.2

/-- The report that `enqueue` stores. -/
def pendingReport (applied : Applied) (jobId : String) (stored : Option Report) : Report :=
  let kept := stored.filter fun report => report.configHash = applied.digest
  { state := .pending
    reason := "Report-only verification queued."
    configHash := applied.digest
    jobId := jobId
    verifiedAt := kept.bind Report.verifiedAt
    dnsmasqVersion := kept.bind Report.dnsmasqVersion
    observations := (kept.map Report.observations).getD [] }

/-- One verification: the job and what its run meets. -/
structure Verification where
  jobId : String
  turns : List Turn
  closing : Closing

def Verification.reports (applied : Applied) (stored : Option Report)
    (verification : Verification) : List Report :=
  let pending := pendingReport applied verification.jobId stored
  pending :: run applied verification.jobId pending.observations verification.turns
    verification.closing

def publishedReports (applied : Applied) : Option Report → List Verification → List Report
  | _, [] => []
  | stored, verification :: rest =>
    let reports := verification.reports applied stored
    reports ++ publishedReports applied reports.getLast? rest

end Atlaso.Dhcp.PoolVerification
