import Atlaso.Jobs.TaskCancellation
import Atlaso.Library.RowTransactions
import Mathlib.Data.Prod.Lex
import Mathlib.Data.String.Basic

/-!
Workers, operators and reconciliation passes on one task table, statement by statement.

Every actor runs `claim_next_job`, `request` or `reconcile_requests`; an action is one of
its database statements, or the end of its process. A worker that has claimed a task
reports progress and ends it. `reload` says whether an object of a reconciliation pass
was read again since it was selected.
-/

namespace Atlaso.Jobs.JobRaces

open TaskCancellation Kmip.Clock Library.RowTransactions

abbrev Actor := Nat

/-- What is recorded of the committed transactions. -/
inductive Event where
  | claimed (job : String) (worker : Actor)
  | requested (job : String) (status : JobStatus)
  deriving DecidableEq, Repr

/-- Where an actor is in its call. -/
inductive Activity where
  | idle
  /-- `claim_next_job`, at the top of its loop. -/
  | claiming
  | choosing (vcfRunning : Bool)
  | taking (candidate : String)
  /-- The UPDATE of the claim is not committed yet. -/
  | taken (candidate : String)
  | executing (job : String)
  /-- `request`, before it reads the task. -/
  | requesting (job : String) (identity : Identity) (api : Bool)
  | recording (job : String) (seen : Job) (identity : Identity)
  /-- The UPDATE of the request is not committed yet. -/
  | recorded (job : String)
  /-- `finish_pending`, before its UPDATE; the tasks that the pass visits afterwards. -/
  | reserving (job : String) (rest : List Job)
  | reserved (job : String) (rest : List Job)
  /-- `reconcile_requests`, with the tasks still to visit. -/
  | reconciling (rest : List Job)

structure System where
  ids : List String
  rows : Rows String Job Actor
  activity : Actor → Activity
  history : List Event

namespace System

variable (system : System) (actor : Actor)

def become (activity : Activity) : System :=
  { system with activity := Function.update system.activity actor activity }

def rollback : System := { system with rows := system.rows.rollback actor }

def write (id : String) (row : Job) : System :=
  { system with rows := system.rows.write actor id row }

def commit (events : List Event) : System :=
  { system with rows := system.rows.commit actor, history := events ++ system.history }

/-- The rows that a SELECT of the actor returns. -/
def select : List Job := system.ids.filterMap (system.rows.visible actor)

end System

def isRunningVcf (job : Job) : Bool := job.vcfDepotOperation && job.status = .running

def isClaimable (job : Job) : Bool := job.status = .pending && job.cancelRequestedAt.isNone

/-- `ORDER BY created_at, id LIMIT 1` over the claimable tasks. -/
def nextCandidate (jobs : List Job) (vcfRunning : Bool) : Option String :=
  (((jobs.filter fun job => isClaimable job && job.type ∈ workerJobTypes &&
    (!vcfRunning || !job.vcfDepotOperation)).insertionSort fun (left right : Job) =>
      toLex (microsecondsSinceEpoch left.createdAt.time, left.id) ≤
        toLex (microsecondsSinceEpoch right.createdAt.time, right.id)).map Job.id).head?

def indexConflict (system : System) (job : Job) : Bool :=
  job.vcfDepotOperation && system.ids.any fun id => id ≠ job.id &&
    (((system.rows.committed id).map isRunningVcf).getD false ||
      ((system.rows.written id).map fun version => isRunningVcf version.2).getD false)

/-- The tasks that `reconcile_requests` selects. -/
def openRequests (jobs : List Job) : List Job :=
  ((jobs.filter fun job => job.cancelRequestedAt.isSome &&
    job.cancelCompletedAt.isNone).insertionSort fun (left right : Job) =>
      (left.cancelRequestedAt.map fun time => microsecondsSinceEpoch time.time).getD 0 ≤
        (right.cancelRequestedAt.map fun time => microsecondsSinceEpoch time.time).getD 0).take 100

/-- `finish_pending` is tried for the task. -/
def isReservable (job : Job) : Bool := job.status = .pending && job.type ∈ pendingTypes

/-- The WHERE clause of the UPDATE in `request`. -/
def unchangedSince (seen job : Job) : Bool :=
  job.type = seen.type && job.status = seen.status && job.taskConfigJson = seen.taskConfigJson &&
    job.result = seen.result && job.cancelRequestedAt.isNone

/-- The columns that a worker writes when its task ends. -/
def endedRow (status : JobStatus) (result error : Option String) (now : Reading) (job : Job) :
    Job :=
  { job with
    status := status
    result := result
    error := error
    finishedAt := some now
    progressPercent := 100 }

inductive Action where
  | beginClaim (actor : Actor)
  | selectRunning (actor : Actor)
  | selectCandidate (actor : Actor)
  | claim (actor : Actor) (now : Reading)
  | commitClaim (actor : Actor)
  | reportProgress (actor : Actor) (result : Option String) (progressPercent : Nat)
  | endJob (actor : Actor) (status : JobStatus) (result error : Option String) (now : Reading)
  | stopJob (actor : Actor) (now : Reading)
  | beginRequest (actor : Actor) (job : String) (identity : Identity) (api : Bool)
  | readRequest (actor : Actor)
  | recordRequest (actor : Actor) (now : Reading)
  | commitRequest (actor : Actor)
  | reserve (actor : Actor)
  | release (actor : Actor) (cleanupFails : Bool) (now : Reading)
  | beginReconcile (actor : Actor)
  | visit (actor : Actor) (reload : Bool) (now : Reading)
  | endReconcile (actor : Actor)
  | crash (actor : Actor)

/-- What `request` does once it has read the task. -/
def afterRead (id : String) (job : Job) (identity : Identity) (api : Bool) : Activity :=
  if authorized job identity api = false then .idle
  else if job.status.isActive = false then .idle
  else if job.cancelRequestedAt ≠ none then
    if isReservable job then .reserving id [] else .idle
  else if (capability job identity api).canCancel then .recording id job identity
  else .idle

/-- A statement that waits for another transaction is not enabled. -/
def step (system : System) : Action → Option System
  | .beginClaim actor =>
    match system.activity actor with
    | .idle => some (system.become actor .claiming)
    | _ => none
  | .selectRunning actor =>
    match system.activity actor with
    | .claiming =>
      some (system.become actor (.choosing ((system.select actor).any isRunningVcf)))
    | _ => none
  | .selectCandidate actor =>
    match system.activity actor with
    | .choosing vcfRunning =>
      match nextCandidate (system.select actor) vcfRunning with
      | none => some (system.become actor .idle)
      | some candidate => some (system.become actor (.taking candidate))
    | _ => none
  | .claim actor now =>
    match system.activity actor with
    | .taking candidate =>
      if system.rows.writable actor candidate = false then none
      else
        match system.rows.visible actor candidate with
        | some job =>
          if isClaimable job && !indexConflict system job then
            some ((system.write actor candidate (claimedRow now job)).become actor
              (.taken candidate))
          else some ((system.rollback actor).become actor .claiming)
        | none => some ((system.rollback actor).become actor .claiming)
    | _ => none
  | .commitClaim actor =>
    match system.activity actor with
    | .taken candidate =>
      some ((system.commit actor [.claimed candidate actor]).become actor
        (.executing candidate))
    | _ => none
  | .reportProgress actor result progressPercent =>
    match system.activity actor with
    | .executing id =>
      if system.rows.writable actor id = false then none
      else
        match system.rows.visible actor id with
        | some job => some (((system.write actor id
            { job with result := result, progressPercent := progressPercent }).commit
              actor []).become actor (.executing id))
        | none => none
    | _ => none
  | .endJob actor status result error now =>
    match system.activity actor with
    | .executing id =>
      if system.rows.writable actor id = false ∨ status.isActive = true then none
      else
        match system.rows.visible actor id with
        | some job => some (((system.write actor id
            (endedRow status result error now job)).commit actor []).become actor .idle)
        | none => none
    | _ => none
  | .stopJob actor now =>
    match system.activity actor with
    | .executing id =>
      if system.rows.writable actor id = false then none
      else
        match system.rows.visible actor id with
        | some job =>
          if (finishStop now job).2 then
            some (((system.write actor id (finishStop now job).1).commit actor []).become
              actor .idle)
          else none
        | none => none
    | _ => none
  | .beginRequest actor job identity api =>
    match system.activity actor with
    | .idle => some (system.become actor (.requesting job identity api))
    | _ => none
  | .readRequest actor =>
    match system.activity actor with
    | .requesting id identity api =>
      match system.rows.visible actor id with
      | some job => some (system.become actor (afterRead id job identity api))
      | none => some (system.become actor .idle)
    | _ => none
  | .recordRequest actor now =>
    match system.activity actor with
    | .recording id seen identity =>
      if system.rows.writable actor id = false then none
      else
        match system.rows.visible actor id with
        | some job =>
          if unchangedSince seen job then
            some ((system.write actor id (requestedRow now identity job)).become actor
              (.recorded id))
          else some ((system.rollback actor).become actor .idle)
        | none => some ((system.rollback actor).become actor .idle)
    | _ => none
  | .commitRequest actor =>
    match system.activity actor with
    | .recorded id =>
      match system.rows.visible actor id with
      | some job =>
        some ((system.commit actor [.requested id job.status]).become actor
          (if isReservable job then .reserving id [] else .idle))
      | none => none
    | _ => none
  | .reserve actor =>
    match system.activity actor with
    | .reserving id rest =>
      if system.rows.writable actor id = false then none
      else
        match system.rows.visible actor id with
        | some job =>
          if job.status = .pending ∧ job.cancelRequestedAt ≠ none then
            some ((system.write actor id job).become actor (.reserved id rest))
          else some ((system.rollback actor).become actor (.reconciling rest))
        | none => some ((system.rollback actor).become actor (.reconciling rest))
    | _ => none
  | .release actor cleanupFails now =>
    match system.activity actor with
    | .reserved id rest =>
      match system.rows.visible actor id with
      | some job =>
        if job.type ∉ pendingTypes then
          some ((system.rollback actor).become actor (.reconciling rest))
        else if hasUpload job && cleanupFails then
          some (((system.write actor id (cleanupFailedRow job)).commit actor []).become actor
            (.reconciling rest))
        else
          some (((system.write actor id (finishStop now job).1).commit actor []).become actor
            (.reconciling rest))
      | none => none
    | _ => none
  | .beginReconcile actor =>
    match system.activity actor with
    | .idle => some (system.become actor (.reconciling (openRequests (system.select actor))))
    | _ => none
  | .visit actor reload now =>
    match system.activity actor with
    | .reconciling (seen :: rest) =>
      match system.rows.visible actor seen.id with
      | some row =>
        let job := if reload then row else seen
        if isReservable job then some (system.become actor (.reserving seen.id rest))
        else if job.status.isActive then some (system.become actor (.reconciling rest))
        else if system.rows.writable actor seen.id = false then none
        else
          some (((system.write actor seen.id (settledRow now job row)).commit actor []).become
            actor (.reconciling rest))
      | none => some (system.become actor (.reconciling rest))
    | _ => none
  | .endReconcile actor =>
    match system.activity actor with
    | .reconciling [] => some (system.become actor .idle)
    | _ => none
  | .crash actor => some ((system.rollback actor).become actor .idle)

end Atlaso.Jobs.JobRaces
