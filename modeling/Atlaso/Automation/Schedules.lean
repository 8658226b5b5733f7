import Atlaso.Automation.CronExpressions
import Atlaso.Jobs.TaskCancellation

/-!
Saved schedules, `validate_schedule_values` and `enqueue_due_schedules`.

Task configurations and results are kept as parsed documents. An identifier that SQLite
cannot bind as a 64-bit integer raises OverflowError where it is queried. The loop runs in
one transaction, so an exception leaves the database as it was. Locks, constraint
violations and the stored verification reports are not modelled.
-/

namespace Atlaso.Automation.Schedules

open CronExpressions
open Atlaso.Jobs.TaskCancellation (JobStatus truthy)
open Library Dictionary JsonText Outcomes TextFields

abbrev Members := List (String × Json)

structure Schedule where
  id : Nat
  (name taskType taskConfigJson scheduleKind cronExpression : String)
  runOnceAt : Option Instant
  timezoneName : String
  enabled : Bool
  (nextRunAt lastRunAt : Option Instant)
  lastJobId : String
  updatedAt : Instant

structure JobStep where
  (id componentKey label : String)
  position : Nat

structure Job where
  (id type : String)
  status : JobStatus
  createdBy : String
  createdAt : Instant
  progressPercent : Nat
  scheduleId : Option Nat
  trigger : String
  plannedFor : Option Instant
  (taskConfig result : Members)
  error : Option String
  finishedAt : Option Instant
  vcfDepotOperation : Bool
  /-- The value of `vcf_depot_job_profile_id`. -/
  vcfDepotProfileId : Int
  steps : List JobStep

structure Profile where
  id : Int
  (name profileType status : String)
  enabled : Bool
  updatedAt : Instant

structure AuditEvent where
  (actor action resourceType resourceId : String)
  success : Bool
  detail : String

/-- The tables that the loop writes. Schedule ids are the primary key. -/
structure Database where
  schedules : List Schedule
  jobs : List Job
  profiles : List Profile
  events : List AuditEvent
  distinct : (schedules.map Schedule.id).Nodup

/-- The hexadecimal texts that `uuid4()` gives for one schedule. -/
structure Draws where
  (job transaction : String)

/-- What the call reads and does not write: the zone database, `int` of a float literal,
the draws, the clock, the answers of `applied_pool` and the vaults' identities. -/
structure Environment where
  zoneInfo : String → Option Zone
  truncate : List Char → Except Raised Int
  draws : Nat → Draws
  clock : Instant
  appliedPool : Int → Except String (Members × String)
  vaultScope : Int → Option String

/-! ### Validation -/

def scheduleTaskTypes : List String :=
  ["appliance_update_check", "appliance_update_install", "vcf_depot_download", "managed_script",
    "dhcp_pool_verify", "vcf_certificate_renewal_check"]

def scheduleJobTypes : List (String × String) :=
  [("appliance_update_check", "appliance-update"), ("appliance_update_install", "appliance-update"),
    ("vcf_depot_download", "vcf-depot-download"), ("managed_script", "managed-script"),
    ("dhcp_pool_verify", "dhcp-pool-verify"),
    ("vcf_certificate_renewal_check", "vcf-certificate-renewal-check")]

def updateTaskTypes : List String := ["appliance_update_check", "appliance_update_install"]

def updateStreams : List String := ["photon_os", "powershell_modules", "atlaso_release"]

def jsonObject (rawValue label : String) : Except Raised Members :=
  match loads (if rawValue = "" then "\x7b\x7d" else rawValue) with
  | some (.object members) => .ok (ofPairs members)
  | some _ => .error (.valueError (label ++ " must be a JSON object."))
  | none => .error (.valueError (label ++ " must be valid JSON."))

/-- `isinstance(value, int)`. -/
def isInt : Option Json → Bool
  | some (.int _) => true
  | some (.bool _) => true
  | _ => false

def isPositive : Option Json → Bool
  | some (.int value) => 0 < value
  | _ => false

/-- `stream not in {...}`; a list or an object is not hashable. -/
def unsupportedStream : Json → Except Raised Bool
  | .string name => .ok (name ∉ updateStreams)
  | .array _ => .error .typeError
  | .object _ => .error .typeError
  | _ => .ok true

/-- `any(stream not in {...} for stream in streams)`. -/
def anyUnsupported : List Json → Except Raised Bool
  | [] => .ok false
  | stream :: streams => do
      if ← unsupportedStream stream then .ok true else anyUnsupported streams

def isPolicyIdentity (text : String) : Bool :=
  text.length = 32 && text.toList.all fun c => ('a' ≤ c && c ≤ 'f') || ('0' ≤ c && c ≤ '9')

def isSingleMinute : List Char → Bool
  | [unit] => '0' ≤ unit && unit ≤ '9'
  | [ten, unit] => '0' ≤ ten && ten ≤ '5' && '0' ≤ unit && unit ≤ '9'
  | _ => false

def isStringList : Option Json → Bool
  | none => true
  | some (.array items) => items.all fun item =>
    match item with
    | .string _ => true
    | _ => false
  | some _ => false

def configErrors (taskType : String) (config : Members) (allowDetached : Bool) :
    Except Raised (List String) :=
  if taskType ∈ updateTaskTypes then
    match getItem "selected_streams" config with
    | some (.array (stream :: streams)) => do
        if ← anyUnsupported (stream :: streams) then
          .ok ["Appliance update schedule contains a retired or unsupported stream."]
        else .ok []
    | _ => .ok ["Appliance update schedules require selected_streams."]
  else if taskType = "vcf_depot_download" then
    if isInt (getItem "profile_id" config) then .ok []
    else .ok ["VCF Offline Depot schedules require an integer profile_id."]
  else if taskType = "dhcp_pool_verify" then
    let scopeId := getItem "scope_id" config
    if allowDetached && scopeId.isNone then .ok []
    else if isPositive scopeId then .ok []
    else .ok ["DHCP pool verification schedules require a positive integer scope_id."]
  else if taskType = "vcf_certificate_renewal_check" then
    let known := match getItem "policy_id" config with
      | some (.string policy) => isPolicyIdentity policy
      | _ => false
    .ok ((if known then [] else ["VCF renewal checks require an enrolled policy identity."]) ++
      if config.map Prod.fst = ["policy_id"] then []
      else ["VCF renewal schedules may contain only a policy identity; preparation and " ++
        "replacement cannot be scheduled."])
  else if taskType = "managed_script" then
    .ok ((if isInt (getItem "revision_id" config) then []
        else ["Managed script schedules require an integer revision_id."]) ++
      if isStringList (getItem "arguments" config) then []
      else ["Managed script schedule arguments must be a list of strings."])
  else .ok []

def timingErrors (taskType scheduleKind cronExpression : String) (runOnceAt : Option Instant) :
    List String :=
  let hourly := match words cronExpression.toList with
    | first :: _ => isSingleMinute first
    | [] => false
  if scheduleKind = "cron" then
    (match parseCronExpression cronExpression with
      | .error (.valueError message) => [message]
      | .error _ => [""]
      | .ok _ => []) ++
    (if taskType = "dhcp_pool_verify" ∧ hourly = false then
      ["DHCP pool verification schedules must recur hourly or less often."] else []) ++
    (if taskType = "vcf_certificate_renewal_check" ∧ hourly = false then
      ["VCF renewal checks must recur hourly or less often."] else [])
  else if scheduleKind = "once" then
    if taskType = "dhcp_pool_verify" then
      ["DHCP pool verification schedules must recur hourly or less often."]
    else if runOnceAt.isNone then ["One-time schedules require a run date and time."]
    else []
  else ["Schedule kind must be cron or once."]

def validateScheduleValues (zoneInfo : String → Option Zone)
    (taskType taskConfigJson scheduleKind cronExpression : String) (runOnceAt : Option Instant)
    (timezoneName : String) (allowDetached : Bool) : Except Raised (List String) := do
  let typeErrors := if taskType ∈ scheduleTaskTypes then []
    else ["Choose a supported scheduled task type."]
  let (documentErrors, config) := match jsonObject taskConfigJson "Task configuration" with
    | .ok members => ([], members)
    | .error (.valueError message) => ([message], [])
    | .error _ => ([""], [])
  let taskErrors ← configErrors taskType config allowDetached
  let zoneErrors := if (zoneInfo timezoneName).isSome then [] else ["Choose a valid IANA timezone."]
  .ok (typeErrors ++ documentErrors ++ taskErrors ++ zoneErrors ++
    timingErrors taskType scheduleKind cronExpression runOnceAt)

/-! ### Configurations -/

/-- `int(value or 0)`. -/
def intOrZero (environment : Environment) : Json → Except Raised Int
  | .null => .ok 0
  | .bool value => .ok (if value then 1 else 0)
  | .int value => .ok value
  | .real literal => environment.truncate literal
  | .string text => if text = "" then .ok 0 else int text.toList
  | .array items => if items.isEmpty then .ok 0 else .error .typeError
  | .object members => if members.isEmpty then .ok 0 else .error .typeError

/-- SQLite binds the identifier of a query. -/
def bindable (id : Int) : Bool := -2 ^ 63 ≤ id && id < 2 ^ 63

def popItem (key : String) (config : Members) : Members :=
  config.filter fun member => member.1 ≠ key

def bindManagedScriptVaultScope (environment : Environment) (config : Members) :
    Except Raised Members := do
  let vaultId ← intOrZero environment ((getItem "vault_id" config).getD .null)
  if vaultId = 0 then .ok (popItem "vault_scope" config)
  else if bindable vaultId = false then .error .overflowError
  else .ok (setItem "vault_scope" (.string ((environment.vaultScope vaultId).getD "")) config)

def selectedStreams (config : Members) : List String :=
  match getItem "selected_streams" config with
  | some (.array items) => items.filterMap fun item =>
    match item with
    | .string name => some name
    | _ => none
  | _ => []

def prepareApplianceUpdateTaskConfig (transaction : String) (config : Members) : Members :=
  let selected := selectedStreams config
  let order := updateStreams.filter fun stream => stream ∈ selected
  let config := setItem "execution_order" (.array (order.map Json.string))
    (setItem "schema_version" (.int 2) config)
  match getItem "mode" config with
  | some (.string "run") => setItem "status_transaction_id" (.string transaction) config
  | _ => popItem "status_transaction_id" config

def preparedConfig (environment : Environment) (schedule : Schedule) (config : Members) :
    Except Raised Members := do
  let config ← if schedule.taskType = "managed_script" then
      bindManagedScriptVaultScope environment config
    else .ok config
  let config :=
    if schedule.taskType = "appliance_update_check" then setItem "mode" (.string "check") config
    else if schedule.taskType = "appliance_update_install" then
      setItem "mode" (.string "run") config
    else config
  let config := if schedule.taskType ∈ updateTaskTypes then
      prepareApplianceUpdateTaskConfig (environment.draws schedule.id).transaction config
    else config
  .ok (setItem "_schedule_name" (.string schedule.name)
    (setItem "_schedule_id" (.int schedule.id) config))

/-! ### Admission -/

def scheduleJobId (schedule : Schedule) (current : Instant) : String :=
  "job_schedule_" ++ toString schedule.id ++ "_" ++ toString (timestampSeconds current)

def plannedText (plannedFor : Option Instant) : String := (plannedFor.map isoformat).getD ""

def scheduler (schedule : Schedule) : String := "scheduler:" ++ schedule.name

/-- A queued job of the schedule; every admission changes some of its fields. -/
def baseJob (environment : Environment) (current : Instant) (schedule : Schedule)
    (plannedFor : Option Instant) (type : String) : Job where
  id := scheduleJobId schedule current
  type := type
  status := .pending
  createdBy := scheduler schedule
  createdAt := environment.clock
  progressPercent := 0
  scheduleId := some schedule.id
  trigger := "scheduled"
  plannedFor := plannedFor
  taskConfig := []
  result := []
  error := none
  finishedAt := none
  vcfDepotOperation := false
  vcfDepotProfileId := 0
  steps := []

def Database.addJob (database : Database) (job : Job) : Database :=
  { database with jobs := database.jobs ++ [job] }

def Database.addEvent (database : Database) (event : AuditEvent) : Database :=
  { database with events := database.events ++ [event] }

theorem map_ids (schedules : List Schedule) (row : Schedule) :
    (schedules.map fun other => if other.id = row.id then row else other).map Schedule.id =
      schedules.map Schedule.id := by
  rw [List.map_map]
  refine List.map_congr_left fun other _ => ?_
  simp only [Function.comp_apply]
  split_ifs with same
  · exact same.symm
  · rfl

def Database.setSchedule (database : Database) (row : Schedule) : Database :=
  { database with
    schedules := database.schedules.map fun other => if other.id = row.id then row else other
    distinct := by rw [map_ids]; exact database.distinct }

def depotResult (profile : Profile) (schedule : Schedule) (plannedFor : Option Instant)
    (jobId : String) : Members :=
  [("profile_id", .int profile.id), ("profile_name", .string profile.name),
    ("profile_type", .string profile.profileType),
    ("profile_status_before_enqueue", .string profile.status), ("trigger", .string "scheduled"),
    ("schedule_id", .int schedule.id), ("schedule_name", .string schedule.name),
    ("planned_for", .string (plannedText plannedFor)),
    ("log_path", .string ("/var/lib/atlaso/vcfDownloadTool/task-logs/" ++ jobId ++ ".log"))]

def firstActive (jobs : List Job) (wanted : Job → Bool) : Option Job :=
  ((jobs.filter fun job => job.status.isActive && wanted job).insertionSort fun (left right : Job) =>
    left.createdAt.micros < right.createdAt.micros ∨
      (left.createdAt.micros = right.createdAt.micros ∧ left.id ≤ right.id)).head?

/-- The refusals of `enqueue_vcf_depot_download`: the message, and the job in its way. -/
def depotRefusal (database : Database) (profile : Profile) : Option (String × String) :=
  match firstActive database.jobs fun job =>
      job.type = "vcf-depot-download" && job.vcfDepotProfileId = profile.id with
  | some active => some ("VCFDT task " ++ active.id ++ " is already queued or running for this " ++
      "profile. Wait for that profile task to finish before starting it again.", active.id)
  | none =>
    match firstActive database.jobs fun job =>
        job.vcfDepotOperation && job.type ≠ "vcf-depot-download" with
    | some active => some ("VCFDT operation " ++ active.id ++ " (" ++ active.type ++
        ") is already pending or running. Wait for it to finish before queueing a profile " ++
        "download.", active.id)
    | none => none

/-- The branch of `vcf_depot_download`. -/
def admitDepotDownload (environment : Environment) (current : Instant) (database : Database)
    (schedule : Schedule) (plannedFor : Option Instant) (config : Members) :
    Except Raised (Database × Job) := do
  let profileId ← intOrZero environment ((getItem "profile_id" config).getD .null)
  if bindable profileId = false then .error .overflowError
  else
    let base := { baseJob environment current schedule plannedFor "vcf-depot-download" with
      taskConfig := [("profile_id", .int profileId)] }
    match database.profiles.find? fun profile => profile.id = profileId with
    | none =>
      let message := "The scheduled VCF Offline Depot profile no longer exists."
      let job := { base with
        status := .failed
        progressPercent := 100
        result := [("profile_id", (getItem "profile_id" config).getD .null),
          ("profile_name", .string "Deleted profile"), ("trigger", .string "scheduled"),
          ("schedule_id", .int schedule.id), ("schedule_name", .string schedule.name),
          ("planned_for", .string (plannedText plannedFor)),
          ("log_path", .string
            ("/var/lib/atlaso/vcfDownloadTool/task-logs/" ++ base.id ++ ".log")),
          ("success", .bool false), ("status", .string "failed"), ("error", .string message)]
        error := some message
        finishedAt := some current }
      .ok (database.addJob job, job)
    | some profile =>
      let result := depotResult profile schedule plannedFor base.id
      match depotRefusal database profile with
      | some (message, active) =>
        let job := { base with
          status := .skipped
          progressPercent := 100
          result := result ++ [("status", .string "skipped"), ("success", .bool false),
            ("error", .string message), ("active_job_id", .string active)]
          error := some message
          finishedAt := some current }
        .ok (database.addJob job, job)
      | none =>
        let job := { base with
          vcfDepotOperation := true
          vcfDepotProfileId := profile.id
          result := result }
        let profiles := database.profiles.map fun other =>
          if other.id = profile.id ∧ other.enabled = true then
            { other with status := "ready", updatedAt := environment.clock }
          else other
        .ok ({ database.addJob job with profiles := profiles }, job)

def recentVerification (clock : Instant) (scopeId : Int) (job : Job) : Bool :=
  job.type = "dhcp-pool-verify" && job.status ≠ .skipped &&
    clock.micros ≤ job.createdAt.micros + 900 * 1000000 &&
      (match getItem "scope_id" job.taskConfig with
        | some (.int scope) => scope = scopeId
        | _ => false) &&
        !truthy ((getItem "scope_retired" job.taskConfig).getD .null)

/-- `enqueue` of the pool verification: the ValueError's message, or the queued job's
configuration and result with the pool's interface. -/
def verificationRequest (environment : Environment) (database : Database) (scopeId : Int) :
    Except String (Members × Members × String) := do
  let (pool, digest) ← environment.appliedPool scopeId
  match database.jobs.find? fun job => job.type = "dhcp-pool-verify" && job.status.isActive with
  | some active => .error ("Pool verification already active in task " ++ active.id ++ ".")
  | none =>
    if database.jobs.any (recentVerification environment.clock scopeId) then
      .error "Wait 15 minutes between verification runs of the same pool."
    else
      .ok ([("scope_id", .int scopeId), ("config_hash", .string digest), ("pool", .object pool)],
        [("state", .string "queued"), ("scope_id", .int scopeId), ("observations", .array [])],
        match getItem "interface_name" pool with
        | some (.string interface) => interface
        | _ => "")

def skippedVerification (environment : Environment) (current : Instant) (schedule : Schedule)
    (plannedFor : Option Instant) (config : Members) (message : String) : Job :=
  let scopeId := (getItem "scope_id" config).getD .null
  { baseJob environment current schedule plannedFor "dhcp-pool-verify" with
    status := .skipped
    progressPercent := 100
    taskConfig := [("scope_id", scopeId)]
    result := [("schedule_id", .int schedule.id), ("schedule_name", .string schedule.name),
      ("scope_id", scopeId), ("trigger", .string "scheduled"),
      ("planned_for", .string (plannedText plannedFor)), ("success", .bool false),
      ("status", .string "skipped"), ("error", .string message)]
    error := some message
    finishedAt := some current }

/-- The branch of `dhcp_pool_verify`. -/
def admitPoolVerification (environment : Environment) (current : Instant) (database : Database)
    (schedule : Schedule) (plannedFor : Option Instant) (config : Members) :
    Except Raised (Database × Job) :=
  let skipped := skippedVerification environment current schedule plannedFor config
  match getItem "scope_id" config with
  | some (.int scopeId) =>
    if scopeId ≤ 0 then
      let job := skipped "The DHCP pool verification scope is invalid."
      .ok (database.addJob job, job)
    else if bindable scopeId = false then .error .overflowError
    else
      match verificationRequest environment database scopeId with
      | .error message =>
        let job := skipped message
        .ok (database.addJob job, job)
      | .ok (taskConfig, result, interface) =>
        let job := { baseJob environment current schedule plannedFor "dhcp-pool-verify" with
          id := "job_" ++ (environment.draws schedule.id).job
          taskConfig := taskConfig
          result := result }
        .ok ((database.addJob job).addEvent
          { actor := scheduler schedule
            action := "verify_dhcp_pool"
            resourceType := "job"
            resourceId := job.id
            success := true
            detail := "scope_id=" ++ toString scopeId ++ "; interface=" ++ interface ++
              "; report_only=true" }, job)
  | _ =>
    let job := skipped "The DHCP pool verification scope is invalid."
    .ok (database.addJob job, job)

def updateStreamLabels : List (String × String) :=
  [("photon_os", "Photon OS"), ("powershell_modules", "PowerShell Modules"),
    ("atlaso_release", "Atlaso Release"), ("guest_tools", "Guest Tools")]

/-- `ensure_appliance_update_job_steps` of a new job. -/
def applianceUpdateSteps (jobId : String) (config : Members) : List JobStep :=
  let maintenance := updateStreams ++ ["guest_tools"]
  let selected := maintenance.filter fun stream => stream ∈ selectedStreams config
  let configured := match getItem "execution_order" config with
    | some (.array items) => items.filterMap fun item =>
      match item with
      | .string name => some name
      | _ => none
    | _ => []
  let ordered := if configured.isEmpty then maintenance else configured
  let ordered := if ordered.all (· ∈ selected) && selected.all (· ∈ ordered) &&
      ordered.length = selected.length then ordered else selected
  (ordered.filter fun stream => stream ∈ selected).zipIdx.map fun entry =>
    { id := jobId ++ ":" ++ entry.1
      componentKey := entry.1
      label := (getItem entry.1 updateStreamLabels).getD ""
      position := entry.2 + 1 }

def admitTask (environment : Environment) (current : Instant) (database : Database)
    (schedule : Schedule) (plannedFor : Option Instant) (config : Members) :
    Except Raised (Database × Job) :=
  match getItem schedule.taskType scheduleJobTypes with
  | none => .error .keyError
  | some type =>
    let base := baseJob environment current schedule plannedFor type
    let id := if type = "appliance-update" then "job_" ++ (environment.draws schedule.id).job
      else base.id
    let job := { base with
      id := id
      taskConfig := config
      result := [("schedule_id", .int schedule.id), ("schedule_name", .string schedule.name),
        ("trigger", .string "scheduled")]
      steps := if type = "appliance-update" then applianceUpdateSteps id config else [] }
    .ok (database.addJob job, job)

def admitJob (environment : Environment) (current : Instant) (database : Database)
    (schedule : Schedule) (plannedFor : Option Instant) (config : Members) :
    Except Raised (Database × Job) :=
  if schedule.taskType = "vcf_depot_download" then
    admitDepotDownload environment current database schedule plannedFor config
  else if schedule.taskType = "dhcp_pool_verify" then
    admitPoolVerification environment current database schedule plannedFor config
  else admitTask environment current database schedule plannedFor config

/-! ### The loop -/

def resultText (job : Job) (key : String) : String :=
  match getItem key job.result with
  | some (.string text) => text
  | _ => ""

def jobEvent (schedule : Schedule) (plannedFor : Option Instant) (job : Job) : AuditEvent :=
  if job.status = .skipped then
    { actor := scheduler schedule
      action := if schedule.taskType = "dhcp_pool_verify" then "skip_scheduled_task"
        else "skip_scheduled_vcf_depot_download"
      resourceType := "job"
      resourceId := job.id
      success := false
      detail := (if schedule.taskType = "dhcp_pool_verify" then resultText job "error"
        else "active_job=" ++ resultText job "active_job_id") ++
          "; planned_for=" ++ plannedText plannedFor }
  else
    { actor := scheduler schedule
      action := if job.status = .pending then "queue_scheduled_task" else "fail_scheduled_task"
      resourceType := "job"
      resourceId := job.id
      success := job.status = .pending
      detail := "schedule_id=" ++ toString schedule.id ++ "; task_type=" ++ schedule.taskType }

def activeJob (database : Database) (schedule : Schedule) : Option Job :=
  if schedule.taskType = "vcf_depot_download" ∨ schedule.taskType = "dhcp_pool_verify" then none
  else database.jobs.find? fun job => job.scheduleId = some schedule.id && job.status.isActive

def movedRow (environment : Environment) (current : Instant) (schedule : Schedule) :
    Except Raised Schedule :=
  if schedule.scheduleKind = "once" then
    .ok { schedule with
      lastRunAt := some current
      enabled := false
      nextRunAt := none
      updatedAt := current }
  else do
    let next ← nextCronRun environment.zoneInfo schedule.cronExpression schedule.timezoneName
      current
    .ok { schedule with
      lastRunAt := some current
      nextRunAt := some next
      updatedAt := current }

def skipEvent (schedule : Schedule) (active : Job) : AuditEvent where
  actor := scheduler schedule
  action := "skip_scheduled_task"
  resourceType := "schedule"
  resourceId := toString schedule.id
  success := false
  detail := "active_job=" ++ active.id ++ "; planned_for=" ++ plannedText schedule.nextRunAt

/-- One pass of the loop body. -/
def processSchedule (environment : Environment) (current : Instant) (database : Database)
    (schedule : Schedule) : Except Raised (Database × Option Job) := do
  let moved ← movedRow environment current schedule
  match activeJob database schedule with
  | some active =>
    .ok ((database.setSchedule moved).addEvent (skipEvent schedule active), none)
  | none =>
    let config ← jsonObject schedule.taskConfigJson "Task configuration"
    let config ← preparedConfig environment schedule config
    let (admitted, job) ← admitJob environment current database schedule schedule.nextRunAt config
    .ok ((admitted.setSchedule { moved with lastJobId := job.id }).addEvent
      (jobEvent schedule schedule.nextRunAt job), some job)

def isDue (current : Instant) (schedule : Schedule) : Bool :=
  schedule.enabled && (schedule.nextRunAt.map fun next => decide (next ≤ current)).getD false

/-- The due schedules, ordered by `next_run_at` and `id`. -/
def dueSchedules (current : Instant) (database : Database) : List Schedule :=
  (database.schedules.filter (isDue current)).insertionSort fun (left right : Schedule) =>
    (left.nextRunAt.map Instant.micros).getD 0 < (right.nextRunAt.map Instant.micros).getD 0 ∨
      ((left.nextRunAt.map Instant.micros).getD 0 = (right.nextRunAt.map Instant.micros).getD 0 ∧
        left.id ≤ right.id)

def processSchedules (environment : Environment) (current : Instant) :
    Database → List Schedule → Except Raised (Database × List Job)
  | database, [] => .ok (database, [])
  | database, schedule :: schedules => do
      let (next, job) ← processSchedule environment current database schedule
      let (last, jobs) ← processSchedules environment current next schedules
      .ok (last, job.toList ++ jobs)

def enqueueDueSchedules (environment : Environment) (current : Instant) (database : Database) :
    Except Raised (Database × List Job) :=
  processSchedules environment current database (dueSchedules current database)

end Atlaso.Automation.Schedules
