import Atlaso.Automation.Schedules

/-!
When one schedule blocks the others.

The loop has no handler of its own, so that it returns if and only if every due schedule
can be processed; a schedule's part in this does not depend on what the loop did before
it reached the schedule.
-/

namespace Atlaso.Automation.ScheduleIsolation

open CronExpressions Schedules Library Dictionary JsonText Outcomes

variable {environment : Environment} {current : Instant} {database next : Database}
variable {schedule : Schedule} {job : Option Job}

/-- The row was saved with values that `validate_schedule_values` accepts. -/
def Validated (environment : Environment) (schedule : Schedule) : Prop :=
  ∃ allowDetached, validateScheduleValues environment.zoneInfo schedule.taskType
    schedule.taskConfigJson schedule.scheduleKind schedule.cronExpression schedule.runOnceAt
      schedule.timezoneName allowDetached = .ok []

/-- The identifiers in the configuration can be read and queried. -/
def Accepts (environment : Environment) (taskType : String) (config : Members) : Prop :=
  if taskType = "managed_script" then
    ∃ id, intOrZero environment ((getItem "vault_id" config).getD .null) = .ok id ∧
      bindable id = true
  else if taskType = "vcf_depot_download" then
    ∃ id, intOrZero environment ((getItem "profile_id" config).getD .null) = .ok id ∧
      bindable id = true
  else if taskType = "dhcp_pool_verify" then
    ∀ id, getItem "scope_id" config = some (.int id) → 0 < id → bindable id = true
  else True

/-- A schedule that the loop gets past. -/
structure Processable (environment : Environment) (current : Instant) (database : Database)
    (schedule : Schedule) : Prop where
  runs : schedule.scheduleKind = "once" ∨ RunsWithin environment.zoneInfo
    schedule.cronExpression schedule.timezoneName (firstCandidate current) horizon
  accepted : (activeJob database schedule).isSome = true ∨
    ∃ config, jsonObject schedule.taskConfigJson "Task configuration" = .ok config ∧
      Accepts environment schedule.taskType config

/-! ### One pass of the loop -/

theorem moved_row_ok_iff :
    (∃ row, movedRow environment current schedule = .ok row) ↔
      (schedule.scheduleKind = "once" ∨ RunsWithin environment.zoneInfo
        schedule.cronExpression schedule.timezoneName (firstCandidate current) horizon) := by
  unfold movedRow
  split_ifs with once
  · simp [once]
  · rw [or_iff_right once, ← next_cron_run_ok_iff]
    constructor
    · rintro ⟨row, result⟩
      obtain ⟨next, found, _⟩ := bind_ok_iff.mp result
      exact ⟨next, found⟩
    · rintro ⟨next, found⟩
      rw [found]
      exact ⟨_, rfl⟩

theorem moved_row_advances {row : Schedule} (moved : movedRow environment current schedule = .ok row) :
    row.id = schedule.id ∧
      (row.enabled = false ∨ ∃ next, row.nextRunAt = some next ∧ current < next) := by
  unfold movedRow at moved
  split_ifs at moved with once
  · cases moved
    exact ⟨rfl, .inl rfl⟩
  · obtain ⟨next, found, result⟩ := bind_ok_iff.mp moved
    cases result
    exact ⟨rfl, .inr ⟨next, rfl, next_cron_run_later found⟩⟩

theorem get_item_set_item_ne {key other : String} (different : other ≠ key) (value : Json)
    (config : Members) : getItem key (setItem other value config) = getItem key config := by
  induction config with
  | nil => simp [setItem, getItem, different]
  | cons member config induction =>
    obtain ⟨name, old⟩ := member
    by_cases same : name = other
    · subst same
      simp [setItem, getItem, different]
    · simp only [setItem, if_neg same, getItem, induction]

variable {config : Members} {plannedFor : Option Instant}

theorem prepared_config_plain (script : schedule.taskType ≠ "managed_script")
    (update : schedule.taskType ∉ updateTaskTypes) :
    preparedConfig environment schedule config =
      .ok (setItem "_schedule_name" (.string schedule.name)
        (setItem "_schedule_id" (.int schedule.id) config)) := by
  have kinds : schedule.taskType ≠ "appliance_update_check" ∧
      schedule.taskType ≠ "appliance_update_install" := by
    simpa [updateTaskTypes] using update
  simp [preparedConfig, script, kinds.1, kinds.2, update]

theorem bind_vault_ok_iff :
    (∃ bound, bindManagedScriptVaultScope environment config = .ok bound) ↔
      ∃ id, intOrZero environment ((getItem "vault_id" config).getD .null) = .ok id ∧
        bindable id = true := by
  constructor
  · rintro ⟨bound, result⟩
    obtain ⟨id, read, result⟩ := bind_ok_iff.mp result
    refine ⟨id, read, ?_⟩
    split_ifs at result with none unbindable
    · rw [none]
      decide
    · simpa using unbindable
  · rintro ⟨id, read, bound⟩
    simp only [bindManagedScriptVaultScope, read, ok_bind]
    by_cases none : id = 0
    · exact ⟨_, by rw [if_pos none]⟩
    · exact ⟨_, by rw [if_neg none, if_neg (by simp [bound])]⟩

theorem prepared_script_ok_iff (script : schedule.taskType = "managed_script") :
    (∃ prepared, preparedConfig environment schedule config = .ok prepared) ↔
      ∃ bound, bindManagedScriptVaultScope environment config = .ok bound := by
  constructor
  · rintro ⟨prepared, result⟩
    simp only [preparedConfig, if_pos script] at result
    obtain ⟨bound, result, _⟩ := bind_ok_iff.mp result
    exact ⟨bound, result⟩
  · rintro ⟨bound, result⟩
    simp only [preparedConfig, if_pos script, result, ok_bind]
    exact ⟨_, rfl⟩

theorem prepared_update_ok (script : schedule.taskType ≠ "managed_script") :
    ∃ prepared, preparedConfig environment schedule config = .ok prepared := by
  simp only [preparedConfig, if_neg script]
  exact ⟨_, rfl⟩

theorem admit_depot_ok_iff :
    (∃ result, admitDepotDownload environment current database schedule plannedFor config =
      .ok result) ↔
      ∃ id, intOrZero environment ((getItem "profile_id" config).getD .null) = .ok id ∧
        bindable id = true := by
  constructor
  · rintro ⟨result, admitted⟩
    obtain ⟨id, read, admitted⟩ := bind_ok_iff.mp admitted
    refine ⟨id, read, ?_⟩
    split_ifs at admitted with unbindable
    simpa using unbindable
  · rintro ⟨id, read, bound⟩
    simp only [admitDepotDownload, read, ok_bind]
    rw [if_neg (by simp [bound])]
    split
    · exact ⟨_, rfl⟩
    · split
      · exact ⟨_, rfl⟩
      · exact ⟨_, rfl⟩

theorem admit_pool_ok_iff :
    (∃ result, admitPoolVerification environment current database schedule plannedFor config =
      .ok result) ↔
      ∀ id, getItem "scope_id" config = some (.int id) → 0 < id → bindable id = true := by
  simp only [admitPoolVerification]
  split
  · rename_i scope found
    rw [found]
    constructor
    · rintro ⟨result, admitted⟩ id same positive
      cases same
      rw [if_neg (by omega)] at admitted
      split_ifs at admitted with unbindable
      simpa using unbindable
    · intro bound
      by_cases positive : 0 < scope
      · rw [if_neg (by omega), if_neg (by simp [bound scope rfl positive])]
        split
        · exact ⟨_, rfl⟩
        · exact ⟨_, rfl⟩
      · rw [if_pos (by omega)]
        exact ⟨_, rfl⟩
  · rename_i other
    exact ⟨fun _ id found => absurd found (other id), fun _ => ⟨_, rfl⟩⟩

theorem admit_task_ok (known : schedule.taskType ∈ scheduleTaskTypes) :
    ∃ result, admitTask environment current database schedule plannedFor config = .ok result := by
  have listed : ∀ type ∈ scheduleTaskTypes, (getItem type scheduleJobTypes).isSome = true := by
    decide
  obtain ⟨type, found⟩ := Option.isSome_iff_exists.mp (listed _ known)
  exact ⟨_, by rw [admitTask, found]⟩

theorem task_types_apart : "vcf_depot_download" ∉ updateTaskTypes ∧
    "dhcp_pool_verify" ∉ updateTaskTypes := by
  decide

/-- A configuration is admitted if and only if its identifiers can be read and queried. -/
theorem admission_ok_iff (current : Instant) (database : Database) (plannedFor : Option Instant)
    (known : schedule.taskType ∈ scheduleTaskTypes) :
    (∃ result, (preparedConfig environment schedule config >>= fun prepared =>
      admitJob environment current database schedule plannedFor prepared) = .ok result) ↔
      Accepts environment schedule.taskType config := by
  unfold Accepts
  by_cases script : schedule.taskType = "managed_script"
  · rw [if_pos script, ← bind_vault_ok_iff, ← prepared_script_ok_iff script]
    constructor
    · rintro ⟨result, admitted⟩
      obtain ⟨prepared, ready, _⟩ := bind_ok_iff.mp admitted
      exact ⟨prepared, ready⟩
    · rintro ⟨prepared, ready⟩
      rw [ready, ok_bind, admitJob, if_neg (by rw [script]; decide),
        if_neg (by rw [script]; decide)]
      exact admit_task_ok known
  · rw [if_neg script]
    by_cases depot : schedule.taskType = "vcf_depot_download"
    · rw [if_pos depot, prepared_config_plain script (by rw [depot]; exact task_types_apart.1),
        ok_bind, admitJob, if_pos depot, admit_depot_ok_iff,
        get_item_set_item_ne (by decide), get_item_set_item_ne (by decide)]
    · rw [if_neg depot]
      by_cases pool : schedule.taskType = "dhcp_pool_verify"
      · rw [if_pos pool, prepared_config_plain script (by rw [pool]; exact task_types_apart.2),
          ok_bind, admitJob, if_neg depot, if_pos pool, admit_pool_ok_iff,
          get_item_set_item_ne (by decide), get_item_set_item_ne (by decide)]
      · rw [if_neg pool, iff_true]
        obtain ⟨prepared, ready⟩ := prepared_update_ok script
        rw [ready, ok_bind, admitJob, if_neg depot, if_neg pool]
        exact admit_task_ok known

theorem process_ok_iff (known : schedule.taskType ∈ scheduleTaskTypes) :
    (∃ result, processSchedule environment current database schedule = .ok result) ↔
      Processable environment current database schedule := by
  constructor
  · rintro ⟨result, processed⟩
    obtain ⟨moved, ready, processed⟩ := bind_ok_iff.mp processed
    refine ⟨moved_row_ok_iff.mp ⟨moved, ready⟩, ?_⟩
    split at processed
    · rename_i active found
      exact .inl (by rw [found]; rfl)
    · obtain ⟨config, read, processed⟩ := bind_ok_iff.mp processed
      obtain ⟨prepared, bound, processed⟩ := bind_ok_iff.mp processed
      obtain ⟨admitted, accepted, _⟩ := bind_ok_iff.mp processed
      have admission := bind_ok_iff.mpr ⟨prepared, bound, accepted⟩
      exact .inr ⟨config, read, (admission_ok_iff _ _ _ known).mp ⟨admitted, admission⟩⟩
  · rintro ⟨runs, accepted⟩
    obtain ⟨moved, ready⟩ := moved_row_ok_iff.mpr runs
    rw [processSchedule, ready, ok_bind]
    split
    · exact ⟨_, rfl⟩
    · rename_i idle
      rcases accepted with active | ⟨config, read, accepts⟩
      · rw [idle] at active
        cases active
      · obtain ⟨admitted, result⟩ :=
          (admission_ok_iff current database schedule.nextRunAt known).mpr accepts
        obtain ⟨prepared, bound, result⟩ := bind_ok_iff.mp result
        rw [read, ok_bind, bound, ok_bind, result, ok_bind]
        exact ⟨_, rfl⟩

/-! ### What a pass leaves alone -/

/-- The database after a pass: one row is moved, and at most one job of the schedule is
added. -/
structure Processed (current : Instant) (schedule : Schedule) (database next : Database) : Prop where
  row : ∃ row : Schedule, row.id = schedule.id ∧
    (row.enabled = false ∨ ∃ later, row.nextRunAt = some later ∧ current < later) ∧
      next.schedules = database.schedules.map fun other => if other.id = row.id then row else other
  jobs : next.jobs = database.jobs ∨
    ∃ job : Job, job.scheduleId = some schedule.id ∧ next.jobs = database.jobs ++ [job]

theorem admit_job_frame {job : Job} (admitted : admitJob environment current database schedule
      plannedFor config = .ok (next, job)) :
    next.schedules = database.schedules ∧ job.scheduleId = some schedule.id ∧
      next.jobs = database.jobs ++ [job] := by
  unfold admitJob at admitted
  split_ifs at admitted with depot pool
  · obtain ⟨id, read, admitted⟩ := bind_ok_iff.mp admitted
    split_ifs at admitted with unbindable
    split at admitted
    · cases admitted
      exact ⟨rfl, rfl, rfl⟩
    · simp only at admitted
      split at admitted
      · cases admitted
        exact ⟨rfl, rfl, rfl⟩
      · cases admitted
        exact ⟨rfl, rfl, rfl⟩
  · simp only [admitPoolVerification] at admitted
    split at admitted
    · split_ifs at admitted with negative unbindable
      · cases admitted
        exact ⟨rfl, rfl, rfl⟩
      · split at admitted
        · cases admitted
          exact ⟨rfl, rfl, rfl⟩
        · cases admitted
          exact ⟨rfl, rfl, rfl⟩
    · cases admitted
      exact ⟨rfl, rfl, rfl⟩
  · unfold admitTask at admitted
    split at admitted
    · cases admitted
    · cases admitted
      exact ⟨rfl, rfl, rfl⟩

theorem process_processed
    (result : processSchedule environment current database schedule = .ok (next, job)) :
    Processed current schedule database next := by
  obtain ⟨moved, ready, result⟩ := bind_ok_iff.mp result
  obtain ⟨same, advances⟩ := moved_row_advances ready
  split at result
  · cases result
    exact ⟨⟨moved, same, advances, rfl⟩, .inl rfl⟩
  · obtain ⟨config, _, result⟩ := bind_ok_iff.mp result
    obtain ⟨prepared, _, result⟩ := bind_ok_iff.mp result
    obtain ⟨⟨admitted, queued⟩, accepted, result⟩ := bind_ok_iff.mp result
    obtain ⟨schedules, owner, jobs⟩ := admit_job_frame accepted
    cases result
    refine ⟨⟨{ moved with lastJobId := queued.id }, same, advances, ?_⟩, .inr ⟨queued, owner, jobs⟩⟩
    show admitted.schedules.map _ = _
    rw [schedules]

variable {other : Schedule}

section

variable (processed : Processed current schedule database next)
include processed

theorem processed_active (different : other.id ≠ schedule.id) :
    activeJob next other = activeJob database other := by
  unfold activeJob
  split_ifs with own
  · rfl
  · rcases processed.jobs with same | ⟨job, owner, added⟩
    · rw [same]
    · have foreign : ¬schedule.id = other.id := fun same => different same.symm
      rw [added, List.find?_append]
      simp [owner, foreign]

theorem processed_processable (different : other.id ≠ schedule.id) :
    Processable environment current next other ↔ Processable environment current database other := by
  have active := processed_active processed different
  constructor
  · rintro ⟨runs, accepted⟩
    exact ⟨runs, by rw [← active]; exact accepted⟩
  · rintro ⟨runs, accepted⟩
    exact ⟨runs, by rw [active]; exact accepted⟩

def Advanced (current : Instant) (database : Database) (id : Nat) : Prop :=
  ∃ row ∈ database.schedules, row.id = id ∧
    (row.enabled = false ∨ ∃ later, row.nextRunAt = some later ∧ current < later)

theorem processed_advanced (saved : schedule.id ∈ database.schedules.map Schedule.id) :
    Advanced current next schedule.id := by
  obtain ⟨row, same, advances, rows⟩ := processed.row
  obtain ⟨old, member, here⟩ := List.mem_map.mp saved
  refine ⟨row, ?_, same, advances⟩
  rw [rows, List.mem_map]
  exact ⟨old, member, if_pos (here.trans same.symm)⟩

theorem processed_advanced_kept {id : Nat} (different : id ≠ schedule.id)
    (advanced : Advanced current database id) :
    Advanced current next id := by
  obtain ⟨row, same, _, rows⟩ := processed.row
  obtain ⟨old, member, here, advances⟩ := advanced
  refine ⟨old, ?_, here, advances⟩
  rw [rows, List.mem_map]
  refine ⟨old, member, if_neg ?_⟩
  rw [here, same]
  exact different

theorem processed_ids :
    next.schedules.map Schedule.id = database.schedules.map Schedule.id := by
  obtain ⟨row, same, _, rows⟩ := processed.row
  rw [rows, map_ids]

end

/-! ### The whole loop -/

/-- The loop returns if and only if every schedule can be processed on the database that
the loop starts from. -/
theorem process_all_ok_iff {schedules : List Schedule}
    (known : ∀ schedule ∈ schedules, schedule.taskType ∈ scheduleTaskTypes)
    (distinct : (schedules.map Schedule.id).Nodup) :
    (∃ result, processSchedules environment current database schedules = .ok result) ↔
      ∀ schedule ∈ schedules, Processable environment current database schedule := by
  induction schedules generalizing database with
  | nil => simp [processSchedules]
  | cons schedule schedules induction =>
    obtain ⟨fresh, distinct⟩ := List.nodup_cons.mp distinct
    have others : ∀ other ∈ schedules, other.id ≠ schedule.id := fun other member same =>
      fresh (List.mem_map.mpr ⟨other, member, same⟩)
    have first : (∃ result, processSchedule environment current database schedule = .ok result) ↔
        Processable environment current database schedule :=
      process_ok_iff (known schedule List.mem_cons_self)
    have rest := fun next => @induction next
      (fun other member => known other (List.mem_cons_of_mem _ member)) distinct
    constructor
    · rintro ⟨result, looped⟩
      obtain ⟨⟨next, job⟩, processed, looped⟩ := bind_ok_iff.mp looped
      obtain ⟨after, looped, _⟩ := bind_ok_iff.mp looped
      have frame := process_processed processed
      have processables := (rest next).mp ⟨after, looped⟩
      intro other member
      rcases List.mem_cons.mp member with rfl | later
      · exact first.mp ⟨_, processed⟩
      · exact (processed_processable frame (others other later)).mp (processables other later)
    · intro processables
      obtain ⟨⟨next, job⟩, processed⟩ := first.mpr (processables schedule List.mem_cons_self)
      have frame := process_processed processed
      obtain ⟨after, looped⟩ := (rest next).mpr fun other member =>
        (processed_processable frame (others other member)).mpr
          (processables other (List.mem_cons_of_mem _ member))
      simp only [processSchedules, processed, ok_bind, looped]
      exact ⟨_, rfl⟩

/-- The rows of the schedules of a run, and of those dealt with before, are out of the way
at its end. -/
theorem process_all_advanced {schedules : List Schedule} {last : Database} {jobs : List Job}
    (saved : ∀ schedule ∈ schedules, schedule.id ∈ database.schedules.map Schedule.id)
    (distinct : (schedules.map Schedule.id).Nodup)
    (looped : processSchedules environment current database schedules = .ok (last, jobs)) :
    (∀ schedule ∈ schedules, Advanced current last schedule.id) ∧
      ∀ id, id ∉ schedules.map Schedule.id → Advanced current database id →
        Advanced current last id := by
  induction schedules generalizing database jobs with
  | nil =>
    cases looped
    exact ⟨by simp, fun _ _ advanced => advanced⟩
  | cons schedule schedules induction =>
    obtain ⟨fresh, distinct⟩ := List.nodup_cons.mp distinct
    obtain ⟨⟨next, job⟩, processed, looped⟩ := bind_ok_iff.mp looped
    obtain ⟨⟨after, others⟩, rest, result⟩ := bind_ok_iff.mp looped
    cases result
    have frame := process_processed processed
    obtain ⟨advances, kept⟩ := induction (fun other member => by
      rw [processed_ids frame]
      exact saved other (List.mem_cons_of_mem _ member)) distinct rest
    refine ⟨fun other member => ?_, fun id absent advanced => ?_⟩
    · rcases List.mem_cons.mp member with rfl | later
      · exact kept _ fresh (processed_advanced frame (saved _ List.mem_cons_self))
      · exact advances other later
    · simp only [List.map_cons, List.mem_cons, not_or] at absent
      exact kept id absent.2 (processed_advanced_kept frame absent.1 advanced)

theorem due_schedules_perm (current : Instant) (database : Database) :
    (dueSchedules current database).Perm (database.schedules.filter (isDue current)) :=
  List.perm_insertionSort _ _

theorem due_saved (member : schedule ∈ dueSchedules current database) :
    schedule ∈ database.schedules :=
  List.mem_of_mem_filter ((due_schedules_perm current database).mem_iff.mp member)

theorem due_distinct (current : Instant) (database : Database) :
    ((dueSchedules current database).map Schedule.id).Nodup := by
  rw [((due_schedules_perm current database).map Schedule.id).nodup_iff]
  exact database.distinct.sublist (List.filter_sublist.map Schedule.id)

theorem validated_known (validated : Validated environment schedule) :
    schedule.taskType ∈ scheduleTaskTypes := by
  obtain ⟨allowDetached, accepted⟩ := validated
  simp only [validateScheduleValues] at accepted
  obtain ⟨taskErrors, _, result⟩ := bind_ok_iff.mp accepted
  have none := Except.ok.inj result
  simp only [List.append_eq_nil_iff, ite_eq_left_iff, List.cons_ne_nil, imp_false, not_not]
    at none
  exact none.1.1.1.1

theorem validated_json (validated : Validated environment schedule) :
    ∃ config, jsonObject schedule.taskConfigJson "Task configuration" = .ok config := by
  obtain ⟨allowDetached, accepted⟩ := validated
  simp only [validateScheduleValues] at accepted
  obtain ⟨taskErrors, _, result⟩ := bind_ok_iff.mp accepted
  have none := Except.ok.inj result
  simp only [List.append_eq_nil_iff] at none
  cases read : jsonObject schedule.taskConfigJson "Task configuration" with
  | ok config => exact ⟨config, rfl⟩
  | error raised =>
    have message := none.1.1.1.2
    rw [read] at message
    cases raised <;> cases message

/-- The rows and the jobs that a call leaves for a schedule; nothing when it raises. -/
def recorded (outcome : Except Raised (Database × List Job)) (id : Nat) :
    Option (List Schedule × List Job) :=
  match outcome with
  | .ok (database, _) => some (database.schedules.filter fun row => row.id = id,
      database.jobs.filter fun job => job.scheduleId = some id)
  | .error _ => none

def without (database : Database) (id : Nat) : Database :=
  { database with
    schedules := database.schedules.filter fun row => row.id ≠ id
    distinct := database.distinct.sublist (List.filter_sublist.map Schedule.id) }

/-- One schedule does not block the others: the call returns, a schedule whose own part
raises leaves the others as they would be without it, and every due schedule is moved past
the current time or disabled. -/
structure Unblocked (environment : Environment) (current : Instant) (database : Database) :
    Prop where
  returns : ∃ result, enqueueDueSchedules environment current database = .ok result
  isolated : ∀ offender ∈ dueSchedules current database,
    (∃ raised, processSchedule environment current database offender = .error raised) →
      ∀ other ∈ dueSchedules current database, other.id ≠ offender.id →
        recorded (enqueueDueSchedules environment current database) other.id =
          recorded (enqueueDueSchedules environment current (without database offender.id)) other.id
  advances : ∀ last jobs, enqueueDueSchedules environment current database = .ok (last, jobs) →
    ∀ schedule ∈ dueSchedules current database, Advanced current last schedule.id

/-! ### A schedule for 29 February -/

def sampleEnvironment : Environment where
  zoneInfo := fun name => if name = "UTC" then some fun _ => 0 else none
  truncate := fun _ => .error .overflowError
  draws := fun _ => ⟨"0f3b6a1c2d4e", "0f3b6a1c2d4e4f60a1b2c3d4e5f60718"⟩
  clock := ⟨740405 * 86400000000, by decide⟩
  appliedPool := fun _ => .error "Choose an enabled IPv4 pool; IPv6 pools are not swept."
  vaultScope := fun _ => none

def sampleNow : Instant := ⟨740405 * 86400000000, by decide⟩

def sampleSchedule (id : Nat) (name cronExpression : String) : Schedule where
  id := id
  name := name
  taskType := "appliance_update_check"
  taskConfigJson := "\x7b\"selected_streams\":[\"photon_os\"]\x7d"
  scheduleKind := "cron"
  cronExpression := cronExpression
  runOnceAt := none
  timezoneName := "UTC"
  enabled := true
  nextRunAt := some sampleNow
  lastRunAt := none
  lastJobId := ""
  updatedAt := sampleNow

def leapDay : Schedule := sampleSchedule 1 "leap day" "0 0 29 2 *"

def nightly : Schedule := sampleSchedule 2 "nightly" "0 0 * * *"

def leapDatabase : Database := ⟨[leapDay, nightly], [], [], [], by decide⟩

def nightlyDatabase : Database := ⟨[nightly], [], [], [], by decide⟩

theorem leap_day_parsed : parseCronExpression "0 0 29 2 *" =
    .ok ⟨[0], [0], [29], [2], [0, 1, 2, 3, 4, 5, 6, 0]⟩ := by
  decide

theorem nightly_parsed : parseCronExpression "0 0 * * *" =
    .ok ⟨[0], [0], List.range' 1 31, List.range' 1 12, [0, 1, 2, 3, 4, 5, 6, 0]⟩ := by
  decide

theorem utc_astimezone {candidate : Nat} (small : candidate < minuteLimit) :
    astimezone (fun _ => 0) candidate = .ok (localFields (candidate * 60)) := by
  have inside : ¬((candidate : Int) * 60 + 0 < 0 ∨
      (minuteLimit : Int) * 60 ≤ (candidate : Int) * 60 + 0) := by omega
  simp only [astimezone, if_neg inside]
  congr 2

theorem no_leap_day : ∀ day < 733, ¬((yearMonthDay (740407 + day)).2.1 = 2 ∧
    (yearMonthDay (740407 + day)).2.2 = 29) := by
  decide +kernel

theorem leap_day_misses {minute : Nat} (after : 740405 * 1440 < minute)
    (before : minute ≤ 740405 * 1440 + 1 + 732 * 1440) :
    matchesRun ⟨[0], [0], [29], [2], [0, 1, 2, 3, 4, 5, 6, 0]⟩ "0 0 29 2 *"
      (localFields (minute * 60)) = false := by
  have wildcard : (isWildcard "0 0 29 2 *" 2 || isWildcard "0 0 29 2 *" 4) = true := by
    decide
  rw [Bool.eq_false_iff]
  intro hit
  simp only [matchesRun, if_pos wildcard, List.contains_cons, List.contains_nil, Bool.or_false,
    Bool.and_eq_true, beq_iff_eq] at hit
  obtain ⟨⟨⟨minutes, hours⟩, month⟩, day, _⟩ := hit
  have minutes : minute * 60 / 60 % 60 = 0 := minutes
  have hours : minute * 60 / 3600 % 24 = 0 := hours
  have month : (yearMonthDay (minute * 60 / 86400 + 1)).2.1 = 2 := month
  have day : (yearMonthDay (minute * 60 / 86400 + 1)).2.2 = 29 := day
  obtain ⟨passed, late⟩ : ∃ passed, minute * 60 / 86400 + 1 = 740407 + passed :=
    ⟨minute * 60 / 86400 + 1 - 740407, by omega⟩
  rw [late] at month day
  exact no_leap_day passed (by omega) ⟨month, day⟩

theorem leap_day_unreachable :
    ¬RunsWithin sampleEnvironment.zoneInfo "0 0 29 2 *" "UTC" (firstCandidate sampleNow)
      horizon := by
  have first : firstCandidate sampleNow = 740405 * 1440 + 1 := by decide
  have span : horizon = 732 * 1440 := by decide
  generalize firstCandidate sampleNow = start at first ⊢
  generalize horizon = minutes at span ⊢
  rintro ⟨fields, zone, parsed, known, inside, offset, small, ⟨time, there, hit⟩, _⟩
  rw [leap_day_parsed] at parsed
  have utc : (fun _ => 0) = zone := Option.some.inj known
  subst utc
  rw [utc_astimezone (by omega)] at there
  rw [← Except.ok.inj parsed, ← Except.ok.inj there, leap_day_misses (by omega) (by omega)] at hit
  cases hit

theorem sample_validated : Validated sampleEnvironment leapDay ∧
    Validated sampleEnvironment nightly :=
  ⟨⟨false, by decide +kernel⟩, ⟨false, by decide +kernel⟩⟩

theorem leap_day_due : leapDay ∈ dueSchedules sampleNow leapDatabase :=
  (due_schedules_perm sampleNow leapDatabase).mem_iff.mpr
    (List.mem_filter.mpr ⟨List.mem_cons_self, by decide⟩)

theorem nightly_due : nightly ∈ dueSchedules sampleNow leapDatabase :=
  (due_schedules_perm sampleNow leapDatabase).mem_iff.mpr
    (List.mem_filter.mpr ⟨List.mem_cons_of_mem _ List.mem_cons_self, by decide⟩)

theorem nightly_reaches :
    RunsWithin sampleEnvironment.zoneInfo "0 0 * * *" "UTC" (firstCandidate sampleNow)
      horizon := by
  have first : firstCandidate sampleNow = 740405 * 1440 + 1 := by decide
  have span : horizon = 732 * 1440 := by decide
  have limit : minuteLimit = 3652059 * 1440 := rfl
  generalize firstCandidate sampleNow = start at first ⊢
  generalize horizon = minutes at span ⊢
  refine ⟨_, _, nightly_parsed, rfl, by omega, 1439, by omega, ⟨_, utc_astimezone (by omega), ?_⟩,
    fun earlier small => ⟨_, utc_astimezone (by omega)⟩⟩
  subst first
  decide

end Atlaso.Automation.ScheduleIsolation
