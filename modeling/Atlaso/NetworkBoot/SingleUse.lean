import Atlaso.NetworkBoot.ClaimRuns
import Mathlib.Logic.Equiv.Basic

/-!
One Kickstart for one authorized claim.

The bindings, the expiry and the single use of a claim hold in every run. That an
authorization supersedes the earlier ones of its host holds where it ends every claim that
is authorized when it commits: what another transaction has authorized since it looked for
them stays live.
-/

namespace Atlaso.NetworkBoot.SingleUse

open AppliedBoot BootClaims ClaimBinding ClaimSteps ClaimRuns Library.Outcomes

/-! ### Superseded claims -/

inductive Authority where
  | bootPolicy | administrator
  deriving DecidableEq, Repr

def authority : Event → Option (Authority × Int × String)
  | .created row _ _ =>
    if row.authorizedAt.isSome then some (.bootPolicy, row.hostId, row.attemptId) else none
  | .authorized hostId attemptId _ _ => some (.administrator, hostId, attemptId)
  | _ => none

/-- Since the last authorization of the attempt, another claim of its host was authorized by
an authority that counts. -/
def superseded (counts : Authority → Bool) (hostId : Int) (attemptId : String) :
    List Event → Bool
  | [] => false
  | event :: earlier =>
    match authority event with
    | none => superseded counts hostId attemptId earlier
    | some (kind, host, attempt) =>
      if attempt = attemptId then false
      else (counts kind && host = hostId) || superseded counts hostId attemptId earlier

def isLive (row : Capability) : Bool := row.authorizedAt.isSome && row.consumedAt.isNone

def endsOthers (claims : List Capability) (hostId : Int) (attemptId : String)
    (writes : List Write) : Bool :=
  claims.all fun row => row.hostId ≠ hostId || row.attemptId = attemptId || !isLive row ||
    (writes.filterMap Write.ended).contains row.attemptId

def timely (counts : Authority → Bool) (system : System) : Action → Bool
  | .commit actor =>
    match system.activity actor with
    | .staged writes event _ =>
      match event.bind authority with
      | some (kind, hostId, attemptId) =>
        !counts kind || endsOthers system.claims hostId attemptId writes
      | none => true
    | _ => true
  | _ => true

def orderly (platform : Platform) (counts : Authority → Bool) : System → List Action → Bool
  | _, [] => true
  | system, action :: rest => timely counts system action &&
      match step platform system action with
      | some next => orderly platform counts next rest
      | none => true

variable {writes : List Write} {event : Option Event} {history : List Event}

variable {rendered : Option String} {hostId : Int} {attemptId : String} {action : Action}
  {events : List Event}

theorem timely_ends {counts : Authority → Bool} {system : System} {actor : Actor} {kind : Authority}
    (holds : timely counts system (.commit actor) = true)
    (staged : system.activity actor = .staged writes event rendered)
    (authorizes : event.bind authority = some (kind, hostId, attemptId))
    (counted : counts kind = true) : ∀ row ∈ system.claims, row.hostId = hostId →
      row.attemptId ≠ attemptId → isLive row = true →
        row.attemptId ∈ writes.filterMap Write.ended := by
  simp only [timely, staged, authorizes, counted, Bool.not_true, Bool.false_or, endsOthers,
    List.all_eq_true] at holds
  intro row inside host other live
  simpa [host, other, live] using holds row inside

/-! ### Steps that commit nothing -/

/-- Claims are at most deleted, and a response may be recorded. -/
def Quiet (system next : System) : Prop :=
  next.claims.Sublist system.claims ∧ ∃ events, next.history = events ++ system.history ∧
    ∀ event ∈ events, authority event = none ∧ consumedAttempt event = none

variable {platform : Platform} {system next : System} {actor : Actor}

theorem quiet_same (claims : next.claims = system.claims) (history : next.history = system.history) :
    Quiet system next :=
  ⟨claims ▸ List.Sublist.refl _, [], history, by simp⟩

theorem quiet_become (activity : Activity) : Quiet system (system.become actor activity) :=
  quiet_same rfl rfl

theorem quiet_rollback : Quiet system (system.rollback actor) := quiet_same rfl rfl

theorem quiet_finish (writes : List Write) (event : Option Event) :
    Quiet system (system.finish actor writes event) := by
  rw [System.finish]
  split_ifs
  · exact quiet_become _
  · exact quiet_become _

theorem quiet_reads (uncommitted : ∀ actor, action ≠ .commit actor)
    (happens : step platform system action = some next) : Quiet system next := by
  have refl : Quiet system system := quiet_same rfl rfl
  cases action with
  | requestMenu actor hostId origin now =>
    simp only [step, stepMenu] at happens
    split at happens <;> cases happens
    exact quiet_become _
  | cleanUp actor now =>
    simp only [step, stepCleanUp] at happens
    split at happens <;> cases happens <;> exact quiet_become _
  | readManifest actor =>
    simp only [step, stepReadManifest] at happens
    split at happens
    · cases happens
      exact quiet_become _
    · split at happens <;> cases happens
      · exact quiet_become _
      · exact quiet_rollback
    · cases happens
      exact quiet_become _
    · cases happens
      exact quiet_become _
    · cases happens
  | readHost actor =>
    simp only [step, stepReadHost] at happens
    split at happens
    · split at happens <;> cases happens
      · exact quiet_become _
      · exact quiet_finish _ _
    · split at happens <;> cases happens
      · exact quiet_become _
      · exact quiet_finish _ _
    · cases happens
  | draw actor attemptId claim compactCode now =>
    simp only [step, stepDraw] at happens
    split at happens
    · split_ifs at happens
      cases happens
      exact quiet_same rfl rfl
    · cases happens
  | requestAuthorization actor request =>
    simp only [step, stepAuthorization] at happens
    split at happens
    · split at happens
      · split_ifs at happens <;> cases happens
        · exact quiet_become _
        · exact refl
      · cases happens
        exact refl
    · cases happens
  | selectClaim actor now =>
    simp only [step, stepSelectClaim] at happens
    split at happens
    · split at happens
      · cases happens
        exact quiet_rollback
      · split at happens <;> cases happens
        · exact quiet_become _
        · exact quiet_rollback
    · cases happens
  | selectOthers actor =>
    simp only [step, stepSelectOthers] at happens
    split at happens <;> cases happens
    exact quiet_finish _ _
  | poll actor claim origin now =>
    simp only [step, stepPoll] at happens
    split at happens
    · split_ifs at happens
      · cases happens
        exact refl
      · split at happens
        · split_ifs at happens <;> cases happens
          · exact refl
          · exact quiet_finish _ _
          · exact refl
          · exact quiet_become _
        · cases happens
          exact refl
    · cases happens
  | prepare actor preparation =>
    simp only [step, stepPrepare] at happens
    split at happens
    · split at happens <;> cases happens <;> exact quiet_finish _ _
    · cases happens
  | fetch actor request now =>
    simp only [step, stepFetch] at happens
    split at happens
    · split_ifs at happens
      · cases happens
        exact refl
      · split at happens
        · split_ifs at happens <;> cases happens
          · exact quiet_become _
          · exact quiet_finish _ _
          · exact refl
        · cases happens
          exact refl
    · cases happens
  | updateConsumed actor =>
    simp only [step, stepUpdateConsumed] at happens
    split at happens
    · split_ifs at happens <;> cases happens
      · exact quiet_same rfl rfl
      · exact quiet_rollback
    · cases happens
  | flush actor =>
    simp only [step, stepFlush] at happens
    split at happens
    · split_ifs at happens <;> cases happens
      · exact quiet_same rfl rfl
      · exact quiet_rollback
    · cases happens
  | commit actor => exact absurd rfl (uncommitted actor)
  | respond actor content =>
    simp only [step, stepRespond] at happens
    split at happens
    · rename_i attemptId content _
      cases happens
      exact ⟨List.Sublist.refl _, [.returned actor attemptId content], rfl,
        by simp [authority, consumedAttempt]⟩
    · cases happens
      exact quiet_become _
    · cases happens
  | crash actor =>
    cases happens
    exact quiet_rollback
  | saveHost hostId host =>
    simp only [step] at happens
    split_ifs at happens <;> cases happens
    · exact ⟨List.filter_sublist, [], rfl, by simp⟩
    · exact quiet_same rfl rfl
  | publish applied =>
    cases happens
    exact quiet_same rfl rfl
  | clearClaims =>
    simp only [step] at happens
    split_ifs at happens
    cases happens
    exact ⟨List.nil_sublist _, [], rfl, by simp⟩

/-! ### Orderly runs -/

structure Ordered (counts : Authority → Bool) (system : System) : Prop where
  latest : ∀ row ∈ system.claims, isLive row = true →
    superseded counts row.hostId row.attemptId system.history = false
  served : ∀ later actor row request context manifest now earlier,
    system.history = later ++ .consumed actor row request context manifest now :: earlier →
      superseded counts row.hostId row.attemptId earlier = false

variable {counts : Authority → Bool}

theorem superseded_quiet (quiet : ∀ event ∈ events, authority event = none) :
    superseded counts hostId attemptId (events ++ history) =
      superseded counts hostId attemptId history := by
  induction events with
  | nil => rfl
  | cons event rest induction =>
    rw [List.cons_append, superseded, quiet event List.mem_cons_self]
    exact induction fun other inside => quiet other (List.mem_cons_of_mem _ inside)

theorem served_append (old : ∀ later actor row request context manifest now earlier, history = later
      ++ .consumed actor row request context manifest now :: earlier → superseded counts row.hostId
      row.attemptId earlier = false) (none : ∀ event ∈ events, consumedAttempt event = none) :
    ∀ later actor row request context manifest now earlier,
      events ++ history = later ++ .consumed actor row request context manifest now :: earlier →
        superseded counts row.hostId row.attemptId earlier = false := by
  intro later actor row request context manifest now earlier shape
  rcases List.append_eq_append_iff.mp shape with ⟨middle, -, rest⟩ | ⟨middle, rest, tail⟩
  · exact old middle actor row request context manifest now earlier rest
  · cases middle with
    | nil => exact old [] actor row request context manifest now earlier tail.symm
    | cons event middle =>
      obtain ⟨rfl, -⟩ := List.cons.inj tail
      have consumed := none _ (rest ▸ List.mem_append_right _ List.mem_cons_self)
      cases consumed

theorem ordered_quiet (ordered : Ordered counts system) (quiet : Quiet system next) :
    Ordered counts next := by
  obtain ⟨fewer, events, history, plain⟩ := quiet
  constructor
  · intro row inside live
    rw [history, superseded_quiet fun event chosen => (plain event chosen).1]
    exact ordered.latest row (fewer.subset inside) live
  · rw [history]
    exact served_append ordered.served fun event chosen => (plain event chosen).2

theorem live_before {row after : Capability}
    (spared : ∀ write ∈ writes, ∀ requestedBy now, write ≠ .authorize row.attemptId requestedBy now)
    (survives : rowAfter writes row = some after) (live : isLive after = true) :
    isLive row = true ∧ after.hostId = row.hostId ∧ after.attemptId = row.attemptId := by
  have kept : after.authorizedAt = row.authorizedAt ∧ after.hostId = row.hostId ∧
      after.attemptId = row.attemptId := by
    refine row_after_keeps (fun other => other.authorizedAt = row.authorizedAt ∧
      other.hostId = row.hostId ∧ other.attemptId = row.attemptId) ?_ ⟨rfl, rfl, rfl⟩ survives
    rintro write chosen other later ⟨authorized, host, attempt⟩ step
    cases on_row_becomes step with
    | keep => exact ⟨authorized, host, attempt⟩
    | consume now => exact ⟨authorized, host, attempt⟩
    | authorize requestedBy now => exact absurd (by rw [attempt]) (spared _ chosen requestedBy now)
    | prepare tokenHash => exact ⟨authorized, host, attempt⟩
  refine ⟨?_, kept.2⟩
  simp only [isLive, Bool.and_eq_true, Option.isNone_iff_eq_none] at live ⊢
  refine ⟨kept.1 ▸ live.1, ?_⟩
  by_contra consumed
  exact row_after_consumed consumed survives live.2

theorem latest_row {row after : Capability} (ordered : Ordered counts system)
    (present : row ∈ system.claims) (own : ∀ write ∈ writes, ∀ target requestedBy now, write =
      .authorize target requestedBy now → ∃ kind hostId, event.bind authority = some (kind, hostId,
      target)) (ends : ∀ kind hostId attemptId, event.bind authority = some (kind, hostId,
      attemptId) → counts kind = true → ∀ row ∈ system.claims, row.hostId = hostId → row.attemptId ≠
      attemptId → isLive row = true → row.attemptId ∈ writes.filterMap Write.ended)
    (survives : rowAfter writes row = some after) (live : isLive after = true) :
    superseded counts after.hostId after.attemptId (event.toList ++ system.history) = false := by
  have attempt := row_after_attempt survives
  cases authorizes : event.bind authority with
  | none =>
    have spared : ∀ write ∈ writes, ∀ requestedBy now,
        write ≠ .authorize row.attemptId requestedBy now := by
      intro write chosen requestedBy now same
      obtain ⟨kind, hostId, authorized⟩ := own write chosen _ requestedBy now same
      rw [authorizes] at authorized
      cases authorized
    obtain ⟨before, host, -⟩ := live_before spared survives live
    rw [superseded_quiet, host, attempt]
    · exact ordered.latest row present before
    · intro happened inside
      rw [Option.mem_toList.mp inside] at authorizes
      exact authorizes
  | some named =>
    obtain ⟨kind, hostId, target⟩ := named
    obtain ⟨happened, rfl, authorized⟩ := Option.bind_eq_some_iff.mp authorizes
    change superseded counts after.hostId after.attemptId (happened :: system.history) = false
    rw [superseded, authorized]
    simp only
    split_ifs with same
    · rfl
    · have spared : ∀ write ∈ writes, ∀ requestedBy now,
          write ≠ .authorize row.attemptId requestedBy now := by
        intro write chosen requestedBy now equal
        obtain ⟨otherKind, otherHost, other⟩ := own write chosen _ requestedBy now equal
        rw [authorizes] at other
        simp only [Option.some.injEq, Prod.mk.injEq] at other
        exact same (other.2.2.trans attempt.symm)
      obtain ⟨before, host, -⟩ := live_before spared survives live
      rw [Bool.or_eq_false_iff, host, attempt]
      refine ⟨?_, ordered.latest row present before⟩
      by_contra counted
      simp only [Bool.not_eq_false, Bool.and_eq_true, decide_eq_true_eq] at counted
      have ended := ends kind hostId target authorizes counted.1 row present counted.2.symm
        (fun equal => same (attempt.trans equal).symm) before
      simp only [isLive, Bool.and_eq_true, Option.isNone_iff_eq_none] at live
      exact row_after_ended ended survives live.2

theorem ordered_commit {activity : Activity} (sound : Sound platform system)
    (ordered : Ordered counts system) (holds : timely counts system (.commit actor) = true)
    (staged : system.activity actor = .staged writes event rendered) :
    Ordered counts (system.install actor writes event activity) := by
  have ends := fun kind hostId attemptId => @timely_ends writes event rendered hostId attemptId
    counts system actor kind holds staged
  have fits := sound.fits actor
  have flushed := sound.flushed actor
  rw [staged] at fits flushed
  cases rendered with
  | some attemptId =>
    obtain ⟨row, request, context, manifest, now, rfl, rfl, rfl, known, passed⟩ := fits
    have live := flushed.2 actor row request context manifest now rfl
    obtain ⟨current, origin, consumes⟩ := consumption_current sound known passed live
    have unsuperseded := ordered.latest current consumes.present
      (by simpa [isLive, Option.isSome_iff_ne_none] using
        ⟨consumes.authorized, consumes.unconsumed⟩)
    rw [consumes.follows.same.hostId, consumes.follows.same.attemptId,
      ← consumes.read.same.hostId, ← consumes.read.same.attemptId] at unsuperseded
    constructor
    · intro after inside survives
      change after ∈ applyAll system.claims [.consume row.attemptId now] at inside
      rw [apply_all_rows (by simp [isInsert])] at inside
      obtain ⟨before, present, step⟩ := List.mem_filterMap.mp inside
      exact latest_row ordered present (by simp) ends step survives
    · intro later other served request' context' manifest' now' earlier shape
      rcases List.cons_eq_append_iff.mp shape with ⟨rfl, same⟩ | ⟨rest, rfl, older⟩
      · cases same
        exact unsuperseded
      · exact ordered.served rest other served request' context' manifest' now' earlier older
  | none =>
    constructor
    · intro after inside survives
      change after ∈ applyAll system.claims writes at inside
      cases fits with
      | tidy _ simple =>
        rw [apply_all_rows fun write chosen => tidy_plain (simple write chosen)] at inside
        obtain ⟨before, present, step⟩ := List.mem_filterMap.mp inside
        refine latest_row ordered present ?_ ends step survives
        rintro write chosen target requestedBy now rfl
        cases simple _ chosen
      | create origin doomed new fresh =>
        have deletes : ∀ write ∈ doomed.map Write.delete, isInsert write = false := by
          intro write chosen
          obtain ⟨attemptId, -, rfl⟩ := List.mem_map.mp chosen
          rfl
        change after ∈ applyAll (system.claims ++ [origin.row]) (doomed.map .delete) at inside
        rw [apply_all_rows deletes] at inside
        obtain ⟨before, present, step⟩ := List.mem_filterMap.mp inside
        have spared : ∀ write ∈ doomed.map Write.delete, ∀ requestedBy now,
            write ≠ .authorize before.attemptId requestedBy now := by
          rintro write chosen requestedBy now rfl
          simp at chosen
        rcases List.mem_append.mp present with old | added
        · have whole : rowAfter (.insert origin.row :: doomed.map .delete) before = some after :=
            step
          refine latest_row ordered old ?_ ends whole survives
          intro write chosen target requestedBy now same
          subst same
          simp at chosen
        · obtain rfl := List.mem_singleton.mp added
          obtain ⟨live, -, attempt⟩ := live_before spared step survives
          change superseded counts after.hostId after.attemptId
            (.created origin.row origin.claim origin.bootCode :: system.history) = false
          simp only [isLive, Bool.and_eq_true] at live
          rw [superseded, authority, if_pos live.1, attempt]
          simp
      | authorize origin request doomed others now inside' created pending host entered =>
        have plain : ∀ write ∈
            authorizationWrites request doomed others origin.row.attemptId now,
            isInsert write = false := by
          intro write chosen
          rcases mem_authorization_writes platform system.drawn chosen with tidy | rfl
          · exact tidy_plain tidy
          · rfl
        rw [apply_all_rows plain] at inside
        obtain ⟨before, present, step⟩ := List.mem_filterMap.mp inside
        refine latest_row ordered present ?_ ends step survives
        rintro write chosen target requestedBy time rfl
        rcases mem_authorization_writes platform system.drawn chosen with tidy | same
        · cases tidy
        · cases same
          exact ⟨.administrator, request.hostId, rfl⟩
    · refine served_append ordered.served ?_
      intro happened inside
      cases consumed : consumedAttempt happened with
      | none => rfl
      | some attemptId =>
        cases happened with
        | consumed other row request context manifest now =>
          exact absurd (Option.mem_toList.mp inside) (plan_consumes fits)
        | created | authorized | returned => cases consumed

theorem ordered_step (sound : Sound platform system) (ordered : Ordered counts system)
    (holds : timely counts system action = true)
    (happens : step platform system action = some next) : Ordered counts next := by
  by_cases commits : ∃ actor, action = .commit actor
  · obtain ⟨actor, rfl⟩ := commits
    simp only [step, stepCommit] at happens
    split at happens
    · rename_i staged
      cases happens
      exact ordered_commit sound ordered holds staged
    · rename_i staged
      cases happens
      exact ordered_commit sound ordered holds staged
    · cases happens
  · exact ordered_quiet ordered (quiet_reads (fun actor same => commits ⟨actor, same⟩) happens)

theorem run_ordered {actions : List Action} (collisionFree : Function.Injective platform.sha256)
    (sound : Sound platform system) (ordered : Ordered counts system)
    (holds : orderly platform counts system actions = true)
    (happens : runActions platform system actions = some next) : Ordered counts next := by
  induction actions generalizing system with
  | nil =>
    cases happens
    exact ordered
  | cons action rest induction =>
    obtain ⟨middle, first, later⟩ := Option.bind_eq_some_iff.mp happens
    simp only [orderly, first, Bool.and_eq_true] at holds
    exact induction (step_sound collisionFree sound first)
      (ordered_step sound ordered holds.1 first) holds.2 later

theorem initial_ordered (hosts : Int → Option EsxiPxeHost) (applied : Option Manifest) :
    Ordered counts (initial hosts applied) := by
  constructor
  · simp [initial]
  · simp [initial]

/-! ### Returned Kickstarts -/

theorem returned_once (lawful : Lawful platform history) :
    (history.filterMap returnedAttempt).Nodup := by
  induction history with
  | nil => exact List.nodup_nil
  | cons event earlier induction =>
    have rest : Lawful platform earlier := fun later other before shape =>
      lawful (event :: later) other before (by rw [shape, List.cons_append])
    have justified := lawful [] event earlier rfl
    cases event with
    | returned actor attemptId content =>
      exact List.nodup_cons.mpr ⟨justified.2, induction rest⟩
    | created | authorized | consumed => exact induction rest

/-- A Kickstart goes out at most once for a claim, for a request that consumed it while it was
authorized, unexpired and bound to the applied manifest; and where every authorization that
counts ends the other live claims of its host, none of them has superseded the claim. -/
theorem kickstarts_single_use (platform : Platform)
    (collisionFree : Function.Injective platform.sha256) (counts : Authority → Bool)
    (hosts : Int → Option EsxiPxeHost) (applied : Option Manifest) (actions : List Action)
    (system : System) (run : runActions platform (initial hosts applied) actions = some system) :
    (system.history.filterMap returnedAttempt).Nodup ∧
      (∀ later actor attemptId content earlier,
        system.history = later ++ .returned actor attemptId content :: earlier →
          ∃ row request context manifest now, row.attemptId = attemptId ∧
            .consumed actor row request context manifest now ∈ earlier) ∧
      ∀ later actor row request context manifest now earlier,
        system.history = later ++ .consumed actor row request context manifest now :: earlier →
          ∃ drawn, Legitimate platform earlier row request context manifest now drawn ∧
            (orderly platform counts (initial hosts applied) actions = true →
              superseded counts row.hostId row.attemptId earlier = false) := by
  have sound := run_sound collisionFree (initial_sound hosts applied) run
  refine ⟨returned_once sound.lawful, ?_, ?_⟩
  · intro later actor attemptId content earlier shape
    exact (sound.lawful later _ earlier shape).1
  · intro later actor row request context manifest now earlier shape
    obtain ⟨drawn, legitimate⟩ := sound.lawful later _ earlier shape
    refine ⟨drawn, legitimate, fun holds => ?_⟩
    have ordered := run_ordered collisionFree (initial_sound hosts applied)
      (initial_ordered hosts applied) holds run
    exact ordered.served later actor row request context manifest now earlier shape

/-! ### One host and two consoles -/

def sampleOrigin : String := "http://192.168.50.1:8080"

def sampleContent : String := "install --firstdisk\nreboot\n"

def sampleRevision : String := "a70d9b82e93d572afe9e09d0dc81a70d9bcb85c549db849e94dd6c954a0ae61b"

def firstClaim : String := "q3Jm0mCkYw2uV8rT5nXz7LpA1dEfGhIjKlMnOpQrStU"

def secondClaim : String := "Zx9Cv8Bn7Mq6We5Rt4Yu3Io2Pa1Sd0Fg_Hj-KlZxCvB"

def firstAttempt : String := "11111111111141118111111111111111"

def secondAttempt : String := "22222222222242228222222222222222"

def firstToken : String := "olGQ3OsbRxpYWGYTE5aaVvawCaxK_gVplwUK3cn2R78"

def sampleDigests : Equiv.Perm String :=
  [(sampleContent, sampleRevision),
    (firstClaim, "db316ed34f4987173c8748f0118a782f6ee548bf237c76a89f9479e9aad0d4b5"),
    (secondClaim, "c00883992001c4bc90be45f585416c779af52e9066be8059a9c30aada6bd8a7a"),
    ("ABCD-EFGH", "fc83f19a14cf51776f2520dfa572b08b093af1e22b3f28d2fe1edf8097198c65"),
    ("JKMN-PQRS", "dd1ee5c21b340c1e30e1b36d7f4c7c7affd83152084b749b38c0c21dc44a3723"),
    (firstToken, "e7ac1630de13193d1adee184d41e3c632c0daa888f0cc81cda052bb3b170b9a7")].foldl
      (fun digests pair => digests.trans (Equiv.swap pair.1 pair.2)) (Equiv.refl String)

def samplePlatform : Platform where
  sha256 := sampleDigests
  signature := fun _ message =>
    if message = "\x00".intercalate
      [firstClaim, firstAttempt, "00:50:56:aa:bb:cc", sampleRevision, sampleOrigin] then firstToken
    else "jCyoiCUMuwhKCV0Z0k9QoOAcV7EhMjSWRghlEpW9_Cw"
  lower := fun text => String.ofList (text.toList.map Char.toLower)
  urlsplit := fun _ => .ok {
    scheme := "http"
    hostname := "192.168.50.1"
    username := ""
    password := ""
    port := .ok (some 8080) }
  secretKey := "lab-secret-key"

def sampleHosts : Int → Option EsxiPxeHost := fun hostId =>
  if hostId = 7 then some {
    enabled := true
    hostname := "esx01"
    macAddress := "00:50:56:aa:bb:cc"
    ipAddress := "192.168.50.150"
    kickstartId := some 3
    installerIsoPath := "/iso/esxi.iso"
    hostVariables := [] }
  else none

def sampleManifest : Manifest where
  boot := ⟨some true⟩
  hosts := [{
    id := some 7
    enabled := true
    hostname := "esx01"
    macAddress := "00:50:56:aa:bb:cc"
    ipAddress := "192.168.50.150"
    kickstartId := some 3
    installerIsoPath := "/iso/esxi.iso"
    hostVariables := [] }]
  artifacts := [{
    hostId := some 7
    isDefault := false
    kickstartId := some 3
    macKey := "01-00-50-56-aa-bb-cc"
    imageHttpUrl := "http://192.168.50.1:8080/pxe/esxi/images/esxi" }]
  kickstarts := [{ id := some 3, enabled := true, content := sampleContent,
                   contentHash := sampleRevision }]

def bootMenu (actor : Actor) (attemptId claim : String) (compactCode : List Char) : List Action :=
  [.requestMenu actor 7 sampleOrigin 0, .cleanUp actor 0, .readManifest actor, .readHost actor,
    .draw actor attemptId claim compactCode 0, .flush actor, .commit actor]

def authorizeUnflushed (actor : Actor) (bootCode : String) (now : Time) : List Action :=
  [.requestAuthorization actor ⟨7, "admin", bootCode⟩, .cleanUp actor now, .selectClaim actor now,
    .readManifest actor, .selectOthers actor]

def loadAndFetch (claim token : String) (now : Time) : List Action :=
  [.poll 5 claim sampleOrigin now, .readManifest 5, .prepare 5 .complete, .flush 5, .commit 5,
    .fetch 6 ⟨"01-00-50-56-aa-bb-cc", sampleRevision, token, sampleOrigin⟩ now, .readManifest 6,
    .readHost 6, .updateConsumed 6, .commit 6, .respond 6 (some sampleContent)]

def firstCode : List Char := ['A', 'B', 'C', 'D', 'E', 'F', 'G', 'H']

def secondCode : List Char := ['J', 'K', 'M', 'N', 'P', 'Q', 'R', 'S']

def sampleRun : List Action :=
  bootMenu 1 firstAttempt firstClaim firstCode ++ authorizeUnflushed 3 "abcd-efgh" 1 ++
    [.flush 3, .commit 3] ++ loadAndFetch firstClaim firstToken 2

/-- Two consoles of one host, authorized at the same time. -/
def raceRun : List Action :=
  bootMenu 1 firstAttempt firstClaim firstCode ++ bootMenu 2 secondAttempt secondClaim secondCode ++
    authorizeUnflushed 3 "abcd-efgh" 1 ++ authorizeUnflushed 4 "jkmn-pqrs" 1 ++
      [.flush 3, .commit 3, .flush 4, .commit 4] ++ loadAndFetch firstClaim firstToken 2

theorem run_of_any {outcome : Option System} {property : System → Bool}
    (ends : outcome.any property = true) :
    ∃ system, outcome = some system ∧ property system = true := by
  cases outcome with
  | none => cases ends
  | some system => exact ⟨system, rfl, ends⟩

/-- One claim is authorized, and its Kickstart goes out once. -/
theorem sample_single_use : ∃ system,
    runActions samplePlatform (initial sampleHosts (some sampleManifest)) sampleRun =
      some system ∧ system.history.filterMap returnedAttempt = [firstAttempt] ∧
        ∀ later actor row request context manifest now earlier,
          system.history = later ++ .consumed actor row request context manifest now :: earlier →
            (∃ drawn, Legitimate samplePlatform earlier row request context manifest now drawn) ∧
              superseded (fun _ => true) row.hostId row.attemptId earlier = false := by
  have ends : (runActions samplePlatform (initial sampleHosts (some sampleManifest))
      sampleRun).any (fun system =>
        system.history.filterMap returnedAttempt = [firstAttempt]) = true := by
    decide +kernel
  have holds : orderly samplePlatform (fun _ => true) (initial sampleHosts (some sampleManifest))
      sampleRun = true := by
    decide +kernel
  obtain ⟨system, run, returned⟩ := run_of_any ends
  obtain ⟨-, -, consumptions⟩ := kickstarts_single_use samplePlatform sampleDigests.injective
    (fun _ => true) sampleHosts (some sampleManifest) sampleRun system run
  refine ⟨system, run, of_decide_eq_true returned, ?_⟩
  intro later actor row request context manifest now earlier shape
  obtain ⟨drawn, legitimate, kept⟩ :=
    consumptions later actor row request context manifest now earlier shape
  exact ⟨⟨drawn, legitimate⟩, kept holds⟩

def servesSuperseded (counts : Authority → Bool) : List Event → Bool
  | .returned _ attemptId _ :: .consumed _ row _ _ _ _ :: earlier =>
    attemptId = row.attemptId && superseded counts row.hostId row.attemptId earlier
  | _ => false

/-- Two administrators enter the codes of two consoles of one host at the same time: neither
finds the other claim authorized, and the first one still fetches its Kickstart. -/
theorem concurrent_authorizations_served :
    Function.Injective samplePlatform.sha256 ∧ ∃ system,
      runActions samplePlatform (initial sampleHosts (some sampleManifest)) raceRun =
        some system ∧ ∃ actor content responder row request context manifest now earlier,
          system.history = .returned actor row.attemptId content ::
            .consumed responder row request context manifest now :: earlier ∧
              superseded (fun kind => kind = .administrator) row.hostId row.attemptId earlier =
                true := by
  refine ⟨sampleDigests.injective, ?_⟩
  have ends : (runActions samplePlatform (initial sampleHosts (some sampleManifest)) raceRun).any
      (fun system => servesSuperseded (fun kind => kind = .administrator) system.history) =
        true := by
    decide +kernel
  obtain ⟨system, run, served⟩ := run_of_any ends
  refine ⟨system, run, ?_⟩
  unfold servesSuperseded at served
  split at served
  · rename_i actor attemptId content responder row request context manifest now earlier shape
    simp only [Bool.and_eq_true, decide_eq_true_eq] at served
    obtain ⟨rfl, late⟩ := served
    exact ⟨actor, content, responder, row, request, context, manifest, now, earlier, shape, late⟩
  · cases served

end Atlaso.NetworkBoot.SingleUse
