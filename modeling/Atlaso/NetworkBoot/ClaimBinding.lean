import Atlaso.NetworkBoot.BootClaims
import Mathlib.Data.List.Nodup

/-!
What ties a claim row to its draw, its authorization and its one Kickstart.

Rows change only at commits, and the transaction that commits has kept all others from
writing since its flush, so what it found then still holds. Everything else that an actor
has read is about columns that never change, or about the history, which only grows.
-/

namespace Atlaso.NetworkBoot.ClaimBinding

open AppliedBoot BootClaims Library.Outcomes

/-! ### Histories -/

def createdAttempt : Event → Option String
  | .created row _ _ => some row.attemptId
  | _ => none

def consumedAttempt : Event → Option String
  | .consumed _ row _ _ _ _ => some row.attemptId
  | _ => none

def returnedAttempt : Event → Option String
  | .returned _ attemptId _ => some attemptId
  | _ => none

/-- The columns that no statement changes. -/
structure SameClaim (row origin : Capability) : Prop where
  attemptId : row.attemptId = origin.attemptId
  hostId : row.hostId = origin.hostId
  claimHash : row.claimHash = origin.claimHash
  bootCodeHash : row.bootCodeHash = origin.bootCodeHash
  macAddress : row.macAddress = origin.macAddress
  kickstartId : row.kickstartId = origin.kickstartId
  kickstartRevision : row.kickstartRevision = origin.kickstartRevision
  listenerOrigin : row.listenerOrigin = origin.listenerOrigin

structure WellDrawn (platform : Platform) (drawn : Drawn) : Prop where
  claimHash : drawn.row.claimHash = platform.sha256 drawn.claim
  bootCodeHash : drawn.row.bootCodeHash = platform.sha256 drawn.bootCode
  tokenHash : drawn.row.tokenHash = none
  consumedAt : drawn.row.consumedAt = none
  macAddress : ∃ value, normalizeMac value = .ok drawn.row.macAddress
  policy : ∀ time, drawn.row.authorizedAt = some time →
    drawn.row.requestedBy = bootPolicy ∧ drawn.row.expiresAt = time + lifetime

/-- Who admits a claim at a time: the boot policy at its creation, or an administrator with
its code. -/
def Admitted (history : List Event) (drawn : Drawn) (time : Time) : Prop :=
  drawn.row.authorizedAt = some time ∨
    ∃ entered, .authorized drawn.row.hostId drawn.row.attemptId entered time ∈ history ∧
      normalizeEsxiBootCode entered = some drawn.bootCode

structure Follows (platform : Platform) (history : List Event) (drawn : Drawn)
    (row : Capability) : Prop where
  created : .created drawn.row drawn.claim drawn.bootCode ∈ history
  same : SameClaim row drawn.row
  policy : ∀ time, drawn.row.authorizedAt = some time →
    row.requestedBy = bootPolicy ∧ row.authorizedAt = some time
  admitted : ∀ time, row.authorizedAt = some time →
    row.expiresAt = time + lifetime ∧ Admitted history drawn time
  token : ∀ hash, row.tokenHash = some hash →
    hash = platform.sha256 (esxiKickstartToken platform drawn.row drawn.claim)

def Known (platform : Platform) (drawn : List Drawn) (history : List Event)
    (row : Capability) : Prop :=
  ∃ origin ∈ drawn, Follows platform history origin row

structure Passed (platform : Platform) (request : FetchRequest) (row : Capability) (now : Time)
    (context : Context) (manifest : Manifest) : Prop where
  key : isMacKey request.macKey = true
  answers : answers platform request row now = true
  servable : servable platform request row context = .ok true
  describes : Describes manifest row.hostId context

/-- What a consumption was entitled by. -/
structure Legitimate (platform : Platform) (earlier : List Event) (row : Capability)
    (request : FetchRequest) (context : Context) (manifest : Manifest) (now : Time)
    (drawn : Drawn) : Prop where
  created : .created drawn.row drawn.claim drawn.bootCode ∈ earlier
  attempt : row.attemptId = drawn.row.attemptId
  once : row.attemptId ∉ earlier.filterMap consumedAttempt
  token : request.token = esxiKickstartToken platform drawn.row drawn.claim
  admitted : ∃ time, Admitted earlier drawn time ∧ now < time + lifetime
  policy : drawn.row.authorizedAt ≠ none →
    drawn.row.requestedBy = bootPolicy ∧ manifest.boot.required = false
  describes : Describes manifest drawn.row.hostId context
  macAddress : normalizeMac context.host.macAddress = .ok drawn.row.macAddress
  kickstartId : context.kickstart.id = some drawn.row.kickstartId
  revision : platform.lower context.kickstart.contentHash = drawn.row.kickstartRevision
  listener : ∃ origin, artifactListenerOrigin platform context.artifact = .ok origin ∧
    platform.lower origin = platform.lower drawn.row.listenerOrigin

def Justified (platform : Platform) (earlier : List Event) : Event → Prop
  | .created row claim bootCode => row.attemptId ∉ earlier.filterMap createdAttempt ∧
      WellDrawn platform ⟨row, claim, bootCode⟩
  | .authorized hostId attemptId entered _ => ∃ drawn : Drawn,
      .created drawn.row drawn.claim drawn.bootCode ∈ earlier ∧
        drawn.row.attemptId = attemptId ∧ drawn.row.hostId = hostId ∧
          normalizeEsxiBootCode entered = some drawn.bootCode
  | .consumed _ row request context manifest now =>
    ∃ drawn, Legitimate platform earlier row request context manifest now drawn
  | .returned actor attemptId _ =>
    (∃ row request context manifest now, row.attemptId = attemptId ∧
      .consumed actor row request context manifest now ∈ earlier) ∧
        attemptId ∉ earlier.filterMap returnedAttempt

def Lawful (platform : Platform) (history : List Event) : Prop :=
  ∀ later event earlier, history = later ++ event :: earlier → Justified platform earlier event

variable {platform : Platform} {history : List Event}

theorem lawful_nil : Lawful platform [] := by
  intro later event earlier shape
  simp at shape

section

variable (lawful : Lawful platform history)
include lawful

variable {event : Event} {attemptId : String}

theorem lawful_cons (justified : Justified platform history event) :
    Lawful platform (event :: history) := by
  intro later other earlier shape
  cases later with
  | nil =>
    obtain ⟨rfl, rfl⟩ := List.cons.inj shape
    exact justified
  | cons first rest =>
    obtain ⟨rfl, rest_eq⟩ := List.cons.inj shape
    exact lawful rest other earlier rest_eq

theorem consumed_once {actor other : Actor} {row again : Capability}
    {request request' : FetchRequest} {context context' : Context} {manifest manifest' : Manifest}
    {now now' : Time} (first : .consumed actor row request context manifest now ∈ history)
    (second : .consumed other again request' context' manifest' now' ∈ history)
    (same : row.attemptId = again.attemptId) : actor = other := by
  by_contra different
  obtain ⟨later, earlier, shape⟩ := List.append_of_mem first
  rw [shape] at second
  rcases List.mem_append.mp second with after | before
  · obtain ⟨front, back, split⟩ := List.append_of_mem after
    obtain ⟨drawn, legitimate⟩ := lawful front _ (back ++ _ :: earlier) (by
      rw [shape, split, List.append_assoc, List.cons_append])
    have older : .consumed actor row request context manifest now ∈ back ++
        .consumed actor row request context manifest now :: earlier :=
      List.mem_append_right _ List.mem_cons_self
    exact legitimate.once (List.mem_filterMap.mpr ⟨_, older, congrArg some same⟩)
  · rcases List.mem_cons.mp before with itself | older
    · cases itself
      exact different rfl
    · obtain ⟨drawn, legitimate⟩ := lawful later _ earlier shape
      exact legitimate.once (List.mem_filterMap.mpr ⟨_, older, congrArg some same.symm⟩)

theorem justified_created (inside : event ∈ history) (about : consumedAttempt event = some attemptId
      ∨ ∃ hostId entered time, event = .authorized hostId attemptId entered time) :
    attemptId ∈ history.filterMap createdAttempt := by
  obtain ⟨later, earlier, shape⟩ := List.append_of_mem inside
  have justified := lawful later event earlier shape
  have whole : ∀ {other : Event}, other ∈ earlier → other ∈ history := by
    intro other older
    rw [shape]
    exact List.mem_append_right _ (List.mem_cons_of_mem _ older)
  rcases about with consumed | ⟨hostId, entered, time, rfl⟩
  · cases event with
    | consumed actor row request context manifest now =>
      obtain ⟨drawn, legitimate⟩ := justified
      obtain rfl : row.attemptId = attemptId := Option.some.inj consumed
      exact List.mem_filterMap.mpr ⟨_, whole legitimate.created,
        congrArg some legitimate.attempt.symm⟩
    | created row claim bootCode => cases consumed
    | authorized hostId other entered time => cases consumed
    | returned actor other content => cases consumed
  · obtain ⟨drawn, created, attempt, -⟩ := justified
    exact List.mem_filterMap.mpr ⟨_, whole created, congrArg some attempt⟩

theorem returned_consumed (returned : attemptId ∈ history.filterMap returnedAttempt) :
    attemptId ∈ history.filterMap consumedAttempt := by
  obtain ⟨event, inside, named⟩ := List.mem_filterMap.mp returned
  obtain ⟨later, earlier, shape⟩ := List.append_of_mem inside
  have justified := lawful later event earlier shape
  cases event with
  | returned actor other content =>
    obtain rfl : other = attemptId := Option.some.inj named
    obtain ⟨⟨row, request, context, manifest, now, attempt, consumed⟩, -⟩ := justified
    have whole : .consumed actor row request context manifest now ∈ history := by
      rw [shape]
      exact List.mem_append_right _ (List.mem_cons_of_mem _ consumed)
    exact List.mem_filterMap.mpr ⟨_, whole, congrArg some attempt⟩
  | created row claim bootCode => cases named
  | authorized hostId other entered time => cases named
  | consumed actor row request context manifest now => cases named

end

/-! ### Activities -/

/-- Writes of a transaction that records nothing. -/
inductive Tidy (platform : Platform) (drawn : List Drawn) : Write → Prop
  | delete (attemptId : String) : Tidy platform drawn (.delete attemptId)
  | consume (attemptId : String) (now : Time) : Tidy platform drawn (.consume attemptId now)
  | prepare (origin : Drawn) (inside : origin ∈ drawn) :
      Tidy platform drawn (.prepare origin.row.attemptId
        (platform.sha256 (esxiKickstartToken platform origin.row origin.claim)))

inductive Plan (platform : Platform) (drawn : List Drawn) (history : List Event) :
    List Write → Option Event → Prop
  | tidy (writes : List Write) (simple : ∀ write ∈ writes, Tidy platform drawn write) :
      Plan platform drawn history writes none
  | create (origin : Drawn) (doomed : List String) (inside : origin ∈ drawn)
      (new : origin.row.attemptId ∉ history.filterMap createdAttempt) :
      Plan platform drawn history (.insert origin.row :: doomed.map .delete)
        (some (.created origin.row origin.claim origin.bootCode))
  | authorize (origin : Drawn) (request : AuthorizationRequest) (doomed others : List String)
      (now : Time) (inside : origin ∈ drawn)
      (created : .created origin.row origin.claim origin.bootCode ∈ history)
      (pending : origin.row.authorizedAt = none)
      (host : origin.row.hostId = request.hostId)
      (entered : normalizeEsxiBootCode request.bootCode = some origin.bootCode) :
      Plan platform drawn history
        (authorizationWrites request doomed others origin.row.attemptId now)
        (some (.authorized request.hostId origin.row.attemptId request.bootCode now))

structure Matched (platform : Platform) (drawn : List Drawn) (history : List Event)
    (request : AuthorizationRequest) (row : Capability) : Prop where
  known : Known platform drawn history row
  host : row.hostId = request.hostId
  pending : row.authorizedAt = none
  entered : ∃ bootCode, normalizeEsxiBootCode request.bootCode = some bootCode ∧
    row.bootCodeHash = platform.sha256 bootCode

/-- What an actor has found out by what it has read. -/
def Fits (platform : Platform) (drawn : List Drawn) (history : List Event) (actor : Actor) :
    Activity → Prop
  | .drawing draft _ => ∃ value, normalizeMac value = .ok draft.macAddress
  | .matched request _ _ row _ => Matched platform drawn history request row
  | .superseding request _ row _ => Matched platform drawn history request row
  | .polling claim row _ => Known platform drawn history row ∧
      row.claimHash = platform.sha256 claim
  | .pollingFrom claim row _ _ => Known platform drawn history row ∧
      row.claimHash = platform.sha256 claim
  | .fetching request row now => Known platform drawn history row ∧
      isMacKey request.macKey = true ∧ answers platform request row now = true
  | .fetchingFrom request row now _ => Known platform drawn history row ∧
      isMacKey request.macKey = true ∧ answers platform request row now = true
  | .consuming request row now context manifest => Known platform drawn history row ∧
      Passed platform request row now context manifest
  | .flushing writes event => Plan platform drawn history writes event
  | .staged writes event none => Plan platform drawn history writes event
  | .staged writes event (some attemptId) => ∃ row request context manifest now,
      writes = [.consume row.attemptId now] ∧
        event = some (.consumed actor row request context manifest now) ∧
          attemptId = row.attemptId ∧ Known platform drawn history row ∧
            Passed platform request row now context manifest
  | .rendering attemptId => (∃ row request context manifest now, row.attemptId = attemptId ∧
      .consumed actor row request context manifest now ∈ history) ∧
        attemptId ∉ history.filterMap returnedAttempt
  | _ => True

def inserting : Activity → Option String
  | .flushing (.insert row :: _) _ => some row.attemptId
  | .staged (.insert row :: _) _ _ => some row.attemptId
  | _ => none

def Flushed (platform : Platform) (claims : List Capability) : Activity → Prop
  | .staged writes event _ => writes.all (Write.permitted claims) = true ∧
      ∀ actor row request context manifest now,
        event = some (.consumed actor row request context manifest now) →
          claims.any (consumable platform request row.attemptId now) = true
  | _ => True

def isStaged : Activity → Bool
  | .staged _ _ _ => true
  | _ => false

structure Table (platform : Platform) (drawn : List Drawn) (history : List Event)
    (claims : List Capability) : Prop where
  once : (claims.map Capability.attemptId).Nodup
  known : ∀ row ∈ claims, Known platform drawn history row
  marked : ∀ row ∈ claims, ∀ hostId entered time,
    .authorized hostId row.attemptId entered time ∈ history → row.authorizedAt ≠ none
  spent : ∀ row ∈ claims, row.attemptId ∈ history.filterMap consumedAttempt →
    row.consumedAt ≠ none

structure Sound (platform : Platform) (system : System) : Prop where
  drawnOnce : (system.drawn.map fun drawn => drawn.row.attemptId).Nodup
  drawn : ∀ drawn ∈ system.drawn, WellDrawn platform drawn
  table : Table platform system.drawn system.history system.claims
  lawful : Lawful platform system.history
  lock : ∀ actor, isStaged (system.activity actor) = true → system.writer = some actor
  flushed : ∀ actor, Flushed platform system.claims (system.activity actor)
  fits : ∀ actor, Fits platform system.drawn system.history actor (system.activity actor)
  inserts : ∀ actor other attemptId, inserting (system.activity actor) = some attemptId →
    inserting (system.activity other) = some attemptId → actor = other
  recorded : ∀ row claim bootCode, .created row claim bootCode ∈ system.history →
    ⟨row, claim, bootCode⟩ ∈ system.drawn

/-! ### Growing histories -/

variable {drawn : List Drawn} {writes : List Write} {next : Capability}

theorem known_mono {more : List Drawn} {later : List Event} {row : Capability}
    (known : Known platform drawn history row) (draws : drawn ⊆ more) (events : history ⊆ later) :
    Known platform more later row := by
  obtain ⟨origin, inside, follows⟩ := known
  refine ⟨origin, draws inside, ?_⟩
  exact {
    created := events follows.created
    same := follows.same
    policy := follows.policy
    admitted := by
      intro time authorized
      obtain ⟨expires, admitted⟩ := follows.admitted time authorized
      refine ⟨expires, admitted.imp_right ?_⟩
      rintro ⟨entered, happened, code⟩
      exact ⟨entered, events happened, code⟩
    token := follows.token }

theorem tidy_mono {more : List Drawn} {write : Write} (tidy : Tidy platform drawn write)
    (draws : drawn ⊆ more) : Tidy platform more write := by
  cases tidy with
  | delete attemptId => exact .delete attemptId
  | consume attemptId now => exact .consume attemptId now
  | prepare origin inside => exact .prepare origin (draws inside)

theorem plan_mono {more : List Drawn} {events : List Event} {event : Option Event}
    (plan : Plan platform drawn history writes event) (draws : drawn ⊆ more)
    (fresh : ∀ row rest, writes = .insert row :: rest → row.attemptId ∉ events.filterMap
      createdAttempt) :
    Plan platform more (events ++ history) writes event := by
  cases plan with
  | tidy _ simple => exact .tidy writes fun write inside => tidy_mono (simple write inside) draws
  | create origin doomed inside new =>
    refine .create origin doomed (draws inside) ?_
    rw [List.filterMap_append, List.mem_append, not_or]
    exact ⟨fresh origin.row _ rfl, new⟩
  | authorize origin request doomed others now inside created pending host entered =>
    exact .authorize origin request doomed others now (draws inside)
      (List.mem_append_right _ created) pending host entered

theorem fits_mono {more : List Drawn} {events : List Event} {actor : Actor} {activity : Activity}
    (fits : Fits platform drawn history actor activity) (draws : drawn ⊆ more)
    (creates : ∀ attemptId, inserting activity = some attemptId → attemptId ∉ events.filterMap
      createdAttempt) (returns : ∀ attemptId, activity = .rendering attemptId → attemptId ∉
      events.filterMap returnedAttempt) :
    Fits platform more (events ++ history) actor activity := by
  have known : ∀ {row}, Known platform drawn history row →
      Known platform more (events ++ history) row :=
    fun known => known_mono known draws (List.subset_append_right _ _)
  have matched : ∀ {request row}, Matched platform drawn history request row →
      Matched platform more (events ++ history) request row :=
    fun found => { found with known := known found.known }
  cases activity with
  | drawing draft doomed => exact fits
  | matched request current doomed row now => exact matched fits
  | superseding request doomed row now => exact matched fits
  | polling claim row now => exact ⟨known fits.1, fits.2⟩
  | pollingFrom claim row now applied => exact ⟨known fits.1, fits.2⟩
  | fetching request row now => exact ⟨known fits.1, fits.2⟩
  | fetchingFrom request row now applied => exact ⟨known fits.1, fits.2⟩
  | consuming request row now context manifest => exact ⟨known fits.1, fits.2⟩
  | flushing writes event =>
    refine plan_mono fits draws ?_
    rintro row rest rfl
    exact creates _ rfl
  | staged writes event rendered =>
    cases rendered with
    | none =>
      refine plan_mono fits draws ?_
      rintro row rest rfl
      exact creates _ rfl
    | some attemptId =>
      obtain ⟨row, request, context, manifest, now, wrote, recorded, attempt, seen, passed⟩ :=
        fits
      exact ⟨row, request, context, manifest, now, wrote, recorded, attempt, known seen, passed⟩
  | rendering attemptId =>
    obtain ⟨⟨row, request, context, manifest, now, attempt, consumed⟩, unreturned⟩ := fits
    refine ⟨⟨row, request, context, manifest, now, attempt,
      List.mem_append_right _ consumed⟩, ?_⟩
    rw [List.filterMap_append, List.mem_append, not_or]
    exact ⟨returns attemptId rfl, unreturned⟩
  | idle | menu | creating | creatingFrom | authorizing | matching => exact fits

/-! ### Writes, row by row -/

/-- What a write other than an INSERT makes of a row. -/
def onRow (row : Capability) : Write → Option Capability
  | .insert _ => some row
  | .delete attemptId => if row.attemptId = attemptId then none else some row
  | .consume attemptId now =>
    some (if row.attemptId = attemptId then { row with consumedAt := now } else row)
  | .authorize attemptId requestedBy now =>
    some (if row.attemptId = attemptId then
      { row with
        requestedBy := requestedBy
        requestedAt := now
        authorizedAt := now
        expiresAt := now + lifetime }
    else row)
  | .prepare attemptId tokenHash =>
    some (if row.attemptId = attemptId then { row with tokenHash := tokenHash } else row)

def rowAfter : List Write → Capability → Option Capability
  | [], row => some row
  | write :: rest, row => (onRow row write).bind (rowAfter rest)

def isInsert : Write → Bool
  | .insert _ => true
  | _ => false

theorem apply_on_rows {write : Write} (plain : isInsert write = false) (claims : List Capability) :
    write.apply claims = claims.filterMap fun row => onRow row write := by
  cases write with
  | insert row => cases plain
  | delete attemptId =>
    rw [Write.apply, ← List.filterMap_eq_filter]
    refine List.filterMap_congr fun row inside => ?_
    by_cases same : row.attemptId = attemptId <;> simp [onRow, Option.guard, same]
  | consume attemptId now => exact (congrFun List.filterMap_eq_map claims).symm
  | authorize attemptId requestedBy now => exact (congrFun List.filterMap_eq_map claims).symm
  | prepare attemptId tokenHash => exact (congrFun List.filterMap_eq_map claims).symm

theorem apply_all_rows (plain : ∀ write ∈ writes, isInsert write = false)
    (claims : List Capability) : applyAll claims writes = claims.filterMap (rowAfter writes) := by
  induction writes generalizing claims with
  | nil => simp [applyAll, rowAfter]
  | cons write rest induction =>
    have others := fun write inside => plain write (List.mem_cons_of_mem _ inside)
    change applyAll (write.apply claims) rest = _
    rw [induction others, apply_on_rows (plain write List.mem_cons_self), List.filterMap_filterMap]
    rfl

theorem row_after_append (first second : List Write) (row : Capability) :
    rowAfter (first ++ second) row = (rowAfter first row).bind (rowAfter second) := by
  induction first generalizing row with
  | nil => rfl
  | cons write rest induction =>
    simp only [List.cons_append, rowAfter]
    cases onRow row write with
    | none => rfl
    | some next => exact induction next

theorem row_after_keeps (property : Capability → Prop) (step : ∀ write ∈ writes, ∀ row next,
      property row → onRow row write = some next → property next) {row : Capability}
    (holds : property row) (after : rowAfter writes row = some next) : property next := by
  induction writes generalizing row with
  | nil =>
    cases after
    exact holds
  | cons write rest induction =>
    obtain ⟨middle, first, second⟩ := Option.bind_eq_some_iff.mp after
    exact induction (fun other inside => step other (List.mem_cons_of_mem _ inside))
      (step write List.mem_cons_self row middle holds first) second

inductive Becomes (row : Capability) : Write → Capability → Prop
  | keep (write : Write) : Becomes row write row
  | consume (now : Time) :
      Becomes row (.consume row.attemptId now) { row with consumedAt := now }
  | authorize (requestedBy : String) (now : Time) :
      Becomes row (.authorize row.attemptId requestedBy now)
        { row with
          requestedBy := requestedBy
          requestedAt := now
          authorizedAt := now
          expiresAt := now + lifetime }
  | prepare (tokenHash : String) :
      Becomes row (.prepare row.attemptId tokenHash) { row with tokenHash := tokenHash }

theorem on_row_becomes {write : Write} {row : Capability} (after : onRow row write = some next) :
    Becomes row write next := by
  cases write with
  | insert other =>
    cases after
    exact .keep _
  | delete attemptId =>
    rw [onRow] at after
    split_ifs at after
    cases after
    exact .keep _
  | consume attemptId now =>
    rw [onRow] at after
    split_ifs at after with same
    · cases after
      exact same ▸ .consume now
    · cases after
      exact .keep _
  | authorize attemptId requestedBy now =>
    rw [onRow] at after
    split_ifs at after with same
    · cases after
      exact same ▸ .authorize requestedBy now
    · cases after
      exact .keep _
  | prepare attemptId tokenHash =>
    rw [onRow] at after
    split_ifs at after with same
    · cases after
      exact same ▸ .prepare tokenHash
    · cases after
      exact .keep _

theorem becomes_attempt {write : Write} {row : Capability} (becomes : Becomes row write next) :
    next.attemptId = row.attemptId := by
  cases becomes <;> rfl

theorem row_after_attempt {row : Capability} (after : rowAfter writes row = some next) :
    next.attemptId = row.attemptId :=
  row_after_keeps (fun other => other.attemptId = row.attemptId)
    (fun _ _ _ _ same step => (becomes_attempt (on_row_becomes step)).trans same) rfl after

theorem row_after_consumed {row : Capability} (consumed : row.consumedAt ≠ none)
    (after : rowAfter writes row = some next) :
    next.consumedAt ≠ none := by
  refine row_after_keeps (fun other => other.consumedAt ≠ none) ?_ consumed after
  intro write _ other later holds step
  cases on_row_becomes step <;> simp [holds]

theorem row_after_authorized {row : Capability} (authorized : row.authorizedAt ≠ none)
    (after : rowAfter writes row = some next) :
    next.authorizedAt ≠ none := by
  refine row_after_keeps (fun other => other.authorizedAt ≠ none) ?_ authorized after
  intro write _ other later holds step
  cases on_row_becomes step <;> simp [holds]

theorem row_after_ended {row : Capability} (ended : row.attemptId ∈ writes.filterMap Write.ended)
    (after : rowAfter writes row = some next) : next.consumedAt ≠ none := by
  obtain ⟨write, inside, target⟩ := List.mem_filterMap.mp ended
  obtain ⟨before, behind, rfl⟩ := List.append_of_mem inside
  rw [row_after_append] at after
  obtain ⟨middle, first, rest⟩ := Option.bind_eq_some_iff.mp after
  obtain ⟨last, step, behindAfter⟩ := Option.bind_eq_some_iff.mp rest
  have same := row_after_attempt first
  cases write with
  | delete attemptId =>
    cases target
    simp [onRow, same] at step
  | consume attemptId now =>
    cases target
    refine row_after_consumed ?_ behindAfter
    simp only [onRow, same, if_true, Option.some.injEq] at step
    simp [← step]
  | insert other => cases target
  | authorize attemptId requestedBy now => cases target
  | prepare attemptId tokenHash => cases target

end Atlaso.NetworkBoot.ClaimBinding
