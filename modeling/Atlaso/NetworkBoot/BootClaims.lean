import Atlaso.NetworkBoot.AppliedBoot
import Mathlib.Logic.Function.Basic

/-!
Boot-menu requests, authorizations, claim polls and Kickstart fetches on one claim table,
statement by statement.

Every actor runs one request; an action is one of its database statements, or the end of
its process. The rows that a transaction writes stay with its actor from the flush to the
commit, and only one transaction writes at a time.
-/

namespace Atlaso.NetworkBoot.BootClaims

open AppliedBoot

abbrev Actor := Nat

/-- A reading of `utcnow`, in microseconds. -/
abbrev Time := Nat

/-- `NETWORK_BOOT_ESXI_CAPABILITY_LIFETIME`. -/
def lifetime : Time := 600000000

/-- `NetworkBootEsxiBootCapability`. -/
structure Capability where
  attemptId : String
  hostId : Int
  (claimHash bootCodeHash : String)
  tokenHash : Option String
  macAddress : String
  kickstartId : Int
  (kickstartRevision listenerOrigin requestedBy : String)
  (requestedAt expiresAt : Time)
  (authorizedAt consumedAt : Option Time)
  deriving DecidableEq, Repr

def bootPolicy : String := "boot-policy"

/-! ### Requests -/

/-- What `create_esxi_boot_claim` takes from the applied state. -/
structure Draft where
  hostId : Int
  macAddress : String
  kickstartId : Int
  (kickstartRevision listenerOrigin : String)
  consoleRequired : Bool
  deriving DecidableEq, Repr

structure AuthorizationRequest where
  hostId : Int
  (requestedBy bootCode : String)
  deriving DecidableEq, Repr

structure FetchRequest where
  (macKey kickstartRevision token requestOrigin : String)
  deriving DecidableEq, Repr

/-- How far the boot artifacts of an attempt could be generated. -/
inductive Preparation where
  | complete | beforeToken | afterToken
  deriving DecidableEq, Repr

/-! ### Statements -/

inductive Write where
  | insert (row : Capability)
  | delete (attemptId : String)
  | consume (attemptId : String) (now : Time)
  | authorize (attemptId requestedBy : String) (now : Time)
  | prepare (attemptId tokenHash : String)
  deriving DecidableEq, Repr

def onAttempt (attemptId : String) (change : Capability → Capability) (claims : List Capability) :
    List Capability :=
  claims.map fun row => if row.attemptId = attemptId then change row else row

def Write.apply (claims : List Capability) : Write → List Capability
  | .insert row => claims ++ [row]
  | .delete attemptId => claims.filter fun row => row.attemptId ≠ attemptId
  | .consume attemptId now => onAttempt attemptId (fun row => { row with consumedAt := now }) claims
  | .authorize attemptId requestedBy now =>
    onAttempt attemptId (fun row =>
      { row with
        requestedBy := requestedBy
        requestedAt := now
        authorizedAt := now
        expiresAt := now + lifetime }) claims
  | .prepare attemptId tokenHash =>
    onAttempt attemptId (fun row => { row with tokenHash := tokenHash }) claims

def applyAll (claims : List Capability) (writes : List Write) : List Capability :=
  writes.foldl Write.apply claims

/-- The unique columns take the row, and a row to update is still there. -/
def Write.permitted (claims : List Capability) : Write → Bool
  | .insert row => claims.all fun other => other.attemptId ≠ row.attemptId &&
      other.claimHash ≠ row.claimHash && other.bootCodeHash ≠ row.bootCodeHash
  | .delete _ => true
  | .consume attemptId _ => claims.any fun row => row.attemptId = attemptId
  | .authorize attemptId _ _ => claims.any fun row => row.attemptId = attemptId
  | .prepare attemptId tokenHash => claims.any (fun row => row.attemptId = attemptId) &&
      claims.all fun other => other.attemptId = attemptId || other.tokenHash ≠ some tokenHash

def Write.ended : Write → Option String
  | .delete attemptId => some attemptId
  | .consume attemptId _ => some attemptId
  | _ => none

/-! ### System -/

/-- What is recorded of the committed transactions and of the responses. -/
inductive Event where
  | created (row : Capability) (claim bootCode : String)
  | authorized (hostId : Int) (attemptId bootCode : String) (now : Time)
  | consumed (actor : Actor) (row : Capability) (request : FetchRequest) (context : Context)
      (manifest : Manifest) (now : Time)
  | returned (actor : Actor) (attemptId content : String)
  deriving DecidableEq, Repr

/-- Where an actor is in its request; rows and manifests are what it has read. -/
inductive Activity where
  | idle
  /-- `render_network_boot_menu` with the rows its clean-up deletes. -/
  | menu (hostId : Int) (origin : String) (doomed : List String)
  /-- `create_esxi_boot_claim` after its own clean-up. -/
  | creating (hostId : Int) (origin : String) (doomed : List String)
  | creatingFrom (hostId : Int) (origin : String) (doomed : List String)
      (applied : Option Manifest)
  | drawing (draft : Draft) (doomed : List String)
  /-- `authorize_esxi_host_boot_once` with the Host Reference it has read. -/
  | authorizing (request : AuthorizationRequest) (current : EsxiPxeHost)
  | matching (request : AuthorizationRequest) (current : EsxiPxeHost) (doomed : List String)
  | matched (request : AuthorizationRequest) (current : EsxiPxeHost) (doomed : List String)
      (row : Capability) (now : Time)
  | superseding (request : AuthorizationRequest) (doomed : List String) (row : Capability)
      (now : Time)
  /-- `render_esxi_boot_claim` of an authorized claim. -/
  | polling (claim : String) (row : Capability) (now : Time)
  | pollingFrom (claim : String) (row : Capability) (now : Time) (applied : Option Manifest)
  /-- `consume_esxi_boot_capability` of a live capability. -/
  | fetching (request : FetchRequest) (row : Capability) (now : Time)
  | fetchingFrom (request : FetchRequest) (row : Capability) (now : Time)
      (applied : Option Manifest)
  | consuming (request : FetchRequest) (row : Capability) (now : Time) (context : Context)
      (manifest : Manifest)
  /-- Changes of the session that are not flushed yet. -/
  | flushing (writes : List Write) (event : Option Event)
  /-- The writes are not committed yet; the attempt whose Kickstart is rendered afterwards. -/
  | staged (writes : List Write) (event : Option Event) (rendered : Option String)
  | rendering (attemptId : String)

structure Drawn where
  row : Capability
  (claim bootCode : String)
  deriving DecidableEq, Repr

structure System where
  claims : List Capability
  hosts : Int → Option EsxiPxeHost
  applied : Option Manifest
  writer : Option Actor
  activity : Actor → Activity
  drawn : List Drawn
  history : List Event

namespace System

variable (system : System) (actor : Actor)

def become (activity : Activity) : System :=
  { system with activity := Function.update system.activity actor activity }

/-- The changes of the session go to the database, if there are any. -/
def finish (writes : List Write) (event : Option Event) : System :=
  if writes = [] then system.become actor .idle
  else system.become actor (.flushing writes event)

/-- The session ends without a commit. -/
def rollback : System :=
  { system.become actor .idle with
    writer := if system.writer = some actor then none else system.writer }

def install (writes : List Write) (event : Option Event) (activity : Activity) : System :=
  { system.become actor activity with
    claims := applyAll system.claims writes
    writer := none
    history := event.toList ++ system.history }

/-- The attempts that `cleanup_esxi_boot_authorizations` deletes. -/
def expired (now : Time) : List String :=
  (system.claims.filter fun row => row.consumedAt.isSome || row.expiresAt ≤ now).map
    Capability.attemptId

end System

/-! ### Pure parts of the requests -/

section Checks

variable (platform : Platform)

/-- `request_origin.rstrip("/").lower()`. -/
def normalizedOrigin (origin : String) : String :=
  platform.lower (String.ofList (origin.toList.reverse.dropWhile (· = '/')).reverse)

/-- `[A-Za-z0-9]`. -/
def isAlphanumeric (c : Char) : Bool :=
  (0x41 ≤ c.toNat && c.toNat ≤ 0x5a) || (0x61 ≤ c.toNat && c.toNat ≤ 0x7a) ||
    (0x30 ≤ c.toNat && c.toNat ≤ 0x39)

/-- `[A-HJ-NP-Z2-9]`. -/
def isCodeCharacter (c : Char) : Bool :=
  (0x41 ≤ c.toNat && c.toNat ≤ 0x48) || (0x4a ≤ c.toNat && c.toNat ≤ 0x4e) ||
    (0x50 ≤ c.toNat && c.toNat ≤ 0x5a) || (0x32 ≤ c.toNat && c.toNat ≤ 0x39)

def displayedCode (compact : List Char) : String :=
  String.ofList (compact.take 4 ++ ['-'] ++ compact.drop 4)

def normalizeEsxiBootCode (value : String) : Option String :=
  let compact := (value.toList.filter isAlphanumeric).map Char.toUpper
  if compact.length = 8 ∧ compact.all isCodeCharacter then some (displayedCode compact) else none

/-- `[A-Za-z0-9_-]{40,64}`. -/
def isSecretText (text : String) : Bool :=
  40 ≤ text.toList.length && text.toList.length ≤ 64 &&
    text.toList.all fun c => isAlphanumeric c || c = '_' || c = '-'

/-- `01(?:-[0-9a-f]{2}){6}`. -/
def isMacKey (text : String) : Bool :=
  text.toList.take 3 = ['0', '1', '-'] &&
    isMac ((text.toList.drop 3).map fun c => if c = '-' then ':' else if c = ':' then '-' else c)

def esxiKickstartToken (row : Capability) (claim : String) : String :=
  platform.signature platform.secretKey
    ("\x00".intercalate
      [claim, row.attemptId, row.macAddress, row.kickstartRevision, row.listenerOrigin])

/-- The part of `create_esxi_boot_claim` between its reads and its draws. -/
def draftClaim (hostId : Int) (origin : String) (applied : Option Manifest)
    (current : Option EsxiPxeHost) : Except String Draft := do
  let context ← appliedEsxiBootContext platform applied current hostId
  let listenerOrigin ← artifactListenerOrigin platform context.artifact
  if listenerOrigin ≠ normalizedOrigin platform origin then
    .error "The request did not arrive on the applied ESXi PXE listener."
  else
    let macAddress ← normalizeMac context.host.macAddress
    .ok {
      hostId := hostId
      macAddress := macAddress
      kickstartId := context.kickstart.id.getD 0
      kickstartRevision := platform.lower context.kickstart.contentHash
      listenerOrigin := listenerOrigin
      consoleRequired := context.boot.required }

def draftedRow (draft : Draft) (attemptId claim bootCode : String) (now : Time) : Capability where
  attemptId := attemptId
  hostId := draft.hostId
  claimHash := platform.sha256 claim
  bootCodeHash := platform.sha256 bootCode
  tokenHash := none
  macAddress := draft.macAddress
  kickstartId := draft.kickstartId
  kickstartRevision := draft.kickstartRevision
  listenerOrigin := draft.listenerOrigin
  requestedBy := if draft.consoleRequired then "" else bootPolicy
  requestedAt := now
  expiresAt := now + lifetime
  authorizedAt := if draft.consoleRequired then none else some now
  consumedAt := none

def stillApplied (row : Capability) (context : Context) : Except String Bool :=
  if row.kickstartId ≠ context.kickstart.id.getD 0 ∨
      row.kickstartRevision ≠ platform.lower context.kickstart.contentHash then .ok false
  else do
    let listenerOrigin ← artifactListenerOrigin platform context.artifact
    .ok (decide (row.listenerOrigin = listenerOrigin))

/-- The check of `authorize_esxi_boot_once`. -/
def authorizable (applied : Option Manifest) (current : EsxiPxeHost) (row : Capability) :
    Except String Bool := do
  let context ← appliedEsxiBootContext platform applied (some current) row.hostId
  let macAddress ← normalizeMac context.host.macAddress
  if row.macAddress ≠ macAddress then .ok false else stillApplied platform row context

/-- The check of `render_esxi_boot_claim`. -/
def loadable (applied : Option Manifest) (current : Option EsxiPxeHost) (row : Capability) :
    Except String Bool := do
  let context ← appliedEsxiBootContext platform applied current row.hostId
  if row.requestedBy = bootPolicy ∧ context.boot.required = true then .ok false
  else stillApplied platform row context

/-- The first check of `consume_esxi_boot_capability`. -/
def answers (request : FetchRequest) (row : Capability) (now : Time) : Bool :=
  row.consumedAt = none && row.authorizedAt ≠ none && now < row.expiresAt &&
    normalizePxeMac row.macAddress = request.macKey &&
      row.kickstartRevision = request.kickstartRevision &&
        platform.lower row.listenerOrigin = normalizedOrigin platform request.requestOrigin

/-- The second check, on the applied state. -/
def servable (request : FetchRequest) (row : Capability) (context : Context) :
    Except String Bool :=
  if row.requestedBy = bootPolicy ∧ context.boot.required = true then .ok false
  else if normalizePxeMac context.host.macAddress ≠ request.macKey ∨
      platform.lower context.kickstart.contentHash ≠ request.kickstartRevision then .ok false
  else do
    let listenerOrigin ← artifactListenerOrigin platform context.artifact
    .ok (platform.lower listenerOrigin = normalizedOrigin platform request.requestOrigin &&
      context.kickstart.id.getD 0 = row.kickstartId)

/-- The WHERE clause of the UPDATE that consumes a capability. -/
def consumable (request : FetchRequest) (attemptId : String) (now : Time) (row : Capability) :
    Bool :=
  row.attemptId = attemptId && row.tokenHash = some (platform.sha256 request.token) &&
    row.consumedAt = none && now < row.expiresAt

end Checks

/-! ### Steps -/

inductive Action where
  | requestMenu (actor : Actor) (hostId : Int) (origin : String) (now : Time)
  | cleanUp (actor : Actor) (now : Time)
  | readManifest (actor : Actor)
  | readHost (actor : Actor)
  | draw (actor : Actor) (attemptId claim : String) (compactCode : List Char) (now : Time)
  | requestAuthorization (actor : Actor) (request : AuthorizationRequest)
  | selectClaim (actor : Actor) (now : Time)
  | selectOthers (actor : Actor)
  | poll (actor : Actor) (claim origin : String) (now : Time)
  | prepare (actor : Actor) (preparation : Preparation)
  | fetch (actor : Actor) (request : FetchRequest) (now : Time)
  | updateConsumed (actor : Actor)
  | flush (actor : Actor)
  | commit (actor : Actor)
  /-- The outcome of the vault look-ups and of `render_kickstart_for_host`. -/
  | respond (actor : Actor) (content : Option String)
  | crash (actor : Actor)
  /-- A saved Host Reference is edited, or deleted with its claims. -/
  | saveHost (hostId : Int) (host : Option EsxiPxeHost)
  /-- Apply replaces the manifest, and deletes all claims. -/
  | publish (applied : Option Manifest)
  | clearClaims

section Steps

variable (platform : Platform) (system : System) (actor : Actor)

def stepMenu (hostId : Int) (origin : String) (now : Time) : Option System :=
  match system.activity actor with
  | .idle => some (system.become actor (.menu hostId origin (system.expired now)))
  | _ => none

def stepCleanUp (now : Time) : Option System :=
  match system.activity actor with
  | .menu hostId origin doomed =>
    some (system.become actor (.creating hostId origin (doomed ++ system.expired now)))
  | .authorizing request current =>
    some (system.become actor (.matching request current (system.expired now)))
  | _ => none

/-- The applied manifest is read; in an authorization the Host Reference is known already. -/
def stepReadManifest : Option System :=
  match system.activity actor with
  | .creating hostId origin doomed =>
    some (system.become actor (.creatingFrom hostId origin doomed system.applied))
  | .matched request current doomed row now =>
    match authorizable platform system.applied current row with
    | .ok true => some (system.become actor (.superseding request doomed row now))
    | _ => some (system.rollback actor)
  | .polling claim row now =>
    some (system.become actor (.pollingFrom claim row now system.applied))
  | .fetching request row now =>
    some (system.become actor (.fetchingFrom request row now system.applied))
  | _ => none

def checkFetch (request : FetchRequest) (row : Capability) (applied : Option Manifest)
    (current : Option EsxiPxeHost) : Except String (Context × Manifest) :=
  match appliedEsxiBootContext platform applied current row.hostId, applied with
  | .ok context, some manifest =>
    match servable platform request row context with
    | .ok true => .ok (context, manifest)
    | _ => .error "The capability no longer matches applied state."
  | _, _ => .error "The capability no longer matches applied state."

def stepReadHost : Option System :=
  match system.activity actor with
  | .creatingFrom hostId origin doomed applied =>
    match draftClaim platform hostId origin applied (system.hosts hostId) with
    | .ok draft => some (system.become actor (.drawing draft doomed))
    | .error _ => some (system.finish actor (doomed.map .delete) none)
  | .fetchingFrom request row now applied =>
    match checkFetch platform request row applied (system.hosts row.hostId) with
    | .ok (context, manifest) =>
      some (system.become actor (.consuming request row now context manifest))
    | .error _ => some (system.finish actor [.consume row.attemptId now] none)
  | _ => none

def stepDraw (attemptId claim : String) (compactCode : List Char) (now : Time) : Option System :=
  match system.activity actor with
  | .drawing draft doomed =>
    if system.drawn.any (fun drawn => drawn.row.attemptId = attemptId || drawn.claim = claim) then
      none
    else
      let bootCode := displayedCode compactCode
      let row := draftedRow platform draft attemptId claim bootCode now
      some { system.become actor (.flushing (.insert row :: doomed.map .delete)
          (some (.created row claim bootCode))) with
        drawn := ⟨row, claim, bootCode⟩ :: system.drawn }
  | _ => none

def stepAuthorization (request : AuthorizationRequest) : Option System :=
  match system.activity actor with
  | .idle =>
    match system.hosts request.hostId with
    | some current =>
      if current.enabled then some (system.become actor (.authorizing request current))
      else some system
    | none => some system
  | _ => none

def isPending (request : AuthorizationRequest) (bootCode : String) (now : Time)
    (row : Capability) : Bool :=
  row.hostId = request.hostId && row.bootCodeHash = platform.sha256 bootCode &&
    row.authorizedAt = none && row.consumedAt = none && now < row.expiresAt

def stepSelectClaim (now : Time) : Option System :=
  match system.activity actor with
  | .matching request current doomed =>
    match normalizeEsxiBootCode request.bootCode with
    | none => some (system.rollback actor)
    | some bootCode =>
      match system.claims.filter (isPending platform request bootCode now) with
      | [row] => some (system.become actor (.matched request current doomed row now))
      | _ => some (system.rollback actor)
  | _ => none

def isSuperseded (hostId : Int) (attemptId : String) (row : Capability) : Bool :=
  row.hostId = hostId && row.attemptId ≠ attemptId && row.authorizedAt ≠ none &&
    row.consumedAt = none

/-- The changes of an authorization; a row that the clean-up deletes is only deleted. -/
def authorizationWrites (request : AuthorizationRequest) (doomed others : List String)
    (attemptId : String) (now : Time) : List Write :=
  ((others.filter (· ∉ doomed)).map fun other => Write.consume other now) ++
    (if attemptId ∈ doomed then [] else [Write.authorize attemptId request.requestedBy now]) ++
      doomed.map Write.delete

def stepSelectOthers : Option System :=
  match system.activity actor with
  | .superseding request doomed row now =>
    let others := (system.claims.filter
      (isSuperseded request.hostId row.attemptId)).map Capability.attemptId
    some (system.finish actor
      (authorizationWrites request doomed others row.attemptId now)
      (some (.authorized request.hostId row.attemptId request.bootCode now)))
  | _ => none

def stepPoll (claim origin : String) (now : Time) : Option System :=
  match system.activity actor with
  | .idle =>
    if isSecretText claim = false then some system
    else
      match system.claims.filter (fun row => row.claimHash = platform.sha256 claim) with
      | [row] =>
        if row.consumedAt ≠ none then some system
        else if row.expiresAt ≤ now ∨ row.listenerOrigin ≠ normalizedOrigin platform origin then
          some (system.finish actor [.consume row.attemptId now] none)
        else if row.authorizedAt = none then some system
        else some (system.become actor (.polling claim row now))
      | _ => some system
  | _ => none

/-- The Host Reference is read and the boot artifacts are generated. -/
def stepPrepare (preparation : Preparation) : Option System :=
  match system.activity actor with
  | .pollingFrom claim row now applied =>
    let token := Write.prepare row.attemptId (platform.sha256 (esxiKickstartToken platform row claim))
    match loadable platform applied (system.hosts row.hostId) row, preparation with
    | .ok true, .complete => some (system.finish actor [token] none)
    | .ok true, .afterToken =>
      some (system.finish actor [token, .consume row.attemptId now] none)
    | _, _ => some (system.finish actor [.consume row.attemptId now] none)
  | _ => none

def stepFetch (request : FetchRequest) (now : Time) : Option System :=
  match system.activity actor with
  | .idle =>
    if (isMacKey request.macKey && isRevision request.kickstartRevision &&
        isSecretText request.token) = false then some system
    else
      match system.claims.filter
        (fun row => row.tokenHash = some (platform.sha256 request.token)) with
      | [row] =>
        if answers platform request row now then
          some (system.become actor (.fetching request row now))
        else if row.consumedAt = none then
          some (system.finish actor [.consume row.attemptId now] none)
        else some system
      | _ => some system
  | _ => none

def stepUpdateConsumed : Option System :=
  match system.activity actor, system.writer with
  | .consuming request row now context manifest, none =>
    if system.claims.any (consumable platform request row.attemptId now) then
      some { system.become actor (.staged [.consume row.attemptId now]
          (some (.consumed actor row request context manifest now)) (some row.attemptId)) with
        writer := some actor }
    else some (system.rollback actor)
  | _, _ => none

def stepFlush : Option System :=
  match system.activity actor, system.writer with
  | .flushing writes event, none =>
    if writes.all (Write.permitted system.claims) then
      some { system.become actor (.staged writes event none) with writer := some actor }
    else some (system.rollback actor)
  | _, _ => none

def stepCommit : Option System :=
  match system.activity actor with
  | .staged writes event none => some (system.install actor writes event .idle)
  | .staged writes event (some attemptId) =>
    some (system.install actor writes event (.rendering attemptId))
  | _ => none

def stepRespond (content : Option String) : Option System :=
  match system.activity actor, content with
  | .rendering attemptId, some content =>
    some { system.become actor .idle with
      history := .returned actor attemptId content :: system.history }
  | .rendering _, none => some (system.become actor .idle)
  | _, _ => none

end Steps

def step (platform : Platform) (system : System) : Action → Option System
  | .requestMenu actor hostId origin now => stepMenu system actor hostId origin now
  | .cleanUp actor now => stepCleanUp system actor now
  | .readManifest actor => stepReadManifest platform system actor
  | .readHost actor => stepReadHost platform system actor
  | .draw actor attemptId claim compactCode now =>
    stepDraw platform system actor attemptId claim compactCode now
  | .requestAuthorization actor request => stepAuthorization system actor request
  | .selectClaim actor now => stepSelectClaim platform system actor now
  | .selectOthers actor => stepSelectOthers system actor
  | .poll actor claim origin now => stepPoll platform system actor claim origin now
  | .prepare actor preparation => stepPrepare platform system actor preparation
  | .fetch actor request now => stepFetch platform system actor request now
  | .updateConsumed actor => stepUpdateConsumed platform system actor
  | .flush actor => stepFlush system actor
  | .commit actor => stepCommit system actor
  | .respond actor content => stepRespond system actor content
  | .crash actor => some (system.rollback actor)
  | .saveHost hostId host =>
    if system.writer.isSome then none
    else some { system with
      hosts := Function.update system.hosts hostId host
      claims := if host.isNone then system.claims.filter (·.hostId ≠ hostId)
        else system.claims }
  | .publish applied => some { system with applied := applied }
  | .clearClaims => if system.writer.isSome then none else some { system with claims := [] }

def runActions (platform : Platform) : System → List Action → Option System
  | system, [] => some system
  | system, action :: rest => (step platform system action).bind fun next =>
    runActions platform next rest

end Atlaso.NetworkBoot.BootClaims
