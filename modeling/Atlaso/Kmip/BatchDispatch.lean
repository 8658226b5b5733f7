import Atlaso.Kmip.AttributeViews
import Atlaso.Kmip.Connections
import Atlaso.Kmip.KeyLocations

/-!
The dispatcher of `kmip/protocol.py`: the checks of a request, the handlers of its batch items
and the response.

The store is a parameter with a state of its own, and no handler calls it more than once.
-/

namespace Atlaso.Kmip.BatchDispatch

open AttributeViews Connections Exceptions KeyLocations Library Dictionary Outcomes Protocol
open StoreFiles StoreKeys TtlvCodec

def Tag.batchCount : Int := 0x42000D
def Tag.keyBlock : Int := 0x420040
def Tag.keyFormatType : Int := 0x420042
def Tag.keyMaterial : Int := 0x420043
def Tag.keyValue : Int := 0x420045
def Tag.queryFunction : Int := 0x420074
def Tag.responseHeader : Int := 0x42007A
def Tag.responseMessage : Int := 0x42007B
def Tag.responsePayload : Int := 0x42007C
def Tag.resultMessage : Int := 0x42007D
def Tag.resultReason : Int := 0x42007E
def Tag.resultStatus : Int := 0x42007F
def Tag.symmetricKey : Int := 0x42008F
def Tag.timeStamp : Int := 0x420092
def Tag.uniqueBatchItemId : Int := 0x420093
def Tag.vendorIdentification : Int := 0x42009D

def keyFormatTypeRaw : Int := 1
def supportedProtocolVersions : List (Int × Int) := [(1, 4), (1, 1)]

/-- `Operation` of the protocol. -/
inductive Request where
  | create | locate | get | getAttributes | getAttributeList | activate | query
  | discoverVersions
  deriving DecidableEq

namespace Request

def code : Request → Int
  | create => 0x01
  | locate => 0x08
  | get => 0x0A
  | getAttributes => 0x0B
  | getAttributeList => 0x0C
  | activate => 0x12
  | query => 0x18
  | discoverVersions => 0x1E

def all : List Request :=
  [create, locate, get, getAttributes, getAttributeList, activate, query, discoverVersions]

def ofCode (code : Int) : Option Request := all.find? fun request => request.code = code

end Request

def reasonCode : ResultReason → Int
  | .itemNotFound => 1
  | .invalidMessage => 4
  | .operationNotSupported => 5
  | .missingData => 6
  | .invalidField => 7
  | .keyFormatTypeNotSupported => 16
  | .generalFailure => 256

def invalidMessage (message : String) : Raised := .protocolFailure .invalidMessage message

/-! ### Handlers -/

/-- What a handler answers, or what it asks the store and makes of the answer. -/
inductive Handled where
  | answer (nodes : List Ttlv)
  | ask (operation : Operation) (finish : Answer → Except Raised (List Ttlv))

def createNames : List String :=
  ["Cryptographic Algorithm", "Cryptographic Length", "Cryptographic Usage Mask", "Name"] ++
    vsphereCustomAttributes

/-- The name and the custom attributes of the key that `_create` asks for. -/
def createValues (attributes : List (String × Scalar)) :
    Except Raised (Option String × List (String × String)) :=
  if getItem "Cryptographic Algorithm" attributes ≠ some (.int cryptographicAlgorithmAes) then
    .error (invalidField "Only AES keys are supported.")
  else if getItem "Cryptographic Length" attributes ≠ some (.int 256) then
    .error (invalidField "Only AES-256 keys are supported.")
  else if (getItem "Cryptographic Usage Mask" attributes).getD (.int usageEncryptDecrypt) ≠
      .int usageEncryptDecrypt then
    .error (invalidField "Only Encrypt and Decrypt key usage is supported.")
  else
    let custom := vsphereCustomAttributes.filterMap fun name =>
      match getItem name attributes with
      | some (.text value) => some (name, value)
      | _ => none
    match getItem "Name" attributes with
    | none => .ok (none, custom)
    | some (.text name) => .ok (some name, custom)
    | some _ => .error (.assertionError "")

def create (providerId : String) (payload : Ttlv) : Except Raised Handled := do
  catchTtlv (invalidField "Create contains unsupported fields.")
    (assertOnlyTags payload [Tag.objectType, Tag.templateAttribute])
  let objectType ← integerValue (← requiredChild payload Tag.objectType) .enumeration
  if objectType ≠ objectTypeSymmetricKey then
    throw (invalidField "Only Symmetric Key objects are supported.")
  else
    let template ← requiredChild payload Tag.templateAttribute
    let attributes ← parseTemplateAttributes createNames vsphereCustomAttributes template
    let (name, custom) ← createValues attributes
    return .ask (.create providerId name custom) fun
      | .metadata key => .ok [enumeration Tag.objectType objectTypeSymmetricKey,
          textString Tag.uniqueIdentifier key.keyId]
      | _ => .error (.assertionError "")

def activate (providerId : String) (payload : Ttlv) : Except Raised Handled := do
  catchTtlv (invalidField "Activate contains unsupported fields.")
    (assertOnlyTags payload [Tag.uniqueIdentifier])
  let keyId ← uniqueIdentifier payload
  return .ask (.activate providerId keyId) fun _ => .ok [textString Tag.uniqueIdentifier keyId]

/-- The key that `_get` returns. -/
def keyNodes : Answer → Except Raised (List Ttlv)
  | .material metadata plaintext =>
    if metadata.state = "Pre-Active" ∨ metadata.state = "Active" then
      .ok [enumeration Tag.objectType objectTypeSymmetricKey,
        textString Tag.uniqueIdentifier metadata.keyId,
        structure' Tag.symmetricKey [structure' Tag.keyBlock
          [enumeration Tag.keyFormatType keyFormatTypeRaw,
            structure' Tag.keyValue [byteString Tag.keyMaterial plaintext],
            enumeration Tag.cryptographicAlgorithm cryptographicAlgorithmAes,
            integer Tag.cryptographicLength 256]]]
    else .error (invalidField "Only Pre-Active or Active KMIP keys may be retrieved.")
  | _ => .error (.assertionError "")

def checkFormat : Option Ttlv → Except Raised Unit
  | none => .ok ()
  | some format => do
    if (← integerValue format .enumeration) ≠ keyFormatTypeRaw then
      throw (.protocolFailure .keyFormatTypeNotSupported
        "Only Raw symmetric key format is supported.")
    else return ()

def get (providerId : String) (payload : Ttlv) : Except Raised Handled := do
  catchTtlv (invalidField "Get contains unsupported fields.")
    (assertOnlyTags payload [Tag.uniqueIdentifier, Tag.keyFormatType])
  checkFormat (← child payload Tag.keyFormatType false)
  let keyId ← uniqueIdentifier payload
  return .ask (.getKey providerId keyId) keyNodes

abbrev Handler := (Operation → Except Raised Answer) → String → Ttlv → Except Raised (List Ttlv)

/-- `_get_attribute_list` and `_get_attributes`. -/
def describe (complaint : String) (tags : List Int) (handler : Handler) (providerId : String)
    (payload : Ttlv) : Except Raised Handled := do
  catchTtlv (invalidField complaint) (assertOnlyTags payload tags)
  let keyId ← uniqueIdentifier payload
  return .ask (.getMetadata providerId keyId) fun answer =>
    handler (fun _ => .ok answer) providerId payload

def locateKeys (providerId : String) (payload : Ttlv) : Except Raised Handled := do
  catchTtlv (invalidField "Locate contains unsupported fields.")
    (assertOnlyTags payload [Tag.maximumResponseSize, Tag.attribute])
  match ← locateSearch (← children payload Tag.attribute) with
  | none => return .answer []
  | some (state, name) =>
    return .ask (.locate providerId state name 1024) fun answer =>
      locate (fun _ => .ok answer) providerId payload

def queryAnswer (function : Int) : Except Raised (List Ttlv) :=
  if function = 1 then
    .ok (Request.all.map fun request => enumeration Tag.operation request.code)
  else if function = 2 then .ok [enumeration Tag.objectType objectTypeSymmetricKey]
  else if function = 3 then .ok [textString Tag.vendorIdentification "Atlaso"]
  else .error (.protocolFailure .operationNotSupported
    "Query Function is outside the supported contract.")

def query (payload : Ttlv) : Except Raised Handled := do
  catchTtlv (invalidField "Query contains unsupported fields.")
    (assertOnlyTags payload [Tag.queryFunction])
  let requested ← (← children payload Tag.queryFunction).mapM fun node =>
    integerValue node .enumeration
  if requested = [] then throw (.protocolFailure .missingData "Query Function is required.")
  else if ¬requested.Nodup then
    throw (invalidField "Query Function must not be duplicated.")
  else return .answer (← requested.mapM queryAnswer).flatten

def protocolVersion (node : Ttlv) : Except Raised (Int × Int) :=
  if node.type ≠ .struct then .error (invalidField "Protocol Version must be a structure.")
  else do
    catchTtlv (invalidField "Protocol Version contains unsupported fields.")
      (assertOnlyTags node [Tag.protocolVersionMajor, Tag.protocolVersionMinor])
    let major ← integerValue (← requiredChild node Tag.protocolVersionMajor) .integer
    let minor ← integerValue (← requiredChild node Tag.protocolVersionMinor) .integer
    return (major, minor)

def versionNode (version : Int × Int) : Ttlv :=
  structure' Tag.protocolVersion [integer Tag.protocolVersionMajor version.1,
    integer Tag.protocolVersionMinor version.2]

def discoverVersions (payload : Ttlv) : Except Raised Handled := do
  catchTtlv (invalidField "Discover Versions contains unsupported fields.")
    (assertOnlyTags payload [Tag.protocolVersion])
  let offered ← (← children payload Tag.protocolVersion).mapM protocolVersion
  if offered = [] then return .answer (supportedProtocolVersions.map versionNode)
  else return .answer ((supportedProtocolVersions.filter (· ∈ offered)).map versionNode)

def dispatchOperation (providerId : String) (request : Request) (payload : Ttlv) :
    Except Raised Handled :=
  if payload.type ≠ .struct then
    .error (invalidField "Request Payload must be a structure.")
  else
    match request with
    | .create => create providerId payload
    | .activate => activate providerId payload
    | .get => get providerId payload
    | .getAttributes => describe "Get Attributes contains unsupported fields."
        [Tag.uniqueIdentifier, Tag.attributeName] getAttributes providerId payload
    | .getAttributeList => describe "Get Attribute List contains unsupported fields."
        [Tag.uniqueIdentifier] getAttributeList providerId payload
    | .locate => locateKeys providerId payload
    | .query => query payload
    | .discoverVersions => discoverVersions payload

/-! ### Batch items -/

abbrev BatchId := Option (List UInt8)

def optionalBatchItemId (item : Ttlv) : Except Raised BatchId := do
  match ← child item Tag.uniqueBatchItemId false with
  | none => return none
  | some (.scalar _ .byteString (.bytes id)) => return some id
  | some _ => throw (invalidMessage "Unique Batch Item ID must be a Byte String.")

/-- The first loop of `dispatch` passes over an identifier that it cannot read. -/
def candidateId (item : Ttlv) : Except Raised BatchId :=
  match optionalBatchItemId item with
  | .error (.ttlvError _) | .error (.protocolFailure _ _) => .ok none
  | other => other

/-- What the checks of a batch item leave: the values that its response carries, and its work. -/
structure Examined where
  operationValue : Int
  batchItemId : BatchId
  work : Except Raised Handled

def operationValue (item : Ttlv) : Except Raised Int := do
  assertOnlyTags item [Tag.operation, Tag.uniqueBatchItemId, Tag.requestPayload]
  integerValue (← requiredChild item Tag.operation) .enumeration

/-- `ids` are the identifiers that the items of the request carry. -/
def itemWork (providerId : String) (several : Bool) (ids : List (List UInt8)) (item : Ttlv)
    (id : BatchId) (value : Int) : Except Raised Handled :=
  if several = true ∧ id = none then
    .error (invalidMessage "Unique Batch Item ID is required for multi-item requests.")
  else if ∃ own ∈ id, 1 < ids.count own then
    .error (invalidMessage "Unique Batch Item IDs must be unique within the request.")
  else
    match Request.ofCode value with
    | none => .error (.protocolFailure .operationNotSupported
        "Operation is outside the supported contract.")
    | some request => do
      dispatchOperation providerId request (← requiredChild item Tag.requestPayload)

def examine (providerId : String) (several : Bool) (ids : List (List UInt8)) (item : Ttlv) :
    Examined :=
  if item.type ≠ .struct then
    ⟨0, none, .error (invalidMessage "Batch Item must be a structure.")⟩
  else
    match optionalBatchItemId item with
    | .error raised => ⟨0, none, .error raised⟩
    | .ok id =>
      match operationValue item with
      | .error raised => ⟨0, id, .error raised⟩
      | .ok value => ⟨value, id, itemWork providerId several ids item id value⟩

/-- The failure that answers an exception of a batch item; another one leaves `dispatch`. -/
def failureOf : Raised → Option (ResultReason × String)
  | .ttlvError _ => some (.invalidMessage, "Batch Item contains invalid TTLV.")
  | .keyNotFoundError _ =>
    some (.itemNotFound, "KMIP key was not found in the authenticated provider.")
  | .keyStateError _ => some (.invalidField, "KMIP key state is invalid.")
  | .keyStoreError _ => some (.generalFailure, "KMIP operational store request failed.")
  | .protocolFailure reason message => some (reason, message)
  | _ => none

def batchItem (examined : Examined) (outcome : List Ttlv) : Ttlv :=
  structure' Tag.batchItem (enumeration Tag.operation examined.operationValue ::
    examined.batchItemId.toList.map (byteString Tag.uniqueBatchItemId) ++ outcome)

/-- The response to a batch item, given how its work ended. -/
def respondItem (examined : Examined) : Except Raised (List Ttlv) → Except Raised Ttlv
  | .ok result => .ok (batchItem examined
      [enumeration Tag.resultStatus 0, structure' Tag.responsePayload result])
  | .error raised =>
    match failureOf raised with
    | some (reason, message) => .ok (batchItem examined [enumeration Tag.resultStatus 1,
        enumeration Tag.resultReason (reasonCode reason), textString Tag.resultMessage message])
    | none => .error raised

/-! ### Requests -/

/-- A request that `dispatch` answers. -/
structure Accepted where
  version : Int × Int
  items : List Ttlv
  ids : List (List UInt8)

def accept (request : Ttlv) : Except Raised Accepted := do
  if request.tag ≠ requestMessage ∨ request.type ≠ .struct then
    throw (invalidMessage "Root TTLV must be Request Message.")
  else
    catchTtlv (invalidMessage "Request Message contains unsupported fields.")
      (assertOnlyTags request [Tag.requestHeader, Tag.batchItem])
    let header ← requiredChild request Tag.requestHeader
    if header.type ≠ .struct then
      throw (invalidMessage "Request Header must be a structure.")
    else
      catchTtlv (invalidMessage "Request Header contains unsupported fields.")
        (assertOnlyTags header [Tag.protocolVersion, Tag.maximumResponseSize, Tag.batchCount])
      let version ← protocolVersion (← requiredChild header Tag.protocolVersion)
      if version ∉ supportedProtocolVersions then
        throw (invalidMessage "The requested KMIP protocol version is not supported.")
      else
        let items ← children request Tag.batchItem
        let count ← integerValue (← requiredChild header Tag.batchCount) .integer
        if count ≠ items.length ∨ ¬(1 ≤ count ∧ count ≤ maxBatchItems) then
          throw (invalidMessage "KMIP Batch Count is invalid.")
        else return ⟨version, items, (← items.mapM candidateId).reduceOption⟩

def responseMessage (version : Int × Int) (time : Int) (responses : List Ttlv) : Ttlv :=
  structure' Tag.responseMessage (structure' Tag.responseHeader [versionNode version,
    dateTime Tag.timeStamp time, integer Tag.batchCount responses.length] :: responses)

/-- A store behind its methods, and the clock that `dispatch` reads. -/
structure Service (State : Type) where
  call : State → Operation → Except Raised Answer × State
  time : State → Int

section Dispatch

variable {State : Type} (service : Service State)

def perform (state : State) : Except Raised Handled → Except Raised (List Ttlv) × State
  | .error raised => (.error raised, state)
  | .ok (.answer nodes) => (.ok nodes, state)
  | .ok (.ask operation finish) =>
    ((service.call state operation).1 >>= finish, (service.call state operation).2)

def processItem (state : State) (examined : Examined) : Except Raised Ttlv × State :=
  ((respondItem examined (perform service state examined.work).1),
    (perform service state examined.work).2)

def processItems (state : State) : List Examined → Except Raised (List Ttlv) × State
  | [] => (.ok [], state)
  | examined :: rest =>
    match processItem service state examined with
    | (.error raised, after) => (.error raised, after)
    | (.ok response, after) =>
      ((processItems after rest).1.map (response :: ·), (processItems after rest).2)

def dispatch (providerId : String) (state : State) (request : Ttlv) :
    Except Raised Ttlv × State :=
  match accept request with
  | .error raised => (.error raised, state)
  | .ok accepted =>
    let several := decide (1 < accepted.items.length)
    let processed := processItems service state
      (accepted.items.map (examine providerId several accepted.ids))
    (processed.1.map (responseMessage accepted.version (service.time processed.2)), processed.2)

end Dispatch

/-! ### Services that a provider cannot tell apart -/

/-- The provider that an operation is made for. -/
def owner : Operation → Option String
  | .create providerId _ _ => some providerId
  | .activate providerId _ => some providerId
  | .getKey providerId _ => some providerId
  | .getMetadata providerId _ => some providerId
  | .locate providerId _ _ _ => some providerId
  | .lifecycleCounts _ => none

/-- Whatever the work asks of the store is for the provider. -/
def Owned (providerId : String) (work : Except Raised Handled) : Prop :=
  ∀ operation finish, work = .ok (.ask operation finish) → owner operation = some providerId

section Owned

variable {providerId : String} {payload : Ttlv}

theorem owned_error (raised : Raised) : Owned providerId (.error raised) := by
  intro operation finish asked
  cases asked

theorem owned_answer (nodes : List Ttlv) : Owned providerId (.ok (.answer nodes)) := by
  intro operation finish asked
  cases asked

theorem owned_ask {operation : Operation} (finish : Answer → Except Raised (List Ttlv))
    (own : owner operation = some providerId) : Owned providerId (.ok (.ask operation finish)) := by
  intro other last asked
  cases asked
  exact own

theorem owned_bind {Value : Type} {first : Except Raised Value} {next : Value → Except Raised Handled}
    (rest : ∀ value, Owned providerId (next value)) : Owned providerId (first >>= next) := by
  intro operation finish asked
  obtain ⟨value, -, asked⟩ := bind_ok_iff.mp asked
  exact rest value operation finish asked

theorem create_owned : Owned providerId (create providerId payload) := by
  apply owned_bind
  intro _
  apply owned_bind
  intro _
  apply owned_bind
  intro _
  split
  · exact owned_error _
  · apply owned_bind
    intro _
    apply owned_bind
    intro _
    apply owned_bind
    intro values
    exact owned_ask _ rfl

theorem locate_owned : Owned providerId (locateKeys providerId payload) := by
  apply owned_bind
  intro _
  apply owned_bind
  intro _
  apply owned_bind
  intro search
  rcases search with _ | ⟨state, name⟩
  · exact owned_answer []
  · exact owned_ask _ rfl

theorem query_owned : Owned providerId (query payload) := by
  apply owned_bind
  intro _
  apply owned_bind
  intro _
  apply owned_bind
  intro requested
  split_ifs
  · exact owned_error _
  · apply owned_bind
    intro nodes
    exact owned_answer _
  · exact owned_error _

theorem discover_owned : Owned providerId (discoverVersions payload) := by
  apply owned_bind
  intro _
  apply owned_bind
  intro _
  apply owned_bind
  intro offered
  split_ifs
  · exact owned_answer _
  · exact owned_answer _

theorem dispatch_operation_owned (request : Request) :
    Owned providerId (dispatchOperation providerId request payload) := by
  unfold dispatchOperation
  split
  · exact owned_error _
  · cases request with
    | create => exact create_owned
    | locate => exact locate_owned
    | get => exact owned_bind fun _ => owned_bind fun _ => owned_bind fun _ =>
        owned_bind fun _ => owned_ask _ rfl
    | getAttributes => exact owned_bind fun _ => owned_bind fun _ => owned_ask _ rfl
    | getAttributeList => exact owned_bind fun _ => owned_bind fun _ => owned_ask _ rfl
    | activate => exact owned_bind fun _ => owned_bind fun _ => owned_ask _ rfl
    | query => exact query_owned
    | discoverVersions => exact discover_owned

theorem examine_owned (several : Bool) (ids : List (List UInt8)) (item : Ttlv) :
    Owned providerId (examine providerId several ids item).work := by
  unfold examine
  split
  · exact owned_error _
  split
  · exact owned_error _
  split
  · exact owned_error _
  dsimp only [itemWork]
  split_ifs
  · exact owned_error _
  · exact owned_error _
  · split
    · exact owned_error _
    · exact owned_bind fun _ => dispatch_operation_owned _

end Owned

section Alike

variable {First Second Result : Type} {related : First → Second → Prop}
variable {first : Service First} {second : Service Second} {providerId : String}

/-- Two outcomes that are the same, in related states. -/
def Alike (related : First → Second → Prop) (one : Result × First) (two : Result × Second) : Prop :=
  one.1 = two.1 ∧ related one.2 two.2

/-- The operations of the provider keep two services in related states, with the same answers. -/
structure Bisimilar (related : First → Second → Prop) (providerId : String)
    (first : Service First) (second : Service Second) : Prop where
  call : ∀ {one two} operation, related one two → owner operation = some providerId →
    Alike related (first.call one operation) (second.call two operation)
  time : ∀ {one two}, related one two → first.time one = second.time two

variable (bisimilar : Bisimilar related providerId first second) {one : First} {two : Second}
include bisimilar

theorem perform_alike (start : related one two) {work : Except Raised Handled}
    (owned : Owned providerId work) :
    Alike related (perform first one work) (perform second two work) := by
  cases work with
  | error raised => exact ⟨rfl, start⟩
  | ok handled =>
    cases handled with
    | answer nodes => exact ⟨rfl, start⟩
    | ask operation finish =>
      obtain ⟨same, later⟩ := bisimilar.call operation start (owned operation finish rfl)
      refine ⟨?_, later⟩
      simp only [perform, same]

theorem process_items_alike (start : related one two) {items : List Examined}
    (owned : ∀ examined ∈ items, Owned providerId examined.work) :
    Alike related (processItems first one items) (processItems second two items) := by
  induction items generalizing one two with
  | nil => exact ⟨rfl, start⟩
  | cons examined items induction =>
    obtain ⟨own, rest⟩ := List.forall_mem_cons.mp owned
    obtain ⟨same, later⟩ := perform_alike bisimilar start own
    simp only [processItems, processItem, same]
    cases respondItem examined (perform second two examined.work).1 with
    | error raised => exact ⟨rfl, later⟩
    | ok response =>
      obtain ⟨sameRest, last⟩ := induction later rest
      exact ⟨congrArg (Except.map _) sameRest, last⟩

theorem dispatch_alike (start : related one two) (request : Ttlv) :
    Alike related (dispatch first providerId one request) (dispatch second providerId two request) := by
  unfold dispatch
  cases accept request with
  | error raised => exact ⟨rfl, start⟩
  | ok accepted =>
    obtain ⟨same, last⟩ := process_items_alike bisimilar start
      (List.forall_mem_map.mpr fun item _ =>
        examine_owned (decide (1 < accepted.items.length)) accepted.ids item)
    exact ⟨by simp only [same, bisimilar.time last], last⟩

/-- A connection shows the provider the same answers over both services. -/
theorem handle_alike {Source : Type} {receive : Nat → Source → Except Raised (List UInt8 × Source)}
    {maxRequestBytes : Nat} (passes : Nat) (start : related one two) (source : Source) :
    let served := handle receive (dispatch first providerId) maxRequestBytes passes one source
    let other := handle receive (dispatch second providerId) maxRequestBytes passes two source
    served.answers = other.answers ∧ served.raised = other.raised ∧
      related served.state other.state := by
  induction passes generalizing one two source with
  | zero => exact ⟨rfl, rfl, start⟩
  | succ passes induction =>
    simp only [handle]
    cases nextRequest receive maxRequestBytes source with
    | error raised => exact ⟨rfl, rfl, start⟩
    | ok found =>
      rcases found with _ | ⟨request, rest⟩
      · exact ⟨rfl, rfl, start⟩
      obtain ⟨same, later⟩ := dispatch_alike bisimilar start request
      simp only [respond]
      generalize dispatch first providerId one request = mine at same later ⊢
      generalize dispatch second providerId two request = yours at same later ⊢
      obtain ⟨outcome, before⟩ := mine
      obtain ⟨_, after⟩ := yours
      cases same
      cases outcome with
      | error raised => exact ⟨rfl, rfl, later⟩
      | ok response =>
        dsimp only
        cases encode response with
        | error raised => exact ⟨rfl, rfl, later⟩
        | ok bytes =>
          obtain ⟨answers, raised, last⟩ := induction later rest
          exact ⟨congrArg (bytes :: ·) answers, raised, last⟩

end Alike

end Atlaso.Kmip.BatchDispatch
