import Atlaso.Firewall.RuleFamilies
import Atlaso.Library.RowTables
import Atlaso.Library.Sessions

/-!
Port forwards: the desired state of destination translation, its validation, and the calls that
write it.

A call sees the interfaces, the Source Groups and the listeners of the appliance as they are then.
What the database gives or refuses (a new identifier, a lock, a flush, a commit) is part of the
circumstances of the call.
-/

namespace Atlaso.Publishing.PortForwards

open Firewall.RuleFamilies Firewall.SourceGroups Library Dictionary IpAddress
open IpNetwork ItemLists RowTables Sessions TextFields

def MAX_PORT_FORWARDS : Nat := 256

def MAX_MAPPED_PORTS : Int := 65535

inductive Protocol where
  | tcp | udp
  deriving DecidableEq, Repr

inductive ReplyMode where
  | preserve | masquerade
  deriving DecidableEq, Repr

/-- The fields that a request gives and a row keeps. -/
structure Mapping where
  (name description : List Char)
  priority : Int
  enabled : Bool
  ipFamily : Family
  ingressInterface : List Char
  listenerAddress : String
  protocol : Protocol
  (externalPortStart externalPortEnd : Int)
  targetAddress : String
  (targetPortStart targetPortEnd : Int)
  source : List Char
  replyMode : ReplyMode
  deriving DecidableEq, Repr

structure PortForwardCreate extends Mapping where
  acknowledgeSourceLoss : Bool
  deriving DecidableEq, Repr

/-- A saved row. -/
structure PortForward extends Mapping where
  id : Int
  restoreReviewRequired : Bool
  deriving DecidableEq, Repr

/-! ### The request -/

/-- White space of Unicode, which the schema strips. -/
def isTrimmed (c : Char) : Bool :=
  isWhitespace c && !(0x1c ≤ c.toNat && c.toNat ≤ 0x1f)

def trim (text : List Char) : List Char :=
  ((text.dropWhile isTrimmed).reverse.dropWhile isTrimmed).reverse

def trimText (text : String) : String := String.ofList (trim text.toList)

/-- `str_strip_whitespace` -/
def Mapping.stripped (mapping : Mapping) : Mapping :=
  { mapping with
    name := trim mapping.name
    description := trim mapping.description
    ingressInterface := trim mapping.ingressInterface
    listenerAddress := trimText mapping.listenerAddress
    targetAddress := trimText mapping.targetAddress
    source := trim mapping.source }

def validateFirewallDescription (value : List Char) : Bool :=
  (value.map fun c => if 0xffff < c.toNat then 2 else 1).sum ≤ 1000

def isInterfaceChar (c : Char) : Bool := c.isAlphanum || c ∈ ['_', '.', ':', '-']

def isPort (value : Int) : Bool := 1 ≤ value && value ≤ 65535

def fieldsInBounds (mapping : Mapping) : Bool :=
  (1 ≤ mapping.name.length && mapping.name.length ≤ 120) &&
  validateFirewallDescription mapping.description &&
  (0 ≤ mapping.priority && mapping.priority ≤ 2147483647) &&
  (1 ≤ mapping.ingressInterface.length && mapping.ingressInterface.length ≤ 80 &&
    mapping.ingressInterface.all isInterfaceChar) &&
  (2 ≤ mapping.listenerAddress.length && mapping.listenerAddress.length ≤ 45) &&
  isPort mapping.externalPortStart && isPort mapping.externalPortEnd &&
  (2 ≤ mapping.targetAddress.length && mapping.targetAddress.length ≤ 45) &&
  isPort mapping.targetPortStart && isPort mapping.targetPortEnd &&
  (1 ≤ mapping.source.length && mapping.source.length ≤ 4096)

def validateMapping (payload : PortForwardCreate) : Bool :=
  let external := payload.externalPortEnd - payload.externalPortStart
  let target := payload.targetPortEnd - payload.targetPortStart
  !(external < 0 || target < 0 || external ≠ target) &&
    !(payload.replyMode = .masquerade && !payload.acknowledgeSourceLoss)

def portForwardCreate (mapping : Mapping) (acknowledgeSourceLoss : Bool) :
    Option PortForwardCreate :=
  let payload : PortForwardCreate := ⟨mapping.stripped, acknowledgeSourceLoss⟩
  if fieldsInBounds payload.toMapping && validateMapping payload then some payload else none

/-! ### Addresses -/

def isReserved : Address → Bool :=
  classed (fun value => value / 2 ^ 28 = 0xf) fun value =>
    value / 2 ^ 120 = 0 || value / 2 ^ 120 = 1 || value / 2 ^ 121 = 1 || value / 2 ^ 122 = 1 ||
    value / 2 ^ 123 = 1 || value / 2 ^ 124 = 1 || value / 2 ^ 125 = 2 || value / 2 ^ 125 = 3 ||
    value / 2 ^ 125 = 4 || value / 2 ^ 125 = 5 || value / 2 ^ 125 = 6 || value / 2 ^ 124 = 0xe ||
    value / 2 ^ 123 = 0x1e || value / 2 ^ 122 = 0x3e || value / 2 ^ 119 = 0x1fc

def isMapped : Address → Bool
  | .v4 _ => false
  | .v6 value => (mappedV4 value).isSome

def unicastAddress (value : String) (family : Family) : Option Address :=
  if '%' ∈ value.toList then none
  else
    match ipAddress value with
    | none => none
    | some address =>
      if address.family ≠ family || isLoopback address || isLinkLocal address ||
          isMulticast address || isUnspecified address || isReserved address || isMapped address
      then none else some address

/-- `str(ip_address(value))` -/
def canonicalAddress (value : String) : Option String :=
  match partition '%' value.toList with
  | (_, none) => (ipAddress value).map Address.text
  | (bare, some scope) =>
    if scope = [] ∨ '%' ∈ scope ∨ '/' ∈ scope then none
    else (parseV6 bare).map fun address => (Address.v6 address).text ++ "%" ++ String.ofList scope

def ipInterface (value : String) : Option (Address × Network) :=
  let bare := (splitOn '/' value.toList).headD []
  (((parseV4 bare).map Address.v4).or (((unscoped bare).bind parseV6).map Address.v6)).bind
    fun address => (ipNetwork value).map fun network => (address, network)

/-- The first and the last address of a network. -/
def networkEnds (network : Network) : Nat × Nat :=
  let size := 2 ^ (network.family.width - network.bits)
  (network.leading * size, network.leading * size + size - 1)

/-! ### Sources -/

section Calls

variable (lowering : Lowering)

def resolvedNatSource (source : List Char) (sourceGroups : List SourceGroup) :
    Option (List Char) :=
  if FIREWALL_SOURCE_GROUP_REFERENCE_PREFIX.isPrefixOf (lowering.lower source) then
    let groups := groupsById sourceGroups
    let key := strip (source.drop FIREWALL_SOURCE_GROUP_REFERENCE_PREFIX.length)
    (getItem key groups).map fun group =>
      joinItems (expandSourceGroupEntries lowering groups [] (some group))
  else some (strip source)

def sourceNetworks (source : List Char) (family : Family) (groups : List SourceGroup) :
    Option (List Network) := do
  let resolved ← resolvedNatSource lowering source groups
  if lowering.lower resolved = FIREWALL_ANY_SOURCE_GROUP_ID then some []
  else
    let values := splitItems resolved
    if values = [] ∨ 128 < values.length then none
    else
      let networks ← values.mapM readNetwork
      if networks.any fun network => network.family ≠ family then none else some networks.dedup

/-! ### Validation -/

structure ListenerClaim where
  interface : List Char
  address : String
  protocol : Protocol
  (first last : Int)
  deriving DecidableEq, Repr

/-- An interface that can be the ingress of a port forward. -/
structure Ingress where
  name : List Char
  (ipCidr ipv6Cidr : String)
  deriving DecidableEq, Repr

structure Interface where
  role : String
  (ipCidr ipv6Cidr : Option String)
  deriving DecidableEq, Repr

structure Context where
  targets : List Ingress
  interfaces : List Interface
  groups : List SourceGroup
  claims : List ListenerClaim

def isNetworkEnd (network : Network) (address : Address) : Bool :=
  address.family = network.family &&
    (address.number = (networkEnds network).1 || address.number = (networkEnds network).2)

def assignedErrors (mapping : Mapping) (listener target : Address) (role : String)
    (assigned : Address × Network) : List String :=
  (if target = assigned.1 then ["A port-forward target cannot be an Atlaso appliance address."]
    else []) ++
  if assigned.1.family ≠ mapping.ipFamily then []
  else
    (if role = "management" ∧ assigned.2.contains target = true then
      ["Dedicated management networks cannot be port-forward targets."] else []) ++
    if assigned.1.family = .v4 ∧ assigned.2.bits < 31 ∧
        (isNetworkEnd assigned.2 listener = true ∨ isNetworkEnd assigned.2 target = true) then
      ["Listener and target addresses cannot be subnet network or broadcast addresses."]
    else []

def interfaceErrors (mapping : Mapping) (listener target : Address) (interface : Interface) :
    List String :=
  [interface.ipCidr, interface.ipv6Cidr].flatMap fun cidr =>
    match ipInterface (cidr.getD "") with
    | none => []
    | some assigned => assignedErrors mapping listener target interface.role assigned

def claimCollides (mapping : Mapping) (listener : Address) (claim : ListenerClaim) : Bool :=
  (claim.interface = ['*'] || claim.interface = mapping.ingressInterface) &&
  ((claim.address = "*" || claim.address = "::" || claim.address = listener.text) ||
    claim.address = "0.0.0.0" && mapping.ipFamily = .v4) &&
  claim.protocol = mapping.protocol && mapping.externalPortStart ≤ claim.last &&
  claim.first ≤ mapping.externalPortEnd

def peerOverlaps (ruleId : Option Int) (mapping : Mapping) (listener : Address)
    (peer : PortForward) : Bool :=
  !(some peer.id = ruleId || !peer.enabled || !mapping.enabled) &&
  peer.ipFamily = mapping.ipFamily && peer.listenerAddress = listener.text &&
  peer.protocol = mapping.protocol && peer.externalPortStart ≤ mapping.externalPortEnd &&
  mapping.externalPortStart ≤ peer.externalPortEnd

def Mapping.mappedPorts (mapping : Mapping) : Int :=
  mapping.externalPortEnd - mapping.externalPortStart + 1

def mappedPorts (ruleId : Option Int) (mapping : Mapping) (peers : List PortForward) : Int :=
  mapping.mappedPorts +
    ((peers.filter fun peer => peer.enabled && (ruleId = none || some peer.id ≠ ruleId)).map
      fun peer => peer.mappedPorts).sum

def bindingErrors (mapping : Mapping) (listener : Address) (context : Context) :
    Option (List String) :=
  let message := "Select an exact assigned listener on an enabled same-family access or route " ++
    "interface or VLAN."
  let eligible := ofPairs (context.targets.map fun target => (target.name, target))
  let cidr := ((getItem mapping.ingressInterface eligible).map fun ingress =>
    match mapping.ipFamily with
    | .v4 => ingress.ipCidr
    | .v6 => ingress.ipv6Cidr).getD ""
  if cidr = "" then some [message]
  else (ipInterface cidr).map fun assigned => if assigned.1 ≠ listener then [message] else []

/-- What the schema and the readers say of a candidate: its addresses, or none for a value that
is refused. -/
def readCandidate (mapping : Mapping) (context : Context) : Option (Address × Address) := do
  let _ ← portForwardCreate mapping true
  let listener ← unicastAddress mapping.listenerAddress mapping.ipFamily
  let target ← unicastAddress mapping.targetAddress mapping.ipFamily
  let _ ← sourceNetworks lowering mapping.source mapping.ipFamily context.groups
  some (listener, target)

def validatePortForward (ruleId : Option Int) (mapping : Mapping) (peers : List PortForward)
    (context : Context) : Option (List String) :=
  match readCandidate lowering mapping context with
  | none => some ["Review the name, family, source boundary, unicast addresses, protocol and " ++
      "equal-length port mapping."]
  | some (listener, target) => do
      let binding ← bindingErrors mapping listener context
      some (
        (if listener.text ≠ mapping.listenerAddress ∨ target.text ≠ mapping.targetAddress then
          ["Port-forward listener and target addresses must use canonical IP notation."]
          else []) ++
        binding ++
        context.interfaces.flatMap (interfaceErrors mapping listener target) ++
        (if context.claims.any (claimCollides mapping listener) then
          ["The external mapping collides with an Atlaso-owned service or protocol listener."]
          else []) ++
        (if peers.any (peerOverlaps ruleId mapping listener) then
          ["Enabled port forwards cannot overlap on the same family, listener, protocol and " ++
            "external ports."]
          else []) ++
        if mapping.enabled = true ∧ MAX_MAPPED_PORTS < mappedPorts ruleId mapping peers then
          ["Enabled port forwards may map at most 65535 external ports in total."]
        else []).eraseDups

/-! ### Calls -/

structure AuditEvent where
  actor : List Char
  action : String
  resourceId : Int
  deriving DecidableEq, Repr

structure Store where
  forwards : List PortForward
  audit : List AuditEvent

inductive Failure where
  | lookup (text : String)
  | value (texts : List String)
  | integrity | other
  deriving DecidableEq, Repr

abbrev Action (Value : Type) := Work Store Failure Value

/-- What a call meets. A fault is what the lock, a query, the flush or the commit raises. -/
structure Circumstances where
  actor : List Char
  context : Except Failure Context
  newId : Int
  (lockFault readFault flushFault commitFault : Option Failure)

def missing : Failure := .lookup "Port forward does not exist."

def nameTaken : Failure := .value ["A port forward with that name already exists."]

/-- `except IntegrityError` -/
def translated : Failure → Failure
  | .integrity => nameTaken
  | failure => failure

/-- The unique names and identifiers of the table. -/
def violatesIntegrity (rows : List PortForward) : Bool :=
  !(decide (rows.map fun row => row.name).Nodup && decide (rows.map PortForward.id).Nodup)

def flush (circumstances : Circumstances) : Action Unit := do
  let store ← Work.read
  if violatesIntegrity store.forwards then Work.raise .integrity
  else Work.mayRaise circumstances.flushFault

def checkedCandidate (circumstances : Circumstances) (payload : PortForwardCreate)
    (ruleId : Option Int) : Action Mapping := do
  Work.mayRaise circumstances.readFault
  let store ← Work.read
  let peers := store.forwards
  let current := ruleId.bind fun id => findRow PortForward.id id peers
  if ruleId.isSome && current.isNone then Work.raise missing
  else if current.isNone && MAX_PORT_FORWARDS ≤ peers.length then
    Work.raise (.value ["At most 256 port forwards may be saved."])
  else do
    let listenerAddress ← Work.ofOption (.value []) (canonicalAddress payload.listenerAddress)
    let targetAddress ← Work.ofOption (.value []) (canonicalAddress payload.targetAddress)
    let values := { payload.toMapping with
      listenerAddress := listenerAddress, targetAddress := targetAddress }
    match circumstances.context with
    | .error failure => Work.raise failure
    | .ok context => do
        let errors ← Work.ofOption (.value []) (validatePortForward lowering ruleId values peers context)
        if errors ≠ [] then Work.raise (.value errors) else pure values

/-- The work of `save_port_forward` before its commit. -/
def saveRow (circumstances : Circumstances) (payload : PortForwardCreate) (ruleId : Option Int) :
    Action PortForward := do
  let values ← checkedCandidate lowering circumstances payload ruleId
  let row : PortForward := ⟨values, ruleId.getD circumstances.newId, false⟩
  Work.change fun store => { store with
    forwards := match ruleId with
      | none => store.forwards ++ [row]
      | some _ => replaceRow PortForward.id row store.forwards }
  flush circumstances
  if !(1 ≤ row.id && row.id ≤ 0xFFFFFF) then
    Work.raise (.value
      ["Port-forward identity capacity is exhausted; contact the appliance maintainer."])
  else do
    Work.change fun store => { store with
      audit := store.audit ++ [⟨circumstances.actor,
        if ruleId.isNone then "create_port_forward" else "update_port_forward", row.id⟩] }
    pure row

def savePortForward (circumstances : Circumstances) (payload : PortForwardCreate)
    (ruleId : Option Int) : Action PortForward := do
  Work.mayRaise circumstances.lockFault
  Work.guarded translated (saveRow lowering circumstances payload ruleId >>= fun row =>
    Work.commit circumstances.commitFault >>= fun _ => pure row)

/-- The work of `delete_port_forward` before its commit. -/
def deleteRow (circumstances : Circumstances) (ruleId : Int) : Action Unit := do
  Work.mayRaise circumstances.readFault
  let store ← Work.read
  match findRow PortForward.id ruleId store.forwards with
  | none => Work.raise missing
  | some _ => do
      Work.change fun store => { store with
        forwards := removeRow PortForward.id ruleId store.forwards
        audit := store.audit ++ [⟨circumstances.actor, "delete_port_forward", ruleId⟩] }
      Work.mayRaise circumstances.flushFault

def deletePortForward (circumstances : Circumstances) (ruleId : Int) : Action Unit := do
  Work.mayRaise circumstances.lockFault
  Work.guarded id (deleteRow circumstances ruleId >>= fun value =>
    Work.commit circumstances.commitFault >>= fun _ => pure value)

def rollback : Action Unit := fun session => (.ok (), session.rollback)

/-- `set_port_forward_enabled`; the save that it calls meets circumstances of its own. -/
def setPortForwardEnabled (circumstances saving : Circumstances) (ruleId : Int) (enabled : Bool) :
    Action PortForward := do
  Work.mayRaise circumstances.lockFault
  Work.mayRaise circumstances.readFault
  let store ← Work.read
  match findRow PortForward.id ruleId store.forwards with
  | none => do
      rollback
      Work.raise missing
  | some row => Work.guarded id do
      let payload ← Work.ofOption (.value [])
        (portForwardCreate { row.toMapping with enabled := enabled } true)
      savePortForward lowering saving payload (some ruleId)

end Calls

end Atlaso.Publishing.PortForwards
