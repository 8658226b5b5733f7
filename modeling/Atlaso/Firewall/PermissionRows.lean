import Atlaso.Firewall.RoutingRules

/-!
The routing permissions as `services/routing_permissions.py` shows them: the topology of the
page, the validation of a permission, and the effective action of each row for each address
family.

Times, descriptions and the apply state of a row are left out.
-/

namespace Atlaso.Firewall.PermissionRows

open RoutingRules Library Dictionary IpAddress IpNetwork TextFields

/-! ### Topology -/

structure PermissionTarget where
  name : LinkName
  role : Role
  (ipCidr ipv6Cidr : String)

/-- Whether `_configured_address` gives a text: `ip_interface` reads what `ip_network` reads
without `strict`. -/
def configuredAddress (cidr : Option String) : Bool := (networkFromCidr cidr).isSome

def permissionTarget (name : LinkName) (role ipCidr ipv6Cidr : Option String) :
    Option PermissionTarget :=
  if configuredAddress ipCidr || configuredAddress ipv6Cidr then
    some ⟨name, normalizeInterfaceRole role, ipCidr.getD "", ipv6Cidr.getD ""⟩
  else none

def shownPhysical (interface : PhysicalInterface) : Option PermissionTarget :=
  if interface.operState = "missing" then none
  else if isTrunk interface.mode then none
  else permissionTarget interface.name interface.role interface.ipCidr interface.ipv6Cidr

def shownVlan (vlan : VlanInterface) : Option PermissionTarget :=
  if vlan.enabled = false then none
  else permissionTarget vlan.name vlan.role vlan.ipCidr vlan.ipv6Cidr

def routingPermissionTargets (interfaces : List PhysicalInterface) (vlans : List VlanInterface) :
    List PermissionTarget :=
  interfaces.filterMap shownPhysical ++ vlans.filterMap shownVlan

def byName (targets : List PermissionTarget) (name : String) : Option PermissionTarget :=
  getItem name (ofPairs (targets.map fun target => (target.name.text, target)))

def PermissionTarget.networks (target : PermissionTarget) : List Network :=
  [target.ipCidr, target.ipv6Cidr].filterMap ipNetwork

def targetNetworks (target : Option PermissionTarget) (family : Option (Option Family)) :
    List Network :=
  match target, family with
  | some target, some family => ofFamily family target.networks
  | _, _ => []

def permissionRole (target : Option PermissionTarget) : Option Role := target.map PermissionTarget.role

def isPermissionRole (role : Option Role) : Bool := role = some .route || role = some .access

/-! ### Validation -/

/-- `_LINE_SEPARATORS`. -/
def isLineSeparator (c : Char) : Bool :=
  [0x0a, 0x0b, 0x0c, 0x0d, 0x1c, 0x1d, 0x1e, 0x85, 0x2028, 0x2029].contains c.toNat

/-- A name of 1 to 80 letters, digits, underscores, dots, colons and hyphens. -/
def isCanonical (name : String) : Bool :=
  decide (1 ≤ name.toList.length) && decide (name.toList.length ≤ 80) &&
    name.toList.all fun c => c.isAlphanum || ['_', '.', ':', '-'].contains c

def nameErrors (rule : RoutingRule) : List String :=
  if rule.name = "" ∨ strip rule.name.toList = [] ∨ 120 < rule.name.toList.length then
    ["Routing permission needs a name of at most 120 characters."]
  else if rule.name.toList.any isLineSeparator then
    ["Routing permission name must not contain line breaks."]
  else []

def priorityErrors (rule : RoutingRule) : List String :=
  if rule.priority < 0 then ["Routing permission priority cannot be negative."] else []

def canonicalErrors (label name : String) : List String :=
  if isCanonical name then []
  else ["Routing permission " ++ label ++
    " must use a canonical interface name of at most 80 characters."]

/-- The checks of one end against the topology. -/
def endErrors (rule : RoutingRule) (label : String) (target : Option PermissionTarget) :
    List String :=
  let subject := "Routing permission " ++ label
  if permissionRole target = some .management then
    [subject ++ " must be a non-management Access or Route interface/VLAN; " ++
      "protected management rules cannot be overridden."]
  else if rule.enabled && !isPermissionRole (permissionRole target) then
    [subject ++ " must be a non-management Access or Route interface/VLAN."]
  else if rule.enabled && rule.family.isSome && (targetNetworks target rule.family).isEmpty then
    [subject ++ " has no configured prefix for the selected IP family."]
  else []

def commonErrors (rule : RoutingRule) (source destination : Option PermissionTarget) :
    List String :=
  if rule.enabled && source.isSome && destination.isSome && rule.family.isSome &&
      (commonRoutingNetworks (targetNetworks source rule.family)
        (targetNetworks destination rule.family)).isEmpty then
    ["Routing permission targets need a common configured address family."]
  else []

def validateRoutingPermission (rule : RoutingRule) (targets : List PermissionTarget) :
    List String :=
  let source := byName targets rule.sourceInterface
  let destination := byName targets rule.destinationInterface
  (if rule.permission.isNone then
    ["Routing permission policy must be automatic, allow, or deny."] else []) ++
  (if rule.family.isNone then
    ["Routing permission IP family must be 0 (both), 4, or 6."] else []) ++
  nameErrors rule ++ priorityErrors rule ++
  canonicalErrors "source" rule.sourceInterface ++ endErrors rule "source" source ++
  canonicalErrors "destination" rule.destinationInterface ++
    endErrors rule "destination" destination ++
  commonErrors rule source destination

/-! ### Rows -/

inductive Action where
  | explicitDeny | explicitAllow | automaticAllow | automaticDeny
  deriving DecidableEq, Repr

def Action.text : Action → String
  | .explicitDeny => "explicit deny"
  | .explicitAllow => "explicit allow"
  | .automaticAllow => "automatic allow"
  | .automaticDeny => "automatic deny"

def Action.allows : Action → Bool
  | .explicitAllow | .automaticAllow => true
  | .explicitDeny | .automaticDeny => false

/-- `effective_action`. -/
inductive Effective where
  | suspended | conflict
  | actions (shown : List (Family × Action))
  deriving DecidableEq, Repr

def Effective.text : Effective → String
  | .suspended => "suspended"
  | .conflict => "conflict"
  | .actions shown =>
    match (shown.map Prod.snd).dedup with
    | [action] => action.text
    | _ => String.intercalate "; " (shown.map fun item =>
      "IPv" ++ toString item.1.version ++ ": " ++ item.2.text)

/-- What a row is made of: a pair of route targets, or a saved rule. -/
structure Candidate where
  name : String
  enabled : Bool
  (sourceInterface destinationInterface : String)
  priority : Int
  generated : Bool
  policy : Option Policy
  ipFamily : Option (Option Family)

structure Row extends Candidate where
  (sourceNetworks destinationNetworks : List Network)
  effectiveAction : Effective
  familyEffectiveActions : List (Family × Action)

def versions (rule : RoutingRule) : List Family :=
  match rule.family with
  | some none => [.v4, .v6]
  | some (some family) => [family]
  | none => []

def activePolicies (targets : List PermissionTarget) (rules : List RoutingRule)
    (source destination : String) (version : Family) : List Policy :=
  (rules.filter fun rule => rule.enabled && (validateRoutingPermission rule targets).isEmpty &&
    decide (rule.sourceInterface = source) && decide (rule.destinationInterface = destination) &&
    (versions rule).contains version).filterMap RoutingRule.permission

def generatedRouteRoleRules (targets : List PermissionTarget) : List Candidate :=
  let routes := targets.filter fun target => target.role = .route
  routes.flatMap fun source => routes.filterMap fun destination =>
    if source.name = destination.name then none
    else some {
      name := source.name.text ++ " to " ++ destination.name.text
      enabled := true
      sourceInterface := source.name.text
      destinationInterface := destination.name.text
      priority := 30
      generated := true
      policy := some .automatic
      ipFamily := some none }

def savedRule (rule : RoutingRule) : Candidate where
  name := rule.name
  enabled := rule.enabled
  sourceInterface := rule.sourceInterface
  destinationInterface := rule.destinationInterface
  priority := rule.priority
  generated := false
  policy := rule.permission
  ipFamily := rule.family

def shownAction (policies : List Policy) (automatic : Bool) : Action :=
  if .deny ∈ policies then .explicitDeny
  else if .allow ∈ policies then .explicitAllow
  else if automatic then .automaticAllow
  else .automaticDeny

def permissionRow (targets : List PermissionTarget) (rules : List RoutingRule)
    (routingEnabled : Bool) (candidate : Candidate) : Row :=
  let source := byName targets candidate.sourceInterface
  let destination := byName targets candidate.destinationInterface
  let sourceNetworks := targetNetworks source candidate.ipFamily
  let sameInterface := decide (candidate.sourceInterface = candidate.destinationInterface)
  -- the egress interface chooses the gateway, not the IP destination
  let destinationNetworks := if sameInterface then
      sourceNetworks.map fun network => wholeFamily network.family
    else targetNetworks destination candidate.ipFamily
  let common := commonRoutingNetworks sourceNetworks destinationNetworks
  let automatic := !sameInterface && decide (permissionRole source = some .route) &&
    decide (permissionRole destination = some .route)
  let actions := common.map fun version => (version, shownAction
    (activePolicies targets rules candidate.sourceInterface candidate.destinationInterface version)
    automatic)
  let validScope := isPermissionRole (permissionRole source) &&
    isPermissionRole (permissionRole destination) && candidate.ipFamily.isSome &&
    candidate.policy.isSome
  { candidate with
    sourceNetworks := sourceNetworks
    destinationNetworks := destinationNetworks
    effectiveAction := if !routingEnabled || !candidate.enabled then .suspended
      else if common.isEmpty || !validScope then .conflict
      else .actions actions
    familyEffectiveActions := actions }

def routingPermissionRows (targets : List PermissionTarget) (rules : List RoutingRule)
    (routingEnabled : Bool) : List Row :=
  (generatedRouteRoleRules targets ++ rules.map savedRule).map
    (permissionRow targets rules routingEnabled)

end Atlaso.Firewall.PermissionRows
