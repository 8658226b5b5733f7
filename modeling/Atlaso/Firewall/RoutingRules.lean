import Atlaso.Library.Dictionary
import Atlaso.Library.IpNetwork
import Mathlib.Data.List.Sort

/-!
The managed routing rules of `services/firewall.py` and the forward chain that
`render_nftables_config` makes of them.

A link has a kernel name, so `str.strip` leaves it as it is. The name of a rule is written as
the values that its text is made from. A line of the chain is its list of nftables conditions
with its verdict; comments are left out. Operator rules are not part of the chain.
-/

namespace Atlaso.Firewall.RoutingRules

open Library Dictionary IpAddress IpNetwork TextFields

/-! ### Targets -/

/-- The name of a network link: not empty, without white space. -/
structure LinkName where
  text : String
  plain : text ≠ "" ∧ text.toList.all (fun c => !isWhitespace c) = true
  deriving DecidableEq

inductive Role where
  | management | access | route | unused
  deriving DecidableEq, Repr

/-- `(value or "unused").strip().lower()`; only words of ASCII letters are compared with it. -/
def normalized (value : Option String) : String :=
  let text := match value with
    | none => "unused"
    | some text => if text = "" then "unused" else text
  String.ofList ((strip text.toList).map Char.toLower)

def normalizeInterfaceRole (role : Option String) : Role :=
  let value := normalized role
  if value = "services" ∨ value = "storage" then .access
  else if value = "management" then .management
  else if value = "access" then .access
  else if value = "route" then .route
  else .unused

/-- `normalize_interface_mode(mode) == "trunk"`. -/
def isTrunk (mode : Option String) : Bool := normalized mode = "trunk"

structure PhysicalInterface where
  name : LinkName
  operState : String
  (mode role ipCidr ipv6Cidr : Option String)

structure VlanInterface where
  name : LinkName
  enabled : Bool
  (role ipCidr ipv6Cidr : Option String)

def networkFromCidr (value : Option String) : Option Network := value.bind ipNetwork

def networksFromCidrs (ipCidr ipv6Cidr : Option String) : List Network :=
  [ipCidr, ipv6Cidr].foldl (fun networks value =>
    match networkFromCidr value with
    | some network => if network ∈ networks then networks else networks ++ [network]
    | none => networks) []

structure Target where
  name : LinkName
  role : Role
  networks : List Network
  deriving DecidableEq

def physicalTarget (interface : PhysicalInterface) : Option Target :=
  if interface.operState = "missing" ∨ isTrunk interface.mode then none
  else
    let networks := networksFromCidrs interface.ipCidr interface.ipv6Cidr
    if networks.isEmpty then none
    else some ⟨interface.name, normalizeInterfaceRole interface.role, networks⟩

def vlanTarget (vlan : VlanInterface) : Option Target :=
  if vlan.enabled = false then none
  else
    let networks := networksFromCidrs vlan.ipCidr vlan.ipv6Cidr
    if networks.isEmpty then none
    else some ⟨vlan.name, normalizeInterfaceRole vlan.role, networks⟩

def routingFirewallTargets (interfaces : List PhysicalInterface) (vlans : List VlanInterface) :
    List Target :=
  interfaces.filterMap physicalTarget ++ vlans.filterMap vlanTarget

/-! ### Managed rules -/

inductive Verdict where
  | accept | drop
  deriving DecidableEq, Repr

inductive Phase where
  | isolation | automatic | allow | deny
  deriving DecidableEq, Repr

inductive RuleName where
  | isolate (source destination : LinkName)
  | route (source destination : LinkName)
  | explicit (id : Option Int) (name : String)
  | defaultDeny (source destination : LinkName) (family : Family)
  deriving DecidableEq

/-- A generated rule. An empty list of networks stands for any address. -/
structure FirewallRule where
  name : RuleName
  phase : Phase
  action : Verdict
  inputInterface : LinkName
  outputInterface : Option LinkName
  (source destination : List Network)
  priority : Int
  deriving DecidableEq

def hasFamily (networks : List Network) (family : Family) : Bool :=
  networks.any fun network => network.family = family

def commonRoutingNetworks (source destination : List Network) : List Family :=
  [Family.v4, Family.v6].filter fun family => hasFamily source family && hasFamily destination family

def routingFirewallRule (name : RuleName) (phase : Phase) (action : Verdict)
    (inputInterface : LinkName) (outputInterface : Option LinkName)
    (sourceNetworks destinationNetworks : List Network) (priority : Int) : FirewallRule :=
  let common := commonRoutingNetworks sourceNetworks destinationNetworks
  { name, phase, action, inputInterface, outputInterface, priority
    source := sourceNetworks.filter fun network => network.family ∈ common
    destination := destinationNetworks.filter fun network => network.family ∈ common }

def isolationRule (source destination : Target) : FirewallRule :=
  routingFirewallRule (.isolate source.name destination.name) .isolation .drop source.name none
    source.networks destination.networks (-100)

def isolationRules (targets : List Target) : List FirewallRule :=
  (targets.filter fun target => target.role ≠ .management).flatMap fun lab =>
    (targets.filter fun target => target.role = .management).flatMap fun management =>
      if (commonRoutingNetworks lab.networks management.networks).isEmpty then []
      else [isolationRule lab management, isolationRule management lab]

def automaticRules (targets : List Target) : List FirewallRule :=
  let routes := targets.filter fun target => target.role = .route
  routes.flatMap fun source => routes.flatMap fun destination =>
    if source.name = destination.name ∨
        (commonRoutingNetworks source.networks destination.networks).isEmpty then []
    else [routingFirewallRule (.route source.name destination.name) .automatic .accept source.name
      (some destination.name) source.networks destination.networks 30]

structure RoutingRule where
  id : Option Int
  name : String
  enabled : Bool
  (sourceInterface destinationInterface : String)
  policy : Option String
  ipFamily : Option Int
  priority : Int

inductive Policy where
  | automatic | allow | deny
  deriving DecidableEq, Repr

def RoutingRule.permission (rule : RoutingRule) : Option Policy :=
  match rule.policy.getD "allow" with
  | "automatic" => some .automatic
  | "allow" => some .allow
  | "deny" => some .deny
  | _ => none

def RoutingRule.family (rule : RoutingRule) : Option (Option Family) :=
  match rule.ipFamily.getD 0 with
  | 0 => some none
  | 4 => some (some .v4)
  | 6 => some (some .v6)
  | _ => none

def ofFamily (family : Option Family) (networks : List Network) : List Network :=
  match family with
  | none => networks
  | some family => networks.filter fun network => network.family = family

def targetNamed (targets : List Target) (name : String) : Option Target :=
  getItem name (ofPairs (targets.map fun target => (target.name.text, target)))

def permitsRouting (target : Target) : Bool := target.role = .route || target.role = .access

def destinationNetworks (source destination : Target) (sourceNetworks : List Network)
    (family : Option Family) : List Network :=
  if source.name = destination.name then
    sourceNetworks.map fun network => wholeFamily network.family
  else ofFamily family destination.networks

/-- The families that an explicit rule is effective for. -/
def commonOf (family : Option Family) (source destination : Target) : List Family :=
  commonRoutingNetworks (ofFamily family source.networks)
    (destinationNetworks source destination (ofFamily family source.networks) family)

def explicitRule (rule : RoutingRule) (phase : Phase) (action : Verdict) (family : Option Family)
    (source destination : Target) : FirewallRule :=
  routingFirewallRule (.explicit rule.id rule.name) phase action source.name
    (some destination.name) (ofFamily family source.networks)
    (destinationNetworks source destination (ofFamily family source.networks) family) rule.priority

structure Permissions where
  rules : List FirewallRule
  allowed : List (LinkName × LinkName × Family)

def addPermission (state : Permissions) (rule : RoutingRule) (policy : Policy)
    (family : Option Family) (source destination : Target) : Permissions :=
  if (commonOf family source destination).isEmpty then state
  else
    match policy with
    | .automatic => state
    | .allow => ⟨state.rules ++ [explicitRule rule .allow .accept family source destination],
        state.allowed ++ (commonOf family source destination).map fun family =>
          (source.name, destination.name, family)⟩
    | .deny => ⟨state.rules ++ [explicitRule rule .deny .drop family source destination],
        state.allowed⟩

def applyRoutingRule (targets : List Target) (state : Permissions) (rule : RoutingRule) :
    Except String Permissions :=
  if rule.enabled = false then .ok state
  else
    match rule.permission, rule.family with
    | some policy, some family =>
      match targetNamed targets rule.sourceInterface,
        targetNamed targets rule.destinationInterface with
      | some source, some destination =>
        if permitsRouting source && permitsRouting destination then
          .ok (addPermission state rule policy family source destination)
        else .ok state
      | _, _ => .ok state
    | _, _ => .error "Invalid routing permission policy or family."

def deniedDestinations (source destination : Target) (family : Family) : List Network :=
  if source.name = destination.name then [wholeFamily family]
  else ofFamily (some family) destination.networks

def defaultDenyRule (source destination : Target) (family : Family) : FirewallRule :=
  routingFirewallRule (.defaultDeny source.name destination.name family) .deny .drop source.name
    (some destination.name) (ofFamily (some family) source.networks)
    (deniedDestinations source destination family) 30

def defaultDeny (allowed : List (LinkName × LinkName × Family)) (source destination : Target)
    (family : Family) : List FirewallRule :=
  if (source.name, destination.name, family) ∈ allowed ∨
      (ofFamily (some family) source.networks).isEmpty ∨
      (deniedDestinations source destination family).isEmpty then []
  else [defaultDenyRule source destination family]

def defaultDenies (targets : List Target) (allowed : List (LinkName × LinkName × Family)) :
    List FirewallRule :=
  let permitted := targets.filter permitsRouting
  permitted.flatMap fun source => permitted.flatMap fun destination =>
    if source.name ≠ destination.name ∧ source.role = .route ∧ destination.role = .route then []
    else [Family.v4, Family.v6].flatMap (defaultDeny allowed source destination)

def managedRoutingFirewallRules (interfaces : List PhysicalInterface) (vlans : List VlanInterface)
    (routingRules : List RoutingRule) (routingEnabled : Bool) :
    Except String (List FirewallRule) :=
  let targets := routingFirewallTargets interfaces vlans
  let isolation := isolationRules targets
  if routingEnabled = false then .ok isolation
  else do
    let permissions ← routingRules.foldlM (applyRoutingRule targets)
      ⟨isolation ++ automaticRules targets, []⟩
    .ok (permissions.rules ++ defaultDenies targets permissions.allowed)

/-! ### The forward chain -/

structure FirewallSettings where
  enabled : Bool
  defaultForwardPolicy : Verdict
  (allowEstablished allowIcmp logDropped : Bool)

/-- A match expression of nftables. -/
inductive Condition where
  | outputName (name : LinkName)
  | inputName (name : LinkName)
  | sourceIn (networks : List Network)
  | destinationIn (networks : List Network)
  | notTranslated | notManaged | established
  | protocol (number : Nat)
  deriving DecidableEq

structure Line where
  conditions : List Condition
  verdict : Option Verdict
  deriving DecidableEq

structure Chain where
  policy : Verdict
  lines : List Line

def ruleFamilyVariants (rule : FirewallRule) : List FirewallRule :=
  let families := [Family.v4, Family.v6].filter fun family =>
    hasFamily rule.source family || hasFamily rule.destination family
  if families.isEmpty then [rule]
  else families.filterMap fun family =>
    if (!rule.source.isEmpty && !hasFamily rule.source family) ||
        (!rule.destination.isEmpty && !hasFamily rule.destination family) then none
    else some { rule with
      source := (ofFamily (some family) rule.source).dedup
      destination := (ofFamily (some family) rule.destination).dedup }

def renderRule (rule : FirewallRule) : List Condition :=
  rule.outputInterface.toList.map .outputName ++ [.inputName rule.inputInterface] ++
    (if rule.source.isEmpty then [] else [.sourceIn rule.source]) ++
    (if rule.destination.isEmpty then [] else [.destinationIn rule.destination])

def isGatewayDenial (rule : FirewallRule) : Bool :=
  rule.phase = .deny && some rule.inputInterface = rule.outputInterface &&
    match rule.name with
    | .defaultDeny _ _ _ => true
    | _ => false

def preludeLines (rule : FirewallRule) : List Line :=
  (ruleFamilyVariants rule).flatMap fun variant =>
    let conditions := renderRule variant
    if isGatewayDenial rule then
      [⟨.notTranslated :: conditions, some rule.action⟩, ⟨.notManaged :: conditions, some rule.action⟩]
    else [⟨conditions, some rule.action⟩]

def plainLines (rule : FirewallRule) : List Line :=
  (ruleFamilyVariants rule).map fun variant => ⟨renderRule variant, some rule.action⟩

def isPrelude (rule : FirewallRule) : Bool := rule.phase = .deny || rule.phase = .isolation

def byPriority (rules : List FirewallRule) : List FirewallRule :=
  rules.insertionSort fun left right => left.priority ≤ right.priority

/-- The forward chain of `render_nftables_config`; a disabled firewall has no chain. -/
def forwardChain (settings : FirewallSettings) (generated : List FirewallRule) : Option Chain :=
  if settings.enabled = false then none
  else some
    { policy := settings.defaultForwardPolicy
      lines := (byPriority (generated.filter isPrelude)).flatMap preludeLines ++
        (if settings.allowEstablished then [⟨[.established], some .accept⟩] else []) ++
        (if settings.allowIcmp then [⟨[.protocol 1], some .accept⟩, ⟨[.protocol 58], some .accept⟩]
          else []) ++
        (byPriority (generated.filter fun rule => !isPrelude rule)).flatMap plainLines ++
        (if settings.logDropped && settings.defaultForwardPolicy = .drop then [⟨[], none⟩] else []) }

/-! ### Packets -/

/-- A forwarded packet. `translated` is the DNAT bit of its connection and `mark` its
connection mark. -/
structure Packet where
  (input output : LinkName)
  (source destination : Address)
  families : source.family = destination.family
  protocol : Nat
  (established translated : Bool)
  mark : Nat

def Condition.holds (packet : Packet) : Condition → Bool
  | .outputName name => packet.output = name
  | .inputName name => packet.input = name
  | .sourceIn networks => networks.any fun network => network.contains packet.source
  | .destinationIn networks => networks.any fun network => network.contains packet.destination
  | .notTranslated => !packet.translated
  | .notManaged => packet.mark &&& 0xff000000 ≠ 0xa7000000
  | .established => packet.established
  | .protocol number => packet.protocol = number

def Line.judge (packet : Packet) (line : Line) : Option Verdict :=
  if line.conditions.all (Condition.holds packet) then line.verdict else none

def Chain.verdict (chain : Chain) (packet : Packet) : Verdict :=
  (chain.lines.findSome? (Line.judge packet)).getD chain.policy

def forward (settings : FirewallSettings) (generated : List FirewallRule) (packet : Packet) :
    Verdict :=
  match forwardChain settings generated with
  | none => .accept
  | some chain => chain.verdict packet

end Atlaso.Firewall.RoutingRules
