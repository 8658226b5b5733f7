import Atlaso.Firewall.SourceGroups
import Atlaso.Library.LineText

/-!
Firewall rules between addresses of both families: their validation, their variants for each
family, and the nftables rules that these are written as.

A rendered rule is the list of its parts. Of the conditions of a part only those on addresses
are given a meaning.
-/

namespace Atlaso.Firewall.RuleFamilies

open Library Dictionary IpAddress IpNetwork ItemLists LineText
open TextFields SourceGroups

local instance lawfulChars : LawfulBEq (List Char) := inferInstance

/-- The fields of a rule that validation and rendering read. -/
structure FirewallRule where
  (name direction action protocol source destination destinationPort interfaceName : List Char)
  routingDestinationInterface : List Char
  deriving DecidableEq, Repr

def FIREWALL_DIRECTIONS : List (List Char) := ["input".toList, "forward".toList, "output".toList]

def FIREWALL_ACTIONS : List (List Char) := ["accept".toList, "drop".toList, "reject".toList]

def FIREWALL_PROTOCOLS : List (List Char) :=
  ["any".toList, "tcp".toList, "udp".toList, "icmp".toList]

section Rules

variable (lowering : Lowering)

/-! ### Ports -/

/-- `raw_ports.replace(",", "\n").splitlines()`, stripped and without blanks. -/
def portItems (rawPorts : List Char) : List (List Char) :=
  (((splitFrom [] (rawPorts.map fun c => if c = ',' then '\n' else c)).map strip).filter
    fun item => item ≠ [])

/-- `_valid_port`, where a digit that is no decimal digit makes `int` raise. -/
def validPort (isDigit : Char → Bool) (value : List Char) : Option Bool :=
  if value ≠ [] ∧ value.all isDigit then
    (intOfText value).map fun port => 1 ≤ port ∧ port ≤ 65535
  else some false

/-- What `_validate_ports` says of one port or range. -/
def portErrors (isDigit : Char → Bool) (value : List Char) : Option (List String) :=
  match partition '-' value with
  | (start, some stop) => do
      let first ← validPort isDigit start
      let invalid := ["Port range " ++ String.ofList value ++ " is invalid."]
      if first = false then some invalid
      else
        let last ← validPort isDigit stop
        let reversed := (intOfText start).any fun low => (intOfText stop).any fun high => high < low
        some (if last = false ∨ reversed = true then invalid else [])
  | (port, none) => do
      let valid ← validPort isDigit port
      some (if valid then [] else ["Port " ++ String.ofList value ++ " is invalid."])

def validatePorts (isDigit : Char → Bool) (rawPorts : List Char) : Option (List String) :=
  (portItems rawPorts).foldlM (fun errors value =>
    (portErrors isDigit value).map fun found => errors ++ found) []

def destinationPortErrors (isDigit : Char → Bool) (rawPorts : List Char) : Option (List String) :=
  if strip rawPorts = [] then some [] else validatePorts isDigit rawPorts

def renderPorts (rawPorts : List Char) : List Char :=
  match portItems rawPorts with
  | [] => []
  | [port] => port
  | ports => "\x7b ".toList ++ List.intercalate ", ".toList ports ++ " \x7d".toList

/-! ### Addresses -/

def ruleSources (groups : GroupsById) (value : List Char) : Option (List Char) :=
  let target := sourceGroupReferenceTarget lowering groups [] value
  if target = [] then none
  else some (joinItems (expandSourceGroupEntries lowering groups [] (getItem target groups)))

def ruleAddressValue (groups : GroupsById) (value : List Char) : List Char :=
  let raw := strip value
  if raw = [] then FIREWALL_ANY_SOURCE_GROUP_ID
  else (ruleSources lowering groups raw).getD (lowering.lower raw)

def validateRuleAddressValue (label value : List Char) (groups : GroupsById) : List String :=
  let raw := strip value
  if raw = [] then []
  else
    match ruleSources lowering groups raw with
    | some sources => validateAddressValue lowering label sources
    | none =>
      if looksLikeSourceGroupReference lowering raw then
        [String.ofList label ++ " references a Source Group that does not exist: " ++
          String.ofList raw ++ "."]
      else validateAddressValue lowering label raw

/-- `validate_firewall_rule` without `require_group_addresses`. -/
def validateFirewallRule (isDigit : Char → Bool) (rule : FirewallRule)
    (sourceGroups : List SourceGroup) : Option (List String) := do
  let groups := groupsById sourceGroups
  let errors :=
    (if strip rule.name = [] then ["Rule name is required."] else []) ++
    (if rule.direction ∉ FIREWALL_DIRECTIONS then
      ["Direction must be input, forward, or output."] else []) ++
    (if rule.action ∉ FIREWALL_ACTIONS then ["Action must be accept, drop, or reject."] else []) ++
    (if rule.protocol ∉ FIREWALL_PROTOCOLS then
      ["Protocol must be any, tcp, udp, or icmp."] else []) ++
    (if rule.protocol ∈ ["any".toList, "icmp".toList] ∧ strip rule.destinationPort ≠ [] then
      ["Destination port is only valid for TCP or UDP rules."] else []) ++
    validateRuleAddressValue lowering "Source".toList rule.source groups ++
    validateRuleAddressValue lowering "Destination".toList rule.destination groups
  let ports ← destinationPortErrors isDigit rule.destinationPort
  some (errors ++ ports)

/-! ### Variants -/

/-- Texts that name addresses of the two families. -/
structure FamilyValues where
  (v4 v6 : List (List Char))
  deriving DecidableEq, Repr

def FamilyValues.of (values : FamilyValues) : Family → List (List Char)
  | .v4 => values.v4
  | .v6 => values.v6

def FamilyValues.add (values : FamilyValues) (item : List Char) : Family → FamilyValues
  | .v4 => if item ∈ values.v4 then values else { values with v4 := values.v4 ++ [item] }
  | .v6 => if item ∈ values.v6 then values else { values with v6 := values.v6 ++ [item] }

/-- The loop of `_address_values_by_family`. -/
def collectFamilies : List (List Char) → FamilyValues → FamilyValues
  | [], values => values
  | item :: items, values =>
    if item = FIREWALL_ANY_SOURCE_GROUP_ID then values
    else
      match readNetwork item with
      | some network => collectFamilies items (values.add item network.family)
      | none => collectFamilies items values

def addressValuesByFamily (value : List Char) : FamilyValues :=
  collectFamilies (splitAddressValues lowering value) ⟨[], []⟩

def joinOrAny (values : List (List Char)) : List Char :=
  joinItems (if values = [] then [FIREWALL_ANY_SOURCE_GROUP_ID] else values)

def hasValues (values : FamilyValues) (family : Family) : Bool := values.of family ≠ []

def ruleFamilyVariants (groups : GroupsById) (rule : FirewallRule) : List FirewallRule :=
  let source := addressValuesByFamily lowering (ruleAddressValue lowering groups rule.source)
  let destination :=
    addressValuesByFamily lowering (ruleAddressValue lowering groups rule.destination)
  let both := [Family.v4, Family.v6]
  let families := both.filter fun family => hasValues source family || hasValues destination family
  if families = [] then [rule]
  else families.filterMap fun family =>
    if both.any (hasValues source) && !hasValues source family then none
    else if both.any (hasValues destination) && !hasValues destination family then none
    else some { rule with
      source := joinOrAny (source.of family)
      destination := joinOrAny (destination.of family) }

/-! ### Rendering -/

inductive Part where
  | interface (key name : List Char)
  | icmp
  | sourceAddress (family : Family) (values : List (List Char))
  | destinationAddress (family : Family) (values : List (List Char))
  | destinationPort (protocol ports : List Char)
  | transport (protocol : List Char)
  | verdict (action : List Char)
  | comment (text : List Char)
  deriving DecidableEq, Repr

/-- `_address_expr`, of a direction that the part names: the family is that of the first value. -/
def addressExpr (value : List Char) : Option (Family × List (List Char)) :=
  let values := splitAddressValues lowering value
  values.head?.bind fun first => (readNetwork first).map fun network => (network.family, values)

def addressPart (groups : GroupsById) (part : Family → List (List Char) → Part)
    (value : List Char) : Option (List Part) :=
  let text := ruleAddressValue lowering groups value
  if text = [] ∨ text = FIREWALL_ANY_SOURCE_GROUP_ID then some []
  else (addressExpr lowering text).map fun expression => [part expression.1 expression.2]

def safeComment (value : List Char) : List Char :=
  strip (value.map fun c => if c = '"' then '\'' else c)

def renderRule (groups : GroupsById) (rule : FirewallRule) : Option (List Part) := do
  let protocol := lowering.lower (strip rule.protocol)
  let output : List Part :=
    if rule.routingDestinationInterface = [] then []
    else [.interface "oifname".toList rule.routingDestinationInterface]
  let input : List Part :=
    if strip rule.interfaceName = [] then []
    else [.interface (if rule.direction = "output".toList then "oifname".toList
      else "iifname".toList) (strip rule.interfaceName)]
  let icmp : List Part := if protocol = "icmp".toList then [.icmp] else []
  let source ← addressPart lowering groups .sourceAddress rule.source
  let destination ← addressPart lowering groups .destinationAddress rule.destination
  let ports : List Part :=
    if protocol ∉ ["tcp".toList, "udp".toList] then []
    else if strip rule.destinationPort = [] then [.transport protocol]
    else [.destinationPort protocol (renderPorts rule.destinationPort)]
  some (output ++ input ++ icmp ++ source ++ destination ++ ports ++
    [.verdict rule.action, .comment (safeComment rule.name)])

def renderVariants (groups : GroupsById) (rule : FirewallRule) : Option (List (List Part)) :=
  (ruleFamilyVariants lowering groups rule).mapM (renderRule lowering groups)

end Rules

def familyKey : Family → List Char
  | .v4 => "ip".toList
  | .v6 => "ip6".toList

def addressText (direction : String) (family : Family) (values : List (List Char)) : List Char :=
  familyKey family ++ ' ' :: direction.toList ++ ' ' ::
    match values with
    | [value] => value
    | values => "\x7b ".toList ++ List.intercalate ", ".toList values ++ " \x7d".toList

def Part.text : Part → List Char
  | .interface key name => key ++ " \"".toList ++ name ++ "\"".toList
  | .icmp => "meta l4proto icmp".toList
  | .sourceAddress family values => addressText "saddr" family values
  | .destinationAddress family values => addressText "daddr" family values
  | .destinationPort protocol ports => protocol ++ " dport ".toList ++ ports
  | .transport protocol => "meta l4proto ".toList ++ protocol
  | .verdict action => action
  | .comment name => "comment \"".toList ++ name ++ "\"".toList

def ruleText (parts : List Part) : List Char := List.intercalate [' '] (parts.map Part.text)

/-! ### Packets -/

structure Packet where
  (source destination : Address)
  families : source.family = destination.family

/-- Whether an address is one of those that some texts name. -/
def among (values : List (List Char)) (address : Address) : Bool :=
  values.any fun value => (readNetwork value).any fun network => network.contains address

def Part.admits (packet : Packet) : Part → Bool
  | .sourceAddress family values => packet.source.family = family && among values packet.source
  | .destinationAddress family values =>
    packet.destination.family = family && among values packet.destination
  | _ => true

def meets (packet : Packet) (parts : List Part) : Bool := parts.all (Part.admits packet)

def Part.families : Part → List Family
  | .sourceAddress family values =>
    family :: values.filterMap fun value => (readNetwork value).map Network.family
  | .destinationAddress family values =>
    family :: values.filterMap fun value => (readNetwork value).map Network.family
  | _ => []

/-- The addresses that a text allows: all when it names none. -/
def Allows (lowering : Lowering) (value : List Char) (address : Address) : Prop :=
  (∀ item ∈ splitAddressValues lowering value, item = FIREWALL_ANY_SOURCE_GROUP_ID) ∨
    among (splitAddressValues lowering value) address = true

end Atlaso.Firewall.RuleFamilies
