import Atlaso.Dhcp.ScopeOptions
import Atlaso.Firewall.RoutingRules

/-!
The names of generated firewall rules: those of the DHCP scopes, of the DNS listeners, and of the
managed routing rules.

The names of scopes, listeners and explicit routing rules go into slugs. Other routing rules are
named after the digest of their exact interfaces.
-/

namespace Atlaso.Firewall.RuleNames

open Dhcp.ScopeOptions Library IpAddress ItemLists LineText TextFields
open RoutingRules

local instance lawfulChars : LawfulBEq (List Char) := inferInstance

/-! ### Slugs -/

def isSlugChar (c : Char) : Bool := ('a' ≤ c && c ≤ 'z') || ('0' ≤ c && c ≤ '9')

/-- `re.sub(r"[^a-z0-9]+", "-", text)`; `within` says that the run before was replaced. -/
def dashed (within : Bool) : List Char → List Char
  | [] => []
  | c :: rest =>
    if isSlugChar c then c :: dashed false rest
    else if within then dashed true rest
    else '-' :: dashed true rest

def slug (lowering : Lowering) (value : List Char) : List Char :=
  let text := stripOf '-' (dashed false (lowering.lower (strip value)))
  if text = [] then "dhcp-scope".toList else text

/-! ### Digests -/

def isHex (c : Char) : Bool := ('a' ≤ c && c ≤ 'f') || ('0' ≤ c && c ≤ '9')

structure Sha256 where
  hexdigest : List Char → List Char
  size : ∀ text, (hexdigest text).length = 64
  hexadecimal : ∀ text, ∀ c ∈ hexdigest text, isHex c = true

def routingIdentity (source destination : String) (family : Nat) : List Char :=
  '[' :: (quotePlain source ++ ',' :: (quotePlain destination ++ ',' ::
    (Nat.toDigits 10 family ++ [']'])))

section Names

variable (sha : Sha256) (lowering : Lowering)

def routingGeneratedName (kind : String) (source destination : LinkName) (family : Nat) :
    List Char :=
  kind.toList ++ '-' :: sha.hexdigest (routingIdentity source.text destination.text family)

def routingDefaultDenyName (source destination : LinkName) : Family → List Char
  | .v4 => routingGeneratedName sha "routing-default-deny-ipv4" source destination 4
  | .v6 => routingGeneratedName sha "routing-default-deny-ipv6" source destination 6

def ruleIdentity (id : Option Int) (name : String) : List Char :=
  match id with
  | some id => intText id
  | none => (sha.hexdigest name.toList).take 12

def explicitName (id : Option Int) (name : String) : List Char :=
  "routing-".toList ++ (ruleIdentity sha id name ++ '-' :: (slug lowering name.toList).take 90)

def nameText : RuleName → List Char
  | .isolate source destination => routingGeneratedName sha "isolate" source destination 0
  | .route source destination => routingGeneratedName sha "route" source destination 0
  | .explicit id name => explicitName sha lowering id name
  | .defaultDeny source destination family => routingDefaultDenyName sha source destination family

/-! ### DHCP and DNS -/

/-- A rule that is generated for a scope or a listener. -/
structure ServiceRule where
  (name protocol destinationPort interfaceName : List Char)
  priority : Int
  description : List Char
  deriving DecidableEq, Repr

def dhcpSuffix : Family → List Char
  | .v4 => "-dns-dhcp".toList
  | .v6 => "-dns-dhcpv6".toList

def dhcpRuleName (scope : DhcpScope) : List Char :=
  slug lowering scope.name ++ dhcpSuffix (dhcpScopeAddressFamily lowering scope)

def dhcpRule (index : Nat) (scope : DhcpScope) : ServiceRule where
  name := dhcpRuleName lowering scope
  protocol := "udp".toList
  destinationPort := match dhcpScopeAddressFamily lowering scope with
    | .v4 => "67".toList
    | .v6 => "547".toList
  interfaceName := strip scope.interfaceName
  priority := 20 + index
  description := "Atlaso-managed DNS/DHCP access for DHCP ".toList ++
    (match dhcpScopeAddressFamily lowering scope with
    | .v4 => "IPv4 IP zone "
    | .v6 => "IPv6 IP zone ").toList ++ scope.name ++
    ". DHCP bootstrap traffic is interface-bound and not group-restricted.".toList

def servedScopes (settings : DhcpSettings) (scopes : List DhcpScope) : List DhcpScope :=
  if settings.enabled = false then [] else scopes.filter DhcpScope.enabled

def dhcpFirewallRules (settings : DhcpSettings) (scopes : List DhcpScope) : List ServiceRule :=
  (servedScopes settings scopes).mapIdx fun index scope => dhcpRule lowering (index + 1) scope

structure DnsListeners where
  enabled : Bool
  listenInterface : List Char
  deriving DecidableEq, Repr

def DnsListeners.interfaces (dns : DnsListeners) : List (List Char) :=
  if dns.enabled = false then [] else lineItems dns.listenInterface

def dnsProtocols : List (List Char) := ["tcp".toList, "udp".toList]

def dnsRuleName (interface protocol : List Char) : List Char :=
  slug lowering interface ++ ("-dns-".toList ++ protocol)

def dnsRule (index offset : Nat) (interface protocol : List Char) : ServiceRule where
  name := dnsRuleName lowering interface protocol
  protocol := protocol
  destinationPort := "53".toList
  interfaceName := interface
  priority := 40 + index * 2 + offset
  description := "Atlaso-managed DNS access for DNS listener ".toList ++ interface ++ ['.']

def dnsFirewallRules (dns : DnsListeners) : List ServiceRule :=
  (dns.interfaces.mapIdx fun index interface =>
    dnsProtocols.mapIdx fun offset protocol =>
      dnsRule lowering (index + 1) offset interface protocol).flatten

/-! ### All names -/

/-- `rule.name.strip().lower()` -/
def normalizedName (name : List Char) : List Char := lowering.lower (strip name)

/-- The check for names that are used twice in `validate_firewall_state`. -/
def duplicateErrors (seen : List (List Char)) : List (List Char) → List (List Char)
  | [] => []
  | name :: names =>
    let normalized := normalizedName lowering name
    (if normalized ∈ seen then
      ["Firewall rule ".toList ++ name ++ " is duplicated.".toList] else []) ++
    duplicateErrors (normalized :: seen) names

def generatedNames (settings : DhcpSettings) (scopes : List DhcpScope) (dns : DnsListeners)
    (routing : List FirewallRule) : List (List Char) :=
  (dhcpFirewallRules lowering settings scopes).map ServiceRule.name ++
    (dnsFirewallRules lowering dns).map ServiceRule.name ++
    routing.map fun rule => nameText sha lowering rule.name

end Names

end Atlaso.Firewall.RuleNames
