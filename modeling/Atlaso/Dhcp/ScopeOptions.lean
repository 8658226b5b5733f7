import Atlaso.Library.IpNetwork
import Atlaso.Library.ItemLists
import Atlaso.Library.LineText

/-!
The DHCP part of the dnsmasq configuration: the scopes and their validation, and the directives
that are rendered for scopes, options, network boot and reservations.

A directive is what it sets and what it requires, next to its text. Every line carries what it is
rendered for.
-/

namespace Atlaso.Dhcp.ScopeOptions

open Library Dictionary IpAddress IpNetwork ItemLists LineText
open TextFields

local instance lawfulChars : LawfulBEq (List Char) := inferInstance

/-- What the characters of names and numbers are asked for. -/
structure Classes where
  (isAlnum isDigit : Char → Bool)

structure DhcpSettings where
  enabled : Bool
  (interfaceName siteAddress : List Char)
  prefixLength : Int
  (leaseTime domainName dnsServer : List Char)
  deriving DecidableEq, Repr

structure DhcpScope where
  id : Int
  (name addressFamily interfaceName siteAddress : List Char)
  prefixLength : Int
  (rangeExpression leaseTime domainName dnsServer ntpServer : List Char)
  enabled : Bool
  deriving DecidableEq, Repr

structure DhcpOption where
  scopeId : Option Int
  (optionCode value : List Char)
  enabled : Bool
  deriving DecidableEq, Repr

structure DhcpReservation where
  (hostname macAddress ipAddress description : List Char)
  enabled : Bool
  deriving DecidableEq, Repr

structure BootScope where
  id : Int
  (name addressFamily siteAddress interfaceName : List Char)
  deriving DecidableEq, Repr

structure EsxiPxeBoot where
  enabled : Bool
  hostname : List Char
  nativeUefiHttpEnabled : Bool
  httpPort : Int
  dhcpScopes : List BootScope
  dhcpScopeId : Option Int
  (listenAddress listenInterface : List Char)
  /-- Tag and MAC address of each host. -/
  hostBootfiles : List (List Char × List Char)
  (uefiBootfile biosBootfile tftpRoot : List Char)
  deriving DecidableEq, Repr

structure DnsSettings where
  domain : List Char
  authoritative : Bool
  deriving DecidableEq, Repr

/-- What the DHCP part is rendered from. The scopes are rows of one table. -/
structure DhcpState where
  settings : DhcpSettings
  dns : DnsSettings
  scopes : List DhcpScope
  options : List DhcpOption
  reservations : List DhcpReservation
  boot : Option EsxiPxeBoot
  distinct : (scopes.map DhcpScope.id).Nodup

/-! ### Addresses -/

structure ZonedAddress where
  address : Address
  zone : Option (List Char)
  deriving DecidableEq, Repr

/-- `ip_address(text)` -/
def readAddress (text : List Char) : Option ZonedAddress :=
  match parseV4 text with
  | some value => some ⟨.v4 value, none⟩
  | none =>
    match partition '%' text with
    | (plain, none) => (parseV6 plain).map fun value => ⟨.v6 value, none⟩
    | (plain, some zone) =>
      if zone = [] ∨ '%' ∈ zone ∨ '/' ∈ zone then none
      else (parseV6 plain).map fun value => ⟨.v6 value, some zone⟩

def ZonedAddress.text (zoned : ZonedAddress) : List Char :=
  zoned.address.text.toList ++ zoned.zone.elim [] fun zone => '%' :: zone

def intText (value : Int) : List Char := (toString value).toList

/-- `ip_network(f"{address}/{prefix_length}", strict=False)` -/
def networkAround (address : List Char) (prefixLength : Int) : Option Network :=
  ipNetwork (String.ofList (address ++ '/' :: intText prefixLength))

def addressOf : Family → Nat → Address
  | .v4, value => .v4 (BitVec.ofNat 32 value)
  | .v6, value => .v6 (BitVec.ofNat 128 value)

/-- `network.network_address` -/
def firstAddress (network : Network) : Address :=
  addressOf network.family (network.leading * 2 ^ (network.family.width - network.bits))

/-- `network.broadcast_address` -/
def lastAddress (network : Network) : Address :=
  addressOf network.family
    ((network.leading + 1) * 2 ^ (network.family.width - network.bits) - 1)

def withPrefixlen (network : Network) : List Char :=
  (firstAddress network).text.toList ++ '/' :: Nat.toDigits 10 network.bits

section Names

variable (classes : Classes) (lowering : Lowering)

/-! ### Ranges -/

def dhcpScopeAddressFamily (scope : DhcpScope) : Family :=
  let family := lowering.lower (strip scope.addressFamily)
  if family = "ipv4".toList then .v4
  else if family = "ipv6".toList then .v6
  else ((readAddress scope.siteAddress).map fun zoned => zoned.address.family).getD .v4

def dhcpScopeNetwork (scope : DhcpScope) : Option Network :=
  networkAround scope.siteAddress scope.prefixLength

def parseCompactIpv4Endpoint (value : List Char) (start : ZonedAddress) : Option ZonedAddress :=
  let parts := splitAt '.' value
  if 4 < parts.length ∨ parts.any (fun part => part = [] || !part.all classes.isDigit) then none
  else
    let merged :=
      if parts.length = 4 then value
      else List.intercalate ['.']
        ((splitAt '.' start.text).take (4 - parts.length) ++ parts)
    (parseV4 merged).map fun address => ⟨.v4 address, none⟩

abbrev Range := ZonedAddress × ZonedAddress

def scopeLabel (scope : DhcpScope) : List Char := "DHCP IP zone ".toList ++ scope.name

def readRange (scope : DhcpScope) (part : List Char) : Except (List Char) Range :=
  let label := scopeLabel scope ++ " range ".toList ++ part
  let family := dhcpScopeAddressFamily lowering scope
  let (startText, stop) := partition '-' part
  let startText := strip startText
  let endText := stop.elim startText strip
  match readAddress startText with
  | none => .error (label ++ " has an invalid start address.".toList)
  | some start =>
    let last := match start.address with
      | .v4 _ => parseCompactIpv4Endpoint classes endText start
      | .v6 _ => readAddress endText
    match last with
    | none => .error (label ++ " has an invalid end address.".toList)
    | some last =>
      if start.address.family ≠ family ∨ last.address.family ≠ family then
        .error (label ++ (match family with
          | .v6 => " must use IPv6 addresses."
          | .v4 => " must use IPv4 addresses.").toList)
      else
        match (dhcpScopeNetwork scope).filter fun network =>
            !(network.contains start.address && network.contains last.address) with
        | some network =>
          .error (label ++ " must stay inside ".toList ++ withPrefixlen network ++ ['.'])
        | none =>
          if last.address.number < start.address.number then
            .error (label ++ " start must be less than or equal to end.".toList)
          else .ok (start, last)

/-- The loop of `parse_dhcp_range_expression`. -/
def readRanges (scope : DhcpScope) : List (List Char) → List (List Char) × List Range
  | [] => ([], [])
  | raw :: rest =>
    let (errors, ranges) := readRanges scope rest
    let part := strip raw
    if part = [] then (errors, ranges)
    else
      match readRange classes lowering scope part with
      | .error error => (error :: errors, ranges)
      | .ok range => (errors, range :: ranges)

def parseDhcpRangeExpression (scope : DhcpScope) : List (List Char) × List Range :=
  let expression := strip scope.rangeExpression
  let required := [scopeLabel scope ++ " range is required.".toList]
  if expression = [] then (required, [])
  else
    let (errors, ranges) := readRanges classes lowering scope (splitAt ',' expression)
    if ranges = [] ∧ errors = [] then (required, ranges) else (errors, ranges)

/-! ### Validation -/

def validateIp (value label : List Char) (version : Option Family) :
    List (List Char) × Option ZonedAddress :=
  match readAddress value with
  | none => ([label ++ " is not a valid IP address.".toList], none)
  | some parsed =>
    match version with
    | none => ([], some parsed)
    | some family =>
      if parsed.address.family ≠ family then
        ([label ++ " must be an IPv".toList ++ Nat.toDigits 10 family.version ++
          " address.".toList], none)
      else ([], some parsed)

def unusableServer (network : Option Network) (zoned : ZonedAddress) : Bool :=
  let address := zoned.address
  isLoopback address || isUnspecified address || isMulticast address || isLinkLocal address ||
    (match address with
    | .v4 value => value.toNat / 2 ^ 24 = 0 || value.toNat = 2 ^ 32 - 1
    | .v6 value => (mappedV4 value).isSome || value.toNat / 2 ^ 32 = 0 ||
        value.toNat / 2 ^ 64 = 0x100 * 2 ^ 48) ||
    network.any fun network => zoned = ⟨firstAddress network, none⟩ ||
      address.family = .v4 && zoned = ⟨lastAddress network, none⟩

def validateDhcpScope (scope : DhcpScope) : List (List Char) × Option Network :=
  let label := scopeLabel scope
  let family := dhcpScopeAddressFamily lowering scope
  let named := if strip scope.name = [] then ["DHCP IP zone name is required.".toList] else []
  let (siteErrors, site) := validateIp scope.siteAddress (label ++ " gateway".toList) (some family)
  let ranges := (parseDhcpRangeExpression classes lowering scope).1
  let (dnsErrors, dns) := validateIp scope.dnsServer (label ++ " DNS server".toList) (some family)
  let (ntpErrors, ntp) := if scope.ntpServer = [] then ([], none)
    else validateIp scope.ntpServer (label ++ " NTP server".toList) (some family)
  let network := site.bind fun site => networkAround site.text scope.prefixLength
  let networkErrors := if site.isSome ∧ network.isNone then
    [label ++ " prefix length is not valid.".toList] else []
  let prefixErrors := if 1 ≤ scope.prefixLength ∧ scope.prefixLength ≤ family.width then []
    else [label ++ " IPv".toList ++ Nat.toDigits 10 family.version ++
      " prefix length must be between 1 and ".toList ++ Nat.toDigits 10 family.width ++ ['.']]
  let servers := [("DNS".toList, dns), ("NTP".toList, ntp)].flatMap fun server =>
    if server.2.any (unusableServer network) then
      [label ++ ' ' :: server.1 ++ " server must be a usable unicast IPv".toList ++
        Nat.toDigits 10 family.version ++ " address.".toList]
    else []
  (named ++ siteErrors ++ ranges ++ dnsErrors ++ ntpErrors ++ networkErrors ++ prefixErrors ++
    servers, network)

def legacyScope (settings : DhcpSettings) : DhcpScope where
  id := 0
  name := "SiteA".toList
  addressFamily := "ipv4".toList
  interfaceName := settings.interfaceName
  siteAddress := settings.siteAddress
  prefixLength := settings.prefixLength
  rangeExpression := []
  leaseTime := settings.leaseTime
  domainName := settings.domainName
  dnsServer := settings.dnsServer
  ntpServer := []
  enabled := settings.enabled

/-- `scopes if scopes else [_legacy_scope(settings)]` -/
def DhcpState.scopeRows (state : DhcpState) : List DhcpScope :=
  if state.scopes = [] then [legacyScope state.settings] else state.scopes

def reservationErrors (networks : List Network) (reservation : DhcpReservation) :
    List (List Char) :=
  if reservation.enabled = false then []
  else
    let label := "reservation ".toList ++ reservation.hostname
    let (errors, reserved) := validateIp reservation.ipAddress label none
    errors ++ if networks ≠ [] ∧ reserved.any (fun zoned =>
        !networks.any fun network => network.contains zoned.address) = true then
      [label ++ " must be inside an enabled DHCP IP zone.".toList] else []

def optionErrors (scopeIds : List Int) (option : DhcpOption) : List (List Char) :=
  if option.enabled = false then []
  else
    let label := option.scopeId.elim "global DHCP option".toList fun id =>
      "DHCP option for scope ".toList ++ intText id
    (if option.scopeId.any fun id => decide (id ∉ scopeIds) then
      [label ++ " references a missing DHCP IP zone.".toList] else []) ++
    (if strip option.optionCode = [] then [label ++ " code is required.".toList] else []) ++
    if strip option.value = [] then [label ++ " value is required.".toList] else []

def validateDhcpSettings (state : DhcpState) : List (List Char) :=
  if state.settings.enabled = false then []
  else
    let rows := state.scopeRows
    let networks := rows.filterMap fun scope =>
      if scope.enabled then (validateDhcpScope classes lowering scope).2 else none
    (if rows.filter DhcpScope.enabled = [] then
      ["DHCP must have at least one enabled IP zone when the service is enabled.".toList] else []) ++
    rows.flatMap (fun scope => (validateDhcpScope classes lowering scope).1) ++
    state.reservations.flatMap (reservationErrors networks) ++
    state.options.flatMap (optionErrors (rows.map DhcpScope.id))

/-! ### Names -/

/-- `text.strip(c)` of one character. -/
def stripOf (c : Char) (text : List Char) : List Char :=
  ((text.dropWhile (· = c)).reverse.dropWhile (· = c)).reverse

def dnsmasqTag (value : List Char) : List Char :=
  let normalized := (strip value).flatMap fun c =>
    if classes.isAlnum c then lowering.lower [c] else ['-']
  let tag := stripOf '-' normalized
  if tag = [] then "scope".toList else tag

def orderedUnique (values : List (List Char)) : List (List Char) :=
  values.foldl (fun result value =>
    if value = [] ∨ value ∈ result then result else result ++ [value]) []

/-- `raw.replace(",", "\n").splitlines()`, stripped and without blanks. -/
def lineItems (raw : List Char) : List (List Char) :=
  ((splitFrom [] (raw.map fun c => if c = ',' then '\n' else c)).map strip).filter
    fun item => item ≠ []

/-- `name.strip().strip(".").lower()` -/
def normalName (name : List Char) : List Char := lowering.lower (stripOf '.' (strip name))

/-- `split_domains(dns_settings.domain) or ["atlaso.internal"]` -/
def managedDomains (dns : DnsSettings) : List (List Char) :=
  let domains := orderedUnique ((lineItems dns.domain).map (normalName lowering))
  if domains = [] then ["atlaso.internal".toList] else domains

/-- `scope.domain_name or domains[0]` -/
def scopeDomain (dns : DnsSettings) (scope : DhcpScope) : List Char :=
  if scope.domainName ≠ [] then scope.domainName else (managedDomains lowering dns).headD []

/-! ### Directives -/

/-- What a line is rendered for. -/
inductive Origin where
  | service
  | scope (id : Int)
  | host | reservation
  deriving DecidableEq, Repr

/-- A tag that a client must have, or must not have. -/
inductive Condition where
  | tag (name : List Char)
  | notTag (name : List Char)
  deriving DecidableEq, Repr

inductive Directive where
  | plain (text : List Char)
  | range (tag : List Char) (fields : List (List Char))
  | sets (keyword tag text : List Char)
  | option (conditions : List Condition) (text : List Char)
  | boot (conditions : List Condition) (text : List Char)
  | host (macAddress : List Char) (tag : Option (List Char)) (fields : List (List Char))
  | ignoreNames (tag : List Char)
  deriving DecidableEq, Repr

structure Line where
  origin : Origin
  directive : Directive
  deriving DecidableEq, Repr

def Condition.text : Condition → List Char
  | .tag name => "tag:".toList ++ name
  | .notTag name => "tag:!".toList ++ name

def commaText (fields : List (List Char)) : List Char := List.intercalate [','] fields

def Directive.text : Directive → List Char
  | .plain text => text
  | .range tag fields => "dhcp-range=".toList ++ commaText (("set:".toList ++ tag) :: fields)
  | .sets keyword tag text => keyword ++ "=set:".toList ++ tag ++ ',' :: text
  | .option conditions text =>
    "dhcp-option=".toList ++ commaText (conditions.map Condition.text ++ [text])
  | .boot conditions text =>
    "dhcp-boot=".toList ++ commaText (conditions.map Condition.text ++ [text])
  | .host macAddress tag fields => "dhcp-host=".toList ++ commaText (macAddress ::
      (tag.map fun tag => "set:".toList ++ tag).toList ++ fields)
  | .ignoreNames tag => "dhcp-ignore-names=tag:".toList ++ tag

/-! ### Network boot -/

structure BootEntry where
  origin : Origin
  tag : Option (List Char)
  (address interfaceName : List Char)
  deriving DecidableEq, Repr

def scopeTags (state : DhcpState) : List (Int × List Char) :=
  ofPairs (state.scopeRows.map fun scope => (scope.id, dnsmasqTag classes lowering scope.name))

def selectedScopes (boot : EsxiPxeBoot) : List BootScope :=
  boot.dhcpScopes.filter fun selected =>
    lowering.lower (if selected.addressFamily = [] then "ipv4".toList
      else selected.addressFamily) = "ipv4".toList

def selectedEntry (state : DhcpState) (selected : BootScope) : BootEntry where
  origin := .scope selected.id
  tag := some ((getItem selected.id (scopeTags classes lowering state)).getD
    (dnsmasqTag classes lowering selected.name))
  address := strip selected.siteAddress
  interfaceName := strip selected.interfaceName

def fallbackEntry (state : DhcpState) (boot : EsxiPxeBoot) : BootEntry :=
  let tag := boot.dhcpScopeId.bind fun id => getItem id (scopeTags classes lowering state)
  let selected := boot.dhcpScopeId.bind fun id => state.scopeRows.find? fun scope => scope.id = id
  { origin := match boot.dhcpScopeId, tag with
      | some id, some _ => .scope id
      | _, _ => .service
    tag := tag
    address := (lineItems boot.listenAddress).headD []
    interfaceName := (lineItems boot.listenInterface).headD
      (selected.elim [] fun scope => strip scope.interfaceName) }

def pxeScopeEntries (state : DhcpState) (boot : EsxiPxeBoot) : List BootEntry :=
  let entries := (selectedScopes lowering boot).map (selectedEntry classes lowering state)
  if entries = [] then [fallbackEntry classes lowering state boot] else entries

def bracketed (address : List Char) : List Char :=
  if ':' ∈ address ∧ address.head? ≠ some '[' then '[' :: address ++ [']'] else address

def httpPort (boot : EsxiPxeBoot) : List Char :=
  intText (if boot.httpPort = 0 then 8080 else boot.httpPort)

def BootEntry.conditions (entry : BootEntry) (others : List Condition) : List Condition :=
  (entry.tag.map Condition.tag).toList ++ others

def hostLines (boot : EsxiPxeBoot) : List Line :=
  boot.hostBootfiles.filterMap fun host =>
    let tag := strip host.1
    let macAddress := strip host.2
    if tag ≠ [] ∧ macAddress ≠ [] then
      some ⟨.host, .sets "dhcp-mac".toList tag macAddress⟩
    else none

def nativeLine (boot : EsxiPxeBoot) (entry : BootEntry) : Option Line :=
  if entry.address = [] then none
  else
    let bootfile := if boot.uefiBootfile = [] then "snponly.efi".toList else boot.uefiBootfile
    some ⟨entry.origin, .boot
      (entry.conditions [.tag "uefi-http".toList, .tag "uefi-http-x64".toList])
      ("http://".toList ++ bracketed entry.address ++ ':' :: httpPort boot ++
        "/pxe/esxi/".toList ++ bootfile)⟩

def nativeLines (boot : EsxiPxeBoot) (entries : List BootEntry) : List Line :=
  let native := entries.filterMap (nativeLine boot)
  if boot.nativeUefiHttpEnabled = false ∨ native = [] then []
  else
    ⟨.service, .sets "dhcp-vendorclass".toList "uefi-http".toList "HTTPClient".toList⟩ ::
    ⟨.service, .sets "dhcp-match".toList "uefi-http-x64".toList
      "option:client-arch,16".toList⟩ :: native

def tftpLines (boot : EsxiPxeBoot) (entries : List BootEntry) : List Line :=
  let interfaces := orderedUnique (entries.map BootEntry.interfaceName)
  [⟨.service, .plain (if interfaces = [] then "enable-tftp".toList
      else "enable-tftp=".toList ++ commaText interfaces)⟩,
    ⟨.service, .plain ("tftp-root=".toList ++ boot.tftpRoot)⟩,
    ⟨.service, .sets "dhcp-userclass".toList "ipxe".toList "iPXE".toList⟩,
    ⟨.service, .sets "dhcp-match".toList "ipxe".toList "175".toList⟩,
    ⟨.service, .sets "dhcp-match".toList "efi-x86_64".toList "option:client-arch,7".toList⟩,
    ⟨.service, .sets "dhcp-match".toList "efi-x86_64".toList "option:client-arch,9".toList⟩]

def entryLines (boot : EsxiPxeBoot) (entry : BootEntry) : List Line :=
  let hostname := strip boot.hostname
  let served := hostname ≠ [] ∧ entry.address ≠ []
  let bootServer := if served then ',' :: hostname ++ ',' :: entry.address else []
  let menuUrl := (if entry.address = [] then "/pxe/boot.ipxe".toList
      else "http://".toList ++ bracketed entry.address ++ ':' :: httpPort boot ++
        "/pxe/boot.ipxe".toList) ++
    "?mac=$\x7bnet0/mac\x7d&firmware=$\x7bplatform\x7d".toList
  (if served then
    [⟨entry.origin, .option (entry.conditions []) ("66,".toList ++ hostname)⟩] else []) ++
  [⟨entry.origin, .boot (entry.conditions [.tag "ipxe".toList]) menuUrl⟩,
    ⟨entry.origin, .boot (entry.conditions [.notTag "ipxe".toList, .tag "efi-x86_64".toList])
      (boot.uefiBootfile ++ bootServer)⟩,
    ⟨entry.origin, .boot (entry.conditions [.notTag "ipxe".toList, .notTag "efi-x86_64".toList])
      (boot.biosBootfile ++ bootServer)⟩]

def bootLines (state : DhcpState) (boot : EsxiPxeBoot) : List Line :=
  if boot.enabled = false then []
  else
    let entries := pxeScopeEntries classes lowering state boot
    hostLines boot ++ nativeLines boot entries ++ tftpLines boot entries ++
      entries.flatMap (entryLines boot)

/-! ### Scopes and options -/

def dnsmasqIpv6OptionAddress (value : List Char) : List Char :=
  let address := strip value
  if address = [] then []
  else if address.head? = some '[' ∧ address.getLast? = some ']' then address
  else '[' :: address ++ [']']

def scopeDirectives (state : DhcpState) (scope : DhcpScope) (ranges : List Range) :
    List Directive :=
  let tag := dnsmasqTag classes lowering scope.name
  let lease := if scope.leaseTime = [] then "12h".toList else scope.leaseTime
  let domain := scopeDomain lowering state.dns scope
  let option := fun (name : String) (value : List Char) =>
    Directive.option [.tag tag] (name.toList ++ ',' :: value)
  match dhcpScopeAddressFamily lowering scope with
  | .v6 =>
    ranges.map (fun range => .range tag
      [range.1.text, range.2.text, intText scope.prefixLength, lease]) ++
    [option "option6:dns-server" (dnsmasqIpv6OptionAddress scope.dnsServer),
      option "option6:domain-search" domain] ++
    if scope.ntpServer = [] then []
    else [option "option6:ntp-server" (dnsmasqIpv6OptionAddress scope.ntpServer)]
  | .v4 =>
    ranges.map (fun range => .range tag [range.1.text, range.2.text, lease]) ++
    [option "option:router" scope.siteAddress, option "option:dns-server" scope.dnsServer,
      option "option:domain-name" domain] ++
    if scope.ntpServer = [] then [] else [option "option:ntp-server" scope.ntpServer]

def scopeLines (state : DhcpState) (scope : DhcpScope) : List Line :=
  if scope.enabled = false then []
  else
    let (errors, ranges) := parseDhcpRangeExpression classes lowering scope
    if errors ≠ [] then []
    else (scopeDirectives classes lowering state scope ranges).map fun directive =>
      ⟨.scope scope.id, directive⟩

def optionLine (state : DhcpState) (option : DhcpOption) : Option Line :=
  let code := strip option.optionCode
  let value := strip option.value
  let text := "option:".toList ++ code ++ ',' :: value
  if option.enabled = false ∨ code = [] ∨ value = [] then none
  else
    match option.scopeId with
    | none => some ⟨.service, .option [] text⟩
    | some id => (getItem id (scopeTags classes lowering state)).map fun tag =>
      ⟨.scope id, .option [.tag tag] text⟩

/-! ### Reservations -/

def DHCP_DENY_RESERVATION_DESCRIPTION_PREFIX : List Char := "Deny DHCP for ".toList

def scopeForIp (scopes : List DhcpScope) (address : Address) : Option DhcpScope :=
  scopes.find? fun scope => scope.enabled && (dhcpScopeNetwork scope).any fun network =>
    network.contains address

def reservationDomain (state : DhcpState) (reservation : DhcpReservation) : List Char :=
  let scope := (readAddress reservation.ipAddress).bind fun zoned =>
    scopeForIp state.scopeRows zoned.address
  scope.elim [] fun scope => normalName lowering (scopeDomain lowering state.dns scope)

def reservationFqdn (state : DhcpState) (reservation : DhcpReservation) : List Char :=
  let hostname := normalName lowering reservation.hostname
  let domain := reservationDomain lowering state reservation
  if '.' ∈ hostname then hostname
  else if domain = [] then hostname else hostname ++ '.' :: domain

def isManaged (state : DhcpState) (reservation : DhcpReservation) : Bool :=
  let fqdn := reservationFqdn lowering state reservation
  state.dns.authoritative && (managedDomains lowering state.dns).any fun domain =>
    fqdn = domain || ('.' :: domain).isSuffixOf fqdn

def reservationTag (reservation : DhcpReservation) : List Char :=
  "atlaso-name-".toList ++ (lowering.lower reservation.macAddress).filter fun c =>
    c ∈ "0123456789abcdef".toList

def reservationLines (state : DhcpState) (reservation : DhcpReservation) : List Line :=
  let macAddress := reservation.macAddress
  if reservation.enabled = false then
    if DHCP_DENY_RESERVATION_DESCRIPTION_PREFIX.isPrefixOf reservation.description then
      [⟨.reservation, .host macAddress none ["ignore".toList]⟩]
    else []
  else
    let isV6 := (readAddress reservation.ipAddress).any fun zoned => zoned.address.family = .v6
    let address := if isV6 then '[' :: reservation.ipAddress ++ [']'] else reservation.ipAddress
    if isManaged lowering state reservation then
      let tag := reservationTag lowering reservation
      [⟨.reservation, .host macAddress (some tag) [address]⟩, ⟨.reservation, .ignoreNames tag⟩,
        ⟨.reservation, .option [.tag tag] ("12,".toList ++ reservation.hostname)⟩]
    else [⟨.reservation, .host macAddress none [reservation.hostname, address]⟩]

/-! ### The DHCP part -/

/-- The DHCP part of `render_dnsmasq_config`. -/
def renderDhcp (state : DhcpState) : List Line :=
  if state.settings.enabled = false then []
  else
    (if state.scopeRows.any fun scope =>
        scope.enabled && dhcpScopeAddressFamily lowering scope = .v6 then
      [⟨.service, .plain "enable-ra".toList⟩] else []) ++
    state.boot.elim [] (bootLines classes lowering state) ++
    state.scopeRows.flatMap (scopeLines classes lowering state) ++
    state.options.filterMap (optionLine classes lowering state) ++
    state.reservations.flatMap (reservationLines lowering state)

end Names

end Atlaso.Dhcp.ScopeOptions
