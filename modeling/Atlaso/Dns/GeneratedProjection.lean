import Atlaso.Library.IpNetwork
import Atlaso.Library.KeptLines
import Mathlib.Data.List.DropRight
import Mathlib.Data.List.Infix
import Mathlib.Data.List.Count

/-!
Generated DNS records projected into an applied dnsmasq configuration.

A configuration is a list of characters, as are its lines and directives. A `Counter` of
directives is a list of them, equal to another up to the order.
-/

namespace Atlaso.Dns.GeneratedProjection

open Library TextFields IpAddress IpNetwork KeptLines

inductive Raised where
  | keyError | valueError
  deriving DecidableEq, Repr

/-- The members of a record that the projection reads; a missing one reads as the empty
text, apart from the address. -/
structure Record where
  (description hostname recordType : String)
  address : Option String
  generatedPtr : String
  deriving DecidableEq, Repr

/-! ### Addresses with a scope -/

structure ScopedAddress where
  address : Address
  scope : Option (List Char)
  deriving DecidableEq, Repr

/-- `ip_address(text)`; `none` is the ValueError. -/
def readAddress (text : List Char) : Option ScopedAddress :=
  match parseV4 text with
  | some value => some ⟨.v4 value, none⟩
  | none =>
    if '/' ∈ text then none
    else
      ((unscoped text).bind parseV6).map fun value =>
        ⟨.v6 value, (partition '%' text).2⟩

def scopeText : Option (List Char) → List Char
  | none => []
  | some scope => '%' :: scope

/-- `str(address)`. -/
def ScopedAddress.text (located : ScopedAddress) : List Char :=
  located.address.text.toList ++ scopeText located.scope

def reversedOctets (value : Nat) : List (List Char) :=
  (List.range 4).map fun index => Nat.toDigits 10 (value / 256 ^ index % 256)

def reversedNibbles (value : Nat) : List (List Char) :=
  (List.range 32).map fun index => Nat.toDigits 16 (value / 16 ^ index % 16)

/-- `address.reverse_pointer`, a ValueError for an address with a scope. -/
def reversePointer : ScopedAddress → Option (List Char)
  | ⟨.v4 value, _⟩ =>
    some ((reversedOctets value.toNat).flatMap (fun part => part ++ ['.']) ++
      "in-addr.arpa".toList)
  | ⟨.v6 value, none⟩ =>
    some ((reversedNibbles value.toNat).flatMap (fun part => part ++ ['.']) ++
      "ip6.arpa".toList)
  | ⟨.v6 _, some _⟩ => none

/-! ### Directives -/

def authoritativePrefix : List Char := "# atlaso-authoritative-config: ".toList

def ownedDescriptions : List String :=
  ["Atlaso app-owned appliance FQDN record.",
    "Created from Certificate Authority portal endpoint.",
    "Created from ESX Storage endpoint.",
    "Created from ESXi PXE boot endpoint.",
    "Atlaso app-owned KMS/KMIP endpoint record.",
    "Managed by Atlaso LDAP service",
    "Created from NTP/NTS endpoint.",
    "Created from OpenID Connect provider endpoint.",
    "Created from VCF Offline Depot endpoint.",
    "Created from VCF private registry endpoint."]

def recordDirectivePrefixes : List (List Char) :=
  ["host-record=".toList, "cname=".toList, "ptr-record=".toList, "txt-record=".toList,
    "srv-host=".toList, "mx-host=".toList, "caa-record=".toList]

/-- `value.rstrip("\r\n")`. -/
def lineValue (line : List Char) : List Char :=
  line.rdropWhile fun c => decide (c = '\r') || decide (c = '\n')

/-- The comment that wraps a directive, when there is one, and the directive. -/
def splitAuthoritative (value : List Char) : List Char × List Char :=
  if authoritativePrefix.isPrefixOf value then
    (authoritativePrefix, value.drop authoritativePrefix.length)
  else ([], value)

def unwrapAuthoritativeLine (line : List Char) : Option (List Char) :=
  let directive := (splitAuthoritative (lineValue line)).2
  if recordDirectivePrefixes.any fun start => start.isPrefixOf directive then some directive
  else none

/-- `text.upper()`, as far as the record types are concerned. -/
def upper (text : String) : List Char := text.toList.map Char.toUpper

def ptrDirective (reverse name : List Char) : List Char :=
  "ptr-record=".toList ++ reverse ++ ',' :: name

def generatedPtrOf (record : Record) (address : List Char) : List (List Char) :=
  if record.generatedPtr = "true" then
    match (readAddress address).bind reversePointer with
    | some reverse => [ptrDirective reverse record.hostname.toList]
    | none => []
  else []

/-- `text.strip(".")`. -/
def stripDots (text : List Char) : List Char :=
  (text.dropWhile (· = '.')).rdropWhile (· = '.')

section Projection

variable (lower : List Char → List Char)

def recordDirectives (record : Record) : List (List Char) :=
  let hostname := record.hostname.toList
  let recordType := upper record.recordType
  let address := (record.address.getD "").toList
  if record.description ∉ ownedDescriptions then []
  else if hostname = [] ∨ address = [] then []
  else if recordType = "CNAME".toList then ["cname=".toList ++ hostname ++ ',' :: address]
  else if recordType = "A".toList ∨ recordType = "AAAA".toList then
    ("host-record=".toList ++ hostname ++ ',' :: address) :: generatedPtrOf record address
  else if recordType = "PTR".toList ∧ record.generatedPtr = "true" then
    [ptrDirective hostname (lower (stripDots (strip address)))]
  else []

def recordDirectiveCounts (records : List Record) : List (List Char) :=
  records.flatMap (recordDirectives lower)

/-- The lines without those that hold a directive of `owned`, each as often as it is there. -/
def removeOwned : List (List Char) → List (List Char) → List (List Char)
  | [], _ => []
  | line :: rest, owned =>
    match unwrapAuthoritativeLine line with
    | none => line :: removeOwned rest owned
    | some directive =>
      if directive ∈ owned then removeOwned rest (owned.erase directive)
      else line :: removeOwned rest owned

def desiredLines : List (List Char) → List (List Char) → List (List Char)
  | [], _ => []
  | line :: rest, needed =>
    match unwrapAuthoritativeLine line with
    | none => desiredLines rest needed
    | some directive =>
      if directive ∈ needed then line :: desiredLines rest (needed.erase directive)
      else desiredLines rest needed

def newlineFor (config : List Char) : List Char :=
  if ['\r', '\n'] <:+: config then ['\r', '\n'] else ['\n']

def closeText (output : List Char) : List Char :=
  match output.getLast? with
  | none => output
  | some c => if c = '\n' ∨ c = '\r' then output else output ++ newlineFor output

/-! ### Authority -/

/-- `directive.partition("=")[2]`. -/
def afterEquals (directive : List Char) : List Char := (partition '=' directive).2.getD []

def isDecimal (text : List Char) : Bool :=
  !text.isEmpty && text.all fun c => (decimalValue c).isSome

/-- The serial of an `auth-soa` directive and what follows its comma, when the serial is
decimal and a comma follows. -/
def soaFields (directive : List Char) : Option (List Char × List Char) :=
  if "auth-soa=".toList.isPrefixOf directive then
    match partition ',' (afterEquals directive) with
    | (serial, some remainder) => if isDecimal serial then some (serial, remainder) else none
    | (_, none) => none
  else none

def soaDirective (serial : Nat) (remainder : List Char) : List Char :=
  "auth-soa=".toList ++ Nat.toDigits 10 serial ++ ',' :: remainder

def refreshSoa (directive : List Char) : Except Raised (List Char) :=
  match soaFields directive with
  | none => .ok directive
  | some (serial, remainder) =>
    match intOfText serial with
    | none => .error .valueError
    | some value => .ok (soaDirective ((value + 1) % 2 ^ 32).toNat remainder)

def isZone (directive : List Char) : Bool := "auth-zone=".toList.isPrefixOf directive

def networkText (located : ScopedAddress) : List Char :=
  located.text ++ '/' :: Nat.toDigits 10 located.address.family.width

def addTarget (zone : List Char) (state : List Network × List (List Char)) (record : Record) :
    Except Raised (List Network × List (List Char)) :=
  let name := record.hostname.toList
  if record.recordType ≠ "A" ∧ record.recordType ≠ "AAAA" then .ok state
  else if name ≠ zone ∧ ¬('.' :: zone) <:+ name then .ok state
  else
    match record.address with
    | none => .error .keyError
    | some address =>
      match readAddress address.toList with
      | none => .error .valueError
      | some located =>
        if state.1.any fun network => network.contains located.address then .ok state
        else
          .ok (state.1 ++ [networkOf located.address located.address.family.width],
            state.2 ++ [networkText located])

def joinCommas : List (List Char) → List Char
  | [] => []
  | [field] => field
  | field :: next :: rest => field ++ ',' :: joinCommas (next :: rest)

def networksOf (fields : List (List Char)) : Except Raised (List Network) :=
  match fields.mapM fun field => ipNetwork (String.ofList field) with
  | none => .error .valueError
  | some networks => .ok networks

def refreshZone (records : List Record) (directive : List Char) : Except Raised (List Char) := do
  let parts := splitAt ',' (afterEquals directive)
  let networks ← networksOf (parts.drop 1)
  let state ← records.foldlM (addTarget (parts.headD [])) (networks, [])
  .ok ("auth-zone=".toList ++ joinCommas (parts ++ state.2))

def refreshDirective (records : List Record) (directive : List Char) :
    Except Raised (List Char) :=
  if isZone directive then refreshZone records directive else refreshSoa directive

def refreshLine (records : List Record) (line : List Char) : Except Raised (List Char) := do
  let value := lineValue line
  let refreshed ← refreshDirective records (splitAuthoritative value).2
  .ok ((splitAuthoritative value).1 ++ refreshed ++ line.drop value.length)

def refreshAuthority (config previous : List Char) (records : List Record) :
    Except Raised (List Char) :=
  if config = previous then .ok config
  else do
    let output ← (keepLines config).mapM (refreshLine records)
    .ok output.flatten

/-! ### Projection -/

/-- The text before the authority is refreshed, with `owned` taken out and what is missing
of `desired` put behind. -/
def reconciled (previousConfig desiredConfig : List Char) (owned desired : List (List Char)) :
    List Char :=
  let retained := removeOwned (keepLines previousConfig) owned
  let needed := desired.diff (retained.filterMap unwrapAuthoritativeLine)
  let additions := desiredLines (keepLines desiredConfig) needed
  if additions.isEmpty then retained.flatten
  else closeText retained.flatten ++ additions.flatten

def projectGeneratedDns (previousConfig desiredConfig : List Char)
    (previousRecords desiredRecords : List Record) : Except Raised (List Char) :=
  let previousOwned := recordDirectiveCounts lower previousRecords
  let desiredOwned := recordDirectiveCounts lower desiredRecords
  if previousOwned.isPerm desiredOwned then .ok previousConfig
  else
    refreshAuthority (reconciled previousConfig desiredConfig previousOwned desiredOwned)
      previousConfig desiredRecords

/-! ### Sequences of projections -/

/-- What one step of a sequence brings: the desired configuration and its records. -/
structure Desired where
  config : List Char
  records : List Record

/-- The projections one after another, each from the text and the records of the one
before. -/
def projectAll (config : List Char) (previous : List Record) :
    List Desired → Except Raised (List Char)
  | [] => .ok config
  | desired :: rest => do
      let next ← projectGeneratedDns lower config desired.config previous desired.records
      projectAll next desired.records rest

def lastRecords (previous : List Record) : List Desired → List Record
  | [] => previous
  | desired :: rest => lastRecords desired.records rest

end Projection

end Atlaso.Dns.GeneratedProjection
