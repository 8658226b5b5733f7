import Atlaso.Routing.SlotCapacity

/-!
The intent file of the routing domains, and the addresses that are held for links which an apply
removes later.

The intent and the native inventory are JSON documents. A held address keeps the table of a source
after its interface has left the intent.
-/

namespace Atlaso.Routing.RemovedLinks

open Library Dictionary IpAddress JsonText Numerals Reconciliation
open SlotCapacity SourceRules

def maxHeldAddresses : Nat := priorityEnd - priorityStart

/-! ### The intent -/

def interfacePattern (name : String) : Bool :=
  decide (1 ≤ name.toList.length ∧ name.toList.length ≤ 15) &&
    name.toList.all fun c => c.isAlphanum || c = '_' || c = '.' || c = '-'

def isHexDigit (c : Char) : Bool := ('0' ≤ c && c ≤ '9') || ('a' ≤ c && c ≤ 'f')

/-- `MAC_PATTERN` and the addresses that are no unicast address of a link. -/
def unicastMac (mac : String) : Bool :=
  let octets := splitOn ':' mac.toList
  decide (octets.length = 6) &&
    octets.all (fun octet => decide (octet.length = 2) && octet.all isHexDigit) &&
    mac ≠ "00:00:00:00:00:00" &&
    (numeralValue 16 0 (mac.toList.take 2)).all fun first => first % 2 = 0

def hasExactly (names : List String) (members : List (String × Json)) : Bool :=
  hasOnly names members && names.all fun name => (getItem name members).isSome

def knownTable (value : Option Json) : Option { table : Nat // table = 100 ∨ table = 200 } :=
  match value with
  | some (.int 100) => some ⟨100, table_100_known⟩
  | some (.int 200) => some ⟨200, table_200_known⟩
  | _ => none

def managementUi (value : Option Json) : Except ReconcileError (Option Bool) :=
  match value with
  | none => .ok none
  | some (.bool eligible) => .ok (some eligible)
  | some _ => .error "invalid applied management UI eligibility"

def parseInterface (row : Json) : Except ReconcileError Interface :=
  match row with
  | .object members =>
    if hasExactly ["name", "mac", "table"] members = false ∧
        hasExactly ["name", "mac", "table", "management_ui"] members = false then
      .error "invalid interface intent"
    else
      match getItem "name" members with
      | some (.string name) =>
        if interfaceName name = false then .error "invalid interface name"
        else
          match getItem "mac" members with
          | some (.string mac) =>
            if unicastMac mac.toLower = false then .error "invalid interface identity"
            else
              match knownTable (getItem "table" members) with
              | none => .error "invalid routing table"
              | some table => do
                  let eligible ← managementUi (getItem "management_ui" members)
                  .ok ⟨name, mac.toLower, table.1, eligible, table.2⟩
          | _ => .error "invalid interface identity"
      | _ => .error "invalid interface name"
  | _ => .error "invalid interface intent"

/-- One held address of `parse_intent`. -/
def parseHeldAddress (row : Json) : Except ReconcileError HeldAddress :=
  match row with
  | .object members =>
    if hasExactly ["name", "mac", "address", "table"] members = false then
      .error "invalid held address"
    else do
      let interface ← parseInterface (.object (members.filter fun member =>
        member.1 ∈ ["name", "mac", "table"]))
      let address ← usableAddress (getItem "address" members)
      .ok ⟨interface, address⟩
  | _ => .error "invalid held address"

def parseIntent (value : Json) : Except ReconcileError Intent :=
  match value with
  | .object members =>
    if hasOnly ["schema", "interfaces", "held_addresses"] members = false then
      .error "invalid routing-domain intent"
    else if isNumber 1 (getItem "schema" members) = false then
      .error "unsupported routing-domain schema"
    else
      match getItem "interfaces" members, (getItem "held_addresses" members).getD (.array []) with
      | some (.array rows), .array holds =>
        if 256 < rows.length ∨ maxHeldAddresses < holds.length then
          .error "invalid routing-domain inventory"
        else do
          let interfaces ← rows.mapM parseInterface
          if ¬(interfaces.map Interface.name).Nodup then .error "duplicate interface intent"
          else do
            let heldAddresses ← holds.mapM parseHeldAddress
            if ¬(heldAddresses.map fun row => (row.interface.name, row.address)).Nodup then
              .error "duplicate held address"
            else .ok ⟨interfaces, heldAddresses⟩
      | _, _ => .error "invalid routing-domain inventory"
  | _ => .error "invalid routing-domain intent"

/-! ### The addresses of removed links -/

/-- A row of the list that `removed_interface_holds` returns. -/
@[ext] structure Hold where
  (name mac : String)
  address : Address
  table : Nat
  known : table = 100 ∨ table = 200

instance : DecidableEq Hold := fun _ _ => decidable_of_iff' _ Hold.ext_iff

def Hold.json (hold : Hold) : Json := .object
  [("name", .string hold.name), ("mac", .string hold.mac), ("address", .string hold.address.text),
    ("table", .int hold.table)]

def linkName (link : Json) : Option String :=
  match link with
  | .object members =>
    match getItem "ifname" members with
    | some (.string name) => some name
    | _ => none
  | _ => none

/-- The hold of one address entry. `source_tables` has checked the entry before. -/
def entryHold (sources : SourceMap) (owner : Interface) (entry : Json) :
    Except ReconcileError (Option Hold) := do
  match ← entrySource entry with
  | none => .ok none
  | some source =>
    if getItem source sources.pairs ≠ some (some owner.table) then
      .error "removed source has ambiguous ownership"
    else .ok (some ⟨owner.name, owner.mac, source, owner.table, owner.known⟩)

def linkHolds (sources : SourceMap) (owners : List (String × Interface)) (names : Finset String)
    (guardOnly : Finset String) (link : Json) : Except ReconcileError (List Hold) :=
  match link with
  | .object members =>
    match linkName (.object members) with
    | some name =>
      if name ∉ names ∨ name ∈ guardOnly then .ok []
      else
        match getItem "addr_info" members with
        | some (.array entries) =>
          match getItem name owners with
          | none => .error "removed interface has unproven source ownership"
          | some owner =>
            if linkMac members ≠ owner.mac then
              .error "removed interface has unproven source ownership"
            else do
              let holds ← entries.mapM (entryHold sources owner)
              .ok (holds.filterMap id)
        | _ => .error "invalid removed interface addresses"
    | none => .error "invalid native address inventory"
  | _ => .error "invalid native address inventory"

def Intent.without (intent : Intent) (names : Finset String) : Intent where
  interfaces := intent.interfaces.filter fun row => row.name ∉ names
  heldAddresses := intent.heldAddresses.filter fun row => row.interface.name ∉ names

def removedInterfaceHolds (intent : Intent) (inventory : Json) (names guardOnly : Finset String) :
    Except ReconcileError (List Hold) :=
  if 256 < names.card ∨ ¬∀ name ∈ names, interfacePattern name = true then
    .error "invalid removed interface names"
  else if ¬guardOnly ⊆ names then .error "invalid guard-only VLAN names"
  else
    match inventory with
    | .array links =>
      if 4096 < links.length ∨ ¬∀ link ∈ links, (linkName link).isSome = true then
        .error "invalid native address inventory"
      else do
        let absent := names \ (links.filterMap linkName).toFinset
        let (sources, incomplete) ← sourceTables (Intent.without intent absent) inventory
        if incomplete || sources.pairs.any fun pair => pair.2.isNone then
          .error "old source identity unavailable"
        else do
          let owners := ofPairs ((intent.interfaces.filter fun row => row.name ∈ names).map
            fun row => (row.name, row))
          let holds ← links.mapM (linkHolds sources owners names guardOnly)
          .ok holds.flatten
    | _ => .error "invalid native address inventory"

/-! ### The intent with the holds -/

def Hold.held (hold : Hold) : HeldAddress :=
  ⟨⟨hold.name, hold.mac, hold.table, none, hold.known⟩, hold.address⟩

def interfaceJson (row : Interface) : Json := .object
  ([("name", .string row.name), ("mac", .string row.mac), ("table", .int row.table)] ++
    row.managementUi.toList.map fun eligible => ("management_ui", .bool eligible))

def intentJson (interfaces : List Interface) (holds : List Hold) : Json := .object
  [("schema", .int 1), ("interfaces", .array (interfaces.map interfaceJson)),
    ("held_addresses", .array (holds.map Hold.json))]

end Atlaso.Routing.RemovedLinks
