import Atlaso.Library.Dictionary
import Atlaso.Library.ItemLists
import Mathlib.Data.Finset.Card
import Mathlib.Logic.Function.Basic

/-!
The inventory of physical interfaces and its reconciliation with the host.

A discovered NIC is matched with the row of its MAC, else with the row of its name when nobody has
edited it, else it gets a new row. Rows that are in the way of a name, or whose NIC is gone, are
parked under a name of their own.
-/

namespace Atlaso.Networking.InterfaceInventory

open Library Dictionary ItemLists TextFields

abbrev Text := List Char

/-- `str.lower`, `str.isalnum` of a character. -/
structure Characters extends Lowering where
  isAlnum : Char → Bool

structure PhysicalInterface where
  id : Option Nat
  (name macAddress : Text)
  (driver speed hostIpCidr : Option String)
  hostIpCidrs : List String
  hostIpv6Cidr : Option String
  hostIpv6Cidrs : List String
  hostMtu : Option Nat
  (hostAdminState ipCidr : Option String)
  ipv4Method : Text
  ipv6Enabled : Bool
  (ipv6Cidr ipv6Gateway : Option String)
  mtu : Option Nat
  (adminState operState role mode inventorySource desiredStateSource : String)
  (lastSeenAt missingSince : Option Nat)
  deriving DecidableEq, Repr

structure HostPhysicalInterface where
  (name macAddress : Text)
  (driver speed hostIpCidr : Option String)
  hostMtu : Option Nat
  (hostAdminState operState : String)
  (hostIpv6Cidr hostDhcpIpCidr hostDynamicIpv6Cidr : Option String)
  (hostDynamicIpv6Cidrs hostIpCidrs hostIpv6Cidrs : List String)
  deriving DecidableEq, Repr

/-! ### Names -/

def macKey (characters : Characters) (value : Text) : Text := characters.lower (strip value)

def missingPrefixText : Text := "missing_".toList

def missingSuffix (characters : Characters) (interface : PhysicalInterface) : Text :=
  let mac := (macKey characters interface.macAddress).filter characters.isAlnum
  let last := mac.drop (mac.length - 10)
  if last ≠ [] then last
  else match interface.id with
    | some (id + 1) => Nat.toDigits 10 (id + 1)
    | _ => if interface.name ≠ [] then interface.name else "nic".toList

def missingBase (characters : Characters) (interface : PhysicalInterface) : Text :=
  (missingPrefixText ++ missingSuffix characters interface).take 50

def markedName (base : Text) (counter : Nat) : Text :=
  let marker := '_' :: Nat.toDigits 10 counter
  base.take (50 - marker.length) ++ marker

/-- The first marked name that is free; `fuel` bounds the names that are tried. -/
def freeName (base : Text) (usedNames : Finset Text) : Nat → Nat → Text
  | 0, counter => markedName base counter
  | fuel + 1, counter =>
    if markedName base counter ∈ usedNames then freeName base usedNames fuel (counter + 1)
    else markedName base counter

def missingInterfaceName (characters : Characters) (interface : PhysicalInterface)
    (usedNames : Finset Text) : Text :=
  let base := missingBase characters interface
  if base ∈ usedNames then freeName base usedNames usedNames.card 2 else base

/-! ### The tables of a pass -/

/-- The rows, and the indexes and sets that a pass keeps of them. A row is referred to by its
position. -/
structure Inventory where
  rows : List PhysicalInterface
  (byName byMac : Text → Option Nat)
  usedNames : Finset Text
  renames : List (Text × Text)
  seen : List Nat

def renameInterface (ref : Nat) (newName : Text) (inventory : Inventory) : Inventory :=
  match inventory.rows[ref]? with
  | none => inventory
  | some interface =>
    if interface.name = newName then inventory
    else { inventory with
      rows := inventory.rows.set ref { interface with name := newName }
      byName := Function.update (Function.update inventory.byName interface.name none) newName
        (some ref)
      usedNames := insert newName (inventory.usedNames.erase interface.name)
      renames := setItem interface.name newName inventory.renames }

def parkInterface (characters : Characters) (ref : Nat) (inventory : Inventory) : Inventory :=
  match inventory.rows[ref]? with
  | none => inventory
  | some interface =>
    renameInterface ref (missingInterfaceName characters interface inventory.usedNames) inventory

/-! ### What the host says -/

/-- `normalize_ipv4_method(value) == "dhcp"` -/
def isDhcp (characters : Characters) (value : Text) : Bool :=
  macKey characters value = "dhcp".toList

def present (value : Option String) : Bool := value.any (· ≠ "")

/-- The modes of the last Network Apply, by MAC. -/
structure AppliedModes where
  ipv4 : Text → Option Text
  ipv6 : Text → Option (Bool × Option String)

def nativeAutomaticIpv6Cidrs (host : HostPhysicalInterface) : List String :=
  if host.hostDynamicIpv6Cidrs ≠ [] then host.hostDynamicIpv6Cidrs
  else if present host.hostDynamicIpv6Cidr then host.hostDynamicIpv6Cidr.toList else []

def observe (characters : Characters) (modes : AppliedModes) (now : Nat)
    (host : HostPhysicalInterface) (interface : PhysicalInterface) : PhysicalInterface :=
  let hostMac := macKey characters host.macAddress
  let ipv4Method := (modes.ipv4 hostMac).getD interface.ipv4Method
  let (ipv6Enabled, ipv6Cidr) :=
    (modes.ipv6 hostMac).getD (interface.ipv6Enabled, interface.ipv6Cidr)
  { interface with
    macAddress := hostMac
    driver := host.driver
    speed := host.speed
    hostIpCidr := if isDhcp characters ipv4Method then host.hostDhcpIpCidr else host.hostIpCidr
    hostIpCidrs :=
      if host.hostIpCidrs ≠ [] then host.hostIpCidrs
      else if present host.hostIpCidr then host.hostIpCidr.toList else []
    hostIpv6Cidr :=
      if ipv6Enabled then
        if present ipv6Cidr then host.hostIpv6Cidr else host.hostDynamicIpv6Cidr
      else none
    hostIpv6Cidrs :=
      if ipv6Enabled && !present ipv6Cidr then nativeAutomaticIpv6Cidrs host else []
    hostMtu := host.hostMtu
    hostAdminState := some host.hostAdminState
    operState := host.operState
    inventorySource := "host"
    lastSeenAt := some now
    missingSince := none }

/-- What an interface that nobody has edited takes over. -/
def adoptDesired (characters : Characters) (host : HostPhysicalInterface)
    (interface : PhysicalInterface) : PhysicalInterface :=
  let managing := interface.name = "eth0".toList ∨ interface.role = "management"
  { interface with
    ipCidr := if managing ∧ ¬isDhcp characters interface.ipv4Method then host.hostIpCidr else none
    ipv6Enabled := if managing then interface.ipv6Enabled else false
    ipv6Cidr := if managing then interface.ipv6Cidr else none
    ipv6Gateway := if managing then interface.ipv6Gateway else none
    mtu := match host.hostMtu with
      | some (mtu + 1) => some (mtu + 1)
      | _ => interface.mtu
    adminState := if managing then host.hostAdminState else "down" }

def newInterface (name mac : Text) : PhysicalInterface where
  id := none
  name := name
  macAddress := mac
  driver := none
  speed := none
  hostIpCidr := none
  hostIpCidrs := []
  hostIpv6Cidr := none
  hostIpv6Cidrs := []
  hostMtu := none
  hostAdminState := none
  ipCidr := none
  ipv4Method := "static".toList
  ipv6Enabled := false
  ipv6Cidr := none
  ipv6Gateway := none
  mtu := none
  adminState := "up"
  operState := "up"
  role := "unused"
  mode := "access"
  inventorySource := "seed"
  desiredStateSource := "seed"
  lastSeenAt := none
  missingSince := none

/-! ### Reconciliation -/

def clearName (characters : Characters) (ref : Nat) (name : Text) (inventory : Inventory) :
    Inventory :=
  match inventory.byName name with
  | some other => if other ≠ ref then parkInterface characters other inventory else inventory
  | none => inventory

/-- Finds the row of a NIC, and gives it its name: that of its MAC, or that of its name if it is
unedited or has the MAC as well. -/
def matchHost (characters : Characters) (inventory : Inventory) (host : HostPhysicalInterface) :
    Option Nat × Inventory :=
  let hostMac := macKey characters host.macAddress
  match inventory.byMac hostMac with
  | some ref =>
    (some ref, renameInterface ref host.name (clearName characters ref host.name inventory))
  | none =>
    match inventory.byName host.name with
    | none => (none, inventory)
    | some other =>
      match inventory.rows[other]? with
      | none => (none, inventory)
      | some interface =>
        if interface.desiredStateSource ≠ "seed" ∧
            macKey characters interface.macAddress ≠ hostMac then
          (none, parkInterface characters other inventory)
        else (some other, inventory)

def addInterface (host : HostPhysicalInterface) (hostMac : Text) (inventory : Inventory) :
    Nat × Inventory :=
  let ref := inventory.rows.length
  (ref, { inventory with
    rows := inventory.rows ++ [newInterface host.name hostMac]
    byName := Function.update inventory.byName host.name (some ref)
    usedNames := insert host.name inventory.usedNames })

def recordHost (characters : Characters) (modes : AppliedModes) (now : Nat)
    (inventory : Inventory) (host : HostPhysicalInterface) : Inventory :=
  let hostMac := macKey characters host.macAddress
  let (found, matched) := matchHost characters inventory host
  let (ref, placed) := match found with
    | some ref => (ref, matched)
    | none => addInterface host hostMac matched
  match placed.rows[ref]? with
  | none => placed
  | some interface =>
    let observed := observe characters modes now host interface
    { placed with
      rows := placed.rows.set ref
        (if interface.desiredStateSource = "seed" then adoptDesired characters host observed
        else observed)
      byMac := Function.update placed.byMac hostMac (some ref)
      seen := ref :: placed.seen }

def markMissing (characters : Characters) (now : Nat) (inventory : Inventory) (ref : Nat) :
    Inventory :=
  match inventory.rows[ref]? with
  | none => inventory
  | some interface =>
    if interface.inventorySource = "host" ∧ ref ∉ inventory.seen then
      let marked := { inventory with
        rows := inventory.rows.set ref { interface with
          missingSince := some (interface.missingSince.getD now)
          operState := "missing" } }
      if missingPrefixText.isPrefixOf interface.name then marked
      else parkInterface characters ref marked
    else inventory

def indexOf (key : PhysicalInterface → Text) (rows : List PhysicalInterface) (value : Text) :
    Option Nat :=
  (List.range rows.length).reverse.find? fun ref =>
    rows[ref]?.any fun interface => key interface = value

def indexOfMac (characters : Characters) (rows : List PhysicalInterface) (mac : Text) :
    Option Nat :=
  let key := fun interface : PhysicalInterface => macKey characters interface.macAddress
  if mac ≠ [] ∧ (rows.map key).count mac = 1 then indexOf key rows mac else none

def startInventory (characters : Characters) (rows : List PhysicalInterface) : Inventory where
  rows := rows
  byName := indexOf PhysicalInterface.name rows
  byMac := indexOfMac characters rows
  usedNames := (rows.map PhysicalInterface.name).toFinset
  renames := []
  seen := []

/-- The rows after the discovery, and the names that changed. -/
def reconcileHostPhysicalInterfaces (characters : Characters) (modes : AppliedModes) (now : Nat)
    (interfaces : List PhysicalInterface) (discovered : List HostPhysicalInterface) :
    List PhysicalInterface × List (Text × Text) :=
  let recorded := discovered.foldl (recordHost characters modes now)
    (startInventory characters interfaces)
  let reconciled := (List.range recorded.rows.length).foldl (markMissing characters now) recorded
  (reconciled.rows, reconciled.renames)

end Atlaso.Networking.InterfaceInventory
