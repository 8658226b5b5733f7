import Atlaso.Routing.SourceRules

/-!
Reconciliation of the routing domains: the terminal guard with its exemptions, the tables of
the assigned sources, and the commands of one `reconcile` run.

The native dumps are JSON documents, as the run reads them. Policy routing walks the rules
of the packet's family in the order of their priorities, and a lookup falls through when
its table has no route.
-/

namespace Atlaso.Routing.Reconciliation

open Library Dictionary IpAddress JsonText SetEdits SourceRules

/-! ### The guard and its exemptions -/

structure Prefix where
  text : String
  (number bits : Nat)

def Prefix.contains (family : Family) (network : Prefix) (address : Address) : Bool :=
  address.family = family &&
    address.number / 2 ^ (family.width - network.bits) =
      network.number / 2 ^ (family.width - network.bits)

def transitionPriority : Nat := 6004

def transitionExemptions : Family → List Prefix
  | .v4 => [⟨"0.0.0.0", 0, 32⟩, ⟨"169.254.0.0", 0xa9fe0000, 16⟩, ⟨"127.0.0.0", 0x7f000000, 8⟩]
  | .v6 => [⟨"::", 0, 128⟩, ⟨"fe80::", 0xfe80 * 2 ^ 112, 10⟩, ⟨"::1", 1, 128⟩]

def transitionDestinationExemption : Family → Prefix
  | .v4 => ⟨"169.254.0.0", 0xa9fe0000, 16⟩
  | .v6 => ⟨"fe80::", 0xfe80 * 2 ^ 112, 10⟩

def destinationPriority (family : Family) : Nat :=
  priorityEnd + (transitionExemptions family).length

def unspecifiedText : Family → String
  | .v4 => "0.0.0.0"
  | .v6 => "::"

def policyRows (rows : Json) : Except ReconcileError (List (List (String × Json))) :=
  match rows with
  | .array rows => rows.mapM fun row =>
    match row with
    | .object members => .ok members
    | _ => .error "invalid native policy rules"
  | _ => .error "invalid native policy rules"

def rowsAt (priority : Nat) (rows : List (List (String × Json))) : List (List (String × Json)) :=
  rows.filter fun members => isNumber priority (getItem "priority" members)

def missingOr (holds : Option Json → Bool) (field : Option Json) : Bool :=
  field.isNone || holds field

def ownedProtocol (members : List (String × Json)) : Bool :=
  strIs protocol (getItem "protocol" members) || strIs "kernel" (getItem "protocol" members)

def mainTable (members : List (String × Json)) : Bool :=
  strIs "254" (getItem "table" members) || strIs "main" (getItem "table" members)

def anySource (family : Family) (members : List (String × Json)) : Bool :=
  missingOr (fun field => isText "all" field || isText (unspecifiedText family) field)
      (getItem "src" members) &&
    missingOr (isNumber 0) (getItem "srclen" members)

def transitionGuardPresent (rows : Json) (family : Family) : Except ReconcileError Bool := do
  let rows ← policyRows rows
  match rowsAt transitionPriority rows with
  | [] => .ok false
  | [members] =>
    if hasOnly ["priority", "src", "srclen", "iif", "action", "protocol"] members &&
        anySource family members && isText "lo" (getItem "iif" members) &&
        (isText "unreachable" (getItem "action" members) || isText "7" (getItem "action" members)) &&
        ownedProtocol members then .ok true
    else .error "routing-domain transition priority ownership conflict"
  | _ => .error "ambiguous routing-domain transition priority"

def sourceExemption (family : Family) (network : Prefix) (members : List (String × Json)) : Bool :=
  hasOnly ["priority", "src", "srclen", "iif", "table", "protocol"] members &&
    isText network.text (getItem "src" members) &&
    (if (getItem "srclen" members).isNone then network.bits = family.width
      else isNumber network.bits (getItem "srclen" members)) &&
    isText "lo" (getItem "iif" members) && mainTable members && ownedProtocol members

def destinationExemption (family : Family) (network : Prefix) (members : List (String × Json)) :
    Bool :=
  hasOnly ["priority", "src", "srclen", "dst", "dstlen", "iif", "table", "protocol"] members &&
    anySource family members && isText network.text (getItem "dst" members) &&
    isNumber network.bits (getItem "dstlen" members) && isText "lo" (getItem "iif" members) &&
    mainTable members && ownedProtocol members

def exemptionPresent (form : List (String × Json) → Bool) (priority : Nat)
    (rows : List (List (String × Json))) : Except ReconcileError (List Nat) :=
  match rowsAt priority rows with
  | [] => .ok []
  | [members] =>
    if form members then .ok [priority]
    else .error "routing-domain exemption priority ownership conflict"
  | _ => .error "ambiguous routing-domain exemption priority"

def transitionExemptionsPresent (rows : Json) (family : Family) :
    Except ReconcileError (Finset Nat) := do
  let rows ← policyRows rows
  let sources ← (transitionExemptions family).zipIdx.mapM fun exemption =>
    exemptionPresent (sourceExemption family exemption.1) (priorityEnd + exemption.2) rows
  let destination ← exemptionPresent
    (destinationExemption family (transitionDestinationExemption family))
    (destinationPriority family) rows
  .ok (sources.flatten ++ destination).toFinset

/-! ### Commands -/

/-- The rules that the service owns: the pairs of both families, and for each family the
exemptions and the terminal guard. -/
structure Kernel where
  owned : Finset Rule
  exempt : Family → Finset Nat
  terminal : Family → Bool

/-- One `ip rule` command. -/
inductive Command where
  | rule (edit : Edit Rule)
  | exemption (family : Family) (priority : Nat) (enable : Bool)
  | terminal (family : Family) (enable : Bool)
  deriving DecidableEq, Repr

def switchExemption (priorities : Finset Nat) (priority : Nat) (enable : Bool) : Finset Nat :=
  if enable then insert priority priorities else priorities.erase priority

def Command.apply (kernel : Kernel) : Command → Kernel
  | .rule edit => { kernel with owned := edit.apply kernel.owned }
  | .exemption family priority enable =>
    let changed := switchExemption (kernel.exempt family) priority enable
    { kernel with exempt := Function.update kernel.exempt family changed }
  | .terminal family enable =>
    { kernel with terminal := Function.update kernel.terminal family enable }

def runCommands (commands : List Command) (kernel : Kernel) : Kernel :=
  commands.foldl Command.apply kernel

def exemptionPriorities (family : Family) : List Nat :=
  (List.range ((transitionExemptions family).length + 1)).map fun offset => priorityEnd + offset

def setGuardLocked (family : Family) (enable : Bool) (rows : Json) :
    Except ReconcileError (List Command) := do
  let _ ← ownedRules rows family
  let present ← transitionGuardPresent rows family
  let exemptions ← transitionExemptionsPresent rows family
  let first := if enable && !present then [Command.terminal family true] else []
  let changes := (exemptionPriorities family).filterMap fun priority =>
    if (decide (priority ∈ exemptions)) ≠ enable then some (.exemption family priority enable)
    else none
  let last := if !enable && present then [Command.terminal family false] else []
  .ok (first ++ changes ++ last)

/-! ### The tables of the sources -/

structure Interface where
  (name mac : String)
  table : Nat
  managementUi : Option Bool
  known : table = 100 ∨ table = 200
  deriving DecidableEq

theorem table_100_known : 100 = 100 ∨ 100 = 200 := .inl rfl

theorem table_200_known : 200 = 100 ∨ 200 = 200 := .inr rfl

structure HeldAddress where
  interface : Interface
  address : Address
  deriving DecidableEq

structure Intent where
  interfaces : List Interface
  heldAddresses : List HeldAddress

structure NativeLink where
  (name mac : String)
  sources : List Address

/-- Truth of a JSON value; the inventory has no fractions. -/
def truthy : Option Json → Bool
  | some (.bool value) => value
  | some (.int value) => value ≠ 0
  | some (.string value) => value ≠ ""
  | some (.array items) => !items.isEmpty
  | some (.object members) => !members.isEmpty
  | some (.real _) => true
  | some .null | none => false

def hasFlag (flag : String) (flags : List Json) : Bool :=
  flags.any fun item => isText flag (some item)

def isZero : Option Json → Bool
  | some (.bool false) => true
  | value => isNumber 0 value

/-- The source of one address entry; `none` is an entry that is passed over. -/
def entrySource (entry : Json) : Except ReconcileError (Option Address) :=
  match entry with
  | .object members =>
    match (getItem "flags" members).getD (.array []) with
    | .array flags =>
      if ["tentative", "dadfailed"].any fun flag =>
          truthy (getItem flag members) || hasFlag flag flags then .ok none
      else if isZero (getItem "valid_life_time" members) then .ok none
      else .ok (usableAddress (getItem "local" members)).toOption
    | _ => .error "invalid native address flags"
  | _ => .error "invalid native address"

/-- `str(link.get("address", "")).lower()`; a value that is not a text is no MAC address. -/
def linkMac (members : List (String × Json)) : String :=
  match getItem "address" members with
  | some (.string text) => text.toLower
  | _ => ""

def readLink (known : List NativeLink) (link : Json) : Except ReconcileError (List NativeLink) :=
  match link with
  | .object members =>
    match getItem "ifname" members with
    | some (.string name) =>
      if name ∈ known.map NativeLink.name then .error "ambiguous native link inventory"
      else
        match getItem "addr_info" members with
        | some (.array entries) =>
          if 4096 < entries.length then .error "invalid native addresses"
          else do
            let sources ← entries.mapM entrySource
            .ok (known ++ [⟨name, linkMac members, (sources.filterMap id).dedup⟩])
        | _ => .error "invalid native addresses"
    | _ => .error "invalid native link inventory"
  | _ => .error "invalid native link inventory"

def readLinks (inventory : Json) : Except ReconcileError (List NativeLink) :=
  match inventory with
  | .array links =>
    if 4096 < links.length then .error "invalid native address inventory"
    else links.foldlM readLink []
  | _ => .error "invalid native address inventory"

/-- The owners of sources: the interfaces, and those of held addresses that are not among
them. -/
def owners (intent : Intent) : List Interface :=
  let interfaces := ofPairs (intent.interfaces.map fun row => ((row.name, row.mac), row))
  (intent.heldAddresses.foldl (fun known row =>
    match getItem (row.interface.name, row.interface.mac) known with
    | some _ => known
    | none => setItem (row.interface.name, row.interface.mac) row.interface known)
    interfaces).map Prod.snd

def heldOwner (intent : Intent) (name : String) (source : Address) : Option Interface :=
  (getItem (name, source) (ofPairs (intent.heldAddresses.map fun row =>
    ((row.interface.name, row.address), row)))).map HeldAddress.interface

def ownedSourceTable (intent : Intent) (interface : Interface) (source : Address) : Option Nat :=
  match heldOwner intent interface.name source with
  | some held =>
    if held.mac = interface.mac then some held.table
    else if interface ∈ intent.interfaces then some interface.table
    else none
  | none => if interface ∈ intent.interfaces then some interface.table else none

def addOwner (intent : Intent) (links : List NativeLink)
    (state : List (Address × List Nat) × Bool) (interface : Interface) :
    List (Address × List Nat) × Bool :=
  match links.find? fun link => link.name = interface.name with
  | none => (state.1, true)
  | some link =>
    if link.mac ≠ interface.mac then (state.1, true)
    else (link.sources.foldl (fun tables source =>
      match ownedSourceTable intent interface source with
      | none => tables
      | some table => setItem source (((getItem source tables).getD []).insert table) tables)
      state.1, state.2)

theorem add_source_distinct (intent : Intent) (interface : Interface) (sources : List Address)
    {tables : List (Address × List Nat)} (distinct : (tables.map Prod.fst).Nodup) :
    ((sources.foldl (fun tables source =>
      match ownedSourceTable intent interface source with
      | none => tables
      | some table => setItem source (((getItem source tables).getD []).insert table) tables)
      tables).map Prod.fst).Nodup := by
  induction sources generalizing tables with
  | nil => exact distinct
  | cons source sources induction =>
    rw [List.foldl_cons]
    refine induction ?_
    cases ownedSourceTable intent interface source with
    | none => exact distinct
    | some table => exact set_item_distinct _ _ distinct

theorem add_owner_distinct (intent : Intent) (links : List NativeLink)
    {state : List (Address × List Nat) × Bool} (distinct : (state.1.map Prod.fst).Nodup)
    (interface : Interface) : ((addOwner intent links state interface).1.map Prod.fst).Nodup := by
  unfold addOwner
  split
  · exact distinct
  · split_ifs
    · exact distinct
    · exact add_source_distinct intent interface _ distinct

def collectTables (intent : Intent) (links : List NativeLink) : List (Address × List Nat) × Bool :=
  (owners intent).foldl (addOwner intent links) ([], false)

theorem collect_tables_distinct (intent : Intent) (links : List NativeLink) :
    ((collectTables intent links).1.map Prod.fst).Nodup := by
  have run : ∀ (rows : List Interface) (state : List (Address × List Nat) × Bool),
      (state.1.map Prod.fst).Nodup →
        ((rows.foldl (addOwner intent links) state).1.map Prod.fst).Nodup := by
    intro rows
    induction rows with
    | nil => exact fun _ distinct => distinct
    | cons row rows induction =>
      exact fun state distinct => induction _ (add_owner_distinct intent links distinct row)
  exact run (owners intent) ([], false) List.nodup_nil

def resolvedTable (links : List NativeLink) (source : Address) (tables : List Nat) : Option Nat :=
  match tables with
  | [table] =>
    if (links.filter fun link => source ∈ link.sources).length = 1 then some table else none
  | _ => none

def sourceTables (intent : Intent) (inventory : Json) : Except ReconcileError (SourceMap × Bool) := do
  let links ← readLinks inventory
  let collected := collectTables intent links
  .ok (⟨collected.1.map fun entry => (entry.1, resolvedTable links entry.1 entry.2), by
    simpa only [List.map_map, Function.comp_def] using collect_tables_distinct intent links⟩,
    collected.2)

/-! ### The run -/

/-- `sources[source] = None`. -/
def quarantine (sources : SourceMap) (source : Address) : SourceMap :=
  ⟨setItem source none sources.pairs, set_item_distinct _ _ sources.distinct⟩

def keepsTable (existing : Finset Rule) (sources : SourceMap) (source : Address) : Bool :=
  match getItem source sources.pairs with
  | some (some table) => ∃ rule ∈ existing, rule.source = source ∧ rule.table = some table
  | _ => false

def quarantineUnproven (existing : Finset Rule) (sources : SourceMap) : SourceMap :=
  ((existing.sort (· ≤ ·)).map Rule.source).dedup.foldl (fun sources source =>
    if keepsTable existing sources source then sources else quarantine sources source) sources

/-- What one run reads, in the order of the reads. -/
structure Observations where
  (guardsV4 guardsV6 : Except ReconcileError Json)
  intent : Except ReconcileError Intent
  (inventory rulesV4 rulesV6 : Except ReconcileError Json)

def ruleCommands (sha256 : List UInt8 → List UInt8) (observed : Observations) :
    Except ReconcileError (List (Edit Rule) × Bool) := do
  let intent ← observed.intent
  let inventory ← observed.inventory
  let (assigned, incomplete) ← sourceTables intent inventory
  let rulesV4 ← observed.rulesV4
  let ownedV4 ← ownedRules rulesV4 .v4
  let rulesV6 ← observed.rulesV6
  let ownedV6 ← ownedRules rulesV6 .v6
  let existing := ownedV4 ∪ ownedV6
  let sources := if incomplete then quarantineUnproven existing assigned else assigned
  let desired ← planRules sha256 sources existing
  let edits ← applyRules desired existing
  .ok (edits, incomplete || sources.pairs.any fun pair => pair.2.isNone)

/-- `reconcile`: the commands that a run issues when none of them fails, and its result. A
command that fails ends the run after a part of these commands. -/
def reconcile (sha256 : List UInt8 → List UInt8) (observed : Observations) :
    List Command × Except ReconcileError Unit :=
  match observed.guardsV4 >>= setGuardLocked .v4 true with
  | .error message => ([], .error message)
  | .ok guardV4 =>
    match observed.guardsV6 >>= setGuardLocked .v6 true with
    | .error message => (guardV4, .error message)
    | .ok guardV6 =>
      match ruleCommands sha256 observed with
      | .error message => (guardV4 ++ guardV6, .error message)
      | .ok (edits, quarantined) =>
        (guardV4 ++ guardV6 ++ edits.map .rule,
          if quarantined then
            .error "interface identity unavailable or duplicate source quarantined"
          else .ok ())

/-! ### Policy routing -/

/-- A packet that the appliance itself sends. -/
structure Packet where
  (source destination : Address)
  families : source.family = destination.family

inductive Action where
  | unreachable
  | lookup (table : Nat)
  deriving DecidableEq, Repr

structure PolicyRule where
  priority : Nat
  selects : Packet → Bool
  action : Action

def mainTableNumber : Nat := 254

def mainPriority : Nat := 32766

def rulePolicy (rule : Rule) : PolicyRule where
  priority := rule.priority
  selects := fun packet => packet.source = rule.source
  action := match rule.table with
    | none => .unreachable
    | some table => .lookup table

/-- The exemption of a priority; its offset says which prefix it has. -/
def exemptionPolicy (family : Family) (priority : Nat) : PolicyRule where
  priority := priority
  selects := fun packet =>
    match (transitionExemptions family)[priority - priorityEnd]? with
    | some network => network.contains family packet.source
    | none => (transitionDestinationExemption family).contains family packet.destination
  action := .lookup mainTableNumber

def terminalPolicy : PolicyRule := ⟨transitionPriority, fun _ => true, .unreachable⟩

def mainPolicy : PolicyRule := ⟨mainPriority, fun _ => true, .lookup mainTableNumber⟩

def policyRules (kernel : Kernel) (family : Family) : List PolicyRule :=
  let owned := ((kernel.owned.filter fun rule => rule.family = family).sort (· ≤ ·)).map rulePolicy
  let exempt := ((kernel.exempt family).sort (· ≤ ·)).map (exemptionPolicy family)
  let terminal := if kernel.terminal family then [terminalPolicy] else []
  (owned ++ exempt ++ terminal ++ [mainPolicy]).insertionSort fun left right =>
    left.priority ≤ right.priority

/-- The table that routes the packet, or none for an unreachable one. A lookup falls through
when its table has no route for the packet. -/
def walk (hasRoute : Nat → Packet → Bool) (packet : Packet) : List PolicyRule → Option Nat
  | [] => none
  | rule :: rules =>
    if rule.selects packet then
      match rule.action with
      | .unreachable => none
      | .lookup table => if hasRoute table packet then some table else walk hasRoute packet rules
    else walk hasRoute packet rules

def route (hasRoute : Nat → Packet → Bool) (kernel : Kernel) (packet : Packet) : Option Nat :=
  walk hasRoute packet (policyRules kernel packet.source.family)

end Atlaso.Routing.Reconciliation
