import Atlaso.Library.Outcomes
import Atlaso.Library.RowTables
import Mathlib.Data.List.Sort
import Mathlib.Data.String.Basic

/-!
Inventory reports and the hosts that they are stored for.

A report is attached to a host of its DMI UUID that has a MAC in common with it, or to the host of
its primary MAC. Otherwise it creates a host, whose key is fixed from then on while its MACs are
those of the last report.
-/

namespace Atlaso.NetworkBoot.InventoryReports

open Library Outcomes RowTables

def NETWORK_BOOT_REPORTS_PER_HOST : Nat := 11

def NETWORK_BOOT_MAX_HOSTS : Nat := 512

def NETWORK_BOOT_MAX_REPORTS : Nat := 2048

inductive Failure where
  | valueError (message : String)
  | integrityError
  deriving DecidableEq, Repr

/-! ### Reports -/

structure Interface where
  (permanentMac currentMac : String)
  deriving DecidableEq, Repr

/-- The MACs that a report names, with empty texts for those it leaves out. -/
def namedMacs (bootMac : String) (interfaces : List Interface) : List String :=
  bootMac :: interfaces.flatMap fun row => [row.permanentMac, row.currentMac]

/-- A normalized inventory report. One without a DMI UUID and without a MAC is refused before. -/
structure InventoryReport where
  schemaVersion : Nat
  (bootMac dmiUuid manufacturer productName serialNumber cpuModel : String)
  totalMemoryBytes : Nat
  disks : List String
  interfaces : List Interface
  identified : dmiUuid ≠ "" ∨ ∃ mac ∈ namedMacs bootMac interfaces, mac ≠ ""
  deriving DecidableEq

/-- The `or` of two texts. -/
def orText (first second : String) : String := if first = "" then second else first

def sortedSet (texts : List String) : List String := texts.dedup.insertionSort (· ≤ ·)

def reportMacs (report : InventoryReport) : List String :=
  sortedSet ((report.bootMac ::
    report.interfaces.map fun row => orText row.permanentMac row.currentMac).filter (· ≠ ""))

def primaryMac (bootMac : String) (macs : List String) : String := orText bootMac (macs.headD "")

/-- The key, the DMI UUID and the MACs; `digest` is the beginning of SHA-256 in hexadecimals. -/
def reportIdentity (digest : String → String) (report : InventoryReport) :
    String × String × List String :=
  let macs := reportMacs report
  if report.dmiUuid ≠ "" then
    ("uuid:" ++ report.dmiUuid ++ ":" ++ digest ("|".intercalate macs), report.dmiUuid, macs)
  else ("mac:" ++ primaryMac report.bootMac macs, "", macs)

/-! ### Rows -/

structure DiscoveredHost where
  id : Nat
  (identityKey dmiUuid bootMac : String)
  macs : List String
  (manufacturer productName serialNumber cpuModel : String)
  (totalMemoryBytes diskCount interfaceCount : Nat)
  collision : Bool
  lastSeenAt : Nat
  latestReportId : Option Nat
  deriving DecidableEq, Repr

structure StoredReport where
  (id hostId : Nat)
  sessionId : String
  schemaVersion : Nat
  payload : InventoryReport
  receivedAt : Nat
  deriving DecidableEq

structure InventorySession where
  (id boundIdentityKey : String)
  (hostId reportSubmittedAt heartbeatAt : Option Nat)
  deriving DecidableEq, Repr

structure Store where
  hosts : List DiscoveredHost
  reports : List StoredReport
  deriving DecidableEq

def Store.empty : Store := ⟨[], []⟩

/-- The order in which a query returns its rows when it asks for none. -/
structure Arrangement (Row : Type) where
  arrange : List Row → List Row
  same : ∀ rows, (arrange rows).Perm rows

/-- The identifier of a new row. -/
def nextId (ids : List Nat) : Nat := ids.foldr max 0 + 1

/-! ### Pruning -/

def reportCount (store : Store) (host : DiscoveredHost) : Nat :=
  store.reports.countP fun row => row.hostId = host.id

def hostRows (store : Store) : List (Nat × Nat) :=
  (store.hosts.insertionSort fun first second =>
    second.lastSeenAt < first.lastSeenAt ∨
      first.lastSeenAt = second.lastSeenAt ∧ second.id ≤ first.id).map
    fun host => (host.id, reportCount store host)

def retainHost (protectedHost : Nat → Bool) (retained : List Nat × Nat) (row : Nat × Nat) :
    List Nat × Nat :=
  if protectedHost row.1 then retained
  else if retained.1.length < NETWORK_BOOT_MAX_HOSTS ∧
      retained.2 + row.2 ≤ NETWORK_BOOT_MAX_REPORTS then
    (retained.1 ++ [row.1], retained.2 + row.2)
  else retained

def preserved (protectedHosts : List Nat) (preserveHostId id : Nat) : Bool :=
  id ∈ preserveHostId :: protectedHosts

/-- `protectedHosts` are those with a live session, an open command or an assignment. -/
def pruneInventoryStorage (protectedHosts : List Nat) (preserveHostId : Nat) (store : Store) :
    Except Failure Store :=
  let protectedHost := preserved protectedHosts preserveHostId
  let rows := hostRows store
  let live := rows.filter fun row => protectedHost row.1
  let liveReports := (live.map Prod.snd).sum
  if NETWORK_BOOT_MAX_HOSTS < live.length ∨ NETWORK_BOOT_MAX_REPORTS < liveReports then
    .error (.valueError
      "Inventory storage capacity is occupied by live or assigned hosts; retry later.")
  else
    let retained := (rows.foldl (retainHost protectedHost) (live.map Prod.fst, liveReports)).1
    let pruned := (rows.map Prod.fst).filter fun id => id ∉ retained
    if pruned = [] then .ok store
    else .ok {
      hosts := store.hosts.filter fun host => host.id ∉ pruned
      reports := store.reports.filter fun row => row.hostId ∉ pruned }

/-! ### Storing a report -/

/-- The rows that a report may belong to. -/
def isCandidate (key dmiUuid : String) (host : DiscoveredHost) : Bool :=
  if dmiUuid ≠ "" then host.dmiUuid = dmiUuid else host.identityKey = key

/-- The host shares a MAC with the report, or there is nothing to share. -/
def intersects (macs : List String) (host : DiscoveredHost) : Bool :=
  macs = [] || host.macs.any fun mac => mac ∈ macs

def newHost (id : Nat) (key dmiUuid : String) (collision : Bool) (now : Nat) : DiscoveredHost where
  id := id
  identityKey := key
  dmiUuid := dmiUuid
  bootMac := ""
  macs := []
  manufacturer := ""
  productName := ""
  serialNumber := ""
  cpuModel := ""
  totalMemoryBytes := 0
  diskCount := 0
  interfaceCount := 0
  collision := collision
  lastSeenAt := now
  latestReportId := none

def addHost (host : DiscoveredHost) (hosts : List DiscoveredHost) :
    Except Failure (List DiscoveredHost) :=
  if ∃ other ∈ hosts, other.identityKey = host.identityKey then .error .integrityError
  else .ok (hosts ++ [host])

def flagHosts (ids : List Nat) (hosts : List DiscoveredHost) : List DiscoveredHost :=
  hosts.map fun host => if host.id ∈ ids then { host with collision := true } else host

def describeHost (report : InventoryReport) (fresh : Bool) (now : Nat) (host : DiscoveredHost) :
    DiscoveredHost :=
  { host with
    bootMac := if fresh then report.bootMac else host.bootMac
    macs := if fresh then reportMacs report else host.macs
    manufacturer := report.manufacturer
    productName := report.productName
    serialNumber := report.serialNumber
    cpuModel := report.cpuModel
    totalMemoryBytes := report.totalMemoryBytes
    diskCount := report.disks.length
    interfaceCount := report.interfaces.length
    lastSeenAt := now }

def retainReports (hostId : Nat) (reports : List StoredReport) : List StoredReport :=
  let ordered := (reports.filter fun row => row.hostId = hostId).insertionSort fun first second =>
    second.receivedAt < first.receivedAt ∨
      first.receivedAt = second.receivedAt ∧ second.id ≤ first.id
  let retained := (ordered.take NETWORK_BOOT_REPORTS_PER_HOST).map StoredReport.id
  if retained = [] then reports
  else reports.filter fun row => ¬(row.hostId = hostId ∧ row.id ∉ retained)

def findHost (store : Store) (key dmiUuid : String) (candidates : List DiscoveredHost)
    (macs : List String) (now : Nat) : Except Failure (DiscoveredHost × List DiscoveredHost) :=
  match candidates.find? (intersects macs) with
  | some host => .ok (host, store.hosts)
  | none =>
    let collision := dmiUuid ≠ "" && candidates ≠ []
    let host := newHost (nextId (store.hosts.map DiscoveredHost.id)) key dmiUuid collision now
    do
      let hosts ← addHost host store.hosts
      return (host, if collision then flagHosts (candidates.map DiscoveredHost.id) hosts else hosts)

def recordReport (protectedHosts : List Nat) (now : Nat) (session : InventorySession)
    (report : InventoryReport) (fresh : Bool) (found : DiscoveredHost) (tables : Store) :
    Except Failure (Store × InventorySession × DiscoveredHost × StoredReport) :=
  if session.boundIdentityKey ≠ "" ∧ session.boundIdentityKey ≠ found.identityKey then
    .error (.valueError "Inventory session identity does not match the submitted host.")
  else
    let stored := StoredReport.mk (nextId (tables.reports.map StoredReport.id)) found.id session.id
      report.schemaVersion report now
    let host := { describeHost report fresh now found with latestReportId := some stored.id }
    let submitted := { session with
      boundIdentityKey := found.identityKey
      hostId := some found.id
      reportSubmittedAt := some now
      heartbeatAt := some now }
    let written := {
      hosts := replaceRow DiscoveredHost.id host tables.hosts
      reports := retainReports found.id (tables.reports ++ [stored]) }
    match pruneInventoryStorage protectedHosts found.id written with
    | .error failure => .error failure
    | .ok after => .ok (after, submitted, host, stored)

def storeInventoryReport (digest : String → String) (queried : Arrangement DiscoveredHost)
    (protectedHosts : List Nat) (now : Nat) (session : InventorySession)
    (report : InventoryReport) (store : Store) :
    Except Failure (Store × InventorySession × DiscoveredHost × StoredReport) :=
  if session.reportSubmittedAt.isSome then
    .error (.valueError "This inventory session has already submitted its report.")
  else
    let (key, dmiUuid, macs) := reportIdentity digest report
    let candidates := queried.arrange (store.hosts.filter (isCandidate key dmiUuid))
    if dmiUuid ≠ "" ∧ macs = [] ∧ 1 < candidates.length then
      .error (.valueError
        "Inventory report DMI UUID matches multiple hosts; a valid MAC is required.")
    else
      match findHost store key dmiUuid candidates macs now with
      | .error failure => .error failure
      | .ok (found, hosts) =>
        recordReport protectedHosts now session report (macs ≠ [] ∨ candidates = []) found
          ⟨hosts, store.reports⟩

end Atlaso.NetworkBoot.InventoryReports
