import Atlaso.Library.ByteWords
import Atlaso.Library.IpAddress
import Atlaso.Library.JsonText
import Atlaso.Library.SetEdits
import Mathlib.Data.Prod.Lex

/-!
The source rules of `route_domains.py`: which native rules are owned, the plan of stable
slots for a map of sources, and the transaction of `ip rule` commands that carries a plan
out.

A source text is the canonical text of an address and is written as the address. A set of
rules is read in the order of its elements where the source reads it in no order. SHA-256
is a parameter.
-/

namespace Atlaso.Routing.SourceRules

open Library ByteWords Dictionary IpAddress JsonText SetEdits

abbrev ReconcileError := String

def protocol : String := "2"
def priorityStart : Nat := 5000
def priorityEnd : Nat := 6000

structure Rule where
  priority : Nat
  source : Address
  table : Option Nat
  deriving DecidableEq, Repr

namespace Rule

def family (rule : Rule) : Family := rule.source.family

/-- The even priority that the pair of a source shares. -/
def slot (rule : Rule) : Nat := rule.priority - rule.priority % 2

def guard (slot : Nat) (source : Address) : Rule := ⟨slot + 1, source, none⟩

def lookup (slot : Nat) (source : Address) (table : Nat) : Rule := ⟨slot, source, some table⟩

def code (rule : Rule) : Nat ×ₗ Nat ×ₗ Nat ×ₗ Nat :=
  toLex (rule.family.version, toLex (rule.priority, toLex (rule.source.number,
    match rule.table with
    | none => 0
    | some table => table + 1)))

theorem code_injective : Function.Injective code := by
  intro left right same
  obtain ⟨priority, source, table⟩ := left
  obtain ⟨otherPriority, otherSource, otherTable⟩ := right
  simp only [code, family, EmbeddingLike.apply_eq_iff_eq, Prod.mk.injEq] at same
  obtain ⟨version, rfl, number, tables⟩ := same
  have families : source.family = otherSource.family := by
    cases ours : source.family <;> cases theirs : otherSource.family <;>
      simp [ours, theirs, Family.version] at version ⊢
  obtain rfl := address_ext families number
  cases table <;> cases otherTable <;> simp at tables ⊢
  exact tables

instance : LinearOrder Rule := LinearOrder.lift' code code_injective

instance : IsTrans Rule fun left right => left ≤ right := inferInstance

instance : Std.Antisymm fun left right : Rule => left ≤ right := inferInstance

instance : Std.Total fun left right : Rule => left ≤ right := inferInstance

end Rule

/-! ### Native rules -/

/-- A unicast address that packets may be sent from. -/
def Usable (address : Address) : Prop :=
  isUnspecified address = false ∧ isMulticast address = false ∧ isLinkLocal address = false ∧
    isLoopback address = false

instance (address : Address) : Decidable (Usable address) := inferInstanceAs (Decidable (_ ∧ _))

def usableAddress (value : Option Json) : Except ReconcileError Address :=
  match value with
  | some (.string text) =>
    if '%' ∈ text.toList then .error "invalid source address"
    else
      match ipAddress text with
      | none => .error "invalid source address"
      | some address =>
        if Usable address then .ok address else .error "unusable source address"
  | _ => .error "invalid source address"

/-- `str(value) == text`, for a text that is not the text of a container or a fraction. -/
def strIs (text : String) : Option Json → Bool
  | some (.string value) => value = text
  | some (.int value) => toString value = text
  | some (.bool true) => text = "True"
  | some (.bool false) => text = "False"
  | some .null | none => text = "None"
  | _ => false

/-- `row.get(field) == text`. -/
def isText (text : String) : Option Json → Bool
  | some (.string value) => value = text
  | _ => false

/-- `row.get(field, default) == number`; a native dump has no fractions. -/
def isNumber (number : Nat) : Option Json → Bool
  | some (.int value) => value = number
  | _ => false

def hasOnly (allowed : List String) (members : List (String × Json)) : Bool :=
  members.all fun member => member.1 ∈ allowed

def ownedTable (members : List (String × Json)) : Except ReconcileError (Option Nat) :=
  let action := getItem "action" members
  let table := getItem "table" members
  if (isText "unreachable" action || isText "7" action) && table.isNone then .ok none
  else if action.isNone && strIs "100" table then .ok (some 100)
  else if action.isNone && strIs "200" table then .ok (some 200)
  else .error "noncanonical owned policy action"

/-- One row inside the owned range. -/
def ownedRule (family : Family) (priority : Nat) (members : List (String × Json)) :
    Except ReconcileError Rule :=
  if strIs protocol (getItem "protocol" members) = false then
    .error "routing-domain priority ownership conflict"
  else if hasOnly ["priority", "src", "srclen", "iif", "table", "action", "protocol"] members = false ∨
      isText "lo" (getItem "iif" members) = false then
    .error "noncanonical owned policy rule"
  else do
    let source ← usableAddress (getItem "src" members)
    if source.family ≠ family ∨ ((getItem "srclen" members).isSome ∧
        isNumber family.width (getItem "srclen" members) = false) then
      .error "noncanonical owned source prefix"
    else
      let table ← ownedTable members
      .ok ⟨priority, source, table⟩

/-- One step of the loop over the rows. -/
def addOwned (family : Family) (rules : Finset Rule) (row : Json) :
    Except ReconcileError (Finset Rule) :=
  match row with
  | .object members =>
    match getItem "priority" members with
    | some (.int priority) =>
      if priority < priorityStart ∨ priorityEnd ≤ priority then .ok rules
      else do
        let rule ← ownedRule family priority.toNat members
        if rule.priority % 2 ≠ (if rule.table.isNone then 1 else 0) ∨
            ∃ other ∈ rules, other.priority = rule.priority then
          .error "ambiguous owned policy priority"
        else .ok (insert rule rules)
    | _ => .error "invalid native policy rule"
  | _ => .error "invalid native policy rule"

def ownedRules (rows : Json) (family : Family) : Except ReconcileError (Finset Rule) :=
  match rows with
  | .array rows =>
    if 16384 < rows.length then .error "invalid native policy rules"
    else rows.foldlM (addOwned family) ∅
  | _ => .error "invalid native policy rules"

/-! ### The plan -/

structure SourceMap where
  pairs : List (Address × Option Nat)
  distinct : (pairs.map Prod.fst).Nodup

def SourceMap.sources (map : SourceMap) : List Address := map.pairs.map Prod.fst

def capacity : Nat := (priorityEnd - priorityStart) / 2

structure Allocation where
  slots : List ((Family × Address) × Nat)
  occupied : List ((Family × Nat) × Address)

def allocateRule (allocation : Allocation) (rule : Rule) : Except ReconcileError Allocation :=
  let key := (rule.family, rule.source)
  let location := (rule.family, rule.slot)
  if (∃ slot, getItem key allocation.slots = some slot ∧ slot ≠ rule.slot) ∨
      (∃ source, getItem location allocation.occupied = some source ∧ source ≠ rule.source) then
    .error "ambiguous source rule allocation"
  else .ok ⟨setItem key rule.slot allocation.slots, setItem location rule.source allocation.occupied⟩

def allocate (existing : Finset Rule) : Except ReconcileError Allocation :=
  (existing.sort (· ≤ ·)).foldlM allocateRule ⟨[], []⟩

def slotOrder (start : Nat) : List Nat :=
  (List.range capacity).map fun step => priorityStart + 2 * ((start + step) % capacity)

def startOf (sha256 : List UInt8 → List UInt8) (source : Address) : Nat :=
  fromBytesBig ((sha256 (utf8Encode source.text)).take 4) % capacity

def newSlot (sha256 : List UInt8 → List UInt8) (wanted : List Address)
    (occupied : List ((Family × Nat) × Address)) (source : Address) : Option Nat :=
  let order := slotOrder (startOf sha256 source)
  match order.find? fun slot => (getItem (source.family, slot) occupied).isNone with
  | some slot => some slot
  | none => order.find? fun slot =>
    match getItem (source.family, slot) occupied with
    | some holder => holder ∉ wanted
    | none => true

def sourceRules (slot : Nat) (source : Address) (table : Option Nat) : Finset Rule :=
  match table with
  | none => {Rule.guard slot source}
  | some table => {Rule.guard slot source, Rule.lookup slot source table}

/-- One step of the loop over the sources. -/
def planSource (sha256 : List UInt8 → List UInt8) (wanted : List Address)
    (slots : List ((Family × Address) × Nat))
    (planned : List ((Family × Nat) × Address) × Finset Rule) (pair : Address × Option Nat) :
    Except ReconcileError (List ((Family × Nat) × Address) × Finset Rule) :=
  match getItem (pair.1.family, pair.1) slots with
  | some slot => .ok (planned.1, planned.2 ∪ sourceRules slot pair.1 pair.2)
  | none =>
    match newSlot sha256 wanted planned.1 pair.1 with
    | none => .error "routing-domain priority capacity exhausted"
    | some slot => .ok (setItem (pair.1.family, slot) pair.1 planned.1,
        planned.2 ∪ sourceRules slot pair.1 pair.2)

def planRules (sha256 : List UInt8 → List UInt8) (sources : SourceMap) (existing : Finset Rule) :
    Except ReconcileError (Finset Rule) := do
  let allocation ← allocate existing
  let order := sources.pairs.insertionSort fun left right => left.1.text ≤ right.1.text
  let planned ← order.foldlM (planSource sha256 sources.sources allocation.slots)
    (allocation.occupied, ∅)
  .ok planned.2

/-! ### The transaction -/

def sortKey (rule : Rule) : Nat ×ₗ Nat ×ₗ String ×ₗ Nat :=
  toLex (rule.family.version, toLex (rule.priority, toLex (rule.source.text, rule.table.getD 0)))

/-- Lookups before guards. -/
def retireKey (rule : Rule) : Bool ×ₗ Nat ×ₗ Nat ×ₗ String ×ₗ Nat :=
  toLex (rule.table.isNone, sortKey rule)

def reclaimedRules (desired existing : Finset Rule) : Finset Rule :=
  existing.filter fun rule => ∃ replacement ∈ desired, replacement.family = rule.family ∧
    replacement.slot = rule.slot ∧ replacement.source ≠ rule.source

def guardRules (rules : Finset Rule) : Finset Rule :=
  rules.image fun rule => Rule.guard rule.slot rule.source

def changingRules (desired remaining : Finset Rule) : Finset Rule :=
  (remaining \ desired).filter fun rule =>
    rule.table.isSome ∧ ∃ wanted ∈ desired, wanted.source = rule.source

/-- The commands up to the last guard. -/
def guardPhase (desired existing : Finset Rule) : List (Edit Rule) :=
  let reclaimed := reclaimedRules desired existing
  let remaining := existing \ reclaimed
  let guards := guardRules (remaining ∪ desired)
  (sortedBy retireKey reclaimed).map .del ++ (sortedBy sortKey (guards \ remaining)).map .add

/-- The commands after the guards are in place. -/
def lookupPhase (desired existing : Finset Rule) : List (Edit Rule) :=
  let remaining := existing \ reclaimedRules desired existing
  let guards := guardRules (remaining ∪ desired)
  let changing := changingRules desired remaining
  (sortedBy sortKey changing).map .del ++
    ((sortedBy sortKey ((desired \ remaining) \ guards)).map .add ++
      ((sortedBy retireKey ((remaining \ desired) \ changing)).map .del ++
        (sortedBy sortKey ((guards \ remaining) \ desired)).map .del))

/-- `apply_rules`: the commands that it runs, in order. -/
def applyRules (desired existing : Finset Rule) : Except ReconcileError (List (Edit Rule)) :=
  if ∃ rule ∈ reclaimedRules desired existing, ∃ wanted ∈ desired, wanted.source = rule.source then
    .error "live source slot cannot be reclaimed"
  else .ok (guardPhase desired existing ++ lookupPhase desired existing)

end Atlaso.Routing.SourceRules
