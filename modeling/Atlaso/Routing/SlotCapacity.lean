import Atlaso.Routing.Reconciliation
import Atlaso.Routing.RulePlanning

/-!
The capacity of the owned range: exactly which plans fail for want of a slot, and what
the check before an apply promises to the runs that follow it.
-/

namespace Atlaso.Routing.SlotCapacity

open Library Dictionary IpAddress JsonText Outcomes SetEdits
open Reconciliation RulePlanning SourceRules

/-! ### Plans that fail for want of a slot -/

def capacityExhausted : ReconcileError := "routing-domain priority capacity exhausted"

section Failure

variable {sha256 : List UInt8 → List UInt8} {sources : SourceMap} {existing desired : Finset Rule}

def familySources (family : Family) (sources : SourceMap) : List Address :=
  sources.sources.filter fun source => source.family = family

variable {message : ReconcileError} {rule : Rule}

variable {wanted : List Address} {slots : List ((Family × Address) × Nat)}
  {pair : Address × Option Nat} {place : Address → Nat}

theorem plan_source_error {planned : List ((Family × Nat) × Address) × Finset Rule}
    (failed : planSource sha256 wanted slots planned pair = .error message) :
    message = capacityExhausted := by
  unfold planSource at failed
  split at failed
  · cases failed
  · split at failed
    · exact (Except.error.inj failed).symm
    · cases failed

theorem fold_plan_error {rest : List (Address × Option Nat)}
    {planned : List ((Family × Nat) × Address) × Finset Rule}
    (failed : rest.foldlM (planSource sha256 wanted slots) planned = .error message) :
    message = capacityExhausted := by
  induction rest generalizing planned with
  | nil => cases failed
  | cons pair rest induction =>
    rw [List.foldlM_cons] at failed
    cases first : planSource sha256 wanted slots planned pair with
    | error other =>
      rw [first] at failed
      cases failed
      exact plan_source_error first
    | ok middle =>
      rw [first] at failed
      exact induction failed

theorem allocate_rule_error {allocation : Allocation}
    (failed : allocateRule allocation rule = .error message) :
    message = "ambiguous source rule allocation" := by
  unfold allocateRule at failed
  simp only at failed
  split_ifs at failed
  exact (Except.error.inj failed).symm

theorem allocate_error (failed : allocate existing = .error message) :
    message = "ambiguous source rule allocation" := by
  have loop : ∀ (rules : List Rule) (start : Allocation),
      rules.foldlM allocateRule start = .error message →
        message = "ambiguous source rule allocation" := by
    intro rules
    induction rules with
    | nil => exact fun start failed => by cases failed
    | cons rule rules induction =>
      intro start failed
      rw [List.foldlM_cons] at failed
      cases first : allocateRule start rule with
      | error other =>
        rw [first] at failed
        cases failed
        exact allocate_rule_error first
      | ok middle =>
        rw [first] at failed
        exact induction middle failed
  exact loop _ _ failed

theorem exhausted_crowded (canonical : ∀ rule ∈ existing, Canonical rule)
    (failed : planRules sha256 sources existing = .error capacityExhausted) :
    ∃ family, capacity < (familySources family sources).length := by
  by_contra spare
  push Not at spare
  cases allocated : allocate existing with
  | error message =>
    have ambiguous := allocate_error allocated
    rw [planRules, allocated] at failed
    have same := Except.error.inj failed
    rw [ambiguous] at same
    exact absurd same (by decide)
  | ok allocation =>
    obtain ⟨desired, planned⟩ := @plan_rules_succeeds sha256 sources _
      canonical (allocate_ok allocated).1 spare
    rw [planned] at failed
    cases failed

theorem crowded_exhausted (canonical : ∀ rule ∈ existing, Canonical rule)
    (aligned : Aligned (· ∈ existing)) {family : Family}
    (crowded : capacity < (familySources family sources).length) :
    planRules sha256 sources existing = .error capacityExhausted := by
  cases planned : planRules sha256 sources existing with
  | ok desired =>
    obtain ⟨-, place, plan⟩ := plan_rules_ok canonical planned
    exact absurd (plan_room plan family) (Nat.not_le.mpr crowded)
  | error message =>
    obtain ⟨allocation, allocated⟩ := allocate_aligned aligned
    rw [planRules, allocated, ok_bind] at planned
    simp only at planned
    cases folded : (sources.pairs.insertionSort fun left right =>
        left.1.text ≤ right.1.text).foldlM
          (planSource sha256 sources.sources allocation.slots) (allocation.occupied, ∅) with
    | ok after =>
      rw [folded] at planned
      cases planned
    | error other =>
      rw [folded] at planned
      cases planned
      rw [fold_plan_error folded]

/-! ### The rules of a plan -/

/-- What a plan gives: to each source its own slot, at which its one guard and, where it
has a table, its one lookup are. -/
structure ExactPlan (sources : SourceMap) (existing desired : Finset Rule)
    (place : Address → Nat) : Prop where
  guards : ∀ pair ∈ sources.pairs,
    (desired.filter fun rule => rule.source = pair.1 ∧ rule.table = none) =
      {⟨place pair.1 + 1, pair.1, none⟩}
  lookups : ∀ pair ∈ sources.pairs,
    (desired.filter fun rule => rule.source = pair.1 ∧ rule.table ≠ none) =
      match pair.2 with
      | none => ∅
      | some table => {⟨place pair.1, pair.1, some table⟩}
  others : ∀ rule ∈ desired, rule.source ∈ sources.sources
  ranged : ∀ source ∈ sources.sources,
    place source % 2 = 0 ∧ 5000 ≤ place source ∧ place source < 6000
  distinct : ∀ left ∈ sources.sources, ∀ right ∈ sources.sources, left ≠ right →
    left.family = right.family → place left ≠ place right
  kept : ∀ rule ∈ existing, rule.source ∈ sources.sources → place rule.source = rule.slot
  untaken : ∀ rule ∈ existing, rule.source ∈ sources.sources → ∀ taken ∈ desired,
    taken.family = rule.family → taken.slot = rule.slot → taken.source = rule.source

theorem mem_source_rules {slot : Nat} {source : Address} {table : Option Nat} :
    rule ∈ sourceRules slot source table ↔ rule = Rule.guard slot source ∨
      ∃ value, table = some value ∧ rule = Rule.lookup slot source value := by
  cases table with
  | none => simp [sourceRules]
  | some value => simp [sourceRules]

theorem plan_pair_rule (plan : Plan sources existing desired place) (inside : pair ∈ sources.pairs)
    (source : rule.source = pair.1) :
    rule ∈ desired ↔ rule ∈ sourceRules (place pair.1) pair.1 pair.2 := by
  rw [plan.rules]
  constructor
  · rintro ⟨other, belongs, member⟩
    have owner : rule.source = other.1 := by
      rcases mem_source_rules.mp member with rfl | ⟨value, _, rfl⟩ <;> rfl
    have same : other = pair :=
      List.inj_on_of_nodup_map sources.distinct belongs inside (owner.symm.trans source)
    rw [← same]
    exact member
  · exact fun member => ⟨pair, inside, member⟩

theorem exact_plan (plan : Plan sources existing desired place) :
    ExactPlan sources existing desired place := by
  have owner : ∀ rule ∈ desired, ∃ pair ∈ sources.pairs, rule.source = pair.1 ∧
      rule ∈ sourceRules (place pair.1) pair.1 pair.2 := by
    intro rule inside
    obtain ⟨pair, belongs, member⟩ := (plan.rules rule).mp inside
    refine ⟨pair, belongs, ?_, member⟩
    rcases mem_source_rules.mp member with rfl | ⟨value, _, rfl⟩ <;> rfl
  refine ⟨?_, ?_, ?_, plan.owned, ?_, plan.kept, ?_⟩
  · intro pair inside
    ext rule
    rw [Finset.mem_filter, Finset.mem_singleton]
    constructor
    · rintro ⟨member, source, guard⟩
      rcases mem_source_rules.mp ((plan_pair_rule plan inside source).mp member) with
        rfl | ⟨value, _, rfl⟩
      · rfl
      · cases guard
    · rintro rfl
      exact ⟨(plan_pair_rule plan inside rfl).mpr (mem_source_rules.mpr (.inl rfl)), rfl, rfl⟩
  · intro pair inside
    ext rule
    rw [Finset.mem_filter]
    constructor
    · rintro ⟨member, source, lookup⟩
      rcases mem_source_rules.mp ((plan_pair_rule plan inside source).mp member) with
        rfl | ⟨value, table, rfl⟩
      · exact absurd rfl lookup
      · rw [table]
        exact Finset.mem_singleton_self _
    · intro member
      cases table : pair.2 with
      | none =>
        rw [table] at member
        exact absurd member (Finset.notMem_empty rule)
      | some value =>
        rw [table] at member
        obtain rfl := Finset.mem_singleton.mp member
        exact ⟨(plan_pair_rule plan inside rfl).mpr
          (mem_source_rules.mpr (.inr ⟨value, table, rfl⟩)), rfl, by simp⟩
  · intro rule inside
    obtain ⟨pair, belongs, source, -⟩ := owner rule inside
    rw [source]
    exact List.mem_map.mpr ⟨pair, belongs, rfl⟩
  · intro left inLeft right inRight different family same
    exact different (plan.injective left inLeft right inRight family same)
  · intro rule inside wanted taken member family slot
    obtain ⟨pair, belongs, source, rules⟩ := owner taken member
    have inPair : pair.1 ∈ sources.sources := List.mem_map.mpr ⟨pair, belongs, rfl⟩
    have even := (plan.owned pair.1 inPair).1
    have here : taken.slot = place pair.1 := by
      rcases mem_source_rules.mp rules with rfl | ⟨value, _, rfl⟩ <;>
        simp only [Rule.guard, Rule.lookup, Rule.slot] <;> omega
    have same : place pair.1 = place rule.source := by
      rw [← here, slot, plan.kept rule inside wanted]
    rw [source]
    refine plan.injective pair.1 inPair rule.source wanted ?_ same
    rw [← source]
    exact family

/-- A plan fails for want of a slot exactly when a family has more sources than slots, and
otherwise is exact. -/
theorem plan_rules_exact (sha256 : List UInt8 → List UInt8) (sources : SourceMap)
    (existing : Finset Rule) (consistent : Consistent existing) :
    (planRules sha256 sources existing = .error capacityExhausted ↔
        ∃ family, 500 < (familySources family sources).length) ∧
      ((∀ family, (familySources family sources).length ≤ 500) →
        ∃ desired place, planRules sha256 sources existing = .ok desired ∧
          ExactPlan sources existing desired place) := by
  refine ⟨⟨exhausted_crowded consistent.canonical, ?_⟩, ?_⟩
  · rintro ⟨family, crowded⟩
    exact crowded_exhausted consistent.canonical consistent.aligned crowded
  · intro spare
    obtain ⟨desired, planned⟩ := @plan_rules_succeeds sha256 _ _ consistent.canonical
      consistent.aligned spare
    obtain ⟨-, place, plan⟩ := plan_rules_ok consistent.canonical planned
    exact ⟨desired, place, planned, exact_plan plan⟩

end Failure

/-! A wanted source that is new and an existing one that is gone. -/

def sampleSource : Address := .v4 0xc0a83201#32

def goneRules : Finset Rule := {Rule.lookup 5000 (.v4 0x0a000009#32) 100}

def sampleDigest : List UInt8 → List UInt8 := fun _ =>
  [79, 157, 161, 40, 49, 102, 161, 233, 244, 230, 188, 125, 210, 64, 199, 106, 239, 133, 119,
    33, 119, 247, 23, 249, 42, 187, 110, 142, 43, 184, 222, 144]

theorem gone_rules_consistent : Consistent goneRules := by
  refine ⟨?_, ?_, ⟨?_, ?_⟩⟩
  all_goals simp only [goneRules, Finset.mem_singleton]
  · rintro rule rfl
    exact ⟨by decide, by decide, by decide⟩
  · rintro rule rfl other rfl _ _
    rfl
  · rintro rule other rfl rfl _ _
    rfl
  · rintro rule other rfl rfl _
    rfl

theorem sample_plan_exact : ∃ desired place,
    planRules sampleDigest ⟨[(sampleSource, some 200)], by decide⟩ goneRules = .ok desired ∧
      ExactPlan ⟨[(sampleSource, some 200)], by decide⟩ goneRules desired place :=
  (plan_rules_exact sampleDigest ⟨[(sampleSource, some 200)], by decide⟩ goneRules
    gone_rules_consistent).2 fun family => by cases family <;> decide

/-! ### The check before an apply -/

/-- `INTERFACE_PATTERN` and the names that are no interface of their own. -/
def interfaceName (name : String) : Bool :=
  let text := name.toList
  decide (1 ≤ text.length ∧ text.length ≤ 15) &&
    (text.all fun c => c.isAlphanum || c = '_' || c = '.' || c = '-') &&
      decide (name ≠ "." ∧ name ≠ ".." ∧ name ≠ "lo")

def ownerRow (row : Json) : Option (Json × String × Nat) :=
  match row with
  | .object members =>
    if hasOnly ["address", "name", "table"] members = false then none
    else
      match getItem "address" members, getItem "name" members, getItem "table" members with
      | some address, some (.string name), some (.int table) =>
        if (table = 100 ∨ table = 200) ∧ interfaceName name = true then
          some (address, name, table.toNat)
        else none
      | _, _, _ => none
  | _ => none

def candidateSources (candidates : Json) : Except ReconcileError (List Address) :=
  match candidates with
  | .array items =>
    if 512 < items.length then .error "invalid candidate source inventory"
    else do
      let sources ← items.mapM fun item => usableAddress (some item)
      if sources.Nodup then .ok sources else .error "duplicate candidate source address"
  | _ => .error "invalid candidate source inventory"

def candidateOwners (sources : List Address) (owners : Json) :
    Except ReconcileError (List (Address × String × Nat)) :=
  match owners with
  | .array rows =>
    if rows.length ≠ sources.length then .error "invalid candidate source ownership"
    else
      match rows.mapM ownerRow with
      | none => .error "invalid candidate source ownership"
      | some fields => do
          let owned ← fields.mapM fun field => do
            let source ← usableAddress (some field.1)
            .ok (source, field.2)
          if (owned.map Prod.fst).Nodup ∧ (owned.map Prod.fst).toFinset = sources.toFinset then
            .ok owned
          else .error "invalid candidate source ownership"
  | _ => .error "invalid candidate source ownership"

def projectedOwners (sources : List Address) (owners : Option Json) :
    Except ReconcileError (List (Address × String × Nat)) :=
  match owners with
  | none => .ok []
  | some owners => candidateOwners sources owners

def ownerConflicts (links : List NativeLink) (live : SourceMap)
    (owner : Address × String × Nat) : Bool :=
  let holders := (links.filter fun link => owner.1 ∈ link.sources).map NativeLink.name
  (decide (holders ≠ []) && decide (holders ≠ [owner.2.1])) ||
    match getItem owner.1 live.pairs with
    | none => false
    | some table =>
      decide (table ≠ some owner.2.2) && (table.isNone || decide (holders ≠ [owner.2.1]))

/-- What the check reads under the lock. -/
structure Snapshot where
  (rulesV4 rulesV6 inventory : Except ReconcileError Json)
  intent : Except ReconcileError Intent

def checkedRules (rows : Except ReconcileError Json) (family : Family) :
    Except ReconcileError (Finset Rule) := do
  let rows ← rows
  let owned ← ownedRules rows family
  let _ ← transitionGuardPresent rows family
  let _ ← transitionExemptionsPresent rows family
  .ok owned

def reservedMap (existing : Finset Rule) (live : SourceMap) (candidates : List Address) :
    SourceMap :=
  ⟨(((existing.sort (· ≤ ·)).map Rule.source ++ live.sources ++ candidates).dedup).map fun source =>
    (source, none), by
    rw [List.map_map]
    exact (List.map_id _).symm ▸ List.nodup_dedup _⟩

/-- `preflight_capacity`. The loop that collects the native owners repeats the checks of
`source_tables`, which the inventory has passed by then. -/
def preflightCapacity (sha256 : List UInt8 → List UInt8) (snapshot : Snapshot) (candidates : Json)
    (owners : Option Json) : Except ReconcileError Unit := do
  let sources ← candidateSources candidates
  let owned ← projectedOwners sources owners
  let rulesV4 ← checkedRules snapshot.rulesV4 .v4
  let rulesV6 ← checkedRules snapshot.rulesV6 .v6
  let inventory ← snapshot.inventory
  let intent ← snapshot.intent
  let (live, _) ← sourceTables intent inventory
  let links ← readLinks inventory
  if owned.any (ownerConflicts links live) then
    .error "candidate source conflicts with live routing domain"
  else do
    let _ ← planRules sha256 (reservedMap (rulesV4 ∪ rulesV6) live sources) (rulesV4 ∪ rulesV6)
    .ok ()

/-! ### Sources that a check has reserved -/

structure Sources where
  existing : Finset Rule
  live : SourceMap

/-- What `existing` and `source_tables` are for these reads. -/
def StateOf (rulesV4 rulesV6 inventory : Except ReconcileError Json)
    (intent : Except ReconcileError Intent) (state : Sources) (incomplete : Bool) : Prop :=
  ∃ rowsV4 rowsV6 links bindings ownedV4 ownedV6,
    rulesV4 = .ok rowsV4 ∧ rulesV6 = .ok rowsV6 ∧ inventory = .ok links ∧ intent = .ok bindings ∧
      ownedRules rowsV4 .v4 = .ok ownedV4 ∧ ownedRules rowsV6 .v6 = .ok ownedV6 ∧
        state.existing = ownedV4 ∪ ownedV6 ∧
          sourceTables bindings links = .ok (state.live, incomplete)

def Sources.holds (state : Sources) (source : Address) : Prop :=
  (∃ rule ∈ state.existing, rule.source = source) ∨ source ∈ state.live.sources

variable {rulesV4 rulesV6 inventory : Except ReconcileError Json} {incomplete : Bool}

theorem state_canonical {intent : Except ReconcileError Intent} {state : Sources}
    (read : StateOf rulesV4 rulesV6 inventory intent state incomplete) :
    ∀ rule ∈ state.existing, Canonical rule := by
  obtain ⟨_, _, _, _, ownedV4, ownedV6, -, -, -, -, first, second, existing, -⟩ := read
  rw [existing]
  intro rule inside
  rcases Finset.mem_union.mp inside with inV4 | inV6
  · exact (owned_rules_admitted first).canonical rule inV4
  · exact (owned_rules_admitted second).canonical rule inV6

theorem mem_reserved {existing : Finset Rule} {live : SourceMap} {candidates : List Address}
    {source : Address} : source ∈ (reservedMap existing live candidates).sources ↔
      ((∃ rule ∈ existing, rule.source = source) ∨ source ∈ live.sources) ∨
        source ∈ candidates := by
  have keys : (reservedMap existing live candidates).sources =
      ((existing.sort (· ≤ ·)).map Rule.source ++ live.sources ++ candidates).dedup := by
    rw [SourceMap.sources, reservedMap, List.map_map]
    exact List.map_id _
  rw [keys, List.mem_dedup, List.mem_append, List.mem_append, List.mem_map]
  simp only [Finset.mem_sort]

theorem quarantine_sources {existing : Finset Rule} {assigned : SourceMap} {source : Address}
    (inside : source ∈ (quarantineUnproven existing assigned).sources) :
    (∃ rule ∈ existing, rule.source = source) ∨ source ∈ assigned.sources := by
  have loop : ∀ (order : List Address) (start : SourceMap),
      source ∈ (order.foldl (fun sources source =>
        if keepsTable existing sources source then sources else quarantine sources source)
        start).sources → source ∈ order ∨ source ∈ start.sources := by
    intro order
    induction order with
    | nil => exact fun start inside => .inr inside
    | cons first order induction =>
      intro start inside
      rw [List.foldl_cons] at inside
      rcases induction _ inside with later | now
      · exact .inl (List.mem_cons_of_mem _ later)
      · split_ifs at now
        · exact .inr now
        · obtain ⟨pair, belongs, rfl⟩ := List.mem_map.mp now
          rcases mem_set_item belongs with new | kept
          · rw [new]
            exact .inl List.mem_cons_self
          · exact .inr (List.mem_map.mpr ⟨pair, kept, rfl⟩)
  rcases loop _ _ inside with listed | before
  · obtain ⟨rule, member, rfl⟩ := List.mem_map.mp (List.mem_dedup.mp listed)
    exact .inl ⟨rule, (Finset.mem_sort _).mp member, rfl⟩
  · exact .inr before

theorem family_sources_le {fewer more : SourceMap}
    (subset : ∀ source ∈ fewer.sources, source ∈ more.sources) (family : Family) :
    (familySources family fewer).length ≤ (familySources family more).length := by
  refine List.Subperm.length_le ?_
  refine List.subperm_of_subset (fewer.distinct.filter _) fun source inside => ?_
  have found := List.mem_filter.mp inside
  exact List.mem_filter.mpr ⟨subset source found.1, found.2⟩

theorem preflight_ok {sha256 : List UInt8 → List UInt8} {snapshot : Snapshot} {candidates : Json}
    {owners : Option Json} (passed : preflightCapacity sha256 snapshot candidates owners = .ok ()) :
    ∃ sources state incomplete, candidateSources candidates = .ok sources ∧
      StateOf snapshot.rulesV4 snapshot.rulesV6 snapshot.inventory snapshot.intent state
        incomplete ∧
      ∀ family, (familySources family (reservedMap state.existing state.live sources)).length ≤
        capacity := by
  unfold preflightCapacity at passed
  obtain ⟨sources, parsed, passed⟩ := bind_ok_iff.mp passed
  obtain ⟨owned, -, passed⟩ := bind_ok_iff.mp passed
  obtain ⟨rulesV4, checkedV4, passed⟩ := bind_ok_iff.mp passed
  obtain ⟨rulesV6, checkedV6, passed⟩ := bind_ok_iff.mp passed
  obtain ⟨inventory, readInventory, passed⟩ := bind_ok_iff.mp passed
  obtain ⟨intent, readIntent, passed⟩ := bind_ok_iff.mp passed
  obtain ⟨⟨live, incomplete⟩, resolved, passed⟩ := bind_ok_iff.mp passed
  obtain ⟨links, -, passed⟩ := bind_ok_iff.mp passed
  split_ifs at passed
  obtain ⟨desired, planned, -⟩ := bind_ok_iff.mp passed
  obtain ⟨rowsV4, readV4, checkedV4⟩ := bind_ok_iff.mp checkedV4
  obtain ⟨ownedV4, readsV4, checkedV4⟩ := bind_ok_iff.mp checkedV4
  obtain ⟨-, -, checkedV4⟩ := bind_ok_iff.mp checkedV4
  obtain ⟨-, -, checkedV4⟩ := bind_ok_iff.mp checkedV4
  obtain ⟨rowsV6, readV6, checkedV6⟩ := bind_ok_iff.mp checkedV6
  obtain ⟨ownedV6, readsV6, checkedV6⟩ := bind_ok_iff.mp checkedV6
  obtain ⟨-, -, checkedV6⟩ := bind_ok_iff.mp checkedV6
  obtain ⟨-, -, checkedV6⟩ := bind_ok_iff.mp checkedV6
  cases checkedV4
  cases checkedV6
  have read : StateOf snapshot.rulesV4 snapshot.rulesV6 snapshot.inventory snapshot.intent
      ⟨rulesV4 ∪ rulesV6, live⟩ incomplete :=
    ⟨rowsV4, rowsV6, inventory, intent, rulesV4, rulesV6, readV4, readV6, readInventory,
      readIntent, readsV4, readsV6, rfl, resolved⟩
  refine ⟨sources, ⟨rulesV4 ∪ rulesV6, live⟩, incomplete, parsed, read, fun family => ?_⟩
  obtain ⟨-, place, plan⟩ := plan_rules_ok (state_canonical read) planned
  exact plan_room plan family

def plannedSources (state : Sources) (incomplete : Bool) : SourceMap :=
  if incomplete then quarantineUnproven state.existing state.live else state.live

theorem state_unique {intent : Except ReconcileError Intent} {state other : Sources}
    {otherwise : Bool} (read : StateOf rulesV4 rulesV6 inventory intent state incomplete)
    (again : StateOf rulesV4 rulesV6 inventory intent other otherwise) : state = other := by
  obtain ⟨_, _, _, _, _, _, rfl, rfl, rfl, rfl, readV4, readV6, existing, resolved⟩ := read
  obtain ⟨_, _, _, _, _, _, sameV4, sameV6, sameLinks, sameIntent, againV4, againV6, others,
    resolvedAgain⟩ := again
  cases sameV4
  cases sameV6
  cases sameLinks
  cases sameIntent
  rw [readV4] at againV4
  rw [readV6] at againV6
  rw [resolved] at resolvedAgain
  cases againV4
  cases againV6
  obtain ⟨rules, live⟩ := state
  obtain ⟨otherRules, otherLive⟩ := other
  simp only at existing others
  cases resolvedAgain
  rw [existing, others]

theorem rule_commands_of_state {sha256 : List UInt8 → List UInt8} {observed : Observations}
    {state : Sources} (read : StateOf observed.rulesV4 observed.rulesV6 observed.inventory
      observed.intent state incomplete) :
    ruleCommands sha256 observed =
      planRules sha256 (plannedSources state incomplete) state.existing >>= fun desired =>
        applyRules desired state.existing >>= fun edits =>
          .ok (edits, incomplete ||
            (plannedSources state incomplete).pairs.any fun pair => pair.2.isNone) := by
  obtain ⟨rowsV4, rowsV6, links, bindings, ownedV4, ownedV6, rulesV4, rulesV6, inventory, intent,
    readV4, readV6, existing, resolved⟩ := read
  simp only [ruleCommands, rulesV4, rulesV6, inventory, intent, ok_bind, resolved, readV4, readV6,
    plannedSources, existing]

/-- After a check has passed, no run whose existing and live sources are among those of
the check and its candidates fails for want of a slot. -/
theorem preflight_capacity_sound (sha256 : List UInt8 → List UInt8) (snapshot : Snapshot)
    (candidates : Json) (owners : Option Json)
    (passed : preflightCapacity sha256 snapshot candidates owners = .ok ())
    (state : Sources) (before : Bool)
    (checked : StateOf snapshot.rulesV4 snapshot.rulesV6 snapshot.inventory snapshot.intent state
      before)
    (sources : List Address) (parsed : candidateSources candidates = .ok sources)
    (observed : Observations) (later : Sources) (incomplete : Bool)
    (read : StateOf observed.rulesV4 observed.rulesV6 observed.inventory observed.intent later
      incomplete)
    (covered : ∀ source, later.holds source → state.holds source ∨ source ∈ sources) :
    planRules sha256 (plannedSources later incomplete) later.existing ≠
        .error capacityExhausted ∧
      ruleCommands sha256 observed ≠ .error capacityExhausted := by
  obtain ⟨_, _, _, parsedToo, checkedToo, room⟩ := preflight_ok passed
  cases parsed.symm.trans parsedToo
  obtain rfl := state_unique checked checkedToo
  have reserved : ∀ source ∈ (plannedSources later incomplete).sources,
      source ∈ (reservedMap state.existing state.live sources).sources := by
    intro source inside
    have held : later.holds source := by
      unfold plannedSources at inside
      split_ifs at inside
      · exact quarantine_sources inside
      · exact .inr inside
    exact mem_reserved.mpr (covered source held)
  have planned : planRules sha256 (plannedSources later incomplete) later.existing ≠
      .error capacityExhausted := by
    intro failed
    obtain ⟨family, crowded⟩ := exhausted_crowded (state_canonical read) failed
    have fewer := family_sources_le reserved family
    have most := room family
    omega
  refine ⟨planned, fun failed => ?_⟩
  rw [rule_commands_of_state read] at failed
  cases result : planRules sha256 (plannedSources later incomplete) later.existing with
  | error message =>
    rw [result] at failed
    cases failed
    exact planned result
  | ok desired =>
    rw [result, ok_bind] at failed
    cases applied : applyRules desired later.existing with
    | ok edits =>
      rw [applied] at failed
      cases failed
    | error message =>
      rw [applied] at failed
      cases failed
      unfold applyRules at applied
      split_ifs at applied
      have same := Except.error.inj applied
      exact absurd same (by decide)

/-! A candidate whose guard a later run finds when its link is missing. -/

def emptySnapshot : Snapshot :=
  ⟨.ok (.array []), .ok (.array []), .ok (.array []), .ok ⟨[], []⟩⟩

def sampleCandidates : Json := .array [.string "192.168.50.1"]

def guardRows : Json :=
  .array [.object [("priority", .int 5001), ("src", .string "192.168.50.1"), ("iif", .string "lo"),
    ("action", .string "unreachable"), ("protocol", .string "2")]]

def laterObservations : Observations where
  guardsV4 := .ok guardRows
  guardsV6 := .ok (.array [])
  intent := .ok ⟨[⟨"eth1", "02:00:00:00:00:01", 200, none, .inr rfl⟩], []⟩
  inventory := .ok (.array [])
  rulesV4 := .ok guardRows
  rulesV6 := .ok (.array [])

theorem guard_rows_owned : ownedRules guardRows .v4 = .ok {Rule.guard 5000 sampleSource} := by
  decide +kernel

theorem sample_plan_not_exhausted :
    preflightCapacity sampleDigest emptySnapshot sampleCandidates none = .ok () ∧
      ruleCommands sampleDigest laterObservations ≠ .error capacityExhausted := by
  have passed : preflightCapacity sampleDigest emptySnapshot sampleCandidates none = .ok () := by
    decide +kernel
  have before : StateOf emptySnapshot.rulesV4 emptySnapshot.rulesV6 emptySnapshot.inventory
      emptySnapshot.intent ⟨∅, ⟨[], List.nodup_nil⟩⟩ false :=
    ⟨.array [], .array [], .array [], ⟨[], []⟩, ∅, ∅, rfl, rfl, rfl, rfl, rfl, rfl, rfl, rfl⟩
  have after : StateOf laterObservations.rulesV4 laterObservations.rulesV6
      laterObservations.inventory laterObservations.intent
      ⟨{Rule.guard 5000 sampleSource}, ⟨[], List.nodup_nil⟩⟩ true :=
    ⟨_, _, _, _, _, ∅, rfl, rfl, rfl, rfl, guard_rows_owned, rfl, (Finset.union_empty _).symm, rfl⟩
  refine ⟨passed, (preflight_capacity_sound sampleDigest emptySnapshot sampleCandidates none
    passed _ false before [sampleSource] rfl laterObservations _ true after ?_).2⟩
  rintro source (⟨rule, inside, rfl⟩ | inside)
  · rw [Finset.mem_singleton.mp inside]
    exact .inr List.mem_cons_self
  · exact absurd inside List.not_mem_nil

end Atlaso.Routing.SlotCapacity
