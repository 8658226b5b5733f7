import Atlaso.Routing.Reconciliation
import Atlaso.Routing.RuleTransactions

/-!
A packet from a source of the appliance is never routed by the main table while the
terminal guard is installed, after any part of the commands of a `reconcile` run.

No command of a run removes the guard. A lookup that is in the kernel was there before the
run or is a lookup of the plan, whose tables are those of `source_tables`. This holds for
every answer of the native reads, so also for a run that acts on a stale dump.
-/

namespace Atlaso.Routing.LeakFreedom

open Library Dictionary IpAddress JsonText Outcomes SetEdits
open Reconciliation RulePlanning RuleTransactions SourceRules

/-! ### Exempt prefixes -/

variable {address : Address} {table : Nat} {kernel : Kernel} {commands : List Command} {rule : Rule}
  {sha256 : List UInt8 → List UInt8} {observed : Observations}

variable {network : Prefix} {hasRoute : Nat → Packet → Bool} {packet : Packet} {command : Command}
  {existing : Finset Rule} {edits : List (Edit Rule)} {interface : Interface}

theorem contains_iff {family : Family} :
    network.contains family address = true ↔ address.family = family ∧
      address.number / 2 ^ (family.width - network.bits) =
        network.number / 2 ^ (family.width - network.bits) := by
  simp [Prefix.contains]

theorem source_exemption_usable {family : Family} (inside : network ∈ transitionExemptions family)
    (specified : isUnspecified address = false) (global : isLinkLocal address = false)
    (remote : isLoopback address = false) :
    network.contains family address = false := by
  rw [Bool.eq_false_iff]
  intro contained
  obtain ⟨rfl, same⟩ := contains_iff.mp contained
  cases address with
  | v4 value =>
    simp only [isUnspecified, isLinkLocal, isLoopback, classed, decide_eq_false_iff_not]
      at specified global remote
    simp only [Address.family, transitionExemptions, List.mem_cons, List.not_mem_nil,
      or_false] at inside
    rcases inside with rfl | rfl | rfl <;>
      norm_num [Address.family, Address.number, Family.width] at same <;> omega
  | v6 value =>
    simp only [Address.family, transitionExemptions, List.mem_cons, List.not_mem_nil,
      or_false] at inside
    by_cases mapped : value.toNat / 2 ^ 32 = 0xffff
    · rcases inside with rfl | rfl | rfl <;>
        norm_num [Address.family, Address.number, Family.width] at same <;> omega
    · simp only [isUnspecified, isLinkLocal, isLoopback, classed, mappedV4, if_neg mapped,
        decide_eq_false_iff_not] at specified global remote
      rcases inside with rfl | rfl | rfl <;>
        norm_num [Address.family, Address.number, Family.width] at same <;> omega

theorem destination_exemption_global {family : Family} (global : isLinkLocal address = false) :
    (transitionDestinationExemption family).contains family address = false := by
  rw [Bool.eq_false_iff]
  intro contained
  obtain ⟨rfl, same⟩ := contains_iff.mp contained
  cases address with
  | v4 value =>
    simp only [isLinkLocal, classed, decide_eq_false_iff_not] at global
    norm_num [Address.family, Address.number, Family.width, transitionDestinationExemption]
      at same
    omega
  | v6 value =>
    norm_num [Address.family, Address.number, Family.width, transitionDestinationExemption]
      at same
    by_cases mapped : value.toNat / 2 ^ 32 = 0xffff
    · omega
    · simp only [isLinkLocal, classed, mappedV4, if_neg mapped, decide_eq_false_iff_not] at global
      omega

/-! ### Policy routing under a blocking rule -/

theorem walk_before {rules : List PolicyRule} {blocker : PolicyRule}
    (sorted : rules.Pairwise fun left right => left.priority ≤ right.priority)
    (inside : blocker ∈ rules) (selected : blocker.selects packet = true)
    (blocks : blocker.action = .unreachable) (routed : walk hasRoute packet rules = some table) :
    ∃ rule ∈ rules, rule.priority ≤ blocker.priority ∧ rule.selects packet = true ∧
      rule.action = .lookup table := by
  induction rules with
  | nil => simp at inside
  | cons first rules induction =>
    obtain ⟨least, sorted⟩ := List.pairwise_cons.mp sorted
    -- Past the first rule the blocker is still ahead.
    have later : walk hasRoute packet rules = some table → blocker ∈ rules →
        ∃ rule ∈ first :: rules, rule.priority ≤ blocker.priority ∧
          rule.selects packet = true ∧ rule.action = .lookup table := by
      intro routed ahead
      obtain ⟨rule, found, facts⟩ := induction sorted ahead routed
      exact ⟨rule, List.mem_cons_of_mem _ found, facts⟩
    rcases List.mem_cons.mp inside with rfl | ahead
    · simp [walk, selected, blocks] at routed
    · by_cases matched : first.selects packet = true
      · cases action : first.action with
        | unreachable => simp [walk, matched, action] at routed
        | lookup number =>
          simp only [walk, matched, action, if_true] at routed
          split_ifs at routed with available
          · obtain rfl := Option.some.inj routed
            exact ⟨first, List.mem_cons_self, least blocker ahead, matched, action⟩
          · exact later routed ahead
      · simp only [walk, matched] at routed
        exact later routed ahead

theorem policy_rules_sorted (kernel : Kernel) (family : Family) :
    (policyRules kernel family).Pairwise fun left right => left.priority ≤ right.priority := by
  have total : Std.Total fun left right : PolicyRule => left.priority ≤ right.priority :=
    ⟨fun left right => le_total left.priority right.priority⟩
  have transitive : IsTrans PolicyRule fun left right => left.priority ≤ right.priority :=
    ⟨fun _ _ _ => le_trans⟩
  exact List.pairwise_insertionSort _ _

theorem mem_policy_rules {family : Family} {policy : PolicyRule} :
    policy ∈ policyRules kernel family ↔
      (∃ rule ∈ kernel.owned, rule.family = family ∧ rulePolicy rule = policy) ∨
      (∃ priority ∈ kernel.exempt family, exemptionPolicy family priority = policy) ∨
      (kernel.terminal family = true ∧ policy = terminalPolicy) ∨ policy = mainPolicy := by
  rw [policyRules, (List.perm_insertionSort _ _).mem_iff]
  by_cases guard : kernel.terminal family = true <;>
    simp [guard, and_assoc]

theorem routed_by_owned (guarded : kernel.terminal packet.source.family = true)
    (specified : isUnspecified packet.source = false) (global : isLinkLocal packet.source = false)
    (remote : isLoopback packet.source = false) (away : isLinkLocal packet.destination = false)
    (routed : route hasRoute kernel packet = some table) :
    Looks kernel.owned packet.source table := by
  have installed : terminalPolicy ∈ policyRules kernel packet.source.family :=
    mem_policy_rules.mpr (.inr (.inr (.inl ⟨guarded, rfl⟩)))
  obtain ⟨policy, inside, early, selected, action⟩ :=
    walk_before (policy_rules_sorted kernel _) installed rfl rfl routed
  rcases mem_policy_rules.mp inside with ⟨rule, owned, -, rfl⟩ | ⟨priority, -, rfl⟩ | ⟨-, rfl⟩ | rfl
  · refine ⟨rule, owned, (of_decide_eq_true selected).symm, ?_⟩
    cases found : rule.table with
    | none => simp [rulePolicy, found] at action
    | some number => simpa [rulePolicy, found] using action
  · -- No exempt prefix selects the packet.
    exfalso
    simp only [exemptionPolicy] at selected
    split at selected
    · rename_i network found
      rw [source_exemption_usable (List.mem_of_getElem? found) specified global remote] at selected
      cases selected
    · rw [destination_exemption_global away] at selected
      cases selected
  · cases action
  · exact absurd early (by decide)

/-! ### What the commands of a run do -/

theorem run_commands_owned (inside : rule ∈ (runCommands commands kernel).owned) :
    rule ∈ kernel.owned ∨ Command.rule (.add rule) ∈ commands := by
  induction commands generalizing kernel with
  | nil => exact .inl inside
  | cons command commands induction =>
    rcases @induction (command.apply kernel) inside with before | added
    · cases command with
      | rule edit =>
        cases edit with
        | add item =>
          rcases Finset.mem_insert.mp before with rfl | kept
          · exact .inr List.mem_cons_self
          · exact .inl kept
        | del item => exact .inl (Finset.mem_of_mem_erase before)
      | exemption family priority enable => exact .inl before
      | terminal family enable => exact .inl before
    · exact .inr (List.mem_cons_of_mem _ added)

theorem run_commands_guarded {family : Family} (guarded : kernel.terminal family = true)
    (keeps : Command.terminal family false ∉ commands) :
    (runCommands commands kernel).terminal family = true := by
  induction commands generalizing kernel with
  | nil => exact guarded
  | cons command commands induction =>
    obtain ⟨differs, later⟩ := not_or.mp (fun member => keeps (List.mem_cons.mpr member))
    refine @induction (command.apply kernel) ?_ later
    cases command with
    | rule edit => exact guarded
    | exemption other priority enable => exact guarded
    | terminal other enable =>
      show Function.update kernel.terminal other enable family = true
      by_cases same : family = other
      · subst same
        rw [Function.update_self]
        cases enable with
        | false => exact absurd rfl differs
        | true => rfl
      · rw [Function.update_of_ne same]
        exact guarded

theorem set_guard_commands {family : Family} {rows : Json}
    (set : setGuardLocked family true rows = .ok commands) (inside : command ∈ commands) :
    command = .terminal family true ∨ ∃ priority, command = .exemption family priority true := by
  simp only [setGuardLocked] at set
  obtain ⟨rules, -, set⟩ := bind_ok_iff.mp set
  obtain ⟨present, -, set⟩ := bind_ok_iff.mp set
  obtain ⟨exemptions, -, set⟩ := bind_ok_iff.mp set
  obtain rfl := Except.ok.inj set
  rcases List.mem_append.mp inside with start | last
  · rcases List.mem_append.mp start with first | change
    · split_ifs at first
      · exact .inl (List.mem_singleton.mp first)
      · cases first
    · obtain ⟨priority, -, found⟩ := List.mem_filterMap.mp change
      split_ifs at found
      · exact .inr ⟨priority, (Option.some.inj found).symm⟩
  · simp at last

theorem apply_rules_adds {desired : Finset Rule} (applied : applyRules desired existing = .ok edits)
    (inside : .add rule ∈ edits) :
    rule.table = none ∨ rule ∈ desired := by
  unfold applyRules at applied
  split_ifs at applied
  obtain rfl := Except.ok.inj applied
  have placed : rule ∈ allGuards desired existing ∨ rule ∈ desired := by
    simp only [guardPhase, lookupPhase, List.mem_append, List.mem_map, mem_sorted_by,
      reduceCtorEq, and_false, exists_false, Edit.add.injEq, exists_eq_right, false_or, or_false,
      Finset.mem_sdiff] at inside
    rcases inside with ⟨guard, -⟩ | ⟨⟨wanted, -⟩, -⟩
    · exact .inl guard
    · exact .inr wanted
  exact placed.imp_left all_guards_table

theorem quarantine_unproven_pairs {sources : SourceMap} {source : Address}
    (inside : (source, some table) ∈ (quarantineUnproven existing sources).pairs) :
    (source, some table) ∈ sources.pairs := by
  unfold quarantineUnproven at inside
  generalize ((existing.sort (· ≤ ·)).map Rule.source).dedup = order at inside
  induction order generalizing sources with
  | nil => exact inside
  | cons first order induction =>
    have before := induction inside
    simp only at before
    split_ifs at before
    · exact before
    · rcases mem_set_item before with new | kept
      · cases new
      · exact kept

/-- The table that `source_tables` assigns to a source in a run. -/
def AssignedTable (observed : Observations) (source : Address) (table : Nat) : Prop :=
  ∃ intent inventory assigned incomplete, observed.intent = .ok intent ∧
    observed.inventory = .ok inventory ∧
    sourceTables intent inventory = .ok (assigned, incomplete) ∧
    (source, some table) ∈ assigned.pairs

theorem owned_rules_canonical {rowsV4 rowsV6 : Json} {rulesV4 rulesV6 : Finset Rule}
    (readV4 : ownedRules rowsV4 .v4 = .ok rulesV4) (readV6 : ownedRules rowsV6 .v6 = .ok rulesV6) :
    ∀ rule ∈ rulesV4 ∪ rulesV6, Canonical rule := by
  intro rule inside
  rcases Finset.mem_union.mp inside with first | second
  · exact (owned_rules_admitted readV4).canonical rule first
  · exact (owned_rules_admitted readV6).canonical rule second

theorem rule_commands_adds {quarantined : Bool}
    (ran : ruleCommands sha256 observed = .ok (edits, quarantined)) (inside : .add rule ∈ edits)
    (looks : rule.table = some table) : AssignedTable observed rule.source table := by
  simp only [ruleCommands] at ran
  obtain ⟨intent, readIntent, ran⟩ := bind_ok_iff.mp ran
  obtain ⟨inventory, readInventory, ran⟩ := bind_ok_iff.mp ran
  obtain ⟨⟨assigned, incomplete⟩, resolved, ran⟩ := bind_ok_iff.mp ran
  obtain ⟨rowsV4, -, ran⟩ := bind_ok_iff.mp ran
  obtain ⟨rulesV4, readV4, ran⟩ := bind_ok_iff.mp ran
  obtain ⟨rowsV6, -, ran⟩ := bind_ok_iff.mp ran
  obtain ⟨rulesV6, readV6, ran⟩ := bind_ok_iff.mp ran
  obtain ⟨desired, planned, ran⟩ := bind_ok_iff.mp ran
  obtain ⟨transaction, applied, ran⟩ := bind_ok_iff.mp ran
  obtain ⟨rfl, -⟩ := Prod.mk.inj (Except.ok.inj ran)
  refine ⟨intent, inventory, assigned, incomplete, readIntent, readInventory, resolved, ?_⟩
  obtain ⟨-, place, plan⟩ := plan_rules_ok (owned_rules_canonical readV4 readV6) planned
  rcases apply_rules_adds applied inside with guard | wanted
  · rw [looks] at guard
    cases guard
  · have chosen := (desired_rule plan wanted).2.2.2 table looks
    split_ifs at chosen
    · exact quarantine_unproven_pairs chosen
    · exact chosen

theorem reconcile_command (inside : command ∈ (reconcile sha256 observed).1) :
    (∃ family, command = .terminal family true) ∨
      (∃ family priority, command = .exemption family priority true) ∨
      ∃ edits quarantined edit, ruleCommands sha256 observed = .ok (edits, quarantined) ∧
        edit ∈ edits ∧ command = .rule edit := by
  have guards : ∀ family rows commands, rows >>= setGuardLocked family true = .ok commands →
      command ∈ commands → (∃ family, command = .terminal family true) ∨
        ∃ family priority, command = .exemption family priority true := by
    intro family rows commands set inside
    obtain ⟨dump, -, set⟩ := bind_ok_iff.mp set
    rcases set_guard_commands set inside with terminal | ⟨priority, exemption⟩
    · exact .inl ⟨family, terminal⟩
    · exact .inr ⟨family, priority, exemption⟩
  unfold reconcile at inside
  split at inside
  · cases inside
  · rename_i guardV4 setV4
    split at inside
    · rcases guards _ _ _ setV4 inside with terminal | exemption
      · exact .inl terminal
      · exact .inr (.inl exemption)
    · rename_i guardV6 setV6
      have both : command ∈ guardV4 ++ guardV6 → (∃ family, command = .terminal family true) ∨
          ∃ family priority, command = .exemption family priority true := by
        intro member
        rcases List.mem_append.mp member with first | second
        · exact guards _ _ _ setV4 first
        · exact guards _ _ _ setV6 second
      split at inside
      · rcases both inside with terminal | exemption
        · exact .inl terminal
        · exact .inr (.inl exemption)
      · rename_i edits quarantined ran
        rcases List.mem_append.mp inside with start | edited
        · rcases both start with terminal | exemption
          · exact .inl terminal
          · exact .inr (.inl exemption)
        · obtain ⟨edit, member, rfl⟩ := List.mem_map.mp edited
          exact .inr (.inr ⟨edits, quarantined, edit, ran, member, rfl⟩)

/-! ### No leak -/

/-- The tables collected for a source are those of the two routing domains. -/
def KnownTables (tables : List (Address × List Nat)) : Prop :=
  ∀ entry ∈ tables, ∀ table ∈ entry.2, table = 100 ∨ table = 200

theorem owned_source_table_known {intent : Intent} {source : Address}
    (given : ownedSourceTable intent interface source = some table) :
    table = 100 ∨ table = 200 := by
  unfold ownedSourceTable at given
  split at given
  · rename_i held found
    split_ifs at given
    · obtain rfl := Option.some.inj given
      exact held.known
    · obtain rfl := Option.some.inj given
      exact interface.known
  · split_ifs at given
    obtain rfl := Option.some.inj given
    exact interface.known

theorem add_source_known {intent : Intent} {source : Address} {tables : List (Address × List Nat)}
    (known : KnownTables tables) (given : ownedSourceTable intent interface source = some table) :
    KnownTables (setItem source (((getItem source tables).getD []).insert table) tables) := by
  intro entry inside number member
  rcases mem_set_item inside with rfl | kept
  · rcases List.mem_insert_iff.mp member with rfl | before
    · exact owned_source_table_known given
    · cases found : getItem source tables with
      | none => simp [found] at before
      | some numbers =>
        simp only [found, Option.getD_some] at before
        exact known _ (mem_of_get_item found) number before
  · exact known entry kept number member

theorem add_owner_known {intent : Intent} {links : List NativeLink}
    {state : List (Address × List Nat) × Bool} (known : KnownTables state.1)
    (interface : Interface) : KnownTables (addOwner intent links state interface).1 := by
  unfold addOwner
  split
  · exact known
  · rename_i link found
    split_ifs
    · exact known
    · simp only
      generalize link.sources = sources
      generalize state.1 = tables at known
      induction sources generalizing tables with
      | nil => exact known
      | cons source sources induction =>
        rw [List.foldl_cons]
        refine induction _ ?_
        cases given : ownedSourceTable intent interface source with
        | none => exact known
        | some table => exact add_source_known known given

theorem collect_tables_known (intent : Intent) (links : List NativeLink) :
    KnownTables (collectTables intent links).1 := by
  have run : ∀ (rows : List Interface) (state : List (Address × List Nat) × Bool),
      KnownTables state.1 → KnownTables (rows.foldl (addOwner intent links) state).1 := by
    intro rows
    induction rows with
    | nil => exact fun _ known => known
    | cons row rows induction => exact fun state known => induction _ (add_owner_known known row)
  exact run (owners intent) ([], false) (fun _ inside => by cases inside)

theorem assigned_table_known {source : Address} (assigned : AssignedTable observed source table) :
    table = 100 ∨ table = 200 := by
  obtain ⟨intent, inventory, sources, incomplete, -, -, resolved, inside⟩ := assigned
  simp only [sourceTables] at resolved
  obtain ⟨links, -, resolved⟩ := bind_ok_iff.mp resolved
  obtain ⟨rfl, -⟩ := Prod.mk.inj (Except.ok.inj resolved)
  obtain ⟨⟨key, tables⟩, member, same⟩ := List.mem_map.mp inside
  have chosen : resolvedTable links key tables = some table := congrArg Prod.snd same
  unfold resolvedTable at chosen
  split at chosen
  · split_ifs at chosen
    obtain rfl := Option.some.inj chosen
    exact collect_tables_known intent links _ member _ List.mem_cons_self
  · cases chosen

theorem looks_known {rules : Finset Rule} {source : Address}
    (admitted : ∀ family, Admitted family (rules.filter fun rule => rule.family = family))
    (looks : Looks rules source table) : table = 100 ∨ table = 200 := by
  obtain ⟨rule, owned, -, found⟩ := looks
  rcases (admitted rule.family).tables rule (Finset.mem_filter.mpr ⟨owned, rfl⟩) with
    guard | first | second
  · rw [found] at guard
    cases guard
  · rw [found] at first
    exact .inl (Option.some.inj first)
  · rw [found] at second
    exact .inr (Option.some.inj second)

/-- A packet is unreachable, or a table routes it that its source had before or is assigned,
which is not the main table. -/
def Confined (kernel : Kernel) (observed : Observations) (source : Address) : Option Nat → Prop
  | none => True
  | some table => table ≠ mainTableNumber ∧
      (Looks kernel.owned source table ∨ AssignedTable observed source table)

/-- After any part of the commands of a run, from the installed guard on, the packets of usable
sources are confined. -/
theorem local_source_never_leaks (sha256 : List UInt8 → List UInt8) (observed : Observations)
    (kernel : Kernel)
    (prior : ∀ family, Admitted family (kernel.owned.filter fun rule => rule.family = family))
    (hasRoute : Nat → Packet → Bool) (packet : Packet)
    (specified : isUnspecified packet.source = false) (global : isLinkLocal packet.source = false)
    (remote : isLoopback packet.source = false) (away : isLinkLocal packet.destination = false)
    (issued more rest : List Command)
    (ran : (reconcile sha256 observed).1 = issued ++ more ++ rest)
    (installed : (runCommands issued kernel).terminal packet.source.family = true) :
    Confined kernel observed packet.source
      (route hasRoute (runCommands (issued ++ more) kernel) packet) := by
  have issuedBy : ∀ command ∈ issued ++ more, command ∈ (reconcile sha256 observed).1 := by
    intro command inside
    rw [ran]
    exact List.mem_append_left _ inside
  have guarded : (runCommands (issued ++ more) kernel).terminal packet.source.family = true := by
    rw [runCommands, List.foldl_append]
    refine run_commands_guarded installed fun removed => ?_
    rcases reconcile_command (issuedBy _ (List.mem_append_right _ removed)) with
      ⟨family, same⟩ | ⟨family, priority, same⟩ | ⟨edits, quarantined, edit, -, -, same⟩
    all_goals cases same
  cases routed : route hasRoute (runCommands (issued ++ more) kernel) packet with
  | none => exact trivial
  | some table =>
    have origin : Looks kernel.owned packet.source table ∨
        AssignedTable observed packet.source table := by
      obtain ⟨rule, owned, source, looks⟩ :=
        routed_by_owned guarded specified global remote away routed
      rcases run_commands_owned owned with before | added
      · exact .inl ⟨rule, before, source, looks⟩
      · rcases reconcile_command (issuedBy _ added) with ⟨family, same⟩ |
          ⟨family, priority, same⟩ | ⟨edits, quarantined, edit, planned, member, same⟩
        · cases same
        · cases same
        · obtain rfl := Command.rule.inj same
          rw [← source]
          exact .inr (rule_commands_adds planned member looks)
    refine ⟨?_, origin⟩
    have known : table = 100 ∨ table = 200 := by
      rcases origin with looks | assigned
      · exact looks_known prior looks
      · exact assigned_table_known assigned
    rcases known with rfl | rfl <;> decide

/-! A source that has its pair before the guard is installed. -/

def sampleSource : Address := .v4 0xc0000201#32

def samplePacket : Packet := ⟨sampleSource, .v4 0xc6336401#32, rfl⟩

def sampleKernel : Kernel where
  owned := {Rule.guard 5000 sampleSource, Rule.lookup 5000 sampleSource 100}
  exempt := fun _ => ∅
  terminal := fun _ => false

def sampleRows : Json :=
  .array [.object [("priority", .int 5000), ("src", .string "192.0.2.1"), ("iif", .string "lo"),
      ("table", .string "100"), ("protocol", .string "2")],
    .object [("priority", .int 5001), ("src", .string "192.0.2.1"), ("iif", .string "lo"),
      ("action", .string "unreachable"), ("protocol", .string "2")]]

def sampleObservations : Observations where
  guardsV4 := .ok sampleRows
  guardsV6 := .ok (.array [])
  intent := .ok ⟨[], []⟩
  inventory := .ok (.array [])
  rulesV4 := .ok sampleRows
  rulesV6 := .ok (.array [])

theorem sample_rows_owned : ownedRules sampleRows .v4 = .ok sampleKernel.owned := by
  decide +kernel

theorem reconcile_begins {guardV4 : List Command}
    (set : observed.guardsV4 >>= setGuardLocked .v4 true = .ok guardV4) :
    ∃ rest, (reconcile sha256 observed).1 = guardV4 ++ rest := by
  unfold reconcile
  rw [set]
  simp only
  split
  · exact ⟨[], (List.append_nil _).symm⟩
  · split
    · exact ⟨_, rfl⟩
    · exact ⟨_, List.append_assoc _ _ _⟩

theorem sample_source_never_leaks : Confined sampleKernel sampleObservations sampleSource
    (route (fun _ _ => true) (runCommands ([.terminal .v4 true] ++
      [.exemption .v4 6000 true, .exemption .v4 6001 true]) sampleKernel) samplePacket) := by
  have set : setGuardLocked .v4 true sampleRows = .ok [.terminal .v4 true,
      .exemption .v4 6000 true, .exemption .v4 6001 true, .exemption .v4 6002 true,
      .exemption .v4 6003 true] := by
    decide +kernel
  obtain ⟨rest, ran⟩ := @reconcile_begins id sampleObservations _ set
  refine local_source_never_leaks id sampleObservations sampleKernel ?_ (fun _ _ => true)
    samplePacket (by decide) (by decide) (by decide) (by decide) _ _ _ ran rfl
  intro family
  cases family with
  | v4 => exact owned_rules_admitted sample_rows_owned
  | v6 => exact @owned_rules_admitted (.array []) .v6 _ rfl

end Atlaso.Routing.LeakFreedom
