import Atlaso.Firewall.RoutingRules
import Atlaso.Library.Outcomes
import Mathlib.Data.List.Dedup

/-!
What the rendered forward chain makes of packets between two targets.

Every rule before the line for established traffic drops, and every rule after it accepts, so
the verdict follows from which rules select the packet. The names of the targets are distinct,
so that the interfaces of a packet tell its two targets.
-/

namespace Atlaso.Firewall.RoutingPermissions

open RoutingRules Library Dictionary IpAddress IpNetwork Outcomes

/-! ### The lines of a rule -/

def Among (networks : List Network) (address : Address) : Prop :=
  ∃ network ∈ networks, network.contains address = true

structure Selects (rule : FirewallRule) (packet : Packet) : Prop where
  input : packet.input = rule.inputInterface
  output : ∀ name, rule.outputInterface = some name → packet.output = name
  source : Among rule.source packet.source
  destination : Among rule.destination packet.destination

variable {address : Address}

theorem among_family {networks : List Network} (among : Among networks address) :
    hasFamily networks address.family = true := by
  obtain ⟨network, inside, contains⟩ := among
  refine List.any_eq_true.mpr ⟨network, inside, ?_⟩
  exact decide_eq_true (contains_family contains).symm

theorem among_of_family {networks : List Network} {family : Family}
    (same : address.family = family) :
    Among (ofFamily (some family) networks) address ↔ Among networks address := by
  constructor
  · rintro ⟨network, inside, contains⟩
    exact ⟨network, (List.mem_filter.mp inside).1, contains⟩
  · rintro ⟨network, inside, contains⟩
    refine ⟨network, List.mem_filter.mpr ⟨inside, decide_eq_true ?_⟩, contains⟩
    rw [← contains_family contains, same]

theorem among_dedup {networks : List Network} :
    Among networks.dedup address ↔ Among networks address := by
  simp only [Among, List.mem_dedup]

theorem holds_among {networks : List Network} {packet : Packet} :
    Condition.holds packet (.sourceIn networks) = true ↔ Among networks packet.source :=
  List.any_eq_true

theorem holds_among_destination {networks : List Network} {packet : Packet} :
    Condition.holds packet (.destinationIn networks) = true ↔ Among networks packet.destination :=
  List.any_eq_true

theorem render_rule_holds {rule : FirewallRule} {packet : Packet} (sources : rule.source ≠ [])
    (destinations : rule.destination ≠ []) :
    (renderRule rule).all (Condition.holds packet) = true ↔ Selects rule packet := by
  have sourced : rule.source.isEmpty = false := by simpa using sources
  have destined : rule.destination.isEmpty = false := by simpa using destinations
  have outputs : (rule.outputInterface.toList.map Condition.outputName).all
      (Condition.holds packet) = true ↔
        ∀ name, rule.outputInterface = some name → packet.output = name := by
    cases rule.outputInterface with
    | none => simp
    | some name => simp [Condition.holds]
  rw [renderRule, sourced, destined]
  simp only [List.all_append, Bool.and_eq_true, outputs, Bool.false_eq_true, if_false,
    List.all_cons, List.all_nil, and_true, holds_among, holds_among_destination]
  constructor
  · rintro ⟨⟨⟨output, input⟩, source⟩, destination⟩
    exact ⟨of_decide_eq_true input, output, source, destination⟩
  · rintro ⟨input, output, source, destination⟩
    exact ⟨⟨⟨output, decide_eq_true input⟩, source⟩, destination⟩

theorem has_family {networks : List Network} {family : Family} :
    hasFamily networks family = true ↔ ∃ network ∈ networks, network.family = family := by
  simp [hasFamily]

theorem family_listed (family : Family) : family ∈ [Family.v4, Family.v6] := by
  cases family <;> simp

def variantOf (rule : FirewallRule) (family : Family) : FirewallRule :=
  { rule with
    source := (ofFamily (some family) rule.source).dedup
    destination := (ofFamily (some family) rule.destination).dedup }

theorem variant_selects {rule : FirewallRule} {packet : Packet} :
    Selects (variantOf rule packet.source.family) packet ↔ Selects rule packet := by
  have sources : Among (ofFamily (some packet.source.family) rule.source).dedup packet.source ↔
      Among rule.source packet.source := by
    rw [among_dedup, among_of_family rfl]
  have destinations : Among (ofFamily (some packet.source.family) rule.destination).dedup
      packet.destination ↔ Among rule.destination packet.destination := by
    rw [among_dedup, among_of_family packet.families.symm]
  constructor
  · rintro ⟨input, output, source, destination⟩
    exact ⟨input, output, sources.mp source, destinations.mp destination⟩
  · rintro ⟨input, output, source, destination⟩
    exact ⟨input, output, sources.mpr source, destinations.mpr destination⟩

theorem mem_variants {rule variant : FirewallRule} (sources : rule.source ≠ [])
    (destinations : rule.destination ≠ []) : variant ∈ ruleFamilyVariants rule ↔
      ∃ family, hasFamily rule.source family = true ∧ hasFamily rule.destination family = true ∧
        variantOf rule family = variant := by
  have sourced : rule.source.isEmpty = false := by simpa using sources
  have destined : rule.destination.isEmpty = false := by simpa using destinations
  obtain ⟨network, inside⟩ := List.exists_mem_of_ne_nil _ sources
  have listed : network.family ∈ [Family.v4, Family.v6].filter fun family =>
      hasFamily rule.source family || hasFamily rule.destination family := by
    refine List.mem_filter.mpr ⟨family_listed _, ?_⟩
    rw [has_family.mpr ⟨network, inside, rfl⟩]
    rfl
  have some : ([Family.v4, Family.v6].filter fun family =>
      hasFamily rule.source family || hasFamily rule.destination family).isEmpty = false := by
    simpa using List.ne_nil_of_mem listed
  unfold ruleFamilyVariants
  simp only [some, Bool.false_eq_true, if_false, List.mem_filterMap, List.mem_filter, sourced,
    destined, Bool.not_false, Bool.true_and]
  constructor
  · rintro ⟨family, -, found⟩
    split_ifs at found with missing
    have both := Bool.or_eq_false_iff.mp (Bool.not_eq_true _ ▸ missing)
    refine ⟨family, by simpa using both.1, by simpa using both.2, Option.some.inj found⟩
  · rintro ⟨family, source, destination, rfl⟩
    refine ⟨family, ⟨family_listed _, by simp [source]⟩, ?_⟩
    simp [source, destination, variantOf]

theorem of_family_nonempty {networks : List Network} {family : Family}
    (present : hasFamily networks family = true) : (ofFamily (some family) networks).dedup ≠ [] := by
  obtain ⟨network, inside, same⟩ := has_family.mp present
  refine List.ne_nil_of_mem (a := network) ?_
  exact List.mem_dedup.mpr (List.mem_filter.mpr ⟨inside, decide_eq_true same⟩)

theorem variants_select {rule : FirewallRule} {packet : Packet} (sources : rule.source ≠ [])
    (destinations : rule.destination ≠ []) :
    (∃ variant ∈ ruleFamilyVariants rule,
      (renderRule variant).all (Condition.holds packet) = true) ↔ Selects rule packet := by
  constructor
  · rintro ⟨variant, inside, holds⟩
    obtain ⟨family, source, destination, rfl⟩ := (mem_variants sources destinations).mp inside
    have selected := (render_rule_holds (of_family_nonempty source)
      (of_family_nonempty destination)).mp holds
    obtain ⟨network, member, contains⟩ := selected.source
    have same : packet.source.family = family := by
      rw [contains_family contains]
      exact of_decide_eq_true (List.mem_filter.mp (List.mem_dedup.mp member)).2
    exact variant_selects.mp (same ▸ selected)
  · intro selected
    have source := among_family selected.source
    have destination : hasFamily rule.destination packet.source.family = true := by
      rw [packet.families]
      exact among_family selected.destination
    refine ⟨variantOf rule packet.source.family,
      (mem_variants sources destinations).mpr ⟨_, source, destination, rfl⟩, ?_⟩
    exact (render_rule_holds (of_family_nonempty source) (of_family_nonempty destination)).mpr
      (variant_selects.mpr selected)

theorem mem_common {source destination : List Network} {family : Family} :
    family ∈ commonRoutingNetworks source destination ↔
      hasFamily source family = true ∧ hasFamily destination family = true := by
  rw [commonRoutingNetworks, List.mem_filter, Bool.and_eq_true]
  exact and_iff_right (family_listed family)

section Rule

variable {name : RuleName} {phase : Phase} {action : Verdict} {input : LinkName}
  {output : Option LinkName} {sources destinations : List Network} {priority : Int}
  {packet : Packet}

theorem routing_rule_networks
    (common : (commonRoutingNetworks sources destinations).isEmpty = false) :
    (routingFirewallRule name phase action input output sources destinations priority).source ≠ [] ∧
    (routingFirewallRule name phase action input output sources destinations priority).destination ≠
      [] := by
  obtain ⟨family, shared⟩ := List.exists_mem_of_ne_nil _ (by simpa using common)
  obtain ⟨source, destination⟩ := mem_common.mp shared
  obtain ⟨first, firstInside, rfl⟩ := has_family.mp source
  obtain ⟨second, secondInside, same⟩ := has_family.mp destination
  refine ⟨List.ne_nil_of_mem (a := first) (List.mem_filter.mpr ⟨firstInside, ?_⟩),
    List.ne_nil_of_mem (a := second) (List.mem_filter.mpr ⟨secondInside, ?_⟩)⟩
  · exact decide_eq_true shared
  · rw [same]
    exact decide_eq_true shared

theorem routing_rule_selects :
    Selects (routingFirewallRule name phase action input output sources destinations priority)
        packet ↔
      packet.input = input ∧ (∀ name, output = some name → packet.output = name) ∧
        Among sources packet.source ∧ Among destinations packet.destination := by
  constructor
  · rintro ⟨arrives, leaves, ⟨first, firstInside, source⟩, ⟨second, secondInside, destination⟩⟩
    exact ⟨arrives, leaves, ⟨first, (List.mem_filter.mp firstInside).1, source⟩,
      ⟨second, (List.mem_filter.mp secondInside).1, destination⟩⟩
  · rintro ⟨arrives, leaves, source, destination⟩
    have shared : packet.source.family ∈ commonRoutingNetworks sources destinations := by
      refine mem_common.mpr ⟨among_family source, ?_⟩
      rw [packet.families]
      exact among_family destination
    obtain ⟨first, firstInside, firstContains⟩ := source
    obtain ⟨second, secondInside, secondContains⟩ := destination
    refine ⟨arrives, leaves, ⟨first, List.mem_filter.mpr ⟨firstInside, ?_⟩, firstContains⟩,
      ⟨second, List.mem_filter.mpr ⟨secondInside, ?_⟩, secondContains⟩⟩
    · rw [← contains_family firstContains]
      exact decide_eq_true shared
    · rw [← contains_family secondContains, ← packet.families]
      exact decide_eq_true shared

theorem among_common (source : Among sources packet.source)
    (destination : Among destinations packet.destination) :
    (commonRoutingNetworks sources destinations).isEmpty = false := by
  have shared : packet.source.family ∈ commonRoutingNetworks sources destinations := by
    refine mem_common.mpr ⟨among_family source, ?_⟩
    rw [packet.families]
    exact among_family destination
  simpa using List.ne_nil_of_mem shared

end Rule

/-! ### The verdict of the chain -/

/-- A rule as the service generates it: both networks are given, and a rule drops exactly when
it comes before the line for established traffic. -/
structure Sound (rule : FirewallRule) : Prop where
  sources : rule.source ≠ []
  destinations : rule.destination ≠ []
  action : rule.action = if isPrelude rule then .drop else .accept

theorem mem_by_priority {rules : List FirewallRule} {rule : FirewallRule} :
    rule ∈ byPriority rules ↔ rule ∈ rules :=
  (List.perm_insertionSort _ _).mem_iff

theorem find_verdict {lines : List Line} {packet : Packet} {verdict : Verdict}
    (same : ∀ line ∈ lines, line.verdict = some verdict)
    (matched : ∃ line ∈ lines, line.conditions.all (Condition.holds packet) = true) :
    lines.findSome? (Line.judge packet) = some verdict := by
  obtain ⟨line, inside, holds⟩ := matched
  cases found : lines.findSome? (Line.judge packet) with
  | none =>
    have silent := List.findSome?_eq_none_iff.mp found line inside
    rw [Line.judge, if_pos holds, same line inside] at silent
    cases silent
  | some other =>
    obtain ⟨first, member, judged⟩ := List.exists_of_findSome?_eq_some found
    rw [Line.judge] at judged
    split_ifs at judged
    rw [same first member] at judged
    exact judged.symm

theorem find_nothing {lines : List Line} {packet : Packet}
    (unmatched : ∀ line ∈ lines, line.conditions.all (Condition.holds packet) = false) :
    lines.findSome? (Line.judge packet) = none := by
  refine List.findSome?_eq_none_iff.mpr fun line inside => ?_
  rw [Line.judge, if_neg (by rw [unmatched line inside]; decide)]

theorem prelude_line_selects {rule : FirewallRule} {packet : Packet} {line : Line}
    (sound : Sound rule) (inside : line ∈ preludeLines rule)
    (holds : line.conditions.all (Condition.holds packet) = true) : Selects rule packet := by
  obtain ⟨variant, member, rendered⟩ := List.mem_flatMap.mp inside
  refine (variants_select sound.sources sound.destinations).mp ⟨variant, member, ?_⟩
  simp only at rendered
  split_ifs at rendered
  · simp only [List.mem_cons, List.not_mem_nil, or_false] at rendered
    rcases rendered with rfl | rfl
    · exact (Bool.and_eq_true_iff.mp (List.all_cons ▸ holds)).2
    · exact (Bool.and_eq_true_iff.mp (List.all_cons ▸ holds)).2
  · obtain rfl := List.mem_singleton.mp rendered
    exact holds

/-- No managed translation: the automatic denials on one interface leave those alone. -/
def Unmanaged (packet : Packet) : Prop :=
  packet.translated = false ∨ packet.mark &&& 0xff000000 ≠ 0xa7000000

theorem prelude_line_exists {rule : FirewallRule} {packet : Packet} (sound : Sound rule)
    (plain : isGatewayDenial rule = true → Unmanaged packet) (selected : Selects rule packet) :
    ∃ line ∈ preludeLines rule, line.conditions.all (Condition.holds packet) = true := by
  obtain ⟨variant, member, holds⟩ :=
    (variants_select sound.sources sound.destinations).mpr selected
  cases gateway : isGatewayDenial rule with
  | false =>
    refine ⟨⟨renderRule variant, some rule.action⟩,
      List.mem_flatMap.mpr ⟨variant, member, ?_⟩, holds⟩
    simp [gateway]
  | true =>
    rcases plain gateway with untranslated | unmarked
    · refine ⟨⟨.notTranslated :: renderRule variant, some rule.action⟩,
        List.mem_flatMap.mpr ⟨variant, member, ?_⟩, ?_⟩
      · simp [gateway]
      · simp only [List.all_cons, holds, Bool.and_true, Condition.holds, untranslated, Bool.not_false]
    · refine ⟨⟨.notManaged :: renderRule variant, some rule.action⟩,
        List.mem_flatMap.mpr ⟨variant, member, ?_⟩, ?_⟩
      · simp [gateway]
      · simp only [List.all_cons, holds, Bool.and_true, Condition.holds, decide_eq_true_eq]
        exact unmarked

theorem prelude_line_verdict {rule : FirewallRule} {line : Line}
    (inside : line ∈ preludeLines rule) : line.verdict = some rule.action := by
  obtain ⟨variant, member, rendered⟩ := List.mem_flatMap.mp inside
  simp only at rendered
  split_ifs at rendered
  · simp only [List.mem_cons, List.not_mem_nil, or_false] at rendered
    rcases rendered with rfl | rfl <;> rfl
  · obtain rfl := List.mem_singleton.mp rendered
    rfl

section Chain

variable {settings : FirewallSettings} {generated : List FirewallRule} {packet : Packet}

def preludeOf (generated : List FirewallRule) : List Line :=
  (byPriority (generated.filter isPrelude)).flatMap preludeLines

theorem mem_prelude_of {line : Line} : line ∈ preludeOf generated ↔
    ∃ rule ∈ generated, isPrelude rule = true ∧ line ∈ preludeLines rule := by
  simp only [preludeOf, List.mem_flatMap, mem_by_priority, List.mem_filter, and_assoc]

theorem forward_drops (enabled : settings.enabled = true) (sound : ∀ rule ∈ generated, Sound rule)
    {rule : FirewallRule} (inside : rule ∈ generated) (early : isPrelude rule = true)
    (plain : isGatewayDenial rule = true → Unmanaged packet) (selected : Selects rule packet) :
    forward settings generated packet = .drop := by
  obtain ⟨line, member, holds⟩ := prelude_line_exists (sound rule inside) plain selected
  have found : (preludeOf generated).findSome? (Line.judge packet) = some .drop := by
    refine find_verdict ?_ ⟨line, mem_prelude_of.mpr ⟨rule, inside, early, member⟩, holds⟩
    intro other belongs
    obtain ⟨origin, listed, before, rendered⟩ := mem_prelude_of.mp belongs
    rw [prelude_line_verdict rendered, (sound origin listed).action, if_pos before]
  simp only [forward, forwardChain, enabled, Bool.true_eq_false, if_false, Chain.verdict]
  rw [← preludeOf, List.append_assoc, List.append_assoc, List.append_assoc,
    List.findSome?_append, found]
  rfl

theorem forward_accepts (enabled : settings.enabled = true) (sound : ∀ rule ∈ generated, Sound rule)
    (passed : ∀ rule ∈ generated, isPrelude rule = true → ¬Selects rule packet)
    {rule : FirewallRule} (inside : rule ∈ generated) (late : isPrelude rule = false)
    (selected : Selects rule packet) (fresh : packet.established = false)
    (other : packet.protocol ≠ 1 ∧ packet.protocol ≠ 58) :
    forward settings generated packet = .accept := by
  have silent : (preludeOf generated).findSome? (Line.judge packet) = none := by
    refine find_nothing fun line belongs => ?_
    obtain ⟨origin, listed, before, rendered⟩ := mem_prelude_of.mp belongs
    refine Bool.eq_false_iff.mpr fun holds => passed origin listed before ?_
    exact prelude_line_selects (sound origin listed) rendered holds
  have found : ((byPriority (generated.filter fun rule => !isPrelude rule)).flatMap
      plainLines).findSome? (Line.judge packet) = some .accept := by
    obtain ⟨variant, member, holds⟩ :=
      (variants_select (sound rule inside).sources (sound rule inside).destinations).mpr selected
    refine find_verdict ?_ ⟨⟨renderRule variant, some rule.action⟩, ?_, holds⟩
    · intro line belongs
      obtain ⟨origin, listed, rendered⟩ := List.mem_flatMap.mp belongs
      obtain ⟨listed, after⟩ := List.mem_filter.mp (mem_by_priority.mp listed)
      obtain ⟨part, -, rfl⟩ := List.mem_map.mp rendered
      have later : isPrelude origin = false := by simpa using after
      simp only [(sound origin listed).action, later, Bool.false_eq_true, if_false]
    · refine List.mem_flatMap.mpr ⟨rule, ?_, List.mem_map.mpr ⟨variant, member, rfl⟩⟩
      exact mem_by_priority.mpr (List.mem_filter.mpr ⟨inside, by simp [late]⟩)
  have established : (if settings.allowEstablished then [⟨[Condition.established], some Verdict.accept⟩]
      else []).findSome? (Line.judge packet) = none := by
    refine find_nothing fun line belongs => ?_
    split_ifs at belongs
    · obtain rfl := List.mem_singleton.mp belongs
      simp [Condition.holds, fresh]
    · cases belongs
  have diagnostics : (if settings.allowIcmp then
      [(⟨[.protocol 1], some .accept⟩ : Line), ⟨[.protocol 58], some .accept⟩] else []).findSome?
        (Line.judge packet) = none := by
    refine find_nothing fun line belongs => ?_
    split_ifs at belongs
    · simp only [List.mem_cons, List.not_mem_nil, or_false] at belongs
      rcases belongs with rfl | rfl <;> simp [Condition.holds, other]
    · cases belongs
  simp only [forward, forwardChain, enabled, Bool.true_eq_false, if_false, Chain.verdict]
  rw [← preludeOf, List.findSome?_append, List.findSome?_append, List.findSome?_append,
    List.findSome?_append, silent, established, diagnostics, found]
  rfl

end Chain

/-! ### Explicit permissions -/

section Explicit

variable {targets : List Target} {rule : RoutingRule} {policy : Policy} {family : Option Family}
  {source destination : Target}

structure Between (targets : List Target) (rule : RoutingRule) (policy : Policy)
    (family : Option Family) (source destination : Target) : Prop where
  enabled : rule.enabled = true
  readPolicy : rule.permission = some policy
  readFamily : rule.family = some family
  foundSource : targetNamed targets rule.sourceInterface = some source
  foundDestination : targetNamed targets rule.destinationInterface = some destination
  routed : permitsRouting source = true ∧ permitsRouting destination = true
  common : (commonOf family source destination).isEmpty = false

inductive Adds (targets : List Target) (rule : RoutingRule) :
    List FirewallRule → List (LinkName × LinkName × Family) → Prop
  | nothing (idle : ∀ policy family source destination, policy ≠ .automatic →
      ¬Between targets rule policy family source destination) : Adds targets rule [] []
  | allow {family : Option Family} {source destination : Target}
      (between : Between targets rule .allow family source destination) :
      Adds targets rule [explicitRule rule .allow .accept family source destination]
        ((commonOf family source destination).map fun family =>
          (source.name, destination.name, family))
  | deny {family : Option Family} {source destination : Target}
      (between : Between targets rule .deny family source destination) :
      Adds targets rule [explicitRule rule .deny .drop family source destination] []

theorem between_unique {policy' : Policy} {family' : Option Family} {source' destination' : Target}
    (first : Between targets rule policy family source destination)
    (second : Between targets rule policy' family' source' destination') :
    policy = policy' ∧ family = family' ∧ source = source' ∧ destination = destination' :=
  ⟨Option.some.inj (first.readPolicy.symm.trans second.readPolicy),
    Option.some.inj (first.readFamily.symm.trans second.readFamily),
    Option.some.inj (first.foundSource.symm.trans second.foundSource),
    Option.some.inj (first.foundDestination.symm.trans second.foundDestination)⟩

theorem adds_unique {rules rules' : List FirewallRule}
    {allowed allowed' : List (LinkName × LinkName × Family)} (first : Adds targets rule rules allowed)
    (second : Adds targets rule rules' allowed') : rules = rules' ∧ allowed = allowed' := by
  cases first with
  | nothing idle =>
    cases second with
    | nothing _ => exact ⟨rfl, rfl⟩
    | allow between => exact absurd between (idle _ _ _ _ (by decide))
    | deny between => exact absurd between (idle _ _ _ _ (by decide))
  | allow between =>
    cases second with
    | nothing idle => exact absurd between (idle _ _ _ _ (by decide))
    | allow other =>
      obtain ⟨-, rfl, rfl, rfl⟩ := between_unique between other
      exact ⟨rfl, rfl⟩
    | deny other => cases (between_unique between other).1
  | deny between =>
    cases second with
    | nothing idle => exact absurd between (idle _ _ _ _ (by decide))
    | allow other => cases (between_unique between other).1
    | deny other =>
      obtain ⟨-, rfl, rfl, rfl⟩ := between_unique between other
      exact ⟨rfl, rfl⟩

theorem apply_routing_rule_ok {state after : Permissions}
    (applied : applyRoutingRule targets state rule = .ok after) :
    ∃ rules allowed, Adds targets rule rules allowed ∧ after.rules = state.rules ++ rules ∧
      after.allowed = state.allowed ++ allowed := by
  have idle : (∀ policy family source destination, policy ≠ .automatic →
      ¬Between targets rule policy family source destination) → after = state →
        ∃ rules allowed, Adds targets rule rules allowed ∧ after.rules = state.rules ++ rules ∧
          after.allowed = state.allowed ++ allowed := by
    rintro nothing rfl
    exact ⟨[], [], .nothing nothing, (List.append_nil _).symm, (List.append_nil _).symm⟩
  unfold applyRoutingRule at applied
  split at applied
  · rename_i disabled
    refine idle (fun _ _ _ _ _ between => ?_) (Except.ok.inj applied).symm
    rw [between.enabled] at disabled
    cases disabled
  · rename_i enabled
    have active : rule.enabled = true := by simpa using enabled
    split at applied
    · rename_i policy family readPolicy readFamily
      split at applied
      · rename_i source destination foundSource foundDestination
        have same : ∀ {policy' family' source' destination'},
            Between targets rule policy' family' source' destination' →
              policy' = policy ∧ family' = family ∧ source' = source ∧
                destination' = destination := by
          intro _ _ _ _ between
          exact ⟨Option.some.inj (between.readPolicy.symm.trans readPolicy),
            Option.some.inj (between.readFamily.symm.trans readFamily),
            Option.some.inj (between.foundSource.symm.trans foundSource),
            Option.some.inj (between.foundDestination.symm.trans foundDestination)⟩
        split at applied
        · rename_i routed
          have permitted := Bool.and_eq_true_iff.mp routed
          have result := Except.ok.inj applied
          unfold addPermission at result
          split at result
          · rename_i disjoint
            refine idle (fun _ _ _ _ _ between => ?_) result.symm
            obtain ⟨rfl, rfl, rfl, rfl⟩ := same between
            exact Bool.false_ne_true (between.common.symm.trans disjoint)
          · rename_i shared
            have common := Bool.not_eq_true _ ▸ shared
            cases policy with
            | automatic =>
              refine idle (fun _ _ _ _ chosen between => ?_) result.symm
              exact chosen (same between).1
            | allow =>
              exact ⟨_, _, .allow ⟨active, readPolicy, readFamily, foundSource,
                foundDestination, permitted, common⟩, by rw [← result], by rw [← result]⟩
            | deny =>
              exact ⟨_, _, .deny ⟨active, readPolicy, readFamily, foundSource,
                foundDestination, permitted, common⟩, by rw [← result], by
                  rw [← result]; exact (List.append_nil _).symm⟩
        · rename_i refused
          refine idle (fun _ _ _ _ _ between => ?_) (Except.ok.inj applied).symm
          obtain ⟨-, -, rfl, rfl⟩ := same between
          exact refused (Bool.and_eq_true_iff.mpr between.routed)
      · rename_i missing
        refine idle (fun _ _ _ _ _ between => ?_) (Except.ok.inj applied).symm
        exact missing _ _ between.foundSource between.foundDestination
    · cases applied

theorem fold_routing_rules_ok {routingRules : List RoutingRule} {start after : Permissions}
    (run : routingRules.foldlM (applyRoutingRule targets) start = .ok after) :
    (∀ generated, generated ∈ after.rules ↔ generated ∈ start.rules ∨
      ∃ rule ∈ routingRules, ∃ rules allowed, Adds targets rule rules allowed ∧
        generated ∈ rules) ∧
    ∀ pair, pair ∈ after.allowed ↔ pair ∈ start.allowed ∨
      ∃ rule ∈ routingRules, ∃ rules allowed, Adds targets rule rules allowed ∧ pair ∈ allowed := by
  induction routingRules generalizing start with
  | nil =>
    obtain rfl := Except.ok.inj run
    simp
  | cons rule routingRules induction =>
    rw [List.foldlM_cons] at run
    obtain ⟨middle, applied, run⟩ := bind_ok_iff.mp run
    obtain ⟨laterRules, laterAllowed⟩ := induction run
    obtain ⟨rules, allowed, adds, grown, permitted⟩ := apply_routing_rule_ok applied
    have only : ∀ {rules' allowed'}, Adds targets rule rules' allowed' →
        rules' = rules ∧ allowed' = allowed := fun other => adds_unique other adds
    refine ⟨fun generated => ?_, fun pair => ?_⟩
    · rw [laterRules, grown, List.mem_append, List.exists_mem_cons_iff, or_assoc]
      refine or_congr_right (or_congr_left ⟨fun inside => ⟨rules, allowed, adds, inside⟩, ?_⟩)
      rintro ⟨rules', allowed', other, inside⟩
      exact (only other).1 ▸ inside
    · rw [laterAllowed, permitted, List.mem_append, List.exists_mem_cons_iff, or_assoc]
      refine or_congr_right (or_congr_left ⟨fun inside => ⟨rules, allowed, adds, inside⟩, ?_⟩)
      rintro ⟨rules', allowed', other, inside⟩
      exact (only other).2 ▸ inside

end Explicit

/-! ### Targets by name -/

def Named (targets : List Target) : Prop := (targets.map Target.name).Nodup

instance (targets : List Target) : Decidable (Named targets) :=
  inferInstanceAs (Decidable (List.Nodup _))

theorem link_name_ext {left right : LinkName} (text : left.text = right.text) : left = right := by
  cases left
  cases right
  cases text
  rfl

theorem named_eq {targets : List Target} (named : Named targets) {left right : Target}
    (first : left ∈ targets) (second : right ∈ targets) (same : left.name = right.name) :
    left = right :=
  List.inj_on_of_nodup_map named first second same

theorem target_named {targets : List Target} (named : Named targets) {text : String}
    {target : Target} : targetNamed targets text = some target ↔
      target ∈ targets ∧ target.name.text = text := by
  have keys : ((targets.map fun target => (target.name.text, target)).map Prod.fst).Nodup := by
    have texts : (targets.map Target.name).map LinkName.text =
        (targets.map fun target => (target.name.text, target)).map Prod.fst := by
      rw [List.map_map, List.map_map]
      rfl
    rw [← texts]
    exact named.map (fun _ _ same => link_name_ext same)
  rw [targetNamed, of_pairs_distinct _ keys, get_item_iff keys]
  simp only [List.mem_map, Prod.mk.injEq]
  constructor
  · rintro ⟨found, inside, same, rfl⟩
    exact ⟨inside, same⟩
  · rintro ⟨inside, same⟩
    exact ⟨target, inside, same, rfl⟩

/-! ### The generated rules -/

section Generated

variable {targets : List Target} {allowed : List (LinkName × LinkName × Family)}
  {rule : FirewallRule}

theorem mem_isolation_rules : rule ∈ isolationRules targets ↔
    ∃ lab ∈ targets, lab.role ≠ .management ∧ ∃ management ∈ targets,
      management.role = .management ∧
        (commonRoutingNetworks lab.networks management.networks).isEmpty = false ∧
          (rule = isolationRule lab management ∨ rule = isolationRule management lab) := by
  simp only [isolationRules, List.mem_flatMap, List.mem_filter, decide_eq_true_eq]
  constructor
  · rintro ⟨lab, ⟨inside, role⟩, management, ⟨belongs, managed⟩, member⟩
    split_ifs at member with disjoint
    · cases member
    · exact ⟨lab, inside, role, management, belongs, managed, Bool.not_eq_true _ ▸ disjoint,
        by simpa using member⟩
  · rintro ⟨lab, inside, role, management, belongs, managed, common, member⟩
    refine ⟨lab, ⟨inside, role⟩, management, ⟨belongs, managed⟩, ?_⟩
    simpa [common] using member

theorem mem_automatic_rules : rule ∈ automaticRules targets ↔
    ∃ source ∈ targets, source.role = .route ∧ ∃ destination ∈ targets, destination.role = .route ∧
      source.name ≠ destination.name ∧
        (commonRoutingNetworks source.networks destination.networks).isEmpty = false ∧
          rule = routingFirewallRule (.route source.name destination.name) .automatic .accept
            source.name (some destination.name) source.networks destination.networks 30 := by
  simp only [automaticRules, List.mem_flatMap, List.mem_filter, decide_eq_true_eq]
  constructor
  · rintro ⟨source, ⟨inside, role⟩, destination, ⟨belongs, routed⟩, member⟩
    split_ifs at member with skipped
    · cases member
    · obtain ⟨different, common⟩ := not_or.mp skipped
      exact ⟨source, inside, role, destination, belongs, routed, different,
        Bool.not_eq_true _ ▸ common, List.mem_singleton.mp member⟩
  · rintro ⟨source, inside, role, destination, belongs, routed, different, common, rfl⟩
    refine ⟨source, ⟨inside, role⟩, destination, ⟨belongs, routed⟩, ?_⟩
    rw [if_neg (not_or.mpr ⟨different, by rw [common]; decide⟩)]
    exact List.mem_singleton.mpr rfl

theorem mem_default_denies : rule ∈ defaultDenies targets allowed ↔
    ∃ source ∈ targets, permitsRouting source = true ∧ ∃ destination ∈ targets,
      permitsRouting destination = true ∧
        ¬(source.name ≠ destination.name ∧ source.role = .route ∧ destination.role = .route) ∧
          ∃ family, (source.name, destination.name, family) ∉ allowed ∧
            ofFamily (some family) source.networks ≠ [] ∧
              deniedDestinations source destination family ≠ [] ∧
                rule = defaultDenyRule source destination family := by
  simp only [defaultDenies, List.mem_flatMap, List.mem_filter]
  constructor
  · rintro ⟨source, ⟨inside, permits⟩, destination, ⟨belongs, permitted⟩, member⟩
    split_ifs at member with both
    · cases member
    · obtain ⟨family, -, denied⟩ := List.mem_flatMap.mp member
      simp only [defaultDeny] at denied
      by_cases skipped : (source.name, destination.name, family) ∈ allowed ∨
          (ofFamily (some family) source.networks).isEmpty = true ∨
            (deniedDestinations source destination family).isEmpty = true
      · rw [if_pos skipped] at denied
        cases denied
      · rw [if_neg skipped] at denied
        obtain ⟨fresh, rest⟩ := not_or.mp skipped
        obtain ⟨sourced, destined⟩ := not_or.mp rest
        exact ⟨source, inside, permits, destination, belongs, permitted, both, family, fresh,
          by simpa using sourced, by simpa using destined, List.mem_singleton.mp denied⟩
  · rintro ⟨source, inside, permits, destination, belongs, permitted, both, family, fresh, sourced,
      destined, rfl⟩
    refine ⟨source, ⟨inside, permits⟩, destination, ⟨belongs, permitted⟩, ?_⟩
    rw [if_neg both]
    refine List.mem_flatMap.mpr ⟨family, family_listed family, ?_⟩
    simp only [defaultDeny]
    have kept : ¬((source.name, destination.name, family) ∈ allowed ∨
        (ofFamily (some family) source.networks).isEmpty = true ∨
          (deniedDestinations source destination family).isEmpty = true) := by
      simp [fresh, sourced, destined]
    rw [if_neg kept]
    exact List.mem_singleton.mpr rfl

variable {vlans : List VlanInterface} {routingRules : List RoutingRule}

theorem managed_ok {interfaces : List PhysicalInterface} {generated : List FirewallRule}
    (managed : managedRoutingFirewallRules interfaces vlans routingRules true = .ok generated)
    (targets : List Target) (known : routingFirewallTargets interfaces vlans = targets) :
    ∃ allowed, (∀ rule, rule ∈ generated ↔ rule ∈ isolationRules targets ∨
        rule ∈ automaticRules targets ∨
        (∃ given ∈ routingRules, ∃ rules pairs, Adds targets given rules pairs ∧ rule ∈ rules) ∨
        rule ∈ defaultDenies targets allowed) ∧
      ∀ pair, pair ∈ allowed ↔
        ∃ given ∈ routingRules, ∃ rules pairs, Adds targets given rules pairs ∧ pair ∈ pairs := by
  simp only [managedRoutingFirewallRules, known, Bool.true_eq_false, if_false] at managed
  obtain ⟨permissions, run, managed⟩ := bind_ok_iff.mp managed
  obtain rfl := Except.ok.inj managed
  obtain ⟨rules, pairs⟩ := fold_routing_rules_ok run
  refine ⟨permissions.allowed, fun rule => ?_, fun pair => ?_⟩
  · rw [List.mem_append, rules, List.mem_append, or_assoc, or_assoc]
  · rw [pairs]
    simp

theorem sound_of_common {name : RuleName} {phase : Phase} {action : Verdict} {input : LinkName}
    {output : Option LinkName} {sources destinations : List Network} {priority : Int}
    (common : (commonRoutingNetworks sources destinations).isEmpty = false)
    (agrees : action = if phase = .deny ∨ phase = .isolation then .drop else .accept) :
    Sound (routingFirewallRule name phase action input output sources destinations priority) := by
  obtain ⟨sourced, destined⟩ := routing_rule_networks common
  refine ⟨sourced, destined, ?_⟩
  show action = _
  rw [agrees]
  cases phase <;> rfl

theorem of_family_common {source destination : Target} {family : Family}
    (sourced : ofFamily (some family) source.networks ≠ [])
    (destined : deniedDestinations source destination family ≠ []) :
    (commonRoutingNetworks (ofFamily (some family) source.networks)
      (deniedDestinations source destination family)).isEmpty = false := by
  have shared : family ∈ commonRoutingNetworks (ofFamily (some family) source.networks)
      (deniedDestinations source destination family) := by
    refine mem_common.mpr ⟨?_, ?_⟩
    · obtain ⟨network, inside⟩ := List.exists_mem_of_ne_nil _ sourced
      exact has_family.mpr ⟨network, inside, of_decide_eq_true (List.mem_filter.mp inside).2⟩
    · obtain ⟨network, inside⟩ := List.exists_mem_of_ne_nil _ destined
      refine has_family.mpr ⟨network, inside, ?_⟩
      unfold deniedDestinations at inside
      split_ifs at inside
      · rw [List.mem_singleton.mp inside]
        rfl
      · exact of_decide_eq_true (List.mem_filter.mp inside).2
  simpa using List.ne_nil_of_mem shared

theorem isolation_sound (inside : rule ∈ isolationRules targets) : Sound rule := by
  obtain ⟨lab, -, -, management, -, -, common, made⟩ := mem_isolation_rules.mp inside
  have reversed : (commonRoutingNetworks management.networks lab.networks).isEmpty = false := by
    obtain ⟨family, shared⟩ := List.exists_mem_of_ne_nil _ (by simpa using common)
    have turned := mem_common.mpr (mem_common.mp shared).symm
    simpa using List.ne_nil_of_mem turned
  rcases made with rfl | rfl
  · exact sound_of_common common rfl
  · exact sound_of_common reversed rfl

theorem adds_sound {given : RoutingRule} {rules : List FirewallRule}
    {pairs : List (LinkName × LinkName × Family)} (adds : Adds targets given rules pairs)
    (inside : rule ∈ rules) : Sound rule := by
  cases adds with
  | nothing _ => cases inside
  | allow between =>
    obtain rfl := List.mem_singleton.mp inside
    exact sound_of_common between.common rfl
  | deny between =>
    obtain rfl := List.mem_singleton.mp inside
    exact sound_of_common between.common rfl

theorem managed_sound {interfaces : List PhysicalInterface} {routingEnabled : Bool}
    {generated : List FirewallRule}
    (managed : managedRoutingFirewallRules interfaces vlans routingRules routingEnabled = .ok
      generated) : ∀ rule ∈ generated, Sound rule := by
  intro rule inside
  cases routingEnabled with
  | false =>
    obtain rfl := Except.ok.inj managed
    exact isolation_sound inside
  | true =>
    obtain ⟨allowed, rules, -⟩ := managed_ok managed _ rfl
    rcases (rules rule).mp inside with isolation | automatic | ⟨given, -, added, pairs, adds, member⟩ |
      denied
    · exact isolation_sound isolation
    · obtain ⟨source, -, -, destination, -, -, -, common, rfl⟩ := mem_automatic_rules.mp automatic
      exact sound_of_common common rfl
    · exact adds_sound adds member
    · obtain ⟨source, -, -, destination, -, -, -, family, -, sourced, destined, rfl⟩ :=
        mem_default_denies.mp denied
      exact sound_of_common (of_family_common sourced destined) rfl

end Generated

/-! ### Packets between two targets -/

structure Crosses (source destination : Target) (packet : Packet) : Prop where
  arrives : packet.input = source.name
  leaves : packet.output = destination.name
  source : Among source.networks packet.source
  destination : Among destination.networks packet.destination

structure Covers (rule : RoutingRule) (policy : Policy) (source destination : Target)
    (family : Family) : Prop where
  enabled : rule.enabled = true
  policy : rule.permission = some policy
  source : rule.sourceInterface = source.name.text
  destination : rule.destinationInterface = destination.name.text
  family : rule.family = some none ∨ rule.family = some (some family)

section Path

variable {targets : List Target} {source destination : Target} {packet : Packet}

theorem among_rule_family {family : Option Family} {networks : List Network} {address : Address}
    (admits : family = none ∨ family = some address.family) (among : Among networks address) :
    Among (ofFamily family networks) address := by
  rcases admits with rfl | rfl
  · exact among
  · exact (among_of_family rfl).mpr among

theorem family_of_has {family : Option Family} {networks : List Network} {version : Family}
    (present : hasFamily (ofFamily family networks) version = true) :
    family = none ∨ family = some version := by
  cases family with
  | none => exact .inl rfl
  | some other =>
    obtain ⟨network, inside, rfl⟩ := has_family.mp present
    exact .inr (congrArg some (of_decide_eq_true (List.mem_filter.mp inside).2).symm)

/-- The packet comes from a network of one target and leaves on another for a network of it,
or for any address where both targets are one. -/
structure Follows (source destination : Target) (packet : Packet) : Prop where
  arrives : packet.input = source.name
  leaves : packet.output = destination.name
  sources : Among source.networks packet.source
  destinations : source.name = destination.name ∨ Among destination.networks packet.destination

theorem crosses_follows (crosses : Crosses source destination packet) :
    Follows source destination packet :=
  ⟨crosses.arrives, crosses.leaves, crosses.source, .inr crosses.destination⟩

theorem among_destination (follows : Follows source destination packet) {family : Option Family}
    (admits : family = none ∨ family = some packet.source.family) :
    Among (destinationNetworks source destination (ofFamily family source.networks) family)
      packet.destination := by
  rw [destinationNetworks]
  split_ifs with same
  · obtain ⟨network, inside, contains⟩ := among_rule_family admits follows.sources
    refine ⟨wholeFamily network.family, List.mem_map_of_mem inside, ?_⟩
    rw [← contains_family contains, packet.families]
    exact contains_whole packet.destination
  · exact among_rule_family (packet.families ▸ admits) (follows.destinations.resolve_left same)

theorem covers_between (named : Named targets) (inside : source ∈ targets)
    (belongs : destination ∈ targets) (permits : permitsRouting source = true)
    (permitted : permitsRouting destination = true)
    (follows : Follows source destination packet) {rule : RoutingRule} {policy : Policy}
    (covers : Covers rule policy source destination packet.source.family) :
    ∃ family, Between targets rule policy family source destination ∧
      packet.source.family ∈ commonOf family source destination ∧
        (family = none ∨ family = some packet.source.family) := by
  obtain ⟨enabled, readPolicy, fromSource, toDestination, families⟩ := covers
  obtain ⟨family, readFamily, admits⟩ : ∃ family, rule.family = some family ∧
      (family = none ∨ family = some packet.source.family) := by
    rcases families with both | one
    · exact ⟨none, both, .inl rfl⟩
    · exact ⟨some _, one, .inr rfl⟩
  have shared : packet.source.family ∈ commonOf family source destination := by
    refine mem_common.mpr ⟨among_family (among_rule_family admits follows.sources), ?_⟩
    rw [packet.families]
    exact among_family (among_destination follows admits)
  refine ⟨family, ⟨enabled, readPolicy, readFamily, ?_, ?_, ⟨permits, permitted⟩, ?_⟩, shared, admits⟩
  · exact (target_named named).mpr ⟨inside, fromSource.symm⟩
  · exact (target_named named).mpr ⟨belongs, toDestination.symm⟩
  · simpa using List.ne_nil_of_mem shared

theorem between_covers (named : Named targets) {rule : RoutingRule} {policy : Policy}
    {family : Option Family} {version : Family}
    (between : Between targets rule policy family source destination)
    (shared : version ∈ commonOf family source destination) :
    Covers rule policy source destination version := by
  refine ⟨between.enabled, between.readPolicy, ((target_named named).mp between.foundSource).2.symm,
    ((target_named named).mp between.foundDestination).2.symm, ?_⟩
  rw [between.readFamily]
  rcases family_of_has (mem_common.mp shared).1 with rfl | rfl
  · exact .inl rfl
  · exact .inr rfl

theorem explicit_selects (named : Named targets) (inside : source ∈ targets)
    (belongs : destination ∈ targets) (follows : Follows source destination packet)
    {rule : RoutingRule} {policy : Policy} {phase : Phase} {action : Verdict}
    {family : Option Family} {first second : Target}
    (between : Between targets rule policy family first second)
    (selected : Selects (explicitRule rule phase action family first second) packet) :
    Covers rule policy source destination packet.source.family := by
  obtain ⟨arrives, leaves, sourced, destined⟩ := routing_rule_selects.mp selected
  obtain rfl := named_eq named ((target_named named).mp between.foundSource).1 inside
    (arrives.symm.trans follows.arrives)
  obtain rfl := named_eq named ((target_named named).mp between.foundDestination).1 belongs
    ((leaves _ rfl).symm.trans follows.leaves)
  refine between_covers named between (mem_common.mpr ⟨among_family sourced, ?_⟩)
  rw [packet.families]
  exact among_family destined

theorem explicit_selected (follows : Follows source destination packet) {rule : RoutingRule}
    {phase : Phase} {action : Verdict} {family : Option Family}
    (admits : family = none ∨ family = some packet.source.family) :
    Selects (explicitRule rule phase action family source destination) packet := by
  refine routing_rule_selects.mpr ⟨follows.arrives, ?_, among_rule_family admits follows.sources,
    among_destination follows admits⟩
  intro name same
  rw [← Option.some.inj same]
  exact follows.leaves

end Path

end Atlaso.Firewall.RoutingPermissions
