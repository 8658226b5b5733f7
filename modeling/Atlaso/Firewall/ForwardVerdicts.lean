import Atlaso.Firewall.RoutingPermissions

/-!
The verdict of the rendered forward chain on the packets between two targets.

A packet of a new flow between two targets that permit routing is accepted exactly when no
deny rule covers it, no management network has its destination, and an allow rule covers it
or both targets are routes. Packets between a lab target and a management target are dropped
in every state of their flow.
-/

namespace Atlaso.Firewall.ForwardVerdicts

open RoutingPermissions RoutingRules Library IpAddress IpNetwork

section Verdicts

variable {settings : FirewallSettings} {interfaces : List PhysicalInterface}
  {vlans : List VlanInterface} {routingRules : List RoutingRule} {generated : List FirewallRule}
  {targets : List Target} {source destination : Target} {packet : Packet}

structure Reaches (source destination : Target) (packet : Packet) : Prop where
  arrives : packet.input = source.name
  source : Among source.networks packet.source
  destination : Among destination.networks packet.destination

variable {routingEnabled : Bool}

theorem isolation_generated (managed : managedRoutingFirewallRules interfaces vlans routingRules
      routingEnabled = .ok generated) {rule : FirewallRule}
    (inside : rule ∈ isolationRules (routingFirewallTargets interfaces vlans)) :
    rule ∈ generated := by
  cases routingEnabled with
  | false =>
    obtain rfl := Except.ok.inj managed
    exact inside
  | true =>
    obtain ⟨allowed, rules, -⟩ := managed_ok managed _ rfl
    exact (rules rule).mpr (.inl inside)

theorem isolation_drops (enabled : settings.enabled = true)
    (managed : managedRoutingFirewallRules interfaces vlans routingRules routingEnabled = .ok
      generated) (inside : isolationRule source destination ∈ isolationRules (routingFirewallTargets
      interfaces vlans)) (reaches : Reaches source destination packet) :
    forward settings generated packet = .drop := by
  refine forward_drops enabled (managed_sound managed) (isolation_generated managed inside) rfl
    (fun gateway => by cases gateway) ?_
  exact routing_rule_selects.mpr
    ⟨reaches.arrives, fun _ none => (by cases none), reaches.source, reaches.destination⟩

theorem lab_isolated {lab management : Target} (enabled : settings.enabled = true)
    (managed : managedRoutingFirewallRules interfaces vlans routingRules routingEnabled = .ok
      generated) (inside : lab ∈ routingFirewallTargets interfaces vlans)
    (role : lab.role ≠ .management) (belongs : management ∈ routingFirewallTargets interfaces vlans)
    (manages : management.role = .management)
    (reaches : Reaches lab management packet ∨ Reaches management lab packet) :
    forward settings generated packet = .drop := by
  have common : (commonRoutingNetworks lab.networks management.networks).isEmpty = false := by
    have shared : packet.source.family ∈ commonRoutingNetworks lab.networks management.networks := by
      rcases reaches with out | back
      · refine mem_common.mpr ⟨among_family out.source, ?_⟩
        rw [packet.families]
        exact among_family out.destination
      · refine mem_common.mpr ⟨?_, among_family back.source⟩
        rw [packet.families]
        exact among_family back.destination
    simpa using List.ne_nil_of_mem shared
  rcases reaches with out | back
  · exact isolation_drops enabled managed (mem_isolation_rules.mpr
      ⟨lab, inside, role, management, belongs, manages, common, .inl rfl⟩) out
  · exact isolation_drops enabled managed (mem_isolation_rules.mpr
      ⟨lab, inside, role, management, belongs, manages, common, .inr rfl⟩) back

theorem denied_drops (enabled : settings.enabled = true)
    (managed : managedRoutingFirewallRules interfaces vlans routingRules true = .ok generated)
    (named : Named (routingFirewallTargets interfaces vlans))
    (inside : source ∈ routingFirewallTargets interfaces vlans)
    (belongs : destination ∈ routingFirewallTargets interfaces vlans)
    (permits : permitsRouting source = true) (permitted : permitsRouting destination = true)
    (follows : Follows source destination packet)
    {rule : RoutingRule} (listed : rule ∈ routingRules)
    (covers : Covers rule .deny source destination packet.source.family) :
    forward settings generated packet = .drop := by
  obtain ⟨family, between, -, admits⟩ :=
    covers_between named inside belongs permits permitted follows covers
  obtain ⟨allowed, rules, -⟩ := managed_ok managed _ rfl
  have member : explicitRule rule .deny .drop family source destination ∈ generated :=
    (rules _).mpr (.inr (.inr (.inl
      ⟨rule, listed, _, _, .deny between, List.mem_singleton.mpr rfl⟩)))
  refine forward_drops enabled (managed_sound managed) member rfl ?_
    (explicit_selected follows admits)
  intro gateway
  simp [isGatewayDenial, explicitRule, routingFirewallRule] at gateway

theorem allowed_iff (named : Named targets) (inside : source ∈ targets)
    (belongs : destination ∈ targets) (permits : permitsRouting source = true)
    (permitted : permitsRouting destination = true) (follows : Follows source destination packet) :
    (∃ given ∈ routingRules, ∃ rules pairs, Adds targets given rules pairs ∧
        (source.name, destination.name, packet.source.family) ∈ pairs) ↔
      ∃ rule ∈ routingRules, Covers rule .allow source destination packet.source.family := by
  constructor
  · rintro ⟨given, listed, rules, pairs, adds, member⟩
    refine ⟨given, listed, ?_⟩
    cases adds with
    | nothing _ => cases member
    | deny _ => cases member
    | @allow family first second between =>
      obtain ⟨version, shared, same⟩ := List.mem_map.mp member
      obtain ⟨firstName, rest⟩ := Prod.mk.inj same
      obtain ⟨secondName, rfl⟩ := Prod.mk.inj rest
      obtain rfl := named_eq named ((target_named named).mp between.foundSource).1 inside firstName
      obtain rfl := named_eq named ((target_named named).mp between.foundDestination).1 belongs
        secondName
      exact between_covers named between shared
  · rintro ⟨rule, listed, covers⟩
    obtain ⟨family, between, shared, -⟩ :=
      covers_between named inside belongs permits permitted follows covers
    exact ⟨rule, listed, _, _, .allow between, List.mem_map.mpr ⟨_, shared, rfl⟩⟩

def BothRoutes (source destination : Target) : Prop :=
  source.name ≠ destination.name ∧ source.role = .route ∧ destination.role = .route

variable (managed : managedRoutingFirewallRules interfaces vlans routingRules true = .ok generated)
  (named : Named (routingFirewallTargets interfaces vlans))
  (inside : source ∈ routingFirewallTargets interfaces vlans)
  (belongs : destination ∈ routingFirewallTargets interfaces vlans)
  (permits : permitsRouting source = true) (permitted : permitsRouting destination = true)
  (follows : Follows source destination packet)
include managed named inside belongs permits permitted follows

theorem uncovered_drops (enabled : settings.enabled = true)
    (plain : source.name = destination.name → Unmanaged packet)
    (uncovered : ¬∃ rule ∈ routingRules, Covers rule .allow source destination packet.source.family)
    (restricted : ¬BothRoutes source destination) :
    forward settings generated packet = .drop := by
  obtain ⟨allowed, rules, pairs⟩ := managed_ok managed _ rfl
  have fresh : (source.name, destination.name, packet.source.family) ∉ allowed := by
    rw [pairs, allowed_iff named inside belongs permits permitted follows]
    exact uncovered
  have sourced : Among (ofFamily (some packet.source.family) source.networks) packet.source :=
    (among_of_family rfl).mpr follows.sources
  have destined : Among (deniedDestinations source destination packet.source.family)
      packet.destination := by
    rw [deniedDestinations]
    split_ifs with same
    · refine ⟨_, List.mem_singleton_self _, ?_⟩
      rw [packet.families]
      exact contains_whole packet.destination
    · exact (among_of_family packet.families.symm).mpr (follows.destinations.resolve_left same)
  have member : defaultDenyRule source destination packet.source.family ∈ generated := by
    refine (rules _).mpr (.inr (.inr (.inr (mem_default_denies.mpr
      ⟨source, inside, permits, destination, belongs, permitted, restricted, _, fresh, ?_, ?_,
        rfl⟩))))
    · obtain ⟨network, present, -⟩ := sourced
      exact List.ne_nil_of_mem present
    · obtain ⟨network, present, -⟩ := destined
      exact List.ne_nil_of_mem present
  refine forward_drops enabled (managed_sound managed) member rfl ?_
    (routing_rule_selects.mpr ⟨follows.arrives, ?_, sourced, destined⟩)
  · intro gateway
    refine plain ?_
    simpa [isGatewayDenial, defaultDenyRule, routingFirewallRule] using gateway
  · intro name same
    rw [← Option.some.inj same]
    exact follows.leaves

theorem permitted_passes
    (undenied : ¬∃ rule ∈ routingRules, Covers rule .deny source destination packet.source.family)
    (unmanaged : ¬∃ management ∈ routingFirewallTargets interfaces vlans, management.role =
      .management ∧ Among management.networks packet.destination)
    (covered : (∃ rule ∈ routingRules, Covers rule .allow source destination packet.source.family) ∨
      BothRoutes source destination) :
    ∀ rule ∈ generated, isPrelude rule = true → ¬Selects rule packet := by
  intro rule member early selected
  obtain ⟨allowed, rules, pairs⟩ := managed_ok managed _ rfl
  rcases (rules rule).mp member with isolation | automatic | ⟨given, listed, added, _, adds, among⟩ |
    denied
  · obtain ⟨lab, labInside, labRole, management, managementInside, managementRole, -, made⟩ :=
      mem_isolation_rules.mp isolation
    rcases made with rfl | rfl
    · obtain ⟨-, -, -, reached⟩ := routing_rule_selects.mp selected
      exact unmanaged ⟨management, managementInside, managementRole, reached⟩
    · obtain ⟨arrives, -⟩ := routing_rule_selects.mp selected
      obtain rfl := named_eq named managementInside inside (arrives.symm.trans follows.arrives)
      simp [permitsRouting, managementRole] at permits
  · obtain ⟨_, -, -, _, -, -, -, -, rfl⟩ := mem_automatic_rules.mp automatic
    cases early
  · cases adds with
    | nothing _ => cases among
    | allow between =>
      obtain rfl := List.mem_singleton.mp among
      cases early
    | deny between =>
      obtain rfl := List.mem_singleton.mp among
      exact undenied ⟨given, listed, explicit_selects named inside belongs follows between selected⟩
  · obtain ⟨first, firstInside, -, second, secondInside, -, restricted, family, fresh, -, -, rfl⟩ :=
      mem_default_denies.mp denied
    obtain ⟨arrives, leaves, sourced, -⟩ := routing_rule_selects.mp selected
    obtain rfl := named_eq named firstInside inside (arrives.symm.trans follows.arrives)
    obtain rfl := named_eq named secondInside belongs ((leaves _ rfl).symm.trans follows.leaves)
    rcases covered with allows | routes
    · rcases family_of_has (among_family sourced) with none | same
      · cases none
      · obtain rfl := Option.some.inj same
        refine fresh ((pairs _).mpr ?_)
        exact (allowed_iff named inside belongs permits permitted follows).mpr allows
    · exact restricted routes

theorem permitted_accepts (enabled : settings.enabled = true) (fresh : packet.established = false)
    (other : packet.protocol ≠ 1 ∧ packet.protocol ≠ 58)
    (undenied : ¬∃ rule ∈ routingRules, Covers rule .deny source destination packet.source.family)
    (unmanaged : ¬∃ management ∈ routingFirewallTargets interfaces vlans, management.role =
      .management ∧ Among management.networks packet.destination)
    (covered : (∃ rule ∈ routingRules, Covers rule .allow source destination packet.source.family) ∨
      BothRoutes source destination) :
    forward settings generated packet = .accept := by
  have passed := permitted_passes managed named inside belongs permits permitted follows
    undenied unmanaged covered
  obtain ⟨allowed, rules, -⟩ := managed_ok managed _ rfl
  rcases covered with ⟨rule, listed, covers⟩ | ⟨different, routes, routed⟩
  · obtain ⟨family, between, -, admits⟩ :=
      covers_between named inside belongs permits permitted follows covers
    have member : explicitRule rule .allow .accept family source destination ∈ generated :=
      (rules _).mpr (.inr (.inr (.inl
        ⟨rule, listed, _, _, .allow between, List.mem_singleton.mpr rfl⟩)))
    exact forward_accepts enabled (managed_sound managed) passed member rfl
      (explicit_selected follows admits) fresh other
  · have destined := follows.destinations.resolve_left different
    have common := among_common follows.sources destined
    have member := (rules _).mpr (.inr (.inl (mem_automatic_rules.mpr
      ⟨source, inside, routes, destination, belongs, routed, different, common, rfl⟩)))
    refine forward_accepts enabled (managed_sound managed) passed member rfl
      (routing_rule_selects.mpr ⟨follows.arrives, ?_, follows.sources, destined⟩) fresh other
    intro name same
    rw [← Option.some.inj same]
    exact follows.leaves

theorem path_accepts_iff (enabled : settings.enabled = true)
    (plain : source.name = destination.name → Unmanaged packet) (fresh : packet.established = false)
    (other : packet.protocol ≠ 1 ∧ packet.protocol ≠ 58) :
    forward settings generated packet = .accept ↔
      (¬∃ rule ∈ routingRules, Covers rule .deny source destination packet.source.family) ∧
      (¬∃ management ∈ routingFirewallTargets interfaces vlans,
        management.role = .management ∧ Among management.networks packet.destination) ∧
      ((∃ rule ∈ routingRules, Covers rule .allow source destination packet.source.family) ∨
        BothRoutes source destination) := by
  constructor
  · intro accepted
    have kept : forward settings generated packet ≠ .drop := by
      rw [accepted]
      decide
    refine ⟨?_, ?_, ?_⟩
    · rintro ⟨rule, listed, covers⟩
      exact kept (denied_drops enabled managed named inside belongs permits permitted follows
        listed covers)
    · rintro ⟨management, managementInside, manages, reached⟩
      have lab : source.role ≠ .management := by
        intro role
        simp [permitsRouting, role] at permits
      exact kept (lab_isolated enabled managed inside lab managementInside manages
        (.inl ⟨follows.arrives, follows.sources, reached⟩))
    · by_contra neither
      obtain ⟨uncovered, restricted⟩ := not_or.mp neither
      exact kept (uncovered_drops managed named inside belongs permits permitted follows enabled
        plain uncovered restricted)
  · rintro ⟨undenied, unmanaged, covered⟩
    exact permitted_accepts managed named inside belongs permits permitted follows enabled fresh
      other undenied unmanaged covered

end Verdicts

/-- The verdicts of the forward chain that `render_nftables_config` makes of the managed rules. -/
theorem forward_chain_decides (settings : FirewallSettings) (enabled : settings.enabled = true)
    (interfaces : List PhysicalInterface) (vlans : List VlanInterface)
    (named : Named (routingFirewallTargets interfaces vlans)) (routingRules : List RoutingRule)
    (routingEnabled : Bool) (generated : List FirewallRule)
    (managed : managedRoutingFirewallRules interfaces vlans routingRules routingEnabled =
      .ok generated) :
    (routingEnabled = true → ∀ source ∈ routingFirewallTargets interfaces vlans,
      ∀ destination ∈ routingFirewallTargets interfaces vlans, source ≠ destination →
        permitsRouting source = true → permitsRouting destination = true →
          ∀ packet, Crosses source destination packet → packet.established = false →
            packet.protocol ≠ 1 ∧ packet.protocol ≠ 58 →
              (forward settings generated packet = .accept ↔
                (¬∃ rule ∈ routingRules,
                  Covers rule .deny source destination packet.source.family) ∧
                (¬∃ management ∈ routingFirewallTargets interfaces vlans,
                  management.role = .management ∧ Among management.networks packet.destination) ∧
                ((∃ rule ∈ routingRules,
                    Covers rule .allow source destination packet.source.family) ∨
                  (source.role = .route ∧ destination.role = .route)))) ∧
    ∀ lab ∈ routingFirewallTargets interfaces vlans, lab.role ≠ .management →
      ∀ management ∈ routingFirewallTargets interfaces vlans, management.role = .management →
        ∀ packet, Reaches lab management packet ∨ Reaches management lab packet →
          forward settings generated packet = .drop := by
  refine ⟨?_, ?_⟩
  · rintro rfl source inside destination belongs distinct permits permitted packet crosses fresh other
    have different : source.name ≠ destination.name :=
      fun same => distinct (named_eq named inside belongs same)
    have decided := path_accepts_iff managed named inside belongs permits permitted
      (crosses_follows crosses) enabled (fun same => absurd same different) fresh other
    rw [decided, BothRoutes, and_iff_right different]
  · intro lab inside role management belongs manages packet reaches
    exact lab_isolated enabled managed inside role belongs manages reaches

/-! Two routes beside the management interface. In the second topology the network of one of
them lies in the management network. -/

def management : LinkName := ⟨"eth0", by decide⟩

def firstLab : LinkName := ⟨"eth1", by decide⟩

def secondLab : LinkName := ⟨"eth2", by decide⟩

def physical (name : LinkName) (role cidr : String) : PhysicalInterface :=
  ⟨name, "up", some "access", some role, some cidr, none⟩

def topology (secondCidr : String) : List PhysicalInterface :=
  [physical management "management" "10.0.0.1/24", physical firstLab "route" "10.0.1.1/24",
    physical secondLab "route" secondCidr]

def sampleSettings : FirewallSettings := ⟨true, .drop, true, true, false⟩

def samplePacket (destination : Address) (v4 : destination.family = .v4) : Packet where
  input := firstLab
  output := secondLab
  source := .v4 0x0a000105#32
  destination := destination
  families := v4.symm
  protocol := 6
  established := false
  translated := false
  mark := 0

def managementTarget : Target := ⟨management, .management, [⟨.v4, 24, 0x0a0000⟩]⟩

def firstTarget : Target := ⟨firstLab, .route, [⟨.v4, 24, 0x0a0001⟩]⟩

def secondTarget (network : Network) : Target := ⟨secondLab, .route, [network]⟩

theorem apart_targets : routingFirewallTargets (topology "10.0.2.1/24") [] =
    [managementTarget, firstTarget, secondTarget ⟨.v4, 24, 0x0a0002⟩] := by
  decide +kernel

theorem overlapping_targets : routingFirewallTargets (topology "10.0.0.129/25") [] =
    [managementTarget, firstTarget, secondTarget ⟨.v4, 25, 0x140001⟩] := by
  decide +kernel

def generatedFor (interfaces : List PhysicalInterface) : List FirewallRule :=
  isolationRules (routingFirewallTargets interfaces []) ++
    automaticRules (routingFirewallTargets interfaces []) ++
      defaultDenies (routingFirewallTargets interfaces []) []

theorem sample_route_accepted :
    forward sampleSettings (generatedFor (topology "10.0.2.1/24"))
      (samplePacket (.v4 0x0a000205#32) rfl) = .accept := by
  have named : Named (routingFirewallTargets (topology "10.0.2.1/24") []) := by
    rw [apart_targets]
    decide
  refine ((forward_chain_decides sampleSettings rfl (topology "10.0.2.1/24") [] named [] true
    (generatedFor (topology "10.0.2.1/24")) rfl).1 rfl firstTarget (by rw [apart_targets]; decide)
    (secondTarget ⟨.v4, 24, 0x0a0002⟩) (by rw [apart_targets]; decide) (by decide) rfl rfl
    (samplePacket (.v4 0x0a000205#32) rfl) ⟨rfl, rfl, ?_, ?_⟩ rfl (by decide)).mpr ⟨?_, ?_, ?_⟩
  · exact ⟨⟨.v4, 24, 0x0a0001⟩, List.mem_singleton.mpr rfl, by decide⟩
  · exact ⟨⟨.v4, 24, 0x0a0002⟩, List.mem_singleton.mpr rfl, by decide⟩
  · rintro ⟨rule, listed, -⟩
    cases listed
  · rw [apart_targets]
    simp only [Among]
    decide
  · exact .inr ⟨rfl, rfl⟩

/-- Isolation comes before every permission: a packet between two routes is dropped where its
destination is in a management network as well. -/
theorem overlapping_route_dropped :
    managedRoutingFirewallRules (topology "10.0.0.129/25") [] [] true =
      .ok (generatedFor (topology "10.0.0.129/25")) ∧
    Named (routingFirewallTargets (topology "10.0.0.129/25") []) ∧
    firstTarget ∈ routingFirewallTargets (topology "10.0.0.129/25") [] ∧
    secondTarget ⟨.v4, 25, 0x140001⟩ ∈ routingFirewallTargets (topology "10.0.0.129/25") [] ∧
    Crosses firstTarget (secondTarget ⟨.v4, 25, 0x140001⟩)
      (samplePacket (.v4 0x0a000082#32) rfl) ∧
    ¬(forward sampleSettings (generatedFor (topology "10.0.0.129/25"))
        (samplePacket (.v4 0x0a000082#32) rfl) = .accept ↔
      (¬∃ rule ∈ ([] : List RoutingRule), Covers rule .deny firstTarget
        (secondTarget ⟨.v4, 25, 0x140001⟩) .v4) ∧
      ((∃ rule ∈ ([] : List RoutingRule), Covers rule .allow firstTarget
        (secondTarget ⟨.v4, 25, 0x140001⟩) .v4) ∨
        (firstTarget.role = .route ∧ (secondTarget ⟨.v4, 25, 0x140001⟩).role = .route))) := by
  refine ⟨rfl, ?_, ?_, ?_, ⟨rfl, rfl, ?_, ?_⟩, ?_⟩
  · rw [overlapping_targets]
    decide
  · rw [overlapping_targets]
    decide
  · rw [overlapping_targets]
    decide
  · exact ⟨⟨.v4, 24, 0x0a0001⟩, List.mem_singleton.mpr rfl, by decide⟩
  · exact ⟨⟨.v4, 25, 0x140001⟩, List.mem_singleton.mpr rfl, by decide⟩
  · have dropped : forward sampleSettings (generatedFor (topology "10.0.0.129/25"))
        (samplePacket (.v4 0x0a000082#32) rfl) = .drop := by
      decide +kernel
    rw [dropped]
    intro claimed
    have undenied : ¬∃ rule ∈ ([] : List RoutingRule), Covers rule .deny firstTarget
        (secondTarget ⟨.v4, 25, 0x140001⟩) .v4 := by
      rintro ⟨rule, listed, -⟩
      cases listed
    have accepted := claimed.mpr ⟨undenied, .inr ⟨rfl, rfl⟩⟩
    cases accepted

end Atlaso.Firewall.ForwardVerdicts
