import Atlaso.Firewall.ForwardVerdicts
import Atlaso.Firewall.PermissionRows

/-!
The permissions that are shown against those that are enforced.

The page and the firewall read targets, families and precedence from the same rows on two
ways. The two target lists correspond, and a written rule is active on the page exactly when
it covers the path in the firewall.
-/

namespace Atlaso.Firewall.ShownPermissions

open ForwardVerdicts PermissionRows RoutingPermissions RoutingRules Library Dictionary
open IpAddress IpNetwork TextFields

/-! ### Targets -/

def enforced (target : PermissionTarget) : Target :=
  ⟨target.name, target.role, networksFromCidrs (some target.ipCidr) (some target.ipv6Cidr)⟩

theorem network_from_default (value : Option String) :
    networkFromCidr (some (value.getD "")) = networkFromCidr value := by
  cases value with
  | none => decide
  | some text => rfl

theorem networks_from_cidrs (first second : Option String) : networksFromCidrs first second =
    match networkFromCidr first, networkFromCidr second with
    | some left, some right => if right = left then [left] else [left, right]
    | some left, none => [left]
    | none, some right => [right]
    | none, none => [] := by
  simp only [networksFromCidrs, List.foldl_cons, List.foldl_nil]
  cases networkFromCidr first with
  | none =>
    cases networkFromCidr second with
    | none => rfl
    | some right => simp
  | some left =>
    cases networkFromCidr second with
    | none => simp
    | some right => by_cases same : right = left <;> simp [same]

theorem enforced_target (name : LinkName) (role first second : Option String) :
    (permissionTarget name role first second).map enforced =
      if (networksFromCidrs first second).isEmpty then none
      else some ⟨name, normalizeInterfaceRole role, networksFromCidrs first second⟩ := by
  have same : networksFromCidrs (some (first.getD "")) (some (second.getD "")) =
      networksFromCidrs first second := by
    rw [networks_from_cidrs, networks_from_cidrs, network_from_default, network_from_default]
  have present : (networksFromCidrs first second).isEmpty =
      !(configuredAddress first || configuredAddress second) := by
    rw [networks_from_cidrs, configuredAddress, configuredAddress]
    cases networkFromCidr first with
    | none =>
      cases networkFromCidr second with
      | none => rfl
      | some right => rfl
    | some left =>
      cases networkFromCidr second with
      | none => rfl
      | some right => by_cases equal : right = left <;> simp [equal]
  rw [permissionTarget, present]
  cases configuredAddress first || configuredAddress second with
  | false => rfl
  | true => simp [enforced, same]

theorem enforced_physical (interface : PhysicalInterface) :
    (shownPhysical interface).map enforced = physicalTarget interface := by
  simp only [shownPhysical, physicalTarget]
  by_cases missing : interface.operState = "missing"
  · simp [missing]
  · cases isTrunk interface.mode with
    | true => simp
    | false => simpa [missing] using enforced_target interface.name _ _ _

theorem enforced_vlan (vlan : VlanInterface) : (shownVlan vlan).map enforced = vlanTarget vlan := by
  simp only [shownVlan, vlanTarget]
  cases vlan.enabled with
  | false => simp
  | true => simpa using enforced_target vlan.name _ _ _

theorem enforced_targets (interfaces : List PhysicalInterface) (vlans : List VlanInterface) :
    (routingPermissionTargets interfaces vlans).map enforced =
      routingFirewallTargets interfaces vlans := by
  rw [routingPermissionTargets, routingFirewallTargets, List.map_append, List.map_filterMap,
    List.map_filterMap]
  congr 2
  · funext interface
    exact enforced_physical interface
  · funext vlan
    exact enforced_vlan vlan

section Lookup

variable {targets : List PermissionTarget} {target : PermissionTarget}

theorem by_name_iff (named : Named (targets.map enforced)) {name : String} :
    byName targets name = some target ↔ target ∈ targets ∧ target.name.text = name := by
  have keys : ((targets.map fun target => (target.name.text, target)).map Prod.fst).Nodup := by
    have texts : ((targets.map enforced).map Target.name).map LinkName.text =
        (targets.map fun target => (target.name.text, target)).map Prod.fst := by
      rw [List.map_map, List.map_map, List.map_map]
      rfl
    rw [← texts]
    exact named.map fun _ _ => link_name_ext
  rw [byName, of_pairs_distinct _ keys, get_item_iff keys]
  constructor
  · intro inside
    obtain ⟨other, member, same⟩ := List.mem_map.mp inside
    obtain ⟨rfl, rfl⟩ := Prod.mk.inj same
    exact ⟨member, rfl⟩
  · rintro ⟨member, rfl⟩
    exact List.mem_map.mpr ⟨target, member, rfl⟩

theorem mem_networks {network : Network} :
    network ∈ (enforced target).networks ↔ network ∈ target.networks := by
  simp only [enforced, networks_from_cidrs, PermissionTarget.networks, networkFromCidr,
    Option.bind_some, List.filterMap_cons, List.filterMap_nil]
  cases ipNetwork target.ipCidr with
  | none =>
    cases ipNetwork target.ipv6Cidr with
    | none => simp
    | some right => simp
  | some left =>
    cases ipNetwork target.ipv6Cidr with
    | none => simp
    | some right => by_cases same : right = left <;> simp [same]

theorem has_networks_family {family : Option Family} {version : Family} :
    hasFamily (ofFamily family target.networks) version = true ↔
      hasFamily (ofFamily family (enforced target).networks) version = true := by
  have mem : ∀ network, network ∈ ofFamily family target.networks ↔
      network ∈ ofFamily family (enforced target).networks := by
    intro network
    cases family with
    | none => exact mem_networks.symm
    | some family => simp only [ofFamily, List.mem_filter, mem_networks]
  simp only [has_family, mem]

theorem among_networks {family : Option Family} {address : Address} :
    Among (ofFamily family target.networks) address ↔
      Among (ofFamily family (enforced target).networks) address := by
  cases family with
  | none => simp only [Among, ofFamily, mem_networks]
  | some family => simp only [Among, ofFamily, List.mem_filter, mem_networks]

end Lookup

/-! ### Rules -/

/-- What `validate_routing_permission` demands of a rule whatever the topology is. -/
structure WellWritten (rule : RoutingRule) : Prop where
  name : nameErrors rule = []
  priority : priorityErrors rule = []
  source : isCanonical rule.sourceInterface = true
  destination : isCanonical rule.destinationInterface = true

section Rules

variable {targets : List PermissionTarget} {source destination : PermissionTarget}
  {rules : List RoutingRule} {policy : Policy} {version : Family}

theorem permission_role {target : PermissionTarget} :
    isPermissionRole (some target.role) = permitsRouting (enforced target) := by
  obtain ⟨name, role, ipCidr, ipv6Cidr⟩ := target
  cases role <;> rfl

theorem family_networks_nonempty {networks : List Network} {family : Option Family}
    (admits : family = none ∨ family = some version) (present : hasFamily networks version = true) :
    hasFamily (ofFamily family networks) version = true := by
  rcases admits with rfl | rfl
  · exact present
  · obtain ⟨network, inside, same⟩ := has_family.mp present
    exact has_family.mpr ⟨network, List.mem_filter.mpr ⟨inside, decide_eq_true same⟩, same⟩

theorem end_errors_nil {rule : RoutingRule} {label : String} {family : Option Family}
    (permits : permitsRouting (enforced source) = true) (readFamily : rule.family = some family)
    (present : hasFamily (ofFamily family source.networks) version = true) :
    endErrors rule label (some source) = [] := by
  have role := permission_role.trans permits
  have lab : permissionRole (some source) ≠ some .management := by
    intro manages
    have same : source.role = .management := Option.some.inj manages
    simp [isPermissionRole, same] at role
  have networks : (targetNetworks (some source) rule.family).isEmpty = false := by
    obtain ⟨network, inside, -⟩ := has_family.mp present
    rw [readFamily, targetNetworks]
    simpa using List.ne_nil_of_mem inside
  rw [endErrors, if_neg lab, if_neg, if_neg]
  · simp [networks]
  · simp [permissionRole, role]

theorem covers_valid {rule : RoutingRule} (named : Named (targets.map enforced))
    (inside : source ∈ targets) (belongs : destination ∈ targets)
    (permits : permitsRouting (enforced source) = true)
    (permitted : permitsRouting (enforced destination) = true)
    (sourced : hasFamily source.networks version = true)
    (destined : hasFamily destination.networks version = true) (written : WellWritten rule)
    (covers : Covers rule policy (enforced source) (enforced destination) version) :
    validateRoutingPermission rule targets = [] := by
  obtain ⟨family, readFamily, admits⟩ : ∃ family, rule.family = some family ∧
      (family = none ∨ family = some version) := by
    rcases covers.family with both | one
    · exact ⟨none, both, .inl rfl⟩
    · exact ⟨some _, one, .inr rfl⟩
  have foundSource : byName targets rule.sourceInterface = some source :=
    (by_name_iff named).mpr ⟨inside, covers.source.symm⟩
  have foundDestination : byName targets rule.destinationInterface = some destination :=
    (by_name_iff named).mpr ⟨belongs, covers.destination.symm⟩
  have firstPresent := family_networks_nonempty admits sourced
  have secondPresent := family_networks_nonempty admits destined
  have common : commonErrors rule (some source) (some destination) = [] := by
    have shared : version ∈ commonRoutingNetworks (targetNetworks (some source) rule.family)
        (targetNetworks (some destination) rule.family) := by
      rw [readFamily]
      exact mem_common.mpr ⟨firstPresent, secondPresent⟩
    have nonempty : (commonRoutingNetworks (targetNetworks (some source) rule.family)
        (targetNetworks (some destination) rule.family)).isEmpty = false := by
      simpa using List.ne_nil_of_mem shared
    rw [commonErrors, if_neg]
    simp [nonempty]
  simp only [validateRoutingPermission, foundSource, foundDestination]
  rw [written.name, written.priority, end_errors_nil permits readFamily firstPresent,
    end_errors_nil permitted readFamily secondPresent, common, canonicalErrors, canonicalErrors,
    if_pos written.source, if_pos written.destination]
  simp [covers.policy, readFamily]

theorem active_iff (named : Named (targets.map enforced)) (inside : source ∈ targets)
    (belongs : destination ∈ targets) (permits : permitsRouting (enforced source) = true)
    (permitted : permitsRouting (enforced destination) = true)
    (sourced : hasFamily source.networks version = true)
    (destined : hasFamily destination.networks version = true)
    (written : ∀ rule ∈ rules, rule.enabled = true → WellWritten rule) :
    policy ∈ activePolicies targets rules source.name.text destination.name.text version ↔
      ∃ rule ∈ rules, Covers rule policy (enforced source) (enforced destination) version := by
  simp only [activePolicies, List.mem_filterMap, List.mem_filter, Bool.and_eq_true,
    decide_eq_true_eq, List.contains_iff_mem, List.isEmpty_iff]
  constructor
  · rintro ⟨rule, ⟨listed, ⟨⟨⟨enabled, -⟩, fromSource⟩, toDestination⟩, covered⟩, readPolicy⟩
    refine ⟨rule, listed, enabled, readPolicy, fromSource, toDestination, ?_⟩
    rw [versions] at covered
    split at covered
    · rename_i both
      exact .inl both
    · rename_i family one
      obtain rfl := List.mem_singleton.mp covered
      exact .inr one
    · cases covered
  · rintro ⟨rule, listed, covers⟩
    refine ⟨rule, ⟨listed, ⟨⟨⟨covers.enabled, ?_⟩, covers.source⟩, covers.destination⟩, ?_⟩,
      covers.policy⟩
    · exact covers_valid named inside belongs permits permitted sourced destined
        (written rule listed covers.enabled) covers
    · rw [versions]
      rcases covers.family with both | one
      · rw [both]
        exact family_listed version
      · rw [one]
        exact List.mem_singleton_self version

end Rules

/-! ### Rows -/

theorem shown_action_allows {policies : List Policy} {automatic : Bool} :
    (shownAction policies automatic).allows = true ↔
      .deny ∉ policies ∧ (.allow ∈ policies ∨ automatic = true) := by
  rw [shownAction]
  split_ifs with denied allowed routes
  · simp [Action.allows, denied]
  · simp [Action.allows, denied, allowed]
  · simp [Action.allows, denied, routes]
  · simp [Action.allows, denied, allowed, routes]

/-- The packet of a row: from its source networks and interface to its destination networks
and interface. -/
structure OnRow (row : Row) (packet : Packet) : Prop where
  arrives : packet.input.text = row.sourceInterface
  leaves : packet.output.text = row.destinationInterface
  source : Among row.sourceNetworks packet.source
  destination : Among row.destinationNetworks packet.destination

structure RowTargets (targets : List PermissionTarget) (candidate : Candidate)
    (source destination : PermissionTarget) (family : Option Family) : Prop where
  foundSource : byName targets candidate.sourceInterface = some source
  foundDestination : byName targets candidate.destinationInterface = some destination
  permits : permitsRouting (enforced source) = true
  permitted : permitsRouting (enforced destination) = true
  readFamily : candidate.ipFamily = some family

theorem row_targets {targets : List PermissionTarget} {rules : List RoutingRule}
    {candidate : Candidate} (enabled : candidate.enabled = true)
    (shown : (permissionRow targets rules true candidate).effectiveAction ≠ .conflict) :
    ∃ source destination family, RowTargets targets candidate source destination family := by
  have scope : (isPermissionRole (permissionRole (byName targets candidate.sourceInterface)) &&
      isPermissionRole (permissionRole (byName targets candidate.destinationInterface)) &&
      candidate.ipFamily.isSome && candidate.policy.isSome) = true := by
    by_contra invalid
    rw [Bool.not_eq_true] at invalid
    refine shown ?_
    simp only [permissionRow, enabled, invalid]
    simp
  simp only [Bool.and_eq_true] at scope
  obtain ⟨⟨⟨first, second⟩, family⟩, -⟩ := scope
  obtain ⟨family, readFamily⟩ := Option.isSome_iff_exists.mp family
  cases source : byName targets candidate.sourceInterface with
  | none => simp [source, permissionRole, isPermissionRole] at first
  | some left =>
    cases destination : byName targets candidate.destinationInterface with
    | none => simp [destination, permissionRole, isPermissionRole] at second
    | some right =>
      rw [source] at first
      rw [destination] at second
      exact ⟨left, right, family, source, destination, permission_role.symm.trans first,
        permission_role.symm.trans second, readFamily⟩

section Shown

variable {interfaces : List PhysicalInterface} {vlans : List VlanInterface}
  {rules : List RoutingRule} {candidate : Candidate} {packet : Packet}
  {source destination : PermissionTarget} {family : Option Family}

theorem on_row_follows {targets : List PermissionTarget} (named : Named (targets.map enforced))
    (ends : RowTargets targets candidate source destination family)
    (onRow : OnRow (permissionRow targets rules true candidate) packet) :
    Follows (enforced source) (enforced destination) packet := by
  obtain ⟨-, fromSource⟩ := (by_name_iff named).mp ends.foundSource
  obtain ⟨-, toDestination⟩ := (by_name_iff named).mp ends.foundDestination
  have sourced := onRow.source
  have destined := onRow.destination
  simp only [permissionRow, ends.foundSource, ends.foundDestination, ends.readFamily,
    targetNetworks] at sourced destined
  refine ⟨link_name_ext (onRow.arrives.trans fromSource.symm),
    link_name_ext (onRow.leaves.trans toDestination.symm), ?_, ?_⟩
  · obtain ⟨network, inside, contains⟩ := among_networks.mp sourced
    refine ⟨network, ?_, contains⟩
    cases family with
    | none => exact inside
    | some version => exact (List.mem_filter.mp inside).1
  · by_cases same : candidate.sourceInterface = candidate.destinationInterface
    · exact .inl (link_name_ext (fromSource.trans (same.trans toDestination.symm)))
    · rw [if_neg (by simpa using same)] at destined
      obtain ⟨network, inside, contains⟩ := among_networks.mp destined
      refine .inr ⟨network, ?_, contains⟩
      cases family with
      | none => exact inside
      | some version => exact (List.mem_filter.mp inside).1

theorem follows_families (follows : Follows (enforced source) (enforced destination) packet)
    (one : (enforced source).name = (enforced destination).name → source = destination) :
    hasFamily source.networks packet.source.family = true ∧
      hasFamily destination.networks packet.source.family = true := by
  have sourced : hasFamily source.networks packet.source.family = true :=
    (@has_networks_family source none packet.source.family).mpr (among_family follows.sources)
  refine ⟨sourced, ?_⟩
  rcases follows.destinations with same | destined
  · rw [← one same]
    exact sourced
  · refine (@has_networks_family destination none packet.source.family).mpr ?_
    rw [packet.families]
    exact among_family destined

/-- What a row shows for a family is what the forward chain does with a new packet of it that
no management network takes and no managed translation covers. -/
theorem shown_permissions_enforced (settings : FirewallSettings)
    (enabled : settings.enabled = true) (interfaces : List PhysicalInterface)
    (vlans : List VlanInterface) (named : Named (routingFirewallTargets interfaces vlans))
    (rules : List RoutingRule) (written : ∀ rule ∈ rules, rule.enabled = true → WellWritten rule)
    (generated : List FirewallRule)
    (managed : managedRoutingFirewallRules interfaces vlans rules true = .ok generated)
    (row : Row)
    (inside : row ∈ routingPermissionRows (routingPermissionTargets interfaces vlans) rules true)
    (active : row.enabled = true) (consistent : row.effectiveAction ≠ .conflict)
    (version : Family) (action : Action)
    (shown : (version, action) ∈ row.familyEffectiveActions) (packet : Packet)
    (onRow : OnRow row packet) (sameFamily : packet.source.family = version)
    (fresh : packet.established = false) (other : packet.protocol ≠ 1 ∧ packet.protocol ≠ 58)
    (plain : row.sourceInterface = row.destinationInterface → Unmanaged packet)
    (apart : ¬∃ management ∈ routingFirewallTargets interfaces vlans,
      management.role = .management ∧ Among management.networks packet.destination) :
    (forward settings generated packet = .accept ↔ action.allows = true) ∧
      (forward settings generated packet = .drop ↔ action.allows = false) := by
  have targetNames : Named ((routingPermissionTargets interfaces vlans).map enforced) := by
    rw [enforced_targets]
    exact named
  obtain ⟨candidate, -, rfl⟩ := List.mem_map.mp inside
  obtain ⟨source, destination, family, ends⟩ := @row_targets _ rules candidate active consistent
  have follows := on_row_follows targetNames ends onRow
  obtain ⟨sourceInside, fromSource⟩ := (by_name_iff targetNames).mp ends.foundSource
  obtain ⟨destinationInside, toDestination⟩ := (by_name_iff targetNames).mp ends.foundDestination
  have firewallSource : enforced source ∈ routingFirewallTargets interfaces vlans := by
    rw [← enforced_targets]
    exact List.mem_map_of_mem sourceInside
  have firewallDestination : enforced destination ∈ routingFirewallTargets interfaces vlans := by
    rw [← enforced_targets]
    exact List.mem_map_of_mem destinationInside
  have one : (enforced source).name = (enforced destination).name → source = destination := by
    intro same
    have found := ends.foundSource
    rw [← fromSource, show source.name = destination.name from same, toDestination,
      ends.foundDestination] at found
    exact (Option.some.inj found).symm
  obtain ⟨sourced, destined⟩ := follows_families follows one
  obtain ⟨listed, -, same⟩ := List.mem_map.mp shown
  obtain ⟨rfl, rfl⟩ := Prod.mk.inj same
  subst sameFamily
  have decided := path_accepts_iff managed named firewallSource firewallDestination
    ends.permits ends.permitted follows enabled (fun equal => plain (by
      have texts : source.name.text = destination.name.text := congrArg LinkName.text equal
      rw [fromSource, toDestination] at texts
      exact texts)) fresh other
  have policies : ∀ policy, policy ∈ activePolicies (routingPermissionTargets interfaces vlans)
      rules candidate.sourceInterface candidate.destinationInterface packet.source.family ↔
      ∃ rule ∈ rules, Covers rule policy (enforced source) (enforced destination)
        packet.source.family := by
    intro policy
    rw [← fromSource, ← toDestination]
    exact active_iff targetNames sourceInside destinationInside ends.permits ends.permitted
      sourced destined written
  have routes : (!decide (candidate.sourceInterface = candidate.destinationInterface) &&
      decide (permissionRole (byName (routingPermissionTargets interfaces vlans)
        candidate.sourceInterface) = some .route) &&
      decide (permissionRole (byName (routingPermissionTargets interfaces vlans)
        candidate.destinationInterface) = some .route)) = true ↔
      BothRoutes (enforced source) (enforced destination) := by
    have texts : candidate.sourceInterface = candidate.destinationInterface ↔
        (enforced source).name = (enforced destination).name := by
      rw [← fromSource, ← toDestination]
      exact ⟨link_name_ext, congrArg LinkName.text⟩
    simp only [ends.foundSource, ends.foundDestination, permissionRole, Option.map_some,
      Option.some.injEq, Bool.and_eq_true, Bool.not_eq_true', decide_eq_false_iff_not,
      decide_eq_true_eq, texts, BothRoutes, enforced, and_assoc]
  have accepts : forward settings generated packet = .accept ↔
      (shownAction (activePolicies (routingPermissionTargets interfaces vlans) rules
        candidate.sourceInterface candidate.destinationInterface packet.source.family)
        (!decide (candidate.sourceInterface = candidate.destinationInterface) &&
          decide (permissionRole (byName (routingPermissionTargets interfaces vlans)
            candidate.sourceInterface) = some .route) &&
          decide (permissionRole (byName (routingPermissionTargets interfaces vlans)
            candidate.destinationInterface) = some .route))).allows = true := by
    rw [decided, shown_action_allows, policies, policies, routes, and_iff_right apart]
  refine ⟨accepts, ?_⟩
  rw [← Bool.not_eq_true, ← accepts]
  cases forward settings generated packet with
  | accept => simp
  | drop => simp

end Shown

/-! ### Concrete rows -/

def labRule (destination : LinkName) (policy : String) (priority : Int) : RoutingRule :=
  ⟨some 1, "lab", true, firstLab.text, destination.text, some policy, some 0, priority⟩

def labTopology (role : String) : List PhysicalInterface :=
  [physical management "management" "10.0.0.1/24", physical firstLab role "10.0.1.1/24",
    physical secondLab role "10.0.2.1/24"]

def labPacket (output : LinkName) (destination : BitVec 32) (translated : Bool) (mark : Nat) :
    Packet where
  input := firstLab
  output := output
  source := .v4 0x0a000105#32
  destination := .v4 destination
  families := rfl
  protocol := 6
  established := false
  translated := translated
  mark := mark

def Misleads (settings : FirewallSettings) (interfaces : List PhysicalInterface)
    (rule : RoutingRule) (action : Action) (packet : Packet) : Prop :=
  let row := permissionRow (routingPermissionTargets interfaces []) [rule] true (savedRule rule)
  row ∈ routingPermissionRows (routingPermissionTargets interfaces []) [rule] true ∧
  row.enabled = true ∧ row.effectiveAction ≠ .conflict ∧
  (packet.source.family, action) ∈ row.familyEffectiveActions ∧ OnRow row packet ∧
  ∃ generated, managedRoutingFirewallRules interfaces [] [rule] true = .ok generated ∧
    ¬(forward settings generated packet = .accept ↔ action.allows = true)

theorem misleads_of {settings : FirewallSettings} {interfaces : List PhysicalInterface}
    {rule : RoutingRule} {action : Action} {packet : Packet} {generated : List FirewallRule}
    (active : rule.enabled = true)
    (consistent : (permissionRow (routingPermissionTargets interfaces []) [rule] true
      (savedRule rule)).effectiveAction ≠ .conflict)
    (shown : (packet.source.family, action) ∈ (permissionRow
      (routingPermissionTargets interfaces []) [rule] true (savedRule rule)).familyEffectiveActions)
    (onRow : OnRow (permissionRow (routingPermissionTargets interfaces []) [rule] true
      (savedRule rule)) packet)
    (managed : managedRoutingFirewallRules interfaces [] [rule] true = .ok generated)
    (differs : ¬(forward settings generated packet = .accept ↔ action.allows = true)) :
    Misleads settings interfaces rule action packet := by
  refine ⟨List.mem_map_of_mem ?_, active, consistent, shown, onRow, generated, managed, differs⟩
  exact List.mem_append_right _ (List.mem_map_of_mem (List.mem_singleton_self rule))

def generatedWith (interfaces : List PhysicalInterface) (rule : RoutingRule) : List FirewallRule :=
  match managedRoutingFirewallRules interfaces [] [rule] true with
  | .ok generated => generated
  | .error _ => []

def sampleRow (interfaces : List PhysicalInterface) (rule : RoutingRule) : Row :=
  permissionRow (routingPermissionTargets interfaces []) [rule] true (savedRule rule)

/-- Management isolation, a rule that its page calls invalid, and a managed translation: three
rows whose action is not what the chain does. -/
theorem shown_permissions_differ :
    Misleads sampleSettings (labTopology "route") (labRule firstLab "allow" 100) .explicitAllow
      (labPacket firstLab 0x0a000005#32 false 0) ∧
    Misleads sampleSettings (labTopology "access") (labRule secondLab "allow" (-1)) .automaticDeny
      (labPacket secondLab 0x0a000205#32 false 0) ∧
    Misleads { sampleSettings with defaultForwardPolicy := .accept } (labTopology "access")
      (labRule firstLab "automatic" 100) .automaticDeny
      (labPacket firstLab 0x0a000205#32 true 0xa7000001) := by
  refine ⟨?_, ?_, ?_⟩
  · refine @misleads_of _ _ _ _ _ (generatedWith (labTopology "route") (labRule firstLab "allow" 100))
      rfl (by decide +kernel) (by decide +kernel) ⟨rfl, rfl, ?_, ?_⟩ (by decide +kernel)
      (by decide +kernel)
    · simp only [Among]
      decide +kernel
    · simp only [Among]
      decide +kernel
  · refine @misleads_of _ _ _ _ _ (generatedWith (labTopology "access") (labRule secondLab "allow" (-1)))
      rfl (by decide +kernel) (by decide +kernel) ⟨rfl, rfl, ?_, ?_⟩ (by decide +kernel)
      (by decide +kernel)
    · simp only [Among]
      decide +kernel
    · simp only [Among]
      decide +kernel
  · refine @misleads_of _ _ _ _ _ (generatedWith (labTopology "access")
        (labRule firstLab "automatic" 100))
      rfl (by decide +kernel) (by decide +kernel) ⟨rfl, rfl, ?_, ?_⟩ (by decide +kernel)
      (by decide +kernel)
    · simp only [Among]
      decide +kernel
    · simp only [Among]
      decide +kernel

/-- The row of an allow rule between two access interfaces. -/
theorem sample_allow_enforced :
    (forward sampleSettings (generatedWith (labTopology "access") (labRule secondLab "allow" 100))
        (labPacket secondLab 0x0a000205#32 false 0) = .accept ↔ Action.explicitAllow.allows = true) ∧
      (forward sampleSettings (generatedWith (labTopology "access") (labRule secondLab "allow" 100))
        (labPacket secondLab 0x0a000205#32 false 0) = .drop ↔ Action.explicitAllow.allows = false) := by
  refine shown_permissions_enforced sampleSettings rfl (labTopology "access") [] (by decide +kernel)
    [labRule secondLab "allow" 100] ?_ (generatedWith (labTopology "access")
      (labRule secondLab "allow" 100)) (by decide +kernel)
    (sampleRow (labTopology "access") (labRule secondLab "allow" 100)) ?_ rfl (by decide +kernel)
    .v4 .explicitAllow (by decide +kernel) (labPacket secondLab 0x0a000205#32 false 0)
    ⟨rfl, rfl, ?_, ?_⟩ rfl rfl (by decide) (fun _ => .inl rfl) ?_
  · intro rule inside _
    obtain rfl := List.mem_singleton.mp inside
    exact ⟨by decide +kernel, by decide +kernel, by decide +kernel, by decide +kernel⟩
  · exact List.mem_map_of_mem (List.mem_append_right _
      (List.mem_map_of_mem (List.mem_singleton_self _)))
  · simp only [Among]
    decide +kernel
  · simp only [Among]
    decide +kernel
  · simp only [Among]
    decide +kernel

end Atlaso.Firewall.ShownPermissions
