import Atlaso.Firewall.RoutingPermissions
import Atlaso.Firewall.RuleNames
import Atlaso.Library.DistinctLists
import Mathlib.Data.Bool.AllAny

/-!
When two generated rules have one name.

Rules of different kinds are kept apart by what their names end with or start with, but for one
case: an explicit routing rule can be named so that its name is that of a DHCP or DNS rule. Within
a kind, names are as different as the slugs and the exact identities that they are made from.
-/

namespace Atlaso.Firewall.NameCollisions

open Dhcp.ScopeOptions Library DistinctLists IpAddress ItemLists LineText
open TextFields RoutingRules RoutingPermissions RuleNames

/-! ### Characters of names -/

def isNameChar (c : Char) : Bool := isSlugChar c || c = '-'

/-- Names of generated rules are lower case letters, digits and dashes. -/
abbrev Plain (text : List Char) : Prop := ∀ c ∈ text, isNameChar c = true

theorem name_char_small {c : Char} (plain : isNameChar c = true) : c.toNat < 128 := by
  simp only [isNameChar, isSlugChar, Bool.or_eq_true, Bool.and_eq_true, decide_eq_true_eq] at plain
  rcases plain with (⟨_, upper⟩ | ⟨_, upper⟩) | rfl
  · exact lt_of_le_of_lt (show c.toNat ≤ 122 from upper) (by decide)
  · exact lt_of_le_of_lt (show c.toNat ≤ 57 from upper) (by decide)
  · decide

theorem name_char_kept {c : Char} (plain : isNameChar c = true) :
    isWhitespace c = false ∧ c.toLower = c := by
  have checked : ∀ value < 128, isNameChar (Char.ofNat value) = true →
      isWhitespace (Char.ofNat value) = false ∧
        (Char.ofNat value).toLower = Char.ofNat value := by decide +kernel
  have found := checked c.toNat (name_char_small plain)
  rw [Char.ofNat_toNat] at found
  exact found plain

theorem hex_name_char {c : Char} (hex : isHex c = true) : isNameChar c = true := by
  simp only [isHex, isNameChar, isSlugChar, Bool.or_eq_true, Bool.and_eq_true,
    decide_eq_true_eq] at hex ⊢
  rcases hex with ⟨lower, upper⟩ | ⟨lower, upper⟩
  · exact .inl (.inl ⟨lower, le_trans upper (by decide)⟩)
  · exact .inl (.inr ⟨lower, upper⟩)

theorem digit_hex {c : Char} (digit : c.isDigit = true) : isHex c = true := by
  simp only [Char.isDigit, Bool.and_eq_true, decide_eq_true_eq] at digit
  simp only [isHex, Bool.or_eq_true, Bool.and_eq_true, decide_eq_true_eq]
  exact .inr digit

section Names

variable {lowering : Lowering} {sha : Sha256}

/-- The check of the state compares these names as they are. -/
theorem normalized_plain {name : List Char} (plain : Plain name) :
    normalizedName lowering name = name := by
  have stripped : strip name = name := by
    have whole := @strip_between [] name [] (by simp) (by simp)
      (fun c inside => (name_char_kept (plain c (List.mem_of_mem_head? inside))).1)
      fun c inside => (name_char_kept (plain c (List.mem_of_getLast? inside))).1
    simpa using whole
  rw [normalizedName, stripped, lowering.ascii _ fun c inside => name_char_small (plain c inside)]
  calc name.map Char.toLower = name.map id :=
        List.map_congr_left fun c inside => (name_char_kept (plain c inside)).2
    _ = name := List.map_id name

theorem dashed_plain (text : List Char) : ∀ within, Plain (dashed within text) := by
  induction text with
  | nil => exact fun _ _ none => absurd none List.not_mem_nil
  | cons c rest induction =>
    intro within d inside
    rw [dashed] at inside
    split at inside
    · next kept =>
        rcases List.mem_cons.mp inside with rfl | later
        · rw [isNameChar, kept]
          rfl
        · exact induction _ d later
    · split at inside
      · exact induction _ d inside
      · rcases List.mem_cons.mp inside with rfl | later
        · decide
        · exact induction _ d later

theorem strip_of_subset (c : Char) (text : List Char) : stripOf c text ⊆ text := by
  intro d inside
  rw [stripOf, List.mem_reverse] at inside
  have earlier := (List.dropWhile_suffix _).subset inside
  rw [List.mem_reverse] at earlier
  exact (List.dropWhile_suffix _).subset earlier

theorem slug_plain (value : List Char) : Plain (slug lowering value) := by
  rw [slug]
  split
  · exact List.all_eq_true.mp (by decide)
  · exact fun c inside => dashed_plain _ _ c (strip_of_subset '-' _ inside)

variable {left right first second : List Char} {c : Char}

theorem plain_append (first : Plain left) (second : Plain right) :
    Plain (left ++ right) := by
  intro c inside
  rcases List.mem_append.mp inside with before | after
  · exact first c before
  · exact second c after

theorem plain_cons {text : List Char} (first : isNameChar c = true) (rest : Plain text) :
    Plain (c :: text) := by
  intro d inside
  rcases List.mem_cons.mp inside with rfl | later
  · exact first
  · exact rest d later

/-! ### Endings -/

/-- Texts with different endings, neither of which ends with the other, differ. -/
theorem endings_apart (apart : first.isSuffixOf second = false ∧ second.isSuffixOf first = false) :
    left ++ first ≠ right ++ second := by
  intro same
  have ends : first <:+ right ++ second := ⟨left, same⟩
  rcases List.suffix_or_suffix_of_suffix ends (List.suffix_append right second) with short | long
  · rw [← List.isSuffixOf_iff_suffix, apart.1] at short
    cases short
  · rw [← List.isSuffixOf_iff_suffix, apart.2] at long
    cases long

theorem dhcp_name_inj {left right : List Char × Family}
    (same : left.1 ++ dhcpSuffix left.2 = right.1 ++ dhcpSuffix right.2) : left = right := by
  obtain ⟨leftSlug, leftFamily⟩ := left
  obtain ⟨rightSlug, rightFamily⟩ := right
  have apart : (dhcpSuffix .v4).isSuffixOf (dhcpSuffix .v6) = false ∧
      (dhcpSuffix .v6).isSuffixOf (dhcpSuffix .v4) = false := by decide
  cases leftFamily <;> cases rightFamily
  · exact Prod.ext (List.append_cancel_right same) rfl
  · exact absurd same (endings_apart apart)
  · exact absurd same.symm (endings_apart apart)
  · exact Prod.ext (List.append_cancel_right same) rfl

theorem dns_name_inj (firstInside : first ∈ dnsProtocols) (secondInside : second ∈ dnsProtocols)
    (same : left ++ ("-dns-".toList ++ first) = right ++ ("-dns-".toList ++ second)) :
    left = right ∧ first = second := by
  have apart : ∀ first ∈ dnsProtocols, ∀ second ∈ dnsProtocols, first ≠ second →
      ("-dns-".toList ++ first).isSuffixOf ("-dns-".toList ++ second) = false ∧
        ("-dns-".toList ++ second).isSuffixOf ("-dns-".toList ++ first) = false := by decide
  by_cases equal : first = second
  · subst equal
    exact ⟨List.append_cancel_right same, rfl⟩
  · exact absurd same (endings_apart (apart first firstInside second secondInside equal))

theorem dhcp_dns_apart {protocol : List Char} (family : Family) (inside : protocol ∈ dnsProtocols) :
    left ++ dhcpSuffix family ≠ right ++ ("-dns-".toList ++ protocol) := by
  have apart : ∀ protocol ∈ dnsProtocols,
      ((dhcpSuffix .v4).isSuffixOf ("-dns-".toList ++ protocol) = false ∧
        ("-dns-".toList ++ protocol).isSuffixOf (dhcpSuffix .v4) = false) ∧
      (dhcpSuffix .v6).isSuffixOf ("-dns-".toList ++ protocol) = false ∧
        ("-dns-".toList ++ protocol).isSuffixOf (dhcpSuffix .v6) = false := by decide
  cases family
  · exact endings_apart (apart protocol inside).1
  · exact endings_apart (apart protocol inside).2

/-! ### Digests -/

theorem routing_identity_inj {source destination source' destination' : String}
    {family family' : Nat}
    (same : routingIdentity source destination family = routingIdentity source' destination' family') :
    source = source' ∧ destination = destination' := by
  rw [routingIdentity, routingIdentity] at same
  obtain ⟨sources, rest⟩ := quote_plain_cancel (List.tail_eq_of_cons_eq same)
  exact ⟨sources, (quote_plain_cancel (List.tail_eq_of_cons_eq rest)).1⟩

def linkNames (interfaces : List PhysicalInterface) (vlans : List VlanInterface) : List LinkName :=
  interfaces.map PhysicalInterface.name ++ vlans.map VlanInterface.name

def identities (links : List LinkName) : List (List Char) :=
  links.flatMap fun source => links.flatMap fun destination => [0, 4, 6].map
    (routingIdentity source.text destination.text)

/-- Different identities of a topology have different digests. -/
def CollisionFree (sha : Sha256) (links : List LinkName) : Prop :=
  ∀ first ∈ identities links, ∀ second ∈ identities links,
    sha.hexdigest first = sha.hexdigest second → first = second

structure Hashed where
  kind : String
  (source destination : LinkName)
  family : Nat

def hashedParts : RuleName → Option Hashed
  | .isolate source destination => some ⟨"isolate", source, destination, 0⟩
  | .route source destination => some ⟨"route", source, destination, 0⟩
  | .explicit _ _ => none
  | .defaultDeny source destination .v4 =>
    some ⟨"routing-default-deny-ipv4", source, destination, 4⟩
  | .defaultDeny source destination .v6 =>
    some ⟨"routing-default-deny-ipv6", source, destination, 6⟩

def hashedKinds : List String :=
  ["isolate", "route", "routing-default-deny-ipv4", "routing-default-deny-ipv6"]

def Hashed.On (links : List LinkName) (parts : Hashed) : Prop :=
  parts.source ∈ links ∧ parts.destination ∈ links

theorem hashed_text {name : RuleName} {parts : Hashed} (shape : hashedParts name = some parts) :
    nameText sha lowering name =
      parts.kind.toList ++ ['-'] ++ sha.hexdigest
        (routingIdentity parts.source.text parts.destination.text parts.family) ∧
    parts.kind ∈ hashedKinds ∧ parts.family ∈ [0, 4, 6] := by
  cases name with
  | isolate source destination =>
    obtain rfl := Option.some.inj shape
    exact ⟨List.append_cons _ _ _, by simp [hashedKinds], by simp⟩
  | route source destination =>
    obtain rfl := Option.some.inj shape
    exact ⟨List.append_cons _ _ _, by simp [hashedKinds], by simp⟩
  | explicit id name => cases shape
  | defaultDeny source destination family =>
    cases family <;>
      · obtain rfl := Option.some.inj shape
        exact ⟨List.append_cons _ _ _, by simp [hashedKinds], by simp⟩

theorem hashed_name_ext {left right : RuleName} {first second : Hashed}
    (leftShape : hashedParts left = some first) (rightShape : hashedParts right = some second)
    (kind : first.kind = second.kind) (source : first.source = second.source)
    (destination : first.destination = second.destination) : left = right := by
  rcases left with ⟨s, d⟩ | ⟨s, d⟩ | ⟨id, name⟩ | ⟨s, d, _ | _⟩ <;>
    rcases right with ⟨s', d'⟩ | ⟨s', d'⟩ | ⟨id', name'⟩ | ⟨s', d', _ | _⟩ <;>
    simp only [hashedParts, Option.some.injEq, reduceCtorEq] at leftShape rightShape <;>
    subst leftShape <;> subst rightShape <;> simp_all

theorem kinds_apart : ∀ first ∈ hashedKinds, ∀ second ∈ hashedKinds, first ≠ second →
    (first.toList ++ ['-']).isPrefixOf (second.toList ++ ['-']) = false ∧
      (second.toList ++ ['-']).isPrefixOf (first.toList ++ ['-']) = false := by decide

theorem fronts_apart (apart : first.isPrefixOf second = false ∧ second.isPrefixOf first = false) :
    first ++ left ≠ second ++ right := by
  intro same
  have starts : first <+: second ++ right := ⟨left, same⟩
  rcases List.prefix_or_prefix_of_prefix starts (List.prefix_append second right) with short | long
  · rw [← List.isPrefixOf_iff_prefix, apart.1] at short
    cases short
  · rw [← List.isPrefixOf_iff_prefix, apart.2] at long
    cases long

theorem mem_identities {links : List LinkName} {parts : Hashed} (on : parts.On links)
    (family : parts.family ∈ [0, 4, 6]) :
    routingIdentity parts.source.text parts.destination.text parts.family ∈ identities links :=
  List.mem_flatMap.mpr ⟨parts.source, on.1,
    List.mem_flatMap.mpr ⟨parts.destination, on.2, List.mem_map_of_mem family⟩⟩

theorem hashed_inj {links : List LinkName} (collisionFree : CollisionFree sha links)
    {left right : RuleName} {first second : Hashed} (leftShape : hashedParts left = some first)
    (rightShape : hashedParts right = some second) (firstOn : first.On links)
    (secondOn : second.On links)
    (same : nameText sha lowering left = nameText sha lowering right) : left = right := by
  obtain ⟨leftText, leftKind, leftFamily⟩ := @hashed_text lowering sha _ _ leftShape
  obtain ⟨rightText, rightKind, rightFamily⟩ := @hashed_text lowering sha _ _ rightShape
  rw [leftText, rightText] at same
  by_cases kinds : first.kind = second.kind
  · rw [kinds] at same
    have digests := collisionFree _ (mem_identities firstOn leftFamily) _
      (mem_identities secondOn rightFamily) (List.append_cancel_left same)
    obtain ⟨sources, destinations⟩ := routing_identity_inj digests
    exact hashed_name_ext leftShape rightShape kinds (link_name_ext sources)
      (link_name_ext destinations)
  · exact absurd same (fronts_apart (kinds_apart _ leftKind _ rightKind kinds))

theorem hashed_ending {name : RuleName} {parts : Hashed} (shape : hashedParts name = some parts)
    {ending : List Char} (short : ending.length ≤ 64) (inside : c ∈ ending)
    (foreign : isHex c = false) : left ++ ending ≠ nameText sha lowering name := by
  obtain ⟨text, _, _⟩ := @hashed_text lowering sha _ _ shape
  rw [text]
  set digest := sha.hexdigest
    (routingIdentity parts.source.text parts.destination.text parts.family) with digestIs
  intro same
  have member : c ∈ digest := by
    have ends : ending <:+ parts.kind.toList ++ ['-'] ++ digest := ⟨left, same⟩
    rcases List.suffix_or_suffix_of_suffix ends (List.suffix_append _ digest) with within | around
    · exact within.subset inside
    · have long : ending.length ≤ digest.length := by
        rw [digestIs, sha.size]
        exact short
      rwa [around.eq_of_length_le long]
  rw [sha.hexadecimal _ c member] at foreign
  cases foreign

/-! ### Explicit rules -/

theorem hex_no_dash (hex : isHex c = true) : c ≠ '-' := by
  rintro rfl
  exact absurd hex (by decide)

theorem first_dash {more rest : List Char} (plainLeft : ∀ c ∈ left, c ≠ '-')
    (plainRight : ∀ c ∈ right, c ≠ '-') (same : left ++ '-' :: more = right ++ '-' :: rest) :
    left = right ∧ more = rest := by
  induction left generalizing right with
  | nil =>
    cases right with
    | nil => exact ⟨rfl, List.tail_eq_of_cons_eq same⟩
    | cons c right =>
      exact absurd (List.head_eq_of_cons_eq same).symm (plainRight c List.mem_cons_self)
  | cons c left induction =>
    cases right with
    | nil => exact absurd (List.head_eq_of_cons_eq same) (plainLeft c List.mem_cons_self)
    | cons d right =>
      obtain ⟨texts, rests⟩ := induction
        (fun e inside => plainLeft e (List.mem_cons_of_mem _ inside))
        (fun e inside => plainRight e (List.mem_cons_of_mem _ inside))
        (List.tail_eq_of_cons_eq same)
      exact ⟨by rw [List.head_eq_of_cons_eq same, texts], rests⟩

theorem identity_shape (id : Option Int) (name : String) : ∃ sign body,
    ruleIdentity sha id name = sign ++ body ∧ (sign = [] ∨ sign = ['-']) ∧ body ≠ [] ∧
      ∀ c ∈ body, isHex c = true := by
  have digits : ∀ value, ∀ c ∈ Nat.toDigits 10 value, isHex c = true := fun value c inside =>
    digit_hex (Nat.isDigit_of_mem_toDigits (by decide) (by decide) inside)
  match id with
  | none =>
    refine ⟨[], (sha.hexdigest name.toList).take 12, rfl, .inl rfl, ?_, ?_⟩
    · apply List.ne_nil_of_length_pos
      rw [List.length_take, sha.size]
      decide
    · exact fun c inside => sha.hexadecimal _ c (List.mem_of_mem_take inside)
  | some (.ofNat value) =>
    exact ⟨[], Nat.toDigits 10 value, Nat.toList_repr, .inl rfl, Nat.toDigits_ne_nil,
      digits value⟩
  | some (.negSucc value) =>
    refine ⟨['-'], Nat.toDigits 10 (value + 1), ?_, .inr rfl, Nat.toDigits_ne_nil, digits _⟩
    change ("-" ++ Nat.repr (value + 1)).toList = _
    rw [String.toList_append, Nat.toList_repr]
    rfl

theorem signed_inj {sign sign' body body' more rest : List Char} (signed : sign = [] ∨ sign = ['-'])
    (signed' : sign' = [] ∨ sign' = ['-']) (filled : body ≠ []) (filled' : body' ≠ [])
    (plain : ∀ c ∈ body, c ≠ '-') (plain' : ∀ c ∈ body', c ≠ '-')
    (same : sign ++ body ++ '-' :: more = sign' ++ body' ++ '-' :: rest) :
    sign ++ body = sign' ++ body' ∧ more = rest := by
  obtain ⟨c, body, rfl⟩ := List.exists_cons_of_ne_nil filled
  obtain ⟨d, body', rfl⟩ := List.exists_cons_of_ne_nil filled'
  rcases signed with rfl | rfl <;> rcases signed' with rfl | rfl
  · exact first_dash plain plain' same
  · exact absurd (List.head_eq_of_cons_eq same) (plain c List.mem_cons_self)
  · exact absurd (List.head_eq_of_cons_eq same).symm (plain' d List.mem_cons_self)
  · obtain ⟨bodies, rests⟩ := first_dash plain plain' (List.tail_eq_of_cons_eq same)
    exact ⟨by rw [bodies], rests⟩

theorem explicit_name_inj {id id' : Option Int} {name name' : String}
    (same : explicitName sha lowering id name = explicitName sha lowering id' name') :
    ruleIdentity sha id name = ruleIdentity sha id' name' ∧
      (slug lowering name.toList).take 90 = (slug lowering name'.toList).take 90 := by
  obtain ⟨sign, body, shape, signed, filled, hex⟩ := @identity_shape sha id name
  obtain ⟨sign', body', shape', signed', filled', hex'⟩ := @identity_shape sha id' name'
  have rest := List.append_cancel_left same
  rw [shape, shape'] at rest ⊢
  exact signed_inj signed signed' filled filled' (fun c inside => hex_no_dash (hex c inside))
    (fun c inside => hex_no_dash (hex' c inside)) rest

theorem explicit_hashed_apart {name : RuleName} {parts : Hashed}
    (shape : hashedParts name = some parts) (id : Option Int) (text : String) :
    explicitName sha lowering id text ≠ nameText sha lowering name := by
  obtain ⟨whole, kind, _⟩ := @hashed_text lowering sha _ _ shape
  rw [whole]
  set digest := sha.hexdigest
    (routingIdentity parts.source.text parts.destination.text parts.family)
  have denied : ∀ more, explicitName sha lowering id text ≠
      "routing-".toList ++ ("default".toList ++ '-' :: more) := by
    intro more same
    obtain ⟨sign, body, identity, signed, filled, hex⟩ := @identity_shape sha id text
    have rest := List.append_cancel_left same
    rw [identity] at rest
    rcases signed with rfl | rfl
    · obtain ⟨bodyIs, _⟩ := first_dash (fun c inside => hex_no_dash (hex c inside))
        (List.all_iff_forall_prop.mp (by decide)) rest
      have strange : 'u' ∈ body := by
        rw [bodyIs]
        decide
      exact absurd (hex 'u' strange) (by decide)
    · exact absurd (List.head_eq_of_cons_eq rest) (by decide)
  simp only [hashedKinds, List.mem_cons, List.not_mem_nil, or_false] at kind
  rcases kind with same | same | same | same
  · rw [same]
    exact fronts_apart (by decide)
  · rw [same]
    exact fronts_apart (by decide)
  · rw [same]
    exact denied ("deny-ipv4-".toList ++ digest)
  · rw [same]
    exact denied ("deny-ipv6-".toList ++ digest)

end Names

/-! ### The names of routing rules -/

section Routing

variable {targets : List Target}

def takesEffect (targets : List Target) (rule : RoutingRule) : Bool :=
  rule.enabled &&
    match rule.permission, rule.family with
    | some policy, some family =>
      policy ≠ .automatic &&
        match targetNamed targets rule.sourceInterface,
          targetNamed targets rule.destinationInterface with
        | some source, some destination => permitsRouting source && permitsRouting destination &&
            !(commonOf family source destination).isEmpty
        | _, _ => false
    | _, _ => false

theorem takes_effect_iff {rule : RoutingRule} : takesEffect targets rule = true ↔
    ∃ policy family source destination, policy ≠ .automatic ∧
      Between targets rule policy family source destination := by
  rw [takesEffect, Bool.and_eq_true]
  constructor
  · rintro ⟨enabled, rest⟩
    split at rest
    · next policy family readPolicy readFamily =>
        obtain ⟨chosen, rest⟩ := Bool.and_eq_true_iff.mp rest
        split at rest
        · next source destination foundSource foundDestination =>
            obtain ⟨routed, common⟩ := Bool.and_eq_true_iff.mp rest
            exact ⟨policy, family, source, destination, of_decide_eq_true chosen, enabled,
              readPolicy, readFamily, foundSource, foundDestination,
              Bool.and_eq_true_iff.mp routed, by simpa using common⟩
        · cases rest
    · cases rest
  · rintro ⟨policy, family, source, destination, chosen, between⟩
    refine ⟨between.enabled, ?_⟩
    rw [between.readPolicy, between.readFamily]
    dsimp only
    rw [between.foundSource, between.foundDestination]
    dsimp only
    rw [between.routed.1, between.routed.2, between.common, decide_eq_true chosen]
    rfl

theorem adds_names {rule : RoutingRule} {rules : List FirewallRule}
    {allowed : List (LinkName × LinkName × Family)} (adds : Adds targets rule rules allowed) :
    rules.map FirewallRule.name =
      if takesEffect targets rule = true then [RuleName.explicit rule.id rule.name] else [] := by
  cases adds with
  | nothing idle =>
    rw [if_neg]
    · rfl
    · intro effective
      obtain ⟨policy, family, source, destination, chosen, between⟩ := takes_effect_iff.mp effective
      exact idle policy family source destination chosen between
  | allow between =>
    rw [if_pos (takes_effect_iff.mpr ⟨_, _, _, _, by decide, between⟩)]
    rfl
  | deny between =>
    rw [if_pos (takes_effect_iff.mpr ⟨_, _, _, _, by decide, between⟩)]
    rfl

theorem fold_names {routingRules : List RoutingRule} {start after : Permissions}
    (run : routingRules.foldlM (applyRoutingRule targets) start = .ok after) :
    after.rules.map FirewallRule.name = start.rules.map FirewallRule.name ++
      (routingRules.filter (takesEffect targets)).map fun rule =>
        RuleName.explicit rule.id rule.name := by
  induction routingRules generalizing start with
  | nil =>
    obtain rfl := Except.ok.inj run
    exact (List.append_nil _).symm
  | cons rule routingRules induction =>
    rw [List.foldlM_cons] at run
    obtain ⟨middle, applied, run⟩ := Library.Outcomes.bind_ok_iff.mp run
    obtain ⟨rules, allowed, adds, grown, _⟩ := apply_routing_rule_ok applied
    rw [induction run, grown, List.map_append, adds_names adds, List.append_assoc,
      List.filter_cons]
    split <;> rfl

theorem target_names_sublist (interfaces : List PhysicalInterface) (vlans : List VlanInterface) :
    ((routingFirewallTargets interfaces vlans).map Target.name).Sublist
      (linkNames interfaces vlans) := by
  have physical : ((interfaces.filterMap physicalTarget).map Target.name).Sublist
      (interfaces.map PhysicalInterface.name) := by
    induction interfaces with
    | nil => exact List.Sublist.refl _
    | cons interface interfaces induction =>
      rw [List.filterMap_cons, List.map_cons]
      split
      · exact induction.cons _
      · next target made =>
          have same : target.name = interface.name := by
            simp only [physicalTarget] at made
            split_ifs at made
            exact congrArg Target.name (Option.some.inj made).symm
          rw [List.map_cons, same]
          exact induction.cons_cons _
  have virtual : ((vlans.filterMap vlanTarget).map Target.name).Sublist
      (vlans.map VlanInterface.name) := by
    induction vlans with
    | nil => exact List.Sublist.refl _
    | cons vlan vlans induction =>
      rw [List.filterMap_cons, List.map_cons]
      split
      · exact induction.cons _
      · next target made =>
          have same : target.name = vlan.name := by
            simp only [vlanTarget] at made
            split_ifs at made
            exact congrArg Target.name (Option.some.inj made).symm
          rw [List.map_cons, same]
          exact induction.cons_cons _
  rw [routingFirewallTargets, List.map_append]
  exact physical.append virtual

def isolates : RuleName → Option (LinkName × LinkName)
  | .isolate source destination => some (source, destination)
  | _ => none

def routes : RuleName → Option (LinkName × LinkName)
  | .route source destination => some (source, destination)
  | _ => none

def denies : RuleName → Option (LinkName × LinkName × Family)
  | .defaultDeny source destination family => some (source, destination, family)
  | _ => none

section Named

variable (named : Named targets)

include named

theorem filtered_names (chosen : Target → Bool) :
    ((targets.filter chosen).map fun target => some target.name).Nodup := by
  have names : ((targets.filter chosen).map Target.name).Nodup :=
    named.sublist (List.filter_sublist.map _)
  have whole := names.map (Option.some_injective LinkName)
  rwa [List.map_map] at whole

theorem automatic_names_nodup : ((automaticRules targets).map FirewallRule.name).Nodup := by
  rw [automaticRules, List.map_flatMap]
  apply nodup_flat_map (fun source : Target => some source.name)
    (fun name => (routes name).map Prod.fst) (filtered_names named _)
  · intro source _
    rw [List.map_flatMap]
    apply nodup_flat_map (fun destination : Target => some destination.name)
      (fun name => (routes name).map Prod.snd) (filtered_names named _)
    · intro destination _
      split
      · exact List.nodup_nil
      · exact List.nodup_singleton _
    · intro destination _ name inside
      split at inside
      · cases inside
      · rw [List.mem_singleton.mp inside]
        rfl
  · intro source _ name inside
    rw [List.map_flatMap] at inside
    obtain ⟨destination, _, member⟩ := List.mem_flatMap.mp inside
    split at member
    · cases member
    · rw [List.mem_singleton.mp member]
      rfl

theorem default_deny_names_nodup (allowed : List (LinkName × LinkName × Family)) :
    ((defaultDenies targets allowed).map FirewallRule.name).Nodup := by
  have one : ∀ source destination family name,
      name ∈ (defaultDeny allowed source destination family).map FirewallRule.name →
        name = .defaultDeny source.name destination.name family := by
    intro source destination family name inside
    rw [defaultDeny] at inside
    split at inside
    · cases inside
    · exact List.mem_singleton.mp inside
  rw [defaultDenies, List.map_flatMap]
  apply nodup_flat_map (fun source : Target => some source.name) (fun name => (denies name).map Prod.fst)
    (filtered_names named _)
  · intro source _
    rw [List.map_flatMap]
    apply nodup_flat_map (fun destination : Target => some destination.name)
      (fun name => (denies name).map fun denied => denied.2.1) (filtered_names named _)
    · intro destination _
      split
      · exact List.nodup_nil
      · rw [List.map_flatMap]
        apply nodup_flat_map (fun family : Family => some family)
          (fun name => (denies name).map fun denied => denied.2.2) (by decide)
        · intro family _
          rw [defaultDeny]
          split
          · exact List.nodup_nil
          · exact List.nodup_singleton _
        · intro family _ name inside
          rw [one _ _ _ _ inside]
          rfl
    · intro destination _ name inside
      split at inside
      · cases inside
      · rw [List.map_flatMap] at inside
        obtain ⟨family, _, member⟩ := List.mem_flatMap.mp inside
        rw [one _ _ _ _ member]
        rfl
  · intro source _ name inside
    rw [List.map_flatMap] at inside
    obtain ⟨destination, _, member⟩ := List.mem_flatMap.mp inside
    split at member
    · cases member
    · rw [List.map_flatMap] at member
      obtain ⟨family, _, given⟩ := List.mem_flatMap.mp member
      rw [one _ _ _ _ given]
      rfl

def isManagement (targets : List Target) (name : LinkName) : Bool :=
  targets.any fun target => target.name = name && target.role = .management

theorem is_management {target : Target} (inside : target ∈ targets) :
    isManagement targets target.name = true ↔ target.role = .management := by
  rw [isManagement, List.any_eq_true]
  constructor
  · rintro ⟨other, member, same⟩
    obtain ⟨name, role⟩ := Bool.and_eq_true_iff.mp same
    rw [← named_eq named member inside (of_decide_eq_true name)]
    exact of_decide_eq_true role
  · intro role
    exact ⟨target, inside, by rw [decide_eq_true role, decide_eq_true rfl]; rfl⟩

theorem isolation_names_nodup : ((isolationRules targets).map FirewallRule.name).Nodup := by
  have sides : ∀ lab ∈ targets.filter (fun target => target.role ≠ .management),
      isManagement targets lab.name = false := by
    intro lab inside
    obtain ⟨member, role⟩ := List.mem_filter.mp inside
    rw [Bool.eq_false_iff, Ne, is_management named member]
    exact of_decide_eq_true role
  have managed : ∀ management ∈ targets.filter (fun target => target.role = .management),
      isManagement targets management.name = true := by
    intro management inside
    obtain ⟨member, role⟩ := List.mem_filter.mp inside
    exact (is_management named member).mpr (of_decide_eq_true role)
  have pair : ∀ lab management name, name ∈ (if (commonRoutingNetworks lab.networks
      management.networks).isEmpty = true then []
        else [isolationRule lab management, isolationRule management lab]).map FirewallRule.name →
      name = .isolate lab.name management.name ∨ name = .isolate management.name lab.name := by
    intro lab management name inside
    split at inside
    · cases inside
    · simpa [isolationRule, routingFirewallRule] using inside
  rw [isolationRules, List.map_flatMap]
  apply nodup_flat_map (fun lab : Target => some lab.name)
    (fun name => (isolates name).map fun sides =>
      if isManagement targets sides.1 = true then sides.2 else sides.1) (filtered_names named _)
  · intro lab labInside
    rw [List.map_flatMap]
    apply nodup_flat_map (fun management : Target => some management.name)
      (fun name => (isolates name).map fun sides =>
        if isManagement targets sides.1 = true then sides.1 else sides.2) (filtered_names named _)
    · intro management inside
      split
      · exact List.nodup_nil
      · have apart : lab.name ≠ management.name := by
          intro same
          have first := sides lab labInside
          rw [same, managed management inside] at first
          cases first
        refine List.nodup_cons.mpr ⟨?_, List.nodup_singleton _⟩
        intro member
        exact apart (RuleName.isolate.inj (List.mem_singleton.mp member)).1
    · intro management inside name member
      rcases pair _ _ _ member with rfl | rfl
      · simp only [isolates, Option.map_some]
        rw [sides lab labInside, if_neg Bool.false_ne_true]
      · simp only [isolates, Option.map_some]
        rw [managed management inside, if_pos rfl]
  · intro lab labInside name member
    rw [List.map_flatMap] at member
    obtain ⟨management, inside, given⟩ := List.mem_flatMap.mp member
    rcases pair _ _ _ given with rfl | rfl
    · simp only [isolates, Option.map_some]
      rw [sides lab labInside, if_neg Bool.false_ne_true]
    · simp only [isolates, Option.map_some]
      rw [managed management inside, if_pos rfl]

end Named

def effectiveRules (targets : List Target) (routingRules : List RoutingRule)
    (routingEnabled : Bool) : List RoutingRule :=
  if routingEnabled = false then [] else routingRules.filter (takesEffect targets)

theorem isolation_hashed : ∀ name ∈ (isolationRules targets).map FirewallRule.name,
    ∃ source ∈ targets, ∃ destination ∈ targets, name = .isolate source.name destination.name := by
  intro name inside
  obtain ⟨rule, member, rfl⟩ := List.mem_map.mp inside
  obtain ⟨lab, labInside, _, management, belongs, _, _, rfl | rfl⟩ := mem_isolation_rules.mp member
  · exact ⟨lab, labInside, management, belongs, rfl⟩
  · exact ⟨management, belongs, lab, labInside, rfl⟩

theorem automatic_hashed : ∀ name ∈ (automaticRules targets).map FirewallRule.name,
    ∃ source ∈ targets, ∃ destination ∈ targets, name = .route source.name destination.name := by
  intro name inside
  obtain ⟨rule, member, rfl⟩ := List.mem_map.mp inside
  obtain ⟨source, first, _, destination, second, _, _, _, rfl⟩ := mem_automatic_rules.mp member
  exact ⟨source, first, destination, second, rfl⟩

theorem default_deny_hashed {allowed : List (LinkName × LinkName × Family)} :
    ∀ name ∈ (defaultDenies targets allowed).map FirewallRule.name,
      ∃ source ∈ targets, ∃ destination ∈ targets, ∃ family,
        name = .defaultDeny source.name destination.name family := by
  intro name inside
  obtain ⟨rule, member, rfl⟩ := List.mem_map.mp inside
  obtain ⟨source, first, _, destination, second, _, _, family, _, _, _, rfl⟩ :=
    mem_default_denies.mp member
  exact ⟨source, first, destination, second, family, rfl⟩

theorem routing_names {interfaces : List PhysicalInterface} {vlans : List VlanInterface}
    {routingRules : List RoutingRule} {routingEnabled : Bool} {rules : List FirewallRule}
    (known : routingFirewallTargets interfaces vlans = targets) (named : Named targets)
    (produced : managedRoutingFirewallRules interfaces vlans routingRules routingEnabled =
      .ok rules) :
    ∃ hashed : List RuleName, hashed.Nodup ∧
      (∀ name ∈ hashed, ∃ parts, hashedParts name = some parts ∧
        parts.On (targets.map Target.name)) ∧
      (rules.map FirewallRule.name).Perm (hashed ++
        (effectiveRules targets routingRules routingEnabled).map fun rule =>
          RuleName.explicit rule.id rule.name) := by
  have on : ∀ source ∈ targets, ∀ destination ∈ targets, ∀ kind family,
      Hashed.On (targets.map Target.name) ⟨kind, source.name, destination.name, family⟩ :=
    fun source first destination second _ _ =>
      ⟨List.mem_map_of_mem first, List.mem_map_of_mem second⟩
  have isolated : ∀ name ∈ (isolationRules targets).map FirewallRule.name,
      ∃ parts, hashedParts name = some parts ∧ parts.On (targets.map Target.name) := by
    intro name inside
    obtain ⟨source, first, destination, second, rfl⟩ := isolation_hashed name inside
    exact ⟨_, rfl, on source first destination second _ _⟩
  rw [managedRoutingFirewallRules, known] at produced
  rw [effectiveRules]
  by_cases disabled : routingEnabled = false
  · rw [if_pos disabled] at produced ⊢
    obtain rfl := Except.ok.inj produced
    refine ⟨_, isolation_names_nodup named, isolated, ?_⟩
    rw [List.map_nil, List.append_nil]
  · rw [if_neg disabled] at produced ⊢
    obtain ⟨permissions, run, produced⟩ := Library.Outcomes.bind_ok_iff.mp produced
    obtain rfl := Except.ok.inj produced
    refine ⟨(isolationRules targets).map FirewallRule.name ++
      (automaticRules targets).map FirewallRule.name ++
      (defaultDenies targets permissions.allowed).map FirewallRule.name, ?_, ?_, ?_⟩
    · rw [List.nodup_append, List.nodup_append]
      refine ⟨⟨isolation_names_nodup named, automatic_names_nodup named, ?_⟩,
        default_deny_names_nodup named _, ?_⟩
      · rintro name first _ second rfl
        obtain ⟨_, _, _, _, rfl⟩ := isolation_hashed name first
        obtain ⟨_, _, _, _, same⟩ := automatic_hashed _ second
        cases same
      · rintro name first _ second rfl
        obtain ⟨_, _, _, _, _, rfl⟩ := default_deny_hashed name second
        rcases List.mem_append.mp first with isolation | automatic
        · obtain ⟨_, _, _, _, same⟩ := isolation_hashed _ isolation
          cases same
        · obtain ⟨_, _, _, _, same⟩ := automatic_hashed _ automatic
          cases same
    · intro name inside
      rcases List.mem_append.mp inside with front | denied
      · rcases List.mem_append.mp front with isolation | automatic
        · exact isolated name isolation
        · obtain ⟨source, first, destination, second, rfl⟩ := automatic_hashed name automatic
          exact ⟨_, rfl, on source first destination second _ _⟩
      · obtain ⟨source, first, destination, second, family, rfl⟩ := default_deny_hashed name denied
        cases family <;> exact ⟨_, rfl, on source first destination second _ _⟩
    · rw [List.map_append, fold_names run, List.map_append]
      simp only [List.append_assoc]
      exact (List.perm_append_comm.append_left _).append_left _

end Routing

/-! ### All generated names -/

section All

variable {lowering : Lowering} {sha : Sha256}

theorem map_map_idx {Item Value Read : Type} (items : List Item) (value : Nat → Item → Value)
    (read : Value → Read) (plain : Item → Read)
    (same : ∀ index item, read (value index item) = plain item) :
    (items.mapIdx value).map read = items.map plain := by
  apply List.ext_getElem
  · simp
  · intro index _ _
    simp [same]

theorem dhcp_names (settings : DhcpSettings) (scopes : List DhcpScope) :
    (dhcpFirewallRules lowering settings scopes).map ServiceRule.name =
      ((servedScopes settings scopes).map fun scope =>
        (slug lowering scope.name, dhcpScopeAddressFamily lowering scope)).map
          fun named => named.1 ++ dhcpSuffix named.2 := by
  rw [dhcpFirewallRules, List.map_map]
  exact map_map_idx _ _ _ _ fun _ _ => rfl

theorem dns_names (dns : DnsListeners) : (dnsFirewallRules lowering dns).map ServiceRule.name =
    (dns.interfaces.map (slug lowering)).flatMap fun named =>
      dnsProtocols.map fun protocol => named ++ ("-dns-".toList ++ protocol) := by
  rw [dnsFirewallRules, List.map_flatten, List.flatMap_map, List.flatMap_def]
  apply congrArg
  exact map_map_idx _ _ _ _ fun _ _ => map_map_idx _ _ _ _ fun _ _ => rfl

theorem nodup_dhcp (settings : DhcpSettings) (scopes : List DhcpScope) :
    ((dhcpFirewallRules lowering settings scopes).map ServiceRule.name).Nodup ↔
      ((servedScopes settings scopes).map fun scope =>
        (slug lowering scope.name, dhcpScopeAddressFamily lowering scope)).Nodup := by
  rw [dhcp_names]
  exact List.nodup_map_iff fun _ _ same => dhcp_name_inj same

theorem nodup_dns (dns : DnsListeners) :
    ((dnsFirewallRules lowering dns).map ServiceRule.name).Nodup ↔
      (dns.interfaces.map (slug lowering)).Nodup := by
  rw [dns_names]
  constructor
  · intro distinct
    have chosen := distinct.sublist (@chosen_sublist _ _ _
      (fun named => named ++ ("-dns-".toList ++ "tcp".toList))
      (dns.interfaces.map (slug lowering)) fun named _ => List.mem_cons_self)
    exact List.Nodup.of_map _ chosen
  · intro distinct
    apply nodup_flat_map id (fun name => name.take (name.length - 8))
    · rwa [List.map_id]
    · intro named _
      apply List.Nodup.map_on _ (by decide)
      intro first firstInside second secondInside same
      exact (dns_name_inj firstInside secondInside same).2
    · intro named _ name inside
      obtain ⟨protocol, member, rfl⟩ := List.mem_map.mp inside
      have size : ∀ protocol ∈ dnsProtocols, ("-dns-".toList ++ protocol).length = 8 := by decide
      rw [List.length_append, size protocol member, Nat.add_sub_cancel, List.take_left]
      rfl

/-- What the names of rules for scopes and listeners end with. -/
def serviceSuffixes : List (List Char) :=
  [dhcpSuffix .v4, dhcpSuffix .v6] ++ dnsProtocols.map fun protocol => "-dns-".toList ++ protocol

theorem dhcp_suffix_mem (family : Family) : dhcpSuffix family ∈ serviceSuffixes := by
  cases family <;> decide

theorem dns_suffix_mem {protocol : List Char} (inside : protocol ∈ dnsProtocols) :
    "-dns-".toList ++ protocol ∈ serviceSuffixes :=
  List.mem_append_right _ (List.mem_map_of_mem inside)

/-- The slug of a service begins with the identity of an explicit rule, and the slug of the rule
ends as the names of rules for the service do. -/
def Shadows (sha : Sha256) (lowering : Lowering) (rule : RoutingRule)
    (service suffix : List Char) : Prop :=
  ∃ front, service = "routing-".toList ++ ruleIdentity sha rule.id rule.name ++ front ∧
    '-' :: (slug lowering rule.name.toList).take 90 = front ++ suffix

theorem identity_last (id : Option Int) (name : String) {front back : List Char} {c : Char}
    (same : "routing-".toList ++ ruleIdentity sha id name = front ++ (back ++ [c])) :
    isHex c = true := by
  obtain ⟨sign, body, shape, _, filled, hex⟩ := @identity_shape sha id name
  rw [shape, ← List.dropLast_append_getLast filled, ← List.append_assoc, ← List.append_assoc,
    ← List.append_assoc] at same
  have last := List.append_inj_right' same rfl
  rw [← List.singleton_inj.mp last]
  exact hex _ (List.getLast_mem filled)

theorem explicit_service_iff {rule : RoutingRule} {service suffix : List Char}
    (inside : suffix ∈ serviceSuffixes) :
    explicitName sha lowering rule.id rule.name = service ++ suffix ↔
      Shadows sha lowering rule service suffix := by
  unfold explicitName
  rw [← List.append_assoc]
  constructor
  · intro same
    rcases List.append_eq_append_iff.mp same with ⟨front, slugs, ends⟩ | ⟨middle, starts, ends⟩
    · exact ⟨front, slugs, ends⟩
    · rcases List.eq_nil_or_concat' middle with rfl | ⟨back, c, rfl⟩
      · rw [List.append_nil] at starts
        exact ⟨[], by rw [List.append_nil, starts], ends.symm⟩
      · -- The dash before the slug of the rule cannot be the second one of the suffix.
        have hex := identity_last rule.id rule.name starts
        have checked : ∀ suffix ∈ serviceSuffixes, ∀ place < suffix.length,
            suffix[place + 1]? = some '-' → (suffix[place]?.all fun c => !isHex c) = true := by
          decide
        have size : suffix.length = back.length + 1 + ((slug lowering rule.name.toList).take 90).length
            + 1 := by
          rw [ends]
          simp
          omega
        have found := checked suffix inside back.length (by omega) (by rw [ends]; simp)
        rw [ends] at found
        simp [hex] at found
  · rintro ⟨front, slugs, ends⟩
    rw [slugs, ends, List.append_assoc _ front]

structure Apart (sha : Sha256) (lowering : Lowering) (settings : DhcpSettings)
    (scopes : List DhcpScope) (dns : DnsListeners) (explicit : List RoutingRule) : Prop where
  zones : ((servedScopes settings scopes).map fun scope =>
    (slug lowering scope.name, dhcpScopeAddressFamily lowering scope)).Nodup
  listeners : (dns.interfaces.map (slug lowering)).Nodup
  permissions : (explicit.map fun rule =>
    (ruleIdentity sha rule.id rule.name, (slug lowering rule.name.toList).take 90)).Nodup
  services : ∀ rule ∈ explicit,
    (∀ scope ∈ servedScopes settings scopes, ¬Shadows sha lowering rule
      (slug lowering scope.name) (dhcpSuffix (dhcpScopeAddressFamily lowering scope))) ∧
    ∀ interface ∈ dns.interfaces, ∀ protocol ∈ dnsProtocols, ¬Shadows sha lowering rule
      (slug lowering interface) ("-dns-".toList ++ protocol)

theorem explicit_name_congr {id id' : Option Int} {name name' : String}
    (identities : ruleIdentity sha id name = ruleIdentity sha id' name')
    (slugs : (slug lowering name.toList).take 90 = (slug lowering name'.toList).take 90) :
    explicitName sha lowering id name = explicitName sha lowering id' name' := by
  unfold explicitName
  rw [identities, slugs]

theorem nodup_explicit (explicit : List RoutingRule) :
    (explicit.map fun rule => explicitName sha lowering rule.id rule.name).Nodup ↔
      (explicit.map fun rule =>
        (ruleIdentity sha rule.id rule.name, (slug lowering rule.name.toList).take 90)).Nodup := by
  rw [List.Nodup, List.Nodup, List.pairwise_map, List.pairwise_map]
  have same : ∀ first second : RoutingRule,
      explicitName sha lowering first.id first.name =
        explicitName sha lowering second.id second.name ↔
      (ruleIdentity sha first.id first.name, (slug lowering first.name.toList).take 90) =
        (ruleIdentity sha second.id second.name, (slug lowering second.name.toList).take 90) := by
    intro first second
    constructor
    · intro equal
      exact Prod.ext (explicit_name_inj equal).1 (explicit_name_inj equal).2
    · intro equal
      rw [Prod.mk.injEq] at equal
      exact explicit_name_congr equal.1 equal.2
  simp only [Ne, same]

variable {settings : DhcpSettings} {scopes : List DhcpScope} {dns : DnsListeners}

theorem service_hashed_apart {name : List Char} (inside : name ∈ (dhcpFirewallRules lowering
      settings scopes).map ServiceRule.name ++ (dnsFirewallRules lowering dns).map ServiceRule.name)
    {other : RuleName} {parts : Hashed} (shape : hashedParts other = some parts) :
    name ≠ nameText sha lowering other := by
  rw [dhcp_names, dns_names] at inside
  rcases List.mem_append.mp inside with dhcp | listener
  · obtain ⟨⟨named, family⟩, _, rfl⟩ := List.mem_map.mp dhcp
    have checked : (dhcpSuffix family).length ≤ 64 ∧ '-' ∈ dhcpSuffix family := by
      cases family <;> decide
    exact hashed_ending shape checked.1 checked.2 (by decide)
  · obtain ⟨named, _, member⟩ := List.mem_flatMap.mp listener
    obtain ⟨protocol, listed, rfl⟩ := List.mem_map.mp member
    have checked : ∀ protocol ∈ dnsProtocols, ("-dns-".toList ++ protocol).length ≤ 64 ∧
        '-' ∈ "-dns-".toList ++ protocol := by decide
    exact hashed_ending shape (checked protocol listed).1 (checked protocol listed).2 (by decide)

theorem dhcp_dns_names_apart :
    ∀ name ∈ (dhcpFirewallRules lowering settings scopes).map ServiceRule.name,
      ∀ other ∈ (dnsFirewallRules lowering dns).map ServiceRule.name, name ≠ other := by
  intro name first other second
  rw [dhcp_names] at first
  rw [dns_names] at second
  obtain ⟨⟨named, family⟩, _, rfl⟩ := List.mem_map.mp first
  obtain ⟨listener, _, member⟩ := List.mem_flatMap.mp second
  obtain ⟨protocol, listed, rfl⟩ := List.mem_map.mp member
  exact dhcp_dns_apart family listed

theorem service_explicit_apart {explicit : List RoutingRule} :
    (∀ name ∈ (dhcpFirewallRules lowering settings scopes).map ServiceRule.name ++
        (dnsFirewallRules lowering dns).map ServiceRule.name,
      ∀ other ∈ explicit.map fun rule => explicitName sha lowering rule.id rule.name,
        name ≠ other) ↔
    ∀ rule ∈ explicit,
      (∀ scope ∈ servedScopes settings scopes, ¬Shadows sha lowering rule
        (slug lowering scope.name) (dhcpSuffix (dhcpScopeAddressFamily lowering scope))) ∧
      ∀ interface ∈ dns.interfaces, ∀ protocol ∈ dnsProtocols, ¬Shadows sha lowering rule
        (slug lowering interface) ("-dns-".toList ++ protocol) := by
  rw [dhcp_names, dns_names]
  constructor
  · intro apart rule inside
    refine ⟨fun scope served shadows => ?_, fun interface listens protocol listed shadows => ?_⟩
    · exact apart _ (List.mem_append_left _ (List.mem_map_of_mem (List.mem_map_of_mem served))) _
        (List.mem_map_of_mem inside) ((explicit_service_iff (dhcp_suffix_mem _)).mpr shadows).symm
    · exact apart _ (List.mem_append_right _ (List.mem_flatMap.mpr
        ⟨_, List.mem_map_of_mem listens, List.mem_map_of_mem listed⟩)) _
        (List.mem_map_of_mem inside) ((explicit_service_iff (dns_suffix_mem listed)).mpr shadows).symm
  · rintro apart name inside _ member rfl
    obtain ⟨rule, listed, same⟩ := List.mem_map.mp member
    rcases List.mem_append.mp inside with dhcp | listener
    · obtain ⟨_, named, shape⟩ := List.mem_map.mp dhcp
      obtain ⟨scope, served, rfl⟩ := List.mem_map.mp named
      exact (apart rule listed).1 scope served
        ((explicit_service_iff (dhcp_suffix_mem _)).mp (same.trans shape.symm))
    · obtain ⟨_, named, member⟩ := List.mem_flatMap.mp listener
      obtain ⟨interface, listens, rfl⟩ := List.mem_map.mp named
      obtain ⟨protocol, known, shape⟩ := List.mem_map.mp member
      exact (apart rule listed).2 interface listens protocol known
        ((explicit_service_iff (dns_suffix_mem known)).mp (same.trans shape.symm))

/-! ### The check of the state -/

theorem dns_protocol_plain {protocol : List Char} (inside : protocol ∈ dnsProtocols) :
    Plain ("-dns-".toList ++ protocol) := by
  have checked : ∀ protocol ∈ dnsProtocols, ("-dns-".toList ++ protocol).all isNameChar = true := by
    decide
  exact List.all_eq_true.mp (checked protocol inside)

theorem dhcp_suffix_plain (family : Family) : Plain (dhcpSuffix family) := by
  cases family <;> exact List.all_eq_true.mp (by decide)

theorem hashed_plain {name : RuleName} {parts : Hashed} (shape : hashedParts name = some parts) :
    Plain (nameText sha lowering name) := by
  obtain ⟨text, kind, _⟩ := @hashed_text lowering sha _ _ shape
  have kinds : ∀ kind ∈ hashedKinds, (kind.toList ++ ['-']).all isNameChar = true := by decide
  rw [text]
  exact plain_append (List.all_eq_true.mp (kinds _ kind)) fun c inside => hex_name_char (sha.hexadecimal _ c inside)

theorem explicit_plain (id : Option Int) (name : String) : Plain (explicitName sha lowering id name) := by
  obtain ⟨sign, body, shape, signed, _, hex⟩ := @identity_shape sha id name
  have signPlain : Plain sign := by
    rcases signed with rfl | rfl <;> exact List.all_eq_true.mp (by decide)
  unfold explicitName
  rw [shape]
  refine plain_append (List.all_eq_true.mp (by decide)) (plain_append (plain_append signPlain
    fun c inside => hex_name_char (hex c inside)) (plain_cons (by decide) ?_))
  exact fun c inside => slug_plain _ c (List.mem_of_mem_take inside)

theorem name_text_plain (name : RuleName) : Plain (nameText sha lowering name) := by
  cases shape : hashedParts name with
  | some parts => exact hashed_plain shape
  | none =>
    rcases name with _ | _ | ⟨id, text⟩ | ⟨_, _, _ | _⟩
    · cases shape
    · cases shape
    · exact explicit_plain id text
    · cases shape
    · cases shape

theorem generated_plain (settings : DhcpSettings) (scopes : List DhcpScope) (dns : DnsListeners)
    (rules : List FirewallRule) :
    ∀ name ∈ generatedNames sha lowering settings scopes dns rules, Plain name := by
  intro name inside
  rw [generatedNames, dhcp_names, dns_names] at inside
  rcases List.mem_append.mp inside with service | routing
  · rcases List.mem_append.mp service with dhcp | listener
    · obtain ⟨⟨_, family⟩, named, rfl⟩ := List.mem_map.mp dhcp
      obtain ⟨scope, _, same⟩ := List.mem_map.mp named
      obtain ⟨rfl, rfl⟩ := Prod.mk.inj same
      exact plain_append (slug_plain _) (dhcp_suffix_plain _)
    · obtain ⟨_, named, member⟩ := List.mem_flatMap.mp listener
      obtain ⟨interface, _, rfl⟩ := List.mem_map.mp named
      obtain ⟨protocol, listed, rfl⟩ := List.mem_map.mp member
      exact plain_append (slug_plain _) (dns_protocol_plain listed)
  · obtain ⟨rule, _, rfl⟩ := List.mem_map.mp routing
    exact name_text_plain rule.name

theorem duplicate_errors_nil (names seen : List (List Char)) :
    duplicateErrors lowering seen names = [] ↔ (names.map (normalizedName lowering)).Nodup ∧
      ∀ name ∈ names, normalizedName lowering name ∉ seen := by
  induction names generalizing seen with
  | nil => simp [duplicateErrors]
  | cons name names induction =>
    rw [duplicateErrors, List.append_eq_nil_iff, induction, List.map_cons, List.nodup_cons]
    have first : (if normalizedName lowering name ∈ seen then
        ["Firewall rule ".toList ++ name ++ " is duplicated.".toList] else []) = [] ↔
          normalizedName lowering name ∉ seen := by
      split
      · next found => exact iff_of_false (List.cons_ne_nil _ _) (not_not.mpr found)
      · next fresh => exact iff_of_true rfl fresh
    rw [first]
    constructor
    · rintro ⟨fresh, distinct, rest⟩
      refine ⟨⟨fun repeated => ?_, distinct⟩, fun other inside => ?_⟩
      · obtain ⟨other, inside, same⟩ := List.mem_map.mp repeated
        exact rest other inside (same ▸ List.mem_cons_self)
      · rcases List.mem_cons.mp inside with rfl | later
        · exact fresh
        · exact fun found => rest other later (List.mem_cons_of_mem _ found)
    · rintro ⟨⟨fresh, distinct⟩, unseen⟩
      refine ⟨unseen name List.mem_cons_self, distinct, fun other inside found => ?_⟩
      rcases List.mem_cons.mp found with same | before
      · exact fresh (same ▸ List.mem_map_of_mem inside)
      · exact unseen other (List.mem_cons_of_mem _ inside) before

/-- The generated names differ, and the check of the state finds none of them twice. -/
def NamesDiffer (lowering : Lowering) (names : List (List Char)) : Prop :=
  (names.map (normalizedName lowering)).Nodup ∧ duplicateErrors lowering [] names = []

theorem names_differ_iff {names : List (List Char)} (plain : ∀ name ∈ names, Plain name) :
    NamesDiffer lowering names ↔ names.Nodup := by
  have same : names.map (normalizedName lowering) = names := by
    calc names.map (normalizedName lowering) = names.map id :=
          List.map_congr_left fun name inside => normalized_plain (plain name inside)
      _ = names := List.map_id names
  rw [NamesDiffer, duplicate_errors_nil, same]
  constructor
  · exact fun both => both.1
  · exact fun distinct => ⟨distinct, distinct, fun _ _ => List.not_mem_nil⟩

end All

/-- The names of the generated rules differ exactly when the slugs of the scopes of a family
differ, those of the listeners differ, and each explicit rule has a name of its own. -/
theorem generated_names_differ_iff (lowering : Lowering) (sha : Sha256) (settings : DhcpSettings)
    (scopes : List DhcpScope) (dns : DnsListeners) (interfaces : List PhysicalInterface)
    (vlans : List VlanInterface) (routingRules : List RoutingRule) (routingEnabled : Bool)
    (rules : List FirewallRule) (distinct : (linkNames interfaces vlans).Nodup)
    (collisionFree : CollisionFree sha (linkNames interfaces vlans))
    (produced : managedRoutingFirewallRules interfaces vlans routingRules routingEnabled =
      .ok rules) :
    NamesDiffer lowering (generatedNames sha lowering settings scopes dns rules) ↔
      Apart sha lowering settings scopes dns
        (effectiveRules (routingFirewallTargets interfaces vlans) routingRules routingEnabled) := by
  have sublist := target_names_sublist interfaces vlans
  obtain ⟨hashed, hashedDistinct, shapes, permuted⟩ :=
    routing_names rfl (distinct.sublist sublist) produced
  set explicit := effectiveRules (routingFirewallTargets interfaces vlans) routingRules routingEnabled
  have texts : (rules.map fun rule => nameText sha lowering rule.name).Perm
      (hashed.map (nameText sha lowering) ++
        explicit.map fun rule => explicitName sha lowering rule.id rule.name) := by
    have mapped := permuted.map (nameText sha lowering)
    rw [List.map_map, List.map_append, List.map_map] at mapped
    exact mapped
  have hashedTexts : (hashed.map (nameText sha lowering)).Nodup := by
    apply List.Nodup.map_on _ hashedDistinct
    intro left leftInside right rightInside same
    obtain ⟨first, leftShape, firstOn⟩ := shapes left leftInside
    obtain ⟨second, rightShape, secondOn⟩ := shapes right rightInside
    exact hashed_inj collisionFree leftShape rightShape
      ⟨sublist.subset firstOn.1, sublist.subset firstOn.2⟩
      ⟨sublist.subset secondOn.1, sublist.subset secondOn.2⟩ same
  have hashedExplicit : ∀ name ∈ hashed.map (nameText sha lowering),
      ∀ other ∈ explicit.map fun rule => explicitName sha lowering rule.id rule.name,
        name ≠ other := by
    intro name inside other member
    obtain ⟨given, listed, rfl⟩ := List.mem_map.mp inside
    obtain ⟨rule, _, rfl⟩ := List.mem_map.mp member
    obtain ⟨parts, shape, _⟩ := shapes given listed
    exact (explicit_hashed_apart shape rule.id rule.name).symm
  have routing : (rules.map fun rule => nameText sha lowering rule.name).Nodup ↔
      (explicit.map fun rule =>
        (ruleIdentity sha rule.id rule.name, (slug lowering rule.name.toList).take 90)).Nodup := by
    rw [texts.nodup_iff, List.nodup_append, nodup_explicit]
    exact ⟨fun all => all.2.1, fun permissions => ⟨hashedTexts, permissions, hashedExplicit⟩⟩
  have services : (∀ name ∈ (dhcpFirewallRules lowering settings scopes).map ServiceRule.name ++
        (dnsFirewallRules lowering dns).map ServiceRule.name,
      ∀ other ∈ rules.map fun rule => nameText sha lowering rule.name, name ≠ other) ↔
      ∀ name ∈ (dhcpFirewallRules lowering settings scopes).map ServiceRule.name ++
        (dnsFirewallRules lowering dns).map ServiceRule.name,
      ∀ other ∈ explicit.map fun rule => explicitName sha lowering rule.id rule.name,
        name ≠ other := by
    constructor
    · intro apart name inside other member
      exact apart name inside other (texts.mem_iff.mpr (List.mem_append_right _ member))
    · intro apart name inside other member
      rcases List.mem_append.mp (texts.mem_iff.mp member) with digest | written
      · obtain ⟨given, listed, rfl⟩ := List.mem_map.mp digest
        obtain ⟨parts, shape, _⟩ := shapes given listed
        exact service_hashed_apart inside shape
      · exact apart name inside other written
  rw [names_differ_iff (generated_plain settings scopes dns rules), generatedNames,
    List.nodup_append, List.nodup_append, nodup_dhcp, nodup_dns, routing, services,
    service_explicit_apart]
  constructor
  · rintro ⟨⟨zones, listeners, _⟩, permissions, apart⟩
    exact ⟨zones, listeners, permissions, apart⟩
  · intro apart
    exact ⟨⟨apart.zones, apart.listeners, dhcp_dns_names_apart⟩, apart.permissions, apart.services⟩

/-! An access link and a route, with a rule between them. The digests are those of their pairs. -/

def sampleDigests : List (List Char × List Char) :=
  [ (routingIdentity "eth1" "eth1" 0,
    "31bf6065d29bb45e7f755744f1e84beb286a3a53dfe6f02855846b2c22049e24".toList),
    (routingIdentity "eth1" "eth1" 4,
    "d6a7d86a12c5ddfae5b32142a75a1d5cac19161dfb8de895fccc8350a4ab1669".toList),
    (routingIdentity "eth1" "eth1" 6,
    "7d4e9e6a6a2f255159974cdee6d1140779969f785f947959ce85616aa30c68e1".toList),
    (routingIdentity "eth1" "eth2" 0,
    "aedc0c9f867d70e4a677ab257faa9b4f785c851c34fab138faf05ccdc5081d79".toList),
    (routingIdentity "eth1" "eth2" 4,
    "78855db76cc64c96f3f712e3e2cd281702d9b2235436bc729d2abe91fc5fa163".toList),
    (routingIdentity "eth1" "eth2" 6,
    "2c16e9aa8215ccfbb51f12458ebf3602f7971be068eb443ce9ad94c3cd3328b3".toList),
    (routingIdentity "eth2" "eth1" 0,
    "05c03baee920c544e249525f00b11fdf62d1bfbe77ee6e2cc9ba022e9f68bd19".toList),
    (routingIdentity "eth2" "eth1" 4,
    "e46e68e05710c3fad28a1b1115bb019347dacb110ad9ce9cc3453443701d1cc6".toList),
    (routingIdentity "eth2" "eth1" 6,
    "2c160282e4e98c3c89d77358bdd4a7df8024462b72ee9daa2122dde6633e8d48".toList),
    (routingIdentity "eth2" "eth2" 0,
    "79310c6de570fd739f2944228bd57fd7eda426117ee24cb6ca46fe5d36fff3da".toList),
    (routingIdentity "eth2" "eth2" 4,
    "428cd35d0ca327d4718a9c90c4f79c3a089908f326ae5cac3a7f1c329d12f629".toList),
    (routingIdentity "eth2" "eth2" 6,
    "05f09153df6a99c23eead12e13292914a24647968570990476e357d5b09abf29".toList) ]

def sampleHexdigest (text : List Char) : List Char :=
  (sampleDigests.lookup text).getD (List.replicate 64 '0')

theorem sample_hexdigest_shape (text : List Char) :
    (sampleHexdigest text).length = 64 ∧ ∀ c ∈ sampleHexdigest text, isHex c = true := by
  have checked : ∀ entry ∈ sampleDigests, entry.2.length = 64 ∧ entry.2.all isHex = true := by
    decide +kernel
  unfold sampleHexdigest
  cases found : sampleDigests.lookup text with
  | none => exact ⟨List.length_replicate, fun c inside => by
      rw [Option.getD_none] at inside
      rw [List.eq_of_mem_replicate inside]
      rfl⟩
  | some digest =>
    obtain ⟨_, _, split, _⟩ := List.lookup_eq_some_iff.mp found
    have shape := checked (text, digest) (by rw [split]; simp)
    exact ⟨shape.1, List.all_eq_true.mp shape.2⟩

def sampleSha : Sha256 where
  hexdigest := sampleHexdigest
  size := fun text => (sample_hexdigest_shape text).1
  hexadecimal := fun text => (sample_hexdigest_shape text).2

theorem eth1_plain : "eth1" ≠ "" ∧ "eth1".toList.all (fun c => !isWhitespace c) := by decide

theorem eth2_plain : "eth2" ≠ "" ∧ "eth2".toList.all (fun c => !isWhitespace c) := by decide

def sampleInterfaces : List PhysicalInterface :=
  [⟨⟨"eth1", eth1_plain⟩, "up", some "access", some "access", some "10.0.1.1/24", none⟩,
    ⟨⟨"eth2", eth2_plain⟩, "up", some "access", some "route", some "10.0.2.1/24", none⟩]

def sampleRouting : RoutingRule := ⟨some 5, "Lab to core", true, "eth1", "eth2", none, none, 30⟩

def sampleDhcp : DhcpSettings := ⟨true, "eth1".toList, [], 24, "12h".toList, [], []⟩

def sampleScope (id : Int) (name site range : String) : DhcpScope where
  id := id
  name := name.toList
  addressFamily := "ipv4".toList
  interfaceName := "eth1".toList
  siteAddress := site.toList
  prefixLength := 24
  rangeExpression := range.toList
  leaseTime := "12h".toList
  domainName := "atlaso.internal".toList
  dnsServer := site.toList
  ntpServer := []
  enabled := true

def sampleScopes (second : String) : List DhcpScope :=
  [sampleScope 1 "Lab 1" "10.0.1.1" "10.0.1.100-200",
    sampleScope 2 second "10.0.2.1" "10.0.2.100-200"]

def sampleListeners : DnsListeners := ⟨true, "eth1\neth2".toList⟩

def sampleRules : List FirewallRule :=
  match managedRoutingFirewallRules sampleInterfaces [] [sampleRouting] true with
  | .ok rules => rules
  | .error _ => []

theorem sample_produced :
    managedRoutingFirewallRules sampleInterfaces [] [sampleRouting] true = .ok sampleRules := by
  unfold sampleRules
  cases produced : managedRoutingFirewallRules sampleInterfaces [] [sampleRouting] true with
  | ok rules => rfl
  | error text =>
    have fine : (managedRoutingFirewallRules sampleInterfaces [] [sampleRouting] true).isOk := by
      decide +kernel
    rw [produced] at fine
    cases fine

theorem sample_names_differ :
    NamesDiffer asciiLowering
      (generatedNames sampleSha asciiLowering sampleDhcp (sampleScopes "Lab 2") sampleListeners
        sampleRules) := by
  apply (generated_names_differ_iff asciiLowering sampleSha sampleDhcp (sampleScopes "Lab 2")
    sampleListeners sampleInterfaces [] [sampleRouting] true sampleRules (by decide)
    (by unfold CollisionFree; decide +kernel) sample_produced).mpr
  refine ⟨by decide +kernel, by decide +kernel, by decide +kernel, fun rule inside => ⟨?_, ?_⟩⟩
  · intro scope served shadows
    have checked : ∀ rule ∈ [sampleRouting], ∀ scope ∈ servedScopes sampleDhcp (sampleScopes "Lab 2"),
        explicitName sampleSha asciiLowering rule.id rule.name ≠
          dhcpRuleName asciiLowering scope := by decide +kernel
    exact checked rule (List.mem_filter.mp inside).1 scope served
      ((explicit_service_iff (dhcp_suffix_mem _)).mpr shadows)
  · intro interface listens protocol listed shadows
    have checked : ∀ rule ∈ [sampleRouting], ∀ interface ∈ sampleListeners.interfaces,
        ∀ protocol ∈ dnsProtocols, explicitName sampleSha asciiLowering rule.id rule.name ≠
          dnsRuleName asciiLowering interface protocol := by decide +kernel
    exact checked rule (List.mem_filter.mp inside).1 interface listens protocol listed
      ((explicit_service_iff (dns_suffix_mem listed)).mpr shadows)

/-- Two enabled scopes with different names are given one rule name, and the state that the rules
are part of is refused. -/
theorem shared_slug_exception :
    (∀ scope ∈ sampleScopes "lab-1", scope.enabled = true) ∧
    ((sampleScopes "lab-1").map DhcpScope.name).Nodup ∧ sampleListeners.interfaces.Nodup ∧
    (linkNames sampleInterfaces []).Nodup ∧
    managedRoutingFirewallRules sampleInterfaces [] [sampleRouting] true = .ok sampleRules ∧
    "Firewall rule lab-1-dns-dhcp is duplicated.".toList ∈ duplicateErrors asciiLowering []
      (generatedNames sampleSha asciiLowering sampleDhcp (sampleScopes "lab-1") sampleListeners
        sampleRules) ∧
    ¬NamesDiffer asciiLowering
      (generatedNames sampleSha asciiLowering sampleDhcp (sampleScopes "lab-1") sampleListeners
        sampleRules) := by
  have found : "Firewall rule lab-1-dns-dhcp is duplicated.".toList ∈
      duplicateErrors asciiLowering [] (generatedNames sampleSha asciiLowering sampleDhcp
        (sampleScopes "lab-1") sampleListeners sampleRules) := by
    decide +kernel
  refine ⟨by decide, by decide, by decide +kernel, by decide, sample_produced, found, ?_⟩
  intro differ
  rw [differ.2] at found
  exact List.not_mem_nil found

end Atlaso.Firewall.NameCollisions
