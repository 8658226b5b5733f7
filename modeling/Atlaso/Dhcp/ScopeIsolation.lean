import Atlaso.Dhcp.ScopeOptions

/-!
Which clients an option of a DHCP scope is offered to.

An option is offered to clients that have the tags that it requires. The tag of a scope is made
from its name and is not always different from the tag of another scope, or from a tag that
network boot or a reservation sets.
-/

namespace Atlaso.Dhcp.ScopeIsolation

open Library Dictionary IpAddress IpNetwork ItemLists TextFields
open ScopeOptions

local instance lawfulChars : LawfulBEq (List Char) := inferInstance

/-! ### Tags of directives -/

def isOffer : Directive → Bool
  | .option _ _ => true
  | .boot _ _ => true
  | _ => false

def isRange : Directive → Bool
  | .range _ _ => true
  | _ => false

def Condition.required : Condition → Option (List Char)
  | .tag name => some name
  | .notTag _ => none

/-- The tags that a client must have. -/
def requires : Directive → List (List Char)
  | .option conditions _ => conditions.filterMap Condition.required
  | .boot conditions _ => conditions.filterMap Condition.required
  | _ => []

def tagsSet : Directive → List (List Char)
  | .range tag _ => [tag]
  | .sets _ tag _ => [tag]
  | .host _ tag _ => tag.toList
  | _ => []

def Isolated (lines : List Line) : Prop :=
  ∀ line ∈ lines, ∀ id, line.origin = .scope id → isOffer line.directive = true →
    ∃ tag ∈ requires line.directive, ∀ setter ∈ lines, tag ∈ tagsSet setter.directive →
      setter.origin = .scope id ∧ isRange setter.directive = true

section Names

variable (classes : Classes) (lowering : Lowering)

/-! ### Scopes with offers -/

/-- The name that the tag of a scope is made from, `name` being used for an unknown scope. -/
def nameOf (state : DhcpState) (id : Int) (name : List Char) : List Char :=
  ((state.scopeRows.find? fun scope => scope.id = id).map DhcpScope.name).getD name

def bootOwners (state : DhcpState) (boot : EsxiPxeBoot) : List (Int × List Char) :=
  if boot.enabled = false then []
  else if selectedScopes lowering boot = [] then
    (boot.dhcpScopeId.bind fun id => (state.scopeRows.find? fun scope => scope.id = id).map
      fun scope => (id, scope.name)).toList
  else (selectedScopes lowering boot).map fun selected =>
    (selected.id, nameOf state selected.id selected.name)

/-- Scopes that have offers, with the names of their tags: the enabled ones, those with an
enabled option, and those of network boot. -/
def owners (state : DhcpState) : List (Int × List Char) :=
  (state.scopeRows.filter fun scope => scope.enabled ||
      state.options.any fun option => option.enabled && option.scopeId = some scope.id).map
    (fun scope => (scope.id, scope.name)) ++
  state.boot.elim [] (bootOwners lowering state)

abbrev HasAddress (boot : EsxiPxeBoot) : Prop :=
  if selectedScopes lowering boot = [] then (lineItems boot.listenAddress).headD [] ≠ []
  else ∃ selected ∈ selectedScopes lowering boot, strip selected.siteAddress ≠ []

instance (boot : EsxiPxeBoot) : Decidable (HasAddress lowering boot) := by
  unfold HasAddress
  infer_instance

def bootTags (boot : EsxiPxeBoot) : List (List Char) :=
  if boot.enabled = false then []
  else
    ((boot.hostBootfiles.filter fun host => strip host.1 ≠ [] ∧ strip host.2 ≠ []).map fun host =>
      strip host.1) ++
    (if boot.nativeUefiHttpEnabled = true ∧ HasAddress lowering boot then
      ["uefi-http".toList, "uefi-http-x64".toList] else []) ++
    ["ipxe".toList, "efi-x86_64".toList]

def reservationTags (state : DhcpState) : List (List Char) :=
  (state.reservations.filter fun reservation =>
      reservation.enabled && isManaged lowering state reservation).map (reservationTag lowering)

def otherTags (state : DhcpState) : List (List Char) :=
  state.boot.elim [] (bootTags lowering) ++ reservationTags lowering state

def Separate (state : DhcpState) : Prop :=
  ∀ owner ∈ owners lowering state,
    (∀ scope ∈ state.scopeRows, scope.enabled = true →
      dnsmasqTag classes lowering owner.2 = dnsmasqTag classes lowering scope.name →
        owner.1 = scope.id) ∧
    dnsmasqTag classes lowering owner.2 ∉ otherTags lowering state

end Names

section Rendering

variable {classes : Classes} {lowering : Lowering} {state : DhcpState}

/-! ### The tags of scopes -/

theorem rows_distinct (state : DhcpState) : (state.scopeRows.map DhcpScope.id).Nodup := by
  rw [DhcpState.scopeRows]
  split
  · exact List.nodup_singleton _
  · exact state.distinct

theorem find_row {id : Int} {scope : DhcpScope} :
    (state.scopeRows.find? fun scope => scope.id = id) = some scope ↔
      scope ∈ state.scopeRows ∧ scope.id = id := by
  constructor
  · intro found
    exact ⟨List.mem_of_find?_eq_some found, by simpa using List.find?_some found⟩
  · rintro ⟨inside, rfl⟩
    cases found : state.scopeRows.find? fun other => other.id = scope.id with
    | none =>
      have absent := List.find?_eq_none.mp found scope inside
      simp at absent
    | some other =>
      have member := List.mem_of_find?_eq_some found
      have same : other.id = scope.id := by simpa using List.find?_some found
      rw [List.inj_on_of_nodup_map (rows_distinct state) member inside same]

theorem get_item_rows {Row Value : Type} (key : Row → Int) (value : Row → Value) (rows : List Row)
    (id : Int) : getItem id (rows.map fun row => (key row, value row)) =
      (rows.find? fun row => key row = id).map value := by
  induction rows with
  | nil => rfl
  | cons row rows induction =>
    rw [List.map_cons, getItem, induction, List.find?_cons]
    by_cases same : key row = id
    · rw [if_pos same, decide_eq_true same]
      rfl
    · rw [if_neg same, decide_eq_false same]

theorem scope_tag (id : Int) : getItem id (scopeTags classes lowering state) =
    (state.scopeRows.find? fun scope => scope.id = id).map fun scope =>
      dnsmasqTag classes lowering scope.name := by
  rw [scopeTags, of_pairs_distinct, get_item_rows]
  rw [List.map_map]
  exact rows_distinct state

/-! ### Entries of network boot -/

section Boot

variable {boot : EsxiPxeBoot}

theorem selected_tag (selected : BootScope) : (selectedEntry classes lowering state selected).tag =
    some (dnsmasqTag classes lowering (nameOf state selected.id selected.name)) := by
  rw [selectedEntry, nameOf, scope_tag]
  cases state.scopeRows.find? fun scope => scope.id = selected.id <;> rfl

theorem pxe_scope_entries : pxeScopeEntries classes lowering state boot =
    if selectedScopes lowering boot = [] then [fallbackEntry classes lowering state boot]
    else (selectedScopes lowering boot).map (selectedEntry classes lowering state) := by
  rw [pxeScopeEntries]
  by_cases none : selectedScopes lowering boot = []
  · rw [none]
    rfl
  · have filled : (selectedScopes lowering boot).map (selectedEntry classes lowering state) ≠ [] := by
      simpa using none
    rw [if_neg none]
    exact if_neg filled

theorem entry_owner (active : boot.enabled = true) (id : Int) (tag : List Char) :
    (∃ entry ∈ pxeScopeEntries classes lowering state boot,
      entry.origin = .scope id ∧ entry.tag = some tag) ↔
    ∃ name, (id, name) ∈ bootOwners lowering state boot ∧ dnsmasqTag classes lowering name = tag := by
  have enabled : ¬boot.enabled = false := by simp [active]
  rw [pxe_scope_entries, bootOwners, if_neg enabled]
  by_cases none : selectedScopes lowering boot = []
  · rw [if_pos none, if_pos none, fallbackEntry]
    simp only [List.mem_singleton, exists_eq_left]
    cases chosen : boot.dhcpScopeId with
    | none => simp
    | some other =>
      simp only [Option.bind_some, scope_tag]
      cases found : state.scopeRows.find? fun scope => scope.id = other with
      | none => simp
      | some scope =>
        simp only [Option.map_some, Origin.scope.injEq, Option.some.injEq, Option.toList_some,
          List.mem_singleton, Prod.mk.injEq]
        constructor
        · rintro ⟨same, tagged⟩
          exact ⟨scope.name, ⟨same.symm, rfl⟩, tagged⟩
        · rintro ⟨name, ⟨same, rfl⟩, tagged⟩
          exact ⟨same.symm, tagged⟩
  · rw [if_neg none, if_neg none]
    constructor
    · rintro ⟨entry, inside, origin, tagged⟩
      obtain ⟨selected, member, rfl⟩ := List.mem_map.mp inside
      obtain rfl : selected.id = id := Origin.scope.inj origin
      rw [selected_tag] at tagged
      exact ⟨_, List.mem_map_of_mem member, Option.some.inj tagged⟩
    · rintro ⟨name, inside, tagged⟩
      obtain ⟨selected, member, same⟩ := List.mem_map.mp inside
      obtain ⟨rfl, rfl⟩ := Prod.mk.inj same
      refine ⟨_, List.mem_map_of_mem member, rfl, ?_⟩
      rw [selected_tag, tagged]

variable {entry : BootEntry} {line : Line}

theorem entry_tagged {id : Int} (inside : entry ∈ pxeScopeEntries classes lowering state boot)
    (origin : entry.origin = .scope id) : ∃ tag, entry.tag = some tag := by
  rw [pxe_scope_entries] at inside
  split at inside
  · obtain rfl := List.mem_singleton.mp inside
    rw [fallbackEntry] at origin ⊢
    dsimp only at origin ⊢
    split at origin
    · next tag found => exact ⟨_, found⟩
    · cases origin
  · obtain ⟨selected, _, rfl⟩ := List.mem_map.mp inside
    exact ⟨_, rfl⟩

theorem conditions_required (entry : BootEntry) (others : List Condition) :
    (entry.conditions others).filterMap Condition.required =
      entry.tag.toList ++ others.filterMap Condition.required := by
  rw [BootEntry.conditions, List.filterMap_append]
  cases entry.tag <;> rfl

structure OffersFor (entry : BootEntry) (line : Line) : Prop where
  origin : line.origin = entry.origin
  offer : isOffer line.directive = true
  silent : tagsSet line.directive = []
  ranged : isRange line.directive = false
  tagged : ∀ tag ∈ entry.tag, tag ∈ requires line.directive

structure Aside (line : Line) : Prop where
  origin : ∀ id, line.origin ≠ .scope id
  offer : isOffer line.directive = false
  ranged : isRange line.directive = false

theorem boot_offers_for (entry : BootEntry) (others : List Condition) (text : List Char) :
    OffersFor entry ⟨entry.origin, .boot (entry.conditions others) text⟩ := by
  refine ⟨rfl, rfl, rfl, rfl, fun tag tagged => ?_⟩
  rw [requires, conditions_required, tagged]
  exact List.mem_cons_self

theorem entry_lines_offer (inside : line ∈ entryLines boot entry) :
    OffersFor entry line := by
  rw [entryLines] at inside
  rcases List.mem_append.mp inside with served | boots
  · split at served
    · obtain rfl := List.mem_singleton.mp served
      refine ⟨rfl, rfl, rfl, rfl, fun tag tagged => ?_⟩
      rw [requires, conditions_required, tagged]
      exact List.mem_cons_self
    · cases served
  · simp only [List.mem_cons, List.not_mem_nil, or_false] at boots
    rcases boots with rfl | rfl | rfl <;> exact boot_offers_for entry _ _

theorem native_line_offer (made : nativeLine boot entry = some line) : OffersFor entry line := by
  rw [nativeLine] at made
  split at made
  · cases made
  · obtain rfl := Option.some.inj made
    exact boot_offers_for entry _ _

theorem native_line_cases {entries : List BootEntry} (inside : line ∈ nativeLines boot entries) :
    Aside line ∨ ∃ entry ∈ entries, OffersFor entry line := by
  rw [nativeLines] at inside
  split at inside
  · cases inside
  · rcases List.mem_cons.mp inside with rfl | inside
    · exact .inl ⟨(fun _ same => nomatch same), rfl, rfl⟩
    · rcases List.mem_cons.mp inside with rfl | inside
      · exact .inl ⟨(fun _ same => nomatch same), rfl, rfl⟩
      · obtain ⟨entry, member, made⟩ := List.mem_filterMap.mp inside
        exact .inr ⟨entry, member, native_line_offer made⟩

theorem host_line_iff : line ∈ hostLines boot ↔
    ∃ host ∈ boot.hostBootfiles.filter (fun host => strip host.1 ≠ [] ∧ strip host.2 ≠ []),
      line = ⟨.host, .sets "dhcp-mac".toList (strip host.1) (strip host.2)⟩ := by
  rw [hostLines, List.mem_filterMap]
  constructor
  · rintro ⟨host, member, made⟩
    dsimp only at made
    split at made
    · next filled =>
        exact ⟨host, List.mem_filter.mpr ⟨member, decide_eq_true filled⟩, (Option.some.inj made).symm⟩
    · cases made
  · rintro ⟨host, inside, rfl⟩
    obtain ⟨member, filled⟩ := List.mem_filter.mp inside
    exact ⟨host, member, if_pos (of_decide_eq_true filled)⟩

theorem boot_lines_mem (active : boot.enabled = true) :
    line ∈ bootLines classes lowering state boot ↔
      ((line ∈ hostLines boot ∨
        line ∈ nativeLines boot (pxeScopeEntries classes lowering state boot)) ∨
        line ∈ tftpLines boot (pxeScopeEntries classes lowering state boot)) ∨
      ∃ entry ∈ pxeScopeEntries classes lowering state boot, line ∈ entryLines boot entry := by
  have enabled : ¬boot.enabled = false := by simp [active]
  rw [bootLines, if_neg enabled, List.mem_append, List.mem_append, List.mem_append, List.mem_flatMap]

theorem boot_line_cases (inside : line ∈ bootLines classes lowering state boot) :
    boot.enabled = true ∧ (Aside line ∨
      ∃ entry ∈ pxeScopeEntries classes lowering state boot, OffersFor entry line) := by
  by_cases active : boot.enabled = true
  · refine ⟨active, ?_⟩
    rcases (boot_lines_mem active).mp inside with ((host | native) | service) | ⟨entry, member, made⟩
    · obtain ⟨host, _, rfl⟩ := host_line_iff.mp host
      exact .inl ⟨(fun _ same => nomatch same), rfl, rfl⟩
    · exact native_line_cases native
    · left
      simp only [tftpLines, List.mem_cons, List.not_mem_nil, or_false] at service
      rcases service with rfl | rfl | rfl | rfl | rfl | rfl <;>
        exact ⟨(fun _ same => nomatch same), rfl, rfl⟩
    · exact .inr ⟨entry, member, entry_lines_offer made⟩
  · rw [bootLines, if_pos (Bool.eq_false_of_not_eq_true active)] at inside
    cases inside

theorem entry_offer (active : boot.enabled = true)
    (inside : entry ∈ pxeScopeEntries classes lowering state boot) :
    ∃ line ∈ bootLines classes lowering state boot, line.origin = entry.origin ∧
      isOffer line.directive = true ∧ requires line.directive = entry.tag.toList := by
  have last : ⟨entry.origin,
      .boot (entry.conditions [.notTag "ipxe".toList, .notTag "efi-x86_64".toList])
        (boot.biosBootfile ++ if strip boot.hostname ≠ [] ∧ entry.address ≠ [] then
          ',' :: strip boot.hostname ++ ',' :: entry.address else [])⟩ ∈ entryLines boot entry := by
    rw [entryLines]
    exact List.mem_append_right _ (List.mem_cons_of_mem _ (List.mem_cons_of_mem _ List.mem_cons_self))
  refine ⟨_, (boot_lines_mem active).mpr (.inr ⟨entry, inside, last⟩), rfl, rfl, ?_⟩
  rw [requires, conditions_required]
  exact List.append_nil _

theorem native_lines_some : (pxeScopeEntries classes lowering state boot).filterMap
    (nativeLine boot) ≠ [] ↔ HasAddress lowering boot := by
  rw [pxe_scope_entries, HasAddress]
  by_cases none : selectedScopes lowering boot = []
  · rw [if_pos none, if_pos none, List.filterMap_cons, nativeLine]
    by_cases blank : (fallbackEntry classes lowering state boot).address = []
    · rw [if_pos blank]
      exact iff_of_false (fun some => some rfl) fun some => some blank
    · rw [if_neg blank]
      exact iff_of_true (List.cons_ne_nil _ _) blank
  · rw [if_neg none, if_neg none, Ne, List.filterMap_eq_nil_iff]
    push Not
    constructor
    · rintro ⟨entry, inside, made⟩
      obtain ⟨selected, member, rfl⟩ := List.mem_map.mp inside
      refine ⟨selected, member, fun blank => made ?_⟩
      rw [nativeLine]
      exact if_pos blank
    · rintro ⟨selected, member, filled⟩
      refine ⟨_, List.mem_map_of_mem member, ?_⟩
      rw [nativeLine]
      change (if strip selected.siteAddress = [] then _ else _) ≠ _
      rw [if_neg filled]
      exact Option.some_ne_none _

theorem native_setter {tag : List Char} :
    (∃ line ∈ nativeLines boot (pxeScopeEntries classes lowering state boot),
      tag ∈ tagsSet line.directive) ↔
    tag ∈ (if boot.nativeUefiHttpEnabled = true ∧ HasAddress lowering boot then
      ["uefi-http".toList, "uefi-http-x64".toList] else []) := by
  have silent : ∀ line ∈ (pxeScopeEntries classes lowering state boot).filterMap (nativeLine boot),
      tag ∉ tagsSet line.directive := by
    intro line inside
    obtain ⟨entry, _, made⟩ := List.mem_filterMap.mp inside
    rw [(native_line_offer made).silent]
    exact List.not_mem_nil
  have written := @native_lines_some classes lowering state boot
  rw [nativeLines]
  by_cases shown : boot.nativeUefiHttpEnabled = true ∧ HasAddress lowering boot
  · have filled : ¬(boot.nativeUefiHttpEnabled = false ∨
        (pxeScopeEntries classes lowering state boot).filterMap (nativeLine boot) = []) := by
      rw [not_or, Bool.not_eq_false]
      exact ⟨shown.1, written.mpr shown.2⟩
    rw [if_neg filled, if_pos shown, List.exists_mem_cons_iff, List.exists_mem_cons_iff]
    constructor
    · rintro (sets | sets | ⟨line, inside, sets⟩)
      · rw [List.mem_singleton.mp sets]
        exact List.mem_cons_self
      · rw [List.mem_singleton.mp sets]
        exact List.mem_cons_of_mem _ List.mem_cons_self
      · exact absurd sets (silent line inside)
    · intro member
      rcases List.mem_cons.mp member with rfl | member
      · exact .inl (List.mem_singleton_self _)
      · exact .inr (.inl member)
  · have empty : boot.nativeUefiHttpEnabled = false ∨
        (pxeScopeEntries classes lowering state boot).filterMap (nativeLine boot) = [] := by
      by_contra other
      rw [not_or, Bool.not_eq_false] at other
      exact shown ⟨other.1, written.mp other.2⟩
    rw [if_pos empty, if_neg shown]
    simp

theorem boot_setter {tag : List Char} :
    (∃ line ∈ bootLines classes lowering state boot, tag ∈ tagsSet line.directive) ↔
      tag ∈ bootTags lowering boot := by
  by_cases disabled : boot.enabled = false
  · rw [bootLines, if_pos disabled, bootTags, if_pos disabled]
    simp
  · have active : boot.enabled = true := Bool.eq_true_of_not_eq_false disabled
    have hosts : (∃ line ∈ hostLines boot, tag ∈ tagsSet line.directive) ↔
        tag ∈ (boot.hostBootfiles.filter fun host => strip host.1 ≠ [] ∧ strip host.2 ≠ []).map
          fun host => strip host.1 := by
      rw [List.mem_map]
      constructor
      · rintro ⟨line, inside, sets⟩
        obtain ⟨host, member, rfl⟩ := host_line_iff.mp inside
        exact ⟨host, member, (List.mem_singleton.mp sets).symm⟩
      · rintro ⟨host, member, rfl⟩
        exact ⟨_, host_line_iff.mpr ⟨host, member, rfl⟩, List.mem_singleton_self _⟩
    have service : (∃ line ∈ tftpLines boot (pxeScopeEntries classes lowering state boot),
        tag ∈ tagsSet line.directive) ↔ tag ∈ ["ipxe".toList, "efi-x86_64".toList] := by
      rw [tftpLines]
      simp only [List.exists_mem_cons_iff]
      constructor
      · rintro (sets | sets | sets | sets | sets | sets | ⟨_, none, _⟩)
        · cases sets
        · cases sets
        · exact List.mem_cons.mpr (.inl (List.mem_singleton.mp sets))
        · exact List.mem_cons.mpr (.inl (List.mem_singleton.mp sets))
        · exact List.mem_cons_of_mem _ sets
        · exact List.mem_cons_of_mem _ sets
        · cases none
      · intro member
        rcases List.mem_cons.mp member with rfl | member
        · exact .inr (.inr (.inl (List.mem_singleton_self _)))
        · exact .inr (.inr (.inr (.inr (.inl member))))
    rw [bootTags, if_neg disabled, List.mem_append, List.mem_append, ← hosts, ← service,
      ← @native_setter classes lowering state boot]
    constructor
    · rintro ⟨line, inside, sets⟩
      rcases (boot_lines_mem active).mp inside with
        ((host | native) | last) | ⟨entry, _, made⟩
      · exact .inl (.inl ⟨line, host, sets⟩)
      · exact .inl (.inr ⟨line, native, sets⟩)
      · exact .inr ⟨line, last, sets⟩
      · rw [(entry_lines_offer made).silent] at sets
        cases sets
    · rintro ((⟨line, inside, sets⟩ | ⟨line, inside, sets⟩) | ⟨line, inside, sets⟩)
      · exact ⟨line, (boot_lines_mem active).mpr (.inl (.inl (.inl inside))), sets⟩
      · exact ⟨line, (boot_lines_mem active).mpr (.inl (.inl (.inr inside))), sets⟩
      · exact ⟨line, (boot_lines_mem active).mpr (.inl (.inr inside)), sets⟩

end Boot

/-! ### Lines of scopes, options and reservations -/

variable {scope : DhcpScope} {line : Line} {option : DhcpOption} {id : Int}

theorem scope_directive {ranges : List Range} {directive : Directive}
    (inside : directive ∈ scopeDirectives classes lowering state scope ranges) :
    let tag := dnsmasqTag classes lowering scope.name
    (isRange directive = true ∧ isOffer directive = false ∧ tagsSet directive = [tag]) ∨
      (isOffer directive = true ∧ requires directive = [tag] ∧ tagsSet directive = []) := by
  rw [scopeDirectives] at inside
  dsimp only at inside ⊢
  split at inside
  all_goals
    rw [List.append_assoc] at inside
    rcases List.mem_append.mp inside with ranged | rest
    · obtain ⟨range, _, rfl⟩ := List.mem_map.mp ranged
      exact .inl ⟨rfl, rfl, rfl⟩
    · right
      rcases List.mem_append.mp rest with listed | time
      · simp only [List.mem_cons, List.not_mem_nil, or_false] at listed
        rcases listed with rfl | rfl | rfl <;> exact ⟨rfl, rfl, rfl⟩
      · split at time
        · cases time
        · rw [List.mem_singleton.mp time]
          exact ⟨rfl, rfl, rfl⟩

theorem scope_line (inside : line ∈ scopeLines classes lowering state scope) :
    scope.enabled = true ∧ line.origin = .scope scope.id ∧ ∃ ranges,
      line.directive ∈ scopeDirectives classes lowering state scope ranges := by
  rw [scopeLines] at inside
  split at inside
  · cases inside
  · next enabled =>
      dsimp only at inside
      split at inside
      · cases inside
      · obtain ⟨directive, member, rfl⟩ := List.mem_map.mp inside
        exact ⟨Bool.eq_true_of_not_eq_false enabled, rfl, _, member⟩

theorem ranges_filled (clean : (parseDhcpRangeExpression classes lowering scope).1 = []) :
    (parseDhcpRangeExpression classes lowering scope).2 ≠ [] := by
  rw [parseDhcpRangeExpression] at clean ⊢
  dsimp only at clean ⊢
  split at clean
  · cases clean
  · next filled =>
      rw [if_neg filled]
      split at clean
      · cases clean
      · next some =>
          rw [if_neg some]
          exact fun none => some ⟨none, clean⟩

theorem scope_lines_some (enabled : scope.enabled = true)
    (clean : (parseDhcpRangeExpression classes lowering scope).1 = []) :
    let tag := dnsmasqTag classes lowering scope.name
    (∃ line ∈ scopeLines classes lowering state scope, line.origin = .scope scope.id ∧
      isRange line.directive = true ∧ tagsSet line.directive = [tag]) ∧
    ∃ line ∈ scopeLines classes lowering state scope, line.origin = .scope scope.id ∧
      isOffer line.directive = true ∧ requires line.directive = [tag] := by
  obtain ⟨range, rest, shape⟩ := List.exists_cons_of_ne_nil (ranges_filled clean)
  have unfolded : scopeLines classes lowering state scope =
      (scopeDirectives classes lowering state scope (range :: rest)).map fun directive =>
        ⟨.scope scope.id, directive⟩ := by
    rw [scopeLines, if_neg (by simp [enabled]), ← shape]
    exact if_neg (not_not.mpr clean)
  rw [unfolded, scopeDirectives]
  dsimp only
  split
  all_goals
    refine ⟨⟨_, List.mem_map_of_mem List.mem_cons_self, rfl, rfl, rfl⟩, ?_⟩
    refine ⟨_, List.mem_map_of_mem (List.mem_append_left _ (List.mem_append_right _
      List.mem_cons_self)), rfl, rfl, rfl⟩

theorem option_line (made : optionLine classes lowering state option = some line)
    (origin : line.origin = .scope id) :
    option.enabled = true ∧ option.scopeId = some id ∧ ∃ scope ∈ state.scopeRows, scope.id = id ∧
      requires line.directive = [dnsmasqTag classes lowering scope.name] := by
  rw [optionLine] at made
  split at made
  · cases made
  · next active =>
      split at made
      · obtain rfl := Option.some.inj made
        cases origin
      · next chosen =>
          obtain ⟨tag, found, rfl⟩ := Option.map_eq_some_iff.mp made
          obtain rfl := Origin.scope.inj origin
          rw [scope_tag] at found
          obtain ⟨scope, row, rfl⟩ := Option.map_eq_some_iff.mp found
          obtain ⟨inside, same⟩ := find_row.mp row
          rw [not_or, Bool.not_eq_false] at active
          exact ⟨active.1, chosen, scope, inside, same, rfl⟩

theorem option_no_setter (made : optionLine classes lowering state option = some line) :
    tagsSet line.directive = [] := by
  rw [optionLine] at made
  split at made
  · cases made
  · split at made
    · obtain rfl := Option.some.inj made
      rfl
    · obtain ⟨_, _, rfl⟩ := Option.map_eq_some_iff.mp made
      rfl

theorem option_line_some (enabled : option.enabled = true)
    (filled : strip option.optionCode ≠ [] ∧ strip option.value ≠ [])
    (inside : scope ∈ state.scopeRows) (chosen : option.scopeId = some scope.id) :
    ∃ line, optionLine classes lowering state option = some line ∧
      line.origin = .scope scope.id ∧ isOffer line.directive = true ∧
      requires line.directive = [dnsmasqTag classes lowering scope.name] := by
  have active : ¬(option.enabled = false ∨ strip option.optionCode = [] ∨ strip option.value = []) := by
    simp [enabled, filled.1, filled.2]
  have tag := @scope_tag classes lowering state scope.id
  rw [find_row.mpr ⟨inside, rfl⟩] at tag
  rw [optionLine, if_neg active, chosen]
  dsimp only
  rw [tag]
  exact ⟨_, rfl, rfl, rfl, rfl⟩

variable {reservation : DhcpReservation}

theorem reservation_line (inside : line ∈ reservationLines lowering state reservation) :
    line.origin = .reservation ∧ isRange line.directive = false ∧ ∀ tag ∈ tagsSet line.directive,
      reservation.enabled = true ∧ isManaged lowering state reservation = true ∧
        tag = reservationTag lowering reservation := by
  rw [reservationLines] at inside
  dsimp only at inside
  split at inside
  · split at inside
    · rw [List.mem_singleton.mp inside]
      exact ⟨rfl, rfl, fun _ none => by cases none⟩
    · cases inside
  · next enabled =>
      split at inside
      · next managed =>
          simp only [List.mem_cons, List.not_mem_nil, or_false] at inside
          rcases inside with rfl | rfl | rfl
          · exact ⟨rfl, rfl, fun tag sets => ⟨Bool.eq_true_of_not_eq_false enabled, managed,
              List.mem_singleton.mp sets⟩⟩
          · exact ⟨rfl, rfl, fun _ none => by cases none⟩
          · exact ⟨rfl, rfl, fun _ none => by cases none⟩
      · rw [List.mem_singleton.mp inside]
        exact ⟨rfl, rfl, fun _ none => by cases none⟩

theorem reservation_setter (enabled : reservation.enabled = true)
    (managed : isManaged lowering state reservation = true) :
    ∃ line ∈ reservationLines lowering state reservation,
      tagsSet line.directive = [reservationTag lowering reservation] := by
  rw [reservationLines, if_neg (by simp [enabled]), if_pos managed]
  exact ⟨_, List.mem_cons_self, rfl⟩

/-! ### The whole part -/

/-- The line that announces IPv6 routes. -/
def raLines (lowering : Lowering) (state : DhcpState) : List Line :=
  if state.scopeRows.any fun scope =>
      scope.enabled && dhcpScopeAddressFamily lowering scope = .v6 then
    [⟨.service, .plain "enable-ra".toList⟩] else []

theorem boot_mem : line ∈ state.boot.elim [] (bootLines classes lowering state) ↔
    ∃ boot ∈ state.boot, line ∈ bootLines classes lowering state boot := by
  cases state.boot with
  | none => simp
  | some boot => simp

theorem render_mem (active : state.settings.enabled = true) :
    line ∈ renderDhcp classes lowering state ↔
      (((line ∈ raLines lowering state ∨
        ∃ boot ∈ state.boot, line ∈ bootLines classes lowering state boot) ∨
        ∃ scope ∈ state.scopeRows, line ∈ scopeLines classes lowering state scope) ∨
        ∃ option ∈ state.options, optionLine classes lowering state option = some line) ∨
      ∃ reservation ∈ state.reservations, line ∈ reservationLines lowering state reservation := by
  have enabled : ¬state.settings.enabled = false := by simp [active]
  have parts : renderDhcp classes lowering state = raLines lowering state ++
      state.boot.elim [] (bootLines classes lowering state) ++
      state.scopeRows.flatMap (scopeLines classes lowering state) ++
      state.options.filterMap (optionLine classes lowering state) ++
      state.reservations.flatMap (reservationLines lowering state) := by
    rw [renderDhcp]
    exact if_neg enabled
  rw [parts, List.mem_append, List.mem_append, List.mem_append, List.mem_append, List.mem_flatMap,
    List.mem_flatMap, List.mem_filterMap, boot_mem]

theorem ra_line (inside : line ∈ raLines lowering state) :
    line = ⟨.service, .plain "enable-ra".toList⟩ := by
  rw [raLines] at inside
  split at inside
  · exact List.mem_singleton.mp inside
  · cases inside

theorem mem_owners {name : List Char} : (id, name) ∈ owners lowering state ↔
    (∃ scope ∈ state.scopeRows, (scope.enabled = true ∨ ∃ option ∈ state.options,
      option.enabled = true ∧ option.scopeId = some scope.id) ∧
        scope.id = id ∧ scope.name = name) ∨
    ∃ boot ∈ state.boot, (id, name) ∈ bootOwners lowering state boot := by
  rw [owners, List.mem_append, List.mem_map]
  apply or_congr
  · simp only [List.mem_filter, Bool.or_eq_true, List.any_eq_true, Bool.and_eq_true,
      decide_eq_true_eq, Prod.mk.injEq, and_assoc]
  · cases state.boot <;> simp

theorem offer_owner (inside : line ∈ renderDhcp classes lowering state)
    (active : state.settings.enabled = true) (origin : line.origin = .scope id)
    (offer : isOffer line.directive = true) :
    ∃ name, (id, name) ∈ owners lowering state ∧
      dnsmasqTag classes lowering name ∈ requires line.directive := by
  rcases (render_mem active).mp inside with
    (((plain | ⟨boot, chosen, member⟩) | ⟨scope, row, member⟩) | ⟨option, listed, made⟩) |
      ⟨reservation, _, member⟩
  · rw [ra_line plain] at origin
    cases origin
  · obtain ⟨started, aside | ⟨entry, entryInside, offers⟩⟩ := boot_line_cases member
    · exact absurd origin (aside.origin id)
    · have entryOrigin := offers.origin.symm.trans origin
      obtain ⟨tag, tagged⟩ := entry_tagged entryInside entryOrigin
      obtain ⟨name, owner, same⟩ := (entry_owner started id tag).mp
        ⟨entry, entryInside, entryOrigin, tagged⟩
      refine ⟨name, mem_owners.mpr (.inr ⟨boot, chosen, owner⟩), ?_⟩
      rw [same]
      exact offers.tagged tag tagged
  · obtain ⟨enabled, own, ranges, directive⟩ := scope_line member
    obtain rfl := Origin.scope.inj (own.symm.trans origin)
    refine ⟨scope.name, mem_owners.mpr (.inl ⟨scope, row, .inl enabled, rfl, rfl⟩), ?_⟩
    rcases scope_directive directive with ⟨_, silent, _⟩ | ⟨_, required, _⟩
    · rw [offer] at silent
      cases silent
    · rw [required]
      exact List.mem_singleton_self _
  · obtain ⟨enabled, owned, scope, row, rfl, required⟩ := option_line made origin
    refine ⟨scope.name, mem_owners.mpr (.inl ⟨scope, row, .inr ⟨option, listed, enabled, owned⟩,
      rfl, rfl⟩), ?_⟩
    rw [required]
    exact List.mem_singleton_self _
  · rw [(reservation_line member).1] at origin
    cases origin

theorem setter_cases {setter : Line} {tag : List Char}
    (inside : setter ∈ renderDhcp classes lowering state)
    (active : state.settings.enabled = true) (sets : tag ∈ tagsSet setter.directive) :
    (∃ scope ∈ state.scopeRows, scope.enabled = true ∧ setter.origin = .scope scope.id ∧
      isRange setter.directive = true ∧ tag = dnsmasqTag classes lowering scope.name) ∨
    tag ∈ otherTags lowering state := by
  rcases (render_mem active).mp inside with
    (((plain | ⟨boot, chosen, member⟩) | ⟨scope, row, member⟩) | ⟨option, _, made⟩) |
      ⟨reservation, listed, member⟩
  · rw [ra_line plain] at sets
    cases sets
  · right
    have bootTag := boot_setter.mp ⟨setter, member, sets⟩
    rw [otherTags, Option.mem_def.mp chosen]
    exact List.mem_append_left _ bootTag
  · left
    obtain ⟨enabled, origin, ranges, directive⟩ := scope_line member
    rcases scope_directive directive with ⟨ranged, _, own⟩ | ⟨_, _, none⟩
    · rw [own] at sets
      exact ⟨scope, row, enabled, origin, ranged, List.mem_singleton.mp sets⟩
    · rw [none] at sets
      cases sets
  · rw [option_no_setter made] at sets
    cases sets
  · right
    obtain ⟨enabled, managed, rfl⟩ := (reservation_line member).2.2 tag sets
    apply List.mem_append_right
    exact List.mem_map_of_mem (List.mem_filter.mpr ⟨listed, by rw [enabled, managed]; rfl⟩)

theorem other_setter (active : state.settings.enabled = true) {tag : List Char}
    (other : tag ∈ otherTags lowering state) :
    ∃ setter ∈ renderDhcp classes lowering state, tag ∈ tagsSet setter.directive ∧
      isRange setter.directive = false := by
  rcases List.mem_append.mp other with bootTag | hostTag
  · cases chosen : state.boot with
    | none =>
      rw [chosen] at bootTag
      cases bootTag
    | some boot =>
      rw [chosen] at bootTag
      obtain ⟨line, member, sets⟩ := (@boot_setter classes lowering state boot tag).mpr bootTag
      refine ⟨line, (render_mem active).mpr (.inl (.inl (.inl (.inr ⟨boot, chosen, member⟩)))),
        sets, ?_⟩
      obtain ⟨_, aside | ⟨entry, _, offers⟩⟩ := boot_line_cases member
      · exact aside.ranged
      · exact offers.ranged
  · obtain ⟨reservation, inside, rfl⟩ := List.mem_map.mp hostTag
    obtain ⟨listed, flags⟩ := List.mem_filter.mp inside
    obtain ⟨enabled, managed⟩ := Bool.and_eq_true_iff.mp flags
    obtain ⟨line, member, sets⟩ := reservation_setter enabled managed
    refine ⟨line, (render_mem active).mpr (.inr ⟨reservation, listed, member⟩), ?_,
      (reservation_line member).2.1⟩
    rw [sets]
    exact List.mem_singleton_self _

/-! ### Accepted settings -/

section Accepted

variable (accepted : validateDhcpSettings classes lowering state = [])
  (active : state.settings.enabled = true)

include accepted active

theorem accepted_scope {scope : DhcpScope} (inside : scope ∈ state.scopeRows) :
    (parseDhcpRangeExpression classes lowering scope).1 = [] := by
  rw [validateDhcpSettings, if_neg (by simp [active])] at accepted
  obtain ⟨front, _⟩ := List.append_eq_nil_iff.mp accepted
  obtain ⟨front, _⟩ := List.append_eq_nil_iff.mp front
  obtain ⟨_, scopes⟩ := List.append_eq_nil_iff.mp front
  have clean := List.flatMap_eq_nil_iff.mp scopes scope inside
  rw [validateDhcpScope] at clean
  obtain ⟨front, _⟩ := List.append_eq_nil_iff.mp clean
  obtain ⟨front, _⟩ := List.append_eq_nil_iff.mp front
  obtain ⟨front, _⟩ := List.append_eq_nil_iff.mp front
  obtain ⟨front, _⟩ := List.append_eq_nil_iff.mp front
  obtain ⟨front, _⟩ := List.append_eq_nil_iff.mp front
  exact (List.append_eq_nil_iff.mp front).2

theorem accepted_option {option : DhcpOption} (inside : option ∈ state.options)
    (enabled : option.enabled = true) :
    strip option.optionCode ≠ [] ∧ strip option.value ≠ [] := by
  rw [validateDhcpSettings, if_neg (by simp [active])] at accepted
  obtain ⟨_, options⟩ := List.append_eq_nil_iff.mp accepted
  have clean := List.flatMap_eq_nil_iff.mp options option inside
  rw [optionErrors, if_neg (by simp [enabled])] at clean
  obtain ⟨front, value⟩ := List.append_eq_nil_iff.mp clean
  obtain ⟨_, code⟩ := List.append_eq_nil_iff.mp front
  constructor
  · intro blank
    rw [if_pos blank] at code
    cases code
  · intro blank
    rw [if_pos blank] at value
    cases value

theorem owner_offer {id : Int} {name : List Char} (owner : (id, name) ∈ owners lowering state) :
    ∃ line ∈ renderDhcp classes lowering state, line.origin = .scope id ∧
      isOffer line.directive = true ∧
      requires line.directive = [dnsmasqTag classes lowering name] := by
  rcases mem_owners.mp owner with ⟨scope, row, enabled | ⟨option, listed, enabled, owned⟩, rfl, rfl⟩ |
    ⟨boot, chosen, owned⟩
  · obtain ⟨_, line, member, offers⟩ :=
      @scope_lines_some _ _ state _ enabled (accepted_scope accepted active row)
    exact ⟨line, (render_mem active).mpr (.inl (.inl (.inr ⟨scope, row, member⟩))), offers⟩
  · obtain ⟨line, made, offers⟩ :=
      @option_line_some classes _ _ _ _ enabled (accepted_option accepted active listed enabled) row owned
    exact ⟨line, (render_mem active).mpr (.inl (.inr ⟨option, listed, made⟩)), offers⟩
  · have started : boot.enabled = true := by
      by_contra stopped
      rw [bootOwners, if_pos (Bool.eq_false_of_not_eq_true stopped)] at owned
      cases owned
    obtain ⟨entry, inside, origin, tagged⟩ :=
      (@entry_owner classes _ _ _ started id _).mpr ⟨name, owned, rfl⟩
    obtain ⟨line, member, own, offer, required⟩ := entry_offer started inside
    refine ⟨line, (render_mem active).mpr (.inl (.inl (.inl (.inr ⟨boot, chosen, member⟩)))),
      own.trans origin, offer, ?_⟩
    rw [required, tagged]
    rfl

end Accepted

theorem separate_isolated (separate : Separate classes lowering state)
    (active : state.settings.enabled = true) : Isolated (renderDhcp classes lowering state) := by
  intro line inside id origin offer
  obtain ⟨name, owner, required⟩ := offer_owner inside active origin offer
  obtain ⟨apart, unset⟩ := separate (id, name) owner
  refine ⟨_, required, fun setter member sets => ?_⟩
  rcases setter_cases member active sets with ⟨scope, row, enabled, own, ranged, same⟩ | other
  · rw [own, ← apart scope row enabled same]
    exact ⟨rfl, ranged⟩
  · exact absurd other unset

theorem isolated_separate (accepted : validateDhcpSettings classes lowering state = [])
    (active : state.settings.enabled = true)
    (isolated : Isolated (renderDhcp classes lowering state)) :
    Separate classes lowering state := by
  rintro ⟨id, name⟩ owner
  obtain ⟨line, inside, origin, offer, required⟩ := owner_offer accepted active owner
  obtain ⟨tag, member, only⟩ := isolated line inside id origin offer
  rw [required] at member
  obtain rfl := List.mem_singleton.mp member
  constructor
  · intro scope row enabled same
    obtain ⟨⟨setter, setterInside, own, _, sets⟩, _⟩ :=
      @scope_lines_some _ _ state _ enabled (accepted_scope accepted active row)
    have found := (only setter ((render_mem active).mpr (.inl (.inl (.inr ⟨scope, row,
      setterInside⟩)))) (by rw [sets, ← same]; exact List.mem_singleton_self _)).1
    exact (Origin.scope.inj (own.symm.trans found)).symm
  · intro other
    obtain ⟨setter, setterInside, sets, ranged⟩ := @other_setter classes _ _ active _ other
    rw [(only setter setterInside sets).2] at ranged
    cases ranged

end Rendering

/-- Accepted settings isolate their scopes exactly when every scope with offers has a tag of its
own. -/
theorem scopes_isolated_iff (classes : Classes) (lowering : Lowering) (state : DhcpState)
    (accepted : validateDhcpSettings classes lowering state = []) :
    Isolated (renderDhcp classes lowering state) ↔
      state.settings.enabled = false ∨ Separate classes lowering state := by
  by_cases disabled : state.settings.enabled = false
  · refine iff_of_true ?_ (.inl disabled)
    rw [renderDhcp, if_pos disabled]
    exact fun line none => absurd none List.not_mem_nil
  · have active := Bool.eq_true_of_not_eq_false disabled
    constructor
    · exact fun isolated => .inr (isolated_separate accepted active isolated)
    · intro separate
      exact separate_isolated (separate.resolve_left disabled) active

/-! ### Names of scopes -/

instance (classes : Classes) (lowering : Lowering) (state : DhcpState) :
    Decidable (Separate classes lowering state) := by
  unfold Separate
  infer_instance

def sampleClasses : Classes where
  isAlnum := Char.isAlphanum
  isDigit := Char.isDigit

def sampleScope (id : Int) (name site range : String) : DhcpScope where
  id := id
  name := name.toList
  addressFamily := "ipv4".toList
  interfaceName := "eth2".toList
  siteAddress := site.toList
  prefixLength := 24
  rangeExpression := range.toList
  leaseTime := "12h".toList
  domainName := "atlaso.internal".toList
  dnsServer := site.toList
  ntpServer := []
  enabled := true

def sampleState (second : String) : DhcpState where
  settings := ⟨true, "eth2".toList, [], 24, "12h".toList, [], []⟩
  dns := ⟨"atlaso.internal".toList, false⟩
  scopes := [sampleScope 1 "Lab 1" "192.168.50.1" "192.168.50.100-200",
    sampleScope 2 second "192.168.60.1" "192.168.60.100-192.168.60.200"]
  options := [⟨some 2, "42".toList, "192.168.60.5".toList, true⟩]
  reservations := []
  boot := some
    { enabled := true
      hostname := "esxi-pxe.atlaso.internal".toList
      nativeUefiHttpEnabled := false
      httpPort := 8080
      dhcpScopes := [⟨1, "Lab 1".toList, "ipv4".toList, "192.168.50.1".toList, "eth2".toList⟩]
      dhcpScopeId := some 1
      listenAddress := []
      listenInterface := []
      hostBootfiles := []
      uefiBootfile := "snponly.efi".toList
      biosBootfile := "undionly.kpxe".toList
      tftpRoot := "/srv/tftp".toList }
  distinct := by simp [sampleScope]

theorem sample_scopes_isolated :
    Isolated (renderDhcp sampleClasses asciiLowering (sampleState "Lab 2")) :=
  (scopes_isolated_iff sampleClasses asciiLowering (sampleState "Lab 2") (by decide)).mpr
    (.inr (by decide))

/-- Two accepted scopes with different names and one tag: the gateway of each is offered to the
clients of both. -/
theorem shared_tag_exception :
    validateDhcpSettings sampleClasses asciiLowering (sampleState "lab-1") = [] ∧
    ¬Isolated (renderDhcp sampleClasses asciiLowering (sampleState "lab-1")) := by
  have accepted : validateDhcpSettings sampleClasses asciiLowering (sampleState "lab-1") = [] := by
    decide
  refine ⟨accepted, fun isolated => ?_⟩
  exact absurd (isolated_separate accepted rfl isolated) (by decide)

end Atlaso.Dhcp.ScopeIsolation
