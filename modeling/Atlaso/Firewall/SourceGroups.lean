import Atlaso.Library.IpNetwork
import Atlaso.Library.ItemLists
import Atlaso.Library.JsonText

/-!
Source Groups of the firewall: the groups that the settings hold, their validation, and the
addresses that a group stands for.

An entry of a group is `any`, an address or a network, or a reference to another group, by its
identifier (`group:lan`) or by its name (`@LAN`).
-/

namespace Atlaso.Firewall.SourceGroups

open Library Dictionary IpNetwork ItemLists JsonText TextFields

local instance lawfulChars : LawfulBEq (List Char) := inferInstance

def FIREWALL_ANY_SOURCE_GROUP_ID : List Char := "any".toList

def FIREWALL_SOURCE_GROUP_REFERENCE_PREFIX : List Char := "group:".toList

structure SourceGroup where
  (id name : List Char)
  entries : List (List Char)
  deriving DecidableEq, Repr

abbrev GroupsById := List (List Char × SourceGroup)

section Groups

variable (lowering : Lowering)

/-! ### Entries -/

/-- `any` and the start of a reference are written in lower case. -/
def normalizeEntry (value : List Char) : List Char :=
  let item := strip value
  if lowering.lower item = FIREWALL_ANY_SOURCE_GROUP_ID then FIREWALL_ANY_SOURCE_GROUP_ID
  else if FIREWALL_SOURCE_GROUP_REFERENCE_PREFIX.isPrefixOf (lowering.lower item) then
    FIREWALL_SOURCE_GROUP_REFERENCE_PREFIX ++
      item.drop FIREWALL_SOURCE_GROUP_REFERENCE_PREFIX.length
  else item

/-- `_source_group_entries` of a list of entries. -/
def entriesOfList (raw defaults : List (List Char)) : List (List Char) :=
  let values := (raw.map strip).filter fun item => item ≠ []
  (if values = [] then defaults else values).map (normalizeEntry lowering)

def sourceGroupEntries (group : Option SourceGroup) : List (List Char) :=
  entriesOfList lowering (group.elim [] SourceGroup.entries) [FIREWALL_ANY_SOURCE_GROUP_ID]

/-! ### The groups of the settings -/

/-- `str` of a value that is not a string. It is never empty. -/
structure Shown where
  text : Json → List Char
  unblank : ∀ value, text value ≠ []

/-- `str(value)` -/
def textOf (shown : Shown) : Json → List Char
  | .string text => text.toList
  | other => shown.text other

/-- Whether a value counts as true. -/
def isTruthy : Json → Bool
  | .null => false
  | .bool value => value
  | .int value => value ≠ 0
  | .real literal => (literal.takeWhile fun c => c ∉ ['e', 'E']).any fun c =>
    c ∈ ['1', '2', '3', '4', '5', '6', '7', '8', '9']
  | .string text => text ≠ ""
  | .array items => !items.isEmpty
  | .object members => !members.isEmpty

/-- `_source_group_entries(saved_group, default_entries)` -/
def savedEntries (shown : Shown) (members : List (String × Json))
    (defaults : List (List Char)) : List (List Char) :=
  let listed := match getItem "entries" members with
    | some .null => getItem "sources" members
    | some raw => some raw
    | none => getItem "sources" members
  match listed with
  | some (.string text) =>
    let values := splitItems text.toList
    (if values = [] then defaults else values).map (normalizeEntry lowering)
  | some (.array items) => entriesOfList lowering (items.map (textOf shown)) defaults
  | _ => defaults.map (normalizeEntry lowering)

def sourceGroup (id name : List Char) (entries : List (List Char)) : SourceGroup where
  id := id
  name := name
  entries := entriesOfList lowering entries [FIREWALL_ANY_SOURCE_GROUP_ID]

def defaultEntries (interfaceNetworks : List (List Char × List (List Char))) (id : List Char) :
    List (List Char) :=
  if "interface:".toList.isPrefixOf id then
    (getItem (id.drop "interface:".toList.length) interfaceNetworks).getD
      [FIREWALL_ANY_SOURCE_GROUP_ID]
  else [FIREWALL_ANY_SOURCE_GROUP_ID]

def savedGroup (shown : Shown)
    (interfaceNetworks : List (List Char × List (List Char))) (id : List Char)
    (members : List (String × Json)) : SourceGroup :=
  let name := match getItem "name" members with
    | some name => if isTruthy name then textOf shown name else id
    | none => id
  sourceGroup lowering id name
    (savedEntries lowering shown members (defaultEntries interfaceNetworks id))

/-- `str(group.get("id", ""))` -/
def savedId (shown : Shown) (members : List (String × Json)) : List Char :=
  (getItem "id" members).elim [] (textOf shown)

/-- The objects of `saved.get("groups", [])`; what cannot be iterated over raises. -/
def savedObjects (saved : List (String × Json)) : Option (List (List (String × Json))) :=
  match getItem "groups" saved with
  | none => some []
  | some (.array items) => some (items.filterMap fun item => match item with
      | .object members => some members
      | _ => none)
  | some (.string _) => some []
  | some (.object _) => some []
  | _ => none

/-- `firewall_source_group_state(raw_json, interface_networks)["groups"]`, where `saved` is what
`raw_json` holds. -/
def firewallSourceGroupState (shown : Shown) (saved : List (String × Json))
    (interfaceNetworks : List (List Char × List (List Char))) : Option (List SourceGroup) :=
  (savedObjects saved).map fun objects =>
    let savedGroups := ofPairs (objects.map fun members => (savedId shown members, members))
    sourceGroup lowering FIREWALL_ANY_SOURCE_GROUP_ID "Any".toList [FIREWALL_ANY_SOURCE_GROUP_ID] ::
      (savedGroups.filter fun saved => saved.1 ≠ FIREWALL_ANY_SOURCE_GROUP_ID).map fun saved =>
        savedGroup lowering shown interfaceNetworks saved.1 saved.2

/-! ### References -/

def groupsById (groups : List SourceGroup) : GroupsById :=
  ofPairs (groups.map fun group => (group.id, group))

/-- `name.strip().lower()` -/
def nameKey (name : List Char) : List Char := lowering.lower (strip name)

def sourceGroupNameIndex (groups : GroupsById) : List (List Char × List Char) :=
  ofPairs ((groups.filter fun entry => strip entry.2.name ≠ []).map fun entry =>
    (nameKey lowering entry.2.name, entry.1))

def sourceGroupReferenceTarget (groups : GroupsById) (names : List (List Char × List Char))
    (value : List Char) : List Char :=
  let item := strip value
  if FIREWALL_SOURCE_GROUP_REFERENCE_PREFIX.isPrefixOf (lowering.lower item) then
    let id := item.drop FIREWALL_SOURCE_GROUP_REFERENCE_PREFIX.length
    if (getItem id groups).isSome then id else []
  else
    match item with
    | '@' :: name =>
      (getItem (nameKey lowering name)
        (if names = [] then sourceGroupNameIndex lowering groups else names)).getD []
    | _ => []

def looksLikeSourceGroupReference (value : List Char) : Bool :=
  (strip value).head? = some '@' ||
    FIREWALL_SOURCE_GROUP_REFERENCE_PREFIX.isPrefixOf (lowering.lower (strip value))

/-! ### Expansion -/

/-- Sources that were not seen before. -/
def addNew (expanded sources : List (List Char)) : List (List Char) :=
  sources.foldl (fun expanded source =>
    if source ∈ expanded then expanded else expanded ++ [source]) expanded

/-- The loop of `_expand_source_group_entries`. `seen` always holds what is in `expanded`. -/
def gather (groups : GroupsById) (stack : List (List Char))
    (nested : List Char → List (List Char)) :
    List (List Char) → List (List Char) → List (List Char)
  | [], expanded => if expanded = [] then [FIREWALL_ANY_SOURCE_GROUP_ID] else expanded
  | entry :: entries, expanded =>
    let normalized := strip entry
    if lowering.lower normalized = FIREWALL_ANY_SOURCE_GROUP_ID then
      [FIREWALL_ANY_SOURCE_GROUP_ID]
    else
      let target := sourceGroupReferenceTarget lowering groups
        (sourceGroupNameIndex lowering groups) normalized
      if target = [] then gather groups stack nested entries (addNew expanded [normalized])
      else if target ∈ stack then gather groups stack nested entries expanded
      else if nested target = [FIREWALL_ANY_SOURCE_GROUP_ID] then [FIREWALL_ANY_SOURCE_GROUP_ID]
      else gather groups stack nested entries (addNew expanded (nested target))

def unvisited (groups : GroupsById) (path : List (List Char)) : Nat :=
  ((groups.map Prod.fst).filter fun id => id ∉ path).length

theorem unvisited_step {groups : GroupsById} {path : List (List Char)} {id : List Char}
    (fresh : id ∉ path) (present : id ∈ groups.map Prod.fst) :
    unvisited groups (path ++ [id]) < unvisited groups path := by
  have fewer : ((groups.map Prod.fst).filter fun other => other ∉ path ++ [id]).Sublist
      ((groups.map Prod.fst).filter fun other => other ∉ path) := by
    apply List.monotone_filter_right
    intro other outside
    simp only [List.mem_append, not_or, decide_eq_true_eq] at outside ⊢
    exact outside.1
  apply lt_of_le_of_ne fewer.length_le
  intro same
  have equal := fewer.eq_of_length same
  have inside : id ∈ (groups.map Prod.fst).filter fun other => other ∉ path :=
    List.mem_filter.mpr ⟨present, by simpa using fresh⟩
  rw [← equal] at inside
  simp at inside

def expandSourceGroupEntries (groups : GroupsById) (stack : List (List Char))
    (group : Option SourceGroup) : List (List Char) :=
  gather lowering groups stack
    (fun target =>
      if _fresh : target ∉ stack ∧ target ∈ groups.map Prod.fst then
        expandSourceGroupEntries groups (stack ++ [target]) (getItem target groups)
      else [FIREWALL_ANY_SOURCE_GROUP_ID])
    (sourceGroupEntries lowering group) []
termination_by unvisited groups stack
decreasing_by exact unvisited_step _fresh.1 _fresh.2

/-! ### Validation -/

def splitAddressValues (value : List Char) : List (List Char) :=
  (splitItems value).map lowering.lower

/-- `ip_network(item, strict=False)` -/
def readNetwork (item : List Char) : Option Network := ipNetwork (String.ofList item)

def validateAddressValue (label value : List Char) : List String :=
  let values := splitAddressValues lowering value
  if FIREWALL_ANY_SOURCE_GROUP_ID ∈ values then
    if values = [FIREWALL_ANY_SOURCE_GROUP_ID] then []
    else [String.ofList label ++ " can use 'any' only by itself."]
  else values.flatMap fun item =>
    if (readNetwork item).isSome then []
    else [String.ofList label ++ " must be 'any' or valid IPv4/IPv6 addresses or CIDRs."]

/-- `str(group.get("name") or group_id or "Source Group")` -/
def groupLabel (group : SourceGroup) : List Char :=
  if group.name ≠ [] then group.name
  else if group.id ≠ [] then group.id else "Source Group".toList

/-- The first loop of `validate_firewall_source_groups`. -/
def nameStep (state : List String × List (List Char × List Char)) (group : SourceGroup) :
    List String × List (List Char × List Char) :=
  let label := groupLabel group
  let key := nameKey lowering label
  let errors :=
    if strip label = [] then ["Source Group name is required."]
    else match getItem key state.2 with
      | some other =>
        if other ≠ group.id then
          ["Source Group name '" ++ String.ofList label ++ "' is already used."]
        else []
      | none => []
  (state.1 ++ errors, setItem key group.id state.2)

def groupNames (groups : List SourceGroup) : List String × List (List Char × List Char) :=
  groups.foldl (nameStep lowering) ([], [])

def entryErrors (groups : GroupsById) (names : List (List Char × List Char))
    (group : SourceGroup) : List String :=
  let label := groupLabel group
  let entries := sourceGroupEntries lowering (some group)
  if group.id = FIREWALL_ANY_SOURCE_GROUP_ID ∧ entries ≠ [FIREWALL_ANY_SOURCE_GROUP_ID] then
    ["Any is built in and must contain only 'any'."]
  else
    let isAddress := fun entry => sourceGroupReferenceTarget lowering groups names entry = []
    (entries.flatMap fun entry =>
      if lowering.lower (strip entry) = FIREWALL_ANY_SOURCE_GROUP_ID then []
      else if isAddress entry ∧ looksLikeSourceGroupReference lowering entry = true then
        [String.ofList label ++ " references a Source Group that does not exist: " ++
          String.ofList entry ++ "."]
      else []) ++
    validateAddressValue lowering label (joinItems (entries.filter isAddress)) ++
    if FIREWALL_ANY_SOURCE_GROUP_ID ∈ entries.map (fun entry => lowering.lower (strip entry)) ∧
        1 < entries.length then [String.ofList label ++ " can use 'any' only by itself."] else []

def cycleError (groups : GroupsById) (path : List (List Char)) (id : List Char) : String :=
  let cycle := path.dropWhile (fun other => other ≠ id) ++ [id]
  "Source Groups cannot reference each other in a cycle: " ++
    " -> ".intercalate (cycle.filterMap fun item => (getItem item groups).map fun group =>
      String.ofList (if group.name ≠ [] then group.name else item)) ++ "."

/-- `visit` of `_validate_source_group_cycles`. -/
def visit (groups : GroupsById) (names : List (List Char × List Char)) (path : List (List Char))
    (id : List Char) : List String :=
  if _seen : id ∈ path then [cycleError groups path id]
  else
    match _found : getItem id groups with
    | none => []
    | some group =>
      (sourceGroupEntries lowering (some group)).flatMap fun entry =>
        let target := sourceGroupReferenceTarget lowering groups names entry
        if target = [] then [] else visit groups names (path ++ [id]) target
termination_by unvisited groups path
decreasing_by exact unvisited_step _seen (List.mem_map_of_mem (mem_of_get_item _found))

def validateSourceGroupCycles (groups : List SourceGroup)
    (names : List (List Char × List Char)) : List String :=
  groups.flatMap fun group =>
    if group.id = [] then [] else visit lowering (groupsById groups) names [] group.id

def validateFirewallSourceGroups (groups : List SourceGroup) : List String :=
  let (errors, names) := groupNames lowering groups
  errors ++ groups.flatMap (entryErrors lowering (groupsById groups) names) ++
    validateSourceGroupCycles lowering groups names

end Groups

end Atlaso.Firewall.SourceGroups
