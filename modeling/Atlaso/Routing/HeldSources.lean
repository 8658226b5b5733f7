import Atlaso.Library.AddressTexts
import Atlaso.Library.DistinctLists
import Atlaso.Library.ItemLists
import Atlaso.Library.Traversals
import Atlaso.Routing.RemovedLinks
import Atlaso.Routing.SourceOwners

/-!
What the holds of removed links keep.

Each usable address that a removed link lists becomes a hold with the table it had, so the tables
of these links stay as they were. An address that a link lists twice becomes two holds, and an
intent with the same address of a link twice is refused.
-/

namespace Atlaso.Routing.HeldSources

open Library AddressTexts Dictionary DistinctLists IpAddress
open ItemLists JsonText Outcomes Traversals Reconciliation
open RemovedLinks SlotCapacity SourceOwners SourceRules

/-! ### Parsed interfaces -/

theorem lower_again (text : String) : text.toLower.toLower = text.toLower := by
  apply String.ext
  delta String.toLower
  simp [String.toList_map, to_lower_again]

/-- What the parser makes sure of. -/
structure ValidInterface (row : Interface) : Prop where
  name : interfaceName row.name = true
  mac : unicastMac row.mac = true
  lower : row.mac.toLower = row.mac

theorem parse_interface_valid {row : Json} {interface : Interface}
    (parsed : parseInterface row = .ok interface) : ValidInterface interface := by
  unfold parseInterface at parsed
  split at parsed
  · split at parsed
    · cases parsed
    · split at parsed
      · split at parsed
        · cases parsed
        · next named =>
            split at parsed
            · split at parsed
              · cases parsed
              · next unicast =>
                  split at parsed
                  · cases parsed
                  · obtain ⟨eligible, _, same⟩ := bind_ok_iff.mp parsed
                    obtain rfl := Except.ok.inj same
                    exact ⟨eq_true_of_ne_false named, eq_true_of_ne_false unicast, lower_again _⟩
            · cases parsed
      · cases parsed
  · cases parsed

theorem parse_interface_json {row : Interface} (valid : ValidInterface row) :
    parseInterface (interfaceJson row) = .ok row := by
  obtain ⟨name, mac, table, eligible, known⟩ := row
  obtain ⟨named, unicast, lower⟩ := valid
  simp only at named unicast lower
  rcases known with rfl | rfl <;> rcases eligible with _ | eligible <;>
    simp [interfaceJson, parseInterface, hasExactly, hasOnly, getItem, named, unicast, lower,
      knownTable, managementUi]

theorem parse_hold_json {hold : Hold} (valid : ValidInterface hold.held.interface)
    (usable : Usable hold.address) : parseHeldAddress hold.json = .ok hold.held := by
  obtain ⟨name, mac, address, table, known⟩ := hold
  obtain ⟨named, unicast, lower⟩ := valid
  have read : usableAddress (some (.string address.text)) = .ok address := by
    rw [usableAddress, if_neg (address_text_unscoped address), ip_address_text]
    exact if_pos usable
  simp only [Hold.held] at named unicast lower
  rcases known with rfl | rfl <;>
    simp [Hold.json, Hold.held, parseHeldAddress, parseInterface, hasExactly, hasOnly, getItem,
      named, unicast, lower, knownTable, managementUi, read]

/-- What the parser makes sure of in an intent. -/
structure ValidIntent (intent : Intent) : Prop where
  interfaces : ∀ row ∈ intent.interfaces, ValidInterface row
  few : intent.interfaces.length ≤ 256
  names : (intent.interfaces.map Interface.name).Nodup
  held : (intent.heldAddresses.map fun row => (row.interface.name, row.address)).Nodup

theorem parse_intent_valid {value : Json} {intent : Intent} (parsed : parseIntent value = .ok intent) :
    ValidIntent intent := by
  unfold parseIntent at parsed
  split at parsed
  · split at parsed
    · cases parsed
    · split at parsed
      · cases parsed
      · split at parsed
        · next rows holds _ _ =>
            split at parsed
            · cases parsed
            · next few =>
                obtain ⟨interfaces, rowsParsed, parsed⟩ := bind_ok_iff.mp parsed
                split at parsed
                · cases parsed
                · next names =>
                    obtain ⟨heldAddresses, holdsParsed, parsed⟩ := bind_ok_iff.mp parsed
                    split at parsed
                    · cases parsed
                    · next held =>
                        obtain rfl := Except.ok.inj parsed
                        refine ⟨?_, ?_, not_not.mp names, not_not.mp held⟩
                        · intro row inside
                          obtain ⟨document, _, read⟩ := map_m_source rowsParsed inside
                          exact parse_interface_valid read
                        · rw [← map_m_length rowsParsed]
                          omega
        · cases parsed
  · cases parsed

theorem parse_intent_json {interfaces : List Interface} {holds : List Hold}
    (rows : ∀ row ∈ interfaces, ValidInterface row) (few : interfaces.length ≤ 256)
    (names : (interfaces.map Interface.name).Nodup)
    (held : ∀ hold ∈ holds, ValidInterface hold.held.interface ∧ Usable hold.address) :
    parseIntent (intentJson interfaces holds) = .ok ⟨interfaces, holds.map Hold.held⟩ ↔
      holds.length ≤ maxHeldAddresses ∧
        (holds.map fun hold => (hold.name, hold.address)).Nodup := by
  have readRows : (interfaces.map interfaceJson).mapM parseInterface = .ok interfaces := by
    have read := @map_m_ok _ _ _ interfaces (parseInterface ∘ interfaceJson) id
      fun row inside => parse_interface_json (rows row inside)
    rwa [List.map_id, ← List.mapM_map] at read
  have readHolds : (holds.map Hold.json).mapM parseHeldAddress = .ok (holds.map Hold.held) := by
    rw [List.mapM_map]
    exact map_m_ok Hold.held fun hold inside =>
      parse_hold_json (held hold inside).1 (held hold inside).2
  have keys : (holds.map Hold.held).map (fun row => (row.interface.name, row.address)) =
      holds.map fun hold => (hold.name, hold.address) := List.map_map
  have unfolded : parseIntent (intentJson interfaces holds) =
      if 256 < (interfaces.map interfaceJson).length ∨
          maxHeldAddresses < (holds.map Hold.json).length then
        .error "invalid routing-domain inventory"
      else if ¬(holds.map fun hold => (hold.name, hold.address)).Nodup then
        .error "duplicate held address"
      else .ok ⟨interfaces, holds.map Hold.held⟩ := by
    rw [intentJson, parseIntent]
    simp only [hasOnly, getItem, isNumber, List.all_cons, List.all_nil, List.mem_cons,
      String.reduceEq, true_or, or_true, decide_true, Bool.and_true, Bool.true_eq_false,
      reduceIte, Option.getD_some, Nat.cast_one, readRows, readHolds, ok_bind, keys, names,
      not_true_eq_false]
  rw [unfolded, List.length_map, List.length_map]
  by_cases many : 256 < interfaces.length ∨ maxHeldAddresses < holds.length
  · rw [if_pos many]
    refine iff_of_false (by simp) ?_
    rintro ⟨bound, _⟩
    omega
  · rw [if_neg many]
    by_cases distinct : (holds.map fun hold => (hold.name, hold.address)).Nodup
    · rw [if_neg (not_not.mpr distinct)]
      exact iff_of_true rfl ⟨by omega, distinct⟩
    · rw [if_pos distinct]
      exact iff_of_false (by simp) fun both => distinct both.2

/-! ### The inventory -/

def listedSources (link : Json) : List Address :=
  match link with
  | .object members =>
    match getItem "addr_info" members with
    | some (.array entries) => entries.filterMap fun entry => (entrySource entry).toOption.bind id
    | _ => []
  | _ => []

/-- How `source_tables` reads a link. -/
structure ReadAs (link : Json) (native : NativeLink) : Prop where
  name : linkName link = some native.name
  sources : native.sources = (listedSources link).dedup
  members : ∃ members entries, link = .object members ∧ native.mac = linkMac members ∧
    getItem "addr_info" members = some (.array entries)

theorem listed_of_read {entries : List Json} {sources : List (Option Address)}
    (read : entries.mapM entrySource = .ok sources) :
    sources.filterMap id = entries.filterMap fun entry => (entrySource entry).toOption.bind id := by
  have same := map_m_values (fun entry => (entrySource entry).toOption.bind id) read
    fun entry _ result found => by
      rw [found]
      rfl
  rw [same, List.filterMap_map]
  rfl

variable {link entry inventory : Json}

theorem read_link_ok {known after : List NativeLink} (read : readLink known link = .ok after) :
    ∃ native, after = known ++ [native] ∧ ReadAs link native ∧
      native.name ∉ known.map NativeLink.name := by
  unfold readLink at read
  split at read
  · next members =>
      split at read
      · next name named =>
          split at read
          · cases read
          · next fresh =>
              split at read
              · next entries listed =>
                  split at read
                  · cases read
                  · obtain ⟨sources, found, same⟩ := bind_ok_iff.mp read
                    obtain rfl := Except.ok.inj same
                    refine ⟨_, rfl, ⟨?_, ?_, members, entries, rfl, rfl, listed⟩, fresh⟩
                    · simp [linkName, named]
                    · simp only [listedSources, listed]
                      rw [listed_of_read found]
              · cases read
      · cases read
  · cases read

variable {links : List Json} {natives : List NativeLink} {native : NativeLink} {owner : Interface}
  {names guardOnly : Finset String}

theorem read_links_ok (read : readLinks (.array links) = .ok natives) :
    List.Forall₂ ReadAs links natives ∧ (natives.map NativeLink.name).Nodup := by
  have run : ∀ (links : List Json) (known natives : List NativeLink),
      links.foldlM readLink known = .ok natives → (known.map NativeLink.name).Nodup →
      ∃ added, natives = known ++ added ∧ List.Forall₂ ReadAs links added ∧
        (natives.map NativeLink.name).Nodup := by
    intro links
    induction links with
    | nil =>
      intro known natives read distinct
      obtain rfl := Except.ok.inj read
      exact ⟨[], (List.append_nil _).symm, List.Forall₂.nil, distinct⟩
    | cons link links induction =>
      intro known natives read distinct
      rw [List.foldlM_cons] at read
      obtain ⟨next, here, later⟩ := bind_ok_iff.mp read
      obtain ⟨native, rfl, readAs, fresh⟩ := read_link_ok here
      have longer : ((known ++ [native]).map NativeLink.name).Nodup := by
        rw [List.map_append, List.map_singleton]
        exact List.nodup_append.mpr ⟨distinct, by simp, fun name inside other single same =>
          fresh (List.mem_singleton.mp single ▸ same ▸ inside)⟩
      obtain ⟨added, rfl, pairs, all⟩ := induction _ _ later longer
      exact ⟨native :: added, List.append_assoc _ _ _, List.Forall₂.cons readAs pairs, all⟩
  unfold readLinks at read
  split at read
  · next same =>
      obtain rfl := Json.array.inj same
      split at read
      · cases read
      · obtain ⟨added, rfl, pairs, distinct⟩ := run _ _ _ read List.nodup_nil
        exact ⟨pairs, distinct⟩
  · next other => exact absurd rfl (other links)

theorem entry_source_usable {source : Address}
    (read : (entrySource entry).toOption.bind id = some source) : Usable source := by
  unfold entrySource at read
  split at read
  · split at read
    · split at read
      · cases read
      · split at read
        · cases read
        · simp only [Except.toOption, Option.bind_some, id_eq] at read
          split at read
          · next address found =>
              obtain rfl := Option.some.inj read
              unfold usableAddress at found
              split at found
              · split at found
                · cases found
                · split at found
                  · cases found
                  · split at found
                    · next usable =>
                        obtain rfl := Except.ok.inj found
                        exact usable
                    · cases found
              · cases found
          · cases read
    · cases read
  · cases read

theorem native_usable (read : List.Forall₂ ReadAs links natives) (inside : native ∈ natives)
    {source : Address} (has : source ∈ native.sources) : Usable source := by
  induction read with
  | nil => cases inside
  | cons readAs _ induction =>
    rcases List.mem_cons.mp inside with rfl | later
    · obtain ⟨_, sourced, members, entries, rfl, _, listed⟩ := readAs
      rw [sourced, List.mem_dedup] at has
      simp only [listedSources, listed] at has
      obtain ⟨entry, _, usable⟩ := List.mem_filterMap.mp has
      exact entry_source_usable usable
    · exact induction later

theorem find_link {links : List NativeLink} (distinct : (links.map NativeLink.name).Nodup)
    (inside : native ∈ links) :
    (links.find? fun link => link.name = native.name) = some native := by
  cases found : links.find? fun link => link.name = native.name with
  | none =>
    have differs := List.find?_eq_none.mp found native inside
    exact absurd (decide_eq_true rfl) differs
  | some other =>
    have shape := List.find?_some found
    have same : other.name = native.name := of_decide_eq_true shape
    rw [List.inj_on_of_nodup_map distinct (List.mem_of_find?_eq_some found) inside same]

/-! ### The holds of a link -/

/-- A link whose addresses are held. -/
def isRemoved (names guardOnly : Finset String) (link : Json) : Bool :=
  (linkName link).any fun name => name ∈ names ∧ name ∉ guardOnly

def holdsFor (owner : Interface) (sources : List Address) : List Hold :=
  sources.map fun source => ⟨owner.name, owner.mac, source, owner.table, owner.known⟩

theorem entry_hold_ok {sources : SourceMap} {hold : Option Hold}
    (done : entryHold sources owner entry = .ok hold) :
    (∀ source, (entrySource entry).toOption.bind id = some source →
      getItem source sources.pairs = some (some owner.table)) ∧
    hold = ((entrySource entry).toOption.bind id).map fun source =>
      ⟨owner.name, owner.mac, source, owner.table, owner.known⟩ := by
  unfold entryHold at done
  obtain ⟨read, found, done⟩ := bind_ok_iff.mp done
  rw [found]
  cases read with
  | none =>
    obtain rfl := Except.ok.inj done
    exact ⟨fun source none => (nomatch none), rfl⟩
  | some source =>
    dsimp only at done
    split at done
    · cases done
    · next same =>
        obtain rfl := Except.ok.inj done
        refine ⟨?_, rfl⟩
        rintro other listed
        obtain rfl := Option.some.inj listed
        exact not_not.mp same

theorem link_holds_ok {sources : SourceMap} {owners : List (String × Interface)} {holds : List Hold}
    (readAs : ReadAs link native)
    (done : linkHolds sources owners names guardOnly link = .ok holds) :
    (isRemoved names guardOnly link = false ∧ holds = []) ∨
    (isRemoved names guardOnly link = true ∧ ∃ owner, getItem native.name owners = some owner ∧
      native.mac = owner.mac ∧
      (∀ source ∈ listedSources link, getItem source sources.pairs = some (some owner.table)) ∧
      holds = holdsFor owner (listedSources link)) := by
  obtain ⟨named, _, members, entries, rfl, mac, listed⟩ := readAs
  simp only [linkHolds, named, listed] at done
  by_cases skipped : native.name ∉ names ∨ native.name ∈ guardOnly
  · rw [if_pos skipped] at done
    refine .inl ⟨?_, (Except.ok.inj done).symm⟩
    rw [isRemoved, named, Option.any_some, decide_eq_false_iff_not]
    tauto
  · rw [if_neg skipped] at done
    refine .inr ⟨?_, ?_⟩
    · rw [isRemoved, named, Option.any_some, decide_eq_true_eq]
      tauto
    · cases owned : getItem native.name owners with
      | none =>
        rw [owned] at done
        cases done
      | some owner =>
        rw [owned] at done
        dsimp only at done
        split at done
        · cases done
        · next same =>
            obtain ⟨results, read, done⟩ := bind_ok_iff.mp done
            obtain rfl := Except.ok.inj done
            have each := map_m_values _ read fun entry _ result found => (entry_hold_ok found).2
            refine ⟨owner, rfl, mac.trans (not_not.mp same), ?_, ?_⟩
            · intro source inside
              simp only [listedSources, listed] at inside
              obtain ⟨entry, member, usable⟩ := List.mem_filterMap.mp inside
              obtain ⟨result, checked⟩ := map_m_image read member
              exact (entry_hold_ok checked).1 source usable
            · simp only [each, listedSources, listed, holdsFor, List.filterMap_map,
                List.map_filterMap]
              rfl

/-! ### All holds -/

def removedLinks (names guardOnly : Finset String) (inventory : Json) : List Json :=
  match inventory with
  | .array links => links.filter (isRemoved names guardOnly)
  | _ => []

def linkKeys (link : Json) : List (String × Address) :=
  (listedSources link).map fun source => ((linkName link).getD "", source)

structure Holds (intent : Intent) (sources : SourceMap) (names guardOnly : Finset String)
    (links : List Json) (natives : List NativeLink) (holds : List Hold) : Prop where
  keys : (holds.map fun hold => (hold.name, hold.address)) =
    (links.filter (isRemoved names guardOnly)).flatMap linkKeys
  owned : ∀ native ∈ natives, native.name ∈ names → native.name ∉ guardOnly →
    ∃ owner ∈ intent.interfaces, owner.name = native.name ∧ native.mac = owner.mac ∧
      ∀ source ∈ native.sources, getItem source sources.pairs = some (some owner.table) ∧
        (⟨owner.name, owner.mac, source, owner.table, owner.known⟩ : Hold) ∈ holds
  origins : ∀ hold ∈ holds, ∃ native ∈ natives, ∃ owner ∈ intent.interfaces,
    owner.name = native.name ∧ hold = ⟨owner.name, owner.mac, hold.address, owner.table, owner.known⟩ ∧
      hold.address ∈ native.sources

theorem owner_listed {rows : List Interface} {name : String}
    (found : getItem name (ofPairs ((rows.filter fun row => row.name ∈ names).map fun row =>
      (row.name, row))) = some owner) : owner ∈ rows ∧ owner.name = name := by
  obtain ⟨row, member, same⟩ := List.mem_map.mp (mem_of_pairs (mem_of_get_item found))
  obtain ⟨rfl, rfl⟩ := Prod.mk.inj same
  exact ⟨(List.mem_filter.mp member).1, rfl⟩

theorem link_holds_all {intent : Intent} {sources : SourceMap} {results : List (List Hold)}
    (read : List.Forall₂ ReadAs links natives) (done : List.Forall₂ (fun link holds => linkHolds
      sources (ofPairs ((intent.interfaces.filter fun row => row.name ∈ names).map fun row =>
      (row.name, row))) names guardOnly link = .ok holds) links results) :
    Holds intent sources names guardOnly links natives results.flatten := by
  induction read generalizing results with
  | nil =>
    cases done
    exact ⟨rfl, fun _ inside => absurd inside List.not_mem_nil,
      fun _ inside => absurd inside List.not_mem_nil⟩
  | @cons link native links natives readAs _ induction =>
    obtain ⟨holds, rest, here, later, rfl⟩ := List.forall₂_cons_left_iff.mp done
    have earlier := induction later
    rw [List.flatten_cons]
    rcases link_holds_ok readAs here with ⟨passed, rfl⟩ |
      ⟨removed, owner, found, mac, tables, rfl⟩
    · refine ⟨?_, ?_, ?_⟩
      · rw [List.nil_append, earlier.keys, List.filter_cons_of_neg (by rw [passed]; simp)]
      · intro other inside named guarded
        rcases List.mem_cons.mp inside with rfl | member
        · rw [isRemoved, readAs.name, Option.any_some, decide_eq_false_iff_not] at passed
          exact absurd ⟨named, guarded⟩ passed
        · exact earlier.owned other member named guarded
      · intro hold inside
        obtain ⟨other, member, origin⟩ := earlier.origins hold inside
        exact ⟨other, List.mem_cons_of_mem _ member, origin⟩
    · obtain ⟨listed, name⟩ := owner_listed found
      refine ⟨?_, ?_, ?_⟩
      · rw [List.map_append, earlier.keys, List.filter_cons_of_pos removed, List.flatMap_cons]
        apply congrArg (· ++ _)
        rw [holdsFor, List.map_map, linkKeys, readAs.name]
        apply List.map_congr_left
        intro source _
        rw [← name]
        rfl
      · intro other inside named guarded
        rcases List.mem_cons.mp inside with rfl | member
        · refine ⟨owner, listed, name, mac, ?_⟩
          intro source has
          rw [readAs.sources, List.mem_dedup] at has
          exact ⟨tables source has, List.mem_append_left _ (List.mem_map_of_mem has)⟩
        · obtain ⟨other', listed', name', mac', sources'⟩ :=
            earlier.owned other member named guarded
          refine ⟨other', listed', name', mac', ?_⟩
          intro source has
          exact ⟨(sources' source has).1, List.mem_append_right _ (sources' source has).2⟩
      · intro hold inside
        rcases List.mem_append.mp inside with first | others
        · obtain ⟨source, has, rfl⟩ := List.mem_map.mp first
          refine ⟨native, List.mem_cons_self, owner, listed, name, rfl, ?_⟩
          rw [readAs.sources, List.mem_dedup]
          exact has
        · obtain ⟨other, member, origin⟩ := earlier.origins hold others
          exact ⟨other, List.mem_cons_of_mem _ member, origin⟩

theorem removed_holds_ok {intent : Intent} {holds : List Hold}
    (done : removedInterfaceHolds intent inventory names guardOnly = .ok holds) :
    ∃ links natives sources, inventory = .array links ∧ readLinks inventory = .ok natives ∧
      sourceTables (Intent.without intent (names \ (links.filterMap linkName).toFinset)) inventory =
        .ok (sources, false) ∧
      Holds intent sources names guardOnly links natives holds := by
  unfold removedInterfaceHolds at done
  split at done
  · cases done
  · split at done
    · cases done
    · split at done
      · next links =>
          split at done
          · cases done
          · obtain ⟨⟨sources, incomplete⟩, resolved, done⟩ := bind_ok_iff.mp done
            dsimp only at done
            split at done
            · cases done
            · next proven =>
                obtain ⟨results, each, done⟩ := bind_ok_iff.mp done
                obtain rfl := Except.ok.inj done
                obtain ⟨natives, read, _⟩ := bind_ok_iff.mp resolved
                rw [Bool.or_eq_true, not_or, Bool.not_eq_true] at proven
                refine ⟨links, natives, sources, rfl, read, ?_, ?_⟩
                · rw [resolved, proven.1]
                · exact link_holds_all (read_links_ok read).1 (map_m_forall each)
      · cases done

/-! ### The table of a held source -/

theorem held_owner_some {intent : Intent} {name : String} {source : Address} {held : Interface}
    (found : heldOwner intent name source = some held) :
    ∃ row ∈ intent.heldAddresses, row.interface = held ∧ row.interface.name = name ∧
      row.address = source := by
  obtain ⟨row, present, same⟩ := Option.map_eq_some_iff.mp found
  obtain ⟨other, member, pair⟩ := List.mem_map.mp (mem_of_pairs (mem_of_get_item present))
  obtain ⟨key, rfl⟩ := Prod.mk.inj pair
  obtain ⟨rfl, rfl⟩ := Prod.mk.inj key
  exact ⟨other, member, same, rfl, rfl⟩

theorem held_owner_none {intent : Intent} {name : String} {source : Address}
    (absent : heldOwner intent name source = none) :
    ∀ row ∈ intent.heldAddresses, ¬(row.interface.name = name ∧ row.address = source) := by
  rintro row inside ⟨rfl, rfl⟩
  have missing := get_item_none.mp (Option.map_eq_none_iff.mp absent)
  rw [mem_keys_of_pairs] at missing
  exact missing (List.mem_map_of_mem (List.mem_map_of_mem inside))

theorem held_source_table {next : Intent} (distinct : (natives.map NativeLink.name).Nodup)
    (inside : native ∈ natives) {source : Address} (has : source ∈ native.sources)
    (single : OnOneLink natives source) (name : owner.name = native.name)
    (mac : native.mac = owner.mac) (held : ∀ row ∈ next.heldAddresses, row.interface.name =
      native.name → row.address = source → row.interface.mac = owner.mac ∧ row.interface.table =
      owner.table) (listed : ∀ row ∈ next.interfaces, row.name = native.name → row = owner)
    (known : owner ∈ next.interfaces ∨ ∃ row ∈ next.heldAddresses, row.interface.name = native.name
      ∧ row.address = source) :
    getItem source ((collectTables next natives).1.map fun entry =>
      (entry.1, resolvedTable natives entry.1 entry.2)) = some (some owner.table) := by
  have found := find_link distinct inside
  -- A hold of the source decides, whichever owner asks for it.
  have decided : ∀ holder, heldOwner next native.name source = some holder →
      holder.mac = owner.mac ∧ holder.table = owner.table := by
    intro holder holding
    obtain ⟨row, member, rfl, named, address⟩ := held_owner_some holding
    exact held row member named address
  rw [assigned_iff]
  refine ⟨?_, ?_, single⟩
  · rcases known with interface | ⟨row, member, named, address⟩
    · obtain ⟨other, belongs, isListed, same⟩ := interface_owner interface
      obtain ⟨sameName, sameMac⟩ := Prod.mk.inj same
      have otherName : other.name = native.name := sameName.trans name
      obtain rfl := listed other isListed otherName
      refine ⟨other, belongs, native, otherName ▸ found, mac, has, ?_⟩
      rw [ownedSourceTable, otherName]
      cases holding : heldOwner next native.name source with
      | none => exact if_pos isListed
      | some holder =>
        obtain ⟨holderMac, holderTable⟩ := decided holder holding
        simp only
        rw [if_pos holderMac, holderTable]
    · obtain ⟨other, belongs, same⟩ := held_owner member
      obtain ⟨sameName, sameMac⟩ := Prod.mk.inj same
      have otherName : other.name = native.name := sameName.trans named
      have otherMac : other.mac = owner.mac := sameMac.trans (held row member named address).1
      refine ⟨other, belongs, native, otherName ▸ found, mac.trans otherMac.symm, has, ?_⟩
      rw [ownedSourceTable, otherName]
      cases holding : heldOwner next native.name source with
      | none => exact absurd ⟨named, address⟩ (held_owner_none holding row member)
      | some holder =>
        obtain ⟨holderMac, holderTable⟩ := decided holder holding
        simp only
        rw [if_pos (holderMac.trans otherMac.symm), holderTable]
  · rintro other belongs table ⟨link, linkFound, linkMac, linkHas, given⟩
    have same : link = native := by
      obtain ⟨only, shape⟩ := List.length_eq_one_iff.mp single
      have first : link ∈ natives.filter fun link => source ∈ link.sources :=
        List.mem_filter.mpr ⟨List.mem_of_find?_eq_some linkFound, decide_eq_true linkHas⟩
      have second : native ∈ natives.filter fun link => source ∈ link.sources :=
        List.mem_filter.mpr ⟨inside, decide_eq_true has⟩
      rw [shape] at first second
      rw [List.mem_singleton.mp first, List.mem_singleton.mp second]
    subst same
    have shape := List.find?_some linkFound
    have otherName : other.name = link.name := (of_decide_eq_true shape).symm
    have otherMac : other.mac = owner.mac := linkMac.symm.trans mac
    rw [ownedSourceTable, otherName] at given
    cases holding : heldOwner next link.name source with
    | none =>
      rw [holding] at given
      dsimp only at given
      split at given
      · next isListed =>
          rw [listed other isListed otherName] at given
          exact (Option.some.inj given).symm
      · cases given
    | some holder =>
      obtain ⟨holderMac, holderTable⟩ := decided holder holding
      rw [holding] at given
      dsimp only at given
      rw [if_pos (holderMac.trans otherMac.symm), holderTable] at given
      exact (Option.some.inj given).symm

theorem held_before {intent : Intent} (valid : ValidIntent intent) {absent : Finset String}
    (distinct : (natives.map NativeLink.name).Nodup)
    (complete : (collectTables (Intent.without intent absent) natives).2 = false)
    (inside : native ∈ natives) (present : native.name ∉ absent) {row : HeldAddress}
    (member : row ∈ intent.heldAddresses) (named : row.interface.name = native.name)
    (mac : native.mac = owner.mac) (has : row.address ∈ native.sources)
    (tables : getItem row.address ((collectTables (Intent.without intent absent) natives).1.map fun
      entry => (entry.1, resolvedTable natives entry.1 entry.2)) = some (some owner.table)) :
    row.interface.mac = owner.mac ∧ row.interface.table = owner.table := by
  have found := find_link distinct inside
  have kept : row ∈ (Intent.without intent absent).heldAddresses :=
    List.mem_filter.mpr ⟨member, decide_eq_true (named ▸ present)⟩
  obtain ⟨other, belongs, same⟩ := held_owner kept
  obtain ⟨sameName, sameMac⟩ := Prod.mk.inj same
  have otherName : other.name = native.name := sameName.trans named
  obtain ⟨link, linkFound, linkMac⟩ := complete_iff.mp complete other belongs
  rw [otherName, found] at linkFound
  obtain rfl := Option.some.inj linkFound
  have rowMac : row.interface.mac = native.mac := sameMac.symm.trans linkMac.symm
  refine ⟨rowMac.trans mac, ?_⟩
  have holding : heldOwner (Intent.without intent absent) native.name row.address =
      some row.interface := by
    rw [heldOwner, (get_item_of_pairs ?_).mpr (List.mem_map.mpr ⟨row, kept, by rw [named]⟩)]
    · rfl
    · intro first firstInside second secondInside key
      obtain ⟨left, leftMember, rfl⟩ := List.mem_map.mp firstInside
      obtain ⟨right, rightMember, rfl⟩ := List.mem_map.mp secondInside
      exact List.inj_on_of_nodup_map valid.held (List.mem_filter.mp leftMember).1
        (List.mem_filter.mp rightMember).1 key
  have gives : Gives (Intent.without intent absent) natives other row.address
      row.interface.table := by
    refine ⟨native, otherName ▸ found, linkMac, has, ?_⟩
    rw [ownedSourceTable, otherName, holding]
    exact if_pos sameMac.symm
  exact (assigned_iff.mp tables).2.1 other belongs _ gives

/-! ### Both halves -/

def remaining (intent : Intent) (names : Finset String) : List Interface :=
  intent.interfaces.filter fun row => row.name ∉ names

/-- The holds are accepted as the held addresses of an intent, and the sources of the removed
links keep their tables, whichever of the earlier held addresses the intent keeps. -/
structure Kept (intent : Intent) (inventory : Json) (names guardOnly : Finset String)
    (holds : List Hold) : Prop where
  accepted : parseIntent (intentJson (remaining intent names) holds) =
    .ok ⟨remaining intent names, holds.map Hold.held⟩
  tables : ∀ earlier, (∀ row ∈ earlier, row ∈ intent.heldAddresses) →
    ∃ links before after incomplete missing, readLinks inventory = .ok links ∧
      sourceTables intent inventory = .ok (before, incomplete) ∧
      sourceTables ⟨remaining intent names, earlier ++ holds.map Hold.held⟩ inventory =
        .ok (after, missing) ∧
      ∀ link ∈ links, link.name ∈ names → link.name ∉ guardOnly → ∀ source ∈ link.sources,
        ∃ table, getItem source before.pairs = some (some table) ∧
          getItem source after.pairs = some (some table)

structure ListedOnce (names guardOnly : Finset String) (inventory : Json) : Prop where
  single : ∀ link ∈ removedLinks names guardOnly inventory, (listedSources link).Nodup
  bounded : ((removedLinks names guardOnly inventory).map fun link =>
    (listedSources link).length).sum ≤ maxHeldAddresses

theorem names_nodup (read : List.Forall₂ ReadAs links natives)
    (distinct : (natives.map NativeLink.name).Nodup) :
    (links.map fun link => (linkName link).getD "").Nodup := by
  have same : links.map (fun link => (linkName link).getD "") = natives.map NativeLink.name := by
    clear distinct
    induction read with
    | nil => rfl
    | cons readAs _ induction =>
      rw [List.map_cons, List.map_cons, induction, readAs.name]
      rfl
  rw [same]
  exact distinct

theorem keys_listed_once (read : List.Forall₂ ReadAs links natives)
    (distinct : (natives.map NativeLink.name).Nodup) (names guardOnly : Finset String) :
    (((links.filter (isRemoved names guardOnly)).flatMap linkKeys).length ≤ maxHeldAddresses ∧
      ((links.filter (isRemoved names guardOnly)).flatMap linkKeys).Nodup) ↔
    ListedOnce names guardOnly (.array links) := by
  have size : ((links.filter (isRemoved names guardOnly)).flatMap linkKeys).length =
      ((removedLinks names guardOnly (.array links)).map fun link =>
        (listedSources link).length).sum := by
    rw [List.length_flatMap]
    apply congrArg
    apply List.map_congr_left
    intro link _
    exact List.length_map _
  rw [size]
  constructor
  · rintro ⟨bounded, nodup⟩
    refine ⟨?_, bounded⟩
    intro link inside
    exact List.Nodup.of_map _ ((List.nodup_flatMap.mp nodup).1 link inside)
  · intro once
    refine ⟨once.bounded, ?_⟩
    apply nodup_flat_map (fun link => (linkName link).getD "") Prod.fst
    · exact (names_nodup read distinct).sublist (List.filter_sublist.map _)
    · intro link inside
      exact (once.single link inside).map fun _ _ same => (Prod.mk.inj same).2
    · intro link _ key member
      obtain ⟨source, _, rfl⟩ := List.mem_map.mp member
      rfl

theorem source_tables_ok {intent : Intent} (read : readLinks inventory = .ok natives) : ∃ sources,
      sourceTables intent inventory = .ok (sources, (collectTables intent natives).2) ∧
      sources.pairs = (collectTables intent natives).1.map fun entry =>
        (entry.1, resolvedTable natives entry.1 entry.2) := by
  rw [sourceTables, read]
  exact ⟨_, rfl, rfl⟩

/-- Holding the addresses of removed links keeps their routing exactly when no link lists an
address twice and the addresses are not too many. -/
theorem holds_kept_iff (document inventory : Json) (intent : Intent)
    (names guardOnly : Finset String) (holds : List Hold)
    (parsed : parseIntent document = .ok intent)
    (returned : removedInterfaceHolds intent inventory names guardOnly = .ok holds) :
    Kept intent inventory names guardOnly holds ↔ ListedOnce names guardOnly inventory := by
  have valid := parse_intent_valid parsed
  obtain ⟨links, natives, sources, rfl, read, resolved, held⟩ := removed_holds_ok returned
  obtain ⟨pairs, distinct⟩ := read_links_ok read
  set absent := names \ (links.filterMap linkName).toFinset
  obtain ⟨_, before, shape⟩ := @source_tables_ok _ _ (Intent.without intent absent) read
  rw [resolved] at before
  obtain ⟨rfl, complete⟩ := Prod.mk.inj (Except.ok.inj before)
  have present : ∀ native ∈ natives, native.name ∉ absent := by
    intro native inside missing
    have listed : native.name ∈ links.filterMap linkName := by
      clear held read resolved returned shape complete before missing
      induction pairs with
      | nil => cases inside
      | cons readAs _ induction =>
        rw [List.filterMap_cons, readAs.name]
        rcases List.mem_cons.mp inside with rfl | later
        · exact List.mem_cons_self
        · exact List.mem_cons_of_mem _ (induction (List.nodup_cons.mp distinct).2 later)
    exact (Finset.mem_sdiff.mp missing).2 (List.mem_toFinset.mpr listed)
  -- The holds are rows of an intent but for repetitions and their number.
  have accepted : parseIntent (intentJson (remaining intent names) holds) =
      .ok ⟨remaining intent names, holds.map Hold.held⟩ ↔
        ListedOnce names guardOnly (.array links) := by
    rw [parse_intent_json, ← keys_listed_once pairs distinct, ← held.keys, List.length_map]
    · exact fun row inside => valid.interfaces row (List.mem_filter.mp inside).1
    · exact (List.length_filter_le _ _).trans valid.few
    · exact valid.names.sublist (List.filter_sublist.map _)
    · intro hold inside
      obtain ⟨native, member, owner, listed, _, same, has⟩ := held.origins hold inside
      have owned := valid.interfaces owner listed
      refine ⟨?_, ?_⟩
      · rw [same]
        exact ⟨owned.name, owned.mac, owned.lower⟩
      · exact native_usable pairs member has
  refine ⟨fun kept => accepted.mp kept.accepted, fun once => ⟨accepted.mpr once, ?_⟩⟩
  intro earlier known
  obtain ⟨original, first, firstPairs⟩ := @source_tables_ok _ _ intent read
  obtain ⟨next, second, secondPairs⟩ :=
    @source_tables_ok _ _ ⟨remaining intent names, earlier ++ holds.map Hold.held⟩ read
  refine ⟨natives, original, next, _, _, read, first, second, ?_⟩
  intro native inside removed guarded source has
  obtain ⟨owner, listed, name, mac, tables⟩ := held.owned native inside removed guarded
  obtain ⟨table, holding⟩ := tables source has
  rw [shape] at table
  have single := (assigned_iff.mp table).2.2
  have unique : ∀ row ∈ intent.interfaces, row.name = native.name → row = owner := by
    intro row member same
    exact List.inj_on_of_nodup_map valid.names member listed (same.trans name.symm)
  have heldRows : ∀ row ∈ intent.heldAddresses, row.interface.name = native.name →
      row.address = source →
      row.interface.mac = owner.mac ∧ row.interface.table = owner.table := by
    rintro row member named rfl
    exact held_before valid distinct complete.symm inside (present native inside) member named mac
      has table
  refine ⟨owner.table, ?_, ?_⟩
  · rw [firstPairs]
    exact held_source_table distinct inside has single name mac heldRows unique (.inl listed)
  · rw [secondPairs]
    apply held_source_table distinct inside has single name mac
    · intro row member named address
      rcases List.mem_append.mp member with old | new
      · exact heldRows row (known row old) named address
      · obtain ⟨hold, belongs, rfl⟩ := List.mem_map.mp new
        obtain ⟨other, _, holder, isListed, _, same, _⟩ := held.origins hold belongs
        have holderName : holder.name = native.name := by
          rw [same] at named
          exact named
        obtain rfl := unique holder isListed holderName
        rw [same]
        exact ⟨rfl, rfl⟩
    · intro row member same
      have stays := of_decide_eq_true (List.mem_filter.mp member).2
      exact absurd (same ▸ removed) stays
    · exact .inr ⟨_, List.mem_append_right _ (List.mem_map_of_mem holding), name, rfl⟩

deriving instance DecidableEq for Intent

/-! A VLAN that is removed while its link is still there, with the addresses that it lists. -/

def sampleDocument : Json := .object
  [("schema", .int 1), ("interfaces", .array [.object [("name", .string "eth1.120"),
    ("mac", .string "02:00:00:00:01:20"), ("table", .int 200)]])]

def sampleInventory (addresses : List (String × Int)) : Json := .array [.object
  [("ifname", .string "eth1.120"), ("address", .string "02:00:00:00:01:20"),
    ("addr_info", .array (addresses.map fun address => .object
      [("local", .string address.1), ("prefixlen", .int address.2)]))]]

def sampleOwner : Interface := ⟨"eth1.120", "02:00:00:00:01:20", 200, none, table_200_known⟩

def sampleHolds (sources : List Address) : List Hold := holdsFor sampleOwner sources

def sampleAddress : Address := .v4 0xc0000214#32

theorem sample_parsed : parseIntent sampleDocument = .ok ⟨[sampleOwner], []⟩ := by
  decide +kernel

theorem sample_holds_kept :
    Kept ⟨[sampleOwner], []⟩ (sampleInventory [("192.0.2.20", 24)]) {"eth1.120"} ∅
      (sampleHolds [sampleAddress]) :=
  (holds_kept_iff sampleDocument (sampleInventory [("192.0.2.20", 24)]) ⟨[sampleOwner], []⟩
    {"eth1.120"} ∅ (sampleHolds [sampleAddress]) sample_parsed (by decide +kernel)).mpr
    ⟨by decide +kernel, by decide +kernel⟩

/-- One address with two prefix lengths is held twice, and the intent with the holds is refused. -/
theorem repeated_address_exception :
    parseIntent sampleDocument = .ok ⟨[sampleOwner], []⟩ ∧
    removedInterfaceHolds ⟨[sampleOwner], []⟩
      (sampleInventory [("192.0.2.20", 24), ("192.0.2.20", 32)]) {"eth1.120"} ∅ =
        .ok (sampleHolds [sampleAddress, sampleAddress]) ∧
    ¬Kept ⟨[sampleOwner], []⟩ (sampleInventory [("192.0.2.20", 24), ("192.0.2.20", 32)])
      {"eth1.120"} ∅ (sampleHolds [sampleAddress, sampleAddress]) := by
  refine ⟨sample_parsed, by decide +kernel, ?_⟩
  intro kept
  exact absurd kept.accepted (by decide +kernel)

end Atlaso.Routing.HeldSources
