import Atlaso.Library.Outcomes
import Atlaso.Routing.Reconciliation

/-!
Which owners give a table to a source.

The tables that are collected for a source are those that its owners give, so a source has one
table when all owners of the one link that has it agree.
-/

namespace Atlaso.Routing.SourceOwners

open Library Dictionary IpAddress JsonText Outcomes Reconciliation
open SourceRules

variable {intent : Intent} {links : List NativeLink} {source : Address} {owner : Interface}
  {table : Nat}

/-! ### Owners -/

def identity (row : Interface) : String × String := (row.name, row.mac)

def interfaceItems (intent : Intent) : List ((String × String) × Interface) :=
  ofPairs (intent.interfaces.map fun row => (identity row, row))

def ownerItems (known : List ((String × String) × Interface)) (rows : List HeldAddress) :
    List ((String × String) × Interface) :=
  rows.foldl (fun known row =>
    match getItem (identity row.interface) known with
    | some _ => known
    | none => setItem (identity row.interface) row.interface known) known

theorem owners_eq (intent : Intent) :
    owners intent = (ownerItems (interfaceItems intent) intent.heldAddresses).map Prod.snd := rfl

theorem interface_item {entry : (String × String) × Interface}
    (inside : entry ∈ interfaceItems intent) :
    entry.2 ∈ intent.interfaces ∧ entry.1 = identity entry.2 := by
  obtain ⟨row, member, rfl⟩ := List.mem_map.mp (mem_of_pairs inside)
  exact ⟨member, rfl⟩

theorem interface_key {row : Interface} (inside : row ∈ intent.interfaces) :
    ∃ entry ∈ interfaceItems intent, entry.1 = identity row := by
  have present : identity row ∈ (interfaceItems intent).map Prod.fst := by
    rw [interfaceItems, mem_keys_of_pairs]
    exact List.mem_map_of_mem (List.mem_map_of_mem inside)
  obtain ⟨entry, member, same⟩ := List.mem_map.mp present
  exact ⟨entry, member, same⟩

theorem owner_items_split (known : List ((String × String) × Interface)) (rows : List HeldAddress) :
    ∃ added, ownerItems known rows = known ++ added ∧
      (∀ entry ∈ added, ∃ row ∈ rows, entry = (identity row.interface, row.interface)) ∧
      ∀ row ∈ rows, identity row.interface ∈ (known ++ added).map Prod.fst := by
  induction rows generalizing known with
  | nil => exact ⟨[], (List.append_nil known).symm, by simp, by simp⟩
  | cons row rows induction =>
    rw [ownerItems, List.foldl_cons]
    cases found : getItem (identity row.interface) known with
    | some held =>
      obtain ⟨added, shape, from', keys⟩ := induction known
      refine ⟨added, shape, ?_, ?_⟩
      · intro entry inside
        obtain ⟨other, later, same⟩ := from' entry inside
        exact ⟨other, List.mem_cons_of_mem _ later, same⟩
      · intro other inside
        rcases List.mem_cons.mp inside with rfl | later
        · rw [List.map_append]
          exact List.mem_append_left _ (List.mem_map_of_mem (mem_of_get_item found))
        · exact keys other later
    | none =>
      have new := set_item_new (identity row.interface) row.interface known
        (get_item_none.mp found)
      obtain ⟨added, shape, from', keys⟩ :=
        induction (known ++ [(identity row.interface, row.interface)])
      refine ⟨(identity row.interface, row.interface) :: added, ?_, ?_, ?_⟩
      · simp only [new]
        rw [← ownerItems, shape, List.append_assoc]
        rfl
      · intro entry inside
        rcases List.mem_cons.mp inside with rfl | later
        · exact ⟨row, List.mem_cons_self, rfl⟩
        · obtain ⟨other, member, same⟩ := from' entry later
          exact ⟨other, List.mem_cons_of_mem _ member, same⟩
      · intro other inside
        have present : identity other.interface ∈
            (known ++ [(identity row.interface, row.interface)] ++ added).map Prod.fst := by
          rcases List.mem_cons.mp inside with rfl | later
          · simp
          · exact keys other later
        rwa [List.append_assoc] at present

theorem interface_owner {row : Interface} (inside : row ∈ intent.interfaces) :
    ∃ owner ∈ owners intent, owner ∈ intent.interfaces ∧ identity owner = identity row := by
  obtain ⟨added, shape, _, _⟩ := owner_items_split (interfaceItems intent) intent.heldAddresses
  obtain ⟨entry, member, same⟩ := interface_key inside
  obtain ⟨listed, key⟩ := interface_item member
  refine ⟨entry.2, ?_, listed, key.symm.trans same⟩
  rw [owners_eq, shape]
  exact List.mem_map_of_mem (List.mem_append_left _ member)

theorem held_owner {row : HeldAddress} (inside : row ∈ intent.heldAddresses) :
    ∃ owner ∈ owners intent, identity owner = identity row.interface := by
  obtain ⟨added, shape, from', keys⟩ :=
    owner_items_split (interfaceItems intent) intent.heldAddresses
  obtain ⟨entry, member, same⟩ := List.mem_map.mp (keys row inside)
  refine ⟨entry.2, ?_, ?_⟩
  · rw [owners_eq, shape]
    exact List.mem_map_of_mem member
  · rcases List.mem_append.mp member with first | later
    · exact (interface_item first).2.symm.trans same
    · obtain ⟨other, _, rfl⟩ := from' entry later
      exact same

/-! ### Collected tables -/

def Gives (intent : Intent) (links : List NativeLink) (owner : Interface) (source : Address)
    (table : Nat) : Prop :=
  ∃ link, (links.find? fun link => link.name = owner.name) = some link ∧ link.mac = owner.mac ∧
    source ∈ link.sources ∧ ownedSourceTable intent owner source = some table

def tablesOf (source : Address) (tables : List (Address × List Nat)) : List Nat :=
  (getItem source tables).getD []

theorem mem_tables_of_set {tables : List (Address × List Nat)} {other : Address} {number : Nat} :
    table ∈ tablesOf source (setItem other (((getItem other tables).getD []).insert number) tables) ↔
      table ∈ tablesOf source tables ∨ source = other ∧ table = number := by
  rw [tablesOf, get_item_set_item]
  by_cases same : source = other
  · subst same
    rw [if_pos rfl, Option.getD_some, List.mem_insert_iff, or_comm, tablesOf]
    simp
  · rw [if_neg same, tablesOf]
    simp [same]

theorem mem_tables_of_sources (sources : List Address) {tables : List (Address × List Nat)} :
    table ∈ tablesOf source (sources.foldl (fun tables source =>
        match ownedSourceTable intent owner source with
        | none => tables
        | some table => setItem source (((getItem source tables).getD []).insert table) tables)
        tables) ↔
      table ∈ tablesOf source tables ∨
        source ∈ sources ∧ ownedSourceTable intent owner source = some table := by
  induction sources generalizing tables with
  | nil => simp
  | cons first sources induction =>
    rw [List.foldl_cons, induction, List.mem_cons]
    cases given : ownedSourceTable intent owner first with
    | none =>
      simp only
      constructor
      · rintro (before | ⟨later, owned⟩)
        · exact .inl before
        · exact .inr ⟨.inr later, owned⟩
      · rintro (before | ⟨rfl | later, owned⟩)
        · exact .inl before
        · rw [given] at owned
          cases owned
        · exact .inr ⟨later, owned⟩
    | some number =>
      simp only
      rw [mem_tables_of_set]
      constructor
      · rintro ((before | ⟨rfl, rfl⟩) | ⟨later, owned⟩)
        · exact .inl before
        · exact .inr ⟨.inl rfl, given⟩
        · exact .inr ⟨.inr later, owned⟩
      · rintro (before | ⟨rfl | later, owned⟩)
        · exact .inl (.inl before)
        · rw [given] at owned
          exact .inl (.inr ⟨rfl, (Option.some.inj owned).symm⟩)
        · exact .inr ⟨later, owned⟩

theorem mem_tables_of_owner {state : List (Address × List Nat) × Bool} :
    table ∈ tablesOf source (addOwner intent links state owner).1 ↔
      table ∈ tablesOf source state.1 ∨ Gives intent links owner source table := by
  unfold addOwner
  cases found : links.find? fun link => link.name = owner.name with
  | none => simp [Gives, found]
  | some link =>
    simp only
    by_cases mac : link.mac = owner.mac
    · rw [if_neg (not_not.mpr mac)]
      apply (@mem_tables_of_sources intent source owner table link.sources state.1).trans
      simp [Gives, found, mac]
    · rw [if_pos mac]
      simp [Gives, found, mac]

theorem mem_collected : table ∈ tablesOf source (collectTables intent links).1 ↔
    ∃ owner ∈ owners intent, Gives intent links owner source table := by
  have run : ∀ (rows : List Interface) (state : List (Address × List Nat) × Bool),
      table ∈ tablesOf source (rows.foldl (addOwner intent links) state).1 ↔
        table ∈ tablesOf source state.1 ∨ ∃ owner ∈ rows, Gives intent links owner source table := by
    intro rows
    induction rows with
    | nil => simp
    | cons row rows induction =>
      intro state
      rw [List.foldl_cons, induction, mem_tables_of_owner, or_assoc]
      simp
  rw [collectTables, run]
  simp [tablesOf, getItem]

theorem tables_nodup {tables : List (Address × List Nat)} :
    (∀ entry ∈ tables, entry.2.Nodup ∧ entry.2 ≠ []) →
      (tablesOf source tables).Nodup := by
  intro distinct
  cases found : getItem source tables with
  | none => simp [tablesOf, found]
  | some numbers =>
    rw [tablesOf, found]
    exact (distinct _ (mem_of_get_item found)).1

theorem collected_tables : ∀ entry ∈ (collectTables intent links).1,
    entry.2.Nodup ∧ entry.2 ≠ [] := by
  have set : ∀ (tables : List (Address × List Nat)) (source : Address) (number : Nat),
      (∀ entry ∈ tables, entry.2.Nodup ∧ entry.2 ≠ []) →
      ∀ entry ∈ setItem source (((getItem source tables).getD []).insert number) tables,
        entry.2.Nodup ∧ entry.2 ≠ [] := by
    intro tables source number known entry inside
    rcases mem_set_item inside with rfl | kept
    · refine ⟨List.Nodup.insert (tables_nodup known), ?_⟩
      exact List.ne_nil_of_mem (List.mem_insert_self)
    · exact known entry kept
  have sources : ∀ (intent : Intent) (owner : Interface) (sources : List Address)
      (tables : List (Address × List Nat)), (∀ entry ∈ tables, entry.2.Nodup ∧ entry.2 ≠ []) →
      ∀ entry ∈ sources.foldl (fun tables source =>
        match ownedSourceTable intent owner source with
        | none => tables
        | some table => setItem source (((getItem source tables).getD []).insert table) tables)
        tables, entry.2.Nodup ∧ entry.2 ≠ [] := by
    intro intent owner sources
    induction sources with
    | nil => exact fun tables known => known
    | cons first sources induction =>
      intro tables known
      rw [List.foldl_cons]
      apply induction
      cases ownedSourceTable intent owner first with
      | none => exact known
      | some number => exact set tables first number known
  have run : ∀ (rows : List Interface) (state : List (Address × List Nat) × Bool),
      (∀ entry ∈ state.1, entry.2.Nodup ∧ entry.2 ≠ []) →
      ∀ entry ∈ (rows.foldl (addOwner intent links) state).1, entry.2.Nodup ∧ entry.2 ≠ [] := by
    intro rows
    induction rows with
    | nil => exact fun state known => known
    | cons row rows induction =>
      intro state known
      rw [List.foldl_cons]
      apply induction
      unfold addOwner
      split
      · exact known
      · split
        · exact known
        · exact sources _ _ _ _ known
  exact run _ _ (by simp)

/-! ### The table of a source -/

def OnOneLink (links : List NativeLink) (source : Address) : Prop :=
  (links.filter fun link => source ∈ link.sources).length = 1

theorem assigned_iff : getItem source ((collectTables intent links).1.map fun entry =>
      (entry.1, resolvedTable links entry.1 entry.2)) = some (some table) ↔
    (∃ owner ∈ owners intent, Gives intent links owner source table) ∧
      (∀ owner ∈ owners intent, ∀ other, Gives intent links owner source other → other = table) ∧
      OnOneLink links source := by
  have distinct := collect_tables_distinct intent links
  have mapped : (((collectTables intent links).1.map fun entry =>
      (entry.1, resolvedTable links entry.1 entry.2)).map Prod.fst).Nodup := by
    rw [List.map_map]
    exact distinct
  rw [get_item_iff mapped, List.mem_map]
  constructor
  · rintro ⟨⟨key, tables⟩, inside, same⟩
    obtain ⟨rfl, resolved⟩ := Prod.mk.inj same
    have listed : tablesOf key (collectTables intent links).1 = tables := by
      rw [tablesOf, (get_item_iff distinct).mpr inside]
      rfl
    rcases tables with _ | ⟨number, _ | ⟨second, rest⟩⟩
    · cases resolved
    · simp only [resolvedTable] at resolved
      split at resolved
      · next single =>
          obtain rfl := Option.some.inj resolved
          refine ⟨mem_collected.mp (by rw [listed]; exact List.mem_cons_self), ?_, single⟩
          intro owner member other gives
          have found := mem_collected.mpr ⟨owner, member, gives⟩
          rw [listed] at found
          exact List.mem_singleton.mp found
      · cases resolved
    · cases resolved
  · rintro ⟨given, only, single⟩
    have member := mem_collected.mpr given
    rw [tablesOf] at member
    cases found : getItem source (collectTables intent links).1 with
    | none =>
      rw [found] at member
      cases member
    | some tables =>
      rw [found, Option.getD_some] at member
      have inside := mem_of_get_item found
      obtain ⟨nodup, _⟩ := collected_tables _ inside
      have all : ∀ other ∈ tables, other = table := by
        intro other listed
        have collected : other ∈ tablesOf source (collectTables intent links).1 := by
          rw [tablesOf, found]
          exact listed
        obtain ⟨owner, belongs, gives⟩ := mem_collected.mp collected
        exact only owner belongs other gives
      have one : tables = [table] := by
        obtain ⟨first, rest, rfl⟩ := List.exists_cons_of_ne_nil (List.ne_nil_of_mem member)
        obtain rfl := all first List.mem_cons_self
        cases rest with
        | nil => rfl
        | cons second rest =>
          obtain rfl := all second (by simp)
          simp at nodup
      refine ⟨(source, tables), inside, Prod.ext rfl ?_⟩
      rw [one]
      exact if_pos single

/-! ### Owners without a link -/

theorem complete_iff : (collectTables intent links).2 = false ↔
    ∀ owner ∈ owners intent, ∃ link,
      (links.find? fun link => link.name = owner.name) = some link ∧ link.mac = owner.mac := by
  have step : ∀ (state : List (Address × List Nat) × Bool) (owner : Interface),
      (addOwner intent links state owner).2 = false ↔ state.2 = false ∧ ∃ link,
        (links.find? fun link => link.name = owner.name) = some link ∧ link.mac = owner.mac := by
    intro state owner
    unfold addOwner
    cases found : links.find? fun link => link.name = owner.name with
    | none => simp
    | some link =>
      simp only
      by_cases mac : link.mac = owner.mac
      · rw [if_neg (not_not.mpr mac)]
        simp [mac]
      · rw [if_pos mac]
        simp [mac]
  have run : ∀ (rows : List Interface) (state : List (Address × List Nat) × Bool),
      (rows.foldl (addOwner intent links) state).2 = false ↔ state.2 = false ∧
        ∀ owner ∈ rows, ∃ link,
          (links.find? fun link => link.name = owner.name) = some link ∧ link.mac = owner.mac := by
    intro rows
    induction rows with
    | nil => simp
    | cons row rows induction =>
      intro state
      rw [List.foldl_cons, induction, step, and_assoc, List.forall_mem_cons]
  rw [collectTables, run]
  simp

end Atlaso.Routing.SourceOwners
