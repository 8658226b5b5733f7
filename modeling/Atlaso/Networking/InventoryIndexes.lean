import Atlaso.Library.Numerals
import Atlaso.Networking.InterfaceInventory
import Mathlib.Data.Finset.Card
import Mathlib.Data.List.Nodup

/-!
The indexes of an inventory pass and what a discovered NIC does to the rows.

Names stay distinct, and the index of names is exact throughout. One row takes over the name and
the MAC of the NIC, and another one is parked when it had the name.
-/

namespace Atlaso.Networking.InventoryIndexes

open InterfaceInventory Library Dictionary ItemLists Numerals TextFields

/-! ### Free names -/

theorem marked_tail {left right first second : Text} (firstPlain : '_' ∉ first)
    (secondPlain : '_' ∉ second) (same : left ++ '_' :: first = right ++ '_' :: second) :
    first = second := by
  have reversed := congrArg List.reverse same
  simp only [List.reverse_append, List.reverse_cons, List.append_assoc, List.singleton_append]
    at reversed
  have plain : ∀ {text : Text}, '_' ∉ text →
      ∀ c ∈ text.reverse, decide (c ≠ '_') = true := by
    intro text absent c inside
    apply decide_eq_true
    rintro rfl
    exact absent (List.mem_reverse.mp inside)
  have taken := congrArg (List.takeWhile fun c => decide (c ≠ '_')) reversed
  rw [List.takeWhile_append_of_pos (plain firstPlain),
    List.takeWhile_append_of_pos (plain secondPlain)] at taken
  simpa using taken

theorem digits_unmarked (value : Nat) : '_' ∉ Nat.toDigits 10 value := by
  intro inside
  exact absurd (Nat.isDigit_of_mem_toDigits (by decide) (by decide) inside) (by decide)

theorem marked_injective (base : Text) : Function.Injective (markedName base) := by
  intro first second same
  apply digits_injective
  exact marked_tail (digits_unmarked first) (digits_unmarked second) same

theorem free_name_tried (base : Text) (usedNames : Finset Text) (fuel counter : Nat)
    (taken : freeName base usedNames fuel counter ∈ usedNames) :
    ∀ step ≤ fuel, markedName base (counter + step) ∈ usedNames := by
  induction fuel generalizing counter with
  | zero =>
    intro step bound
    obtain rfl := Nat.le_zero.mp bound
    exact taken
  | succ fuel induction =>
    rw [freeName] at taken
    split at taken
    · next here =>
        intro step bound
        cases step with
        | zero => exact here
        | succ step =>
          have later := induction (counter + 1) taken step (by omega)
          rwa [show counter + 1 + step = counter + (step + 1) by omega] at later
    · next here => exact absurd taken here

theorem free_name_fresh (base : Text) (usedNames : Finset Text) (counter : Nat) :
    freeName base usedNames usedNames.card counter ∉ usedNames := by
  intro taken
  have tried := free_name_tried base usedNames usedNames.card counter taken
  have many : (Finset.range (usedNames.card + 1)).card ≤ usedNames.card := by
    apply Finset.card_le_card_of_injOn fun step => markedName base (counter + step)
    · intro step inside
      exact tried step (Nat.le_of_lt_succ (Finset.mem_range.mp inside))
    · intro first _ second _ same
      have equal := marked_injective base same
      omega
  rw [Finset.card_range] at many
  omega

theorem missing_name_fresh (characters : Characters) (interface : PhysicalInterface)
    (usedNames : Finset Text) :
    missingInterfaceName characters interface usedNames ∉ usedNames := by
  unfold missingInterfaceName
  simp only
  split
  · exact free_name_fresh _ _ _
  · next free => exact free

theorem missing_base_begins (characters : Characters) (interface : PhysicalInterface) :
    missingPrefixText <+: missingBase characters interface := by
  have inside : missingPrefixText <+: missingPrefixText ++ missingSuffix characters interface :=
    List.prefix_append _ _
  have short := inside.take 50
  rwa [show missingPrefixText.take 50 = missingPrefixText by decide] at short

theorem marked_begins {base : Text} (parked : missingPrefixText <+: base) {counter : Nat}
    (small : counter < 10 ^ 40) : missingPrefixText <+: markedName base counter := by
  have digits : (Nat.toDigits 10 counter).length ≤ 40 :=
    (Nat.length_toDigits_le_iff (by decide) (by decide)).mpr small
  have kept := parked.take (50 - ('_' :: Nat.toDigits 10 counter).length)
  rw [List.take_of_length_le (by
    rw [List.length_cons, show missingPrefixText.length = 8 by decide]
    omega)] at kept
  exact kept.trans (List.prefix_append _ _)

theorem free_name_shape (base : Text) (usedNames : Finset Text) (fuel counter : Nat) :
    ∃ step ≤ fuel, freeName base usedNames fuel counter = markedName base (counter + step) := by
  induction fuel generalizing counter with
  | zero => exact ⟨0, Nat.le_refl _, rfl⟩
  | succ fuel induction =>
    rw [freeName]
    split
    · obtain ⟨step, bound, same⟩ := induction (counter + 1)
      exact ⟨step + 1, by omega, by rw [same, Nat.add_right_comm]; rfl⟩
    · exact ⟨0, Nat.zero_le _, rfl⟩

theorem missing_name_begins (characters : Characters) (interface : PhysicalInterface)
    {usedNames : Finset Text} (few : usedNames.card < 2 ^ 64) :
    missingPrefixText <+: missingInterfaceName characters interface usedNames := by
  unfold missingInterfaceName
  simp only
  split
  · obtain ⟨step, bound, same⟩ :=
      free_name_shape (missingBase characters interface) usedNames usedNames.card 2
    rw [same]
    apply marked_begins (missing_base_begins characters interface)
    omega
  · exact missing_base_begins characters interface

/-! ### Exact indexes -/

structure Indexed (inventory : Inventory) : Prop where
  distinct : (inventory.rows.map PhysicalInterface.name).Nodup
  byName : ∀ name ref, inventory.byName name = some ref ↔
    ∃ interface, inventory.rows[ref]? = some interface ∧ interface.name = name
  used : ∀ name, name ∈ inventory.usedNames ↔ ∃ interface ∈ inventory.rows, interface.name = name
  refs : ∀ mac ref, inventory.byMac mac = some ref → ref < inventory.rows.length

theorem same_ref {rows : List PhysicalInterface} (distinct : (rows.map PhysicalInterface.name).Nodup)
    {first second : Nat} {left right : PhysicalInterface} (leftAt : rows[first]? = some left)
    (rightAt : rows[second]? = some right) (same : left.name = right.name) : first = second := by
  obtain ⟨bound, rfl⟩ := List.getElem?_eq_some_iff.mp leftAt
  obtain ⟨bound', rfl⟩ := List.getElem?_eq_some_iff.mp rightAt
  exact (@List.Nodup.getElem_inj_iff _ _ distinct first (by simpa using bound) second
    (by simpa using bound')).mp (by simpa using same)

theorem used_card {inventory : Inventory} (indexed : Indexed inventory) :
    inventory.usedNames.card ≤ inventory.rows.length := by
  have same : inventory.usedNames ⊆ (inventory.rows.map PhysicalInterface.name).toFinset := by
    intro name inside
    obtain ⟨interface, member, rfl⟩ := (indexed.used name).mp inside
    exact List.mem_toFinset.mpr (List.mem_map_of_mem member)
  calc inventory.usedNames.card
      ≤ (inventory.rows.map PhysicalInterface.name).toFinset.card := Finset.card_le_card same
    _ ≤ (inventory.rows.map PhysicalInterface.name).length := List.toFinset_card_le _
    _ = inventory.rows.length := List.length_map _

theorem unused_name {inventory : Inventory} (indexed : Indexed inventory) {name : Text}
    (absent : inventory.byName name = none) : name ∉ inventory.usedNames := by
  intro inside
  obtain ⟨interface, member, same⟩ := (indexed.used name).mp inside
  obtain ⟨ref, here⟩ := List.getElem?_of_mem member
  rw [(indexed.byName name ref).mpr ⟨interface, here, same⟩] at absent
  cases absent

section Renaming

variable {inventory : Inventory} {ref : Nat} {interface : PhysicalInterface} {newName : Text}

theorem rename_rows (here : inventory.rows[ref]? = some interface) :
    (renameInterface ref newName inventory).rows =
      inventory.rows.set ref { interface with name := newName } := by
  unfold renameInterface
  rw [here]
  simp only
  split
  · next same =>
      obtain ⟨bound, rfl⟩ := List.getElem?_eq_some_iff.mp here
      rw [← same]
      exact (List.set_getElem_self bound).symm
  · rfl

theorem rename_frame : (renameInterface ref newName inventory).byMac = inventory.byMac ∧
    (renameInterface ref newName inventory).seen = inventory.seen := by
  unfold renameInterface
  split
  · exact ⟨rfl, rfl⟩
  · split
    · exact ⟨rfl, rfl⟩
    · exact ⟨rfl, rfl⟩

theorem rename_indexed (indexed : Indexed inventory) (here : inventory.rows[ref]? = some interface)
    (free : newName = interface.name ∨ newName ∉ inventory.usedNames) :
    Indexed (renameInterface ref newName inventory) := by
  by_cases same : interface.name = newName
  · have unchanged : renameInterface ref newName inventory = inventory := by
      unfold renameInterface
      rw [here]
      exact if_pos same
    rwa [unchanged]
  · have unused := free.resolve_left (Ne.symm same)
    have bound : ref < inventory.rows.length := (List.getElem?_eq_some_iff.mp here).1
    have changed : renameInterface ref newName inventory = { inventory with
        rows := inventory.rows.set ref { interface with name := newName }
        byName := Function.update (Function.update inventory.byName interface.name none) newName
          (some ref)
        usedNames := insert newName (inventory.usedNames.erase interface.name)
        renames := setItem interface.name newName inventory.renames } := by
      unfold renameInterface
      rw [here]
      exact if_neg same
    have lookup : ∀ other, (inventory.rows.set ref { interface with name := newName })[other]? =
        if other = ref then some { interface with name := newName } else inventory.rows[other]? := by
      intro other
      by_cases equal : other = ref
      · subst equal
        rw [if_pos rfl, List.getElem?_set_self bound]
      · rw [if_neg equal, List.getElem?_set_ne (Ne.symm equal)]
    have others : ∀ (other : Nat) (row : PhysicalInterface), inventory.rows[other]? = some row →
        row.name ≠ newName := by
      rintro other row found rfl
      exact unused ((indexed.used _).mpr ⟨row, List.mem_of_getElem? found, rfl⟩)
    have alone : ∀ (other : Nat) (row : PhysicalInterface), inventory.rows[other]? = some row →
        row.name = interface.name → other = ref :=
      fun other row found equal => same_ref indexed.distinct found here equal
    rw [changed]
    constructor
    · rw [List.map_set]
      apply indexed.distinct.set
      intro inside
      obtain ⟨row, member, equal⟩ := List.mem_map.mp inside
      exact unused ((indexed.used _).mpr ⟨row, member, equal⟩)
    · intro name other
      simp only [lookup]
      by_cases new : name = newName
      · subst new
        rw [Function.update_self]
        constructor
        · intro found
          obtain rfl := Option.some.inj found
          exact ⟨_, if_pos rfl, rfl⟩
        · rintro ⟨row, found, equal⟩
          split at found
          · next here => rw [here]
          · exact absurd equal (others other row found)
      · rw [Function.update_of_ne new]
        by_cases old : name = interface.name
        · subst old
          rw [Function.update_self]
          refine iff_of_false (by simp) ?_
          rintro ⟨row, found, equal⟩
          split at found
          · obtain rfl := Option.some.inj found
            exact new equal.symm
          · next differs => exact differs (alone other row found equal)
        · rw [Function.update_of_ne old, indexed.byName]
          constructor
          · rintro ⟨row, found, equal⟩
            refine ⟨row, ?_, equal⟩
            rw [if_neg, found]
            rintro rfl
            rw [here] at found
            obtain rfl := Option.some.inj found
            exact old equal.symm
          · rintro ⟨row, found, equal⟩
            split at found
            · obtain rfl := Option.some.inj found
              exact absurd equal.symm new
            · exact ⟨row, found, equal⟩
    · intro name
      simp only [List.mem_iff_getElem?, lookup, Finset.mem_insert, Finset.mem_erase, indexed.used]
      constructor
      · rintro (rfl | ⟨old, row, ⟨other, found⟩, equal⟩)
        · exact ⟨_, ⟨ref, if_pos rfl⟩, rfl⟩
        · refine ⟨row, ⟨other, ?_⟩, equal⟩
          rw [if_neg, found]
          rintro rfl
          rw [here] at found
          obtain rfl := Option.some.inj found
          exact old equal.symm
      · rintro ⟨row, ⟨other, found⟩, equal⟩
        split at found
        · obtain rfl := Option.some.inj found
          exact .inl equal.symm
        · next differs =>
            refine .inr ⟨?_, row, ⟨other, found⟩, equal⟩
            rintro rfl
            exact differs (alone other row found equal)
    · intro mac other found
      rw [List.length_set]
      exact indexed.refs mac other found

theorem renamed_unused (indexed : Indexed inventory) (here : inventory.rows[ref]? = some interface)
    (free : newName ∉ inventory.usedNames) :
    interface.name ∉ (renameInterface ref newName inventory).usedNames := by
  have member : interface.name ∈ inventory.usedNames :=
    (indexed.used _).mpr ⟨interface, List.mem_of_getElem? here, rfl⟩
  have differs : interface.name ≠ newName := by
    rintro rfl
    exact free member
  unfold renameInterface
  rw [here]
  simp only
  rw [if_neg differs]
  simp [differs]

theorem rename_other {other : Nat} (differs : other ≠ ref) :
    (renameInterface ref newName inventory).rows[other]? = inventory.rows[other]? := by
  unfold renameInterface
  split
  · rfl
  · split
    · rfl
    · exact List.getElem?_set_ne (Ne.symm differs)

theorem rename_length : (renameInterface ref newName inventory).rows.length =
    inventory.rows.length := by
  unfold renameInterface
  split
  · rfl
  · split
    · rfl
    · exact List.length_set

theorem rename_self (here : inventory.rows[ref]? = some interface) :
    (renameInterface ref newName inventory).rows[ref]? =
      some { interface with name := newName } := by
  rw [rename_rows here, List.getElem?_set_self (List.getElem?_eq_some_iff.mp here).1]

theorem park_rename (few : inventory.rows.length < 2 ^ 64) (indexed : Indexed inventory)
    (characters : Characters) (here : inventory.rows[ref]? = some interface) :
    ∃ name, missingPrefixText <+: name ∧ name ∉ inventory.usedNames ∧
      parkInterface characters ref inventory = renameInterface ref name inventory := by
  refine ⟨missingInterfaceName characters interface inventory.usedNames, ?_, ?_, ?_⟩
  · exact missing_name_begins characters interface ((used_card indexed).trans_lt few)
  · exact missing_name_fresh characters interface inventory.usedNames
  · unfold parkInterface
    rw [here]

end Renaming

/-! ### Matching -/

/-- A row that stays, or that is parked because it had the name. -/
def Displaced (name : Text) (before after : PhysicalInterface) : Prop :=
  after = before ∨
    before.name = name ∧ after = { before with name := after.name } ∧
      missingPrefixText <+: after.name

def Chosen (characters : Characters) (host : HostPhysicalInterface) (inventory : Inventory)
    (ref : Nat) (before : PhysicalInterface) : Prop :=
  inventory.byMac (macKey characters host.macAddress) = some ref ∨
    inventory.byMac (macKey characters host.macAddress) = none ∧ before.name = host.name ∧
      (before.desiredStateSource = "seed" ∨
        macKey characters before.macAddress = macKey characters host.macAddress)

structure Matched (characters : Characters) (host : HostPhysicalInterface) (inventory : Inventory)
    (found : Option Nat) (after : Inventory) : Prop where
  indexed : Indexed after
  byMac : after.byMac = inventory.byMac
  seen : after.seen = inventory.seen
  size : after.rows.length = inventory.rows.length
  target : ∀ ref, found = some ref → ∃ before, inventory.rows[ref]? = some before ∧
    after.rows[ref]? = some { before with name := host.name } ∧
      Chosen characters host inventory ref before
  unknown : found = none → inventory.byMac (macKey characters host.macAddress) = none ∧
    host.name ∉ after.usedNames ∧
    ∀ before ∈ inventory.rows, before.name = host.name → before.desiredStateSource ≠ "seed"
  others : ∀ other before, some other ≠ found → inventory.rows[other]? = some before →
    ∃ row, after.rows[other]? = some row ∧ Displaced host.name before row

section Matching

variable {characters : Characters} {inventory : Inventory} {host : HostPhysicalInterface}

structure Cleared (ref : Nat) (name : Text) (inventory after : Inventory) : Prop where
  indexed : Indexed after
  byMac : after.byMac = inventory.byMac
  seen : after.seen = inventory.seen
  size : after.rows.length = inventory.rows.length
  same : after.rows[ref]? = inventory.rows[ref]?
  free : ∀ interface, inventory.rows[ref]? = some interface →
    name = interface.name ∨ name ∉ after.usedNames
  others : ∀ (other : Nat) before, inventory.rows[other]? = some before →
    ∃ row, after.rows[other]? = some row ∧ Displaced name before row

theorem clear_name_cleared (characters : Characters) (indexed : Indexed inventory) (few : inventory.rows.length < 2 ^ 64)
    (ref : Nat) (name : Text) :
    Cleared ref name inventory (clearName characters ref name inventory) := by
  unfold clearName
  rcases named : inventory.byName name with _ | other
  · simp only
    exact {
      indexed := indexed
      byMac := rfl
      seen := rfl
      size := rfl
      same := rfl
      free := fun _ _ => .inr (unused_name indexed named)
      others := fun other before here => ⟨before, here, .inl rfl⟩ }
  · obtain ⟨interface, here, own⟩ := (indexed.byName name other).mp named
    simp only
    split
    · next differs =>
        obtain ⟨parked, prefixed, free, renamed⟩ := park_rename few indexed characters here
        rw [renamed]
        exact {
          indexed := rename_indexed indexed here (.inr free)
          byMac := rename_frame.1
          seen := rename_frame.2
          size := rename_length
          same := rename_other (Ne.symm differs)
          free := fun _ _ => .inr (own ▸ renamed_unused indexed here free)
          others := by
            intro third before there
            by_cases same : third = other
            · subst same
              rw [here] at there
              obtain rfl := Option.some.inj there
              exact ⟨_, rename_self here, .inr ⟨own, rfl, prefixed⟩⟩
            · exact ⟨before, (rename_other same).trans there, .inl rfl⟩ }
    · next same =>
        obtain rfl := not_not.mp same
        exact {
          indexed := indexed
          byMac := rfl
          seen := rfl
          size := rfl
          same := rfl
          free := by
            intro row there
            rw [here] at there
            obtain rfl := Option.some.inj there
            exact .inl own.symm
          others := fun other before there => ⟨before, there, .inl rfl⟩ }

theorem match_host_matched (characters : Characters) (host : HostPhysicalInterface)
    (indexed : Indexed inventory) (few : inventory.rows.length < 2 ^ 64) :
    Matched characters host inventory (matchHost characters inventory host).1
      (matchHost characters inventory host).2 := by
  unfold matchHost
  rcases known : inventory.byMac (macKey characters host.macAddress) with _ | ref
  · rcases named : inventory.byName host.name with _ | other
    · simp only [known]
      exact {
        indexed := indexed
        byMac := rfl
        seen := rfl
        size := rfl
        target := fun ref found => by cases found
        unknown := fun _ => ⟨known, unused_name indexed named, fun before inside same =>
          absurd ((indexed.used _).mpr ⟨before, inside, same⟩) (unused_name indexed named)⟩
        others := fun other before _ here => ⟨before, here, .inl rfl⟩ }
    · obtain ⟨interface, here, name⟩ := (indexed.byName host.name other).mp named
      simp only [known, here]
      split
      · next edited =>
        obtain ⟨parked, prefixed, free, renamed⟩ := park_rename few indexed characters here
        simp only [renamed]
        exact {
          indexed := rename_indexed indexed here (.inr free)
          byMac := rename_frame.1
          seen := rename_frame.2
          size := rename_length
          target := fun ref found => by cases found
          unknown := by
            intro _
            refine ⟨known, name ▸ renamed_unused indexed here free, ?_⟩
            intro before inside same
            obtain ⟨third, there⟩ := List.getElem?_of_mem inside
            obtain rfl := same_ref indexed.distinct there here (same.trans name.symm)
            rw [here] at there
            obtain rfl := Option.some.inj there
            exact edited.1
          others := by
            intro third before _ there
            by_cases same : third = other
            · subst same
              rw [here] at there
              obtain rfl := Option.some.inj there
              exact ⟨_, rename_self here, .inr ⟨name, rfl, prefixed⟩⟩
            · exact ⟨before, (rename_other same).trans there, .inl rfl⟩ }
      · next kept =>
          have choice : interface.desiredStateSource = "seed" ∨
              macKey characters interface.macAddress = macKey characters host.macAddress := by
            by_contra neither
            obtain ⟨edited, differs⟩ := not_or.mp neither
            exact kept ⟨edited, differs⟩
          exact {
            indexed := indexed
            byMac := rfl
            seen := rfl
            size := rfl
            target := by
              intro ref found
              obtain rfl := Option.some.inj found
              refine ⟨interface, here, ?_, .inr ⟨known, name, choice⟩⟩
              rw [← name]
              exact here
            unknown := fun found => by cases found
            others := fun third before _ there => ⟨before, there, .inl rfl⟩ }
  · have bound := indexed.refs _ ref known
    obtain ⟨before, here⟩ : ∃ before, inventory.rows[ref]? = some before :=
      ⟨_, List.getElem?_eq_getElem bound⟩
    have cleared := clear_name_cleared characters indexed few ref host.name
    have kept := cleared.same.trans here
    simp only [known]
    exact {
      indexed := rename_indexed cleared.indexed kept (cleared.free before here)
      byMac := rename_frame.1.trans cleared.byMac
      seen := rename_frame.2.trans cleared.seen
      size := rename_length.trans cleared.size
      target := by
        intro other found
        obtain rfl := Option.some.inj found
        exact ⟨before, here, rename_self kept, .inl known⟩
      unknown := fun found => by cases found
      others := by
        intro other row differs there
        obtain ⟨after, later, displaced⟩ := cleared.others other row there
        refine ⟨after, ?_, displaced⟩
        rw [rename_other, later]
        rintro rfl
        exact differs rfl }

end Matching

/-! ### Recording -/

structure Represents (characters : Characters) (host : HostPhysicalInterface)
    (row : PhysicalInterface) : Prop where
  name : row.name = host.name
  mac : row.macAddress = macKey characters host.macAddress
  present : row.missingSince = none
  source : row.inventorySource = "host"

def intent (row : PhysicalInterface) : String × String × Option String × Text × Bool ×
    Option String × Option String × Option Nat × String :=
  (row.role, row.mode, row.ipCidr, row.ipv4Method, row.ipv6Enabled, row.ipv6Cidr, row.ipv6Gateway,
    row.mtu, row.adminState)

structure Kept (before row : PhysicalInterface) : Prop where
  id : row.id = before.id
  desired : row.desiredStateSource = before.desiredStateSource
  intent : before.desiredStateSource ≠ "seed" → intent row = intent before

theorem kept_refl (row : PhysicalInterface) : Kept row row := ⟨rfl, rfl, fun _ => rfl⟩

theorem kept_trans {first second third : PhysicalInterface} (earlier : Kept first second)
    (later : Kept second third) : Kept first third where
  id := later.id.trans earlier.id
  desired := later.desired.trans earlier.desired
  intent edited := (later.intent (earlier.desired ▸ edited)).trans (earlier.intent edited)

theorem displaced_kept {name : Text} {before after : PhysicalInterface}
    (displaced : Displaced name before after) : Kept before after := by
  rcases displaced with rfl | ⟨_, same, _⟩
  · exact kept_refl _
  · rw [same]
    exact ⟨rfl, rfl, fun _ => rfl⟩

section Recording

variable {characters : Characters} {modes : AppliedModes} {now : Nat} {inventory : Inventory}
  {host : HostPhysicalInterface}

def recordedRow (characters : Characters) (modes : AppliedModes) (now : Nat)
    (host : HostPhysicalInterface) (interface : PhysicalInterface) : PhysicalInterface :=
  let observed := observe characters modes now host interface
  if interface.desiredStateSource = "seed" then adoptDesired characters host observed else observed

theorem recorded_represents {interface : PhysicalInterface} (named : interface.name = host.name) :
    Represents characters host (recordedRow characters modes now host interface) := by
  unfold recordedRow
  simp only
  split
  · exact ⟨named, rfl, rfl, rfl⟩
  · exact ⟨named, rfl, rfl, rfl⟩

theorem recorded_kept (interface : PhysicalInterface) :
    Kept interface (recordedRow characters modes now host interface) := by
  unfold recordedRow
  simp only
  split
  · next seed => exact ⟨rfl, rfl, fun edited => absurd seed edited⟩
  · exact ⟨rfl, rfl, fun _ => rfl⟩

structure Recorded (characters : Characters) (host : HostPhysicalInterface)
    (inventory after : Inventory) (ref : Nat) : Prop where
  indexed : Indexed after
  byMac : after.byMac =
    Function.update inventory.byMac (macKey characters host.macAddress) (some ref)
  seen : after.seen = ref :: inventory.seen
  size : inventory.rows.length ≤ after.rows.length ∧
    after.rows.length ≤ inventory.rows.length + 1
  row : ∃ row, after.rows[ref]? = some row ∧ Represents characters host row
  target : (∃ before row, inventory.rows[ref]? = some before ∧ after.rows[ref]? = some row ∧
      Kept before row ∧ Chosen characters host inventory ref before) ∨
    ref = inventory.rows.length ∧
      inventory.byMac (macKey characters host.macAddress) = none ∧
      ∀ before ∈ inventory.rows, before.name = host.name → before.desiredStateSource ≠ "seed"
  others : ∀ other before, other ≠ ref → inventory.rows[other]? = some before →
    ∃ row, after.rows[other]? = some row ∧ Displaced host.name before row
  known : ∀ (other : Nat) row, other ≠ ref → after.rows[other]? = some row →
    ∃ before, inventory.rows[other]? = some before

theorem set_indexed {ref : Nat} {interface row : PhysicalInterface} {byMac : Text → Option Nat}
    {seen : List Nat} (indexed : Indexed inventory) (here : inventory.rows[ref]? = some interface)
    (same : row.name = interface.name)
    (refs : ∀ mac other, byMac mac = some other → other < inventory.rows.length) :
    Indexed { inventory with rows := inventory.rows.set ref row, byMac := byMac, seen := seen } := by
  have bound : ref < inventory.rows.length := (List.getElem?_eq_some_iff.mp here).1
  have names : (inventory.rows.set ref row).map PhysicalInterface.name =
      inventory.rows.map PhysicalInterface.name := by
    rw [List.map_set, same]
    obtain ⟨_, rfl⟩ := List.getElem?_eq_some_iff.mp here
    have copied := @List.set_getElem_self _ (inventory.rows.map PhysicalInterface.name) ref
      (by simpa using bound)
    rwa [List.getElem_map] at copied
  have lookup : ∀ (name : Text) (other : Nat),
      (∃ interface : PhysicalInterface, (inventory.rows.set ref row)[other]? = some interface ∧
        interface.name = name) ↔
      ∃ interface : PhysicalInterface, inventory.rows[other]? = some interface ∧
        interface.name = name := by
    intro name other
    have left := List.getElem?_map (f := PhysicalInterface.name) (l := inventory.rows.set ref row)
      (i := other)
    have right := List.getElem?_map (f := PhysicalInterface.name) (l := inventory.rows)
      (i := other)
    rw [names, right] at left
    constructor
    · rintro ⟨interface, found, rfl⟩
      rw [found] at left
      exact Option.map_eq_some_iff.mp left
    · rintro ⟨interface, found, rfl⟩
      rw [found] at left
      exact Option.map_eq_some_iff.mp left.symm
  constructor
  · rw [names]
    exact indexed.distinct
  · intro name other
    exact (indexed.byName name other).trans (lookup name other).symm
  · intro name
    have members : name ∈ (inventory.rows.set ref row).map PhysicalInterface.name ↔
        name ∈ inventory.rows.map PhysicalInterface.name := by rw [names]
    rw [List.mem_map, List.mem_map] at members
    exact (indexed.used name).trans members.symm
  · intro mac other found
    rw [List.length_set]
    exact refs mac other found

theorem add_indexed (indexed : Indexed inventory) (host : HostPhysicalInterface) (mac : Text)
    (free : host.name ∉ inventory.usedNames) :
    Indexed (addInterface host mac inventory).2 := by
  have unused : ∀ interface ∈ inventory.rows, interface.name ≠ host.name := by
    intro interface inside same
    exact free ((indexed.used _).mpr ⟨interface, inside, same⟩)
  unfold addInterface
  constructor
  · simp only [List.map_append, List.map_cons, List.map_nil, List.nodup_append]
    refine ⟨indexed.distinct, List.nodup_singleton _, ?_⟩
    rintro name inside _ last rfl
    obtain ⟨interface, member, rfl⟩ := List.mem_map.mp inside
    exact unused interface member (List.mem_singleton.mp last)
  · intro name other
    simp only
    by_cases same : name = host.name
    · subst same
      rw [Function.update_self]
      constructor
      · intro found
        obtain rfl := Option.some.inj found
        exact ⟨_, List.getElem?_concat_length, rfl⟩
      · rintro ⟨interface, found, named⟩
        rcases Nat.lt_trichotomy other inventory.rows.length with before | rfl | after
        · rw [List.getElem?_append_left before] at found
          exact absurd named (unused interface (List.mem_of_getElem? found))
        · rfl
        · rw [List.getElem?_eq_none (by rw [List.length_append]; exact after)] at found
          cases found
    · rw [Function.update_of_ne same, indexed.byName]
      constructor
      · rintro ⟨interface, found, named⟩
        refine ⟨interface, ?_, named⟩
        rw [List.getElem?_append_left (List.getElem?_eq_some_iff.mp found).1, found]
      · rintro ⟨interface, found, named⟩
        refine ⟨interface, ?_, named⟩
        by_cases before : other < inventory.rows.length
        · rwa [List.getElem?_append_left before] at found
        · have last := List.mem_of_getElem? found
          rw [List.getElem?_append_right (not_lt.mp before)] at found
          have single := List.mem_of_getElem? found
          obtain rfl := List.mem_singleton.mp single
          exact absurd named.symm same
  · intro name
    simp only [Finset.mem_insert, indexed.used, List.mem_append, List.mem_singleton]
    constructor
    · rintro (rfl | ⟨interface, inside, named⟩)
      · exact ⟨_, .inr rfl, rfl⟩
      · exact ⟨interface, .inl inside, named⟩
    · rintro ⟨interface, inside | rfl, named⟩
      · exact .inr ⟨interface, inside, named⟩
      · exact .inl named.symm
  · intro other ref found
    rw [List.length_append]
    exact Nat.lt_add_right _ (indexed.refs other ref found)

variable {placed : Inventory}

theorem record_placed {ref : Nat} {interface : PhysicalInterface} (indexed : Indexed placed)
    (here : placed.rows[ref]? = some interface) (named : interface.name = host.name) :
    Indexed { placed with
      rows := placed.rows.set ref (recordedRow characters modes now host interface)
      byMac := Function.update placed.byMac (macKey characters host.macAddress) (some ref)
      seen := ref :: placed.seen } := by
  apply set_indexed indexed here
  · exact (recorded_represents named).name.trans named.symm
  · intro mac other found
    by_cases same : mac = macKey characters host.macAddress
    · subst same
      rw [Function.update_self] at found
      obtain rfl := Option.some.inj found
      exact (List.getElem?_eq_some_iff.mp here).1
    · rw [Function.update_of_ne same] at found
      exact indexed.refs mac other found

theorem record_host_found {ref : Nat} {interface : PhysicalInterface}
    (outcome : matchHost characters inventory host = (some ref, placed))
    (here : placed.rows[ref]? = some interface) :
    recordHost characters modes now inventory host = { placed with
      rows := placed.rows.set ref (recordedRow characters modes now host interface)
      byMac := Function.update placed.byMac (macKey characters host.macAddress) (some ref)
      seen := ref :: placed.seen } := by
  unfold recordHost
  simp only [outcome, here]
  rfl

theorem record_host_added (outcome : matchHost characters inventory host = (none, placed)) :
    recordHost characters modes now inventory host =
      { (addInterface host (macKey characters host.macAddress) placed).2 with
        rows := (placed.rows ++
          [newInterface host.name (macKey characters host.macAddress)]).set placed.rows.length
            (recordedRow characters modes now host
              (newInterface host.name (macKey characters host.macAddress)))
        byMac := Function.update placed.byMac (macKey characters host.macAddress)
          (some placed.rows.length)
        seen := placed.rows.length :: placed.seen } := by
  have here : (placed.rows ++ [newInterface host.name (macKey characters host.macAddress)])[
      placed.rows.length]? = some (newInterface host.name (macKey characters host.macAddress)) :=
    List.getElem?_concat_length
  unfold recordHost
  simp only [outcome, addInterface, here]
  rfl

theorem record_host_recorded (characters : Characters) (modes : AppliedModes) (now : Nat)
    (host : HostPhysicalInterface) (indexed : Indexed inventory)
    (few : inventory.rows.length < 2 ^ 64) :
    ∃ ref, Recorded characters host inventory
      (recordHost characters modes now inventory host) ref := by
  have matching := match_host_matched characters host indexed few
  rcases outcome : matchHost characters inventory host with ⟨_ | ref, placed⟩
  · rw [outcome] at matching
    obtain ⟨unknown, free, edited⟩ := matching.unknown rfl
    have added := add_indexed matching.indexed host (macKey characters host.macAddress) free
    have here : (addInterface host (macKey characters host.macAddress) placed).2.rows[
        placed.rows.length]? = some (newInterface host.name (macKey characters host.macAddress)) :=
      List.getElem?_concat_length
    have earlier : ∀ (other : Nat) (row : PhysicalInterface), other < placed.rows.length →
        ((placed.rows ++ [newInterface host.name (macKey characters host.macAddress)]).set
          placed.rows.length row)[other]? = placed.rows[other]? := by
      intro other row before
      rw [List.getElem?_set_ne (Nat.ne_of_gt before), List.getElem?_append_left before]
    refine ⟨placed.rows.length, ?_⟩
    rw [record_host_added outcome]
    exact {
      indexed := record_placed added here rfl
      byMac := by rw [matching.byMac]
      seen := by rw [matching.seen]
      size := by
        rw [List.length_set, List.length_append, matching.size]
        exact ⟨Nat.le_add_right _ _, Nat.le_refl _⟩
      row := by
        refine ⟨_, List.getElem?_set_self ?_, recorded_represents rfl⟩
        rw [List.length_append]
        exact Nat.lt_succ_self _
      target := .inr ⟨matching.size, unknown, edited⟩
      others := by
        intro other before _ there
        obtain ⟨row, later, displaced⟩ := matching.others other before (by simp) there
        refine ⟨row, ?_, displaced⟩
        rw [earlier other _ (List.getElem?_eq_some_iff.mp later).1, later]
      known := by
        intro other row differs found
        have bound := (List.getElem?_eq_some_iff.mp found).1
        rw [List.length_set, List.length_append, List.length_singleton, matching.size] at bound
        rw [matching.size] at differs
        exact ⟨_, List.getElem?_eq_getElem (by omega)⟩ }
  · rw [outcome] at matching
    obtain ⟨before, earlier, here, chosen⟩ := matching.target ref rfl
    refine ⟨ref, ?_⟩
    have bound := (List.getElem?_eq_some_iff.mp here).1
    rw [record_host_found outcome here]
    exact {
      indexed := record_placed matching.indexed here rfl
      byMac := by rw [matching.byMac]
      seen := by rw [matching.seen]
      size := by
        rw [List.length_set, matching.size]
        exact ⟨Nat.le_refl _, Nat.le_succ _⟩
      row := ⟨_, List.getElem?_set_self bound, recorded_represents rfl⟩
      target := by
        refine .inl ⟨before, _, earlier, List.getElem?_set_self bound, ?_, chosen⟩
        apply kept_trans _ (recorded_kept _)
        exact ⟨rfl, rfl, fun _ => rfl⟩
      others := by
        intro other row differs there
        obtain ⟨later, found, displaced⟩ :=
          matching.others other row (fun same => differs (Option.some.inj same)) there
        refine ⟨later, ?_, displaced⟩
        rw [List.getElem?_set_ne (Ne.symm differs), found]
      known := by
        intro other row _ found
        have bound := (List.getElem?_eq_some_iff.mp found).1
        rw [List.length_set, matching.size] at bound
        exact ⟨_, List.getElem?_eq_getElem bound⟩ }

end Recording

/-! ### Marking -/

section Marking

variable {characters : Characters} {now : Nat} {inventory : Inventory}

def Gone (now : Nat) (before row : PhysicalInterface) : Prop :=
  row = { before with
    name := row.name
    missingSince := some (before.missingSince.getD now)
    operState := "missing" } ∧
  missingPrefixText <+: row.name ∧ (missingPrefixText <+: before.name → row.name = before.name)

def MarkedRow (now : Nat) (seen : Bool) (before row : PhysicalInterface) : Prop :=
  if before.inventorySource = "host" ∧ seen = false then Gone now before row else row = before

structure MarkedRows (now : Nat) (inventory : Inventory) (refs : List Nat) (after : Inventory) :
    Prop where
  indexed : Indexed after
  seen : after.seen = inventory.seen
  size : after.rows.length = inventory.rows.length
  marked : ∀ ref ∈ refs, ∀ before, inventory.rows[ref]? = some before →
    ∃ row, after.rows[ref]? = some row ∧ MarkedRow now (ref ∈ inventory.seen) before row
  others : ∀ ref, ref ∉ refs → after.rows[ref]? = inventory.rows[ref]?

theorem mark_missing_marked (characters : Characters) (now : Nat) (indexed : Indexed inventory)
    (few : inventory.rows.length < 2 ^ 64) (ref : Nat) : MarkedRows now inventory [ref] (markMissing characters now inventory ref) := by
  unfold markMissing
  rcases here : inventory.rows[ref]? with _ | interface
  · exact {
      indexed := indexed
      seen := rfl
      size := rfl
      marked := by
        intro other inside before there
        obtain rfl := List.mem_singleton.mp inside
        rw [here] at there
        cases there
      others := fun _ _ => rfl }
  · simp only
    split
    · next gone =>
        set marked : PhysicalInterface := { interface with
          missingSince := some (interface.missingSince.getD now)
          operState := "missing" } with markedIs
        have exactly : Indexed { inventory with rows := inventory.rows.set ref marked } :=
          set_indexed indexed here rfl indexed.refs
        have bound := (List.getElem?_eq_some_iff.mp here).1
        have placed : (inventory.rows.set ref marked)[ref]? = some marked :=
          List.getElem?_set_self bound
        have unseen : decide (ref ∈ inventory.seen) = false := decide_eq_false gone.2
        split
        · next parked =>
            exact {
              indexed := exactly
              seen := rfl
              size := List.length_set
              marked := by
                intro other inside before there
                obtain rfl := List.mem_singleton.mp inside
                rw [here] at there
                obtain rfl := Option.some.inj there
                refine ⟨marked, placed, ?_⟩
                rw [MarkedRow, if_pos ⟨gone.1, unseen⟩]
                exact ⟨rfl, List.isPrefixOf_iff_prefix.mp parked, fun _ => rfl⟩
              others := by
                intro other differs
                exact List.getElem?_set_ne fun same => differs (by simp [same]) }
        · next unparked =>
            obtain ⟨name, prefixed, free, renamed⟩ := park_rename
              (by rw [List.length_set]; exact few) exactly characters placed
            rw [renamed]
            exact {
              indexed := rename_indexed exactly placed (.inr free)
              seen := rename_frame.2
              size := rename_length.trans List.length_set
              marked := by
                intro other inside before there
                obtain rfl := List.mem_singleton.mp inside
                rw [here] at there
                obtain rfl := Option.some.inj there
                refine ⟨_, rename_self placed, ?_⟩
                rw [MarkedRow, if_pos ⟨gone.1, unseen⟩]
                refine ⟨rfl, prefixed, ?_⟩
                intro parked
                exact absurd (List.isPrefixOf_iff_prefix.mpr parked) unparked
              others := by
                intro other differs
                have apart : other ≠ ref := fun same => differs (by simp [same])
                rw [rename_other apart]
                exact List.getElem?_set_ne (Ne.symm apart) }
    · next kept =>
        exact {
          indexed := indexed
          seen := rfl
          size := rfl
          marked := by
            intro other inside before there
            obtain rfl := List.mem_singleton.mp inside
            rw [here] at there
            obtain rfl := Option.some.inj there
            refine ⟨interface, here, ?_⟩
            rw [MarkedRow, if_neg]
            rintro ⟨host, unseen⟩
            exact kept ⟨host, of_decide_eq_false unseen⟩
          others := fun _ _ => rfl }

theorem mark_all_marked (characters : Characters) (now : Nat) (refs : List Nat)
    (distinct : refs.Nodup) (indexed : Indexed inventory) (few : inventory.rows.length < 2 ^ 64) :
    MarkedRows now inventory refs (refs.foldl (markMissing characters now) inventory) := by
  induction refs generalizing inventory with
  | nil =>
    exact {
      indexed := indexed
      seen := rfl
      size := rfl
      marked := fun ref inside => absurd inside List.not_mem_nil
      others := fun _ _ => rfl }
  | cons ref refs induction =>
    obtain ⟨fresh, distinct⟩ := List.nodup_cons.mp distinct
    have first := mark_missing_marked characters now indexed few ref
    have rest := induction distinct first.indexed (by rw [first.size]; exact few)
    rw [List.foldl_cons]
    exact {
      indexed := rest.indexed
      seen := rest.seen.trans first.seen
      size := rest.size.trans first.size
      marked := by
        intro other inside before there
        rcases List.mem_cons.mp inside with rfl | later
        · obtain ⟨row, found, marked⟩ := first.marked other List.mem_cons_self before there
          exact ⟨row, (rest.others other fresh).trans found, marked⟩
        · have apart : other ∉ [ref] := by
            intro same
            obtain rfl := List.mem_singleton.mp same
            exact fresh later
          obtain ⟨row, found, marked⟩ := rest.marked other later before
            ((first.others other apart).trans there)
          rw [first.seen] at marked
          exact ⟨row, found, marked⟩
      others := by
        intro other absent
        obtain ⟨apart, later⟩ := not_or.mp (mt List.mem_cons.mpr absent)
        rw [rest.others other later, first.others other]
        exact fun same => apart (List.mem_singleton.mp same) }

end Marking

end Atlaso.Networking.InventoryIndexes
