import Atlaso.Networking.InventoryIndexes
import Mathlib.Data.List.Duplicate
import Mathlib.Data.List.NodupEquivFin

/-!
What the inventory is after a reconciliation.

Each NIC has its row and each row whose NIC is gone is parked, unless a NIC that the inventory does
not know takes over the row of another one by its name while that one is discovered later: the
index of MACs still has the row under its old MAC, and so the later NIC takes it back.
-/

namespace Atlaso.Networking.InventoryReconciliation

open InterfaceInventory InventoryIndexes Library Dictionary ItemLists TextFields

/-! ### The indexes of the rows -/

section Indexes

variable {rows : List PhysicalInterface} {key : PhysicalInterface → Text} {value : Text}

theorem index_of_some {ref : Nat} (found : indexOf key rows value = some ref) :
    ∃ row, rows[ref]? = some row ∧ key row = value := by
  have here := List.find?_some found
  rcases present : rows[ref]? with _ | row
  · rw [present] at here
    cases here
  · rw [present, Option.any_some] at here
    exact ⟨row, rfl, of_decide_eq_true here⟩

theorem index_of_none (absent : indexOf key rows value = none) {ref : Nat}
    {row : PhysicalInterface} (here : rows[ref]? = some row) : key row ≠ value := by
  intro same
  have listed : ref ∈ (List.range rows.length).reverse :=
    List.mem_reverse.mpr (List.mem_range.mpr (List.getElem?_eq_some_iff.mp here).1)
  have missed := List.find?_eq_none.mp absent ref listed
  rw [here, Option.any_some] at missed
  exact missed (decide_eq_true same)

def Alone (key : PhysicalInterface → Text) (rows : List PhysicalInterface) (value : Text) : Prop :=
  ∀ (first second : Nat) (left right : PhysicalInterface), rows[first]? = some left →
    rows[second]? = some right → key left = value → key right = value → first = second

theorem index_of_iff (alone : Alone key rows value) {ref : Nat} :
    indexOf key rows value = some ref ↔ ∃ row, rows[ref]? = some row ∧ key row = value := by
  refine ⟨index_of_some, ?_⟩
  rintro ⟨row, here, same⟩
  rcases found : indexOf key rows value with _ | other
  · exact absurd same (index_of_none found here)
  · obtain ⟨third, there, equal⟩ := index_of_some found
    rw [alone other ref third row there here equal same]

theorem count_le_one_iff : (rows.map key).count value ≤ 1 ↔ Alone key rows value := by
  have twice : (rows.map key).count value ≤ 1 ↔ ¬List.Duplicate value (rows.map key) := by
    rw [List.duplicate_iff_sublist, show [value, value] = List.replicate 2 value from rfl,
      List.replicate_sublist_iff]
    omega
  rw [twice, List.duplicate_iff_exists_distinct_get]
  constructor
  · intro single first second left right leftAt rightAt leftSame rightSame
    by_contra differs
    have leftBound := (List.getElem?_eq_some_iff.mp leftAt)
    have rightBound := (List.getElem?_eq_some_iff.mp rightAt)
    obtain ⟨leftBound, leftIs⟩ := leftBound
    obtain ⟨rightBound, rightIs⟩ := rightBound
    rcases Nat.lt_or_gt_of_ne differs with before | after
    · apply single
      refine ⟨⟨first, by simpa using leftBound⟩, ⟨second, by simpa using rightBound⟩, before, ?_⟩
      simp [leftIs, rightIs, leftSame, rightSame]
    · apply single
      refine ⟨⟨second, by simpa using rightBound⟩, ⟨first, by simpa using leftBound⟩, after, ?_⟩
      simp [leftIs, rightIs, leftSame, rightSame]
  · rintro alone ⟨first, second, before, left, right⟩
    have firstBound : first.val < rows.length := by simpa using first.isLt
    have secondBound : second.val < rows.length := by simpa using second.isLt
    have same := alone first.val second.val _ _ (List.getElem?_eq_getElem firstBound)
      (List.getElem?_eq_getElem secondBound) (by simpa using left.symm) (by simpa using right.symm)
    exact absurd same (Nat.ne_of_lt before)

end Indexes

section Reconciliation

variable (characters : Characters)

/-- The MAC of a row, and that of a NIC. -/
abbrev macOf (row : PhysicalInterface) : Text := macKey characters row.macAddress

abbrev hostMac (host : HostPhysicalInterface) : Text := macKey characters host.macAddress

/-- What an inventory and a discovery are: names and MACs are distinct, and a NIC has a MAC. -/
structure Distinct (rows : List PhysicalInterface) (discovered : List HostPhysicalInterface) :
    Prop where
  names : (rows.map PhysicalInterface.name).Nodup
  macs : ∀ mac ≠ [], (rows.map (macOf characters)).count mac ≤ 1
  hostNames : (discovered.map HostPhysicalInterface.name).Nodup
  hostMacs : (discovered.map (hostMac characters)).Nodup
  known : ∀ host ∈ discovered, hostMac characters host ≠ []
  few : rows.length + discovered.length < 2 ^ 63

variable {characters} {rows : List PhysicalInterface} {discovered : List HostPhysicalInterface}

theorem name_alone (names : (rows.map PhysicalInterface.name).Nodup) (name : Text) :
    Alone PhysicalInterface.name rows name := by
  intro first second left right leftAt rightAt leftSame rightSame
  exact same_ref names leftAt rightAt (leftSame.trans rightSame.symm)

theorem index_of_mac {mac : Text} (nonempty : mac ≠ [])
    (macs : ∀ mac ≠ [], (rows.map (macOf characters)).count mac ≤ 1) {ref : Nat} :
    indexOfMac characters rows mac = some ref ↔
      ∃ row, rows[ref]? = some row ∧ macOf characters row = mac := by
  have alone := count_le_one_iff.mp (macs mac nonempty)
  have spec := @index_of_iff rows (macOf characters) mac alone ref
  unfold indexOfMac
  simp only
  by_cases single : (rows.map (macOf characters)).count mac = 1
  · exact Iff.trans (iff_of_eq (congrArg (· = some ref) (if_pos ⟨nonempty, single⟩))) spec
  · refine Iff.trans (iff_of_eq (congrArg (· = some ref) (if_neg fun both => single both.2))) ?_
    refine iff_of_false (by simp) ?_
    rintro ⟨row, here, rfl⟩
    have member : macOf characters row ∈ rows.map (macOf characters) :=
      List.mem_map_of_mem (List.mem_of_getElem? here)
    have positive := List.count_pos_iff.mpr member
    have bound := macs _ nonempty
    omega

theorem start_indexed (names : (rows.map PhysicalInterface.name).Nodup) :
    Indexed (startInventory characters rows) where
  distinct := names
  byName name ref := index_of_iff (name_alone names name)
  used name := by
    rw [startInventory, List.mem_toFinset, List.mem_map]
  refs mac ref found := by
    simp only [startInventory, indexOfMac] at found
    split at found
    · obtain ⟨row, here, _⟩ := index_of_some found
      exact (List.getElem?_eq_some_iff.mp here).1
    · cases found

/-! ### Rows that another NIC can take -/

/-- An unedited row whose own NIC comes after one that the inventory does not know. -/
structure Overtakable (characters : Characters) (rows : List PhysicalInterface)
    (host : HostPhysicalInterface) (later : List HostPhysicalInterface) (row : PhysicalInterface) :
    Prop where
  inside : row ∈ rows
  unedited : row.desiredStateSource = "seed"
  comes : ∃ other ∈ later, hostMac characters other = macOf characters row
  unknown : ∀ known ∈ rows, macOf characters known ≠ hostMac characters host

def Unambiguous (characters : Characters) (rows : List PhysicalInterface)
    (discovered : List HostPhysicalInterface) : Prop :=
  ∀ earlier host later, discovered = earlier ++ host :: later →
    ∀ row, Overtakable characters rows host later row → row.name ≠ host.name

/-- No such row is parked, for a NIC that comes first, when the name of the NIC before it is that
of a parked row. -/
def Unparked (characters : Characters) (rows : List PhysicalInterface)
    (discovered : List HostPhysicalInterface) : Prop :=
  ∀ earlier host later, discovered = earlier ++ host :: later →
    ∀ row, Overtakable characters rows host later row →
      missingPrefixText <+: host.name → ∀ other ∈ earlier, other.name ≠ row.name

/-! ### The discovered NICs -/

/-- A row that was not matched: as it was, or parked for a NIC with its name. -/
def Waiting (done : List HostPhysicalInterface) (old row : PhysicalInterface) : Prop :=
  row = old ∨ row = { old with name := row.name } ∧ missingPrefixText <+: row.name ∧
    ∃ host ∈ done, host.name = old.name

structure Stage (characters : Characters) (rows : List PhysicalInterface)
    (discovered done : List HostPhysicalInterface) (inventory : Inventory) : Prop where
  indexed : Indexed inventory
  size : rows.length ≤ inventory.rows.length ∧
    inventory.rows.length ≤ rows.length + done.length
  found : ∀ host ∈ done, ∃ ref ∈ inventory.seen, ∃ row, inventory.rows[ref]? = some row ∧
    Represents characters host row
  seen : ∀ ref ∈ inventory.seen, ∃ host ∈ done, ∃ row, inventory.rows[ref]? = some row ∧
    Represents characters host row
  waiting : ∀ (ref : Nat) row, ref ∉ inventory.seen → inventory.rows[ref]? = some row →
    ∃ old, rows[ref]? = some old ∧ Waiting done old row
  kept : ∀ (ref : Nat) old, rows[ref]? = some old →
    ∃ row, inventory.rows[ref]? = some row ∧ Kept old row
  byMac : ∀ mac, (∀ host ∈ done, hostMac characters host ≠ mac) →
    inventory.byMac mac = indexOfMac characters rows mac
  known : ∀ host ∈ done, ∀ (ref : Nat) old, rows[ref]? = some old →
    macOf characters old = hostMac characters host → ref ∈ inventory.seen
  origin : ∀ ref ∈ inventory.seen, ∀ old row, rows[ref]? = some old →
    inventory.rows[ref]? = some row → row.macAddress = macOf characters old ∨
      ∀ host ∈ discovered, hostMac characters host ≠ macOf characters old

theorem waiting_mac {done : List HostPhysicalInterface} {old row : PhysicalInterface}
    (waiting : Waiting done old row) : row.macAddress = old.macAddress := by
  rcases waiting with rfl | ⟨same, _⟩
  · rfl
  · rw [same]

theorem waiting_later {done : List HostPhysicalInterface} {host : HostPhysicalInterface}
    {old before row : PhysicalInterface} (waiting : Waiting done old before)
    (displaced : Displaced host.name before row) : Waiting (done ++ [host]) old row := by
  rcases displaced with rfl | ⟨named, parked, prefixed⟩
  · rcases waiting with rfl | ⟨same, prefixed, other, inside, named⟩
    · exact .inl rfl
    · exact .inr ⟨same, prefixed, other, List.mem_append_left _ inside, named⟩
  · rcases waiting with rfl | ⟨same, _, other, inside, own⟩
    · exact .inr ⟨parked, prefixed, host, List.mem_append_right _ List.mem_cons_self, named.symm⟩
    · refine .inr ⟨?_, prefixed, other, List.mem_append_left _ inside, own⟩
      rw [parked, same]

theorem start_stage (names : (rows.map PhysicalInterface.name).Nodup)
    (discovered : List HostPhysicalInterface) :
    Stage characters rows discovered [] (startInventory characters rows) where
  indexed := start_indexed names
  size := ⟨Nat.le_refl _, Nat.le_refl _⟩
  found := fun _ inside => absurd inside List.not_mem_nil
  seen := fun _ inside => absurd inside List.not_mem_nil
  waiting := fun _ row _ here => ⟨row, here, .inl rfl⟩
  kept := fun _ old here => ⟨old, here, kept_refl old⟩
  byMac := fun _ _ => rfl
  known := fun _ inside => absurd inside List.not_mem_nil
  origin := fun _ inside => absurd inside List.not_mem_nil

section Step

variable {done later : List HostPhysicalInterface} {host : HostPhysicalInterface}
  {inventory after : Inventory} {ref : Nat}

section

variable (distinct : Distinct characters rows discovered)
  (split : discovered = done ++ host :: later)
include distinct split

theorem done_apart {other : HostPhysicalInterface} (inside : other ∈ done) :
    other.name ≠ host.name ∧ hostMac characters other ≠ hostMac characters host := by
  have names := distinct.hostNames
  have macs := distinct.hostMacs
  rw [split, List.map_append, List.map_cons, List.nodup_append] at names macs
  exact ⟨names.2.2 _ (List.mem_map_of_mem inside) _ List.mem_cons_self,
    macs.2.2 _ (List.mem_map_of_mem inside) _ List.mem_cons_self⟩

theorem later_apart {other : HostPhysicalInterface} (inside : other ∈ later) :
    hostMac characters other ≠ hostMac characters host := by
  have macs := distinct.hostMacs
  rw [split, List.map_append, List.map_cons, List.nodup_append, List.nodup_cons] at macs
  intro same
  exact macs.2.1.1 (same ▸ List.mem_map_of_mem inside)

section

variable (stage : Stage characters rows discovered done inventory)
  (recorded : Recorded characters host inventory after ref)
include stage recorded

/-- The row of the NIC was not matched before. -/
theorem target_unseen : ref ∉ inventory.seen := by
  intro inside
  have member : host ∈ discovered := by
    rw [split]
    exact List.mem_append_right _ List.mem_cons_self
  obtain ⟨other, earlier, row, here, represents⟩ := stage.seen ref inside
  obtain ⟨otherName, otherMac⟩ := done_apart distinct split earlier
  rcases recorded.target with ⟨before, _, there, _, _, chosen⟩ | ⟨new, _⟩
  · rw [here] at there
    obtain rfl := Option.some.inj there
    rcases chosen with found | ⟨_, named, _⟩
    · rw [stage.byMac _ fun third present => (done_apart distinct split present).2] at found
      obtain ⟨old, original, same⟩ :=
        (index_of_mac (distinct.known host member) distinct.macs).mp found
      rcases stage.origin ref inside old row original here with own | gone
      · rw [same, represents.mac] at own
        exact otherMac own
      · exact gone host member same.symm
    · exact otherName (represents.name.symm.trans named)
  · rw [new] at here
    exact absurd (List.getElem?_eq_some_iff.mp here).1 (Nat.lt_irrefl _)

/-- Rows that were matched before stay as they are. -/
theorem seen_same {other : Nat} (inside : other ∈ inventory.seen) :
    after.rows[other]? = inventory.rows[other]? := by
  have apart : other ≠ ref := by
    rintro rfl
    exact target_unseen distinct split stage recorded inside
  obtain ⟨earlier, member, row, here, represents⟩ := stage.seen other inside
  obtain ⟨later', found, displaced⟩ := recorded.others other row apart here
  rcases displaced with rfl | ⟨named, _⟩
  · rw [found, here]
  · exact absurd (represents.name.symm.trans named) (done_apart distinct split member).1

theorem matched_known {other : Nat} {old : PhysicalInterface} (here : rows[other]? = some old)
    (same : macOf characters old = hostMac characters host) : other = ref := by
  have member : host ∈ discovered := by
    rw [split]
    exact List.mem_append_right _ List.mem_cons_self
  have listed : inventory.byMac (hostMac characters host) = some other := by
    rw [stage.byMac _ fun third present => (done_apart distinct split present).2]
    exact (index_of_mac (distinct.known host member) distinct.macs).mpr ⟨old, here, same⟩
  rcases recorded.target with ⟨_, _, _, _, _, found | ⟨absent, _⟩⟩ | ⟨_, absent, _⟩
  · rw [hostMac, found] at listed
    exact (Option.some.inj listed).symm
  · rw [hostMac, absent] at listed
    cases listed
  · rw [hostMac, absent] at listed
    cases listed

end

end

theorem target_origin (distinct : Distinct characters rows discovered)
    (unambiguous : Unambiguous characters rows discovered)
    (unparked : Unparked characters rows discovered) (split : discovered = done ++ host :: later)
    (stage : Stage characters rows discovered done inventory)
    (recorded : Recorded characters host inventory after ref) {old : PhysicalInterface}
    (here : rows[ref]? = some old) :
    hostMac characters host = macOf characters old ∨
      ∀ other ∈ discovered, hostMac characters other ≠ macOf characters old := by
  have member : host ∈ discovered := by
    rw [split]
    exact List.mem_append_right _ List.mem_cons_self
  have unseen := target_unseen distinct split stage recorded
  have untouched : ∀ third ∈ done, hostMac characters third ≠ hostMac characters host :=
    fun third present => (done_apart distinct split present).2
  rcases recorded.target with ⟨before, _, there, _, _, chosen⟩ | ⟨new, _⟩
  · rcases chosen with found | ⟨absent, named, choice⟩
    · rw [stage.byMac _ untouched] at found
      obtain ⟨row, original, same⟩ :=
        (index_of_mac (distinct.known host member) distinct.macs).mp found
      rw [here] at original
      obtain rfl := Option.some.inj original
      exact .inl same.symm
    · rw [stage.byMac _ untouched] at absent
      have unknown : ∀ known ∈ rows, macOf characters known ≠ hostMac characters host := by
        intro known inside same
        obtain ⟨position, listed⟩ := List.getElem?_of_mem inside
        have found := (index_of_mac (distinct.known host member) distinct.macs).mpr
          ⟨known, listed, same⟩
        rw [hostMac, absent] at found
        cases found
      obtain ⟨row, original, waiting⟩ := stage.waiting ref before unseen there
      rw [here] at original
      obtain rfl := Option.some.inj original
      have inside := List.mem_of_getElem? here
      have kept : Kept old before := by
        rcases waiting with rfl | ⟨same, _⟩
        · exact kept_refl _
        · rw [same]
          exact ⟨rfl, rfl, fun _ => rfl⟩
      have unedited : old.desiredStateSource = "seed" := by
        rcases choice with seed | same
        · rw [← kept.desired]
          exact seed
        · rw [waiting_mac waiting] at same
          exact absurd same (unknown old inside)
      refine .inr ?_
      intro other present same
      rw [split] at present
      rcases List.mem_append.mp present with earlier | rest
      · exact unseen (stage.known other earlier ref old here same.symm)
      · rcases List.mem_cons.mp rest with rfl | comes
        · exact unknown old inside same.symm
        · have overtakable : Overtakable characters rows host later old :=
            ⟨inside, unedited, ⟨other, comes, same⟩, unknown⟩
          rcases waiting with rfl | ⟨_, prefixed, third, earlier, own⟩
          · exact unambiguous done host later split before overtakable named
          · rw [named] at prefixed
            exact unparked done host later split old overtakable prefixed third earlier own
  · have bound := (List.getElem?_eq_some_iff.mp here).1
    have longer := stage.size.1
    omega

theorem stage_step (distinct : Distinct characters rows discovered)
    (unambiguous : Unambiguous characters rows discovered)
    (unparked : Unparked characters rows discovered) (split : discovered = done ++ host :: later)
    (stage : Stage characters rows discovered done inventory)
    (recorded : Recorded characters host inventory after ref) :
    Stage characters rows discovered (done ++ [host]) after := by
  obtain ⟨row, here, represents⟩ := recorded.row
  have same := fun (other : Nat) (inside : other ∈ inventory.seen) =>
    seen_same distinct split stage recorded inside
  exact {
    indexed := recorded.indexed
    size := by
      rw [List.length_append, List.length_singleton]
      have bounds := stage.size
      have grown := recorded.size
      omega
    found := by
      intro other inside
      rw [recorded.seen]
      rcases List.mem_append.mp inside with earlier | last
      · obtain ⟨position, listed, third, there, carries⟩ := stage.found other earlier
        exact ⟨position, List.mem_cons_of_mem _ listed, third, (same position listed).trans there,
          carries⟩
      · obtain rfl := List.mem_singleton.mp last
        exact ⟨ref, List.mem_cons_self, row, here, represents⟩
    seen := by
      intro other inside
      rw [recorded.seen] at inside
      rcases List.mem_cons.mp inside with rfl | listed
      · exact ⟨host, List.mem_append_right _ List.mem_cons_self, row, here, represents⟩
      · obtain ⟨earlier, member, third, there, carries⟩ := stage.seen other listed
        exact ⟨earlier, List.mem_append_left _ member, third, (same other listed).trans there,
          carries⟩
    waiting := by
      intro other third absent there
      rw [recorded.seen] at absent
      obtain ⟨apart, unseen⟩ := not_or.mp (mt List.mem_cons.mpr absent)
      obtain ⟨before, earlier⟩ := recorded.known other third apart there
      obtain ⟨old, original, waiting⟩ := stage.waiting other before unseen earlier
      obtain ⟨later', found, displaced⟩ := recorded.others other before apart earlier
      rw [there] at found
      obtain rfl := Option.some.inj found
      exact ⟨old, original, waiting_later waiting displaced⟩
    kept := by
      intro other old original
      obtain ⟨before, earlier, kept⟩ := stage.kept other old original
      by_cases target : other = ref
      · subst target
        rcases recorded.target with ⟨third, last, there, final, keeps, _⟩ | ⟨new, _⟩
        · rw [earlier] at there
          obtain rfl := Option.some.inj there
          exact ⟨last, final, kept_trans kept keeps⟩
        · rw [new] at earlier
          exact absurd (List.getElem?_eq_some_iff.mp earlier).1 (Nat.lt_irrefl _)
      · obtain ⟨third, there, displaced⟩ := recorded.others other before target earlier
        exact ⟨third, there, kept_trans kept (displaced_kept displaced)⟩
    byMac := by
      intro mac apart
      have different : mac ≠ macKey characters host.macAddress :=
        Ne.symm (apart host (List.mem_append_right _ List.mem_cons_self))
      rw [recorded.byMac, Function.update_of_ne different]
      exact stage.byMac mac fun other inside => apart other (List.mem_append_left _ inside)
    known := by
      intro other inside position old original equal
      rw [recorded.seen]
      rcases List.mem_append.mp inside with earlier | last
      · exact List.mem_cons_of_mem _ (stage.known other earlier position old original equal)
      · obtain rfl := List.mem_singleton.mp last
        rw [matched_known distinct split stage recorded original equal]
        exact List.mem_cons_self
    origin := by
      intro other inside old third original there
      rw [recorded.seen] at inside
      rcases List.mem_cons.mp inside with rfl | listed
      · rw [here] at there
        obtain rfl := Option.some.inj there
        rw [represents.mac]
        exact target_origin distinct unambiguous unparked split stage recorded original
      · rw [same other listed] at there
        exact stage.origin other listed old third original there }

end Step

theorem stage_run (modes : AppliedModes) (now : Nat) (distinct : Distinct characters rows discovered)
    (unambiguous : Unambiguous characters rows discovered)
    (unparked : Unparked characters rows discovered) (later done : List HostPhysicalInterface)
    (split : discovered = done ++ later) {inventory : Inventory}
    (stage : Stage characters rows discovered done inventory) :
    Stage characters rows discovered discovered
      (later.foldl (recordHost characters modes now) inventory) := by
  induction later generalizing done inventory with
  | nil =>
    rw [List.append_nil] at split
    rwa [← split] at stage
  | cons host later induction =>
    have few : inventory.rows.length < 2 ^ 64 := by
      have bound := stage.size.2
      have total := distinct.few
      rw [split, List.length_append] at total
      omega
    obtain ⟨ref, recorded⟩ := record_host_recorded characters modes now host stage.indexed few
    exact induction (done ++ [host]) (by rw [split]; simp)
      (stage_step distinct unambiguous unparked split stage recorded)

/-! ### A second pass -/

theorem mac_key_again (value : Text) :
    macKey characters (macKey characters value) = macKey characters value := by
  unfold macKey
  rw [lower_strip, characters.idempotent, strip_strip]

theorem represents_mac {host : HostPhysicalInterface} {row : PhysicalInterface}
    (represents : Represents characters host row) :
    macOf characters row = hostMac characters host := by
  rw [macOf, represents.mac, mac_key_again]

def identity (row : PhysicalInterface) : Text × Text × Option Nat × String :=
  (row.name, row.macAddress, row.missingSince, row.inventorySource)

structure Reconciled (characters : Characters) (rows : List PhysicalInterface)
    (discovered : List HostPhysicalInterface) : Prop where
  names : (rows.map PhysicalInterface.name).Nodup
  macs : ∀ mac ≠ [], (rows.map (macOf characters)).count mac ≤ 1
  present : ∀ host ∈ discovered, ∃ (ref : Nat) (row : PhysicalInterface), rows[ref]? = some row ∧
    Represents characters host row
  parked : ∀ row ∈ rows, row.inventorySource = "host" →
    (∃ host ∈ discovered, Represents characters host row) ∨
      row.missingSince ≠ none ∧ missingPrefixText <+: row.name

/-- The tables of a second pass after some of the NICs. -/
structure Steady (characters : Characters) (rows : List PhysicalInterface)
    (discovered done : List HostPhysicalInterface) (inventory : Inventory) : Prop where
  indexed : Indexed inventory
  size : inventory.rows.length = rows.length
  same : ∀ ref : Nat, inventory.rows[ref]?.map identity = rows[ref]?.map identity
  byMac : ∀ host ∈ discovered, ∀ (ref : Nat) row, rows[ref]? = some row →
    Represents characters host row → inventory.byMac (hostMac characters host) = some ref
  seen : ∀ host ∈ done, ∀ (ref : Nat) row, rows[ref]? = some row →
    Represents characters host row → ref ∈ inventory.seen

theorem identity_parts {first second : PhysicalInterface} (same : identity first = identity second) :
    first.name = second.name ∧ first.macAddress = second.macAddress ∧
      first.missingSince = second.missingSince ∧
      first.inventorySource = second.inventorySource := by
  simpa [identity] using same

theorem steady_row {done : List HostPhysicalInterface} {inventory : Inventory}
    (steady : Steady characters rows discovered done inventory) {ref : Nat}
    {row : PhysicalInterface} (here : rows[ref]? = some row) :
    ∃ now, inventory.rows[ref]? = some now ∧ identity now = identity row := by
  have same := steady.same ref
  rw [here] at same
  exact Option.map_eq_some_iff.mp same

theorem steady_step (modes : AppliedModes) (now : Nat)
    (reconciled : Reconciled characters rows discovered) (few : rows.length < 2 ^ 64)
    {done : List HostPhysicalInterface} {host : HostPhysicalInterface} (member : host ∈ discovered)
    {inventory : Inventory} (steady : Steady characters rows discovered done inventory) :
    Steady characters rows discovered (done ++ [host])
      (recordHost characters modes now inventory host) := by
  obtain ⟨own, row, here, represents⟩ := reconciled.present host member
  obtain ⟨current, there, same⟩ := steady_row steady here
  obtain ⟨named, mac, missing, source⟩ := identity_parts same
  have listed := steady.byMac host member own row here represents
  obtain ⟨ref, recorded⟩ := record_host_recorded characters modes now host steady.indexed
    (by rw [steady.size]; exact few)
  have target : ref = own ∧ ∃ after, (recordHost characters modes now inventory host).rows[own]? =
      some after ∧ Represents characters host after := by
    obtain ⟨after, found, carries⟩ := recorded.row
    have equal : ref = own := by
      rcases recorded.target with ⟨_, _, _, _, _, found | ⟨absent, _⟩⟩ | ⟨_, absent, _⟩
      · rw [hostMac, found] at listed
        exact Option.some.inj listed
      · rw [hostMac, absent] at listed
        cases listed
      · rw [hostMac, absent] at listed
        cases listed
    exact ⟨equal, after, equal ▸ found, carries⟩
  obtain ⟨rfl, after, found, carries⟩ := target
  have others : ∀ other : Nat, other ≠ ref →
      (recordHost characters modes now inventory host).rows[other]? = inventory.rows[other]? := by
    intro other apart
    rcases before : inventory.rows[other]? with _ | third
    · rcases later : (recordHost characters modes now inventory host).rows[other]? with _ | fourth
      · rfl
      · obtain ⟨_, earlier⟩ := recorded.known other fourth apart later
        rw [before] at earlier
        cases earlier
    · obtain ⟨fourth, later, displaced⟩ := recorded.others other third apart before
      rcases displaced with rfl | ⟨own, _⟩
      · exact later
      · have equal := same_ref steady.indexed.distinct before there
          (own.trans (represents.name.symm.trans named.symm))
        exact absurd equal apart
  exact {
    indexed := recorded.indexed
    size := by
      apply Nat.le_antisymm
      · by_contra longer
        have bound : rows.length < (recordHost characters modes now inventory host).rows.length :=
          by omega
        have outside : rows.length ≠ ref := by
          rintro rfl
          exact absurd (List.getElem?_eq_some_iff.mp here).1 (Nat.lt_irrefl _)
        have extra := others rows.length outside
        rw [List.getElem?_eq_getElem bound, List.getElem?_eq_none (Nat.le_of_eq steady.size)] at extra
        cases extra
      · exact (Nat.le_of_eq steady.size.symm).trans recorded.size.1
    same := by
      intro other
      by_cases equal : other = ref
      · subst equal
        rw [found, here]
        simp only [Option.map_some, identity, carries.name, carries.mac, carries.present,
          carries.source, represents.name, represents.mac, represents.present, represents.source]
      · rw [others other equal]
        exact steady.same other
    byMac := by
      intro other inside position third original carried
      rw [recorded.byMac]
      by_cases equal : hostMac characters other = macKey characters host.macAddress
      · rw [equal, Function.update_self]
        have known := steady.byMac other inside position third original carried
        rw [equal, ← hostMac, listed] at known
        exact known
      · rw [Function.update_of_ne equal]
        exact steady.byMac other inside position third original carried
    seen := by
      intro other inside position third original carried
      rw [recorded.seen]
      rcases List.mem_append.mp inside with earlier | last
      · exact List.mem_cons_of_mem _ (steady.seen other earlier position third original carried)
      · obtain rfl := List.mem_singleton.mp last
        have known := steady.byMac other member position third original carried
        rw [listed] at known
        obtain rfl := Option.some.inj known
        exact List.mem_cons_self }

theorem steady_run (modes : AppliedModes) (now : Nat)
    (reconciled : Reconciled characters rows discovered) (few : rows.length < 2 ^ 64)
    (later done : List HostPhysicalInterface) (split : discovered = done ++ later)
    {inventory : Inventory} (steady : Steady characters rows discovered done inventory) :
    Steady characters rows discovered discovered
      (later.foldl (recordHost characters modes now) inventory) := by
  induction later generalizing done inventory with
  | nil =>
    rw [List.append_nil] at split
    rwa [← split] at steady
  | cons host later induction =>
    have member : host ∈ discovered := by
      rw [split]
      exact List.mem_append_right _ List.mem_cons_self
    exact induction (done ++ [host]) (by rw [split]; simp)
      (steady_step modes now reconciled few member steady)

theorem start_steady (reconciled : Reconciled characters rows discovered)
    (known : ∀ host ∈ discovered, hostMac characters host ≠ []) :
    Steady characters rows discovered [] (startInventory characters rows) where
  indexed := start_indexed reconciled.names
  size := rfl
  same := fun _ => rfl
  byMac := by
    intro host inside ref row here represents
    exact (index_of_mac (known host inside) reconciled.macs).mpr
      ⟨row, here, represents_mac represents⟩
  seen := fun _ inside => absurd inside List.not_mem_nil

theorem reconciled_rows (modes : AppliedModes) (now : Nat) (rows : List PhysicalInterface)
    (discovered : List HostPhysicalInterface) {recorded : Inventory}
    (run : recorded = discovered.foldl (recordHost characters modes now)
      (startInventory characters rows))
    (indexed : Indexed recorded) (few : recorded.rows.length < 2 ^ 64) :
    ∃ after, (reconcileHostPhysicalInterfaces characters modes now rows discovered).1 = after.rows ∧
      MarkedRows now recorded (List.range recorded.rows.length) after := by
  refine ⟨_, ?_, mark_all_marked characters now _ List.nodup_range indexed few⟩
  rw [run]
  rfl

theorem reconciled_again (modes : AppliedModes) (now : Nat)
    (reconciled : Reconciled characters rows discovered) (few : rows.length < 2 ^ 64)
    (known : ∀ host ∈ discovered, hostMac characters host ≠ []) :
    (reconcileHostPhysicalInterfaces characters modes now rows discovered).1.map identity =
      rows.map identity := by
  have steady := steady_run modes now reconciled few discovered [] rfl
    (start_steady reconciled known)
  obtain ⟨after, result, marked⟩ := reconciled_rows modes now rows discovered rfl steady.indexed
    (by rw [steady.size]; exact few)
  rw [result]
  apply List.ext_getElem?
  intro ref
  rw [List.getElem?_map, List.getElem?_map]
  rcases here : rows[ref]? with _ | row
  · have short := List.getElem?_eq_none_iff.mp here
    rw [List.getElem?_eq_none (by rw [marked.size, steady.size]; exact short)]
  · obtain ⟨current, there, same⟩ := steady_row steady here
    have bound := (List.getElem?_eq_some_iff.mp there).1
    obtain ⟨last, found, shape⟩ := marked.marked ref (List.mem_range.mpr bound) current there
    rw [found, Option.map_some, Option.map_some, ← same]
    congr 1
    rw [MarkedRow] at shape
    split at shape
    · next gone =>
        obtain ⟨host, unseen⟩ := gone
        obtain ⟨_, _, missing, source⟩ := identity_parts same
        have parked := (reconciled.parked row (List.mem_of_getElem? here)
          (source.symm.trans host)).resolve_left (by
            rintro ⟨other, inside, represents⟩
            exact of_decide_eq_false unseen (steady.seen other inside ref row here represents))
        obtain ⟨shape, _, kept⟩ := shape
        have name := kept (by rw [(identity_parts same).1]; exact parked.2)
        rw [shape, name]
        simp only [identity]
        obtain ⟨since, known⟩ := Option.ne_none_iff_exists'.mp parked.1
        rw [← missing] at known
        rw [known]
        rfl
    · rw [shape]

/-! ### The first pass -/

/-- What a reconciliation promises. -/
structure Settles (characters : Characters) (modes : AppliedModes) (now : Nat)
    (rows : List PhysicalInterface) (discovered : List HostPhysicalInterface)
    (result : List PhysicalInterface) : Prop where
  names : (result.map PhysicalInterface.name).Nodup
  present : ∀ host ∈ discovered, ∃! ref : Nat, ∃ row, result[ref]? = some row ∧
    row.missingSince = none ∧ row.name = host.name ∧ macOf characters row = hostMac characters host
  carried : ∀ (ref : Nat) old, rows[ref]? = some old → ∀ host ∈ discovered,
    macOf characters old = hostMac characters host →
      ∃ row, result[ref]? = some row ∧ Represents characters host row ∧ Kept old row
  parked : ∀ row ∈ result, row.inventorySource = "host" →
    (∀ host ∈ discovered, ¬(row.name = host.name ∧ macOf characters row = hostMac characters host)) →
      row.missingSince ≠ none ∧ row.operState = "missing" ∧ missingPrefixText <+: row.name
  complete : ∀ (ref : Nat) old, rows[ref]? = some old → ∃ row, result[ref]? = some row ∧ Kept old row
  stable : ∀ modes later,
    (reconcileHostPhysicalInterfaces characters modes later result discovered).1.map identity =
      result.map identity

theorem marked_kept {now : Nat} {seen : Bool} {before row : PhysicalInterface}
    (marked : MarkedRow now seen before row) : Kept before row := by
  rw [MarkedRow] at marked
  split at marked
  · rw [marked.1]
    exact ⟨rfl, rfl, fun _ => rfl⟩
  · rw [marked]
    exact kept_refl _

theorem marked_mac {now : Nat} {seen : Bool} {before row : PhysicalInterface}
    (marked : MarkedRow now seen before row) :
    row.macAddress = before.macAddress ∧ row.inventorySource = before.inventorySource := by
  rw [MarkedRow] at marked
  split at marked
  · rw [marked.1]
    exact ⟨rfl, rfl⟩
  · rw [marked]
    exact ⟨rfl, rfl⟩

theorem marked_seen {now : Nat} {before row : PhysicalInterface}
    (marked : MarkedRow now true before row) : row = before := by
  rw [MarkedRow, if_neg (by simp)] at marked
  exact marked

section Final

variable {now : Nat} {recorded after : Inventory}

section

variable (marked : MarkedRows now recorded (List.range recorded.rows.length) after)
include marked

theorem marked_row {ref : Nat} {before : PhysicalInterface}
    (here : recorded.rows[ref]? = some before) :
    ∃ row, after.rows[ref]? = some row ∧ MarkedRow now (ref ∈ recorded.seen) before row :=
  marked.marked ref (List.mem_range.mpr (List.getElem?_eq_some_iff.mp here).1) before here

theorem row_marked {ref : Nat} {row : PhysicalInterface} (here : after.rows[ref]? = some row) :
    ∃ before, recorded.rows[ref]? = some before ∧
      MarkedRow now (ref ∈ recorded.seen) before row := by
  have bound := (List.getElem?_eq_some_iff.mp here).1
  rw [marked.size] at bound
  obtain ⟨last, found, shape⟩ := marked_row marked (List.getElem?_eq_getElem bound)
  rw [here] at found
  obtain rfl := Option.some.inj found
  exact ⟨_, List.getElem?_eq_getElem bound, shape⟩

theorem represented_row {ref : Nat} (inside : ref ∈ recorded.seen) {row : PhysicalInterface}
    (here : recorded.rows[ref]? = some row) : after.rows[ref]? = some row := by
  obtain ⟨last, found, shape⟩ := marked_row marked here
  rw [decide_eq_true inside] at shape
  rw [found, marked_seen shape]

end

theorem final_mac_alone (distinct : Distinct characters rows discovered)
    (stage : Stage characters rows discovered discovered recorded)
    (marked : MarkedRows now recorded (List.range recorded.rows.length) after) {mac : Text}
    (nonempty : mac ≠ []) : Alone (macOf characters) after.rows mac := by
  have shape : ∀ (ref : Nat) row, after.rows[ref]? = some row → macOf characters row = mac →
      (ref ∈ recorded.seen ∧ ∃ host ∈ discovered, hostMac characters host = mac ∧
        row.name = host.name) ∨
      (ref ∉ recorded.seen ∧ ∃ old, rows[ref]? = some old ∧ macOf characters old = mac) := by
    intro ref row here same
    obtain ⟨before, earlier, change⟩ := row_marked marked here
    by_cases inside : ref ∈ recorded.seen
    · obtain ⟨host, member, third, there, represents⟩ := stage.seen ref inside
      have kept := represented_row marked inside there
      rw [here] at kept
      obtain rfl := Option.some.inj kept
      exact .inl ⟨inside, host, member, (represents_mac represents).symm.trans same,
        represents.name⟩
    · obtain ⟨old, original, waiting⟩ := stage.waiting ref before inside earlier
      refine .inr ⟨inside, old, original, ?_⟩
      rw [macOf, ← waiting_mac waiting, ← (marked_mac change).1]
      exact same
  intro first second left right leftAt rightAt leftSame rightSame
  rcases shape first left leftAt leftSame with
    ⟨_, host, member, own, named⟩ | ⟨unseen, old, original, own⟩
  · rcases shape second right rightAt rightSame with
      ⟨_, other, inside, equal, called⟩ | ⟨unseen, old, original, equal⟩
    · have same : host = other :=
        List.inj_on_of_nodup_map distinct.hostMacs member inside (own.trans equal.symm)
      subst same
      exact same_ref marked.indexed.distinct leftAt rightAt (named.trans called.symm)
    · exact absurd (stage.known host member second old original (equal.trans own.symm)) unseen
  · rcases shape second right rightAt rightSame with
      ⟨_, other, inside, equal, called⟩ | ⟨_, third, there, equal⟩
    · exact absurd (stage.known other inside first old original (own.trans equal.symm)) unseen
    · exact count_le_one_iff.mp (distinct.macs mac nonempty) first second old third original there
        own equal

theorem final_reconciled (distinct : Distinct characters rows discovered)
    (stage : Stage characters rows discovered discovered recorded)
    (marked : MarkedRows now recorded (List.range recorded.rows.length) after) :
    Reconciled characters after.rows discovered where
  names := marked.indexed.distinct
  macs mac nonempty := count_le_one_iff.mpr (final_mac_alone distinct stage marked nonempty)
  present := by
    intro host inside
    obtain ⟨ref, seen, row, here, represents⟩ := stage.found host inside
    exact ⟨ref, row, represented_row marked seen here, represents⟩
  parked := by
    intro row inside source
    obtain ⟨ref, here⟩ := List.getElem?_of_mem inside
    obtain ⟨before, earlier, change⟩ := row_marked marked here
    by_cases seen : ref ∈ recorded.seen
    · obtain ⟨host, member, third, there, represents⟩ := stage.seen ref seen
      have kept := represented_row marked seen there
      rw [here] at kept
      obtain rfl := Option.some.inj kept
      exact .inl ⟨host, member, represents⟩
    · have host : before.inventorySource = "host" := (marked_mac change).2.symm.trans source
      rw [MarkedRow, if_pos ⟨host, decide_eq_false seen⟩] at change
      refine .inr ⟨?_, change.2.1⟩
      rw [change.1]
      exact Option.some_ne_none _

theorem final_settles (modes : AppliedModes) (distinct : Distinct characters rows discovered)
    (stage : Stage characters rows discovered discovered recorded)
    (marked : MarkedRows now recorded (List.range recorded.rows.length) after) :
    Settles characters modes now rows discovered after.rows where
  names := marked.indexed.distinct
  present := by
    intro host inside
    obtain ⟨ref, row, here, represents⟩ :=
      (final_reconciled distinct stage marked).present host inside
    refine ⟨ref, ⟨row, here, represents.present, represents.name, represents_mac represents⟩, ?_⟩
    rintro other ⟨third, there, _, named, _⟩
    exact same_ref marked.indexed.distinct there here (named.trans represents.name.symm)
  carried := by
    intro ref old original host inside same
    have seen := stage.known host inside ref old original same
    obtain ⟨other, member, row, here, represents⟩ := stage.seen ref seen
    obtain ⟨third, there, kept⟩ := stage.kept ref old original
    rw [here] at there
    obtain rfl := Option.some.inj there
    have own := (stage.origin ref seen old row original here).resolve_right fun gone =>
      gone host inside same.symm
    have equal : other = host := List.inj_on_of_nodup_map distinct.hostMacs member inside
      (represents.mac.symm.trans (own.trans same))
    subst equal
    exact ⟨row, represented_row marked seen here, represents, kept⟩
  parked := by
    intro row inside source none
    obtain ⟨ref, here⟩ := List.getElem?_of_mem inside
    obtain ⟨before, earlier, change⟩ := row_marked marked here
    have unseen : ref ∉ recorded.seen := by
      intro seen
      obtain ⟨host, member, third, there, represents⟩ := stage.seen ref seen
      have kept := represented_row marked seen there
      rw [here] at kept
      obtain rfl := Option.some.inj kept
      exact none host member ⟨represents.name, represents_mac represents⟩
    have host : before.inventorySource = "host" := (marked_mac change).2.symm.trans source
    rw [MarkedRow, if_pos ⟨host, decide_eq_false unseen⟩] at change
    obtain ⟨shape, prefixed, _⟩ := change
    refine ⟨?_, ?_, prefixed⟩
    · rw [shape]
      exact Option.some_ne_none _
    · rw [shape]
  complete := by
    intro ref old original
    obtain ⟨before, earlier, kept⟩ := stage.kept ref old original
    obtain ⟨row, here, change⟩ := marked_row marked earlier
    exact ⟨row, here, kept_trans kept (marked_kept change)⟩
  stable := by
    intro other later
    have reconciled := final_reconciled distinct stage marked
    apply reconciled_again other later reconciled _ distinct.known
    rw [marked.size]
    have bound := stage.size.2
    have few := distinct.few
    omega

end Final

/-! ### A row that is taken back -/

section Taken

theorem run_keeps (modes : AppliedModes) (now : Nat) (holds : Inventory → Prop)
    (hosts : List HostPhysicalInterface)
    (step : ∀ host ∈ hosts, ∀ inventory after ref, Indexed inventory → holds inventory →
      Recorded characters host inventory after ref → holds after)
    {inventory : Inventory} (indexed : Indexed inventory)
    (few : inventory.rows.length + hosts.length < 2 ^ 64) (before : holds inventory) :
    holds (hosts.foldl (recordHost characters modes now) inventory) ∧
      Indexed (hosts.foldl (recordHost characters modes now) inventory) ∧
      (hosts.foldl (recordHost characters modes now) inventory).rows.length ≤
        inventory.rows.length + hosts.length := by
  induction hosts generalizing inventory with
  | nil => exact ⟨before, indexed, Nat.le_refl _⟩
  | cons host hosts induction =>
    rw [List.length_cons] at few
    obtain ⟨ref, recorded⟩ := record_host_recorded characters modes now host indexed
      (show inventory.rows.length < 2 ^ 64 by omega)
    have grown := recorded.size.2
    obtain ⟨after, exactly, size⟩ := induction
      (fun other inside => step other (List.mem_cons_of_mem _ inside)) recorded.indexed
      (by omega) (step host List.mem_cons_self inventory _ ref indexed before recorded)
    rw [List.foldl_cons, List.length_cons]
    exact ⟨after, exactly, by omega⟩

theorem recorded_macs {host : HostPhysicalInterface} {inventory after : Inventory} {ref other : Nat}
    {row : PhysicalInterface} (recorded : Recorded characters host inventory after ref)
    (here : after.rows[other]? = some row) :
    (other = ref ∧ macOf characters row = hostMac characters host) ∨
      other ≠ ref ∧ ∃ before, inventory.rows[other]? = some before ∧
        macOf characters row = macOf characters before := by
  by_cases equal : other = ref
  · subst equal
    obtain ⟨own, there, represents⟩ := recorded.row
    rw [here] at there
    obtain rfl := Option.some.inj there
    exact .inl ⟨rfl, represents_mac represents⟩
  · obtain ⟨before, earlier⟩ := recorded.known other row equal here
    obtain ⟨third, there, displaced⟩ := recorded.others other before equal earlier
    rw [here] at there
    obtain rfl := Option.some.inj there
    refine .inr ⟨equal, before, earlier, ?_⟩
    rcases displaced with rfl | ⟨_, same, _⟩
    · rfl
    · rw [same]

variable {row : PhysicalInterface} {position : Nat} {mac own : Text}

/-- Before the unknown NIC: the row is untouched, and no row has the MAC. -/
structure Before (characters : Characters) (rows : List PhysicalInterface)
    (row : PhysicalInterface) (position : Nat) (mac own : Text) (inventory : Inventory) : Prop where
  here : inventory.rows[position]? = some row
  absent : ∀ (ref : Nat) other, inventory.rows[ref]? = some other → macOf characters other ≠ mac
  unknown : inventory.byMac mac = none
  listed : inventory.byMac own = some position
  single : ∀ other, inventory.byMac other = some position → other = own

/-- Between the two: only the row has the MAC, and the index still has it under its own. -/
structure Between (characters : Characters) (position : Nat) (mac own : Text)
    (inventory : Inventory) : Prop where
  only : ∀ (ref : Nat) other, inventory.rows[ref]? = some other →
    macOf characters other = mac → ref = position
  listed : inventory.byMac own = some position

/-- After both: no row has the MAC. -/
def Lost (characters : Characters) (mac : Text) (inventory : Inventory) : Prop :=
  ∀ (ref : Nat) other, inventory.rows[ref]? = some other → macOf characters other ≠ mac

variable {host : HostPhysicalInterface} {inventory after : Inventory} {ref : Nat}

theorem before_step (named : row.name ≠ host.name) (unequal : hostMac characters host ≠ mac)
    (apart : hostMac characters host ≠ own)
    (before : Before characters rows row position mac own inventory)
    (recorded : Recorded characters host inventory after ref) :
    Before characters rows row position mac own after := by
  have differs : position ≠ ref := by
    rintro rfl
    rcases recorded.target with ⟨third, _, there, _, _, found | ⟨_, same, _⟩⟩ | ⟨new, _⟩
    · exact apart (before.single _ found)
    · rw [before.here] at there
      obtain rfl := Option.some.inj there
      exact named same
    · have bound := (List.getElem?_eq_some_iff.mp before.here).1
      omega
  exact {
    here := by
      obtain ⟨third, there, displaced⟩ := recorded.others position row differs before.here
      rcases displaced with rfl | ⟨same, _⟩
      · exact there
      · exact absurd same named
    absent := by
      intro other third there
      rcases recorded_macs recorded there with ⟨_, same⟩ | ⟨_, fourth, earlier, same⟩
      · rw [same]
        exact unequal
      · rw [same]
        exact before.absent other fourth earlier
    unknown := by
      rw [recorded.byMac, Function.update_of_ne (Ne.symm unequal)]
      exact before.unknown
    listed := by
      rw [recorded.byMac, Function.update_of_ne (Ne.symm apart)]
      exact before.listed
    single := by
      intro other found
      rw [recorded.byMac] at found
      by_cases equal : other = macKey characters host.macAddress
      · rw [equal, Function.update_self] at found
        exact absurd (Option.some.inj found).symm differs
      · rw [Function.update_of_ne equal] at found
        exact before.single other found }

theorem taking_step (named : row.name = host.name) (unedited : row.desiredStateSource = "seed")
    (indexed : Indexed inventory) (apart : hostMac characters host ≠ own)
    (before : Before characters rows row position (hostMac characters host) own inventory)
    (recorded : Recorded characters host inventory after ref) :
    Between characters position (hostMac characters host) own after := by
  have taken : ref = position := by
    rcases recorded.target with ⟨third, _, there, _, _, found | ⟨_, same, _⟩⟩ | ⟨_, _, edited⟩
    · rw [← hostMac, before.unknown] at found
      cases found
    · exact same_ref indexed.distinct there before.here (same.trans named.symm)
    · exact absurd unedited (edited row (List.mem_of_getElem? before.here) named)
  subst taken
  constructor
  · intro other third there same
    rcases recorded_macs recorded there with ⟨equal, _⟩ | ⟨_, fourth, earlier, kept⟩
    · exact equal
    · exact absurd (kept.symm.trans same) (before.absent other fourth earlier)
  · rw [recorded.byMac, Function.update_of_ne (Ne.symm apart)]
    exact before.listed

theorem between_step (unequal : hostMac characters host ≠ mac)
    (apart : hostMac characters host ≠ own)
    (between : Between characters position mac own inventory)
    (recorded : Recorded characters host inventory after ref) :
    Between characters position mac own after := by
  constructor
  · intro other third there same
    rcases recorded_macs recorded there with ⟨_, equal⟩ | ⟨_, fourth, earlier, kept⟩
    · exact absurd (equal.symm.trans same) unequal
    · exact between.only other fourth earlier (kept.symm.trans same)
  · rw [recorded.byMac, Function.update_of_ne (Ne.symm apart)]
    exact between.listed

theorem taking_back_step (unequal : hostMac characters host ≠ mac)
    (between : Between characters position mac (hostMac characters host) inventory)
    (recorded : Recorded characters host inventory after ref) : Lost characters mac after := by
  have taken : ref = position := by
    rcases recorded.target with ⟨_, _, _, _, _, found | ⟨absent, _⟩⟩ | ⟨_, absent, _⟩
    · rw [← hostMac, between.listed] at found
      exact (Option.some.inj found).symm
    · rw [← hostMac, between.listed] at absent
      cases absent
    · rw [← hostMac, between.listed] at absent
      cases absent
  intro other third there same
  rcases recorded_macs recorded there with ⟨_, equal⟩ | ⟨differs, fourth, earlier, kept⟩
  · exact unequal (equal.symm.trans same)
  · exact differs ((between.only other fourth earlier (kept.symm.trans same)).trans taken.symm)

theorem lost_step (unequal : hostMac characters host ≠ mac) (lost : Lost characters mac inventory)
    (recorded : Recorded characters host inventory after ref) : Lost characters mac after := by
  intro other third there same
  rcases recorded_macs recorded there with ⟨_, equal⟩ | ⟨_, fourth, earlier, kept⟩
  · exact unequal (equal.symm.trans same)
  · exact lost other fourth earlier (kept.symm.trans same)

/-- Without the MAC of a NIC after the pass, the pass does not settle. -/
theorem taken_lost (modes : AppliedModes) (now : Nat) (distinct : Distinct characters rows discovered)
    {earlier later : List HostPhysicalInterface} (split : discovered = earlier ++ host :: later)
    (overtakable : Overtakable characters rows host later row) (named : row.name = host.name) :
    Lost characters (hostMac characters host) (discovered.foldl (recordHost characters modes now)
      (startInventory characters rows)) ∧
      Indexed (discovered.foldl (recordHost characters modes now) (startInventory characters rows)) ∧
      (discovered.foldl (recordHost characters modes now)
        (startInventory characters rows)).rows.length < 2 ^ 64 := by
  obtain ⟨inside, unedited, ⟨other, comes, own⟩, unknown⟩ := overtakable
  obtain ⟨position, here⟩ := List.getElem?_of_mem inside
  obtain ⟨between, rest, rfl⟩ := List.append_of_mem comes
  have split' : discovered = (earlier ++ host :: between) ++ other :: rest := by
    rw [split]
    simp
  have few := distinct.few
  rw [split] at few
  simp only [List.length_append, List.length_cons] at few
  have member : host ∈ discovered := by
    rw [split]
    exact List.mem_append_right _ List.mem_cons_self
  have present : other ∈ discovered := by
    rw [split']
    exact List.mem_append_right _ List.mem_cons_self
  have ownListed := (index_of_mac (distinct.known other present) distinct.macs).mpr
    ⟨row, here, own.symm⟩
  have start : Before characters rows row position (hostMac characters host)
      (hostMac characters other) (startInventory characters rows) := {
    here := here
    absent := fun ref third there => unknown third (List.mem_of_getElem? there)
    unknown := by
      rcases found : (startInventory characters rows).byMac (hostMac characters host) with _ | ref
      · rfl
      · obtain ⟨third, there, same⟩ :=
          (index_of_mac (distinct.known host member) distinct.macs).mp found
        exact absurd same (unknown third (List.mem_of_getElem? there))
    listed := ownListed
    single := by
      intro mac found
      simp only [startInventory, indexOfMac] at found
      split at found
      · obtain ⟨third, there, same⟩ := index_of_some found
        rw [here] at there
        obtain rfl := Option.some.inj there
        exact same.symm.trans own.symm
      · cases found }
  have started : (startInventory characters rows).rows.length = rows.length := rfl
  obtain ⟨before, indexed, size⟩ := run_keeps modes now
    (Before characters rows row position (hostMac characters host) (hostMac characters other))
    earlier (by
      intro third third_inside inventory after ref _ holds recorded
      obtain ⟨name, unequal⟩ := done_apart distinct split third_inside
      exact before_step (named.trans_ne (Ne.symm name)) unequal
        (done_apart distinct split' (List.mem_append_left _ third_inside)).2 holds recorded)
    (start_indexed distinct.names) (by rw [started]; omega) start
  have apart : hostMac characters host ≠ hostMac characters other :=
    (done_apart distinct split' (List.mem_append_right _ List.mem_cons_self)).2
  obtain ⟨ref, recorded⟩ := record_host_recorded characters modes now host indexed (by omega)
  have taken := taking_step named unedited indexed apart before recorded
  have grown := recorded.size.2
  obtain ⟨held, indexed', size'⟩ := run_keeps modes now
    (Between characters position (hostMac characters host) (hostMac characters other)) between (by
      intro third third_inside inventory after ref _ holds recorded
      exact between_step (later_apart distinct split (List.mem_append_left _ third_inside))
        (done_apart distinct split' (List.mem_append_right _
          (List.mem_cons_of_mem _ third_inside))).2 holds recorded)
    recorded.indexed (by omega) taken
  obtain ⟨_, recorded'⟩ := record_host_recorded characters modes now other indexed' (by omega)
  have lost := taking_back_step (Ne.symm apart) held recorded'
  have grown' := recorded'.size.2
  obtain ⟨final, indexed'', size''⟩ := run_keeps modes now
    (Lost characters (hostMac characters host)) rest (by
      intro third third_inside inventory after ref _ holds recorded
      exact lost_step (later_apart distinct split (List.mem_append_right _
        (List.mem_cons_of_mem _ third_inside))) holds recorded)
    recorded'.indexed (by omega) lost
  rw [split, List.foldl_append, List.foldl_cons, List.foldl_append, List.foldl_cons]
  exact ⟨final, indexed'', by omega⟩

end Taken

/-- Nothing is overtaken when the inventory knows all NICs. -/
theorem known_unambiguous (known : ∀ host ∈ discovered, ∃ row ∈ rows,
    macOf characters row = hostMac characters host) :
    Unambiguous characters rows discovered ∧ Unparked characters rows discovered := by
  have impossible : ∀ earlier host later, discovered = earlier ++ host :: later →
      ∀ row, ¬Overtakable characters rows host later row := by
    intro earlier host later split row overtakable
    obtain ⟨own, inside, same⟩ := known host (by rw [split]; simp)
    exact overtakable.unknown own inside same
  exact ⟨fun earlier host later split row overtakable =>
      absurd overtakable (impossible earlier host later split row),
    fun earlier host later split row overtakable =>
      absurd overtakable (impossible earlier host later split row)⟩

end Reconciliation

/-! ### NICs that change their names -/

def asciiCharacters : Characters where
  toLowering := asciiLowering
  isAlnum := Char.isAlphanum

def noModes : AppliedModes := ⟨fun _ => none, fun _ => none⟩

def sampleRow (name mac : String) (desired : String) : PhysicalInterface :=
  { newInterface name.toList mac.toList with
    inventorySource := "host"
    desiredStateSource := desired }

def sampleHost (name mac : String) : HostPhysicalInterface where
  name := name.toList
  macAddress := mac.toList
  driver := some "hv_netvsc"
  speed := some "10000 Mbps"
  hostIpCidr := none
  hostMtu := some 1500
  hostAdminState := "up"
  operState := "up"
  hostIpv6Cidr := none
  hostDhcpIpCidr := none
  hostDynamicIpv6Cidr := none
  hostDynamicIpv6Cidrs := []
  hostIpCidrs := []
  hostIpv6Cidrs := []

def swappedRows : List PhysicalInterface :=
  [sampleRow "eth0" "00:15:5d:01:1d:14" "user", sampleRow "eth1" "00:15:5d:01:1d:15" "seed"]

def swappedHosts : List HostPhysicalInterface :=
  [sampleHost "eth1" "00:15:5d:01:1d:14", sampleHost "eth0" "00:15:5d:01:1d:15"]

theorem distinct_of_nodup {characters : Characters} {rows : List PhysicalInterface}
    {discovered : List HostPhysicalInterface} (names : (rows.map PhysicalInterface.name).Nodup)
    (macs : (rows.map (macOf characters)).Nodup)
    (hostNames : (discovered.map HostPhysicalInterface.name).Nodup)
    (hostMacs : (discovered.map (hostMac characters)).Nodup)
    (known : ∀ host ∈ discovered, hostMac characters host ≠ [])
    (few : rows.length + discovered.length < 2 ^ 63) : Distinct characters rows discovered :=
  ⟨names, fun mac _ => List.nodup_iff_count_le_one.mp macs mac, hostNames, hostMacs, known, few⟩

def overtakenRows : List PhysicalInterface := [sampleRow "eth0" "00:15:5d:01:1d:14" "seed"]

def overtakingHosts : List HostPhysicalInterface :=
  [sampleHost "eth0" "00:15:5d:01:1d:15", sampleHost "eth1" "00:15:5d:01:1d:14"]

end Atlaso.Networking.InventoryReconciliation
