import Atlaso.Library.JsonOrder

/-!
Names of interfaces since the last Network Apply.

The applied configuration keeps its names. Inventory passes that rename interfaces record, beside
it, under which name an applied one is found now.
-/

namespace Atlaso.Networking.AppliedAliases

open Library Dictionary JsonOrder JsonText

/-! ### The recorded aliases -/

/-- `str` of a value; `shown` is that of a value which is not a string. -/
def textOf (shown : Json → String) : Json → String
  | .string text => text
  | other => shown other

def appliedNetwork : Option Json → Option (List (String × Json) × List (String × Json))
  | some (.object baselines) =>
    match getItem "network" baselines with
    | some (.object network) =>
      match getItem "config_preview" network with
      | some (.string _) => some (baselines, network)
      | _ => none
    | _ => none
  | _ => none

def recordedAliases (shown : Json → String) (network : List (String × Json)) :
    List (String × String) :=
  match getItem "physical_interface_aliases" network with
  | some (.object aliases) => aliases.map fun entry => (entry.1, textOf shown entry.2)
  | _ => []

def setDefault (aliases : List (String × String)) (rename : String × String) :
    List (String × String) :=
  if (getItem rename.1 aliases).isSome then aliases else aliases ++ [rename]

/-- `renames.get(name, name)` -/
def renamed (renames : List (String × String)) (name : String) : String :=
  (getItem name renames).getD name

/-- The setting as a document, which is absent when there is none or when it cannot be read. What
is written is read back with its fields in order. -/
def recordAppliedPhysicalInterfaceAliases (shown : Json → String)
    (renames : List (String × String)) (setting : Option Json) : Option Json :=
  if renames = [] then setting
  else match appliedNetwork setting with
    | none => setting
    | some (baselines, network) =>
      let aliases := (recordedAliases shown network).map fun entry =>
        (entry.1, renamed renames entry.2)
      let aliases := renames.foldl setDefault aliases
      let network := setItem "physical_interface_aliases"
        (.object (aliases.map fun entry => (entry.1, .string entry.2))) network
      some (sortKeys (.object (setItem "network" (.object network) baselines)))

def aliasOf (shown : Json → String) (setting : Option Json) (name : String) : String :=
  match appliedNetwork setting with
  | none => name
  | some (_, network) => renamed (recordedAliases shown network) name

/-! ### One pass -/

theorem get_item_map {Value Other : Type} (change : Value → Other) (name : String)
    (entries : List (String × Value)) :
    getItem name (entries.map fun entry => (entry.1, change entry.2)) =
      (getItem name entries).map change := by
  induction entries with
  | nil => rfl
  | cons entry entries induction =>
    obtain ⟨key, value⟩ := entry
    simp only [List.map_cons, getItem]
    split_ifs with here
    · rfl
    · exact induction

theorem get_item_default (aliases : List (String × String)) (rename : String × String)
    (name : String) : getItem name (setDefault aliases rename) =
      (getItem name aliases).or (if rename.1 = name then some rename.2 else none) := by
  obtain ⟨old, new⟩ := rename
  rw [setDefault]
  by_cases known : (getItem old aliases).isSome = true
  · rw [if_pos known]
    by_cases here : old = name
    · subst here
      obtain ⟨value, found⟩ := Option.isSome_iff_exists.mp known
      rw [found]
      rfl
    · rw [if_neg here, Option.or_none]
  · rw [if_neg known, get_item_append]
    rfl

theorem get_item_defaults (renames aliases : List (String × String)) (name : String) :
    getItem name (renames.foldl setDefault aliases) =
      (getItem name aliases).or (getItem name renames) := by
  induction renames generalizing aliases with
  | nil => exact (Option.or_none).symm
  | cons rename renames induction =>
    obtain ⟨old, new⟩ := rename
    rw [List.foldl_cons, induction, get_item_default, Option.or_assoc, getItem]
    by_cases here : old = name
    · rw [if_pos here, if_pos here]
      rfl
    · rw [if_neg here, if_neg here]
      rfl

theorem defaults_distinct (renames aliases : List (String × String))
    (distinct : (aliases.map Prod.fst).Nodup) :
    ((renames.foldl setDefault aliases).map Prod.fst).Nodup := by
  induction renames generalizing aliases with
  | nil => exact distinct
  | cons rename renames induction =>
    rw [List.foldl_cons]
    apply induction
    rw [setDefault]
    split
    · exact distinct
    · next absent =>
        rw [List.map_append, List.map_singleton, List.nodup_append]
        refine ⟨distinct, List.nodup_singleton _, ?_⟩
        rintro key inside _ last rfl
        rw [List.mem_singleton] at last
        subst last
        exact get_item_none.mp (Option.not_isSome_iff_eq_none.mp absent) inside

structure Applied (setting : Option Json) (baselines network : List (String × Json)) : Prop where
  document : setting = some (.object baselines)
  units : (baselines.map Prod.fst).Nodup
  unit : getItem "network" baselines = some (.object network)
  fields : (network.map Prod.fst).Nodup
  preview : ∃ text, getItem "config_preview" network = some (.string text)

variable {setting : Option Json} {baselines network : List (String × Json)}

theorem applied_network (applied : Applied setting baselines network) :
    appliedNetwork setting = some (baselines, network) := by
  obtain ⟨text, preview⟩ := applied.preview
  rw [applied.document]
  simp only [appliedNetwork, applied.unit, preview]

theorem applied_written (applied : Applied setting baselines network) (aliases : Json) :
    Applied
      (some (sortKeys (.object (setItem "network"
        (.object (setItem "physical_interface_aliases" aliases network)) baselines))))
      (byKey (sortMembers (setItem "network"
        (.object (setItem "physical_interface_aliases" aliases network)) baselines)))
      (byKey (sortMembers (setItem "physical_interface_aliases" aliases network))) := by
  have units := set_item_distinct "network"
    (.object (setItem "physical_interface_aliases" aliases network)) applied.units
  have fields := set_item_distinct "physical_interface_aliases" aliases applied.fields
  have sorted : ∀ {members : List (String × Json)}, (members.map Prod.fst).Nodup →
      ((byKey (sortMembers members)).map Prod.fst).Nodup := by
    intro members distinct
    rw [((by_key_perm _).map Prod.fst).nodup_iff, sort_members_keys]
    exact distinct
  obtain ⟨text, preview⟩ := applied.preview
  refine ⟨rfl, sorted units, ?_, sorted fields, text, ?_⟩
  · rw [get_item_sorted units, get_item_set_item, if_pos rfl]
    rfl
  · rw [get_item_sorted fields, get_item_set_item, if_neg (by decide), preview]
    rfl

theorem record_applied (shown : Json → String) {renames : List (String × String)}
    (applied : Applied setting baselines network)
    (distinct : ((recordedAliases shown network).map Prod.fst).Nodup) (changed : renames ≠ []) :
    ∃ baselines' network',
      Applied (recordAppliedPhysicalInterfaceAliases shown renames setting) baselines' network' ∧
      ((recordedAliases shown network').map Prod.fst).Nodup ∧
      ∀ name, getItem name (recordedAliases shown network') =
        ((getItem name (recordedAliases shown network)).map (renamed renames)).or
          (getItem name renames) := by
  set kept := (recordedAliases shown network).map fun entry => (entry.1, renamed renames entry.2)
    with keptIs
  set aliases := (renames.foldl setDefault kept).map fun entry =>
    ((entry.1, .string entry.2) : String × Json) with aliasesAre
  have keptDistinct : (kept.map Prod.fst).Nodup := by
    rw [keptIs, List.map_map]
    exact distinct
  have known : (aliases.map Prod.fst).Nodup := by
    rw [aliasesAre, List.map_map]
    exact defaults_distinct renames kept keptDistinct
  have written := applied_written applied (.object aliases)
  have fields := set_item_distinct "physical_interface_aliases" (.object aliases) applied.fields
  have found : getItem "physical_interface_aliases" (byKey (sortMembers
      (setItem "physical_interface_aliases" (.object aliases) network))) =
        some (.object (byKey (sortMembers aliases))) := by
    rw [get_item_sorted fields, get_item_set_item, if_pos rfl]
    rfl
  refine ⟨byKey (sortMembers (setItem "network"
      (.object (setItem "physical_interface_aliases" (.object aliases) network)) baselines)),
    byKey (sortMembers (setItem "physical_interface_aliases" (.object aliases) network)),
    ?_, ?_, ?_⟩
  · rw [recordAppliedPhysicalInterfaceAliases, if_neg changed, applied_network applied]
    exact written
  · rw [recordedAliases, found]
    simp only [List.map_map]
    change ((byKey (sortMembers aliases)).map Prod.fst).Nodup
    rw [((by_key_perm _).map Prod.fst).nodup_iff, sort_members_keys]
    exact known
  · intro name
    rw [recordedAliases, found]
    simp only
    rw [get_item_map, get_item_sorted known, aliasesAre, get_item_map, get_item_defaults, keptIs,
      get_item_map, Option.map_map, Option.map_map]
    exact Option.map_id'

/-! ### Runs -/

section Runs

variable {Nic : Type}

/-- An inventory pass: the renaming that it reports, and the names after it. -/
structure Pass (Nic : Type) where
  renames : List (String × String)
  names : Nic → Option String

/-- The pass gives the NICs that had a name the name of its renaming, and keeps the others of them.
NICs that had none may have come. -/
def Pass.Follows (pass : Pass Nic) (before : Nic → Option String) : Prop :=
  ∀ nic name, before nic = some name → pass.names nic = some (renamed pass.renames name)

def Chained (before : Nic → Option String) : List (Pass Nic) → Prop
  | [] => True
  | pass :: passes => pass.Follows before ∧ Chained pass.names passes

def namesAfter (before : Nic → Option String) (passes : List (Pass Nic)) : Nic → Option String :=
  passes.foldl (fun _ pass => pass.names) before

def settingAfter (shown : Json → String) (setting : Option Json) (passes : List (Pass Nic)) :
    Option Json :=
  passes.foldl (fun setting pass =>
    recordAppliedPhysicalInterfaceAliases shown pass.renames setting) setting

def Tracks (shown : Json → String) (setting : Option Json) (applied now : Nic → Option String) :
    Prop :=
  ∀ nic name, applied nic = some name → now nic = some (aliasOf shown setting name)

def Baseline (setting : Option Json) : Prop :=
  ∃ baselines network, Applied setting baselines network ∧
    getItem "physical_interface_aliases" network = none

variable {setting : Option Json} {baselines network : List (String × Json)}

theorem alias_of_applied (shown : Json → String) (applied : Applied setting baselines network)
    (name : String) :
    aliasOf shown setting name = renamed (recordedAliases shown network) name := by
  rw [aliasOf, applied_network applied]

variable {first before : Nic → Option String}

theorem pass_tracks (shown : Json → String) (applied : Applied setting baselines network)
    (distinct : ((recordedAliases shown network).map Prod.fst).Nodup)
    (tracks : Tracks shown setting first before) (pass : Pass Nic) (follows : pass.Follows before) :
    Tracks shown (recordAppliedPhysicalInterfaceAliases shown pass.renames setting) first
      pass.names := by
  intro nic name named
  have now := follows nic _ (tracks nic name named)
  rw [alias_of_applied shown applied] at now
  by_cases changed : pass.renames = []
  · rw [recordAppliedPhysicalInterfaceAliases, if_pos changed, alias_of_applied shown applied]
    rwa [changed] at now
  · obtain ⟨_, _, written, _, found⟩ := record_applied shown applied distinct changed
    rw [alias_of_applied shown written, renamed, found, now]
    -- A recorded alias is renamed. Without one the NIC still has its applied name.
    unfold renamed
    cases getItem name (recordedAliases shown network) with
    | none => rfl
    | some current => rfl

theorem record_keeps_applied (shown : Json → String) (renames : List (String × String))
    (applied : Applied setting baselines network)
    (distinct : ((recordedAliases shown network).map Prod.fst).Nodup) :
    ∃ baselines' network',
      Applied (recordAppliedPhysicalInterfaceAliases shown renames setting) baselines' network' ∧
      ((recordedAliases shown network').map Prod.fst).Nodup := by
  by_cases changed : renames = []
  · rw [recordAppliedPhysicalInterfaceAliases, if_pos changed]
    exact ⟨baselines, network, applied, distinct⟩
  · obtain ⟨baselines', network', written, keys, _⟩ :=
      record_applied shown applied distinct changed
    exact ⟨baselines', network', written, keys⟩

theorem passes_track (shown : Json → String) (applied : Applied setting baselines network)
    (distinct : ((recordedAliases shown network).map Prod.fst).Nodup)
    (tracks : Tracks shown setting first before) (passes : List (Pass Nic))
    (chained : Chained before passes) :
    Tracks shown (settingAfter shown setting passes) first (namesAfter before passes) := by
  induction passes generalizing setting baselines network before with
  | nil => exact tracks
  | cons pass passes induction =>
    obtain ⟨follows, chained⟩ := chained
    obtain ⟨_, _, written, keys⟩ := record_keeps_applied shown pass.renames applied distinct
    exact induction written keys (pass_tracks shown applied distinct tracks pass follows) chained

/-- After a Network Apply, any passes leave each applied name with the alias under which its NIC is
found. Names may be taken over by other NICs between the passes. -/
theorem aliases_track_interfaces (shown : Json → String) (setting : Option Json)
    (applied : Nic → Option String) (passes : List (Pass Nic)) (baseline : Baseline setting)
    (chained : Chained applied passes) :
    Tracks shown (settingAfter shown setting passes) applied (namesAfter applied passes) := by
  obtain ⟨baselines, network, left, absent⟩ := baseline
  have empty : recordedAliases shown network = [] := by rw [recordedAliases, absent]
  have distinct : ((recordedAliases shown network).map Prod.fst).Nodup := by
    rw [empty]
    exact List.nodup_nil
  apply passes_track shown left distinct _ passes chained
  intro nic name named
  rw [alias_of_applied shown left, empty]
  exact named

end Runs

/-! ### Two NICs that swap their names -/

def swappedPasses : List (Pass Bool) :=
  [⟨[("eth0", "eth1"), ("eth1", "eth0")], fun first => if first then some "eth1" else some "eth0"⟩,
    ⟨[("eth1", "missing_0000000001")],
      fun first => if first then some "missing_0000000001" else some "eth0"⟩]

def sampleSetting : Option Json :=
  some (.object [("network", .object [("config_preview", .string "interface eth0\n")])])

def sampleNames (first : Bool) : Option String := if first then some "eth0" else some "eth1"

theorem sample_aliases_track :
    Tracks (fun _ => "") (settingAfter (fun _ => "") sampleSetting swappedPasses) sampleNames
      (namesAfter sampleNames swappedPasses) := by
  apply aliases_track_interfaces (fun _ => "") sampleSetting sampleNames swappedPasses
  · exact ⟨_, _, ⟨rfl, by decide, rfl, by decide, _, rfl⟩, rfl⟩
  · refine ⟨?_, ?_, trivial⟩
    · rintro (_ | _) name named
      · obtain rfl := Option.some.inj named
        rfl
      · obtain rfl := Option.some.inj named
        rfl
    · rintro (_ | _) name named
      · obtain rfl := Option.some.inj named
        rfl
      · obtain rfl := Option.some.inj named
        rfl

end Atlaso.Networking.AppliedAliases
