import Atlaso.NetworkBoot.InventoryReports
import Mathlib.Algebra.BigOperators.Group.List.Basic
import Mathlib.Data.List.Dedup
import Mathlib.Data.List.Induction
import Mathlib.Tactic.Common

/-!
Discovered hosts over all sequences of inventory reports.

The MACs of a host are those of its last report and its key is that of its first one, so a report
can need a key that a host without any of its MACs still holds. This is the only way in which a
report fails on the uniqueness of keys.
-/

namespace Atlaso.NetworkBoot.HostIdentities

open InventoryReports Library Outcomes RowTables

/-! ### Pruning -/

theorem sum_counts_le {ids : List Nat} (distinct : ids.Nodup) (reports : List StoredReport) :
    (ids.map fun id => reports.countP fun row => row.hostId = id).sum ≤ reports.length := by
  induction reports with
  | nil => simp
  | cons row reports induction =>
    have single : (ids.map fun id => if row.hostId = id then 1 else 0).sum ≤ 1 := by
      clear induction
      induction ids with
      | nil => simp
      | cons id ids induction =>
        obtain ⟨fresh, distinct⟩ := List.nodup_cons.mp distinct
        by_cases same : row.hostId = id
        · have others : (ids.map fun id => if row.hostId = id then 1 else 0).sum = 0 := by
            apply List.sum_eq_zero
            intro count inside
            obtain ⟨other, member, rfl⟩ := List.mem_map.mp inside
            apply if_neg
            rintro rfl
            exact fresh (same ▸ member)
          rw [List.map_cons, List.sum_cons, if_pos same, others]
        · rw [List.map_cons, List.sum_cons, if_neg same, Nat.zero_add]
          exact induction distinct
    calc (ids.map fun id => (row :: reports).countP fun row => row.hostId = id).sum
        = (ids.map fun id => (reports.countP fun row => row.hostId = id) +
            if row.hostId = id then 1 else 0).sum := by
          congr 1
          apply List.map_congr_left
          intro id _
          rw [List.countP_cons]
          simp only [decide_eq_true_eq]
      _ = (ids.map fun id => reports.countP fun row => row.hostId = id).sum +
            (ids.map fun id => if row.hostId = id then 1 else 0).sum := List.sum_map_add
      _ ≤ reports.length + 1 := Nat.add_le_add induction single

theorem retain_all (protectedHost : Nat → Bool) (rows : List (Nat × Nat)) (ids : List Nat)
    (count : Nat)
    (few : ids.length + (rows.filter fun row => !protectedHost row.1).length ≤
      NETWORK_BOOT_MAX_HOSTS)
    (light : count + ((rows.filter fun row => !protectedHost row.1).map Prod.snd).sum ≤
      NETWORK_BOOT_MAX_REPORTS)
    (live : ∀ row ∈ rows, protectedHost row.1 = true → row.1 ∈ ids) :
    (∀ id ∈ ids, id ∈ (rows.foldl (retainHost protectedHost) (ids, count)).1) ∧
      ∀ row ∈ rows, row.1 ∈ (rows.foldl (retainHost protectedHost) (ids, count)).1 := by
  induction rows generalizing ids count with
  | nil => exact ⟨fun id inside => inside, fun row inside => absurd inside List.not_mem_nil⟩
  | cons row rows induction =>
    rw [List.foldl_cons]
    by_cases known : protectedHost row.1 = true
    · rw [List.filter_cons_of_neg (by simpa using known)] at few light
      rw [retainHost, if_pos known]
      obtain ⟨kept, all⟩ := induction ids count few light fun other inside =>
        live other (List.mem_cons_of_mem _ inside)
      refine ⟨kept, ?_⟩
      intro other inside
      rcases List.mem_cons.mp inside with rfl | later
      · exact kept _ (live _ List.mem_cons_self known)
      · exact all other later
    · rw [List.filter_cons_of_pos (by simpa using known)] at few light
      rw [List.length_cons] at few
      rw [List.map_cons, List.sum_cons] at light
      have room : ids.length < NETWORK_BOOT_MAX_HOSTS ∧
          count + row.2 ≤ NETWORK_BOOT_MAX_REPORTS := by omega
      rw [retainHost, if_neg known, if_pos room]
      obtain ⟨kept, all⟩ := induction (ids ++ [row.1]) (count + row.2)
        (by rw [List.length_append, List.length_singleton]; omega) (by omega)
        fun other inside held => List.mem_append_left _
          (live other (List.mem_cons_of_mem _ inside) held)
      refine ⟨fun id inside => kept id (List.mem_append_left _ inside), ?_⟩
      intro other inside
      rcases List.mem_cons.mp inside with rfl | later
      · exact kept _ (List.mem_append_right _ List.mem_cons_self)
      · exact all other later

theorem filter_parts (keep : Nat × Nat → Bool) (rows : List (Nat × Nat)) :
    (rows.filter keep).length + (rows.filter fun row => !keep row).length = rows.length ∧
      ((rows.filter keep).map Prod.snd).sum + ((rows.filter fun row => !keep row).map Prod.snd).sum =
        (rows.map Prod.snd).sum := by
  induction rows with
  | nil => exact ⟨rfl, rfl⟩
  | cons row rows induction =>
    obtain ⟨lengths, sums⟩ := induction
    cases kept : keep row <;> simp [kept] <;> omega

theorem prune_room {store : Store} (protectedHosts : List Nat) (host : Nat)
    (distinct : (store.hosts.map DiscoveredHost.id).Nodup)
    (few : store.hosts.length ≤ NETWORK_BOOT_MAX_HOSTS)
    (light : store.reports.length ≤ NETWORK_BOOT_MAX_REPORTS) :
    pruneInventoryStorage protectedHosts host store = .ok store := by
  set rows := hostRows store with given
  have size : rows.length = store.hosts.length := by
    rw [given, hostRows, List.length_map, List.length_insertionSort]
  have load : (rows.map Prod.snd).sum ≤ store.reports.length := by
    rw [given, hostRows, List.map_map]
    have perm := (List.perm_insertionSort (fun (first second : DiscoveredHost) =>
      second.lastSeenAt < first.lastSeenAt ∨ first.lastSeenAt = second.lastSeenAt ∧
        second.id ≤ first.id) store.hosts).map (Prod.snd ∘ fun host => (host.id, reportCount store host))
    rw [perm.sum_eq]
    have bound := sum_counts_le distinct store.reports
    rwa [List.map_map] at bound
  set protectedHost := preserved protectedHosts host with known
  obtain ⟨lengths, sums⟩ := filter_parts (fun row => protectedHost row.1) rows
  have all := (retain_all protectedHost rows
    ((rows.filter fun row => protectedHost row.1).map Prod.fst)
    ((rows.filter fun row => protectedHost row.1).map Prod.snd).sum
    (by rw [List.length_map]; omega) (by omega) (by
      intro row inside held
      exact List.mem_map_of_mem (List.mem_filter.mpr ⟨inside, held⟩))).2
  unfold pruneInventoryStorage
  simp only [← given, ← known]
  rw [if_neg (by omega)]
  apply if_pos
  apply List.filter_eq_nil_iff.mpr
  intro id inside
  obtain ⟨row, member, rfl⟩ := List.mem_map.mp inside
  simpa using all row member

/-! ### The identity of a report -/

theorem mem_report_macs {report : InventoryReport} {mac : String} :
    mac ∈ reportMacs report ↔ mac ≠ "" ∧ (mac = report.bootMac ∨
      ∃ row ∈ report.interfaces, orText row.permanentMac row.currentMac = mac) := by
  rw [reportMacs, sortedSet, List.mem_insertionSort, List.mem_dedup, List.mem_filter,
    decide_eq_true_eq, List.mem_cons, List.mem_map]
  exact and_comm

theorem or_text_empty {first second : String} (empty : orText first second = "") :
    first = "" ∧ second = "" := by
  by_cases absent : first = ""
  · rw [orText, if_pos absent] at empty
    exact ⟨absent, empty⟩
  · rw [orText, if_neg absent] at empty
    exact absurd empty absent

theorem report_macs_nonempty {report : InventoryReport} (unnamed : report.dmiUuid = "") :
    reportMacs report ≠ [] := by
  intro none
  have absent : ∀ mac, mac ≠ "" → ¬(mac = report.bootMac ∨
      ∃ row ∈ report.interfaces, orText row.permanentMac row.currentMac = mac) := by
    intro mac present named
    have inside := mem_report_macs.mpr ⟨present, named⟩
    rw [none] at inside
    exact List.not_mem_nil inside
  obtain ⟨mac, named, present⟩ := report.identified.resolve_left (not_not.mpr unnamed)
  rcases List.mem_cons.mp named with boot | other
  · exact absent mac present (.inl boot)
  · obtain ⟨row, inside, either⟩ := List.mem_flatMap.mp other
    by_cases empty : orText row.permanentMac row.currentMac = ""
    · obtain ⟨permanent, current⟩ := or_text_empty empty
      simp only [permanent, current, List.mem_cons, List.not_mem_nil, or_false, or_self] at either
      exact present either
    · exact absent _ empty (.inr ⟨row, inside, rfl⟩)

theorem primary_mem {report : InventoryReport} (named : reportMacs report ≠ []) :
    primaryMac report.bootMac (reportMacs report) ∈ reportMacs report := by
  by_cases absent : report.bootMac = ""
  · rw [primaryMac, orText, if_pos absent]
    obtain ⟨mac, macs, given⟩ := List.exists_cons_of_ne_nil named
    rw [given]
    exact List.mem_cons_self
  · rw [primaryMac, orText, if_neg absent]
    exact mem_report_macs.mpr ⟨absent, .inl rfl⟩

def reportKey (digest : String → String) (report : InventoryReport) : String :=
  (reportIdentity digest report).1

theorem report_identity_parts (digest : String → String) (report : InventoryReport) :
    reportIdentity digest report = (reportKey digest report, report.dmiUuid, reportMacs report) := by
  by_cases unnamed : report.dmiUuid = ""
  · simp [reportKey, reportIdentity, unnamed]
  · simp [reportKey, reportIdentity, unnamed]

theorem key_named {digest : String → String} {report : InventoryReport}
    (named : report.dmiUuid ≠ "") : ∃ rest, reportKey digest report = "uuid:" ++ rest := by
  refine ⟨report.dmiUuid ++ (":" ++ digest ("|".intercalate (reportMacs report))), ?_⟩
  simp [reportKey, reportIdentity, named, String.append_assoc]

theorem key_unnamed {digest : String → String} {report : InventoryReport}
    (unnamed : report.dmiUuid = "") : reportKey digest report =
      "mac:" ++ primaryMac report.bootMac (reportMacs report) := by
  simp [reportKey, reportIdentity, unnamed]

theorem uuid_key_ne (rest mac : String) : "uuid:" ++ rest ≠ "mac:" ++ mac := by
  intro same
  have letters := congrArg String.toList same
  simp only [String.toList_append] at letters
  exact absurd (congrArg List.head? letters) (by simp)

/-! ### What a table promises -/

structure Keyed (host : DiscoveredHost) : Prop where
  uuid : host.dmiUuid ≠ "" → ∃ rest, host.identityKey = "uuid:" ++ rest
  mac : host.dmiUuid = "" → host.identityKey = "mac:" ++ primaryMac host.bootMac host.macs
  primary : host.dmiUuid = "" → primaryMac host.bootMac host.macs ∈ host.macs

/-- Hosts that share a DMI UUID are flagged. -/
def Flagged (first second : DiscoveredHost) : Prop :=
  first.dmiUuid = second.dmiUuid → first.dmiUuid ≠ "" →
    first.collision = true ∧ second.collision = true

theorem flagged_symm (first second : DiscoveredHost) (flagged : Flagged first second) :
    Flagged second first := by
  intro same named
  exact (flagged same.symm (same ▸ named)).symm

structure Sound (store : Store) : Prop where
  distinct : (store.hosts.map DiscoveredHost.id).Nodup
  keys : (store.hosts.map DiscoveredHost.identityKey).Nodup
  keyed : ∀ host ∈ store.hosts, Keyed host
  flagged : Separate DiscoveredHost.id Flagged store.hosts

theorem sound_empty : Sound .empty where
  distinct := List.nodup_nil
  keys := List.nodup_nil
  keyed := fun _ inside => absurd inside List.not_mem_nil
  flagged := separate_nil

def Room (store : Store) : Prop :=
  store.hosts.length < NETWORK_BOOT_MAX_HOSTS ∧ store.reports.length < NETWORK_BOOT_MAX_REPORTS

/-- No host of the report's DMI UUID has one of its MACs, and yet a host has its key. -/
def Drifted (digest : String → String) (store : Store) (report : InventoryReport) : Prop :=
  report.dmiUuid ≠ "" ∧
    (∀ host ∈ store.hosts, host.dmiUuid = report.dmiUuid → intersects (reportMacs report) host = false) ∧
    ∃ host ∈ store.hosts, host.identityKey = reportKey digest report

/-! ### The host of a report -/

section Finding

variable {digest : String → String} {store : Store} {report : InventoryReport}
  {candidates : List DiscoveredHost} {now : Nat}

/-- The rows that the query for the report returns, in some order. -/
def Queried (digest : String → String) (store : Store) (report : InventoryReport)
    (candidates : List DiscoveredHost) : Prop :=
  candidates.Perm (store.hosts.filter (isCandidate (reportKey digest report) report.dmiUuid))

variable {host : DiscoveredHost}

theorem queried_mem (queried : Queried digest store report candidates) :
    host ∈ candidates ↔ host ∈ store.hosts ∧
      isCandidate (reportKey digest report) report.dmiUuid host = true := by
  rw [queried.mem_iff, List.mem_filter]

theorem candidate_primary (sound : Sound store) (unnamed : report.dmiUuid = "")
    (inside : host ∈ store.hosts) (same : host.identityKey = reportKey digest report) :
    host.dmiUuid = "" ∧
      primaryMac host.bootMac host.macs = primaryMac report.bootMac (reportMacs report) := by
  have keyed := sound.keyed host inside
  rw [key_unnamed unnamed] at same
  have other : host.dmiUuid = "" := by
    by_contra named
    obtain ⟨rest, key⟩ := keyed.uuid named
    exact uuid_key_ne rest _ (key.symm.trans same)
  refine ⟨other, ?_⟩
  rw [keyed.mac other] at same
  exact (String.append_right_inj _).mp same

theorem candidate_intersects (sound : Sound store) (unnamed : report.dmiUuid = "")
    (inside : host ∈ store.hosts) (same : host.identityKey = reportKey digest report) :
    intersects (reportMacs report) host = true := by
  obtain ⟨other, primary⟩ := candidate_primary sound unnamed inside same
  have member := (sound.keyed host inside).primary other
  have reported := primary_mem (report_macs_nonempty unnamed)
  rw [← primary] at reported
  rw [intersects, Bool.or_eq_true, List.any_eq_true]
  exact .inr ⟨_, member, decide_eq_true reported⟩

theorem isCandidate_named (named : report.dmiUuid ≠ "") (host : DiscoveredHost) :
    isCandidate (reportKey digest report) report.dmiUuid host = true ↔
      host.dmiUuid = report.dmiUuid := by
  rw [isCandidate, if_pos named, decide_eq_true_eq]

theorem isCandidate_unnamed (unnamed : report.dmiUuid = "") (host : DiscoveredHost) :
    isCandidate (reportKey digest report) report.dmiUuid host = true ↔
      host.identityKey = reportKey digest report := by
  rw [isCandidate, if_neg (not_not.mpr unnamed), decide_eq_true_eq]

def conflicting (report : InventoryReport) (candidates : List DiscoveredHost) : List Nat :=
  if report.dmiUuid ≠ "" then candidates.map DiscoveredHost.id else []

def createdHost (digest : String → String) (store : Store) (report : InventoryReport)
    (candidates : List DiscoveredHost) (now : Nat) : DiscoveredHost :=
  newHost (nextId (store.hosts.map DiscoveredHost.id)) (reportKey digest report) report.dmiUuid
    (report.dmiUuid ≠ "" && candidates ≠ []) now

theorem flag_none (hosts : List DiscoveredHost) : flagHosts [] hosts = hosts := by
  calc flagHosts [] hosts = hosts.map fun host => host :=
        List.map_congr_left fun host _ => if_neg List.not_mem_nil
    _ = hosts := List.map_id hosts

inductive Search (digest : String → String) (store : Store) (report : InventoryReport)
    (candidates : List DiscoveredHost) (now : Nat) :
    Except Failure (DiscoveredHost × List DiscoveredHost) → Prop where
  | attached {found : DiscoveredHost} (inside : found ∈ candidates)
      (shared : intersects (reportMacs report) found = true) :
      Search digest store report candidates now (.ok (found, store.hosts))
  | created (apart : ∀ host ∈ candidates, intersects (reportMacs report) host = false)
      (unique : ∀ host ∈ store.hosts, host.identityKey ≠ reportKey digest report) :
      Search digest store report candidates now
        (.ok (createdHost digest store report candidates now,
          flagHosts (conflicting report candidates)
            (store.hosts ++ [createdHost digest store report candidates now])))
  | taken (drifted : Drifted digest store report) :
      Search digest store report candidates now (.error .integrityError)

theorem find_host_search (sound : Sound store) (queried : Queried digest store report candidates) :
    Search digest store report candidates now
      (findHost store (reportKey digest report) report.dmiUuid candidates (reportMacs report) now) := by
  unfold findHost
  rcases searched : candidates.find? (intersects (reportMacs report)) with _ | found
  · have apart : ∀ host ∈ candidates, intersects (reportMacs report) host = false := by
      intro host inside
      exact eq_false_of_ne_true (List.find?_eq_none.mp searched host inside)
    by_cases held : ∃ host ∈ store.hosts, host.identityKey = reportKey digest report
    · have named : report.dmiUuid ≠ "" := by
        intro unnamed
        obtain ⟨host, inside, same⟩ := held
        have candidate := (queried_mem queried).mpr
          ⟨inside, (isCandidate_unnamed unnamed host).mpr same⟩
        have shared := candidate_intersects sound unnamed inside same
        rw [apart host candidate] at shared
        cases shared
      have taken : Drifted digest store report := by
        refine ⟨named, ?_, held⟩
        intro host inside same
        exact apart host ((queried_mem queried).mpr ⟨inside, (isCandidate_named named host).mpr same⟩)
      have refused : addHost (createdHost digest store report candidates now) store.hosts =
          .error .integrityError := if_pos held
      simp only [createdHost] at refused
      simp only [refused]
      exact .taken taken
    · have unique : ∀ host ∈ store.hosts, host.identityKey ≠ reportKey digest report := by
        intro host inside same
        exact held ⟨host, inside, same⟩
      have added : addHost (createdHost digest store report candidates now) store.hosts =
          .ok (store.hosts ++ [createdHost digest store report candidates now]) := if_neg held
      have flags : (if (report.dmiUuid ≠ "" && candidates ≠ []) = true then
            flagHosts (candidates.map DiscoveredHost.id)
              (store.hosts ++ [createdHost digest store report candidates now])
          else store.hosts ++ [createdHost digest store report candidates now]) =
          flagHosts (conflicting report candidates)
            (store.hosts ++ [createdHost digest store report candidates now]) := by
        by_cases named : report.dmiUuid = ""
        · simp [conflicting, named, flag_none]
        · by_cases empty : candidates = []
          · simp [conflicting, named, empty, flag_none]
          · simp [conflicting, named, empty]
      have created := @Search.created digest store report candidates now apart unique
      rw [← flags] at created
      simp only [createdHost] at added created
      simp only [added]
      exact created
  · have shared := List.find?_some searched
    exact .attached (List.mem_of_find?_eq_some searched) shared

/-! ### Flags -/

def flagged (ids : List Nat) (host : DiscoveredHost) : DiscoveredHost :=
  if host.id ∈ ids then { host with collision := true } else host

theorem flag_hosts_map (ids : List Nat) (hosts : List DiscoveredHost) :
    flagHosts ids hosts = hosts.map (flagged ids) := rfl

theorem flagged_cases (ids : List Nat) (host : DiscoveredHost) :
    flagged ids host = host ∨
      host.id ∈ ids ∧ flagged ids host = { host with collision := true } := by
  by_cases inside : host.id ∈ ids
  · exact .inr ⟨inside, if_pos inside⟩
  · exact .inl (if_neg inside)

/-- A flag leaves everything else of a host. -/
structure SameBut (host after : DiscoveredHost) : Prop where
  id : after.id = host.id
  key : after.identityKey = host.identityKey
  uuid : after.dmiUuid = host.dmiUuid
  boot : after.bootMac = host.bootMac
  macs : after.macs = host.macs
  kept : host.collision = true → after.collision = true

theorem flagged_same (ids : List Nat) (host : DiscoveredHost) : SameBut host (flagged ids host) := by
  rcases flagged_cases ids host with same | ⟨_, same⟩
  · rw [same]
    exact ⟨rfl, rfl, rfl, rfl, rfl, fun set => set⟩
  · rw [same]
    exact ⟨rfl, rfl, rfl, rfl, rfl, fun _ => rfl⟩

theorem keyed_same {after : DiscoveredHost} (same : SameBut host after) (keyed : Keyed host) :
    Keyed after where
  uuid := by
    rw [same.uuid, same.key]
    exact keyed.uuid
  mac := by
    rw [same.uuid, same.key, same.boot, same.macs]
    exact keyed.mac
  primary := by
    rw [same.uuid, same.boot, same.macs]
    exact keyed.primary

theorem flag_ids (ids : List Nat) (hosts : List DiscoveredHost) :
    (flagHosts ids hosts).map DiscoveredHost.id = hosts.map DiscoveredHost.id := by
  rw [flag_hosts_map, List.map_map]
  exact List.map_congr_left fun host _ => (flagged_same ids host).id

theorem flag_keys (ids : List Nat) (hosts : List DiscoveredHost) :
    (flagHosts ids hosts).map DiscoveredHost.identityKey =
      hosts.map DiscoveredHost.identityKey := by
  rw [flag_hosts_map, List.map_map]
  exact List.map_congr_left fun host _ => (flagged_same ids host).key

theorem flag_separate (ids : List Nat) {hosts : List DiscoveredHost}
    (separate : Separate DiscoveredHost.id Flagged hosts) :
    Separate DiscoveredHost.id Flagged (flagHosts ids hosts) := by
  intro first firstInside second secondInside differs
  obtain ⟨host, inside, rfl⟩ := List.mem_map.mp firstInside
  obtain ⟨other, otherInside, rfl⟩ := List.mem_map.mp secondInside
  have hostSame := flagged_same ids host
  have otherSame := flagged_same ids other
  intro same named
  have before := separate host inside other otherInside
    (by rw [← hostSame.id, ← otherSame.id]; exact differs)
    (by rw [← hostSame.uuid, ← otherSame.uuid]; exact same) (by rw [← hostSame.uuid]; exact named)
  exact ⟨hostSame.kept before.1, otherSame.kept before.2⟩

/-! ### The table with the host -/

theorem next_id_fresh {ids : List Nat} {id : Nat} (inside : id ∈ ids) : id < nextId ids := by
  rw [nextId, Nat.lt_succ_iff]
  induction ids with
  | nil => cases inside
  | cons first ids induction =>
    rw [List.foldr_cons]
    rcases List.mem_cons.mp inside with rfl | later
    · exact Nat.le_max_left _ _
    · exact (induction later).trans (Nat.le_max_right _ _)

/-- Other hosts of the report's DMI UUID may be flagged, and this is all. -/
def Undisturbed (report : InventoryReport) (host after : DiscoveredHost) : Prop :=
  after = host ∨
    after = { host with collision := true } ∧ report.dmiUuid ≠ "" ∧
      host.dmiUuid = report.dmiUuid ∧ ∀ mac ∈ host.macs, mac ∉ reportMacs report

structure Prepared (digest : String → String) (store : Store) (report : InventoryReport)
    (found : DiscoveredHost) (hosts : List DiscoveredHost) : Prop where
  distinct : (hosts.map DiscoveredHost.id).Nodup
  keys : (hosts.map DiscoveredHost.identityKey).Nodup
  present : found ∈ hosts
  keyed : ∀ host ∈ hosts, host.id ≠ found.id → Keyed host
  flagged : Separate DiscoveredHost.id Flagged hosts
  few : hosts.length ≤ store.hosts.length + 1
  uuid : found.dmiUuid = report.dmiUuid
  named : report.dmiUuid ≠ "" → ∃ rest, found.identityKey = "uuid:" ++ rest
  unnamed : report.dmiUuid = "" → found.identityKey = reportKey digest report
  others : ∀ host ∈ store.hosts, host.id ≠ found.id →
    ∃ after ∈ hosts, Undisturbed report host after
  known : ∀ after ∈ hosts, after.id = found.id ∨ ∃ host ∈ store.hosts, host.id = after.id

theorem intersects_false {macs : List String} (apart : intersects macs host = false) :
    macs ≠ [] ∧ ∀ mac ∈ host.macs, mac ∉ macs := by
  rw [intersects, Bool.or_eq_false_iff, decide_eq_false_iff_not, List.any_eq_false] at apart
  exact ⟨apart.1, fun mac inside => by simpa using apart.2 mac inside⟩

theorem conflicting_hosts (sound : Sound store) (queried : Queried digest store report candidates)
    (apart : ∀ host ∈ candidates, intersects (reportMacs report) host = false) :
    ∀ host ∈ store.hosts, host.id ∈ conflicting report candidates → report.dmiUuid ≠ "" ∧
      host.dmiUuid = report.dmiUuid ∧ ∀ mac ∈ host.macs, mac ∉ reportMacs report := by
  intro host inside conflict
  by_cases unnamed : report.dmiUuid = ""
  · rw [conflicting, if_neg (not_not.mpr unnamed)] at conflict
    exact absurd conflict List.not_mem_nil
  · rw [conflicting, if_pos unnamed] at conflict
    obtain ⟨other, member, same⟩ := List.mem_map.mp conflict
    obtain ⟨known, candidate⟩ := (queried_mem queried).mp member
    obtain rfl := List.inj_on_of_nodup_map sound.distinct known inside same
    exact ⟨unnamed, (isCandidate_named unnamed other).mp candidate,
      (intersects_false (apart other member)).2⟩

theorem search_prepared (sound : Sound store) (queried : Queried digest store report candidates)
    {found : DiscoveredHost} {hosts : List DiscoveredHost}
    (search : Search digest store report candidates now (.ok (found, hosts))) :
    Prepared digest store report found hosts := by
  cases search with
  | attached inside shared =>
    obtain ⟨member, candidate⟩ := (queried_mem queried).mp inside
    have keyed := sound.keyed found member
    have uuid : found.dmiUuid = report.dmiUuid := by
      by_cases unnamed : report.dmiUuid = ""
      · have same := (isCandidate_unnamed unnamed found).mp candidate
        rw [unnamed]
        exact (candidate_primary sound unnamed member same).1
      · exact (isCandidate_named unnamed found).mp candidate
    exact {
      distinct := sound.distinct
      keys := sound.keys
      present := member
      keyed := fun host inside _ => sound.keyed host inside
      flagged := sound.flagged
      few := Nat.le_succ _
      uuid := uuid
      named := fun named => keyed.uuid (uuid ▸ named)
      unnamed := fun unnamed => (isCandidate_unnamed unnamed found).mp candidate
      others := fun host inside _ => ⟨host, inside, .inl rfl⟩
      known := fun after inside => .inr ⟨after, inside, rfl⟩ }
  | created apart unique =>
    have fresh : ∀ host ∈ store.hosts, host.id ≠
        (createdHost digest store report candidates now).id := by
      intro host inside
      exact Nat.ne_of_lt (next_id_fresh (List.mem_map_of_mem inside))
    have conflicts := conflicting_hosts sound queried apart
    have outside : (createdHost digest store report candidates now).id ∉
        conflicting report candidates := by
      intro inside
      by_cases unnamed : report.dmiUuid = ""
      · rw [conflicting, if_neg (not_not.mpr unnamed)] at inside
        exact List.not_mem_nil inside
      · rw [conflicting, if_pos unnamed] at inside
        obtain ⟨host, member, same⟩ := List.mem_map.mp inside
        exact fresh host ((queried_mem queried).mp member).1 same
    rw [flag_hosts_map, List.map_append, List.map_singleton, flagged, if_neg outside,
      ← flag_hosts_map]
    exact {
      distinct := by
        rw [List.map_append, flag_ids, ← List.map_append]
        exact distinct_add sound.distinct fresh
      keys := by
        rw [List.map_append, flag_keys, ← List.map_append]
        exact distinct_add sound.keys unique
      present := List.mem_append_right _ List.mem_cons_self
      keyed := by
        intro host inside differs
        rcases List.mem_append.mp inside with before | last
        · obtain ⟨old, member, rfl⟩ := List.mem_map.mp before
          exact keyed_same (flagged_same _ old) (sound.keyed old member)
        · exact absurd (congrArg DiscoveredHost.id (List.mem_singleton.mp last)) differs
      flagged := by
        apply separate_add flagged_symm (flag_separate _ sound.flagged)
        intro other inside same named
        obtain ⟨old, member, rfl⟩ := List.mem_map.mp inside
        have uuid := same.trans (flagged_same _ old).uuid
        have named : report.dmiUuid ≠ "" := named
        have candidate := (queried_mem queried).mpr
          ⟨member, (isCandidate_named named old).mpr uuid.symm⟩
        have flag : old.id ∈ conflicting report candidates := by
          rw [conflicting, if_pos named]
          exact List.mem_map_of_mem candidate
        refine ⟨?_, ?_⟩
        · have conflict : (report.dmiUuid ≠ "" && candidates ≠ []) = true := by
            simp [named, List.ne_nil_of_mem candidate]
          exact conflict
        · exact congrArg DiscoveredHost.collision (if_pos flag)
      few := by
        rw [List.length_append, flag_hosts_map, List.length_map]
        exact Nat.le_refl _
      uuid := rfl
      named := key_named
      unnamed := fun _ => rfl
      others := by
        intro host inside _
        refine ⟨flagged (conflicting report candidates) host,
          List.mem_append_left _ (List.mem_map_of_mem inside), ?_⟩
        rcases flagged_cases (conflicting report candidates) host with same | ⟨member, same⟩
        · exact .inl same
        · exact .inr ⟨same, conflicts host inside member⟩
      known := by
        intro after inside
        rcases List.mem_append.mp inside with before | last
        · obtain ⟨old, member, rfl⟩ := List.mem_map.mp before
          exact .inr ⟨old, member, (flagged_same _ old).id.symm⟩
        · exact .inl (congrArg DiscoveredHost.id (List.mem_singleton.mp last)) }

end Finding

/-! ### Recording a report -/

def recordedHost (report : InventoryReport) (candidates : List DiscoveredHost) (now reportId : Nat)
    (found : DiscoveredHost) : DiscoveredHost :=
  { describeHost report (reportMacs report ≠ [] ∨ candidates = []) now found with
    latestReportId := some reportId }

section Recording

variable {digest : String → String} {store : Store} {report : InventoryReport}
  {candidates : List DiscoveredHost} {now reportId : Nat} {found : DiscoveredHost}
  {hosts : List DiscoveredHost} {reports : List StoredReport}

theorem recorded_keyed (prepared : Prepared digest store report found hosts) :
    Keyed (recordedHost report candidates now reportId found) where
  uuid named := prepared.named (prepared.uuid ▸ named)
  mac unnamed := by
    have other : report.dmiUuid = "" := prepared.uuid.symm.trans unnamed
    have macs := report_macs_nonempty other
    have key := (prepared.unnamed other).trans (key_unnamed other)
    simpa [recordedHost, describeHost, macs] using key
  primary unnamed := by
    have other : report.dmiUuid = "" := prepared.uuid.symm.trans unnamed
    have macs := report_macs_nonempty other
    simpa [recordedHost, describeHost, macs] using primary_mem macs

theorem same_row {rows : List DiscoveredHost} (distinct : (rows.map DiscoveredHost.id).Nodup)
    {first second : DiscoveredHost} (firstInside : first ∈ rows) (secondInside : second ∈ rows)
    (same : first.id = second.id) : first = second :=
  List.inj_on_of_nodup_map distinct firstInside secondInside same

theorem replaced_keys (prepared : Prepared digest store report found hosts) :
    (replaceRow DiscoveredHost.id (recordedHost report candidates now reportId found) hosts).map
      DiscoveredHost.identityKey = hosts.map DiscoveredHost.identityKey := by
  rw [replaceRow, List.map_map]
  apply List.map_congr_left
  intro host inside
  by_cases same : host.id = found.id
  · obtain rfl := same_row prepared.distinct inside prepared.present same
    have replaced : (if host.id = (recordedHost report candidates now reportId host).id then
        recordedHost report candidates now reportId host else host) =
        recordedHost report candidates now reportId host := if_pos rfl
    have keys := congrArg DiscoveredHost.identityKey replaced
    exact keys
  · exact congrArg DiscoveredHost.identityKey (if_neg same)

theorem replaced_other {host : DiscoveredHost} (inside : host ∈ hosts) (differs : host.id ≠ found.id) :
    host ∈ replaceRow DiscoveredHost.id (recordedHost report candidates now reportId found) hosts := by
  have same : (if host.id = (recordedHost report candidates now reportId found).id then
      recordedHost report candidates now reportId found else host) = host := if_neg differs
  rw [replaceRow, ← same]
  exact List.mem_map_of_mem inside

theorem recorded_present (prepared : Prepared digest store report found hosts) :
    recordedHost report candidates now reportId found ∈
      replaceRow DiscoveredHost.id (recordedHost report candidates now reportId found) hosts :=
  List.mem_map.mpr ⟨found, prepared.present, if_pos rfl⟩

theorem recorded_sound (prepared : Prepared digest store report found hosts) :
    Sound ⟨replaceRow DiscoveredHost.id (recordedHost report candidates now reportId found) hosts,
      reports⟩ where
  distinct := distinct_replace prepared.distinct
  keys := by
    rw [replaced_keys prepared]
    exact prepared.keys
  keyed := by
    intro host inside
    rcases mem_replace_row inside with rfl | other
    · exact recorded_keyed prepared
    · obtain ⟨member, differs⟩ := mem_remove_row.mp other
      exact prepared.keyed host member differs
  flagged := by
    apply separate_replace flagged_symm prepared.flagged
    intro other inside
    obtain ⟨member, differs⟩ := mem_remove_row.mp inside
    exact prepared.flagged found prepared.present other member (Ne.symm differs)

end Recording

/-! ### What a report promises -/

def Attached (before : Store) (report : InventoryReport) (host : DiscoveredHost) : Prop :=
  ∃ earlier ∈ before.hosts, earlier.id = host.id ∧ earlier.identityKey = host.identityKey ∧
    earlier.dmiUuid = report.dmiUuid ∧
    (report.dmiUuid ≠ "" → reportMacs report ≠ [] → ∃ mac ∈ reportMacs report, mac ∈ earlier.macs) ∧
    (report.dmiUuid = "" → primaryMac earlier.bootMac earlier.macs =
      primaryMac report.bootMac (reportMacs report))

def Created (before : Store) (report : InventoryReport) (host : DiscoveredHost) : Prop :=
  host.dmiUuid = report.dmiUuid ∧
    ∀ other ∈ before.hosts, other.id ≠ host.id ∧ other.identityKey ≠ host.identityKey

structure Consistent (before : Store) (report : InventoryReport) (after : Store)
    (host : DiscoveredHost) (stored : StoredReport) : Prop where
  identified : Attached before report host ∨ Created before report host
  recorded : host ∈ after.hosts ∧ stored.hostId = host.id ∧ stored.payload = report
  described : reportMacs report ≠ [] →
    host.macs = reportMacs report ∧ host.bootMac = report.bootMac
  unique : (after.hosts.map DiscoveredHost.identityKey).Nodup
  flagged : ∀ first ∈ after.hosts, ∀ second ∈ after.hosts, first.id ≠ second.id →
    first.dmiUuid = second.dmiUuid → first.dmiUuid ≠ "" →
    (∀ mac ∈ first.macs, mac ∉ second.macs) → first.collision = true ∧ second.collision = true
  others : ∀ other ∈ before.hosts, other.id ≠ host.id →
    ∃ kept ∈ after.hosts, Undisturbed report other kept
  known : ∀ kept ∈ after.hosts, kept.id = host.id ∨ ∃ other ∈ before.hosts, other.id = kept.id

/-- A report without a MAC is refused when several hosts have its DMI UUID. -/
def Ambiguous (before : Store) (report : InventoryReport) : Prop :=
  report.dmiUuid ≠ "" ∧ reportMacs report = [] ∧
    1 < before.hosts.countP fun host => host.dmiUuid = report.dmiUuid

def AMBIGUOUS : String :=
  "Inventory report DMI UUID matches multiple hosts; a valid MAC is required."

abbrev Result : Type := Except Failure (Store × InventorySession × DiscoveredHost × StoredReport)

def Kept (before : Store) (report : InventoryReport) : Result → Prop
  | .ok (after, _, host, stored) => Consistent before report after host stored
  | .error .integrityError => False
  | .error (.valueError message) => message = AMBIGUOUS ∧ Ambiguous before report

structure Submission where
  report : InventoryReport
  session : InventorySession
  unused : session.reportSubmittedAt = none ∧ session.boundIdentityKey = ""
  now : Nat
  protectedHosts : List Nat
  queried : Arrangement DiscoveredHost

def submit (digest : String → String) (store : Store) (submission : Submission) : Result :=
  storeInventoryReport digest submission.queried submission.protectedHosts submission.now
    submission.session submission.report store

section Submitting

variable {digest : String → String} {store : Store} {submission : Submission}

def candidatesOf (digest : String → String) (store : Store) (submission : Submission) :
    List DiscoveredHost :=
  submission.queried.arrange (store.hosts.filter
    (isCandidate (reportKey digest submission.report) submission.report.dmiUuid))

theorem candidates_queried :
    Queried digest store submission.report (candidatesOf digest store submission) :=
  submission.queried.same _

def storedReport (store : Store) (submission : Submission) (found : DiscoveredHost) : StoredReport :=
  ⟨nextId (store.reports.map StoredReport.id), found.id, submission.session.id,
    submission.report.schemaVersion, submission.report, submission.now⟩

def recordedOf (digest : String → String) (store : Store) (submission : Submission)
    (found : DiscoveredHost) : DiscoveredHost :=
  recordedHost submission.report (candidatesOf digest store submission) submission.now
    (nextId (store.reports.map StoredReport.id)) found

def submittedSession (submission : Submission) (found : DiscoveredHost) : InventorySession :=
  { submission.session with
    boundIdentityKey := found.identityKey
    hostId := some found.id
    reportSubmittedAt := some submission.now
    heartbeatAt := some submission.now }

def storeWith (digest : String → String) (store : Store) (submission : Submission)
    (found : DiscoveredHost) (hosts : List DiscoveredHost) : Store :=
  ⟨replaceRow DiscoveredHost.id (recordedOf digest store submission found) hosts,
    retainReports found.id (store.reports ++ [storedReport store submission found])⟩

theorem submit_equation : submit digest store submission =
    if submission.report.dmiUuid ≠ "" ∧ reportMacs submission.report = [] ∧
        1 < (candidatesOf digest store submission).length then .error (.valueError AMBIGUOUS)
    else match findHost store (reportKey digest submission.report) submission.report.dmiUuid
        (candidatesOf digest store submission) (reportMacs submission.report) submission.now with
      | .error failure => .error failure
      | .ok (found, hosts) =>
        recordReport submission.protectedHosts submission.now submission.session submission.report
          (reportMacs submission.report ≠ [] ∨ candidatesOf digest store submission = []) found
          ⟨hosts, store.reports⟩ := by
  unfold submit storeInventoryReport
  rw [submission.unused.1, report_identity_parts]
  rfl

theorem retain_reports_length (host : Nat) (reports : List StoredReport) :
    (retainReports host reports).length ≤ reports.length := by
  unfold retainReports
  simp only
  split
  · exact Nat.le_refl _
  · exact List.length_filter_le _ _

theorem submit_found (room : Room store)
    (clear : ¬(submission.report.dmiUuid ≠ "" ∧ reportMacs submission.report = [] ∧
      1 < (candidatesOf digest store submission).length))
    {found : DiscoveredHost} {hosts : List DiscoveredHost}
    (searched : findHost store (reportKey digest submission.report) submission.report.dmiUuid
      (candidatesOf digest store submission) (reportMacs submission.report) submission.now =
        .ok (found, hosts))
    (prepared : Prepared digest store submission.report found hosts) :
    submit digest store submission = .ok
      (storeWith digest store submission found hosts, submittedSession submission found,
        recordedOf digest store submission found, storedReport store submission found) := by
  have few : (storeWith digest store submission found hosts).hosts.length ≤
      NETWORK_BOOT_MAX_HOSTS := by
    rw [storeWith, replace_row_length]
    exact prepared.few.trans room.1
  have light : (storeWith digest store submission found hosts).reports.length ≤
      NETWORK_BOOT_MAX_REPORTS := by
    apply (retain_reports_length _ _).trans
    rw [List.length_append, List.length_singleton]
    exact room.2
  have pruned := prune_room submission.protectedHosts found.id
    (distinct_replace prepared.distinct) few light
  have unbound : ¬(submission.session.boundIdentityKey ≠ "" ∧
      submission.session.boundIdentityKey ≠ found.identityKey) := by
    rw [submission.unused.2]
    exact fun bound => bound.1 rfl
  rw [submit_equation, if_neg clear, searched]
  simp only [recordReport, if_neg unbound]
  simp only [storeWith, recordedOf, recordedHost, storedReport] at pruned
  rw [pruned]
  rfl

theorem search_identified (sound : Sound store) {candidates : List DiscoveredHost} {now : Nat}
    {report : InventoryReport} (queried : Queried digest store report candidates)
    {found : DiscoveredHost} {hosts : List DiscoveredHost}
    (search : Search digest store report candidates now (.ok (found, hosts))) (reportId : Nat) :
    ¬Drifted digest store report ∧
      (Attached store report (recordedHost report candidates now reportId found) ∨
        Created store report (recordedHost report candidates now reportId found)) := by
  have prepared := search_prepared sound queried search
  cases search with
  | attached inside shared =>
    obtain ⟨member, candidate⟩ := (queried_mem queried).mp inside
    refine ⟨?_, .inl ⟨found, member, rfl, rfl, prepared.uuid, ?_, ?_⟩⟩
    · rintro ⟨_, apart, _⟩
      rw [apart found member prepared.uuid] at shared
      cases shared
    · intro _ macs
      rw [intersects, decide_eq_false macs, Bool.false_or, List.any_eq_true] at shared
      obtain ⟨mac, held, reported⟩ := shared
      exact ⟨mac, of_decide_eq_true reported, held⟩
    · intro unnamed
      exact (candidate_primary sound unnamed member (prepared.unnamed unnamed)).2
  | created apart unique =>
    refine ⟨?_, .inr ⟨rfl, ?_⟩⟩
    · rintro ⟨_, _, host, inside, held⟩
      exact unique host inside held
    · intro other inside
      exact ⟨Nat.ne_of_lt (next_id_fresh (List.mem_map_of_mem inside)), unique other inside⟩

theorem prepared_consistent {report : InventoryReport} {candidates : List DiscoveredHost}
    {now reportId : Nat} {found : DiscoveredHost} {hosts : List DiscoveredHost}
    {reports : List StoredReport} {stored : StoredReport}
    (prepared : Prepared digest store report found hosts)
    (identified : Attached store report (recordedHost report candidates now reportId found) ∨
      Created store report (recordedHost report candidates now reportId found))
    (own : stored.hostId = found.id) (payload : stored.payload = report) :
    Consistent store report
      ⟨replaceRow DiscoveredHost.id (recordedHost report candidates now reportId found) hosts,
        reports⟩ (recordedHost report candidates now reportId found) stored where
  identified := identified
  recorded := ⟨recorded_present prepared, own, payload⟩
  described macs := by simp [recordedHost, describeHost, macs]
  unique := (@recorded_sound _ _ _ _ _ _ _ _ reports prepared).keys
  flagged first firstInside second secondInside differs same named _ :=
    (@recorded_sound _ _ _ candidates now reportId _ _ reports prepared).flagged first firstInside
      second secondInside differs same named
  others := by
    intro other inside differs
    obtain ⟨after, member, undisturbed⟩ := prepared.others other inside differs
    have kept : after.id = other.id := by
      rcases undisturbed with rfl | ⟨rfl, _⟩
      · rfl
      · rfl
    exact ⟨after, replaced_other member (kept ▸ differs), undisturbed⟩
  known := by
    intro kept inside
    rcases mem_replace_row inside with rfl | other
    · exact .inl rfl
    · exact prepared.known kept (mem_remove_row.mp other).1

theorem candidates_count (named : submission.report.dmiUuid ≠ "") :
    (candidatesOf digest store submission).length =
      store.hosts.countP fun host => host.dmiUuid = submission.report.dmiUuid := by
  rw [candidatesOf, (submission.queried.same _).length_eq, ← List.countP_eq_length_filter]
  apply List.countP_congr
  intro host _
  rw [isCandidate_named named, decide_eq_true_eq]

theorem submit_kept_iff (sound : Sound store) (room : Room store) :
    Kept store submission.report (submit digest store submission) ↔
      ¬Drifted digest store submission.report := by
  by_cases ambiguous : submission.report.dmiUuid ≠ "" ∧ reportMacs submission.report = [] ∧
      1 < (candidatesOf digest store submission).length
  · obtain ⟨named, none, several⟩ := ambiguous
    rw [submit_equation, if_pos ⟨named, none, several⟩]
    refine iff_of_true ⟨rfl, named, none, candidates_count named ▸ several⟩ ?_
    rintro ⟨_, apart, _⟩
    obtain ⟨host, inside⟩ := List.exists_mem_of_length_pos (Nat.zero_lt_of_lt several)
    obtain ⟨member, candidate⟩ := (queried_mem candidates_queried).mp inside
    have shared := apart host member ((isCandidate_named named host).mp candidate)
    rw [none] at shared
    cases shared
  · have search := @find_host_search digest store submission.report
      (candidatesOf digest store submission) submission.now sound candidates_queried
    rcases searched : findHost store (reportKey digest submission.report) submission.report.dmiUuid
      (candidatesOf digest store submission) (reportMacs submission.report) submission.now
      with failure | ⟨found, hosts⟩
    · rw [searched] at search
      rw [submit_equation, if_neg ambiguous, searched]
      cases search with
      | taken drifted => exact iff_of_false id (not_not.mpr drifted)
    · rw [searched] at search
      have prepared := search_prepared sound candidates_queried search
      obtain ⟨clear, identified⟩ := search_identified sound candidates_queried search
        (nextId (store.reports.map StoredReport.id))
      rw [submit_found room ambiguous searched prepared]
      exact iff_of_true (prepared_consistent prepared identified rfl rfl) clear

theorem submit_sound (sound : Sound store) (room : Room store) {after : Store}
    {session : InventorySession} {host : DiscoveredHost} {stored : StoredReport}
    (submitted : submit digest store submission = .ok (after, session, host, stored)) :
    Sound after := by
  by_cases ambiguous : submission.report.dmiUuid ≠ "" ∧ reportMacs submission.report = [] ∧
      1 < (candidatesOf digest store submission).length
  · rw [submit_equation, if_pos ambiguous] at submitted
    cases submitted
  · have search := @find_host_search digest store submission.report
      (candidatesOf digest store submission) submission.now sound candidates_queried
    rcases searched : findHost store (reportKey digest submission.report) submission.report.dmiUuid
      (candidatesOf digest store submission) (reportMacs submission.report) submission.now
      with failure | ⟨found, hosts⟩
    · rw [submit_equation, if_neg ambiguous, searched] at submitted
      cases submitted
    · rw [searched] at search
      have prepared := search_prepared sound candidates_queried search
      rw [submit_found room ambiguous searched prepared] at submitted
      obtain ⟨rfl, _⟩ := Prod.mk.inj (Except.ok.inj submitted)
      exact recorded_sound prepared

end Submitting

/-! ### Runs -/

/-- The tables after a report; one that fails leaves them. -/
def step (digest : String → String) (store : Store) (submission : Submission) : Store :=
  match submit digest store submission with
  | .ok (after, _) => after
  | .error _ => store

def run (digest : String → String) (submissions : List Submission) : Store :=
  submissions.foldl (step digest) .empty

/-- Something holds of every report and of the tables that it comes to. -/
def Throughout (digest : String → String) (submissions : List Submission)
    (holds : Store → Submission → Prop) : Prop :=
  ∀ earlier submission later, submissions = earlier ++ submission :: later →
    holds (run digest earlier) submission

theorem run_sound {digest : String → String} (submissions : List Submission)
    (room : Throughout digest submissions fun store _ => Room store) :
    Sound (run digest submissions) := by
  induction submissions using List.reverseRecOn with
  | nil => exact sound_empty
  | append_singleton submissions submission induction =>
    have before : Sound (run digest submissions) := by
      apply induction
      rintro earlier other later rfl
      exact room earlier other (later ++ [submission]) (by simp)
    have space := room submissions submission [] rfl
    rw [run, List.foldl_append, List.foldl_cons, List.foldl_nil]
    change Sound (step digest (run digest submissions) submission)
    rw [step]
    split
    · next after _ submitted => exact submit_sound before space submitted
    · exact before

/-- With space for each report, all reports of a run do what they promise exactly when none needs
a key that a host holds which shares no MAC with it. -/
theorem reports_consistent_iff (digest : String → String) (submissions : List Submission)
    (room : Throughout digest submissions fun store _ => Room store) :
    (Throughout digest submissions fun store submission =>
        Kept store submission.report (submit digest store submission)) ↔
      Throughout digest submissions fun store submission =>
        ¬Drifted digest store submission.report := by
  have steps : ∀ earlier submission later, submissions = earlier ++ submission :: later →
      (Kept (run digest earlier) submission.report
          (submit digest (run digest earlier) submission) ↔
        ¬Drifted digest (run digest earlier) submission.report) := by
    intro earlier submission later split
    apply submit_kept_iff
    · apply run_sound
      rintro first other rest rfl
      exact room first other (rest ++ submission :: later) (by rw [split]; simp)
    · exact room earlier submission later split
  refine ⟨fun kept earlier submission later split => ?_, fun clear earlier submission later split => ?_⟩
  · exact (steps earlier submission later split).mp (kept earlier submission later split)
  · exact (steps earlier submission later split).mpr (clear earlier submission later split)

/-! ### Reports of one machine -/

theorem throughout_of_prefixes {digest : String → String} {submissions : List Submission}
    {holds : Store → Submission → Prop}
    (each : ∀ count, (bound : count < submissions.length) →
      holds (run digest (submissions.take count)) (submissions.get ⟨count, bound⟩)) :
    Throughout digest submissions holds := by
  rintro earlier submission later rfl
  have here := each earlier.length (by simp)
  simpa using here

instance (store : Store) : Decidable (Room store) :=
  inferInstanceAs (Decidable (_ ∧ _))

instance (digest : String → String) (store : Store) (report : InventoryReport) :
    Decidable (Drifted digest store report) :=
  inferInstanceAs (Decidable (_ ∧ _ ∧ _))

def machineReport (boot : String) (others : List String) (named : boot ≠ "") : InventoryReport where
  schemaVersion := 2
  bootMac := boot
  dmiUuid := "4c4c4544-004b-4d10-8052-cac04f4c5100"
  manufacturer := "Dell Inc."
  productName := "PowerEdge R740"
  serialNumber := "CAFE100"
  cpuModel := "Xeon"
  totalMemoryBytes := 68719476736
  disks := ["sda"]
  interfaces := others.map fun mac => ⟨mac, mac⟩
  identified := .inr ⟨boot, List.mem_cons_self, named⟩

def machineSubmission (now : Nat) (report : InventoryReport) : Submission where
  report := report
  session := ⟨"nbs_1", "", none, none, none⟩
  unused := ⟨rfl, rfl⟩
  now := now
  protectedHosts := []
  queried := ⟨id, fun _ => List.Perm.refl _⟩

def firstNic : Submission :=
  machineSubmission 0 (machineReport "52:54:00:12:34:56" [] (by decide))

def bothNics : Submission :=
  machineSubmission 1 (machineReport "52:54:00:12:34:56" ["52:54:00:aa:bb:cc"] (by decide))

def secondNic : Submission :=
  machineSubmission 2 (machineReport "52:54:00:aa:bb:cc" [] (by decide))

def firstNicAgain : Submission :=
  machineSubmission 3 (machineReport "52:54:00:12:34:56" [] (by decide))

theorem sample_reports_consistent :
    Throughout id [firstNic, bothNics, secondNic] fun store submission =>
      Kept store submission.report (submit id store submission) :=
  (reports_consistent_iff id [firstNic, bothNics, secondNic]
    (throughout_of_prefixes (by decide))).mpr (throughout_of_prefixes (by decide))

/-- A machine comes back with the NIC of its first report after its host moved on to another. -/
theorem drifted_key_exception : ¬∀ digest submissions,
    (Throughout digest submissions fun store _ => Room store) →
      Throughout digest submissions fun store submission =>
        Kept store submission.report (submit digest store submission) := by
  intro consistent
  have kept := consistent id [firstNic, bothNics, secondNic, firstNicAgain]
    (throughout_of_prefixes (by decide)) [firstNic, bothNics, secondNic] firstNicAgain []
    rfl
  have failed : submit id (run id [firstNic, bothNics, secondNic]) firstNicAgain =
      .error .integrityError := by decide
  simp only [failed] at kept
  exact kept

end Atlaso.NetworkBoot.HostIdentities
