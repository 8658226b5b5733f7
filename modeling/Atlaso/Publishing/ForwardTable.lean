import Atlaso.Publishing.PortForwards
import Mathlib

/-!
The table of port forwards over all calls that write it.

A candidate that is saved is apart from every other enabled row, has its listener in canonical
notation, and fits into the ports that are left. Calls that fail leave the table as it is.
-/

namespace Atlaso.Publishing.ForwardTable

open Library IpAddress ItemLists RowTables Sessions PortForwards

/-! ### What a table promises -/

/-- A destination that a packet arrives at. -/
structure Endpoint where
  family : Family
  address : Address
  protocol : Protocol
  port : Int

noncomputable def externalPorts (mapping : Mapping) : Finset Int :=
  Finset.Icc mapping.externalPortStart mapping.externalPortEnd

def Translates (row : PortForward) (endpoint : Endpoint) : Prop :=
  row.enabled = true ∧ row.ipFamily = endpoint.family ∧
    ipAddress row.listenerAddress = some endpoint.address ∧ row.protocol = endpoint.protocol ∧
    endpoint.port ∈ externalPorts row.toMapping

/-- Each endpoint has one translation at most, and the table is within its limits. -/
structure Unambiguous (rows : List PortForward) : Prop where
  single : rows.Pairwise fun first second => ∀ endpoint,
    ¬(Translates first endpoint ∧ Translates second endpoint)
  ports : ((rows.filter fun row => row.enabled).map fun row =>
    (externalPorts row.toMapping).card).sum ≤ 65535
  rows : rows.length ≤ 256

/-! ### The invariant -/

noncomputable def load (row : PortForward) : Nat :=
  if row.enabled = true then (externalPorts row.toMapping).card else 0

/-- Enabled rows do not overlap. -/
def Apart (first second : PortForward) : Prop :=
  first.enabled = true → second.enabled = true → first.ipFamily = second.ipFamily →
    first.listenerAddress = second.listenerAddress → first.protocol = second.protocol →
    ¬(first.externalPortStart ≤ second.externalPortEnd ∧
      second.externalPortStart ≤ first.externalPortEnd)

theorem apart_symm (first second : PortForward) (apart : Apart first second) :
    Apart second first := by
  intro enabled other family listener protocol overlap
  exact apart other enabled family.symm listener.symm protocol.symm overlap.symm

def Canonical (mapping : Mapping) : Prop :=
  ∃ address, ipAddress mapping.listenerAddress = some address ∧
    address.text = mapping.listenerAddress

structure Sound (rows : List PortForward) : Prop where
  distinct : (rows.map PortForward.id).Nodup
  canonical : ∀ row ∈ rows, Canonical row.toMapping
  ordered : ∀ row ∈ rows, row.externalPortStart ≤ row.externalPortEnd
  apart : Separate PortForward.id Apart rows
  ports : (rows.map load).sum ≤ 65535
  bounded : rows.length ≤ MAX_PORT_FORWARDS

theorem sound_nil : Sound [] where
  distinct := List.nodup_nil
  canonical := fun _ inside => absurd inside List.not_mem_nil
  ordered := fun _ inside => absurd inside List.not_mem_nil
  apart := separate_nil
  ports := Nat.zero_le _
  bounded := Nat.zero_le _

theorem apart_untranslated {first second : PortForward} (firstCanonical : Canonical first.toMapping)
    (secondCanonical : Canonical second.toMapping) (apart : Apart first second)
    (endpoint : Endpoint) : ¬(Translates first endpoint ∧ Translates second endpoint) := by
  rintro ⟨⟨enabled, family, listener, protocol, port⟩, other, family', listener', protocol', port'⟩
  obtain ⟨address, read, text⟩ := firstCanonical
  obtain ⟨address', read', text'⟩ := secondCanonical
  rw [listener] at read
  rw [listener'] at read'
  obtain rfl := Option.some.inj read
  obtain rfl := Option.some.inj read'
  obtain ⟨low, high⟩ := Finset.mem_Icc.mp port
  obtain ⟨low', high'⟩ := Finset.mem_Icc.mp port'
  exact apart enabled other (family.trans family'.symm) (text.symm.trans text')
    (protocol.trans protocol'.symm) ⟨low.trans high', low'.trans high⟩

theorem sum_enabled (rows : List PortForward) :
    ((rows.filter fun row => row.enabled).map fun row => (externalPorts row.toMapping).card).sum =
      (rows.map load).sum := by
  induction rows with
  | nil => rfl
  | cons row rows induction =>
    rw [List.map_cons, List.sum_cons, ← induction, load]
    by_cases enabled : row.enabled = true
    · rw [if_pos enabled, List.filter_cons, if_pos enabled, List.map_cons, List.sum_cons]
    · rw [if_neg enabled, List.filter_cons, if_neg enabled, Nat.zero_add]

theorem sound_unambiguous {rows : List PortForward} (sound : Sound rows) : Unambiguous rows where
  single := by
    have distinct := List.pairwise_map.mp sound.distinct
    apply List.Pairwise.imp_of_mem _ distinct
    intro first second firstInside secondInside differs
    exact apart_untranslated (sound.canonical first firstInside) (sound.canonical second secondInside)
      (sound.apart first firstInside second secondInside differs)
  ports := by
    rw [sum_enabled]
    exact sound.ports
  rows := sound.bounded

/-! ### The validation -/

section Calls

variable {lowering : Lowering}

/-- What the validation makes sure of. -/
structure Admissible (ruleId : Option Int) (mapping : Mapping) (peers : List PortForward) :
    Prop where
  canonical : Canonical mapping
  ordered : mapping.externalPortStart ≤ mapping.externalPortEnd
  free : mapping.enabled = true → ∀ peer ∈ peers, some peer.id ≠ ruleId → peer.enabled = true →
    peer.ipFamily = mapping.ipFamily → peer.listenerAddress = mapping.listenerAddress →
    peer.protocol = mapping.protocol → ¬(peer.externalPortStart ≤ mapping.externalPortEnd ∧
      mapping.externalPortStart ≤ peer.externalPortEnd)
  fits : mapping.enabled = true → mappedPorts ruleId mapping peers ≤ MAX_MAPPED_PORTS

theorem unicast_address_read {value : String} {family : Family} {address : Address}
    (read : unicastAddress value family = some address) : ipAddress value = some address := by
  unfold unicastAddress at read
  split at read
  · cases read
  · split at read
    · cases read
    · next found parsed =>
        split at read
        · cases read
        · rwa [← Option.some.inj read]

variable {mapping : Mapping} {ruleId : Option Int} {circumstances : Circumstances}

theorem created_ordered {acknowledged : Bool} {payload : PortForwardCreate}
    (created : portForwardCreate mapping acknowledged = some payload) :
    mapping.externalPortStart ≤ mapping.externalPortEnd := by
  rw [portForwardCreate] at created
  split at created
  · next accepted =>
      have mapped := (Bool.and_eq_true_iff.mp accepted).2
      simp only [validateMapping, Mapping.stripped, Bool.and_eq_true, Bool.not_eq_true',
        Bool.or_eq_false_iff] at mapped
      have forwards := of_decide_eq_false mapped.1.1.1
      omega
  · cases created

variable {context : Context} {peers : List PortForward} {values : Mapping} {store : Store}

theorem read_candidate_some {listener target : Address}
    (read : readCandidate lowering mapping context = some (listener, target)) :
    mapping.externalPortStart ≤ mapping.externalPortEnd ∧
      ipAddress mapping.listenerAddress = some listener := by
  simp only [readCandidate, Option.bind_eq_bind, Option.bind_eq_some_iff, Option.some.injEq,
    Prod.mk.injEq] at read
  obtain ⟨payload, created, first, listened, _, _, _, _, rfl, _⟩ := read
  exact ⟨created_ordered created, unicast_address_read listened⟩

theorem erase_dups_nil {items : List String} (empty : items.eraseDups = []) : items = [] := by
  cases items with
  | nil => rfl
  | cons first rest =>
    rw [List.eraseDups_cons] at empty
    cases empty

theorem if_nil {condition : Prop} [Decidable condition] {message : String}
    (empty : (if condition then [message] else []) = []) : ¬condition := by
  intro holds
  rw [if_pos holds] at empty
  cases empty

theorem validated_admissible
    (accepted : validatePortForward lowering ruleId mapping peers context = some []) :
    Admissible ruleId mapping peers := by
  unfold validatePortForward at accepted
  split at accepted
  · cases accepted
  · next listener target read =>
      obtain ⟨ordered, parsed⟩ := read_candidate_some read
      obtain ⟨binding, _, errors⟩ := Option.bind_eq_some_iff.mp accepted
      have empty := erase_dups_nil (Option.some.inj errors)
      simp only [List.append_eq_nil_iff] at empty
      obtain ⟨⟨⟨⟨⟨notation', _⟩, _⟩, _⟩, overlaps⟩, total⟩ := empty
      have text : listener.text = mapping.listenerAddress := by
        by_contra differs
        exact if_nil notation' (.inl differs)
      refine ⟨⟨listener, parsed, text⟩, ordered, ?_, ?_⟩
      · intro enabled peer inside other peerEnabled family address protocol overlap
        apply if_nil overlaps
        rw [List.any_eq_true]
        refine ⟨peer, inside, ?_⟩
        simp [peerOverlaps, other, peerEnabled, enabled, family, address, protocol, text, overlap]
      · intro enabled
        have bound := if_nil total
        simp only [enabled, true_and] at bound
        exact Int.not_lt.mp bound

/-! ### Saving -/

theorem checked_candidate_ok {payload : PortForwardCreate} {session after : Session Store}
    (returned : checkedCandidate lowering circumstances payload ruleId session = (.ok values,
      after)) :
    after = session ∧ Admissible ruleId values session.working.forwards ∧
      (ruleId = none → session.working.forwards.length < MAX_PORT_FORWARDS) := by
  unfold checkedCandidate at returned
  obtain ⟨_, _, asked, rest⟩ := Work.bind_ok returned
  obtain ⟨_, rfl⟩ := Work.may_raise_ok asked
  obtain ⟨store, _, seen, checks⟩ := Work.bind_ok rest
  obtain ⟨rfl, rfl⟩ := Work.read_ok seen
  dsimp only at checks
  split at checks
  · exact (Work.raise_ok checks).elim
  · split at checks
    · exact (Work.raise_ok checks).elim
    · next roomy =>
        obtain ⟨listener, _, first, later⟩ := Work.bind_ok checks
        obtain ⟨_, rfl⟩ := Work.of_option_ok first
        obtain ⟨target, _, second, validated⟩ := Work.bind_ok later
        obtain ⟨_, rfl⟩ := Work.of_option_ok second
        rcases captured : circumstances.context with failure | context
        · rw [captured] at validated
          exact (Work.raise_ok validated).elim
        · rw [captured] at validated
          obtain ⟨errors, _, third, ends⟩ := Work.bind_ok validated
          obtain ⟨accepted, rfl⟩ := Work.of_option_ok third
          split at ends
          · exact (Work.raise_ok ends).elim
          · next clean =>
              obtain ⟨rfl, rfl⟩ := Work.pure_ok ends
              rw [not_not.mp clean] at accepted
              refine ⟨rfl, validated_admissible accepted, ?_⟩
              rintro rfl
              simpa using roomy

theorem load_mapped {row : PortForward} (enabled : row.enabled = true)
    (ordered : row.externalPortStart ≤ row.externalPortEnd) :
    (load row : Int) = row.toMapping.mappedPorts := by
  rw [load, if_pos enabled, externalPorts, Int.card_Icc, Mapping.mappedPorts]
  omega

theorem mapped_sum {rows : List PortForward}
    (ordered : ∀ row ∈ rows, row.externalPortStart ≤ row.externalPortEnd) :
    ((rows.filter fun row => row.enabled).map fun row => row.toMapping.mappedPorts).sum =
      ((rows.map load).sum : Int) := by
  induction rows with
  | nil => rfl
  | cons row rows induction =>
    have rest := induction fun other inside => ordered other (List.mem_cons_of_mem _ inside)
    rw [List.map_cons, List.sum_cons, Nat.cast_add, ← rest]
    by_cases enabled : row.enabled = true
    · rw [List.filter_cons, if_pos enabled, List.map_cons, List.sum_cons,
        load_mapped enabled (ordered row List.mem_cons_self)]
    · rw [List.filter_cons, if_neg enabled, load, if_neg enabled, Nat.cast_zero, Int.zero_add]

theorem fitting_load {rows : List PortForward} {row : PortForward} (same : row.toMapping = values)
    (admissible : Admissible ruleId values rows)
    (others : (rows.filter fun peer => ruleId = none || some peer.id ≠ ruleId) = peers)
    (ordered : ∀ peer ∈ peers, peer.externalPortStart ≤ peer.externalPortEnd)
    (before : (peers.map load).sum ≤ 65535) : load row + (peers.map load).sum ≤ 65535 := by
  subst same
  by_cases enabled : row.enabled = true
  · have fits := admissible.fits enabled
    rw [mappedPorts, ← List.filter_filter, others, mapped_sum ordered,
      ← load_mapped enabled admissible.ordered, MAX_MAPPED_PORTS] at fits
    exact_mod_cast fits
  · rw [load, if_neg enabled, Nat.zero_add]
    exact before

theorem sound_add {rows : List PortForward} (sound : Sound rows) {row : PortForward}
    (admissible : Admissible none row.toMapping rows) (room : rows.length < MAX_PORT_FORWARDS)
    (fresh : ∀ other ∈ rows, other.id ≠ row.id) : Sound (rows ++ [row]) := by
  have new : ∀ other ∈ rows ++ [row], other ∈ rows ∨ other = row := by
    intro other inside
    exact (List.mem_append.mp inside).imp_right List.mem_singleton.mp
  refine ⟨distinct_add sound.distinct fresh, ?_, ?_, ?_, ?_, ?_⟩
  · intro other inside
    rcases new other inside with before | rfl
    · exact sound.canonical other before
    · exact admissible.canonical
  · intro other inside
    rcases new other inside with before | rfl
    · exact sound.ordered other before
    · exact admissible.ordered
  · apply separate_add apart_symm sound.apart
    intro peer inside enabled peerEnabled family address protocol overlap
    exact admissible.free enabled peer inside (Option.some_ne_none _) peerEnabled family.symm
      address.symm protocol.symm overlap.symm
  · have all : (rows.filter fun peer => (none : Option Int) = none || some peer.id ≠ none) = rows :=
      List.filter_eq_self.mpr fun peer _ => by simp
    have total := fitting_load rfl admissible all sound.ordered sound.ports
    rw [List.map_append, List.sum_append, List.map_singleton, List.sum_singleton, Nat.add_comm]
    exact total
  · rw [List.length_append]
    exact room

theorem sound_replace {rows : List PortForward} (sound : Sound rows) {row : PortForward}
    (admissible : Admissible (some row.id) row.toMapping rows) :
    Sound (replaceRow PortForward.id row rows) := by
  refine ⟨distinct_replace sound.distinct, ?_, ?_, ?_, ?_, ?_⟩
  · intro other inside
    rcases mem_replace_row inside with rfl | kept
    · exact admissible.canonical
    · exact sound.canonical other (mem_remove_row.mp kept).1
  · intro other inside
    rcases mem_replace_row inside with rfl | kept
    · exact admissible.ordered
    · exact sound.ordered other (mem_remove_row.mp kept).1
  · apply separate_replace apart_symm sound.apart
    intro peer kept enabled peerEnabled family address protocol overlap
    obtain ⟨inside, other⟩ := mem_remove_row.mp kept
    exact admissible.free enabled peer inside (fun same => other (Option.some.inj same)) peerEnabled
      family.symm address.symm protocol.symm overlap.symm
  · have kept : (rows.filter fun peer => some row.id = none || some peer.id ≠ some row.id) =
        removeRow PortForward.id row.id rows := by
      apply List.filter_congr
      intro peer _
      simp
    have total := fitting_load rfl admissible kept
      (fun peer inside => sound.ordered peer (mem_remove_row.mp inside).1)
      ((sum_remove_le load).trans sound.ports)
    exact (sum_replace_le load sound.distinct).trans total
  · rw [replace_row_length]
    exact sound.bounded

theorem sound_remove {rows : List PortForward} (sound : Sound rows) (id : Int) :
    Sound (removeRow PortForward.id id rows) where
  distinct := distinct_remove sound.distinct
  canonical := fun row inside => sound.canonical row (mem_remove_row.mp inside).1
  ordered := fun row inside => sound.ordered row (mem_remove_row.mp inside).1
  apart := separate_remove sound.apart
  ports := (sum_remove_le load).trans sound.ports
  bounded := remove_row_length.trans sound.bounded

/-! ### The transactions -/

theorem flush_ok {session after : Session Store} {value : Unit}
    (returned : flush circumstances session = (.ok value, after)) :
    after = session ∧ (session.working.forwards.map PortForward.id).Nodup := by
  unfold flush at returned
  obtain ⟨store, _, seen, rest⟩ := Work.bind_ok returned
  obtain ⟨rfl, rfl⟩ := Work.read_ok seen
  split at rest
  · exact (Work.raise_ok rest).elim
  · next whole =>
      obtain ⟨_, rfl⟩ := Work.may_raise_ok rest
      refine ⟨rfl, ?_⟩
      simp only [violatesIntegrity, Bool.not_eq_true', Bool.not_eq_false, Bool.and_eq_true,
        decide_eq_true_eq] at whole
      exact whole.2

theorem save_row_sound {payload : PortForwardCreate} {session after : Session Store}
    {row : PortForward} (sound : Sound session.working.forwards)
    (returned : saveRow lowering circumstances payload ruleId session = (.ok row, after)) :
    Sound after.working.forwards := by
  unfold saveRow at returned
  obtain ⟨values, _, checked, changes⟩ := Work.bind_ok returned
  obtain ⟨rfl, admissible, room⟩ := checked_candidate_ok checked
  dsimp only at changes
  obtain ⟨_, edited, change, flushes⟩ := Work.bind_ok changes
  obtain rfl := Work.change_ok change
  obtain ⟨_, _, flushed, rest⟩ := Work.bind_ok flushes
  obtain ⟨rfl, distinct⟩ := flush_ok flushed
  split at rest
  · exact (Work.raise_ok rest).elim
  · obtain ⟨_, _, audited, ends⟩ := Work.bind_ok rest
    obtain rfl := Work.change_ok audited
    obtain ⟨_, rfl⟩ := Work.pure_ok ends
    cases ruleId with
    | none =>
      apply sound_add sound admissible (room rfl)
      intro other inside same
      dsimp only at distinct
      rw [List.map_append, List.nodup_append] at distinct
      exact distinct.2.2 _ (List.mem_map_of_mem inside) _ List.mem_cons_self same
    | some id => exact sound_replace sound admissible

theorem checked_candidate_kept (circumstances : Circumstances) (payload : PortForwardCreate)
    (ruleId : Option Int) : Work.Kept (checkedCandidate lowering circumstances payload ruleId) := by
  unfold checkedCandidate
  apply Work.kept_bind (Work.kept_may_raise _)
  intro _
  apply Work.kept_bind Work.kept_read
  intro store
  dsimp only
  split
  · exact Work.kept_raise _
  · split
    · exact Work.kept_raise _
    · apply Work.kept_bind (Work.kept_of_option _ _)
      intro listener
      apply Work.kept_bind (Work.kept_of_option _ _)
      intro target
      cases circumstances.context with
      | error failure => exact Work.kept_raise _
      | ok context =>
        apply Work.kept_bind (Work.kept_of_option _ _)
        intro errors
        split
        · exact Work.kept_raise _
        · exact Work.kept_pure _

theorem flush_kept (circumstances : Circumstances) : Work.Kept (flush circumstances) := by
  unfold flush
  apply Work.kept_bind Work.kept_read
  intro store
  split
  · exact Work.kept_raise _
  · exact Work.kept_may_raise _

theorem save_row_kept (circumstances : Circumstances) (payload : PortForwardCreate)
    (ruleId : Option Int) : Work.Kept (saveRow lowering circumstances payload ruleId) := by
  unfold saveRow
  apply Work.kept_bind (checked_candidate_kept _ _ _)
  intro values
  apply Work.kept_bind (Work.kept_change _)
  intro _
  apply Work.kept_bind (flush_kept _)
  intro _
  split
  · exact Work.kept_raise _
  · exact Work.kept_bind (Work.kept_change _) fun _ => Work.kept_pure _

theorem delete_row_kept (circumstances : Circumstances) (ruleId : Int) :
    Work.Kept (deleteRow circumstances ruleId) := by
  unfold deleteRow
  apply Work.kept_bind (Work.kept_may_raise _)
  intro _
  apply Work.kept_bind Work.kept_read
  intro store
  split
  · exact Work.kept_raise _
  · exact Work.kept_bind (Work.kept_change _) fun _ => Work.kept_may_raise _

theorem delete_row_sound {ruleId : Int} {session after : Session Store} {value : Unit}
    (sound : Sound session.working.forwards)
    (returned : deleteRow circumstances ruleId session = (.ok value, after)) :
    Sound after.working.forwards := by
  unfold deleteRow at returned
  obtain ⟨_, _, asked, rest⟩ := Work.bind_ok returned
  obtain ⟨_, rfl⟩ := Work.may_raise_ok asked
  obtain ⟨store, current, seen, changes⟩ := Work.bind_ok rest
  obtain ⟨rfl, rfl⟩ := Work.read_ok seen
  rcases found : findRow PortForward.id ruleId current.working.forwards with _ | row
  · rw [found] at changes
    exact (Work.raise_ok changes).elim
  · rw [found] at changes
    obtain ⟨_, _, changed, flushed⟩ := Work.bind_ok changes
    obtain rfl := Work.change_ok changed
    obtain ⟨_, rfl⟩ := Work.may_raise_ok flushed
    exact sound_remove sound ruleId

/-! ### The calls -/

def Keeps (before after : Store) : Prop := Sound before.forwards → Sound after.forwards

theorem save_atomic (circumstances : Circumstances) (payload : PortForwardCreate)
    (ruleId : Option Int) :
    Work.Atomic Keeps (savePortForward lowering circumstances payload ruleId) := by
  unfold savePortForward
  apply Work.atomic_may_raise
  exact Work.atomic_commit (save_row_kept _ _ _)
    (fun _ _ _ returned sound => save_row_sound sound returned) _ _

theorem delete_atomic (circumstances : Circumstances) (ruleId : Int) :
    Work.Atomic Keeps (deletePortForward circumstances ruleId) := by
  unfold deletePortForward
  apply Work.atomic_may_raise
  exact Work.atomic_commit (delete_row_kept _ _)
    (fun _ _ _ returned sound => delete_row_sound sound returned) _ _

theorem set_enabled_atomic (circumstances saving : Circumstances) (ruleId : Int) (enabled : Bool) :
    Work.Atomic Keeps (setPortForwardEnabled lowering circumstances saving ruleId enabled) := by
  unfold setPortForwardEnabled
  apply Work.atomic_may_raise
  apply Work.atomic_may_raise
  apply Work.atomic_read
  intro store
  cases findRow PortForward.id ruleId store.forwards with
  | none => exact fun _ => .inl ⟨missing, rfl⟩
  | some row =>
    apply Work.atomic_guarded
    apply Work.atomic_of_option
    intro payload
    exact save_atomic saving payload (some ruleId)

inductive Call where
  | save (circumstances : Circumstances) (payload : PortForwardCreate) (ruleId : Option Int)
  | setEnabled (circumstances saving : Circumstances) (ruleId : Int) (enabled : Bool)
  | delete (circumstances : Circumstances) (ruleId : Int)

variable (lowering) in
def Call.perform : Call → Action Unit
  | .save circumstances payload ruleId =>
    savePortForward lowering circumstances payload ruleId >>= fun _ => pure ()
  | .setEnabled circumstances saving ruleId enabled =>
    setPortForwardEnabled lowering circumstances saving ruleId enabled >>= fun _ => pure ()
  | .delete circumstances ruleId => deletePortForward circumstances ruleId

theorem perform_atomic (call : Call) : Work.Atomic Keeps (call.perform lowering) := by
  cases call with
  | save circumstances payload ruleId => exact Work.atomic_return (save_atomic _ _ _) ()
  | setEnabled circumstances saving ruleId enabled =>
    exact Work.atomic_return (set_enabled_atomic _ _ _ _) ()
  | delete circumstances ruleId => exact delete_atomic _ _

variable (lowering) in
def afterCalls (calls : List Call) (store : Store) : Store :=
  calls.foldl (fun store call => (call.perform lowering (.opened store)).2.saved) store

theorem perform_sound (sound : Sound store.forwards) (call : Call) :
    Sound (call.perform lowering (.opened store)).2.saved.forwards := by
  rcases @perform_atomic lowering call store with ⟨failure, failed⟩ | ⟨value, next, returned, kept⟩
  · rw [failed]
    exact sound
  · rw [returned]
    exact kept sound

theorem after_calls_sound (sound : Sound store.forwards) (calls : List Call) :
    Sound (afterCalls lowering calls store).forwards := by
  induction calls generalizing store with
  | nil => exact sound
  | cons call calls induction => exact induction (perform_sound sound call)

end Calls

/-- Whatever calls were made on an empty table and whatever of them failed, the table is
unambiguous and within its limits, and a call that fails leaves it as it is. -/
theorem forwards_stay_unambiguous (lowering : Lowering) (audit : List AuditEvent)
    (calls : List Call) :
    Unambiguous (afterCalls lowering calls ⟨[], audit⟩).forwards ∧
    ∀ (call : Call) (failure : Failure),
      (call.perform lowering (.opened (afterCalls lowering calls ⟨[], audit⟩))).1 = .error failure →
      (call.perform lowering (.opened (afterCalls lowering calls ⟨[], audit⟩))).2 =
        .opened (afterCalls lowering calls ⟨[], audit⟩) := by
  refine ⟨sound_unambiguous (after_calls_sound sound_nil calls), ?_⟩
  intro call failure raised
  rcases @perform_atomic lowering call (afterCalls lowering calls ⟨[], audit⟩) with
    ⟨_, failed⟩ | ⟨value, next, returned, _⟩
  · rw [failed]
  · rw [returned] at raised
    cases raised

/-! One port forward is saved, and another with one port of it is refused. -/

def sampleContext : Context where
  targets := [⟨"eth1".toList, "10.0.1.1/24", ""⟩]
  interfaces := [⟨"management", some "10.0.0.1/24", none⟩, ⟨"access", some "10.0.1.1/24", none⟩]
  groups := []
  claims := [⟨['*'], "*", .tcp, 22, 22⟩, ⟨['*'], "*", .tcp, 443, 443⟩]

def sampleCircumstances (newId : Int) : Circumstances where
  actor := "operator".toList
  context := .ok sampleContext
  newId := newId
  lockFault := none
  readFault := none
  flushFault := none
  commitFault := none

def samplePayload (name : String) (first last : Int) : PortForwardCreate where
  name := name.toList
  description := []
  priority := 100
  enabled := true
  ipFamily := .v4
  ingressInterface := "eth1".toList
  listenerAddress := "10.0.1.1"
  protocol := .tcp
  externalPortStart := first
  externalPortEnd := last
  targetAddress := "10.0.2.5"
  targetPortStart := first
  targetPortEnd := last
  source := "any".toList
  replyMode := .preserve
  acknowledgeSourceLoss := false

def sampleCalls : List Call :=
  [.save (sampleCircumstances 1) (samplePayload "web" 8000 8010) none,
    .save (sampleCircumstances 2) (samplePayload "other web" 8010 8020) none]

theorem sample_calls_unambiguous :
    (afterCalls asciiLowering sampleCalls ⟨[], []⟩).forwards.map PortForward.id = [1] ∧
    Unambiguous (afterCalls asciiLowering sampleCalls ⟨[], []⟩).forwards :=
  ⟨by decide +kernel, (forwards_stay_unambiguous asciiLowering [] sampleCalls).1⟩

end Atlaso.Publishing.ForwardTable
