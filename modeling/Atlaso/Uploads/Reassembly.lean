import Atlaso.Library.Outcomes
import Atlaso.Uploads.UploadStore

/-!
Chunked uploads reassemble exactly.

A call changes the store in one of three ways: it adds a session, it changes sessions in place
without touching their number, owner or size, or it drops sessions. The invariant of the store
and of the effects so far is shown for each of the three.
-/

namespace Atlaso.Uploads.Reassembly

open Library Dictionary Outcomes UploadStore

/-! ### Files -/

theorem write_at_length (file : Bytes) (offset : Nat) (data : Bytes) (bound : offset ≤ file.length) :
    (writeAt file offset data).length = max file.length (offset + data.length) := by
  simp only [writeAt, List.length_append, List.length_take, List.length_drop]
  omega

theorem write_at_before (file : Bytes) (offset : Nat) (data : Bytes) (bound : offset ≤ file.length) :
    (writeAt file offset data).take offset = file.take offset := by
  have length : (file.take offset).length = offset := by
    rw [List.length_take]
    omega
  rw [writeAt, List.append_assoc, List.take_append_of_le_length (by omega), List.take_take,
    Nat.min_self]

theorem write_at_content (file : Bytes) (offset : Nat) (data : Bytes)
    (bound : offset ≤ file.length) :
    (writeAt file offset data).take (offset + data.length) = file.take offset ++ data := by
  have length : (file.take offset ++ data).length = offset + data.length := by
    rw [List.length_append, List.length_take]
    omega
  rw [writeAt, ← length, List.take_left]

variable {offset : Nat} {data : Bytes} {store : Store} {sessions : List UploadSession}
  {effect : Effect} {effects : List Effect} {calls : FileCalls} {now : Int} {owner : String}
  {keys : List String}

theorem read_at_take {file : Bytes} {count limit : Nat} (inside : offset + count ≤ limit) :
    readAt (file.take limit) offset count = readAt file offset count := by
  simp only [readAt, List.drop_take, List.take_take]
  rw [Nat.min_eq_left (by omega)]

theorem read_at_append {first second : Bytes} {count : Nat}
    (inside : offset + count ≤ first.length) :
    readAt (first ++ second) offset count = readAt first offset count := by
  have taken : (first ++ second).take first.length = first := List.take_left
  rw [← read_at_take inside, taken]

theorem read_at_end (first second : Bytes) :
    readAt (first ++ second) first.length second.length = second := by
  simp [readAt]

theorem failed_write_before (file : Bytes) (offset : Nat) (data : Bytes) (written : Nat)
    (truncates : Bool) (bound : offset ≤ file.length) :
    (failedWrite file offset data written truncates).take offset = file.take offset := by
  simp only [failedWrite]
  split_ifs
  · rw [List.take_take, Nat.min_self, write_at_before _ _ _ bound]
  · exact write_at_before _ _ _ bound

theorem failed_write_length {file : Bytes} {size : Nat} (written : Nat) (truncates : Bool)
    (bound : offset ≤ file.length) (fits : file.length ≤ size)
    (room : offset + data.length ≤ size) :
    offset ≤ (failedWrite file offset data written truncates).length ∧
      (failedWrite file offset data written truncates).length ≤ size := by
  have length := write_at_length file offset (data.take written) bound
  have part : (data.take written).length ≤ data.length := by
    rw [List.length_take]
    omega
  simp only [failedWrite]
  split_ifs
  · rw [List.length_take]
    omega
  · omega

/-! ### The shape of the store -/

structure Shaped (store : Store) : Prop where
  keys : (store.sessions.map Prod.fst).Nodup
  ids : (store.sessions.map fun entry => entry.2.id).Nodup
  known : ∀ entry ∈ store.sessions, entry.2.id < store.created
  count : store.sessions.length ≤ 16
  owners : ∀ owner, store.total (ownedBy owner) ≤ 4
  declared : store.total UploadSession.size ≤ 32 * 1024 ^ 3

def alter (change : String → UploadSession → UploadSession) (store : Store) : Store :=
  { store with sessions := store.sessions.map fun entry => (entry.1, change entry.1 entry.2) }

def Keeps (change : String → UploadSession → UploadSession) (store : Store) : Prop :=
  ∀ entry ∈ store.sessions, (change entry.1 entry.2).id = entry.2.id ∧
    (change entry.1 entry.2).owner = entry.2.owner ∧ (change entry.1 entry.2).size = entry.2.size

theorem alter_shaped {change : String → UploadSession → UploadSession} (keeps : Keeps change store)
    (shaped : Shaped store) : Shaped (alter change store) := by
  have totals : ∀ weight : UploadSession → Nat,
      (∀ entry ∈ store.sessions, weight (change entry.1 entry.2) = weight entry.2) →
        (alter change store).total weight = store.total weight := by
    intro weight same
    simp only [Store.total, alter, List.map_map]
    exact congrArg List.sum (List.map_congr_left same)
  refine ⟨?_, ?_, ?_, ?_, ?_, ?_⟩
  · simpa only [alter, List.map_map, Function.comp_def] using shaped.keys
  · have same : (alter change store).sessions.map (fun entry => entry.2.id) =
        store.sessions.map fun entry => entry.2.id := by
      simp only [alter, List.map_map]
      exact List.map_congr_left fun entry inside => (keeps entry inside).1
    rw [same]
    exact shaped.ids
  · intro entry inside
    obtain ⟨before, member, rfl⟩ := List.mem_map.mp inside
    exact (keeps before member).1 ▸ shaped.known before member
  · simpa only [alter, List.length_map] using shaped.count
  · intro owner
    rw [totals _ fun entry inside => by rw [ownedBy, ownedBy, (keeps entry inside).2.1]]
    exact shaped.owners owner
  · rw [totals _ fun entry inside => (keeps entry inside).2.2]
    exact shaped.declared

theorem sum_filter_le {Item : Type} (weight : Item → Nat) (kept : Item → Bool)
    (items : List Item) : ((items.filter kept).map weight).sum ≤ (items.map weight).sum := by
  induction items with
  | nil => simp
  | cons item items induction =>
    by_cases keep : kept item = true
    · rw [List.filter_cons_of_pos keep, List.map_cons, List.map_cons, List.sum_cons, List.sum_cons]
      omega
    · rw [List.filter_cons_of_neg keep, List.map_cons, List.sum_cons]
      omega

theorem release_shaped (gone : List String) (shaped : Shaped store) :
    Shaped (release gone store) := by
  have sublist : (release gone store).sessions.Sublist store.sessions := List.filter_sublist
  refine ⟨shaped.keys.sublist (sublist.map _), shaped.ids.sublist (sublist.map _), ?_, ?_, ?_, ?_⟩
  · exact fun entry inside => shaped.known entry (sublist.subset inside)
  · exact Nat.le_trans sublist.length_le shaped.count
  · exact fun owner => Nat.le_trans (sum_filter_le _ _ _) (shaped.owners owner)
  · exact Nat.le_trans (sum_filter_le _ _ _) shaped.declared

theorem set_item_ids {token : String} {session : UploadSession}
    {sessions : List (String × UploadSession)}
    (distinct : (sessions.map fun entry => entry.2.id).Nodup)
    (fresh : session.id ∉ sessions.map fun entry => entry.2.id) :
    ((setItem token session sessions).map fun entry => entry.2.id).Nodup := by
  induction sessions with
  | nil => simp [setItem]
  | cons first sessions induction =>
    obtain ⟨key, old⟩ := first
    obtain ⟨absent, distinct⟩ := List.nodup_cons.mp distinct
    obtain ⟨differs, unseen⟩ := not_or.mp (fun member => fresh (List.mem_cons.mpr member))
    by_cases same : key = token
    · rw [setItem, if_pos same]
      exact List.nodup_cons.mpr ⟨unseen, distinct⟩
    · rw [setItem, if_neg same]
      refine List.nodup_cons.mpr ⟨fun member => ?_, induction distinct unseen⟩
      obtain ⟨entry, inside, equal⟩ := List.mem_map.mp member
      rcases mem_set_item inside with rfl | kept
      · exact differs equal
      · exact absent (List.mem_map.mpr ⟨entry, kept, equal⟩)

theorem create_shaped (shaped : Shaped store) (token : String) (session : UploadSession)
    (number : session.id = store.created) (room : store.sessions.length < 16)
    (owned : store.total (ownedBy session.owner) < 4)
    (sized : store.total UploadSession.size + session.size ≤ 32 * 1024 ^ 3) :
    Shaped ⟨setItem token session store.sessions, store.created + 1⟩ := by
  have grows := fun weight : UploadSession → Nat =>
    sum_set_item_le weight token session store.sessions
  have lengths : ∀ items : List (String × UploadSession),
      (items.map fun _ => 1).sum = items.length := by
    intro items
    simp
  refine ⟨set_item_distinct _ _ shaped.keys, set_item_ids shaped.ids ?_, ?_, ?_, ?_, ?_⟩
  · intro member
    obtain ⟨entry, inside, equal⟩ := List.mem_map.mp member
    have bound := shaped.known entry inside
    omega
  · intro entry inside
    rcases mem_set_item inside with rfl | kept
    · show session.id < store.created + 1
      omega
    · have bound := shaped.known entry kept
      show entry.2.id < store.created + 1
      omega
  · have bound := grows fun _ => 1
    rw [lengths, lengths] at bound
    show (setItem token session store.sessions).length ≤ 16
    omega
  · intro owner
    have bound := grows (ownedBy owner)
    have before := shaped.owners owner
    show ((setItem token session store.sessions).map fun entry => ownedBy owner entry.2).sum ≤ 4
    by_cases same : session.owner = owner
    · subst same
      have one : ownedBy session.owner session = 1 := if_pos rfl
      simp only [Store.total] at owned
      omega
    · have none : ownedBy owner session = 0 := if_neg same
      simp only [Store.total] at before
      omega
  · have bound := grows UploadSession.size
    show ((setItem token session store.sessions).map fun entry => entry.2.size).sum ≤ _
    simp only [Store.total] at sized
    omega

/-! ### The invariant of a run -/

def claimedOf (effects : List Effect) : List Nat :=
  effects.flatMap fun effect =>
    match effect with
    | .claimed ids => ids
    | _ => []

/-- The content of the session is as long as its offset, inside the declared size, and agrees
with every chunk that the session has accepted. -/
structure Intact (effects : List Effect) (session : UploadSession) : Prop where
  stored : session.offset ≤ session.file.length
  fits : session.file.length ≤ session.size
  agrees : ∀ offset data, .accepted session.id offset data ∈ effects →
    offset + data.length ≤ session.offset ∧ readAt session.content offset data.length = data

structure Sound (effects : List Effect) (store : Store) : Prop where
  shaped : Shaped store
  intact : ∀ entry ∈ store.sessions, Intact effects entry.2
  accepted : ∀ id offset data, .accepted id offset data ∈ effects → id < store.created
  claims : (claimedOf effects).Nodup
  claimed : ∀ id ∈ claimedOf effects, id < store.created
  unclaimed : ∀ entry ∈ store.sessions, entry.2.claimed = false → entry.2.id ∉ claimedOf effects

def Silent : Effect → Prop
  | .accepted _ _ _ | .claimed _ => False
  | .refused _ | .other => True

theorem silent_accepted (silent : Silent effect) {id : Nat} :
    .accepted id offset data ∈ effect :: effects ↔ .accepted id offset data ∈ effects := by
  cases effect <;> simp_all [Silent]

theorem silent_claims (silent : Silent effect) (effects : List Effect) :
    claimedOf (effect :: effects) = claimedOf effects := by
  cases effect <;> simp_all [Silent, claimedOf]

theorem sound_silent (silent : Silent effect) (sound : Sound effects store) :
    Sound (effect :: effects) store := by
  refine ⟨sound.shaped, ?_, ?_, ?_, ?_, ?_⟩
  · intro entry inside
    obtain ⟨stored, fits, agrees⟩ := sound.intact entry inside
    exact ⟨stored, fits, fun offset data member => agrees offset data ((silent_accepted silent).mp member)⟩
  · exact fun id offset data member => sound.accepted id offset data ((silent_accepted silent).mp member)
  · rw [silent_claims silent]
    exact sound.claims
  · rw [silent_claims silent]
    exact sound.claimed
  · rw [silent_claims silent]
    exact sound.unclaimed

theorem sound_release (gone : List String) (sound : Sound effects store) :
    Sound effects (release gone store) := by
  have subset : ∀ entry ∈ (release gone store).sessions, entry ∈ store.sessions :=
    fun entry inside => (List.mem_filter.mp inside).1
  exact ⟨release_shaped gone sound.shaped, fun entry inside => sound.intact entry (subset entry inside),
    sound.accepted, sound.claims, sound.claimed,
    fun entry inside => sound.unclaimed entry (subset entry inside)⟩

theorem sound_create (sound : Sound effects store) (token : String) (session : UploadSession)
    (number : session.id = store.created) (empty : session.file = [] ∧ session.offset = 0)
    (room : store.sessions.length < 16) (owned : store.total (ownedBy session.owner) < 4)
    (sized : store.total UploadSession.size + session.size ≤ 32 * 1024 ^ 3) :
    Sound effects ⟨setItem token session store.sessions, store.created + 1⟩ := by
  refine ⟨create_shaped sound.shaped token session number room owned sized, ?_, ?_, sound.claims,
    ?_, ?_⟩
  · intro entry inside
    rcases mem_set_item inside with rfl | kept
    · refine ⟨by rw [empty.1, empty.2]; exact Nat.le_refl 0, by rw [empty.1]; exact Nat.zero_le _, ?_⟩
      intro offset data member
      have bound := sound.accepted _ _ _ member
      simp only at bound
      omega
    · exact sound.intact entry kept
  · intro id offset data member
    have bound := sound.accepted id offset data member
    show id < store.created + 1
    omega
  · intro id member
    have bound := sound.claimed id member
    show id < store.created + 1
    omega
  · intro entry inside free
    rcases mem_set_item inside with rfl | kept
    · intro member
      have bound := sound.claimed _ member
      simp only at bound
      omega
    · exact sound.unclaimed entry kept free

/-! ### One chunk -/

/-- A session after a call on it: the same session with at least the same content. -/
structure Advances (before after : UploadSession) : Prop where
  id : after.id = before.id
  owner : after.owner = before.owner
  size : after.size = before.size
  claimed : after.claimed = before.claimed
  stored : after.offset ≤ after.file.length
  fits : after.file.length ≤ after.size
  content : before.content <+: after.content

def trimmed (session : UploadSession) : UploadSession := { session with file := session.content }

theorem content_length {session : UploadSession} (stored : session.offset ≤ session.file.length) :
    session.content.length = session.offset := by
  rw [UploadSession.content, List.length_take]
  omega

theorem write_chunk_failed {session after : UploadSession} {failure : Failure}
    (stored : session.offset ≤ session.file.length) (fits : session.file.length ≤ session.size)
    (room : offset + data.length ≤ session.size)
    (failed : writeChunk calls session offset data = (some failure, after)) :
    Advances session after ∧ trimmed after = trimmed session := by
  have same : after = session → Advances session after ∧ trimmed after = trimmed session := by
    rintro rfl
    exact ⟨⟨rfl, rfl, rfl, rfl, stored, fits, List.prefix_rfl⟩, rfl⟩
  simp only [writeChunk] at failed
  split_ifs at failed with early unseekable long unreadable differs current unseekable
  · exact same (Prod.mk.inj failed).2.symm
  · exact same (Prod.mk.inj failed).2.symm
  · exact same (Prod.mk.inj failed).2.symm
  · exact same (Prod.mk.inj failed).2.symm
  · cases (Prod.mk.inj failed).1
  · exact same (Prod.mk.inj failed).2.symm
  · cases outcome : calls.failedAfter with
    | none =>
      rw [outcome] at failed
      cases (Prod.mk.inj failed).1
    | some written =>
      rw [outcome] at failed
      obtain rfl := (Prod.mk.inj failed).2
      subst current
      have lengths := failed_write_length written calls.truncates stored fits room
      have content : (failedWrite session.file session.offset data written
          calls.truncates).take session.offset = session.content :=
        failed_write_before _ _ _ _ _ stored
      refine ⟨⟨rfl, rfl, rfl, rfl, lengths.1, lengths.2, ?_⟩, ?_⟩
      · rw [← content]
        exact List.prefix_rfl
      · simp only [trimmed, UploadSession.content] at content ⊢
        rw [content]
  · exact same (Prod.mk.inj failed).2.symm

theorem write_chunk_accepted {session after : UploadSession}
    (stored : session.offset ≤ session.file.length) (fits : session.file.length ≤ session.size)
    (room : offset + data.length ≤ session.size)
    (written : writeChunk calls session offset data = (none, after)) :
    Advances session after ∧ offset + data.length ≤ after.offset ∧
      readAt after.content offset data.length = data := by
  simp only [writeChunk] at written
  split_ifs at written with early unseekable long unreadable differs current unseekable
  · cases (Prod.mk.inj written).1
  · cases (Prod.mk.inj written).1
  · cases (Prod.mk.inj written).1
  · cases (Prod.mk.inj written).1
  · -- A retry that the stored bytes agree with.
    obtain rfl := (Prod.mk.inj written).2
    have inside : offset + data.length ≤ session.offset := by omega
    refine ⟨⟨rfl, rfl, rfl, rfl, stored, fits, List.prefix_rfl⟩, inside, ?_⟩
    rw [UploadSession.content, read_at_take inside]
    exact not_not.mp differs
  · cases (Prod.mk.inj written).1
  · cases outcome : calls.failedAfter with
    | some count =>
      rw [outcome] at written
      cases (Prod.mk.inj written).1
    | none =>
      rw [outcome] at written
      obtain rfl := (Prod.mk.inj written).2
      subst current
      have content := write_at_content session.file session.offset data stored
      have length := write_at_length session.file session.offset data stored
      have start : session.content.length = session.offset := content_length stored
      refine ⟨⟨rfl, rfl, rfl, rfl, ?_, ?_, ?_⟩, Nat.le_refl _, ?_⟩
      · show session.offset + data.length ≤ (writeAt session.file session.offset data).length
        omega
      · show (writeAt session.file session.offset data).length ≤ session.size
        omega
      · show session.content <+: (writeAt session.file session.offset data).take _
        rw [content]
        exact List.prefix_append _ _
      · show readAt ((writeAt session.file session.offset data).take _) session.offset
          data.length = data
        rw [content]
        have last := read_at_end session.content data
        rwa [start] at last
  · cases (Prod.mk.inj written).1

/-! ### Calls on one session -/

theorem get_ok {key : String} {session : UploadSession}
    (found : get now store key owner = .ok session) :
    getItem key store.sessions = some session ∧ session.claimed = false ∧ session.owner = owner ∧
      now < session.expires := by
  unfold UploadStore.get at found
  split at found
  · cases found
  · rename_i held present
    split_ifs at found with refused
    obtain rfl := Except.ok.inj found
    obtain ⟨free, rest⟩ := not_or.mp refused
    obtain ⟨owned, live⟩ := not_or.mp rest
    exact ⟨present, by simpa using free, not_not.mp owned, by omega⟩

def replaceAt (key : String) (after : UploadSession) (other : String) (session : UploadSession) :
    UploadSession :=
  if other = key then after else session

theorem set_session (shaped : Shaped store) {key : String} {session after : UploadSession}
    (found : getItem key store.sessions = some session) :
    { store with sessions := setItem key after store.sessions } =
      alter (replaceAt key after) store := by
  have sessions := set_item_map shaped.keys (fun _ => after) found
  simp only [alter, replaceAt]
  rw [sessions]

theorem session_at (shaped : Shaped store) {key : String} {session : UploadSession}
    (found : getItem key store.sessions = some session) {entry : String × UploadSession}
    (inside : entry ∈ store.sessions) (same : entry.1 = key) : entry.2 = session := by
  have other : getItem key store.sessions = some entry.2 :=
    (get_item_iff shaped.keys).mpr (same ▸ inside)
  exact Option.some.inj (other.symm.trans found)

theorem sound_advance (sound : Sound effects store) {key : String} {session after : UploadSession}
    (found : getItem key store.sessions = some session) (advances : Advances session after)
    (effectful : Silent effect ∨ ∃ offset data, effect = .accepted session.id offset data ∧ offset +
      data.length ≤ after.offset ∧ readAt after.content offset data.length = data) :
    Sound (effect :: effects) { store with sessions := setItem key after store.sessions } := by
  have inside := mem_of_get_item found
  have keeps : Keeps (replaceAt key after) store := by
    intro entry member
    by_cases same : entry.1 = key
    · have held := session_at sound.shaped found member same
      rw [replaceAt, if_pos same, held]
      exact ⟨advances.id, advances.owner, advances.size⟩
    · rw [replaceAt, if_neg same]
      exact ⟨rfl, rfl, rfl⟩
  have claims : claimedOf (effect :: effects) = claimedOf effects := by
    rcases effectful with silent | ⟨offset, data, rfl, -⟩
    · exact silent_claims silent effects
    · rfl
  -- Another session has another number, so the new chunk is none of its chunks.
  have members : ∀ entry ∈ setItem key after store.sessions, entry = (key, after) ∨
      (entry ∈ store.sessions ∧ entry.2.id ≠ session.id) := by
    intro entry member
    rcases mem_set_item member with new | kept
    · exact .inl new
    · by_cases number : entry.2.id = session.id
      · have same : entry = (key, session) :=
          List.inj_on_of_nodup_map sound.shaped.ids kept inside number
        have keys := set_item_distinct key after sound.shaped.keys
        have value : getItem key (setItem key after store.sessions) = some entry.2 :=
          (get_item_iff keys).mpr (by rw [same] at member ⊢; exact member)
        rw [get_item_set_item, if_pos rfl] at value
        refine .inl ?_
        rw [same] at value ⊢
        exact congrArg (Prod.mk key) (Option.some.inj value).symm
      · exact .inr ⟨kept, number⟩
  have shaped := alter_shaped keeps sound.shaped
  rw [← set_session sound.shaped found] at shaped
  refine ⟨shaped, ?_, ?_, ?_, ?_, ?_⟩
  · intro entry member
    rcases members entry member with rfl | ⟨kept, different⟩
    · refine ⟨advances.stored, advances.fits, fun offset data chunk => ?_⟩
      have old : .accepted session.id offset data ∈ effects →
          offset + data.length ≤ after.offset ∧ readAt after.content offset data.length = data := by
        intro before
        have intact := sound.intact _ inside
        obtain ⟨bound, agrees⟩ := intact.agrees offset data before
        have short : session.content.length = session.offset := content_length intact.stored
        have long : after.content.length = after.offset := content_length advances.stored
        obtain ⟨rest, whole⟩ := advances.content
        have grown : session.offset ≤ after.offset := by
          rw [← short, ← long, ← whole, List.length_append]
          exact Nat.le_add_right _ _
        refine ⟨Nat.le_trans bound grown, ?_⟩
        rw [← whole, read_at_append (by rw [short]; exact bound)]
        exact agrees
      have chunk : .accepted session.id offset data ∈ effect :: effects := advances.id ▸ chunk
      rcases effectful with silent | ⟨start, bytes, rfl, bound, agrees⟩
      · exact old ((silent_accepted silent).mp chunk)
      · rcases List.mem_cons.mp chunk with new | before
        · obtain ⟨-, rfl, rfl⟩ := Effect.accepted.inj new
          exact ⟨bound, agrees⟩
        · exact old before
    · obtain ⟨stored, fits, agrees⟩ := sound.intact entry kept
      refine ⟨stored, fits, fun offset data chunk => agrees offset data ?_⟩
      rcases effectful with silent | ⟨start, bytes, rfl, -⟩
      · exact (silent_accepted silent).mp chunk
      · rcases List.mem_cons.mp chunk with new | before
        · exact absurd (Effect.accepted.inj new).1 different
        · exact before
  · intro id offset data chunk
    rcases effectful with silent | ⟨start, bytes, rfl, -⟩
    · exact sound.accepted id offset data ((silent_accepted silent).mp chunk)
    · rcases List.mem_cons.mp chunk with new | before
      · rw [(Effect.accepted.inj new).1]
        exact sound.shaped.known _ inside
      · exact sound.accepted id offset data before
  · rw [claims]
    exact sound.claims
  · rw [claims]
    exact sound.claimed
  · rw [claims]
    intro entry member free
    rcases members entry member with rfl | ⟨kept, -⟩
    · show after.id ∉ _
      rw [advances.id]
      exact sound.unclaimed _ inside (advances.claimed ▸ free)
    · exact sound.unclaimed entry kept free

/-! ### Claims -/

def claimedSession (session : UploadSession) : UploadSession := { session with claimed := true }

theorem mark_claimed_map {sessions : List (String × UploadSession)}
    (distinct : (sessions.map Prod.fst).Nodup) (key : String) :
    markClaimed sessions key = sessions.map fun entry =>
      (entry.1, if entry.1 = key then claimedSession entry.2 else entry.2) := by
  unfold markClaimed
  split
  · rename_i session found
    exact set_item_map distinct claimedSession found
  · rename_i missing
    refine ((List.map_congr_left fun entry inside => ?_).trans (List.map_id sessions)).symm
    have differs : entry.1 ≠ key := by
      rintro rfl
      rw [(get_item_iff distinct).mpr inside] at missing
      cases missing
    rw [if_neg differs]
    rfl

theorem fold_mark_claimed {sessions : List (String × UploadSession)}
    (distinct : (sessions.map Prod.fst).Nodup) (keys : List String) :
    keys.foldl markClaimed sessions = sessions.map fun entry =>
      (entry.1, if entry.1 ∈ keys then claimedSession entry.2 else entry.2) := by
  induction keys generalizing sessions with
  | nil => simp
  | cons key keys induction =>
    have kept : ((markClaimed sessions key).map Prod.fst).Nodup := by
      rw [mark_claimed_map distinct, List.map_map]
      exact distinct
    rw [List.foldl_cons, induction kept, mark_claimed_map distinct, List.map_map]
    refine List.map_congr_left fun entry _ => ?_
    by_cases first : entry.1 = key
    · by_cases again : entry.1 ∈ keys
      · simp [first, claimedSession]
      · simp [first, claimedSession]
    · simp [first]

theorem get_all_ok (found : getAll now store owner keys = .ok sessions) :
    List.Forall₂ (fun key session => UploadStore.get now store key owner = .ok session) keys
      sessions := by
  unfold getAll at found
  induction keys generalizing sessions with
  | nil =>
    obtain rfl := Except.ok.inj found
    exact .nil
  | cons key keys induction =>
    rw [List.mapM_cons] at found
    obtain ⟨session, first, found⟩ := bind_ok_iff.mp found
    obtain ⟨rest, others, found⟩ := bind_ok_iff.mp found
    obtain rfl := Except.ok.inj found
    exact .cons first (induction others)

theorem related_left {First Second : Type} {relation : First → Second → Prop} {left : List First}
    {right : List Second} (related : List.Forall₂ relation left right) {second : Second}
    (inside : second ∈ right) : ∃ first ∈ left, relation first second := by
  induction related with
  | nil => cases inside
  | cons holds _ induction =>
    rcases List.mem_cons.mp inside with rfl | later
    · exact ⟨_, List.mem_cons_self, holds⟩
    · obtain ⟨first, member, holds⟩ := induction later
      exact ⟨first, List.mem_cons_of_mem _ member, holds⟩

theorem forall_related {First Second : Type} {relation stronger : First → Second → Prop}
    {left : List First} {right : List Second} (related : List.Forall₂ relation left right)
    (each : ∀ first ∈ left, ∀ second ∈ right, relation first second → stronger first second) :
    List.Forall₂ stronger left right := by
  induction related with
  | nil => exact .nil
  | cons holds _ induction =>
    refine .cons (each _ List.mem_cons_self _ List.mem_cons_self holds) (induction ?_)
    intro first listed second inside
    exact each first (List.mem_cons_of_mem _ listed) second (List.mem_cons_of_mem _ inside)

theorem claimed_ids_distinct (shaped : Shaped store) (distinct : keys.Nodup)
    (found : List.Forall₂ (fun key session => UploadStore.get now store key owner = .ok session)
      keys sessions) : (sessions.map UploadSession.id).Nodup := by
  induction found with
  | nil => exact List.nodup_nil
  | @cons key session keys sessions first others induction =>
    obtain ⟨fresh, distinct⟩ := List.nodup_cons.mp distinct
    refine List.nodup_cons.mpr ⟨fun member => fresh ?_, induction distinct⟩
    obtain ⟨other, inside, number⟩ := List.mem_map.mp member
    obtain ⟨otherKey, listed, again⟩ := related_left others inside
    have ours := mem_of_get_item (get_ok first).1
    have theirs := mem_of_get_item (get_ok again).1
    have same := List.inj_on_of_nodup_map shaped.ids theirs ours number
    obtain ⟨rfl, -⟩ := Prod.mk.inj same
    exact listed

theorem claim_ok {target : String} {after : Store}
    (claims : claim now keys owner target store = (.ok sessions, after)) :
    keys.Nodup ∧
      List.Forall₂ (fun key session => UploadStore.get now store key owner = .ok session) keys
        sessions ∧
      (∀ session ∈ sessions, session.target = target ∧ session.offset = session.size) ∧
      after = { store with sessions := keys.foldl markClaimed store.sessions } := by
  unfold claim at claims
  split_ifs at claims with distinct
  · split at claims
    · cases (Prod.mk.inj claims).1
    · rename_i held found
      split_ifs at claims with incomplete
      · cases (Prod.mk.inj claims).1
      · obtain ⟨same, rfl⟩ := Prod.mk.inj claims
        obtain rfl := Except.ok.inj same
        refine ⟨distinct, get_all_ok found, fun session inside => ?_, rfl⟩
        have passes := fun bad => incomplete (List.any_eq_true.mpr ⟨session, inside, bad⟩)
        simpa [not_or] using passes
  · cases (Prod.mk.inj claims).1

theorem claim_refused {target : String} {after : Store} {failure : Failure}
    (claims : claim now keys owner target store = (.error failure, after)) : after = store := by
  unfold claim at claims
  split_ifs at claims
  · split at claims
    · exact (Prod.mk.inj claims).2.symm
    · split_ifs at claims
      · exact (Prod.mk.inj claims).2.symm
      · cases (Prod.mk.inj claims).1
  · exact (Prod.mk.inj claims).2.symm

theorem sound_claim {after : Store} (sound : Sound effects store) {target : String}
    (claims : claim now keys owner target store = (.ok sessions, after)) :
    Sound (.claimed (sessions.map UploadSession.id) :: effects) after := by
  obtain ⟨distinct, found, -, rfl⟩ := claim_ok claims
  have altered : { store with sessions := keys.foldl markClaimed store.sessions } =
      alter (fun key session => if key ∈ keys then claimedSession session else session) store := by
    rw [fold_mark_claimed sound.shaped.keys]
    rfl
  rw [altered]
  have keeps : Keeps (fun key session => if key ∈ keys then claimedSession session else session)
      store := by
    intro entry inside
    simp only
    split_ifs
    · exact ⟨rfl, rfl, rfl⟩
    · exact ⟨rfl, rfl, rfl⟩
  have chunks : ∀ id offset data, .accepted id offset data ∈
      .claimed (sessions.map UploadSession.id) :: effects ↔ .accepted id offset data ∈ effects := by
    intro id offset data
    simp
  have free : ∀ session ∈ sessions, session.id ∉ claimedOf effects ∧
      ∃ key ∈ keys, (key, session) ∈ store.sessions := by
    intro session inside
    obtain ⟨key, listed, available⟩ := related_left found inside
    obtain ⟨present, unclaimed, -, -⟩ := get_ok available
    have member := mem_of_get_item present
    exact ⟨sound.unclaimed _ member unclaimed, key, listed, member⟩
  have all : claimedOf (.claimed (sessions.map UploadSession.id) :: effects) =
      sessions.map UploadSession.id ++ claimedOf effects := rfl
  refine ⟨alter_shaped keeps sound.shaped, ?_, ?_, ?_, ?_, ?_⟩
  · intro entry inside
    obtain ⟨before, member, rfl⟩ := List.mem_map.mp inside
    obtain ⟨stored, fits, agrees⟩ := sound.intact before member
    simp only
    split_ifs
    · exact ⟨stored, fits, fun offset data chunk => agrees offset data ((chunks _ _ _).mp chunk)⟩
    · exact ⟨stored, fits, fun offset data chunk => agrees offset data ((chunks _ _ _).mp chunk)⟩
  · exact fun id offset data chunk => sound.accepted id offset data ((chunks _ _ _).mp chunk)
  · rw [all]
    refine List.nodup_append.mpr ⟨claimed_ids_distinct sound.shaped distinct found, sound.claims, ?_⟩
    intro id ours other theirs same
    obtain ⟨session, inside, rfl⟩ := List.mem_map.mp ours
    exact (free session inside).1 (same ▸ theirs)
  · rw [all]
    intro id member
    rcases List.mem_append.mp member with ours | before
    · obtain ⟨session, inside, rfl⟩ := List.mem_map.mp ours
      obtain ⟨-, key, -, present⟩ := free session inside
      exact sound.shaped.known _ present
    · exact sound.claimed id before
  · rw [all]
    intro entry inside unclaimed
    obtain ⟨before, member, rfl⟩ := List.mem_map.mp inside
    simp only at unclaimed ⊢
    split_ifs at unclaimed ⊢ with requested
    · cases unclaimed
    · intro again
      rcases List.mem_append.mp again with ours | earlier
      · obtain ⟨session, listed, number⟩ := List.mem_map.mp ours
        obtain ⟨-, key, asked, present⟩ := free session listed
        have same := List.inj_on_of_nodup_map sound.shaped.ids present member number
        exact requested (congrArg Prod.fst same ▸ asked)
      · exact sound.unclaimed before member unclaimed earlier

/-! ### Appends -/

theorem append_cases {hexdigest : Bytes → String} {later : Int} {key digest : String} {offset : Int}
    {after : Store} {result : Except Failure Nat} (fitting : ∀ entry ∈ store.sessions,
      entry.2.offset ≤ entry.2.file.length ∧ entry.2.file.length ≤ entry.2.size)
    (appended : append hexdigest now later calls key owner offset data digest store = (result,
      after)) :
    (∃ failure, result = .error failure ∧ after = store) ∨
    ∃ session advanced, getItem key store.sessions = some session ∧ Advances session advanced ∧
      after = { store with sessions := setItem key advanced store.sessions } ∧
      ((∃ failure, result = .error failure ∧ trimmed advanced = trimmed session) ∨
        (result = .ok advanced.offset ∧ offset.toNat + data.length ≤ advanced.offset ∧
          readAt advanced.content offset.toNat data.length = data)) := by
  unfold append at appended
  split at appended
  · rename_i failure refused
    obtain ⟨rfl, rfl⟩ := Prod.mk.inj appended
    exact .inl ⟨failure, rfl, rfl⟩
  · rename_i session available
    obtain ⟨found, -, -, -⟩ := get_ok available
    obtain ⟨stored, fits⟩ := fitting _ (mem_of_get_item found)
    split_ifs at appended with invalid outside
    · obtain ⟨rfl, rfl⟩ := Prod.mk.inj appended
      exact .inl ⟨_, rfl, rfl⟩
    · obtain ⟨rfl, rfl⟩ := Prod.mk.inj appended
      exact .inl ⟨_, rfl, rfl⟩
    · have room : offset.toNat + data.length ≤ session.size := by omega
      refine .inr ?_
      split at appended
      · rename_i failure advanced failed
        obtain ⟨rfl, rfl⟩ := Prod.mk.inj appended
        obtain ⟨advances, same⟩ := write_chunk_failed stored fits room failed
        exact ⟨session, advanced, found, advances, rfl, .inl ⟨failure, rfl, same⟩⟩
      · rename_i advanced written
        obtain ⟨rfl, rfl⟩ := Prod.mk.inj appended
        obtain ⟨advances, bound, agrees⟩ := write_chunk_accepted stored fits room written
        have renewed : Advances session { advanced with expires := later + sessionSeconds } :=
          ⟨advances.id, advances.owner, advances.size, advances.claimed, advances.stored,
            advances.fits, advances.content⟩
        exact ⟨session, _, found, renewed, rfl, .inr ⟨rfl, bound, agrees⟩⟩

/-! ### Runs -/

theorem sound_fitting (sound : Sound effects store) :
    ∀ entry ∈ store.sessions, entry.2.offset ≤ entry.2.file.length ∧
      entry.2.file.length ≤ entry.2.size :=
  fun entry inside => ⟨(sound.intact entry inside).stored, (sound.intact entry inside).fits⟩

theorem sound_perform (hexdigest : Bytes → String) (sound : Sound effects store) (call : Call) :
    Sound ((perform hexdigest store call).1 :: effects) (perform hexdigest store call).2 := by
  cases call with
  | create now volume token owner target field filename size =>
    simp only [perform, create]
    split_ifs with busy
    · exact sound_silent trivial sound
    · obtain ⟨room, rest⟩ := not_or.mp busy
      obtain ⟨owned, sized⟩ := not_or.mp rest
      have empty : ∀ file, stage volume (store.total UploadSession.size) size = .ok file →
          file = [] := by
        intro file staged
        unfold stage at staged
        split_ifs at staged
        · exact (Except.ok.inj staged).symm
        · exact (Except.ok.inj staged).symm
      cases staged : stage volume (store.total UploadSession.size) size with
      | error failure => exact sound_silent trivial sound
      | ok file =>
        obtain rfl := empty file staged
        exact sound_silent trivial (sound_create sound token _ rfl ⟨rfl, rfl⟩ (by omega)
          (by simpa using owned) (by simpa using sized))
  | append now later calls key owner offset data digest =>
    simp only [perform]
    obtain ⟨⟨result, after⟩, appended⟩ : ∃ done, append hexdigest now later calls key owner offset
      data digest store = done := ⟨_, rfl⟩
    rw [appended]
    rcases append_cases (sound_fitting sound) appended with ⟨failure, rfl, rfl⟩ |
      ⟨session, advanced, found, advances, rfl, ⟨failure, rfl, -⟩ | ⟨rfl, bound, agrees⟩⟩
    · exact sound_silent trivial sound
    · exact sound_advance sound found advances (.inl trivial)
    · simp only [found]
      exact sound_advance sound found advances (.inr ⟨_, _, rfl, bound, agrees⟩)
  | claim now keys owner target =>
    simp only [perform]
    obtain ⟨⟨result, after⟩, claims⟩ : ∃ done, claim now keys owner target store = done := ⟨_, rfl⟩
    rw [claims]
    cases result with
    | error failure =>
      obtain rfl := claim_refused claims
      exact sound_silent trivial sound
    | ok sessions => exact sound_claim sound claims
  | release keys => exact sound_silent trivial (sound_release keys sound)
  | cancel now key owner =>
    simp only [perform, cancel]
    cases UploadStore.get now store key owner with
    | error failure => exact sound_silent trivial sound
    | ok session => exact sound_silent trivial (sound_release [key] sound)
  | sweep now => exact sound_silent trivial (sound_release _ sound)
  | close => exact sound_silent trivial (sound_release _ sound)

theorem sound_empty : Sound [] Store.empty := by
  refine ⟨⟨List.nodup_nil, List.nodup_nil, ?_, ?_, ?_, ?_⟩, ?_, ?_, List.nodup_nil, ?_, ?_⟩ <;>
    simp [Store.empty, Store.total, claimedOf]

theorem sound_run (hexdigest : Bytes → String) (calls : List Call) :
    Sound (run hexdigest calls).1 (run hexdigest calls).2 := by
  have runs : ∀ (calls : List Call) (state : List Effect × Store), Sound state.1 state.2 →
      Sound (calls.foldl (fun state call =>
        let done := perform hexdigest state.2 call
        (done.1 :: state.1, done.2)) state).1 (calls.foldl (fun state call =>
        let done := perform hexdigest state.2 call
        (done.1 :: state.1, done.2)) state).2 := by
    intro calls
    induction calls with
    | nil => exact fun _ sound => sound
    | cons call calls induction =>
      exact fun state sound => induction _ (sound_perform hexdigest sound call)
  exact runs calls ([], Store.empty) sound_empty

/-! ### What a call may do -/

def view (store : Store) (key : String) : Option UploadSession :=
  (getItem key store.sessions).map trimmed

/-- A session that a claim may take: it is complete, and its file is its content. -/
structure Claimable (now : Int) (owner target : String) (session : UploadSession) : Prop where
  owner : session.owner = owner
  target : session.target = target
  live : now < session.expires
  unclaimed : session.claimed = false
  complete : session.offset = session.size
  exact : session.file = session.content

/-- A refused call changes no session. A claim takes the sessions of all its keys. -/
structure CallRules (hexdigest : Bytes → String) (store : Store) (call : Call) : Prop where
  refused : ∀ failure after, perform hexdigest store call = (.refused failure, after) →
    view after = view store
  claims : ∀ ids after, perform hexdigest store call = (.claimed ids, after) →
    ∃ now keys owner target, call = .claim now keys owner target ∧
      (∃ sessions : List UploadSession, ids = sessions.map UploadSession.id ∧
        List.Forall₂ (fun key session => getItem key store.sessions = some session ∧
          Claimable now owner target session ∧
          getItem key after.sessions = some (claimedSession session)) keys sessions) ∧
      ∀ key, key ∉ keys → getItem key after.sessions = getItem key store.sessions

theorem set_trimmed {key : String} {session advanced : UploadSession}
    (found : getItem key store.sessions = some session)
    (same : trimmed advanced = trimmed session) :
    view { store with sessions := setItem key advanced store.sessions } = view store := by
  funext other
  simp only [view, get_item_set_item]
  by_cases here : other = key
  · rw [if_pos here, here, found, Option.map_some, Option.map_some, same]
  · rw [if_neg here]

theorem get_item_alter (change : String → UploadSession → UploadSession) (key : String)
    (sessions : List (String × UploadSession)) :
    getItem key (sessions.map fun entry => (entry.1, change entry.1 entry.2)) =
      (getItem key sessions).map (change key) := by
  induction sessions with
  | nil => rfl
  | cons first sessions induction =>
    rw [List.map_cons]
    by_cases same : first.1 = key
    · simp [getItem, same]
    · simp only [getItem, if_neg same]
      exact induction

theorem call_rules (hexdigest : Bytes → String) (sound : Sound effects store) (call : Call) :
    CallRules hexdigest store call := by
  refine ⟨?_, ?_⟩
  · intro failure after done
    cases call with
    | create now volume token owner target field filename size =>
      simp only [perform, create] at done
      split_ifs at done
      · rw [(Prod.mk.inj done).2]
      · cases staged : stage volume (store.total UploadSession.size) size with
        | error _ =>
          rw [staged] at done
          rw [(Prod.mk.inj done).2]
        | ok file =>
          rw [staged] at done
          cases (Prod.mk.inj done).1
    | append now later calls key owner offset data digest =>
      simp only [perform] at done
      obtain ⟨⟨result, ended⟩, appended⟩ : ∃ pair, append hexdigest now later calls key owner
        offset data digest store = pair := ⟨_, rfl⟩
      rw [appended] at done
      rcases append_cases (sound_fitting sound) appended with ⟨_, rfl, rfl⟩ |
        ⟨session, advanced, found, -, rfl, ⟨_, rfl, same⟩ | ⟨rfl, -, -⟩⟩
      · rw [← (Prod.mk.inj done).2]
      · rw [← (Prod.mk.inj done).2]
        exact set_trimmed found same
      · simp only [found] at done
        cases (Prod.mk.inj done).1
    | claim now keys owner target =>
      simp only [perform] at done
      obtain ⟨⟨result, ended⟩, claims⟩ : ∃ pair, claim now keys owner target store = pair :=
        ⟨_, rfl⟩
      rw [claims] at done
      cases result with
      | error _ => rw [← (Prod.mk.inj done).2, claim_refused claims]
      | ok sessions => cases (Prod.mk.inj done).1
    | release keys => cases (Prod.mk.inj done).1
    | cancel now key owner =>
      simp only [perform, cancel] at done
      cases available : UploadStore.get now store key owner with
      | error _ =>
        rw [available] at done
        rw [← (Prod.mk.inj done).2]
      | ok session =>
        rw [available] at done
        cases (Prod.mk.inj done).1
    | sweep now => cases (Prod.mk.inj done).1
    | close => cases (Prod.mk.inj done).1
  · intro ids after done
    cases call with
    | create now volume token owner target field filename size =>
      simp only [perform] at done
      split at done <;> cases (Prod.mk.inj done).1
    | append now later calls key owner offset data digest =>
      simp only [perform] at done
      split at done
      · have effect := (Prod.mk.inj done).1
        split at effect <;> cases effect
      · cases (Prod.mk.inj done).1
    | claim now keys owner target =>
      simp only [perform] at done
      obtain ⟨⟨result, ended⟩, claims⟩ : ∃ pair, claim now keys owner target store = pair :=
        ⟨_, rfl⟩
      rw [claims] at done
      cases result with
      | error _ => cases (Prod.mk.inj done).1
      | ok sessions =>
        obtain ⟨effect, rfl⟩ := Prod.mk.inj done
        obtain rfl := Effect.claimed.inj effect
        obtain ⟨-, found, whole, rfl⟩ := claim_ok claims
        have looked : ∀ key, getItem key (keys.foldl markClaimed store.sessions) =
            (getItem key store.sessions).map fun session =>
              if key ∈ keys then claimedSession session else session := by
          intro key
          rw [fold_mark_claimed sound.shaped.keys]
          exact get_item_alter
            (fun key session => if key ∈ keys then claimedSession session else session) key _
        refine ⟨now, keys, owner, target, rfl, ⟨sessions, rfl, ?_⟩, fun key outside => ?_⟩
        · have each : ∀ key ∈ keys, ∀ session ∈ sessions,
              UploadStore.get now store key owner = .ok session →
                getItem key store.sessions = some session ∧
                  Claimable now owner target session ∧
                  getItem key (keys.foldl markClaimed store.sessions) =
                    some (claimedSession session) := by
            intro key listed session inside available
            obtain ⟨present, unclaimed, owned, live⟩ := get_ok available
            obtain ⟨bound, complete⟩ := whole session inside
            have intact := sound.intact _ (mem_of_get_item present)
            have full : session.file = session.content := by
              rw [UploadSession.content, List.take_of_length_le]
              rw [complete]
              exact intact.fits
            refine ⟨present, ⟨owned, bound, live, unclaimed, complete, full⟩, ?_⟩
            rw [looked, present, Option.map_some, if_pos listed]
          exact forall_related found each
        · show getItem key (keys.foldl markClaimed store.sessions) = _
          rw [looked]
          simp [outside]
    | release keys => cases (Prod.mk.inj done).1
    | cancel now key owner =>
      simp only [perform] at done
      split at done <;> cases (Prod.mk.inj done).1
    | sweep now => cases (Prod.mk.inj done).1
    | close => cases (Prod.mk.inj done).1

/-- In every state of every run the content of a session is as long as its offset and agrees
with all its accepted chunks, no session has been claimed twice, the limits hold, and every
further call keeps to the rules. -/
theorem chunked_uploads_reassemble (hexdigest : Bytes → String) (calls : List Call) :
    (∀ key session, getItem key (run hexdigest calls).2.sessions = some session →
      session.content.length = session.offset ∧ session.offset ≤ session.size ∧
        Intact (run hexdigest calls).1 session) ∧
    (claimedOf (run hexdigest calls).1).Nodup ∧
    ((run hexdigest calls).2.sessions.length ≤ 16 ∧
      (∀ owner, (run hexdigest calls).2.total (ownedBy owner) ≤ 4) ∧
      (run hexdigest calls).2.total UploadSession.size ≤ 32 * 1024 ^ 3) ∧
    ∀ call, CallRules hexdigest (run hexdigest calls).2 call := by
  have sound := sound_run hexdigest calls
  refine ⟨fun key session found => ?_, sound.claims,
    ⟨sound.shaped.count, sound.shaped.owners, sound.shaped.declared⟩, call_rules hexdigest sound⟩
  have intact := sound.intact _ (mem_of_get_item found)
  exact ⟨content_length intact.stored, Nat.le_trans intact.stored intact.fits, intact⟩

end Atlaso.Uploads.Reassembly
