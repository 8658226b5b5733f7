import Atlaso.Library.RelyGuarantee
import Atlaso.Logs.BatchReceipts

/-!
The replay of one sealed generation, from any point an earlier run was stopped at.

Between any two durable steps each file is captured up to its offset, with the batch behind
it not begun, written down, or appended and not acknowledged. A file whose lines the store
takes is captured to its end; one odd line stops every run at the same batch.
-/

namespace Atlaso.Logs.CaptureReplay

open Library Dictionary FilePrograms PhysicalLines RelyGuarantee
open ProducerStore CaptureRuns StoreIntegrity RunIntegrity SafeLines NginxCapture CaptureBatches
open BatchReceipts

/-! ### How far a file is captured -/

inductive Captured (content : List UInt8) : Nat → List Content → Prop where
  | start : Captured content 0 []
  | next (offset : Nat) (contents : List Content) (lines : List (List UInt8))
      (before : Captured content offset contents) (more : offset < content.length)
      (cuts : Cuts (content.drop offset) (readBatch (content.drop offset)) lines)
      (acceptable : ∀ line ∈ lines, Acceptable line) :
      Captured content (offset + (readBatch (content.drop offset)).size)
        (contents ++ [batchContent (content.drop offset) (readBatch (content.drop offset))])

variable {contents : List Content}

theorem captured_transcribes {content : List UInt8} {offset : Nat}
    (captured : Captured content offset contents) :
    ∃ done, physicalLines content = done ++ physicalLines (content.drop offset) ∧
      Transcribes done contents ∧ (∀ line ∈ done, Acceptable line) ∧ offset ≤ content.length := by
  induction captured with
  | start => exact ⟨[], by simp, .none, by simp, by omega⟩
  | next offset contents lines before more cuts acceptable induction =>
    obtain ⟨done, split, transcribes, fine, within⟩ := induction
    have further := cuts.split
    rw [List.drop_drop] at further
    refine ⟨done ++ lines, ?_, ?_, ?_, ?_⟩
    · rw [split, further, List.append_assoc]
    · rcases cuts.content with ⟨size, batch, nonempty, room, short, bytes⟩ |
        ⟨line, size, batch, rfl, taken, long, newline⟩
      · rw [batch]
        exact .lines done lines contents transcribes nonempty short
      · rw [batch, batchContent, taken]
        exact .record done line contents transcribes long
    · intro line inside
      rcases List.mem_append.mp inside with early | late
      · exact fine line early
      · exact acceptable line late
    · have whole := congrArg (fun lines => (List.flatten lines).length) cuts.split
      simp only [physical_lines_flatten, List.flatten_append, List.length_append,
        List.length_drop, cuts.size] at whole
      omega

theorem captured_whole {content : List UInt8}
    (captured : Captured content content.length contents) :
    Capturable content ∧ Transcribes (physicalLines content) contents := by
  obtain ⟨done, split, transcribes, fine, -⟩ := captured_transcribes captured
  rw [List.drop_length] at split
  have same : physicalLines content = done := by simpa [physicalLines] using split
  exact ⟨by rw [Capturable, same]; exact fine, by rw [same]; exact transcribes⟩

theorem batch_acceptable {content : List UInt8} {offset : Nat} {lines : List (List UInt8)}
    {batch : FileBatch} (captured : Captured content offset contents)
    (cuts : Cuts (content.drop offset) batch lines) (capturable : Capturable content) :
    ∀ line ∈ lines, Acceptable line := by
  obtain ⟨done, split, -, -, -⟩ := captured_transcribes captured
  intro line inside
  apply capturable line
  rw [split, cuts.split]
  exact List.mem_append_right done (List.mem_append_left _ inside)

/-- The entry of a file against what its source has accepted. -/
inductive Progress (content : List UInt8) (earlier : List Content) :
    Entry → List Content → Prop where
  | settled (offset : Nat) (contents : List Content) (captured : Captured content offset contents) :
      Progress content earlier ⟨offset, none⟩ (earlier ++ contents)
  | marked (offset : Nat) (contents : List Content) (captured : Captured content offset contents)
      (more : offset < content.length) :
      Progress content earlier ⟨offset, some ⟨offset,
        offset + (readBatch (content.drop offset)).size,
        ((earlier ++ contents).length : Int) + 1⟩⟩ (earlier ++ contents)
  | stored (offset : Nat) (contents : List Content) (lines : List (List UInt8))
      (captured : Captured content offset contents) (more : offset < content.length)
      (cuts : Cuts (content.drop offset) (readBatch (content.drop offset)) lines)
      (acceptable : ∀ line ∈ lines, Acceptable line) :
      Progress content earlier ⟨offset, some ⟨offset,
        offset + (readBatch (content.drop offset)).size,
        ((earlier ++ contents).length : Int) + 1⟩⟩
        (earlier ++ (contents ++
          [batchContent (content.drop offset) (readBatch (content.drop offset))]))

/-! ### The disk during a replay -/

structure Replay where
  directory : Nat
  manifest : Manifest
  retained : PerLog Identity
  contents : PerLog (List UInt8)
  storeGeneration : String
  legacy : PerLog (List (String × Nat))
  earlier : PerLog (List Content)

namespace Replay

def content (replay : Replay) (name : LogName) : List UInt8 := replay.contents.get name

end Replay

/-- What one step of the replay of a directory leaves alone. -/
structure Beside (directory : Nat) (before after : Disk) : Prop where
  inodes : after.inodes = before.inodes
  logs : after.logs = before.logs
  archives : after.archives = before.archives
  state : after.state = before.state
  writers : after.writers = before.writers
  generations : ∀ other, other ≠ directory →
    getItem other after.generations = getItem other before.generations
  own : (getItem directory after.generations).map (fun own => (own.manifest, own.retained)) =
    (getItem directory before.generations).map fun own => (own.manifest, own.retained)
  store : after.store.map (fun store => (store.generation, store.imported, store.cutover)) =
    before.store.map fun store => (store.generation, store.imported, store.cutover)

/-- What else happens to the disk meanwhile: the replay's own files stay as they are as long
as a condition holds that no step ends. -/
structure Surroundings (replay : Replay) where
  quiet : Disk → Prop
  rely : Disk → Disk → Prop
  refl : ∀ disk, rely disk disk
  beside : ∀ before after, Beside replay.directory before after → quiet before → quiet after
  stable : ∀ disk later, rely disk later → quiet disk → quiet later ∧
    later.generations = disk.generations ∧ later.store = disk.store ∧
    ∀ name, later.content (replay.retained.get name) = disk.content (replay.retained.get name)

def entryOf (capture : Option CaptureState) (name : LogName) : Entry :=
  match capture with
  | some state => state.files.get name
  | none => ⟨0, none⟩

def Keeps (services : Services) (replay : Replay) (name : LogName) (entry : Entry)
    (rows : Store) : Prop :=
  ∃ ledger, Held services name.source ledger rows ∧
    ledger.legacy = replay.legacy.get name ∧
    Progress (replay.content name) (replay.earlier.get name) entry
      (ledger.accepted.map Accepted.content)

structure Replaying (services : Services) (replay : Replay) (surroundings : Surroundings replay)
    (disk : Disk) (capture : Option CaptureState) : Prop where
  quiet : surroundings.quiet disk
  generation : getItem replay.directory disk.generations = some ⟨some replay.manifest,
    ⟨some replay.retained.access, some replay.retained.error⟩, capture⟩
  contents : ∀ name, disk.content (replay.retained.get name) = replay.content name
  store : ∃ store, disk.store = some store ∧ store.generation = replay.storeGeneration ∧
    ∀ name, Keeps services replay name (entryOf capture name) (store.sources.get name)
  state : ∀ state, capture = some state →
    state.schema = 1 ∧ state.storeGeneration = replay.storeGeneration

section Steps

variable {services : Services} {replay : Replay} {surroundings : Surroundings replay}
variable {disk : Disk} {capture : Option CaptureState}

theorem replaying_later {later : Disk}
    (replaying : Replaying services replay surroundings disk capture)
    (changed : surroundings.rely disk later) :
    Replaying services replay surroundings later capture := by
  obtain ⟨quiet, generations, stores, contents⟩ :=
    surroundings.stable disk later changed replaying.quiet
  refine ⟨quiet, ?_, ?_, ?_, replaying.state⟩
  · rw [generations]
    exact replaying.generation
  · exact fun name => (contents name).trans (replaying.contents name)
  · rw [stores]
    exact replaying.store

theorem replaying_write_capture {state : CaptureState}
    (replaying : Replaying services replay surroundings disk capture)
    (schema : state.schema = 1) (own : state.storeGeneration = replay.storeGeneration)
    (keeps : ∀ name rows, Keeps services replay name (entryOf capture name) rows →
      (∃ store, disk.store = some store ∧ store.sources.get name = rows) →
      Keeps services replay name (state.files.get name) rows) :
    Beside replay.directory disk (disk.writeCapture replay.directory state) ∧
      Replaying services replay surroundings (disk.writeCapture replay.directory state)
        (some state) := by
  have written : disk.writeCapture replay.directory state = disk.setGeneration replay.directory
      ⟨some replay.manifest, ⟨some replay.retained.access, some replay.retained.error⟩,
        some state⟩ := by
    simp only [Disk.writeCapture, replaying.generation]
  have beside : Beside replay.directory disk (disk.writeCapture replay.directory state) := by
    rw [written]
    refine ⟨rfl, rfl, rfl, rfl, rfl, ?_, ?_, rfl⟩
    · intro other different
      rw [Disk.setGeneration, get_item_set_item, if_neg different]
    · rw [Disk.setGeneration, get_item_set_item, if_pos rfl, replaying.generation]
      rfl
  refine ⟨beside, surroundings.beside _ _ beside replaying.quiet, ?_, ?_, ?_, ?_⟩
  · rw [written, Disk.setGeneration, get_item_set_item, if_pos rfl]
  · intro name
    rw [Disk.content, beside.inodes]
    exact replaying.contents name
  · obtain ⟨store, present, generation, kept⟩ := replaying.store
    rw [written]
    exact ⟨store, present, generation, fun name => keeps name _ (kept name) ⟨store, present, rfl⟩⟩
  · intro other same
    rw [← Option.some.inj same]
    exact ⟨schema, own⟩

theorem replaying_set_source {name : LogName} {rows : Store}
    (replaying : Replaying services replay surroundings disk capture)
    (keeps : Keeps services replay name (entryOf capture name) rows) :
    Beside replay.directory disk (disk.setSource name rows) ∧
      Replaying services replay surroundings (disk.setSource name rows) capture := by
  obtain ⟨store, present, generation, kept⟩ := replaying.store
  have beside : Beside replay.directory disk (disk.setSource name rows) := by
    refine ⟨rfl, rfl, rfl, rfl, rfl, fun _ _ => rfl, rfl, ?_⟩
    simp [Disk.setSource, present]
  refine ⟨beside, surroundings.beside _ _ beside replaying.quiet, replaying.generation,
    replaying.contents, ⟨{ store with sources := store.sources.set name rows }, ?_, generation,
    ?_⟩, replaying.state⟩
  · simp [Disk.setSource, present]
  · intro other
    by_cases same : other = name
    · subst same
      simpa using keeps
    · rw [PerLog.get_set_ne _ _ same]
      exact kept other

theorem replaying_entry {state : CaptureState} {name : LogName} {entry : Entry} {rows : Store}
    (replaying : Replaying services replay surroundings disk (some state))
    (present : ∃ store, disk.store = some store ∧ store.sources.get name = rows)
    (keeps : Keeps services replay name entry rows) :
    Beside replay.directory disk (disk.writeCapture replay.directory
        { state with files := state.files.set name entry }) ∧
      Replaying services replay surroundings (disk.writeCapture replay.directory
          { state with files := state.files.set name entry })
        (some { state with files := state.files.set name entry }) := by
  obtain ⟨schema, own⟩ := replaying.state state rfl
  refine replaying_write_capture replaying schema own ?_
  rintro other found kept ⟨store, same, rfl⟩
  obtain ⟨held, holds, rfl⟩ := present
  obtain rfl := Option.some.inj (holds.symm.trans same)
  by_cases equal : other = name
  · subst equal
    simpa using keeps
  · rw [PerLog.get_set_ne _ _ equal]
    exact kept

end Steps

/-! ### One run -/

section Runs

variable {scanner : Scanner} {redact : String → String} {hmac : List UInt8 → List UInt8}
variable {replay : Replay} {surroundings : Surroundings replay} {sha256 : List UInt8 → String}

theorem proceeds_and_then {Value Next : Type} {rely guarantee : Disk → Disk → Prop}
    {post : Except CollectorError Next → Disk → Prop} {first : Action Value}
    {next : Value → Action Next} {disk : Disk} (refl : ∀ disk, rely disk disk)
    (proceeds : Proceeds rely guarantee (fun result disk => match result with
      | .error error => Proceeds rely guarantee post (raise error) disk
      | .ok value => Proceeds rely guarantee post (next value) disk) first disk) :
    Proceeds rely guarantee post (andThen first next) disk := by
  refine proceeds_bind refl (proceeds_weaken proceeds ?_)
  intro result after holds
  cases result with
  | error error => exact holds
  | ok value => exact holds

def Continues (services : Services) (replay : Replay) (surroundings : Surroundings replay)
    (before after : Disk) : Prop :=
  Beside replay.directory before after ∧
    ∃ capture, Replaying services replay surroundings after capture

def FileEnds (services : Services) (replay : Replay) (surroundings : Surroundings replay)
    (name : LogName) (state : CaptureState) (result : Except CollectorError CaptureState)
    (after : Disk) : Prop :=
  match result with
  | .error _ => ¬Capturable (replay.content name)
  | .ok final => Replaying services replay surroundings after (some final) ∧
      final.files.get name = ⟨(replay.content name).length, none⟩ ∧
      ∀ other, other ≠ name → final.files.get other = state.files.get other

theorem file_ends_whole {services : Services} {name : LogName} {state : CaptureState}
    {disk : Disk} (replaying : Replaying services replay surroundings disk (some state))
    (atEnd : (replay.content name).length ≤ (state.files.get name).offset) :
    FileEnds services replay surroundings name state (.ok state) disk := by
  obtain ⟨store, present, -, kept⟩ := replaying.store
  obtain ⟨ledger, held, legacy, progress⟩ := kept name
  simp only [entryOf] at progress
  refine ⟨replaying, ?_, fun _ _ => rfl⟩
  generalize state.files.get name = entry at progress atEnd ⊢
  generalize ledger.accepted.map Accepted.content = contents at progress
  cases progress with
  | settled offset contents captured =>
    obtain ⟨_, -, -, -, within⟩ := captured_transcribes captured
    simp only at atEnd
    rw [show offset = (replay.content name).length by omega]
  | marked offset contents captured more =>
    simp only at atEnd
    omega
  | stored offset contents lines captured more cuts acceptable =>
    simp only at atEnd
    omega

/-- The batch behind the offset, once its receipt is written down: the store holds it
afterwards, whether or not it held it before, or refuses one of its lines. -/
theorem pending_batch {name : LogName} {offset : Nat} {pending : Pending} {rows : Store}
    {batch : FileBatch} (same : batch = readBatch ((replay.content name).drop offset))
    (keeps : Keeps (services scanner redact hmac) replay name ⟨offset, some pending⟩ rows) :
    pending.start = offset ∧ pending.finish = offset + batch.size ∧
      ((∃ sequence after, storeBatch (services scanner redact hmac) name
          (((replay.content name).drop offset).take batch.size) batch pending.revision rows =
          .ok (sequence, after) ∧
        Keeps (services scanner redact hmac) replay name ⟨offset, some pending⟩ after ∧
        Keeps (services scanner redact hmac) replay name ⟨offset + batch.size, none⟩ after) ∨
      ∃ raised, storeBatch (services scanner redact hmac) name
          (((replay.content name).drop offset).take batch.size) batch pending.revision rows =
          .error raised ∧ ¬Capturable (replay.content name)) := by
  obtain ⟨ledger, held, legacy, progress⟩ := keeps
  obtain ⟨accepted, list⟩ : ∃ accepted, accepted = ledger.accepted.map Accepted.content :=
    ⟨_, rfl⟩
  have count : (ledger.accepted.length : Int) = (accepted.length : Int) := by simp [list]
  rw [← list] at progress
  cases progress with
  | marked _ contents captured more =>
    rw [← same]
    refine ⟨rfl, rfl, ?_⟩
    have nonempty : (replay.content name).drop offset ≠ [] := by
      intro empty
      have := congrArg List.length empty
      rw [List.length_drop, List.length_nil] at this
      omega
    obtain ⟨lines, cuts⟩ := read_batch_cuts nonempty
    by_cases acceptable : ∀ line ∈ lines, Acceptable line
    · have fresh := store_batch_fresh held (same ▸ cuts) acceptable
      rw [count] at fresh
      obtain ⟨sequence, after, texts, stored, holds⟩ := fresh
      have extended : (ledger.accept (some "service")
          (some (((replay.earlier.get name ++ contents).length : Int) + 1))
          (batchContent ((replay.content name).drop offset) batch) texts).accepted.map
            Accepted.content = replay.earlier.get name ++ (contents ++
              [batchContent ((replay.content name).drop offset) batch]) := by
        simp [Ledger.accept, ← list]
      refine .inl ⟨sequence, after, stored, ⟨_, holds, legacy, ?_⟩, ⟨_, holds, legacy, ?_⟩⟩
      · rw [extended, same]
        exact .stored offset contents lines captured more cuts acceptable
      · rw [extended, same]
        exact .settled _ _ (.next offset contents lines captured more cuts acceptable)
    · obtain ⟨raised, refused⟩ := @store_batch_refused rows
        ((replay.content name).drop offset) batch lines (services scanner redact hmac)
        (((replay.content name).drop offset).take batch.size) name
        (((replay.earlier.get name ++ contents).length : Int) + 1) (by omega) (same ▸ cuts)
        acceptable
      refine .inr ⟨raised, refused, ?_⟩
      exact fun capturable => acceptable (batch_acceptable captured cuts capturable)
  | stored _ contents lines captured more cuts acceptable =>
    rw [← same]
    refine ⟨rfl, rfl, .inl ?_⟩
    obtain ⟨last, found, content⟩ : ∃ last, ledger.accepted.getLast? = some last ∧
        last.content = batchContent ((replay.content name).drop offset) batch := by
      have ends := congrArg List.getLast? list
      rw [List.getLast?_map, ← List.append_assoc, List.getLast?_append] at ends
      simp only [List.getLast?_singleton, Option.some_or] at ends
      obtain ⟨last, found, content⟩ := Option.map_eq_some_iff.mp ends.symm
      exact ⟨last, found, by rw [content, same]⟩
    have again := store_batch_again held (same ▸ cuts) acceptable found content
    have revision : (ledger.accepted.length : Int) =
        ((replay.earlier.get name ++ contents).length : Int) + 1 := by
      rw [count]
      simp [Int.add_assoc]
    rw [revision] at again
    refine ⟨last.sequence, rows, again, ⟨ledger, held, legacy, ?_⟩, ⟨ledger, held, legacy, ?_⟩⟩
    · rw [← list, same]
      exact .stored offset contents lines captured more cuts acceptable
    · rw [← list, same]
      exact .settled _ _ (.next offset contents lines captured more cuts acceptable)

theorem file_ends_from {services : Services} {name : LogName} {state later : CaptureState}
    {result : Except CollectorError CaptureState} {after : Disk}
    (others : ∀ other, other ≠ name → later.files.get other = state.files.get other)
    (ends : FileEnds services replay surroundings name later result after) :
    FileEnds services replay surroundings name state result after := by
  cases result with
  | error error => exact ends
  | ok final =>
    obtain ⟨replaying, atEnd, kept⟩ := ends
    exact ⟨replaying, atEnd, fun other different =>
      (kept other different).trans (others other different)⟩

theorem capture_batches_proceeds {name : LogName} {state : CaptureState} {disk : Disk} {fuel : Nat}
    (replaying : Replaying (services scanner redact hmac) replay surroundings disk (some state))
    (enough : (replay.content name).length ≤ (state.files.get name).offset + fuel) :
    Proceeds surroundings.rely (Continues (services scanner redact hmac) replay surroundings)
      (FileEnds (services scanner redact hmac) replay surroundings name state)
      (captureBatches (services scanner redact hmac) replay.directory name (replay.content name)
        fuel state) disk := by
  induction fuel generalizing state disk with
  | zero =>
    intro later changed
    exact file_ends_whole (replaying_later replaying changed) (by omega)
  | succ fuel induction =>
    simp only [captureBatches]
    split_ifs with atEnd
    · intro later changed
      exact file_ends_whole (replaying_later replaying changed) atEnd
    · obtain ⟨offset, place⟩ : ∃ offset, offset = (state.files.get name).offset := ⟨_, rfl⟩
      obtain ⟨batch, same⟩ : ∃ batch, batch = readBatch ((replay.content name).drop offset) :=
        ⟨_, rfl⟩
      have positive : 0 < batch.size := by
        have nonempty : (replay.content name).drop offset ≠ [] := by
          intro empty
          have := congrArg List.length empty
          rw [List.length_drop, List.length_nil] at this
          omega
        obtain ⟨lines, cuts⟩ := read_batch_cuts nonempty
        rw [same]
        exact cuts.positive
      rw [← place, ← same]
      -- the rest of the pass, from a state whose checkpoint names the batch
      have inner : ∀ (marked : CaptureState) (pending : Pending) (after : Disk),
          Replaying (services scanner redact hmac) replay surroundings after (some marked) →
          marked.files.get name = ⟨offset, some pending⟩ →
          (∀ other, other ≠ name → marked.files.get other = state.files.get other) →
          Proceeds surroundings.rely
            (Continues (services scanner redact hmac) replay surroundings)
            (FileEnds (services scanner redact hmac) replay surroundings name state)
            (if pending.start ≠ offset ∨ pending.finish ≠ offset + batch.size then
              raise (valueError changedInput)
            else appendBatch (services scanner redact hmac) name
              (((replay.content name).drop offset).take batch.size) batch pending.revision
              (durable .checkpoint (fun disk => disk.writeCapture replay.directory
                  { marked with
                    files := marked.files.set name ⟨offset + batch.size, none⟩ })
                (captureBatches (services scanner redact hmac) replay.directory name
                  (replay.content name) fuel { marked with
                    files := marked.files.set name ⟨offset + batch.size, none⟩ }))) after := by
        intro marked pending after holds entry others
        obtain ⟨store, -, -, kept⟩ := holds.store
        have keeps := kept name
        rw [entryOf, entry] at keeps
        obtain ⟨starts, finishes, -⟩ := pending_batch same keeps
        rw [if_neg (by simp [starts, finishes])]
        intro reading changed
        have observed := replaying_later holds changed
        obtain ⟨found, present, -, kept⟩ := observed.store
        have keeps := kept name
        rw [entryOf, entry] at keeps
        obtain ⟨-, -, outcome⟩ := pending_batch same keeps
        simp only [present]
        rcases outcome with ⟨sequence, rows, stored, holding, settled⟩ | ⟨raised, refused, odd⟩
        · rw [stored]
          intro writing changed
          have current := replaying_later observed changed
          obtain ⟨beside, appended⟩ := replaying_set_source current
            (show Keeps _ replay name (entryOf (some marked) name) rows by
              rw [entryOf, entry]
              exact holding)
          obtain ⟨found, holding, -⟩ := current.store
          have stored : (writing.setSource name rows).store =
              some { found with sources := found.sources.set name rows } := by
            simp [Disk.setSource, holding]
          refine ⟨⟨beside, _, appended⟩, ?_⟩
          intro acknowledging changed
          obtain ⟨-, -, stores, -⟩ := surroundings.stable _ _ changed appended.quiet
          have there : ∃ store, acknowledging.store = some store ∧
              store.sources.get name = rows :=
            ⟨_, stores.trans stored, PerLog.get_set _ _ _⟩
          have current := replaying_later appended changed
          obtain ⟨beside, checkpointed⟩ := replaying_entry current there settled
          refine ⟨⟨beside, _, checkpointed⟩, ?_⟩
          refine proceeds_weaken (induction checkpointed ?_) ?_
          · simp only [PerLog.get_set]
            omega
          · intro result last ends
            refine file_ends_from ?_ ends
            intro other different
            rw [PerLog.get_set_ne _ _ different]
            exact others other different
        · rw [refused]
          exact fun _ _ => odd
      cases marked : (state.files.get name).pending with
      | some pending =>
        simp only [markBatch, marked]
        refine inner state pending disk replaying ?_ fun _ _ => rfl
        rw [place, ← marked]
      | none =>
        simp only [markBatch, marked]
        intro reading changed
        have observed := replaying_later replaying changed
        obtain ⟨store, present, -, kept⟩ := observed.store
        simp only [present]
        obtain ⟨ledger, held, legacy, progress⟩ := kept name
        have settled : state.files.get name = ⟨offset, none⟩ := by
          rw [place, ← marked]
        rw [entryOf, settled] at progress
        have named : Keeps (services scanner redact hmac) replay name ⟨offset, some ⟨offset,
            offset + batch.size, ((getItem "service"
              (store.sources.get name).receipts).map Receipt.revision).getD 0 + 1⟩⟩
            (store.sources.get name) := by
          refine ⟨ledger, held, legacy, ?_⟩
          have count : (ledger.accepted.length : Int) =
              ((ledger.accepted.map Accepted.content).length : Int) := by simp
          rw [service_revision held, count]
          generalize ledger.accepted.map Accepted.content = accepted at progress
          cases progress with
          | settled _ contents captured =>
            rw [same]
            exact .marked offset contents captured (by omega)
        rw [← place]
        intro writing changed
        have there : ∃ found, writing.store = some found ∧
            found.sources.get name = store.sources.get name := by
          obtain ⟨-, -, stores, -⟩ := surroundings.stable _ _ changed observed.quiet
          exact ⟨store, by rw [stores, present], rfl⟩
        obtain ⟨beside, checkpointed⟩ :=
          replaying_entry (replaying_later observed changed) there named
        refine ⟨⟨beside, _, checkpointed⟩,
          inner _ _ _ checkpointed (PerLog.get_set _ _ _) ?_⟩
        intro other different
        rw [PerLog.get_set_ne _ _ different]

structure Seals (sha256 : List UInt8 → String) (replay : Replay) : Prop where
  schema : replay.manifest.schema = 1
  state : replay.manifest.state = "sealed"
  files : ∀ name, replay.manifest.files.get name = ⟨replay.retained.get name,
    some (replay.content name).length, some (sha256 (replay.content name))⟩

theorem progress_within {content : List UInt8} {earlier contents : List Content} {entry : Entry}
    (progress : Progress content earlier entry contents) : entry.offset ≤ content.length := by
  cases progress with
  | settled offset contents captured =>
    obtain ⟨_, -, -, -, within⟩ := captured_transcribes captured
    exact within
  | marked offset contents captured more => exact Nat.le_of_lt more
  | stored offset contents lines captured more cuts acceptable => exact Nat.le_of_lt more

theorem capture_file_proceeds {name : LogName} {state : CaptureState} {disk : Disk}
    (seals : Seals sha256 replay)
    (replaying : Replaying (services scanner redact hmac) replay surroundings disk (some state)) :
    Proceeds surroundings.rely (Continues (services scanner redact hmac) replay surroundings)
      (FileEnds (services scanner redact hmac) replay surroundings name state)
      (captureFile (services scanner redact hmac) sha256 replay.directory replay.manifest name
        state) disk := by
  intro opened changed
  have observed := replaying_later replaying changed
  have retained : ((getItem replay.directory opened.generations).bind fun generation =>
      generation.retained.get name) = some (replay.retained.get name) := by
    rw [observed.generation]
    cases name <;> rfl
  have within : ¬(replay.content name).length < (state.files.get name).offset := by
    obtain ⟨store, -, -, kept⟩ := observed.store
    obtain ⟨ledger, -, -, progress⟩ := kept name
    exact Nat.not_lt.mpr (progress_within progress)
  simp only [retained, observed.contents, seals.files, ne_eq, not_true_eq_false, or_self,
    if_false, within]
  refine proceeds_and_then surroundings.refl
    (proceeds_weaken (capture_batches_proceeds observed (by omega)) ?_)
  intro result after ends
  cases result with
  | error error => exact fun _ _ => ends
  | ok final =>
    intro closing changed
    have finished := replaying_later ends.1 changed
    simp only [finished.contents, not_true_eq_false, if_false]
    exact fun later changed => ⟨replaying_later finished changed, ends.2⟩

def PairEnds (services : Services) (replay : Replay) (surroundings : Surroundings replay)
    (result : Except CollectorError Unit) (after : Disk) : Prop :=
  match result with
  | .error _ => ∃ name, ¬Capturable (replay.content name)
  | .ok _ => ∃ final, Replaying services replay surroundings after (some final) ∧
      ∀ name, final.files.get name = ⟨(replay.content name).length, none⟩

theorem capture_files_proceeds {state : CaptureState} {disk : Disk} (seals : Seals sha256 replay)
    (replaying : Replaying (services scanner redact hmac) replay surroundings disk (some state)) :
    Proceeds surroundings.rely (Continues (services scanner redact hmac) replay surroundings)
      (PairEnds (services scanner redact hmac) replay surroundings)
      (captureFiles (services scanner redact hmac) sha256 replay.directory replay.manifest state)
      disk := by
  refine proceeds_and_then surroundings.refl
    (proceeds_weaken (capture_file_proceeds seals replaying) ?_)
  intro first after ends
  cases first with
  | error error => exact fun _ _ => ⟨.access, ends⟩
  | ok middle =>
    refine proceeds_and_then surroundings.refl
      (proceeds_weaken (capture_file_proceeds seals ends.1) ?_)
    intro second last finishes
    cases second with
    | error error => exact fun _ _ => ⟨.error, finishes⟩
    | ok final =>
      intro later changed
      refine ⟨final, replaying_later finishes.1 changed, ?_⟩
      intro name
      cases name with
      | access => rw [finishes.2.2 .access (by decide), ends.2.1]
      | error => exact finishes.2.1

theorem read_generation_ok {disk : Disk} {store : NginxStore} (present : disk.store = some store) :
    readGeneration disk = .ok store.generation := by
  simp [readGeneration, present, LogPaging.readPage, SOURCES]

theorem capture_generation_proceeds {disk : Disk} {capture : Option CaptureState}
    (seals : Seals sha256 replay)
    (replaying : Replaying (services scanner redact hmac) replay surroundings disk capture) :
    Proceeds surroundings.rely (Continues (services scanner redact hmac) replay surroundings)
      (PairEnds (services scanner redact hmac) replay surroundings)
      (captureGeneration (services scanner redact hmac) sha256 replay.directory) disk := by
  intro opened changed
  have observed := replaying_later replaying changed
  obtain ⟨store, present, own, kept⟩ := observed.store
  simp only [observed.generation, seals.schema, seals.state, ne_eq, not_true_eq_false, or_self,
    if_false, read_generation_ok present, own]
  cases capture with
  | some state =>
    obtain ⟨schema, same⟩ := observed.state state rfl
    simp only [schema, same, not_true_eq_false, or_self, if_false]
    exact capture_files_proceeds seals observed
  | none =>
    intro writing changed
    obtain ⟨beside, begun⟩ := @replaying_write_capture _ _ _ _ _
      ⟨1, replay.storeGeneration, ⟨⟨0, none⟩, ⟨0, none⟩⟩⟩ (replaying_later observed changed)
      rfl rfl (by
        intro name rows keeps _
        cases name <;> exact keeps)
    exact ⟨⟨beside, _, begun⟩, capture_files_proceeds seals begun⟩

end Runs

end Atlaso.Logs.CaptureReplay
