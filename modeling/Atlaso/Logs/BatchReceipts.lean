import Atlaso.Logs.CaptureBatches

/-!
One batch of a sealed file against the producer store: under the next revision it is taken
up once, under the revision of the last batch it is answered without another row, and the
only batch that is refused is one with a line the checks of `append` do not take.
-/

namespace Atlaso.Logs.BatchReceipts

open Library Dictionary PhysicalLines Outcomes ProducerStore CaptureRuns
open StoreIntegrity RunIntegrity SafeLines NginxCapture CaptureBatches

section Batches

variable {scanner : Scanner} {redact : String → String} {hmac : List UInt8 → List UInt8}
variable {source : String} {ledger : Ledger} {store : Store}

/-- The rows of a source that only Nginx capture writes to, between two of its calls. -/
structure Held (services : Services) (source : String) (ledger : Ledger) (store : Store) :
    Prop where
  sound : Sound services source ledger store
  idle : store.pending = none
  alone : ∀ row ∈ store.checkpoints, row.1 = "service"
  writer : ∀ accepted ∈ ledger.accepted, accepted.writer = some "service"

section

variable {services : Services} (held : Held services source ledger store)
include held

theorem of_writer_service :
    ledger.ofWriter "service" = ledger.accepted := by
  refine List.filter_eq_self.mpr ?_
  intro accepted inside
  simp [held.writer accepted inside]

theorem service_revision :
    ((getItem "service" store.receipts).map Receipt.revision).getD 0 =
      (ledger.accepted.length : Int) := by
  rw [previous_revision held.sound, of_writer_service held]

theorem any_conceals_alone :
    anyConceals store "service" = .ok false := by
  have none : (store.checkpoints.filter fun row => row.1 ≠ "service") = [] := by
    rw [List.filter_eq_nil_iff]
    intro row inside
    simp [held.alone row inside]
  simp only [anyConceals, none]
  rfl

theorem check_receipt_fresh (fingerprint : List UInt8) :
    checkReceipt store "service" (ledger.accepted.length + 1) fingerprint = .ok none := by
  have previous := service_revision held
  simp only [checkReceipt, previous]
  have later : (ledger.accepted.length : Int) + 1 ≠ ledger.accepted.length := by omega
  cases getItem "service" store.receipts with
  | none => simp
  | some receipt => simp

theorem held_accept {batch : ProducerStore.Batch} {content : Content} {revision : Option Int}
    (describes : Describes services content batch)
    (next : NextIdentity services ledger (some "service") revision content batch.fingerprint) :
    Held services source (ledger.accept (some "service") revision content batch.texts)
      (published source "service" (identityOf (some "service") revision) batch
        (store.producer.getD (0, 0)) store) := by
  refine ⟨sound_published held.sound describes next "service", rfl, ?_, ?_⟩
  · intro row inside
    rcases mem_set_item inside with rfl | old
    · rfl
    · exact held.alone row old
  · intro accepted inside
    simp only [Ledger.accept, List.mem_append, List.mem_singleton] at inside
    rcases inside with old | rfl
    · exact held.writer accepted old
    · rfl

theorem held_published {batch : ProducerStore.Batch} {content : Content}
    (describes : Describes services content batch)
    (fingerprint : batch.fingerprint = services.hmac content.bytes) :
    ∃ sequence after, publish source "service"
        (some ("service", (ledger.accepted.length : Int) + 1)) batch store =
        .ok (sequence, after) ∧
      Held services source (ledger.accept (some "service")
        (some ((ledger.accepted.length : Int) + 1)) content batch.texts) after := by
  have next : NextIdentity services ledger (some "service")
      (some ((ledger.accepted.length : Int) + 1)) content batch.fingerprint := by
    refine .inr ⟨"service", rfl, ?_, fingerprint⟩
    rw [of_writer_service held]
  exact ⟨_, _, publish_ok held.sound describes.lengths "service" _,
    held_accept held describes next⟩

end

theorem append_accepts {lines : List String}
    (held : Held (services scanner redact hmac) source ledger store)
    (checked : checkLines source lines (some "service")
      (some ((ledger.accepted.length : Int) + 1)) false = .ok ()) :
    ∃ sequence after texts, append (services scanner redact hmac) source lines (some "service")
        (some ((ledger.accepted.length : Int) + 1)) false store = .ok (sequence, after) ∧
      Held (services scanner redact hmac) source (ledger.accept (some "service")
        (some ((ledger.accepted.length : Int) + 1)) (.lines lines) texts) after := by
  have nonempty := (check_lines_some checked).1
  have known : (WRITERS source).contains "service" = true ∧
      ∀ line ∈ lines, isComplete line = true := by
    simp only [checkLines] at checked
    split_ifs at checked with invalid large slot
    refine ⟨(Bool.and_eq_true _ _ ▸ slot).1, ?_⟩
    intro line inside
    simp only [Bool.or_eq_true, List.any_eq_true, not_or, not_exists, not_and] at invalid
    have fine := (invalid.2 line inside).1
    simpa using fine
  obtain ⟨result, scanned, kept, lengths⟩ := @safe_lines_total scanner _ lines
    ((getItem "service" store.checkpoints).getD ⟨false, []⟩).privateKey
    (scans_checkpoint held.sound "service")
  rw [capture_lines_length known.2] at lengths
  obtain ⟨batch, sanitized⟩ : ∃ batch, sanitize (services scanner redact hmac) "service" lines
      ((services scanner redact hmac).hmac (linesBytes lines)) store = .ok batch := by
    cases done : sanitize (services scanner redact hmac) "service" lines
        ((services scanner redact hmac).hmac (linesBytes lines)) store with
    | ok batch => exact ⟨batch, rfl⟩
    | error raised =>
      have scans : (services scanner redact hmac).safeLines = safeLines scanner := rfl
      simp only [sanitize, scans, scanned, ok_bind, any_conceals_alone held] at done
      rw [zip_strict_of_length (by simp [lengths])] at done
      simp at done
  obtain ⟨describes, fingerprint⟩ := sanitize_describes held.sound nonempty sanitized
  obtain ⟨sequence, after, published, holds⟩ := held_published held describes fingerprint
  refine ⟨sequence, after, batch.texts, ?_, holds⟩
  simp only [append, examine, checked, ok_bind, check_source_of_writer known.1, checkPending,
    held.idle, Option.isSome_some, if_true, Bool.false_eq_true, if_false]
  rw [check_receipt_fresh held]
  simp only [ok_bind, sanitized, identityOf, Option.getD_some, published]

theorem append_stream_accepts {services : Services} {chunks : List (List UInt8)}
    (held : Held services source ledger store) (writer : (WRITERS source).contains "service" = true)
    (bounded : boundedChunks false chunks = true) (nonempty : chunks.flatten ≠ []) :
    ∃ sequence after texts, appendStream services source chunks "service"
        ((ledger.accepted.length : Int) + 1) store = .ok (sequence, after) ∧
      Held services source (ledger.accept (some "service")
        (some ((ledger.accepted.length : Int) + 1)) (.physicalRecord chunks.flatten) texts)
        after := by
  have checked : checkStream source "service" ((ledger.accepted.length : Int) + 1) store =
      .ok () := by
    have positive : (1 : Int) ≤ (ledger.accepted.length : Int) + 1 := by omega
    simp only [checkStream, writer, decide_eq_true positive, check_source_of_writer writer,
      held.idle]
    rfl
  obtain ⟨reading, chunked, read⟩ :=
    read_chunks_bounded (scans_checkpoint held.sound "service") bounded nonempty
  obtain ⟨result, fine, -⟩ := finish_reading_scans read
  obtain ⟨batch, found⟩ : ∃ batch, examineStream services source chunks "service"
      ((ledger.accepted.length : Int) + 1) store = .ok (.fresh batch) := by
    cases done : examineStream services source chunks "service"
        ((ledger.accepted.length : Int) + 1) store with
    | error raised =>
      simp [examineStream, checked, chunked, fine, check_receipt_fresh held,
        any_conceals_alone held] at done
    | ok finding =>
      cases finding with
      | fresh batch => exact ⟨batch, rfl⟩
      | repeated sequence =>
        simp [examineStream, checked, chunked, fine, check_receipt_fresh held,
          any_conceals_alone held] at done
  obtain ⟨earlier, -, cases'⟩ := examine_stream_ok held.sound found
  rcases cases' with ⟨number, -, impossible⟩ | ⟨-, other, same, describes, fingerprint⟩
  · simp at impossible
  · obtain rfl := Finding.fresh.inj same
    obtain ⟨sequence, after, published, holds⟩ := held_published held describes fingerprint
    refine ⟨sequence, after, batch.texts, ?_, holds⟩
    simp only [appendStream, found, ok_bind, published]

/-! ### Batches of a file -/

theorem writers_service (name : LogName) : (WRITERS name.source).contains "service" = true := by
  cases name <;> decide

variable {rest : List UInt8} {batch : FileBatch} {lines : List (List UInt8)}

theorem store_batch_fresh {name : LogName}
    (held : Held (services scanner redact hmac) name.source ledger store)
    (cuts : Cuts rest batch lines) (acceptable : ∀ line ∈ lines, Acceptable line) :
    ∃ sequence after texts, storeBatch (services scanner redact hmac) name
        (rest.take batch.size) batch ((ledger.accepted.length : Int) + 1) store =
        .ok (sequence, after) ∧
      Held (services scanner redact hmac) name.source (ledger.accept (some "service")
        (some ((ledger.accepted.length : Int) + 1)) (batchContent rest batch) texts) after := by
  rcases cuts.content with ⟨size, rfl, nonempty, room, short, bytes⟩ |
    ⟨line, size, rfl, rfl, taken, long, newline⟩
  · refine append_accepts held ?_
    exact (check_lines_iff (writers_service name) (by omega) nonempty room short bytes).mpr
      acceptable
  · have record := record_chunks_bounded (rest.take size).length (rest.take size)
      (Nat.le_refl _) (by rw [taken]; exact newline)
    have nonempty : (recordChunks (rest.take size).length (rest.take size)).flatten ≠ [] := by
      rw [record.2, taken]
      rintro rfl
      simp at long
    have accepted := append_stream_accepts held (writers_service name) record.1 nonempty
    rw [record.2] at accepted
    exact accepted

theorem store_batch_refused {services : Services} {record : List UInt8} {name : LogName}
    {revision : Int} (positive : 1 ≤ revision) (cuts : Cuts rest batch lines)
    (refused : ¬∀ line ∈ lines, Acceptable line) :
    ∃ raised, storeBatch services name record batch revision store = .error raised := by
  rcases cuts.content with ⟨size, rfl, nonempty, room, short, bytes⟩ |
    ⟨line, size, rfl, rfl, taken, long, newline⟩
  · have invalid := (check_lines_iff (writers_service name) positive nonempty room short bytes).not
      |>.mpr refused
    cases checked : checkLines name.source (lines.map lineText) (some "service") (some revision)
        false with
    | ok done => exact absurd checked invalid
    | error raised =>
      refine ⟨raised, ?_⟩
      simp [storeBatch, append, examine, checked]
  · exfalso
    apply refused
    intro other inside within
    rw [List.mem_singleton.mp inside] at within
    omega

/-- The batch an earlier run appended is answered from its receipt. -/
theorem store_batch_again {services : Services} {name : LogName} {accepted : Accepted}
    (held : Held services name.source ledger store) (cuts : Cuts rest batch lines)
    (acceptable : ∀ line ∈ lines, Acceptable line) (last : ledger.accepted.getLast? = some accepted)
    (content : accepted.content = batchContent rest batch) :
    storeBatch services name (rest.take batch.size) batch (ledger.accepted.length : Int) store =
      .ok (accepted.sequence, store) := by
  have own := last
  rw [← of_writer_service held] at own
  have number := last_revision held.sound own
  rw [of_writer_service held] at number
  have positive : (1 : Int) ≤ ledger.accepted.length := by
    have some' : ledger.accepted ≠ [] := by
      rintro empty
      simp [empty] at last
    have := List.length_pos_iff.mpr some'
    omega
  rcases cuts.content with ⟨size, rfl, nonempty, room, short, bytes⟩ |
    ⟨line, size, rfl, rfl, taken, long, newline⟩
  · have repeated := append_repeats held.sound held.idle own content (by
      rw [number]
      exact (check_lines_iff (writers_service name) positive nonempty room short bytes).mpr
        acceptable)
    rw [number] at repeated
    exact repeated
  · have record := record_chunks_bounded (rest.take size).length (rest.take size)
      (Nat.le_refl _) (by rw [taken]; exact newline)
    have nonempty : (recordChunks (rest.take size).length (rest.take size)).flatten ≠ [] := by
      rw [record.2, taken]
      rintro rfl
      simp at long
    have checked : checkStream name.source "service" (ledger.accepted.length : Int) store =
        .ok () := by
      simp only [checkStream, writers_service, decide_eq_true positive,
        check_source_of_writer (writers_service name), held.idle]
      rfl
    have same := content.trans (congrArg Content.physicalRecord record.2.symm)
    exact append_stream_repeats held.sound own same number checked record.1 nonempty

end Batches

end Atlaso.Logs.BatchReceipts
