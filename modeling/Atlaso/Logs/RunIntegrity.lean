import Atlaso.Logs.StoreIntegrity

/-!
What holds of the producer log store in every run: the rows are one contiguous numbered
range, every accepted batch is in it once and in full, a repeated call returns what the
first one did, and a capture that was interrupted is published or keeps the source closed.
-/

namespace Atlaso.Logs.RunIntegrity

open Library ByteWords Dictionary LineText NumberedLog Outcomes
open ProducerStore CaptureRuns StoreIntegrity

section Runs

variable {services : Services} {source : String} {ledger : Ledger} {store : Store}

/-! ### One transaction -/

variable {lines : List String} {writer : String} {revision : Int} {sequence : Nat}
  {chunks : List (List UInt8)} {marker : CapturePending}

theorem append_cases {writer : Option String} {revision : Option Int} {after : Store}
    (sound : Sound services source ledger store)
    (done : append services source lines writer revision false store = .ok (sequence, after)) :
    (examine services source lines writer revision false store = .ok (.repeated sequence) ∧
        after = store) ∨
      ∃ batch, examine services source lines writer revision false store = .ok (.fresh batch) ∧
        sequence = ledger.rows.length + batch.texts.length ∧
        Sound services source (ledger.accept writer revision (.lines lines) batch.texts) after := by
  obtain ⟨finding, examined, done⟩ := bind_ok_iff.mp done
  cases finding with
  | repeated earlier =>
    obtain ⟨rfl, rfl⟩ := Prod.mk.inj (Except.ok.inj done)
    exact .inl ⟨examined, rfl⟩
  | fresh batch =>
    obtain ⟨describes, next⟩ := examine_fresh sound examined
    simp only [Bool.false_eq_true, if_false, publish_ok sound describes.lengths] at done
    obtain ⟨rfl, rfl⟩ := Prod.mk.inj (Except.ok.inj done)
    refine .inr ⟨batch, examined, ?_, sound_published sound describes next _⟩
    rw [sound.place]

theorem append_stream_cases {after : Store} (sound : Sound services source ledger store)
    (done : appendStream services source chunks writer revision store = .ok (sequence, after)) :
    (examineStream services source chunks writer revision store = .ok (.repeated sequence) ∧
        after = store) ∨
      ∃ batch, examineStream services source chunks writer revision store = .ok (.fresh batch) ∧
        sequence = ledger.rows.length + batch.texts.length ∧
        Sound services source (ledger.accept (some writer) (some revision)
          (.physicalRecord chunks.flatten) batch.texts) after := by
  obtain ⟨finding, examined, done⟩ := bind_ok_iff.mp done
  obtain ⟨earlier, receipt, found⟩ := examine_stream_ok sound examined
  rcases found with ⟨number, -, rfl⟩ | ⟨rfl, batch, rfl, describes, fingerprint⟩
  · obtain ⟨rfl, rfl⟩ := Prod.mk.inj (Except.ok.inj done)
    exact .inl ⟨examined, rfl⟩
  · have next : NextIdentity services ledger (some writer) (some revision)
        (.physicalRecord chunks.flatten) batch.fingerprint := by
      refine .inr ⟨writer, rfl, ?_, fingerprint⟩
      rw [check_receipt_next receipt, previous_revision sound]
    simp only [publish_ok sound describes.lengths] at done
    obtain ⟨rfl, rfl⟩ := Prod.mk.inj (Except.ok.inj done)
    refine .inr ⟨batch, examined, ?_, sound_published sound describes next _⟩
    rw [sound.place]

theorem finish_staged {prepared : Prepared} (sound : Sound services source ledger store)
    (pending : store.pending = some marker) (ready : marker.prepared = some prepared) :
    ∃ content after, ledger.staged = some content ∧
      finishPreparedCapture source store = .ok after ∧ after.pending = none ∧
      Sound services source (ledger.accept (some marker.writer) (some marker.revision) content
        prepared.batch.texts) after := by
  obtain ⟨revision, staged⟩ := sound.marker marker pending
  obtain ⟨content, staged⟩ := staged prepared ready
  have next : NextIdentity services ledger (some marker.writer) (some marker.revision) content
      prepared.batch.fingerprint :=
    .inr ⟨marker.writer, rfl, by rw [revision], staged.fingerprint⟩
  refine ⟨content, _, staged.input, ?_, rfl,
    sound_published sound staged.describes next marker.writer⟩
  have same : store.producer.getD (0, 0) = prepared.base := staged.base.symm
  have sizes : (prepared.batch.texts.zip prepared.batch.charges).length =
      prepared.batch.texts.length := by
    simp [List.length_zip, staged.describes.lengths]
  have behind := records_behind sound
  obtain ⟨place, producer⟩ := Option.isSome_iff_exists.mp staged.producer
  simp only [finishPreparedCapture, pending, ready, ne_eq, same, not_true_eq_false, if_false,
    zip_strict_of_length staged.describes.lengths, ok_bind]
  rw [same] at behind
  rw [insert_rows_ok _ _ _ behind]
  simp only [ok_bind, published, identityOf, updateCheckpoint, staged.checkpoint, if_true,
    producer, Option.map_some]

theorem finish_unprepared (pending : store.pending = some marker)
    (unready : marker.prepared = none) :
    finishPreparedCapture source store = .error (.valueError captureRecoveryMessage) := by
  simp [finishPreparedCapture, pending, unready]

theorem finish_idle (idle : store.pending = none) :
    finishPreparedCapture source store = .ok store := by
  simp [finishPreparedCapture, idle]

theorem finish_sound {after : Store} (sound : Sound services source ledger store)
    (done : finishPreparedCapture source store = .ok after) :
    Sound services source (ledger.publish store) after := by
  cases pending : store.pending with
  | none =>
    rw [finish_idle pending] at done
    obtain rfl := Except.ok.inj done
    simpa [Ledger.publish, pending] using sound
  | some marker =>
    cases ready : marker.prepared with
    | none =>
      rw [finish_unprepared pending ready] at done
      simp at done
    | some prepared =>
      obtain ⟨content, expected, input, finished, _, kept⟩ :=
        finish_staged sound pending ready
      rw [finished] at done
      obtain rfl := Except.ok.inj done
      simpa [Ledger.publish, pending, ready, input] using kept

theorem mark_sound {after : Store} (sound : Sound services source ledger store)
    (done : markCapture writer store = .ok (revision, after)) :
    Sound services source ledger after := by
  simp only [markCapture] at done
  split_ifs at done with pending
  obtain ⟨rfl, rfl⟩ := Prod.mk.inj (Except.ok.inj done)
  refine { sound with marker := ?_ }
  intro marker same
  obtain rfl := Option.some.inj same
  refine ⟨by rw [previous_revision sound], ?_⟩
  intro prepared impossible
  simp at impossible

/-- The marker lets a call through only under its own identity. -/
theorem examine_marker {writer : Option String} {revision : Option Int} {prepareOnly : Bool}
    {finding : Finding}
    (examined : examine services source lines writer revision prepareOnly store = .ok finding) :
    (store.pending = none ∧ prepareOnly = false) ∨ ∃ marker, store.pending = some marker ∧
      writer = some marker.writer ∧ revision = some marker.revision := by
  obtain ⟨_, -, examined⟩ := bind_ok_iff.mp examined
  obtain ⟨_, -, examined⟩ := bind_ok_iff.mp examined
  obtain ⟨_, checked, -⟩ := bind_ok_iff.mp examined
  simp only [checkPending] at checked
  split at checked
  · rename_i idle
    split_ifs at checked with preparing
    exact .inl ⟨idle, Bool.not_eq_true _ ▸ preparing⟩
  · rename_i marker pending
    by_cases own : (writer, revision) = (some marker.writer, some marker.revision)
    · obtain ⟨names, numbers⟩ := Prod.mk.inj own
      exact .inr ⟨marker, pending, names, numbers⟩
    · simp [own] at checked

section

variable (sound : Sound services source ledger store)
include sound

theorem check_receipt_repeated {fingerprint : List UInt8}
    (checked : checkReceipt store writer revision fingerprint = .ok (some sequence)) :
    revision = (ledger.ofWriter writer).length ∧
      ∃ accepted, (ledger.ofWriter writer).getLast? = some accepted ∧
        services.hmac accepted.content.bytes = fingerprint ∧ sequence = accepted.sequence := by
  have previous := previous_revision sound writer
  simp only [checkReceipt, previous] at checked
  split at checked
  · rename_i receipt found
    rw [sound.receipts] at found
    obtain ⟨accepted, last, rfl⟩ := Option.map_eq_some_iff.mp found
    split_ifs at checked with same jump
    · exact ⟨same.1, accepted, last, same.2, (Option.some.inj (Except.ok.inj checked)).symm⟩
    · simp at checked
  · split_ifs at checked with jump
    simp at checked

theorem stage_sound {after : Store}
    (done : append services source lines (some writer) (some revision) true store = .ok (sequence,
      after)) :
    Sound services source { ledger with staged := some (.lines lines) } after := by
  obtain ⟨finding, examined, done⟩ := bind_ok_iff.mp done
  have known := examine_marker examined
  simp only [Bool.true_eq_false, and_false, false_or] at known
  obtain ⟨marker, pending, names, numbers⟩ := known
  obtain rfl := Option.some.inj names
  obtain rfl := Option.some.inj numbers
  have number := (sound.marker marker pending).1
  cases finding with
  | repeated earlier =>
    exfalso
    obtain ⟨_, -, examined⟩ := bind_ok_iff.mp examined
    obtain ⟨_, -, examined⟩ := bind_ok_iff.mp examined
    obtain ⟨_, -, examined⟩ := bind_ok_iff.mp examined
    obtain ⟨found, receipt, examined⟩ := bind_ok_iff.mp examined
    cases found with
    | none =>
      obtain ⟨_, -, impossible⟩ := bind_ok_iff.mp examined
      simp at impossible
    | some sequence =>
      have repeated := (check_receipt_repeated sound receipt).1
      omega
  | fresh batch =>
    obtain ⟨describes, next⟩ := examine_fresh sound examined
    have fingerprint : batch.fingerprint = services.hmac (Content.lines lines).bytes := by
      rcases next with ⟨impossible, -⟩ | ⟨_, -, -, same⟩
      · simp at impossible
      · exact same
    obtain ⟨-, rfl⟩ := Prod.mk.inj (Except.ok.inj done)
    refine {
      retained := sound.retained
      whole := sound.whole
      place := sound.place
      complete := sound.complete
      numbering := sound.numbering
      receipts := sound.receipts
      revisions := sound.revisions
      marker := ?_
      scans := ?_ }
    · intro current same
      simp only [pending, Option.map_some, Option.some.injEq] at same
      subst same
      refine ⟨number, ?_⟩
      intro prepared ready
      obtain rfl := Option.some.inj ready
      refine ⟨.lines lines, rfl, rfl, rfl, ?_, describes, fingerprint⟩
      simp only [ensureCheckpoint, Option.getD_some]
      split_ifs with present
      · exact present
      · simp [get_item_set_item]
    · intro row inside
      simp only [ensureCheckpoint] at inside
      split_ifs at inside with present
      · exact sound.scans row inside
      · rcases mem_set_item inside with rfl | old
        · exact services.scans_empty
        · exact sound.scans row old

/-! ### Every step and every run -/

theorem capture_sound {capture : Capture} {after : Store} {next : Option Stage}
    (done : captureTransaction services source capture store = .ok (after, next)) :
    Sound services source (observeCapture services source capture store ledger) after := by
  simp only [observeCapture, done]
  simp only [captureTransaction] at done
  cases place : capture.stage with
  | recovering =>
    simp only [place] at done ⊢
    obtain ⟨finished, recovered, same⟩ := bind_ok_iff.mp done
    obtain ⟨rfl, -⟩ := Prod.mk.inj (Except.ok.inj same)
    exact finish_sound sound recovered
  | marking =>
    simp only [place] at done ⊢
    obtain ⟨marked, written, same⟩ := bind_ok_iff.mp done
    obtain ⟨rfl, -⟩ := Prod.mk.inj (Except.ok.inj same)
    exact mark_sound sound written
  | preparing revision =>
    cases text : capture.message with
    | none => simp [place, text] at done
    | some message =>
      simp only [place, text] at done ⊢
      obtain ⟨staged, written, same⟩ := bind_ok_iff.mp done
      obtain ⟨rfl, -⟩ := Prod.mk.inj (Except.ok.inj same)
      exact stage_sound sound written
  | publishing =>
    simp only [place] at done ⊢
    obtain ⟨finished, recovered, same⟩ := bind_ok_iff.mp done
    obtain ⟨rfl, -⟩ := Prod.mk.inj (Except.ok.inj same)
    exact finish_sound sound recovered

end

theorem step_sound {world : World} (event : Event)
    (sound : Sound services source ledger world.store) :
    Sound services source (observe services source world event ledger)
      (step services source world event).1.store := by
  cases event with
  | append lines writer revision =>
    simp only [step, observe]
    cases done : append services source lines writer revision false world.store with
    | error raised => exact sound
    | ok result =>
      rcases append_cases sound done with ⟨examined, same⟩ | ⟨batch, examined, -, kept⟩
      · simp only [examined, same]
        exact sound
      · simpa only [examined] using kept
  | appendStream chunks writer revision =>
    simp only [step, observe]
    cases done : appendStream services source chunks writer revision world.store with
    | error raised => exact sound
    | ok result =>
      rcases append_stream_cases sound done with ⟨examined, same⟩ | ⟨batch, examined, -, kept⟩
      · simp only [examined, same]
        exact sound
      · simpa only [examined] using kept
  | beginCapture writer message =>
    simp only [step, observe]
    split_ifs
    · exact sound
    · exact sound
    · exact sound
  | advanceCapture =>
    simp only [step, observe]
    cases holder : world.capture with
    | none => exact sound
    | some capture =>
      cases done : captureTransaction services source capture world.store with
      | error raised =>
        simp only [observeCapture, done]
        exact sound
      | ok result =>
        have kept := capture_sound sound done
        simp only [done]
        exact kept
  | crash => exact sound

theorem run_sound {state : World × Ledger} (events : List Event)
    (sound : Sound services source state.2 state.1.store) :
    Sound services source (runEvents services source state events).2
      (runEvents services source state events).1.store := by
  induction events generalizing state with
  | nil => exact sound
  | cons event events induction => exact induction (step_sound event sound)

theorem opening_sound {legacy : List (String × Nat)}
    (opening : Opening services source store legacy) :
    Sound services source ⟨legacy, [], none⟩ store := by
  have rows : (⟨legacy, [], none⟩ : Ledger).rows = legacy := by simp [Ledger.rows]
  cases opening with
  | fresh =>
    refine ⟨⟨0, rfl, fun some => absurd rfl some⟩, fun _ => rfl, rfl, ?_, ?_, ?_, ?_, ?_, ?_⟩
    all_goals simp [emptyStore, Ledger.ofWriter, getItem]
  | imported legacy checkpoint scans =>
    refine ⟨⟨0, ?_, fun some => List.length_pos_iff.mpr some⟩, ?_, ?_, ?_, ?_, ?_, ?_, ?_, ?_⟩
    all_goals simp [importedStore, Ledger.ofWriter, getItem, rows]
    intro writer _
    exact scans

theorem publish_extends (ledger : Ledger) (store : Store) :
    ledger.accepted <+: (ledger.publish store).accepted := by
  simp only [Ledger.publish]
  split
  · split
    · exact List.prefix_append _ _
    · exact List.prefix_rfl
  · exact List.prefix_rfl

theorem observe_extends (world : World) (event : Event) (ledger : Ledger) :
    ledger.accepted <+: (observe services source world event ledger).accepted := by
  cases event with
  | append lines writer revision =>
    simp only [observe]
    split
    · exact List.prefix_append _ _
    · exact List.prefix_rfl
  | appendStream chunks writer revision =>
    simp only [observe]
    split
    · exact List.prefix_append _ _
    · exact List.prefix_rfl
  | beginCapture writer message => exact List.prefix_rfl
  | advanceCapture =>
    simp only [observe]
    split
    · simp only [observeCapture]
      split
      · exact publish_extends ledger world.store
      · exact publish_extends ledger world.store
      · exact List.prefix_rfl
      · exact List.prefix_rfl
    · exact List.prefix_rfl
  | crash => exact List.prefix_rfl

theorem run_extends (state : World × Ledger) (events : List Event) :
    state.2.accepted <+: (runEvents services source state events).2.accepted := by
  induction events generalizing state with
  | nil => exact List.prefix_rfl
  | cons event events induction =>
    have later := induction ((step services source state.1 event).1,
      observe services source state.1 event state.2)
    exact (observe_extends state.1 event state.2).trans later

/-! ### Repeated and conflicting calls -/

/-- The chunks `append_stream` takes: bounded, and a line feed only at the very end. -/
def boundedChunks : Bool → List (List UInt8) → Bool
  | _, [] => true
  | terminated, chunk :: chunks =>
    !(chunk.isEmpty || decide (65536 < chunk.length) || terminated) &&
      !(chunk.contains 10 && (chunk.getLast? != some 10 || chunk.dropLast.contains 10)) &&
      boundedChunks (chunk.contains 10) chunks

theorem read_chunk_bounded {data chunk : List UInt8} {reading : Reading}
    (read : Read services data reading)
    (bounded : (chunk.isEmpty || decide (65536 < chunk.length) || reading.terminated) = false)
    (single : (chunk.contains 10 &&
      (chunk.getLast? != some 10 || chunk.dropLast.contains 10)) = false) :
    ∃ after, readChunk services reading chunk = .ok after ∧
      after.terminated = chunk.contains 10 := by
  obtain ⟨fragment, named⟩ :
      ∃ fragment, (if chunk.contains 10 then chunk.dropLast else chunk) = fragment := ⟨_, rfl⟩
  simp only [readChunk, bounded, single, named, Bool.false_eq_true, if_false]
  split_ifs with oversized large
  · obtain ⟨result, fine, -⟩ := services.scans_result
      [(decodeReplacing false (reading.kept ++ fragment)).1] reading.privateKey
        reading.parser read.scans
    simp [scanFragment, fine]
  · obtain ⟨result, fine, -⟩ := services.scans_result
      [(decodeReplacing false (reading.kept ++ (reading.pending ++ fragment))).1]
        reading.privateKey reading.parser read.scans
    simp [scanFragment, fine]
  · exact ⟨_, rfl, rfl⟩

theorem chunks_bounded {data : List UInt8} {reading : Reading} (read : Read services data reading)
    (bounded : boundedChunks reading.terminated chunks = true) :
    ∃ after, chunks.foldlM (readChunk services) reading = .ok after := by
  induction chunks generalizing data reading with
  | nil => exact ⟨reading, rfl⟩
  | cons chunk chunks induction =>
    simp only [boundedChunks, Bool.and_eq_true, Bool.not_eq_true'] at bounded
    obtain ⟨middle, first, flag⟩ := read_chunk_bounded read bounded.1.1 bounded.1.2
    obtain ⟨after, rest⟩ := induction (read_chunk_read read first) (by rw [flag]; exact bounded.2)
    exact ⟨after, by rw [List.foldlM_cons, first, ok_bind, rest]⟩

theorem read_chunks_bounded {checkpoint : Checkpoint} (scans : services.Scans checkpoint.parser)
    (bounded : boundedChunks false chunks = true) (nonempty : chunks.flatten ≠ []) :
    ∃ reading, readChunks services checkpoint chunks = .ok reading ∧
      Read services chunks.flatten reading := by
  have start : Read services [] ⟨[], 0, false, false, [], checkpoint.privateKey,
      checkpoint.parser, []⟩ := ⟨rfl, rfl, scans⟩
  obtain ⟨reading, looped⟩ := chunks_bounded start bounded
  have read := chunks_read start looped
  rw [List.nil_append] at read
  have charged : reading.charge ≠ 0 := by
    rw [read.charge]
    exact (List.length_pos_iff.mpr nonempty).ne'
  exact ⟨reading, by simp only [readChunks, looped, ok_bind, if_neg charged], read⟩

section

variable (sound : Sound services source ledger store)
include sound

theorem examine_stream_receipt (checked : checkStream source writer revision store = .ok ())
    (bounded : boundedChunks false chunks = true) (nonempty : chunks.flatten ≠ [])
    (receipt : checkReceipt store writer revision (services.hmac (recordBytes chunks.flatten)) = .ok
      (some sequence)) :
    examineStream services source chunks writer revision store = .ok (.repeated sequence) := by
  obtain ⟨reading, chunked, read⟩ :=
    read_chunks_bounded (scans_checkpoint sound writer) bounded nonempty
  obtain ⟨result, fine, -⟩ := finish_reading_scans read
  simp only [examineStream, checked, chunked, fine, ok_bind, read.input, receipt]

theorem check_receipt_last {accepted : Accepted}
    (last : (ledger.ofWriter writer).getLast? = some accepted) :
    checkReceipt store writer (ledger.ofWriter writer).length
      (services.hmac accepted.content.bytes) = .ok (some accepted.sequence) := by
  simp only [checkReceipt, previous_revision sound]
  rw [sound.receipts, last]
  simp

theorem last_revision {accepted : Accepted}
    (last : (ledger.ofWriter writer).getLast? = some accepted) :
    accepted.revision = some ((ledger.ofWriter writer).length : Int) := by
  have revisions := sound.revisions writer
  obtain ⟨front, split⟩ := List.getLast?_eq_some_iff.mp last
  rw [split] at revisions ⊢
  simp only [List.map_append, List.map_cons, List.map_nil, List.length_append, List.length_cons,
    List.length_nil, List.range_succ, Nat.zero_add] at revisions ⊢
  have ends := (List.append_inj' revisions rfl).2
  simpa using ends

theorem append_repeats {accepted : Accepted} (idle : store.pending = none)
    (last : (ledger.ofWriter writer).getLast? = some accepted)
    (same : accepted.content = .lines lines)
    (checked : checkLines source lines (some writer) accepted.revision false = .ok ()) :
    append services source lines (some writer) accepted.revision false store =
      .ok (accepted.sequence, store) := by
  have receipt := check_receipt_last sound last
  rw [same] at receipt
  rw [last_revision sound last] at checked ⊢
  have known : checkSource source = .ok () := by
    simp only [checkLines] at checked
    split_ifs at checked with invalid large slot
    exact check_source_of_writer (Bool.and_eq_true _ _ ▸ slot).1
  simp only [append, examine, checked, known, ok_bind, checkPending, idle, Option.isSome_some,
    if_true, Bool.false_eq_true, if_false]
  rw [show services.hmac (linesBytes lines) = services.hmac (Content.lines lines).bytes from rfl,
    receipt]
  rfl

theorem append_stream_repeats {accepted : Accepted}
    (last : (ledger.ofWriter writer).getLast? = some accepted)
    (same : accepted.content = .physicalRecord chunks.flatten)
    (number : accepted.revision = some revision)
    (checked : checkStream source writer revision store = .ok ())
    (bounded : boundedChunks false chunks = true) (nonempty : chunks.flatten ≠ []) :
    appendStream services source chunks writer revision store =
      .ok (accepted.sequence, store) := by
  have receipt := check_receipt_last sound last
  rw [same] at receipt
  rw [last_revision sound last] at number
  obtain rfl := Option.some.inj number
  have examined := examine_stream_receipt sound checked bounded nonempty receipt
  simp only [appendStream, examined, ok_bind]

end

theorem lines_bytes_head (lines : List String) :
    ∃ rest, linesBytes lines = 91 :: rest := by
  have opened : ∃ rest, dumpsLines lines = '[' :: rest := by
    cases lines with
    | nil => exact ⟨_, rfl⟩
    | cons line lines => exact ⟨_, rfl⟩
  obtain ⟨rest, opened⟩ := opened
  refine ⟨(rest.utf8Encode).data.toList, ?_⟩
  have bracket : ['['].utf8Encode.data.toList = [91] := by decide
  rw [linesBytes, utf8Encode, String.toByteArray_ofList, opened, List.utf8Encode_cons]
  simp [bracket]

theorem content_bytes_injective {left right : Content} (same : left.bytes = right.bytes) :
    left = right := by
  have parted : ∀ lines data, linesBytes lines ≠ recordBytes data := by
    intro lines data equal
    obtain ⟨rest, head⟩ := lines_bytes_head lines
    have other : recordBytes data = 112 :: ((utf8Encode "hysical-record\x00") ++ data) := by
      have front : utf8Encode "physical-record\x00" = 112 :: utf8Encode "hysical-record\x00" := by
        decide
      rw [recordBytes, front, List.cons_append]
    rw [head, other] at equal
    exact absurd (List.cons.inj equal).1 (by decide)
  cases left with
  | lines given =>
    cases right with
    | lines others =>
      have texts := String.ofList_injective (utf8_encode_injective same)
      rw [dumps_lines_injective texts]
    | physicalRecord data => exact absurd same (parted given data)
  | physicalRecord data =>
    cases right with
    | lines others => exact absurd same.symm (parted others data)
    | physicalRecord others => rw [List.append_cancel_left same]

section

variable (injective : Function.Injective services.hmac) (sound : Sound services source ledger store)
include injective sound

/-- A batch under a writer's identity is taken up only as its next revision, and found
repeated only with the content of the last one. -/
theorem receipt_identity {content : Content} {earlier : Option Nat}
    (checked : checkReceipt store writer revision (services.hmac content.bytes) = .ok earlier) :
    revision = (ledger.ofWriter writer).length + 1 ∨
      ∃ accepted, (ledger.ofWriter writer).getLast? = some accepted ∧
        revision = (ledger.ofWriter writer).length ∧ accepted.content = content := by
  cases earlier with
  | none =>
    left
    rw [check_receipt_next checked, previous_revision sound]
  | some sequence =>
    obtain ⟨number, accepted, last, fingerprint, -⟩ := check_receipt_repeated sound checked
    exact .inr ⟨accepted, last, number, content_bytes_injective (injective fingerprint)⟩

theorem append_identity {result : Nat × Store}
    (done : append services source lines (some writer) (some revision) false store = .ok result) :
    revision = (ledger.ofWriter writer).length + 1 ∨
      ∃ accepted, (ledger.ofWriter writer).getLast? = some accepted ∧
        revision = (ledger.ofWriter writer).length ∧ accepted.content = .lines lines := by
  obtain ⟨finding, examined, -⟩ := bind_ok_iff.mp done
  obtain ⟨_, -, examined⟩ := bind_ok_iff.mp examined
  obtain ⟨_, -, examined⟩ := bind_ok_iff.mp examined
  obtain ⟨_, -, examined⟩ := bind_ok_iff.mp examined
  obtain ⟨earlier, receipt, -⟩ := bind_ok_iff.mp examined
  have covered : checkReceipt store writer revision (services.hmac (Content.lines lines).bytes) =
      .ok earlier := receipt
  exact receipt_identity injective sound covered

theorem append_stream_identity {result : Nat × Store}
    (done : appendStream services source chunks writer revision store = .ok result) :
    revision = (ledger.ofWriter writer).length + 1 ∨
      ∃ accepted, (ledger.ofWriter writer).getLast? = some accepted ∧
        revision = (ledger.ofWriter writer).length ∧
          accepted.content = .physicalRecord chunks.flatten := by
  obtain ⟨finding, examined, -⟩ := bind_ok_iff.mp done
  obtain ⟨earlier, receipt, -⟩ := examine_stream_ok sound examined
  have covered : checkReceipt store writer revision
      (services.hmac (Content.physicalRecord chunks.flatten).bytes) = .ok earlier := receipt
  exact receipt_identity injective sound covered

end

/-! ### Interrupted captures -/

theorem append_blocked {writer : Option String} {revision : Option Int}
    (pending : store.pending = some marker)
    (foreign : (writer, revision) ≠ (some marker.writer, some marker.revision)) :
    ∃ raised, append services source lines writer revision false store = .error raised := by
  cases done : append services source lines writer revision false store with
  | error raised => exact ⟨raised, rfl⟩
  | ok result =>
    exfalso
    obtain ⟨finding, examined, -⟩ := bind_ok_iff.mp done
    rcases examine_marker examined with ⟨idle, -⟩ | ⟨own, same, names, numbers⟩
    · simp [pending] at idle
    · obtain rfl := Option.some.inj (pending.symm.trans same)
      exact foreign (by rw [names, numbers])

theorem append_stream_blocked (pending : store.pending = some marker) :
    ∃ raised, appendStream services source chunks writer revision store = .error raised := by
  cases done : appendStream services source chunks writer revision store with
  | error raised => exact ⟨raised, rfl⟩
  | ok result =>
    exfalso
    obtain ⟨finding, examined, -⟩ := bind_ok_iff.mp done
    obtain ⟨_, checked, -⟩ := bind_ok_iff.mp examined
    simp only [checkStream, pending, Option.isSome_some, if_true] at checked
    split_ifs at checked with unknown
    obtain ⟨_, -, checked⟩ := bind_ok_iff.mp checked
    simp at checked

/-- No capture is past its first transaction. -/
def Waiting (capture : Option Capture) : Prop :=
  ∀ holder, capture = some holder → holder.stage = .recovering

def Recovered (ledger after : Ledger) (marker : CapturePending) : Prop :=
  ∃ prepared content, marker.prepared = some prepared ∧ ledger.staged = some content ∧
    (ledger.accept (some marker.writer) (some marker.revision) content
      prepared.batch.texts).accepted <+: after.accepted

theorem interrupted_step {world : World} {event : Event}
    (sound : Sound services source ledger world.store) (pending : world.store.pending = some marker)
    (waiting : Waiting world.capture)
    (foreign : ∀ lines, event ≠ .append lines (some marker.writer) (some marker.revision)) :
    ((step services source world event).1.store = world.store ∧
        observe services source world event ledger = ledger ∧
        Waiting (step services source world event).1.capture) ∨
      Recovered ledger (observe services source world event ledger) marker := by
  cases event with
  | append lines writer revision =>
    have other : (writer, revision) ≠ (some marker.writer, some marker.revision) := by
      intro same
      obtain ⟨rfl, rfl⟩ := Prod.mk.inj same
      exact foreign lines rfl
    have blocked : ∃ raised, append services source lines writer revision false world.store =
        .error raised := append_blocked pending other
    obtain ⟨raised, refused⟩ := blocked
    left
    simp only [step, observe, refused]
    exact ⟨trivial, trivial, waiting⟩
  | appendStream chunks writer revision =>
    have blocked : ∃ raised, appendStream services source chunks writer revision world.store =
        .error raised := append_stream_blocked pending
    obtain ⟨raised, refused⟩ := blocked
    left
    simp only [step, observe, refused]
    exact ⟨trivial, trivial, waiting⟩
  | beginCapture writer message =>
    left
    simp only [step, observe]
    split_ifs with unknown locked
    · exact ⟨rfl, trivial, waiting⟩
    · exact ⟨rfl, trivial, waiting⟩
    · refine ⟨rfl, trivial, ?_⟩
      intro holder same
      rw [← Option.some.inj same]
  | advanceCapture =>
    cases holder : world.capture with
    | none =>
      left
      simp only [step, observe, holder]
      exact ⟨trivial, trivial, holder ▸ waiting⟩
    | some capture =>
      have first := waiting capture holder
      cases ready : marker.prepared with
      | none =>
        left
        have stopped : captureTransaction services source capture world.store =
            .error (.valueError captureRecoveryMessage) := by
          simp [captureTransaction, first, finish_unprepared pending ready]
        simp only [step, observe, observeCapture, holder, stopped]
        refine ⟨trivial, trivial, ?_⟩
        intro other impossible
        simp at impossible
      | some prepared =>
        right
        obtain ⟨content, after, input, finished, _, _⟩ :=
          finish_staged sound pending ready
        have done : captureTransaction services source capture world.store =
            .ok (after, some .marking) := by
          simp [captureTransaction, first, finished]
        refine ⟨prepared, content, ready, input, ?_⟩
        simp only [observe, holder, observeCapture, done, first, Ledger.publish, pending,
          input, ready]
        exact List.prefix_rfl
  | crash =>
    left
    refine ⟨rfl, rfl, ?_⟩
    intro other impossible
    simp [step] at impossible

theorem interrupted_run {state : World × Ledger} (later : List Event)
    (sound : Sound services source state.2 state.1.store)
    (pending : state.1.store.pending = some marker) (waiting : Waiting state.1.capture)
    (foreign : ∀ lines, Event.append lines (some marker.writer) (some marker.revision) ∉ later) :
    ((runEvents services source state later).1.store = state.1.store ∧
        (runEvents services source state later).2 = state.2) ∨
      Recovered state.2 (runEvents services source state later).2 marker := by
  induction later generalizing state with
  | nil => exact .inl ⟨rfl, rfl⟩
  | cons event later induction =>
    have other : ∀ lines, event ≠ .append lines (some marker.writer) (some marker.revision) := by
      intro lines same
      exact foreign lines (same ▸ List.mem_cons_self)
    have rest : ∀ lines,
        Event.append lines (some marker.writer) (some marker.revision) ∉ later :=
      fun lines inside => foreign lines (List.mem_cons_of_mem _ inside)
    have kept := step_sound event sound
    rcases interrupted_step sound pending waiting other with ⟨stores, ledgers, waits⟩ | found
    · have again := @induction ((step services source state.1 event).1,
        observe services source state.1 event state.2) kept (by rw [stores, pending]) waits rest
      simpa only [runEvents, List.foldl_cons, stores, ledgers] using again
    · right
      obtain ⟨prepared, content, ready, input, published⟩ := found
      have extended := @run_extends services source ((step services source state.1 event).1,
        observe services source state.1 event state.2) later
      exact ⟨prepared, content, ready, input, published.trans extended⟩

end Runs

end Atlaso.Logs.RunIntegrity
