import Atlaso.Logs.CaptureRuns

/-!
The invariant of the producer log store: the rows are the numbered form of what the ledger
holds, the receipts are those of each writer's last batch, and a staged batch still fits
behind the last row. Each transaction that publishes a batch extends the ledger by that
batch and keeps the invariant.
-/

namespace Atlaso.Logs.StoreIntegrity

open Library Dictionary NumberedLog Outcomes ProducerStore CaptureRuns

/-! ### Statements -/

theorem zip_strict_ok {texts : List String} {charges : List Nat} {rows : List (String × Nat)}
    (zipped : zipStrict texts charges = .ok rows) :
    texts.length = charges.length ∧ rows = texts.zip charges := by
  simp only [zipStrict] at zipped
  split_ifs at zipped with shorter longer
  exact ⟨by omega, (Except.ok.inj zipped).symm⟩

theorem zip_strict_of_length {texts : List String} {charges : List Nat}
    (lengths : texts.length = charges.length) :
    zipStrict texts charges = .ok (texts.zip charges) := by
  simp [zipStrict, lengths]

theorem insert_rows_ok (rows : List (String × Nat)) (place : Nat × Nat)
    (records : List (Record String)) (behind : ∀ record ∈ records, record.sequence ≤ place.1) :
    insertRows rows place records = .ok ((place.1 + rows.length, place.2 + total rows),
      records ++ numbered place.1 place.2 rows) := by
  induction rows generalizing place records with
  | nil => simp [insertRows, numbered]
  | cons row rows induction =>
    have free : (records.any fun other => decide (other.sequence = place.1 + 1)) = false := by
      rw [List.any_eq_false]
      intro other inside
      have := behind other inside
      simp only [decide_eq_true_eq]
      omega
    have later : ∀ record ∈ records ++ [⟨place.1 + 1, place.2 + row.2, row.1⟩],
        record.sequence ≤ place.1 + 1 := by
      intro record inside
      rcases List.mem_append.mp inside with old | new
      · exact Nat.le_succ_of_le (behind record old)
      · rw [List.mem_singleton.mp new]
    simp only [insertRows, insertRecord, free, Bool.false_eq_true, if_false, ok_bind]
    rw [induction (place.1 + 1, place.2 + row.2) _ later]
    simp only [numbered, total_cons, List.length_cons, List.append_assoc,
      List.singleton_append]
    rw [Nat.add_assoc place.1, Nat.add_comm 1, Nat.add_assoc place.2]

/-! ### The invariant -/

section Integrity

variable (services : Services) (source : String)

structure Describes (content : Content) (batch : Batch) : Prop where
  charges : batch.charges = content.charges
  lengths : batch.texts.length = batch.charges.length
  nonempty : batch.texts ≠ []
  scans : services.Scans batch.parser

structure Staged (ledger : Ledger) (store : Store) (marker : CapturePending)
    (prepared : Prepared) (content : Content) : Prop where
  input : ledger.staged = some content
  base : prepared.base = store.producer.getD (0, 0)
  producer : store.producer.isSome
  checkpoint : (getItem marker.writer store.checkpoints).isSome
  describes : Describes services content prepared.batch
  fingerprint : prepared.batch.fingerprint = services.hmac content.bytes

structure Sound (ledger : Ledger) (store : Store) : Prop where
  retained : Retains store.records ledger.rows
  whole : source ≠ "app" → store.records = numbered 0 0 ledger.rows
  place : store.producer.getD (0, 0) = (ledger.rows.length, total ledger.rows)
  complete : ∀ accepted ∈ ledger.accepted,
    accepted.texts.length = accepted.content.charges.length ∧ accepted.texts ≠ []
  numbering : ∀ before accepted after, ledger.accepted = before ++ accepted :: after →
    accepted.sequence = ledger.legacy.length + (before.flatMap Accepted.rows).length +
      accepted.texts.length
  receipts : ∀ writer, getItem writer store.receipts =
    (ledger.ofWriter writer).getLast?.map fun accepted =>
      ⟨(ledger.ofWriter writer).length, services.hmac accepted.content.bytes, accepted.sequence⟩
  revisions : ∀ writer, (ledger.ofWriter writer).map Accepted.revision =
    (List.range (ledger.ofWriter writer).length).map fun index : Nat => some ((index : Int) + 1)
  marker : ∀ marker, store.pending = some marker →
    marker.revision = (ledger.ofWriter marker.writer).length + 1 ∧
      ∀ prepared, marker.prepared = some prepared →
        ∃ content, Staged services ledger store marker prepared content
  scans : ∀ row ∈ store.checkpoints, services.Scans row.2.parser

variable {services source}

variable {ledger : Ledger} {store : Store} {batch : Batch} {writer : Option String}
  {revision : Option Int} {lines : List String} {data : List UInt8} {reading : Reading}
  {chunks : List (List UInt8)}

section

variable (sound : Sound services source ledger store)
include sound

theorem records_behind :
    ∀ record ∈ store.records, record.sequence ≤ (store.producer.getD (0, 0)).1 := by
  intro record inside
  obtain ⟨dropped, eq, _⟩ := sound.retained
  rw [eq] at inside
  have bounds := mem_numbered_bounds (List.mem_of_mem_drop inside)
  rw [sound.place]
  omega

theorem previous_revision (writer : String) :
    ((getItem writer store.receipts).map Receipt.revision).getD 0 =
      ((ledger.ofWriter writer).length : Int) := by
  rw [sound.receipts]
  cases last : (ledger.ofWriter writer).getLast? with
  | none => simp [List.getLast?_eq_none_iff.mp last]
  | some accepted => simp

theorem scans_checkpoint (slot : String) :
    services.Scans ((getItem slot store.checkpoints).getD ⟨false, []⟩).parser := by
  cases found : getItem slot store.checkpoints with
  | none => exact services.scans_empty
  | some checkpoint => exact sound.scans (slot, checkpoint) (mem_of_get_item found)

/-! ### Publishing a batch -/

/-- The store once the batch's rows stand behind `place`. -/
def published (source slot : String) (identity : Option (String × Int)) (batch : Batch)
    (place : Nat × Nat) (store : Store) : Store where
  producer := some (place.1 + (batch.texts.zip batch.charges).length,
    place.2 + total (batch.texts.zip batch.charges))
  checkpoints := setItem slot ⟨batch.privateKey, batch.parser⟩ store.checkpoints
  records := expire source (place.2 + total (batch.texts.zip batch.charges))
    (store.records ++ numbered place.1 place.2 (batch.texts.zip batch.charges))
  receipts := match identity with
    | some (writer, revision) => setItem writer ⟨revision, batch.fingerprint,
        place.1 + (batch.texts.zip batch.charges).length⟩ store.receipts
    | none => store.receipts
  pending := none

theorem publish_ok (lengths : batch.texts.length = batch.charges.length) (slot : String)
    (identity : Option (String × Int)) :
    publish source slot identity batch store =
      .ok ((store.producer.getD (0, 0)).1 + batch.texts.length,
        published source slot identity batch (store.producer.getD (0, 0)) store) := by
  have sizes : (batch.texts.zip batch.charges).length = batch.texts.length := by
    simp [List.length_zip, lengths]
  simp only [publish, zip_strict_of_length lengths, ok_bind,
    insert_rows_ok _ _ _ (records_behind sound), published, sizes] <;> rfl

end

/-- The identity a batch is written under: none, or a writer's next revision with the
fingerprint of its content. -/
def NextIdentity (services : Services) (ledger : Ledger) (writer : Option String)
    (revision : Option Int) (content : Content) (fingerprint : List UInt8) : Prop :=
  (writer = none ∧ revision = none) ∨
    ∃ name, writer = some name ∧ revision = some (((ledger.ofWriter name).length : Int) + 1) ∧
      fingerprint = services.hmac content.bytes

theorem rows_accept (ledger : Ledger) (writer : Option String) (revision : Option Int)
    (content : Content) (texts : List String) :
    (ledger.accept writer revision content texts).rows =
      ledger.rows ++ texts.zip content.charges := by
  simp [Ledger.accept, Ledger.rows, Accepted.rows]

theorem of_writer_accept (ledger : Ledger) (writer : Option String) (revision : Option Int)
    (content : Content) (texts : List String) (name : String) :
    (ledger.accept writer revision content texts).ofWriter name =
      if writer = some name then ledger.ofWriter name ++
        [⟨writer, revision, content, texts, ledger.rows.length + texts.length⟩]
      else ledger.ofWriter name := by
  by_cases same : writer = some name
  · simp [Ledger.accept, Ledger.ofWriter, same]
  · simp [Ledger.accept, Ledger.ofWriter, same]

theorem retains_published {content : Content} (sound : Sound services source ledger store)
    (describes : Describes services content batch) (slot : String)
    (identity : Option (String × Int)) (writer : Option String) (revision : Option Int) :
    Retains (published source slot identity batch (store.producer.getD (0, 0)) store).records
        (ledger.accept writer revision content batch.texts).rows ∧
      (source ≠ "app" →
        (published source slot identity batch (store.producer.getD (0, 0)) store).records =
          numbered 0 0 (ledger.accept writer revision content batch.texts).rows) := by
  have rows : (ledger.accept writer revision content batch.texts).rows =
      ledger.rows ++ batch.texts.zip batch.charges := by
    rw [rows_accept, describes.charges]
  have grown := retains_append sound.retained (batch.texts.zip batch.charges)
  rw [rows]
  simp only [published, sound.place, expire]
  constructor
  · split_ifs with app
    · have expired := retains_expire grown RETAINED_BYTES (by decide)
      rw [total_append] at expired
      exact expired
    · exact grown
  · intro other
    rw [if_neg other, sound.whole other, numbered_append, Nat.zero_add, Nat.zero_add]

theorem sound_published {content : Content} (sound : Sound services source ledger store)
    (describes : Describes services content batch)
    (next : NextIdentity services ledger writer revision content batch.fingerprint)
    (slot : String) :
    Sound services source (ledger.accept writer revision content batch.texts)
      (published source slot (identityOf writer revision) batch (store.producer.getD (0, 0))
        store) := by
  have sizes : (batch.texts.zip batch.charges).length = batch.texts.length := by
    simp [List.length_zip, describes.lengths]
  have rows : (ledger.accept writer revision content batch.texts).rows =
      ledger.rows ++ batch.texts.zip batch.charges := by
    rw [rows_accept, describes.charges]
  have kept := retains_published sound describes slot (identityOf writer revision) writer revision
  refine ⟨kept.1, kept.2, ?_, ?_, ?_, ?_, ?_, ?_, ?_⟩
  · simp only [published, Option.getD_some, sound.place, rows, List.length_append, total_append]
  · intro accepted inside
    simp only [Ledger.accept, List.mem_append, List.mem_singleton] at inside
    rcases inside with old | rfl
    · exact sound.complete accepted old
    · exact ⟨by rw [describes.lengths, describes.charges], describes.nonempty⟩
  · intro before accepted after split
    simp only [Ledger.accept] at split ⊢
    rcases List.eq_nil_or_concat after with rfl | ⟨init, last, rfl⟩
    · obtain ⟨same, tail⟩ := List.append_inj' split rfl
      rw [← (List.cons.inj tail).1, ← same]
      simp [Ledger.rows, Nat.add_assoc]
    · refine sound.numbering before accepted init ?_
      have reshaped : ledger.accepted ++
          [⟨writer, revision, content, batch.texts, ledger.rows.length + batch.texts.length⟩] =
            (before ++ accepted :: init) ++ [last] := by
        rw [split]
        simp
      exact (List.append_inj' reshaped rfl).1
  · intro name
    rw [of_writer_accept]
    rcases next with ⟨rfl, rfl⟩ | ⟨own, rfl, rfl, fingerprint⟩
    · simpa [published, identityOf] using sound.receipts name
    · simp only [published, identityOf, Option.some.injEq]
      rw [get_item_set_item]
      by_cases same : own = name
      · subst same
        simp [fingerprint, sound.place, sizes]
      · have different : ¬name = own := fun equal => same equal.symm
        rw [if_neg different, if_neg same]
        exact sound.receipts name
  · intro name
    rw [of_writer_accept]
    rcases next with ⟨rfl, rfl⟩ | ⟨own, rfl, rfl, _⟩
    · simpa using sound.revisions name
    · by_cases same : own = name
      · subst same
        simp [sound.revisions own, List.range_succ]
      · have different : ¬some own = some name := fun equal => same (Option.some.inj equal)
        rw [if_neg different]
        exact sound.revisions name
  · intro marker impossible
    simp [published] at impossible
  · intro row inside
    rcases mem_set_item inside with rfl | old
    · exact describes.scans
    · exact sound.scans row old

/-! ### What the checks of a call establish -/

theorem check_source_of_writer {writer : String} (slot : (WRITERS source).contains writer = true) :
    checkSource source = .ok () := by
  by_cases listed : SOURCES.contains source = true
  · simp only [checkSource, listed, if_true]
  · have foreign : source ≠ "app" := by
      rintro rfl
      exact listed (by decide)
    rw [WRITERS, if_neg foreign, if_neg listed] at slot
    simp at slot

variable {fingerprint : List UInt8} {prepareOnly : Bool}

theorem check_receipt_next {writer : String} {revision : Int}
    (checked : checkReceipt store writer revision fingerprint = .ok none) :
    revision = ((getItem writer store.receipts).map Receipt.revision).getD 0 + 1 := by
  simp only [checkReceipt] at checked
  split at checked
  · split_ifs at checked with repeated jump
    · simp at checked
    · exact not_not.mp jump
  · split_ifs at checked with jump
    exact not_not.mp jump

theorem check_lines_some (checked : checkLines source lines writer revision prepareOnly = .ok ()) :
    lines ≠ [] ∧ ((writer = none ∧ revision = none) ∨
      ∃ name number, writer = some name ∧ revision = some number) := by
  simp only [checkLines] at checked
  split_ifs at checked with invalid large
  refine ⟨?_, ?_⟩
  · rintro rfl
    simp at invalid
  · cases writer with
    | none =>
      cases revision with
      | none => exact .inl ⟨rfl, rfl⟩
      | some number => simp at checked
    | some name =>
      cases revision with
      | none => simp at checked
      | some number => exact .inr ⟨name, number, rfl, rfl⟩

theorem sanitize_describes {slot : String} (sound : Sound services source ledger store)
    (nonempty : lines ≠ [])
    (sanitized : sanitize services slot lines fingerprint store = .ok batch) :
    Describes services (.lines lines) batch ∧ batch.fingerprint = fingerprint := by
  obtain ⟨result, scanned, scans⟩ := services.scans_result lines
    ((getItem slot store.checkpoints).getD ⟨false, []⟩).privateKey _ (scans_checkpoint sound slot)
  simp only [sanitize, scanned, ok_bind] at sanitized
  obtain ⟨concealed, -, sanitized⟩ := bind_ok_iff.mp sanitized
  obtain ⟨rows, zipped, sanitized⟩ := bind_ok_iff.mp sanitized
  obtain ⟨lengths, rfl⟩ := zip_strict_ok zipped
  obtain rfl := Except.ok.inj sanitized
  simp only [List.length_map] at lengths
  have sizes : (result.1.length) = lines.length := lengths
  refine ⟨⟨rfl, ?_, ?_, scans⟩, rfl⟩
  · simp [sizes]
  · have some : 0 < lines.length := List.length_pos_iff.mpr nonempty
    refine List.length_pos_iff.mp ?_
    simp only [List.length_map, List.length_zip, sizes]
    omega

theorem examine_fresh (sound : Sound services source ledger store)
    (examined : examine services source lines writer revision prepareOnly store = .ok (.fresh
      batch)) :
    Describes services (.lines lines) batch ∧
      NextIdentity services ledger writer revision (.lines lines) batch.fingerprint := by
  obtain ⟨_, checked, examined⟩ := bind_ok_iff.mp examined
  obtain ⟨nonempty, identity⟩ := check_lines_some checked
  obtain ⟨_, -, examined⟩ := bind_ok_iff.mp examined
  obtain ⟨_, -, examined⟩ := bind_ok_iff.mp examined
  rcases identity with ⟨rfl, rfl⟩ | ⟨name, number, rfl, rfl⟩
  · obtain ⟨_, sanitized, same⟩ := bind_ok_iff.mp examined
    obtain rfl := Finding.fresh.inj (Except.ok.inj same)
    exact ⟨(sanitize_describes sound nonempty sanitized).1, .inl ⟨rfl, rfl⟩⟩
  · obtain ⟨earlier, receipt, examined⟩ := bind_ok_iff.mp examined
    cases earlier with
    | some sequence => simp at examined
    | none =>
      obtain ⟨_, sanitized, same⟩ := bind_ok_iff.mp examined
      obtain rfl := Finding.fresh.inj (Except.ok.inj same)
      obtain ⟨describes, fingerprint⟩ := sanitize_describes sound nonempty sanitized
      refine ⟨describes, .inr ⟨name, rfl, ?_, fingerprint⟩⟩
      rw [check_receipt_next receipt, previous_revision sound]

/-! ### Streamed records -/

/-- The loop over the chunks has read `data`. -/
structure Read (services : Services) (data : List UInt8) (reading : Reading) : Prop where
  input : reading.input = data
  charge : reading.charge = data.length
  scans : services.Scans reading.parser

theorem scan_fragment_read {text : String} {after : Reading} (read : Read services data reading)
    (scanned : scanFragment services text reading = .ok after) : Read services data after := by
  obtain ⟨result, fine, scans⟩ :=
    services.scans_result [text] reading.privateKey reading.parser read.scans
  simp only [scanFragment, fine, ok_bind] at scanned
  obtain rfl := Except.ok.inj scanned
  exact ⟨read.input, read.charge, scans⟩

theorem read_chunk_read {chunk : List UInt8} {after : Reading} (read : Read services data reading)
    (done : readChunk services reading chunk = .ok after) :
    Read services (data ++ chunk) after := by
  have grown : reading.input ++ chunk = data ++ chunk ∧
      reading.charge + chunk.length = (data ++ chunk).length := by
    rw [read.input, read.charge, List.length_append]
    exact ⟨rfl, rfl⟩
  obtain ⟨fragment, named⟩ :
      ∃ fragment, (if chunk.contains 10 then chunk.dropLast else chunk) = fragment := ⟨_, rfl⟩
  simp only [readChunk, named] at done
  split_ifs at done with unbounded several oversized large
  · refine scan_fragment_read ?_ done
    exact ⟨grown.1, grown.2, read.scans⟩
  · refine scan_fragment_read ?_ done
    exact ⟨grown.1, grown.2, read.scans⟩
  · obtain rfl := Except.ok.inj done
    exact ⟨grown.1, grown.2, read.scans⟩

theorem chunks_read {after : Reading} (read : Read services data reading)
    (done : chunks.foldlM (readChunk services) reading = .ok after) :
    Read services (data ++ chunks.flatten) after := by
  induction chunks generalizing data reading with
  | nil =>
    obtain rfl := Except.ok.inj done
    simpa using read
  | cons chunk chunks induction =>
    rw [List.foldlM_cons] at done
    obtain ⟨middle, first, rest⟩ := bind_ok_iff.mp done
    have later := induction (read_chunk_read read first) rest
    rwa [List.flatten_cons, ← List.append_assoc]

theorem read_chunks_read {checkpoint : Checkpoint} (scans : services.Scans checkpoint.parser)
    (done : readChunks services checkpoint chunks = .ok reading) :
    Read services chunks.flatten reading := by
  obtain ⟨after, looped, done⟩ := bind_ok_iff.mp done
  split_ifs at done with empty
  obtain rfl := Except.ok.inj done
  have start : Read services [] ⟨[], 0, false, false, [], checkpoint.privateKey,
      checkpoint.parser, []⟩ := ⟨rfl, rfl, scans⟩
  simpa using chunks_read start looped

/-- The end of a record never fails on a marker state that the scanner has written. -/
theorem finish_reading_scans (read : Read services data reading) :
    ∃ result, finishReading services reading = .ok result ∧ services.Scans result.2.2 := by
  by_cases oversized : reading.oversized = true
  · obtain ⟨result, fine, scans⟩ := services.scans_result
      [(Library.LineText.decodeReplacing true reading.kept).1] reading.privateKey reading.parser
        read.scans
    refine ⟨(oversizedNotice, result.2.1, result.2.2), ?_, scans⟩
    simp [finishReading, oversized, scanFragment, fine]
  · obtain ⟨result, fine, scans⟩ := services.scans_result
      [removeCarriage (Library.LineText.decodeReplacing true reading.pending).1] reading.privateKey
        reading.parser read.scans
    refine ⟨(String.intercalate " " (result.1.map services.redactOperationalText), result.2.1,
      result.2.2), ?_, scans⟩
    simp [finishReading, oversized, fine]

theorem examine_stream_ok {writer : String} {revision : Int} {finding : Finding}
    (sound : Sound services source ledger store)
    (examined : examineStream services source chunks writer revision store = .ok finding) :
    ∃ earlier, checkReceipt store writer revision
        (services.hmac (recordBytes chunks.flatten)) = .ok earlier ∧
      ((∃ sequence, earlier = some sequence ∧ finding = .repeated sequence) ∨
        (earlier = none ∧ ∃ batch, finding = .fresh batch ∧
          Describes services (.physicalRecord chunks.flatten) batch ∧
          batch.fingerprint = services.hmac (recordBytes chunks.flatten))) := by
  obtain ⟨_, -, examined⟩ := bind_ok_iff.mp examined
  obtain ⟨reading, looped, examined⟩ := bind_ok_iff.mp examined
  have read := read_chunks_read (scans_checkpoint sound writer) looped
  obtain ⟨result, fine, scans⟩ := finish_reading_scans read
  simp only [fine, ok_bind, read.input] at examined
  obtain ⟨earlier, receipt, examined⟩ := bind_ok_iff.mp examined
  refine ⟨earlier, receipt, ?_⟩
  cases earlier with
  | some sequence => exact .inl ⟨sequence, rfl, (Except.ok.inj examined).symm⟩
  | none =>
    obtain ⟨concealed, -, examined⟩ := bind_ok_iff.mp examined
    refine .inr ⟨rfl, _, (Except.ok.inj examined).symm, ⟨?_, rfl, ?_, scans⟩, rfl⟩
    · simp [Content.charges, read.charge]
    · simp

end Integrity

end Atlaso.Logs.StoreIntegrity
