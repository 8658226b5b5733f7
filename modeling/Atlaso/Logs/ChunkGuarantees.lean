import Atlaso.Logs.ChunkedRecords

/-!
When the division of a record into chunks makes no difference to what `append_stream` stores.

A record of at most 64 KiB is stored alike. Of a longer one the row, the charge, the state of
the search and the fingerprint are alike, and the flag of an open key is, unless it is only
raised by a piece that happens to end inside a marker.
-/

namespace Atlaso.Logs.ChunkGuarantees

open ChunkedRecords PemCarry PemMarkers ProducerStore SafeLines Library ByteWords Dictionary
open LineText Outcomes TextStreams

section Readings

variable (sha256 : List UInt8 → Digest) (redactTaskValue redactOperationalText : String → String)
variable (hmac : List UInt8 → List UInt8)

def keyOpen (checkpoint : Checkpoint) (state : State) (record : List UInt8) : Bool :=
  (scan sha256 state (lineBytes (decoded true (content record)).1)).2.getD checkpoint.privateKey

/-- Behind the last marker, a scanned piece of the record ends inside the first token or the
label of a marker that opens something. -/
def splitInside (state : State) (chunks : List (List UInt8)) : Bool :=
  endsInside sha256 state ((pieces (scannedTexts [] (chunks.map fragment))).map utf8Encode)

def startReading (checkpoint : Checkpoint) : Reading :=
  ⟨[], 0, false, false, [], checkpoint.privateKey, checkpoint.parser, []⟩

variable {chunks : List (List UInt8)} {checkpoint : Checkpoint}

theorem chunking_rest {record : List UInt8} (checkpoint : Checkpoint)
    (physical : 10 ∉ record.dropLast) (divided : Chunking record chunks) :
    Rest (startReading checkpoint) chunks :=
  ⟨divided.sized, by rw [divided.whole]; exact physical, fun _ => rfl⟩

theorem chunking_fragments {record : List UInt8} (physical : 10 ∉ record.dropLast)
    (divided : Chunking record chunks) :
    (chunks.map fragment).flatten = content record := by
  have checkpoint : Checkpoint := ⟨false, []⟩
  rw [fragments_flatten (chunking_rest checkpoint physical divided), divided.whole]

/-- What `append_stream` knows of a record when it has read it. -/
structure Known where
  oversized : Bool
  charge : Nat
  input : List UInt8
  result : String × Bool × Parser

def readRecord (services : Services) (checkpoint : Checkpoint) (chunks : List (List UInt8)) :
    Except Raised Known := do
  let reading ← readChunks services checkpoint chunks
  let result ← finishReading services reading
  .ok ⟨reading.oversized, reading.charge, reading.input, result⟩

/-- What `append_stream` finds of a record that it has read. -/
def judge (services : Services) (writer : String) (revision : Int) (store : Store)
    (known : Known) : Except Raised Finding := do
  match ← checkReceipt store writer revision (services.hmac (recordBytes known.input)) with
  | some sequence => .ok (.repeated sequence)
  | none => do
      let concealed ← anyConceals store writer
      .ok (.fresh {
        texts := [if concealed && !known.oversized then concealedText else known.result.1]
        charges := [known.charge]
        privateKey := known.result.2.1
        parser := known.result.2.2
        fingerprint := services.hmac (recordBytes known.input) })

theorem examine_known (services : Services) (source writer : String) (revision : Int)
    (store : Store) (chunks : List (List UInt8)) :
    examineStream services source chunks writer revision store = (do
      checkStream source writer revision store
      let known ← readRecord services
        ((getItem writer store.checkpoints).getD ⟨false, []⟩) chunks
      judge services writer revision store known) := by
  unfold examineStream readRecord judge
  cases checkStream source writer revision store with
  | error raised => rfl
  | ok checked =>
    simp only [ok_bind]
    cases readChunks services ((getItem writer store.checkpoints).getD ⟨false, []⟩) chunks with
    | error raised => rfl
    | ok reading =>
      simp only [ok_bind]
      cases finishReading services reading with
      | error raised => rfl
      | ok result => rfl

theorem judge_flag {services : Services} {writer : String} {revision : Int} {store : Store}
    {known : Known} {batch : Batch} (flag : Bool)
    (fresh : judge services writer revision store known = .ok (.fresh batch)) :
    judge services writer revision store
        { known with result := (known.result.1, flag, known.result.2.2) } =
          .ok (.fresh { batch with privateKey := flag }) ∧
      batch.privateKey = known.result.2.1 := by
  unfold judge at fresh ⊢
  obtain ⟨receipt, checked, fresh⟩ := bind_ok_iff.mp fresh
  cases receipt with
  | some sequence => exact absurd fresh nofun
  | none =>
    obtain ⟨concealed, others, fresh⟩ := bind_ok_iff.mp fresh
    cases fresh
    rw [checked, ok_bind]
    simp only [others, ok_bind]
    exact ⟨trivial, trivial⟩

theorem read_record_short {services : Services} {record : List UInt8}
    {first second : List (List UInt8)} (physical : 10 ∉ record.dropLast)
    (firstDivided : Chunking record first) (secondDivided : Chunking record second)
    (short : (content record).length ≤ 65536) :
    readRecord services checkpoint first = readRecord services checkpoint second := by
  have firstParts := chunking_fragments physical firstDivided
  have secondParts := chunking_fragments physical secondDivided
  obtain ⟨left, leftRead, leftSmall, leftCharge, leftInput, leftPending, leftFlag, leftParser⟩ :=
    @short_chunks (startReading checkpoint) first services rfl
      (chunking_rest checkpoint physical firstDivided) (by rw [firstParts]; exact short)
  obtain ⟨right, rightRead, rightSmall, rightCharge, rightInput, rightPending, rightFlag,
    rightParser⟩ := @short_chunks (startReading checkpoint) second services rfl
      (chunking_rest checkpoint physical secondDivided) (by rw [secondParts]; exact short)
  rw [firstDivided.whole] at leftCharge leftInput
  rw [secondDivided.whole] at rightCharge rightInput
  rw [firstParts] at leftPending
  rw [secondParts] at rightPending
  have charges : left.charge = right.charge := leftCharge.trans rightCharge.symm
  have inputs : left.input = right.input := leftInput.trans rightInput.symm
  have finished : finishReading services left = finishReading services right := by
    unfold finishReading
    rw [leftSmall, rightSmall, leftPending, rightPending, leftFlag, rightFlag, leftParser,
      rightParser]
    rfl
  unfold readRecord readChunks
  change ((first.foldlM (readChunk services) (startReading checkpoint) >>= _) >>= _) =
    ((second.foldlM (readChunk services) (startReading checkpoint) >>= _) >>= _)
  rw [leftRead, rightRead, ok_bind, ok_bind, charges]
  by_cases empty : right.charge = 0
  · rw [if_pos empty, if_pos empty]
  · rw [if_neg empty, if_neg empty, ok_bind, ok_bind, finished, leftSmall, rightSmall, charges,
      inputs]

theorem read_record_long {state : State} {record : List UInt8} (physical : 10 ∉ record.dropLast)
    (divided : Chunking record chunks) (long : 65536 < (content record).length)
    (starts : Starts checkpoint.privateKey checkpoint.parser state) :
    readRecord (capture sha256 redactTaskValue redactOperationalText hmac) checkpoint chunks =
      .ok ⟨true, record.length, record,
        outcome sha256 (holds checkpoint.parser) (checkpoint.privateKey, state)
          (scannedTexts [] (chunks.map fragment)) checkpoint.parser⟩ := by
  have parts := chunking_fragments physical divided
  obtain ⟨after, read, large, charge, input, done⟩ :=
    @long_chunks sha256 redactTaskValue redactOperationalText hmac (startReading checkpoint)
      chunks state rfl rfl (Nat.zero_le _) (chunking_rest checkpoint physical divided) starts
      (by rw [parts]; exact long)
  rw [divided.whole] at charge input
  have counted : after.charge = record.length := charge.trans (Nat.zero_add _)
  have known : after.input = record := input.trans (List.nil_append _)
  have some : after.charge ≠ 0 := by
    rw [counted]
    intro empty
    rw [List.length_eq_zero_iff.mp empty] at long
    exact absurd long (by decide)
  unfold readRecord readChunks
  change ((chunks.foldlM _ (startReading checkpoint) >>= _) >>= _) = _
  rw [read, ok_bind, if_neg some, ok_bind, done, ok_bind, large, counted, known]
  rfl

theorem long_texts {record : List UInt8} (physical : 10 ∉ record.dropLast)
    (divided : Chunking record chunks) (long : 65536 < (content record).length) :
    (scannedTexts [] (chunks.map fragment)).flatten = (decoded true (content record)).1 := by
  have parts := chunking_fragments physical divided
  rw [scanned_texts_flatten (Nat.zero_le _) (by rw [List.nil_append, parts]; exact long),
    List.nil_append, parts]

theorem scanned_texts_nonempty {pending : List UInt8} {parts : List (List UInt8)}
    (small : pending.length ≤ 65536) (long : 65536 < (pending ++ parts.flatten).length) :
    scannedTexts pending parts ≠ [] := by
  induction parts generalizing pending with
  | nil =>
    rw [List.flatten_nil, List.append_nil] at long
    omega
  | cons part parts induction =>
    rw [scannedTexts]
    by_cases exceeds : 65536 < pending.length + part.length
    · rw [if_pos exceeds]
      exact List.cons_ne_nil _ _
    · rw [if_neg exceeds]
      rw [List.flatten_cons, ← List.append_assoc] at long
      refine induction ?_ long
      rw [List.length_append]
      omega

theorem pieces_nonempty {texts : List (List Char)} (some : texts ≠ []) : pieces texts ≠ [] := by
  cases texts with
  | nil => exact absurd rfl some
  | cons text texts =>
    rw [pieces, List.flatMap_cons]
    exact List.append_ne_nil_of_left_ne_nil (capture_lines_nonempty _) _

theorem behind_state {state : State} {record : List UInt8} (valid : Valid state) (hold flag : Bool)
    (physical : 10 ∉ record.dropLast) (divided : Chunking record chunks)
    (long : 65536 < (content record).length) :
    (behind sha256 hold (flag, state) (scannedTexts [] (chunks.map fragment))).2 =
      (scan sha256 state (lineBytes (decoded true (content record)).1)).1 := by
  unfold behind
  rw [follow_state sha256 hold flag valid, pieces_bytes, long_texts physical divided long]

theorem behind_flag {state : State} {record : List UInt8} (valid : Valid state)
    (physical : 10 ∉ record.dropLast) (divided : Chunking record chunks)
    (long : 65536 < (content record).length) :
    (behind sha256 (holds checkpoint.parser) (checkpoint.privateKey, state)
      (scannedTexts [] (chunks.map fragment))).1 =
      (holds checkpoint.parser || (keyOpen sha256 checkpoint state record ||
        splitInside sha256 state chunks)) := by
  unfold behind
  cases holds checkpoint.parser with
  | false =>
    rw [follow_flag sha256 _ valid, pieces_bytes, long_texts physical divided long]
    rfl
  | true =>
    have parts := chunking_fragments physical divided
    have texts := @scanned_texts_nonempty [] (chunks.map fragment) (Nat.zero_le _)
      (by rw [List.nil_append, parts]; exact long)
    refine follow_held sha256 _ _ ?_
    exact mt List.map_eq_nil_iff.mp (pieces_nonempty texts)

end Readings

section Stored

variable (sha256 : List UInt8 → Digest) (redactTaskValue redactOperationalText : String → String)
variable (hmac : List UInt8 → List UInt8)

def checkpointOf (store : Store) (writer : String) : Checkpoint :=
  (getItem writer store.checkpoints).getD ⟨false, []⟩

/-- Two divisions of a record that make no difference: the record is short, the checkpoint is
held, a key is open behind the record anyway, or a piece ends inside a marker in both or in
neither. -/
def Alike (checkpoint : Checkpoint) (record : List UInt8) (first second : List (List UInt8)) :
    Prop :=
  (content record).length ≤ 65536 ∨ holds checkpoint.parser = true ∨
    ∃ state, Starts checkpoint.privateKey checkpoint.parser state ∧
      (keyOpen sha256 checkpoint state record = true ∨
        splitInside sha256 state first = splitInside sha256 state second)

theorem stored_starts {checkpoint : Checkpoint}
    (stored : (capture sha256 redactTaskValue redactOperationalText hmac).Scans
      checkpoint.parser) :
    ∃ state, Starts checkpoint.privateKey checkpoint.parser state := by
  have known : (readState ((getItem "carry" checkpoint.parser).getD "")).isSome = true := stored
  unfold Starts startState
  split_ifs with opened
  · have readable : (readState openState).isSome = true := by decide +kernel
    exact Option.isSome_iff_exists.mp readable
  · exact Option.isSome_iff_exists.mp known

variable {batch : Batch} {store : Store} {result : Nat × Store}

theorem publish_checkpoint {source slot : String} {identity : Option (String × Int)}
    (published : publish source slot identity batch store = .ok result) :
    getItem slot result.2.checkpoints = some ⟨batch.privateKey, batch.parser⟩ := by
  unfold publish at published
  obtain ⟨rows, -, published⟩ := bind_ok_iff.mp published
  obtain ⟨⟨⟨sequence, byteEnd⟩, records⟩, -, published⟩ := bind_ok_iff.mp published
  cases published
  rw [get_item_set_item, if_pos rfl]

theorem publish_flag_iff {source slot : String} {identity : Option (String × Int)} (flag : Bool)
    (published : publish source slot identity batch store = .ok result) :
    publish source slot identity { batch with privateKey := flag } store = .ok result ↔
      flag = batch.privateKey := by
  constructor
  · intro other
    have left := publish_checkpoint published
    have right := publish_checkpoint other
    rw [left] at right
    exact (congrArg Checkpoint.privateKey (Option.some.inj right)).symm
  · intro same
    rw [same]
    exact published

theorem alike_flags_iff (hold openKey first second : Bool) :
    (hold || (openKey || second)) = (hold || (openKey || first)) ↔
      hold = true ∨ openKey = true ∨ first = second := by
  cases hold <;> cases openKey <;> cases first <;> cases second <;> decide

theorem long_stream_alike_iff {source writer : String} {revision : Int} {record : List UInt8}
    {first second : List (List UInt8)} {state : State} (physical : 10 ∉ record.dropLast)
    (firstDivided : Chunking record first) (secondDivided : Chunking record second)
    (long : 65536 < (content record).length) (starts : Starts (checkpointOf store writer).privateKey
      (checkpointOf store writer).parser state)
    (fresh : examineStream (capture sha256 redactTaskValue redactOperationalText hmac) source first
      writer revision store = .ok (.fresh batch))
    (published : publish source writer (some (writer, revision)) batch store = .ok result) :
    appendStream (capture sha256 redactTaskValue redactOperationalText hmac) source second writer
        revision store = .ok result ↔
      holds (checkpointOf store writer).parser = true ∨
        keyOpen sha256 (checkpointOf store writer) state record = true ∨
        splitInside sha256 state first = splitInside sha256 state second := by
  have valid := read_state_valid starts
  have firstKnown := read_record_long sha256 redactTaskValue redactOperationalText hmac physical
    firstDivided long starts
  have secondKnown := read_record_long sha256 redactTaskValue redactOperationalText hmac physical
    secondDivided long starts
  have checkpointSame : (getItem writer store.checkpoints).getD ⟨false, []⟩ =
      checkpointOf store writer := rfl
  rw [examine_known, checkpointSame, firstKnown] at fresh
  obtain ⟨checked, admitted, fresh⟩ := bind_ok_iff.mp fresh
  rw [ok_bind] at fresh
  have states := (behind_state sha256 valid (holds (checkpointOf store writer).parser)
    (checkpointOf store writer).privateKey physical secondDivided long).trans
      (behind_state sha256 valid (holds (checkpointOf store writer).parser)
        (checkpointOf store writer).privateKey physical firstDivided long).symm
  obtain ⟨judged, flagged⟩ := judge_flag
    (behind sha256 (holds (checkpointOf store writer).parser)
      ((checkpointOf store writer).privateKey, state)
      (scannedTexts [] (second.map fragment))).1 fresh
  have again : examineStream (capture sha256 redactTaskValue redactOperationalText hmac) source
      second writer revision store = .ok (.fresh { batch with
        privateKey := (behind sha256 (holds (checkpointOf store writer).parser)
          ((checkpointOf store writer).privateKey, state)
          (scannedTexts [] (second.map fragment))).1 }) := by
    rw [examine_known, checkpointSame, secondKnown, admitted, ok_bind, ok_bind, ← judged]
    unfold outcome written
    rw [states]
  unfold appendStream
  rw [again, ok_bind]
  change publish _ _ _ _ _ = _ ↔ _
  rw [publish_flag_iff _ published, flagged]
  change (behind sha256 _ _ _).1 = (behind sha256 _ _ _).1 ↔ _
  rw [behind_flag sha256 valid physical secondDivided long,
    behind_flag sha256 valid physical firstDivided long, alike_flags_iff]

end Stored

section Sample

def sampleHash (_ : List UInt8) : Digest := zeroDigest

def sampleStart : State := ⟨.outside, [], zeroDigest, [], ""⟩

def sampleFiller : List UInt8 := List.replicate 65536 97

def sampleMarker : List UInt8 := ascii "-----BEGIN CERT" ++ ascii "IFICATE-----"

def sampleRecord : List UInt8 := sampleFiller ++ sampleMarker

def sampleWhole : List (List UInt8) := [sampleFiller, sampleMarker]

def sampleDivided : List (List UInt8) :=
  [sampleFiller, ascii "-----BEGIN CERT", ascii "IFICATE-----"]

def sampleCapture : Services := capture sampleHash id id id

theorem scan_filler (sha256 : List UInt8 → Digest) (count : Nat) :
    scan sha256 sampleStart (List.replicate count 97) = (sampleStart, none) := by
  have valid : Valid sampleStart := ⟨.inl rfl, by decide, by decide⟩
  have letter : scan sha256 sampleStart [97] = (sampleStart, none) := by
    have nothing : (sampleStart.resume none [97]).inside = none := by rfl
    rw [scan, PemStreams.scan_loop_none sha256 nothing]
    decide
  induction count with
  | zero => exact scan_nil sha256 valid
  | succ count induction =>
    rw [List.replicate_succ, ← List.singleton_append, PemStreams.scan_append, letter, induction]
    rfl

theorem scan_behind_filler (sha256 : List UInt8 → Digest) (text : List UInt8) :
    scan sha256 sampleStart (sampleFiller ++ text) = scan sha256 sampleStart text := by
  rw [PemStreams.scan_append]
  unfold sampleFiller
  rw [scan_filler]
  simp only [Option.or_none]

theorem filler_plain {text : List UInt8} (plain : Plain text) : Plain (sampleFiller ++ text) := by
  intro byte member
  rcases List.mem_append.mp member with filler | inText
  · have letter : byte = 97 := (List.mem_replicate.mp filler).2
    rw [letter]
    decide
  · exact plain byte inText

theorem sample_marker_plain : Plain sampleMarker := by
  intro byte member
  have each : (sampleMarker.all fun byte =>
      decide (byte.toNat < 0x80 ∧ isBoundary (Char.ofNat byte.toNat) = false)) = true := by
    decide
  exact of_decide_eq_true (List.all_eq_true.mp each byte member)

theorem fragment_plain {chunk : List UInt8} (plain : Plain chunk) : fragment chunk = chunk := by
  refine if_neg fun newline => ?_
  have boundary := (plain 10 (by simpa using newline)).2
  exact absurd boundary (by decide)

theorem later_texts_plain {parts : List (List UInt8)} (plain : ∀ part ∈ parts, Plain part) :
    laterTexts [] parts = parts.map charactersOf ++ [[]] := by
  induction parts with
  | nil => rfl
  | cons part parts induction =>
    rw [laterTexts, List.nil_append, decoded_plain false (plain part List.mem_cons_self),
      induction fun other member => plain other (List.mem_cons_of_mem part member)]
    rfl

theorem pieces_plain {parts : List (List UInt8)} (plain : ∀ part ∈ parts, Plain part ∧ part ≠ []) :
    (pieces (parts.map charactersOf ++ [[]])).map utf8Encode = parts ++ [[]] := by
  induction parts with
  | nil => decide
  | cons part parts induction =>
    obtain ⟨partPlain, some⟩ := plain part List.mem_cons_self
    have rest := induction fun other member => plain other (List.mem_cons_of_mem part member)
    rw [List.map_cons, List.cons_append, pieces, List.flatMap_cons, captureLines,
      splitlines_plain partPlain some]
    change utf8Encode (String.ofList (charactersOf part)) ::
      (pieces (parts.map charactersOf ++ [[]])).map utf8Encode = _
    rw [rest, utf8_encode_plain partPlain]
    rfl

theorem filler_pieces {part : List UInt8} {parts : List (List UInt8)}
    (plain : ∀ other ∈ part :: parts, Plain other ∧ other ≠ []) :
    (pieces (scannedTexts [] ((sampleFiller :: part :: parts).map fragment))).map utf8Encode =
      (sampleFiller ++ part) :: parts ++ [[]] := by
  have filler : fragment sampleFiller = sampleFiller := by
    have plainFiller := @filler_plain [] nofun
    rw [List.append_nil] at plainFiller
    exact fragment_plain plainFiller
  have same : (part :: parts).map fragment = part :: parts := by
    rw [List.map_congr_left fun other member => fragment_plain (plain other member).1,
      List.map_id']
  have size : sampleFiller.length = 65536 := List.length_replicate
  have positive := List.length_pos_iff.mpr (plain part List.mem_cons_self).2
  have texts : scannedTexts [] (sampleFiller :: part :: parts) =
      laterTexts [] ((sampleFiller ++ part) :: parts) := by
    rw [scannedTexts, if_neg (by rw [size]; decide), List.nil_append, scannedTexts,
      if_pos (by rw [size]; omega)]
  have joined : ∀ other ∈ (sampleFiller ++ part) :: parts, Plain other ∧ other ≠ [] := by
    intro other member
    rcases List.mem_cons.mp member with first | later
    · rw [first]
      refine ⟨filler_plain (plain part List.mem_cons_self).1, ?_⟩
      exact List.append_ne_nil_of_right_ne_nil _ (plain part List.mem_cons_self).2
    · exact plain other (List.mem_cons_of_mem part later)
  rw [List.map_cons, filler, same, texts,
    later_texts_plain fun other member => (joined other member).1, pieces_plain joined]

def sampleInside : State := ⟨.opening, [], zeroDigest, ascii "CERT", ""⟩

def sampleBehind : State := ⟨.outside, dashes, zeroDigest, [], ""⟩

theorem scan_first_part :
    scan sampleHash sampleStart (ascii "-----BEGIN CERT") = (sampleInside, none) := by
  have entering : (sampleStart.resume none (ascii "-----BEGIN CERT")).inside =
      some ⟨.opening, zeroDigest, [], "", none, ascii "CERT"⟩ := by rfl
  have staying : leave sampleHash ⟨.opening, zeroDigest, [], "", none, ascii "CERT"⟩ = none := by
    rfl
  have blocks : absorbBlocks sampleHash zeroDigest ([] ++ ascii "CERT") =
      (zeroDigest, ascii "CERT") := by
    rw [absorbBlocks.eq_def, if_neg (by decide)]
    rfl
  rw [scan, PemStreams.scan_loop_some sampleHash entering, staying]
  simp only [Cursor.stopInside]
  rw [show openSuffix endParts (ascii "CERT") = [] by decide]
  change ((⟨.opening, [], (absorbBlocks sampleHash zeroDigest ([] ++ ascii "CERT")).1,
    (absorbBlocks sampleHash zeroDigest ([] ++ ascii "CERT")).2, ""⟩ : State), none) = _
  rw [blocks]
  rfl

theorem scan_second_part :
    scan sampleHash sampleInside (ascii "IFICATE-----") = (sampleBehind, none) := by
  have entering : (sampleInside.resume none (ascii "IFICATE-----")).inside =
      some (sampleInside.resume none (ascii "IFICATE-----")) := by rfl
  have leaving : leave sampleHash (sampleInside.resume none (ascii "IFICATE-----")) =
      some ⟨.outside, zeroDigest, [], "", none, dashes⟩ := by rfl
  have nothing : (⟨.outside, zeroDigest, [], "", none, dashes⟩ : Cursor).inside = none := by rfl
  rw [scan, PemStreams.scan_loop_some sampleHash entering, leaving]
  change scanLoop sampleHash _ = _
  rw [PemStreams.scan_loop_none sampleHash nothing]
  decide

theorem scan_marker : scan sampleHash sampleStart sampleMarker = (sampleBehind, none) := by
  unfold sampleMarker
  rw [PemStreams.scan_append, scan_first_part]
  simp only [scan_second_part]
  rfl

theorem sample_parts_plain : ∀ part ∈ [ascii "-----BEGIN CERT", ascii "IFICATE-----"],
    Plain part ∧ part ≠ [] := by
  have whole := sample_marker_plain
  unfold sampleMarker at whole
  intro part member
  rcases List.mem_cons.mp member with first | later
  · rw [first]
    exact ⟨fun byte inside => whole byte (List.mem_append_left _ inside), by decide⟩
  · rw [List.mem_singleton.mp later]
    exact ⟨fun byte inside => whole byte (List.mem_append_right _ inside), by decide⟩

/-- Only the division in the label ends a piece inside the marker. -/
theorem sample_splits :
    splitInside sampleHash sampleStart sampleWhole = false ∧
      splitInside sampleHash sampleStart sampleDivided = true := by
  constructor
  · have whole : ∀ part ∈ [sampleMarker], Plain part ∧ part ≠ [] := by
      intro part member
      rw [List.mem_singleton.mp member]
      exact ⟨sample_marker_plain, by decide⟩
    have valid : Valid sampleBehind := ⟨.inr (by decide), by decide, by decide⟩
    unfold splitInside sampleWhole
    rw [filler_pieces whole, List.cons_append, endsInside, scan_behind_filler, scan_marker,
      List.nil_append, endsInside, scan_nil sampleHash valid]
    rfl
  · unfold splitInside sampleDivided
    rw [filler_pieces sample_parts_plain, List.cons_append, endsInside, scan_behind_filler,
      scan_first_part, List.cons_append, List.nil_append, List.flatten_cons, List.flatten_cons,
      List.flatten_nil, List.append_nil, List.append_nil, scan_second_part]
    rfl

theorem sample_content : content sampleRecord = sampleRecord := by
  have plain := filler_plain sample_marker_plain
  refine if_neg fun newline => ?_
  exact absurd (plain 10 (List.mem_of_getLast? newline)).2 (by decide)

theorem sample_key (checkpoint : Checkpoint) (closed : checkpoint.privateKey = false) :
    keyOpen sampleHash checkpoint sampleStart sampleRecord = false := by
  unfold keyOpen
  rw [sample_content]
  unfold sampleRecord
  rw [decoded_plain true (filler_plain sample_marker_plain)]
  simp only
  rw [line_bytes_plain (filler_plain sample_marker_plain), scan_behind_filler, scan_marker]
  exact closed

def sampleCheckpoint : Checkpoint := ⟨false, []⟩

theorem sample_starts : Starts sampleCheckpoint.privateKey sampleCheckpoint.parser sampleStart := by
  unfold Starts
  decide

theorem sample_physical : 10 ∉ sampleRecord.dropLast := by
  intro newline
  have plain := filler_plain sample_marker_plain
  exact absurd (plain 10 (List.mem_of_mem_dropLast newline)).2 (by decide)

theorem filler_sized : sampleFiller ≠ [] ∧ sampleFiller.length ≤ 65536 := by
  have size : sampleFiller.length = 65536 := List.length_replicate
  exact ⟨List.ne_nil_of_length_pos (by rw [size]; decide), size.le⟩

theorem sample_whole_divided : Chunking sampleRecord sampleWhole := by
  refine ⟨?_, fun chunk member => ?_⟩
  · rw [sampleWhole, List.flatten_cons, List.flatten_cons, List.flatten_nil, List.append_nil,
      sampleRecord]
  rcases List.mem_cons.mp member with first | later
  · exact first ▸ filler_sized
  · rw [List.mem_singleton.mp later]
    exact ⟨by decide, by decide⟩

theorem sample_divided : Chunking sampleRecord sampleDivided := by
  refine ⟨?_, fun chunk member => ?_⟩
  · rw [sampleDivided, List.flatten_cons, List.flatten_cons, List.flatten_cons, List.flatten_nil,
      List.append_nil, sampleRecord, sampleMarker]
  rcases List.mem_cons.mp member with first | later
  · exact first ▸ filler_sized
  · rcases List.mem_cons.mp later with second | last
    · rw [second]
      exact ⟨by decide, by decide⟩
    · rw [List.mem_singleton.mp last]
      exact ⟨by decide, by decide⟩

theorem sample_long : 65536 < (content sampleRecord).length := by
  rw [sample_content, sampleRecord, List.length_append, sampleFiller, List.length_replicate]
  exact Nat.lt_add_of_pos_right (by decide)

theorem sample_stored : sampleCapture.Scans (checkpointOf emptyStore "service").parser :=
  sampleCapture.scans_empty

def sampleBatch : Batch where
  texts := [oversizedNotice]
  charges := [sampleRecord.length]
  privateKey := (outcome sampleHash false (false, sampleStart)
    (scannedTexts [] (sampleWhole.map fragment)) []).2.1
  parser := (outcome sampleHash false (false, sampleStart)
    (scannedTexts [] (sampleWhole.map fragment)) []).2.2
  fingerprint := sampleCapture.hmac (recordBytes sampleRecord)

theorem sample_fresh :
    examineStream sampleCapture "nginx-access" sampleWhole "service" 1 emptyStore =
      .ok (.fresh sampleBatch) := by
  have known := read_record_long sampleHash id id id sample_physical sample_whole_divided
    sample_long sample_starts
  have checked : checkStream "nginx-access" "service" 1 emptyStore = .ok () := by decide
  rw [examine_known, checked, ok_bind]
  change (readRecord sampleCapture sampleCheckpoint sampleWhole >>= _) = _
  unfold sampleCapture
  rw [known, ok_bind]
  rfl

theorem sample_published :
    ∃ result, publish "nginx-access" "service" (some ("service", 1)) sampleBatch emptyStore =
      .ok result := ⟨_, rfl⟩

end Sample

end Atlaso.Logs.ChunkGuarantees
