import Atlaso.Library.TextStreams
import Atlaso.Logs.PemCarry

/-!
A record that `append_stream` reads in chunks: what it stores, and when that depends on how the
record was divided.

A record of at most 64 KiB is put together first. A longer one is scanned piece by piece, and
the stored flag of an open key is raised at the end of a piece that ends inside the first token
and the label of any marker, of a private key or not.
-/

namespace Atlaso.Logs.ChunkedRecords

open Library ByteWords Dictionary LineText Outcomes StreamSearch
open TextStreams PemCarry PemMarkers PemStreams ProducerStore SafeLines

section Pieces

/-- The bytes of a record without its newline. -/
def content (record : List UInt8) : List UInt8 :=
  if record.getLast? = some 10 then record.dropLast else record

/-- A record divided into chunks that `append_stream` accepts. -/
structure Chunking (record : List UInt8) (chunks : List (List UInt8)) : Prop where
  whole : chunks.flatten = record
  sized : ∀ chunk ∈ chunks, chunk ≠ [] ∧ chunk.length ≤ 65536

def fragment (chunk : List UInt8) : List UInt8 :=
  if chunk.contains 10 then chunk.dropLast else chunk

/-- The texts that are scanned from here on, the last one when the decoder is closed. -/
def laterTexts (kept : List UInt8) : List (List UInt8) → List (List Char)
  | [] => [(decoded true kept).1]
  | part :: parts =>
    (decoded false (kept ++ part)).1 :: laterTexts (decoded false (kept ++ part)).2 parts

/-- The texts of an oversized record that are scanned, `pending` being what has been put
together of it so far. -/
def scannedTexts (pending : List UInt8) : List (List UInt8) → List (List Char)
  | [] => []
  | part :: parts =>
    if 65536 < pending.length + part.length then laterTexts [] ((pending ++ part) :: parts)
    else scannedTexts (pending ++ part) parts

def pieces (texts : List (List Char)) : List String :=
  texts.flatMap fun text => captureLines (String.ofList text)

theorem later_texts_flatten (kept : List UInt8) (parts : List (List UInt8)) :
    (laterTexts kept parts).flatten = (decoded true (kept ++ parts.flatten)).1 := by
  induction parts generalizing kept with
  | nil => simp [laterTexts]
  | cons part parts induction =>
    rw [laterTexts, List.flatten_cons, induction, List.flatten_cons, ← List.append_assoc,
      decoded_append true (kept ++ part)]

theorem scanned_texts_flatten {pending : List UInt8} {parts : List (List UInt8)}
    (small : pending.length ≤ 65536) (large : 65536 < (pending ++ parts.flatten).length) :
    (scannedTexts pending parts).flatten = (decoded true (pending ++ parts.flatten)).1 := by
  induction parts generalizing pending with
  | nil =>
    rw [List.flatten_nil, List.append_nil] at large
    omega
  | cons part parts induction =>
    rw [List.flatten_cons, ← List.append_assoc] at large ⊢
    rw [scannedTexts]
    by_cases exceeds : 65536 < pending.length + part.length
    · rw [if_pos exceeds, later_texts_flatten, List.nil_append, List.flatten_cons]
    · rw [if_neg exceeds]
      refine induction ?_ large
      rw [List.length_append]
      omega

theorem capture_lines_bytes (text : List Char) :
    ((captureLines (String.ofList text)).map utf8Encode).flatten = lineBytes text := by
  have lines := splitlines_bytes (String.ofList text)
  rw [String.toList_ofList] at lines
  rw [← lines, captureLines]
  split
  · next empty =>
    rw [empty]
    rfl
  · rfl

theorem pieces_bytes (texts : List (List Char)) :
    ((pieces texts).map utf8Encode).flatten = lineBytes texts.flatten := by
  induction texts with
  | nil => rfl
  | cons text texts induction =>
    rw [pieces, List.flatMap_cons, List.map_append, List.flatten_append, capture_lines_bytes]
    change lineBytes text ++ ((pieces texts).map utf8Encode).flatten = _
    rw [induction, List.flatten_cons, line_bytes_append]

end Pieces

section Following

variable (sha256 : List UInt8 → Digest)

/-- What the loop of `_safe_lines` carries: the flag of an open key, and the search. -/
def follow (hold : Bool) (carried : Bool × State) (piece : List UInt8) : Bool × State :=
  let found := scan sha256 carried.2 piece
  (found.2.getD (carried.1 || hold) || decide (found.1.mode = .opening) || hold, found.1)

/-- Behind the last marker of a private key, a piece ends behind the first token of a marker
and before the end of its label. -/
def endsInside : State → List (List UInt8) → Bool
  | _, [] => false
  | state, piece :: rest =>
    let after := (scan sha256 state piece).1
    (decide (after.mode = .opening) && (scan sha256 after rest.flatten).2.isNone) ||
      endsInside after rest

theorem open_suffix_self {tokens : List (List UInt8)} {part : List UInt8}
    (listed : part = [] ∨ part ∈ shorterBeginnings tokens) :
    openSuffix (shorterBeginnings tokens) part = part := by
  rw [open_suffix_shorter]
  refine (longest_suffix_suffix part).eq_of_length_le ?_
  exact (suffix_longest_suffix List.suffix_rfl
    (listed.imp id fun member => decide_eq_true member)).length_le

theorem quiet_suffix {Found : Type} {parts : List (List UInt8)}
    {matchAt : List UInt8 → Option (Found × List UInt8)} (resumes : Resumes matchAt (carried parts))
    {part : List UInt8} (listed : part = [] ∨ part ∈ parts) : search matchAt part = none := by
  rcases listed with empty | member
  · rw [empty]
    rfl
  · exact resumes.quiet (decide_eq_true member)

/-- An empty fragment changes nothing. -/
theorem scan_nil {state : State} (valid : Valid state) :
    scan sha256 state [] = (state, none) := by
  have rest : (state.resume none []).rest = state.suffix := List.append_nil state.suffix
  by_cases outside : state.mode = .outside
  · have listed : state.suffix = [] ∨ state.suffix ∈ startParts := by
      have suffix := valid.suffix
      rwa [outside] at suffix
    have nothing : (state.resume none []).inside = none := by
      refine (if_pos outside).trans ?_
      unfold enter
      rw [rest, quiet_suffix start_at_resumes listed]
    have same : openSuffix startParts state.suffix = state.suffix := open_suffix_self listed
    unfold scan
    rw [scan_loop_none sha256 nothing, Cursor.stopOutside, rest, same]
    rfl
  · have listed : state.suffix = [] ∨ state.suffix ∈ endParts := by
      have suffix := valid.suffix
      rwa [inside_parts outside] at suffix
    have inside : (state.resume none []).inside = some (state.resume none []) := if_neg outside
    have nothing : leave sha256 (state.resume none []) = none := by
      unfold leave
      rw [rest, quiet_suffix boundary_at_resumes listed]
    have same : openSuffix endParts state.suffix = state.suffix := open_suffix_self listed
    have pending : ∀ digest, absorbBlocks sha256 digest state.pending = (digest, state.pending) := by
      intro digest
      rw [absorbBlocks.eq_def, if_neg (Nat.not_le_of_lt valid.pending)]
    unfold scan
    rw [scan_loop_some sha256 inside, nothing]
    simp only [Cursor.stopInside, rest, same, Nat.sub_self, List.take_zero, absorb,
      List.append_nil]
    change (_, _) = _
    simp only [State.resume, pending]

/-- The state behind the pieces is that behind their bytes. -/
theorem follow_state (hold flag : Bool) {state : State} (valid : Valid state)
    (rest : List (List UInt8)) :
    (rest.foldl (follow sha256 hold) (flag, state)).2 = (scan sha256 state rest.flatten).1 := by
  induction rest generalizing flag state with
  | nil =>
    rw [List.flatten_nil, scan_nil sha256 valid]
    rfl
  | cons piece rest induction =>
    rw [List.foldl_cons, List.flatten_cons, scan_append]
    exact induction _ (scan_valid sha256 valid piece)

/-- The flag behind the pieces: what the last marker says, or the flag of before, raised where
a piece ends inside a marker. -/
theorem follow_flag (flag : Bool) {state : State} (valid : Valid state) (rest : List (List UInt8)) :
    (rest.foldl (follow sha256 false) (flag, state)).1 =
      ((scan sha256 state rest.flatten).2.getD flag || endsInside sha256 state rest) := by
  induction rest generalizing flag state with
  | nil =>
    rw [List.flatten_nil, scan_nil sha256 valid]
    exact (Bool.or_false flag).symm
  | cons piece rest induction =>
    rw [List.foldl_cons, List.flatten_cons, scan_append]
    refine (induction _ (scan_valid sha256 valid piece)).trans ?_
    rw [endsInside]
    simp only [Bool.or_false]
    cases (scan sha256 (scan sha256 state piece).1 rest.flatten).2 with
    | none => simp [Bool.or_assoc]
    | some answer => simp

theorem follow_held (flag : Bool) (state : State) {rest : List (List UInt8)} (some : rest ≠ []) :
    (rest.foldl (follow sha256 true) (flag, state)).1 = true := by
  induction rest generalizing flag state with
  | nil => exact absurd rfl some
  | cons piece rest induction =>
    rw [List.foldl_cons]
    cases rest with
    | nil => exact Bool.or_true _
    | cons next rest => exact induction _ _ (List.cons_ne_nil _ _)

theorem follow_valid (hold flag : Bool) {state : State} (valid : Valid state)
    (rest : List (List UInt8)) : Valid (rest.foldl (follow sha256 hold) (flag, state)).2 := by
  rw [follow_state sha256 hold flag valid]
  exact scan_valid sha256 valid rest.flatten

end Following

section Lines

variable (sha256 : List UInt8 → Digest) (redactTaskValue : String → String)

theorem letter_opening (mode : Mode) : decide (mode.letter = "B") = decide (mode = .opening) := by
  cases mode <;> decide

theorem scan_line_follow {scan : Scan} {state : State} (hold : Bool) (line : String)
    (read : readState scan.carry = some state) :
    ∃ after, scanLine (scanner sha256 redactTaskValue) hold scan line = .ok after ∧
      after.privateKey =
        (follow sha256 hold (scan.privateKey, state) (utf8Encode line)).1 ∧
      after.carry =
        writeState (follow sha256 hold (scan.privateKey, state) (utf8Encode line)).2 := by
  have found : (scanner sha256 redactTaskValue).scanPemMarkers (utf8Encode line) scan.carry =
      .ok ((PemMarkers.scan sha256 state (utf8Encode line)).2,
        writeState (PemMarkers.scan sha256 state (utf8Encode line)).1) := by
    change PemCarry.scanPemMarkers sha256 _ _ = _
    rw [PemCarry.scanPemMarkers, read]
  refine ⟨scanned (scanner sha256 redactTaskValue) hold scan line
    (PemMarkers.scan sha256 state (utf8Encode line)).2
    (writeState (PemMarkers.scan sha256 state (utf8Encode line)).1)
    (PemMarkers.scan sha256 state (utf8Encode line)).1.mode.letter
    (hex (PemMarkers.scan sha256 state (utf8Encode line)).1.suffix), ?_, ?_, rfl⟩
  · rw [scanLine, found, ok_bind]
    simp only [carry_state_write, ok_bind]
  · simp only [scanned, follow, letter_opening]

theorem scan_lines_follow {scan : Scan} {state : State} (hold : Bool) (lines : List String)
    (read : readState scan.carry = some state) :
    ∃ after, lines.foldlM (scanLine (scanner sha256 redactTaskValue) hold) scan = .ok after ∧
      after.privateKey =
        ((lines.map utf8Encode).foldl (follow sha256 hold) (scan.privateKey, state)).1 ∧
      (lines ≠ [] → after.carry = writeState
        ((lines.map utf8Encode).foldl (follow sha256 hold) (scan.privateKey, state)).2) := by
  induction lines generalizing scan state with
  | nil => exact ⟨scan, rfl, rfl, fun some => absurd rfl some⟩
  | cons line lines induction =>
    obtain ⟨middle, first, flag, carry⟩ := scan_line_follow sha256 redactTaskValue hold line read
    have valid := scan_valid sha256 (read_state_valid read) (utf8Encode line)
    have next : readState middle.carry =
        some (follow sha256 hold (scan.privateKey, state) (utf8Encode line)).2 := by
      rw [carry]
      exact read_write_state valid
    obtain ⟨after, rest, flagAfter, carryAfter⟩ := induction next
    rw [flag] at flagAfter carryAfter
    refine ⟨after, ?_, flagAfter, fun _ => ?_⟩
    · rw [List.foldlM_cons, first, ok_bind, rest]
    · cases lines with
      | nil =>
        cases Except.ok.inj rest
        exact carry
      | cons other lines => exact carryAfter (List.cons_ne_nil _ _)

theorem capture_lines_nonempty (text : String) : captureLines text ≠ [] := by
  unfold captureLines
  split
  · exact List.cons_ne_nil _ _
  · next some => exact fun empty => some empty

theorem safe_lines_follow {privateKey : Bool} {parser : Parser} {state : State} (text : String)
    (read : readState (startState privateKey ((getItem "carry" parser).getD "")) = some state) :
    ∃ output,
      safeLines (scanner sha256 redactTaskValue) [text] privateKey parser =
        .ok (output,
          (((captureLines text).map utf8Encode).foldl
            (follow sha256 (decide (getItem "hold" parser = some "1"))) (privateKey, state)).1,
          setItem "carry"
            (writeState (((captureLines text).map utf8Encode).foldl
              (follow sha256 (decide (getItem "hold" parser = some "1")))
              (privateKey, state)).2) parser) := by
  obtain ⟨after, looped, flag, carry⟩ := @scan_lines_follow sha256 redactTaskValue
    ⟨[], privateKey, startState privateKey ((getItem "carry" parser).getD "")⟩ state
    (decide (getItem "hold" parser = some "1")) (captureLines text) read
  refine ⟨after.output, ?_⟩
  have lines : [text].flatMap captureLines = captureLines text := by simp
  unfold safeLines
  simp only [lines, looped, ok_bind, flag, carry (capture_lines_nonempty text)]

/-- A checkpoint whose stored search can go on. -/
theorem written_start (privateKey : Bool) {parser : Parser} {state : State} (valid : Valid state) :
    readState (startState privateKey
      ((getItem "carry" (setItem "carry" (writeState state) parser)).getD "")) = some state := by
  rw [get_item_set_item, if_pos rfl, Option.getD_some, startState, write_state_bracket]
  simp only [beq_self_eq_true, Bool.not_true, Bool.and_false, Bool.false_eq_true, if_false]
  exact read_write_state valid

theorem written_hold (parser : Parser) (carry : String) :
    getItem "hold" (setItem "carry" carry parser) = getItem "hold" parser := by
  rw [get_item_set_item, if_neg (by decide)]

end Lines

section Chunks

def noted (reading : Reading) (chunk : List UInt8) : Reading :=
  { reading with
    terminated := chunk.contains 10
    charge := reading.charge + chunk.length
    input := reading.input ++ chunk }

/-- The checks of a chunk pass when it belongs to a physical record. -/
structure Accepted (reading : Reading) (chunk : List UInt8) : Prop where
  running : reading.terminated = false
  some : chunk ≠ []
  bounded : chunk.length ≤ 65536
  inside : 10 ∉ chunk.dropLast

variable {chunk : List UInt8} {reading : Reading} {chunks : List (List UInt8)}

theorem newline_last (inside : 10 ∉ chunk.dropLast) (newline : chunk.contains 10 = true) :
    chunk.getLast? = some 10 := by
  have member : 10 ∈ chunk := by simpa using newline
  have some : chunk ≠ [] := List.ne_nil_of_mem member
  rw [← List.dropLast_concat_getLast some, List.mem_append] at member
  have last := member.resolve_left inside
  rw [List.getLast?_eq_some_getLast some, ← List.mem_singleton.mp last]

theorem read_chunk_accepted {services : Services} (accepted : Accepted reading chunk) :
    readChunk services reading chunk =
      if reading.oversized then
        scanFragment services
          (String.ofList (decoded false (reading.kept ++ fragment chunk)).1)
          { noted reading chunk with
            kept := (decoded false (reading.kept ++ fragment chunk)).2 }
      else if 65536 < reading.pending.length + (fragment chunk).length then
        scanFragment services
          (String.ofList
            (decoded false (reading.kept ++ (reading.pending ++ fragment chunk))).1)
          { noted reading chunk with
            oversized := true
            kept := (decoded false (reading.kept ++ (reading.pending ++ fragment chunk))).2
            pending := [] }
      else .ok { noted reading chunk with pending := reading.pending ++ fragment chunk } := by
  have bounded : (chunk.isEmpty || decide (65536 < chunk.length) || reading.terminated) = false := by
    have empty : chunk.isEmpty = false := by simpa using accepted.some
    have long : decide (65536 < chunk.length) = false :=
      decide_eq_false (Nat.not_lt_of_le accepted.bounded)
    rw [empty, long, accepted.running]
    rfl
  have single : (chunk.contains 10 &&
      (chunk.getLast? != some 10 || chunk.dropLast.contains 10)) = false := by
    cases newline : chunk.contains 10 with
    | false => rfl
    | true =>
      rw [newline_last accepted.inside newline]
      simpa using accepted.inside
  unfold readChunk
  rw [if_neg (by rw [bounded]; exact Bool.false_ne_true),
    if_neg (by rw [single]; exact Bool.false_ne_true)]
  rfl

structure Rest (reading : Reading) (chunks : List (List UInt8)) : Prop where
  sized : ∀ chunk ∈ chunks, chunk ≠ [] ∧ chunk.length ≤ 65536
  inside : 10 ∉ chunks.flatten.dropLast
  running : chunks ≠ [] → reading.terminated = false

theorem flatten_nonempty (sized : ∀ chunk ∈ chunks, chunk ≠ [] ∧ chunk.length ≤ 65536)
    (some : chunks ≠ []) :
    chunks.flatten ≠ [] := by
  cases chunks with
  | nil => exact absurd rfl some
  | cons chunk chunks =>
    intro empty
    rw [List.flatten_cons, List.append_eq_nil_iff] at empty
    exact (sized chunk List.mem_cons_self).1 empty.1

theorem rest_cons (rest : Rest reading (chunk :: chunks)) :
    Accepted reading chunk ∧ (chunks ≠ [] → chunk.contains 10 = false) ∧
      10 ∉ chunks.flatten.dropLast := by
  obtain ⟨some, bounded⟩ := rest.sized chunk List.mem_cons_self
  have inside := rest.inside
  rw [List.flatten_cons] at inside
  have later := fun other member => rest.sized other (List.mem_cons_of_mem chunk member)
  have running := rest.running (List.cons_ne_nil _ _)
  cases chunks with
  | nil =>
    rw [List.flatten_nil, List.append_nil] at inside
    exact ⟨⟨running, some, bounded, inside⟩, fun none => absurd rfl none, by simp⟩
  | cons next chunks =>
    rw [List.dropLast_append_of_ne_nil (flatten_nonempty later (List.cons_ne_nil _ _)),
      List.mem_append, not_or] at inside
    refine ⟨⟨running, some, bounded, fun member => ?_⟩, fun _ => by simpa using inside.1,
      inside.2⟩
    exact inside.1 (List.mem_of_mem_dropLast member)

theorem rest_next {after : Reading} (rest : Rest reading (chunk :: chunks))
    (terminated : after.terminated = chunk.contains 10) :
    Rest after chunks :=
  ⟨fun other member => rest.sized other (List.mem_cons_of_mem chunk member),
    (rest_cons rest).2.2, fun some => terminated.trans ((rest_cons rest).2.1 some)⟩

theorem fragments_flatten (rest : Rest reading chunks) :
    (chunks.map fragment).flatten = content chunks.flatten := by
  induction chunks generalizing reading with
  | nil => rfl
  | cons chunk chunks induction =>
    obtain ⟨accepted, ended, -⟩ := rest_cons rest
    rw [List.map_cons, List.flatten_cons,
      @induction { reading with terminated := chunk.contains 10 } (rest_next rest rfl),
      List.flatten_cons]
    cases chunks with
    | nil =>
      rw [List.flatten_nil, List.append_nil]
      unfold fragment content
      by_cases newline : chunk.contains 10 = true
      · rw [if_pos newline, if_pos (newline_last accepted.inside newline)]
        exact List.append_nil _
      · have unended : chunk.getLast? ≠ some 10 := fun last =>
          newline (by simpa using List.mem_of_getLast? last)
        rw [if_neg newline, if_neg unended]
        exact List.append_nil _
    | cons next chunks =>
      have plainChunk : fragment chunk = chunk :=
        if_neg (by rw [ended (List.cons_ne_nil _ _)]; exact Bool.false_ne_true)
      have some := flatten_nonempty
        (fun other member => rest.sized other (List.mem_cons_of_mem chunk member))
        (List.cons_ne_nil _ _)
      rw [plainChunk]
      unfold content
      rw [List.getLast?_append_of_ne_nil _ some, List.dropLast_append_of_ne_nil some]
      split_ifs <;> rfl

end Chunks

section Streams

variable (sha256 : List UInt8 → Digest) (redactTaskValue redactOperationalText : String → String)
variable (hmac : List UInt8 → List UInt8)

/-- The store's services over the real search for markers. -/
def capture : Services :=
  SafeLines.services (scanner sha256 redactTaskValue) redactOperationalText hmac

def behind (hold : Bool) (start : Bool × State) (texts : List (List Char)) : Bool × State :=
  ((pieces texts).map utf8Encode).foldl (follow sha256 hold) start

theorem behind_cons (hold : Bool) (start : Bool × State) (text : List Char)
    (texts : List (List Char)) :
    behind sha256 hold start (text :: texts) =
      behind sha256 hold
        (((captureLines (String.ofList text)).map utf8Encode).foldl (follow sha256 hold) start)
        texts := by
  unfold behind pieces
  rw [List.flatMap_cons, List.map_append, List.foldl_append]

def holds (parser : Parser) : Bool := decide (getItem "hold" parser = some "1")

/-- The stored search can go on from a state. -/
def Starts (privateKey : Bool) (parser : Parser) (state : State) : Prop :=
  readState (startState privateKey ((getItem "carry" parser).getD "")) = some state

/-- The checkpoint behind some pieces. -/
def written (result : Bool × State) (parser : Parser) : Parser :=
  setItem "carry" (writeState result.2) parser

def behindText (hold : Bool) (start : Bool × State) (text : List Char) : Bool × State :=
  ((captureLines (String.ofList text)).map utf8Encode).foldl (follow sha256 hold) start

def withText (reading : Reading) (state : State) (text : List Char) : Reading :=
  let result := behindText sha256 (holds reading.parser) (reading.privateKey, state) text
  { reading with privateKey := result.1, parser := written result reading.parser }

variable {reading : Reading} {chunks : List (List UInt8)}

theorem scan_fragment_follow {state : State} (text : List Char)
    (starts : Starts reading.privateKey reading.parser state) :
    scanFragment (capture sha256 redactTaskValue redactOperationalText hmac)
        (String.ofList text) reading = .ok (withText sha256 reading state text) := by
  obtain ⟨output, done⟩ := safe_lines_follow sha256 redactTaskValue (String.ofList text) starts
  unfold scanFragment
  change (safeLines (scanner sha256 redactTaskValue) _ _ _ >>= _) = _
  rw [done, ok_bind]
  rfl

theorem with_text_starts {state : State} (text : List Char)
    (starts : Starts reading.privateKey reading.parser state) :
    Starts (withText sha256 reading state text).privateKey
        (withText sha256 reading state text).parser
        (behindText sha256 (holds reading.parser) (reading.privateKey, state) text).2 ∧
      holds (withText sha256 reading state text).parser = holds reading.parser := by
  have valid := follow_valid sha256 (holds reading.parser) reading.privateKey
    (read_state_valid starts) ((captureLines (String.ofList text)).map utf8Encode)
  refine ⟨written_start _ valid, ?_⟩
  unfold holds
  rw [show (withText sha256 reading state text).parser =
    setItem "carry" _ reading.parser from rfl, written_hold]

/-- What a record leaves behind: the row's text and the checkpoint. -/
def outcome (hold : Bool) (start : Bool × State) (texts : List (List Char)) (parser : Parser) :
    String × Bool × Parser :=
  (oversizedNotice, (behind sha256 hold start texts).1,
    written (behind sha256 hold start texts) parser)

theorem outcome_cons (hold : Bool) (start : Bool × State) (text : List Char)
    (texts : List (List Char)) (parser : Parser) :
    outcome sha256 hold start (text :: texts) parser =
      outcome sha256 hold (behindText sha256 hold start text) texts
        (written (behindText sha256 hold start text) parser) := by
  unfold outcome written
  rw [behind_cons, set_item_again]
  rfl

theorem outcome_one (hold : Bool) (start : Bool × State) (text : List Char) (parser : Parser) :
    outcome sha256 hold start [text] parser =
      (oversizedNotice, (behindText sha256 hold start text).1,
        written (behindText sha256 hold start text) parser) := by
  unfold outcome
  rw [behind_cons]
  rfl

def decoding (reading : Reading) (chunk : List UInt8) : Reading :=
  { noted reading chunk with kept := (decoded false (reading.kept ++ fragment chunk)).2 }

theorem later_chunks {state : State} (oversized : reading.oversized = true)
    (rest : Rest reading chunks) (starts : Starts reading.privateKey reading.parser state) :
    ∃ after, chunks.foldlM
        (readChunk (capture sha256 redactTaskValue redactOperationalText hmac)) reading = .ok after ∧
      after.oversized = true ∧ after.charge = reading.charge + chunks.flatten.length ∧
      after.input = reading.input ++ chunks.flatten ∧
      finishReading (capture sha256 redactTaskValue redactOperationalText hmac) after =
        .ok (outcome sha256 (holds reading.parser) (reading.privateKey, state)
          (laterTexts reading.kept (chunks.map fragment)) reading.parser) := by
  induction chunks generalizing reading state with
  | nil =>
    refine ⟨reading, rfl, oversized, rfl, (List.append_nil _).symm, ?_⟩
    unfold finishReading
    rw [if_pos oversized]
    change (scanFragment _ (String.ofList (decoded true reading.kept).1) reading >>= _) = _
    rw [scan_fragment_follow sha256 redactTaskValue redactOperationalText hmac _ starts, ok_bind,
      List.map_nil, laterTexts, outcome_one]
    rfl
  | cons chunk chunks induction =>
    have accepted := (rest_cons rest).1
    have step := @read_chunk_accepted chunk reading
      (capture sha256 redactTaskValue redactOperationalText hmac) accepted
    rw [if_pos oversized] at step
    have decodingStarts : Starts (decoding reading chunk).privateKey
      (decoding reading chunk).parser state := starts
    obtain ⟨next, hold⟩ := with_text_starts sha256
      (decoded false (reading.kept ++ fragment chunk)).1 decodingStarts
    have scanned := scan_fragment_follow sha256 redactTaskValue redactOperationalText hmac
      (decoded false (reading.kept ++ fragment chunk)).1 decodingStarts
    obtain ⟨after, looped, large, charge, input, done⟩ :=
      induction (show (withText sha256 (decoding reading chunk) state
        (decoded false (reading.kept ++ fragment chunk)).1).oversized = true from oversized)
        (rest_next rest rfl) next
    refine ⟨after, ?_, large, ?_, ?_, ?_⟩
    · rw [List.foldlM_cons, step.trans scanned, ok_bind]
      exact looped
    · rw [charge, List.flatten_cons, List.length_append, ← Nat.add_assoc]
      rfl
    · rw [input, List.flatten_cons, ← List.append_assoc]
      rfl
    · rw [done, hold, List.map_cons, laterTexts, outcome_cons]
      rfl

/-- The chunk that makes the record too long is decoded behind all that was put together. -/
def opening (reading : Reading) (chunk : List UInt8) : Reading :=
  { noted reading chunk with
    oversized := true
    kept := (decoded false (reading.pending ++ fragment chunk)).2
    pending := [] }

def gathering (reading : Reading) (chunk : List UInt8) : Reading :=
  { noted reading chunk with pending := reading.pending ++ fragment chunk }

theorem long_chunks {state : State} (small : reading.oversized = false) (kept : reading.kept = [])
    (pending : reading.pending.length ≤ 65536) (rest : Rest reading chunks)
    (starts : Starts reading.privateKey reading.parser state)
    (long : 65536 < (reading.pending ++ (chunks.map fragment).flatten).length) :
    ∃ after, chunks.foldlM
        (readChunk (capture sha256 redactTaskValue redactOperationalText hmac)) reading = .ok after ∧
      after.oversized = true ∧ after.charge = reading.charge + chunks.flatten.length ∧
      after.input = reading.input ++ chunks.flatten ∧
      finishReading (capture sha256 redactTaskValue redactOperationalText hmac) after =
        .ok (outcome sha256 (holds reading.parser) (reading.privateKey, state)
          (scannedTexts reading.pending (chunks.map fragment)) reading.parser) := by
  induction chunks generalizing reading with
  | nil =>
    rw [List.map_nil, List.flatten_nil, List.append_nil] at long
    omega
  | cons chunk chunks induction =>
    have accepted := (rest_cons rest).1
    have step := @read_chunk_accepted chunk reading
      (capture sha256 redactTaskValue redactOperationalText hmac) accepted
    rw [if_neg (by rw [small]; exact Bool.false_ne_true), kept, List.nil_append] at step
    rw [List.map_cons, scannedTexts]
    by_cases exceeds : 65536 < reading.pending.length + (fragment chunk).length
    · rw [if_pos exceeds] at step ⊢
      have openingStarts : Starts (opening reading chunk).privateKey
        (opening reading chunk).parser state := starts
      obtain ⟨next, hold⟩ := with_text_starts sha256
        (decoded false (reading.pending ++ fragment chunk)).1 openingStarts
      have scanned := scan_fragment_follow sha256 redactTaskValue redactOperationalText hmac
        (decoded false (reading.pending ++ fragment chunk)).1 openingStarts
      obtain ⟨after, looped, large, charge, input, done⟩ :=
        later_chunks sha256 redactTaskValue redactOperationalText hmac
          (show (withText sha256 (opening reading chunk) state
            (decoded false (reading.pending ++ fragment chunk)).1).oversized = true from rfl)
          (rest_next rest rfl) next
      refine ⟨after, ?_, large, ?_, ?_, ?_⟩
      · rw [List.foldlM_cons, step.trans scanned, ok_bind]
        exact looped
      · rw [charge, List.flatten_cons, List.length_append, ← Nat.add_assoc]
        rfl
      · rw [input, List.flatten_cons, ← List.append_assoc]
        rfl
      · rw [done, hold, laterTexts, List.nil_append, outcome_cons]
        rfl
    · rw [if_neg exceeds] at step ⊢
      have shorter : (gathering reading chunk).pending.length ≤ 65536 := by
        change (reading.pending ++ fragment chunk).length ≤ 65536
        rw [List.length_append]
        omega
      rw [List.map_cons, List.flatten_cons, ← List.append_assoc] at long
      obtain ⟨after, looped, large, charge, input, done⟩ :=
        @induction (gathering reading chunk) small kept shorter (rest_next rest rfl) starts long
      refine ⟨after, ?_, large, ?_, ?_, done⟩
      · rw [List.foldlM_cons, step, ok_bind]
        exact looped
      · rw [charge, List.flatten_cons, List.length_append, ← Nat.add_assoc]
        rfl
      · rw [input, List.flatten_cons, ← List.append_assoc]
        rfl

/-- A short record is put together and not scanned before its end. -/
theorem short_chunks {services : Services} (small : reading.oversized = false)
    (rest : Rest reading chunks)
    (short : (reading.pending ++ (chunks.map fragment).flatten).length ≤ 65536) :
    ∃ after, chunks.foldlM (readChunk services) reading = .ok after ∧
      after.oversized = false ∧ after.charge = reading.charge + chunks.flatten.length ∧
      after.input = reading.input ++ chunks.flatten ∧
      after.pending = reading.pending ++ (chunks.map fragment).flatten ∧
      after.privateKey = reading.privateKey ∧ after.parser = reading.parser := by
  induction chunks generalizing reading with
  | nil =>
    exact ⟨reading, rfl, small, rfl, (List.append_nil _).symm, (List.append_nil _).symm, rfl, rfl⟩
  | cons chunk chunks induction =>
    have accepted := (rest_cons rest).1
    have step := @read_chunk_accepted chunk reading services accepted
    rw [List.map_cons, List.flatten_cons, ← List.append_assoc] at short
    have within : ¬65536 < reading.pending.length + (fragment chunk).length := by
      rw [List.length_append, List.length_append] at short
      omega
    rw [if_neg (by rw [small]; exact Bool.false_ne_true), if_neg within] at step
    obtain ⟨after, looped, large, charge, input, gathered, flag, parser⟩ :=
      @induction (gathering reading chunk) small (rest_next rest rfl) short
    refine ⟨after, ?_, large, ?_, ?_, ?_, flag, parser⟩
    · rw [List.foldlM_cons, step, ok_bind]
      exact looped
    · rw [charge, List.flatten_cons, List.length_append, ← Nat.add_assoc]
      rfl
    · rw [input, List.flatten_cons, ← List.append_assoc]
      rfl
    · rw [gathered, List.map_cons, List.flatten_cons, ← List.append_assoc]
      rfl

end Streams

end Atlaso.Logs.ChunkedRecords
