import Atlaso.Library.ByteWords
import Atlaso.Library.LineText
import Atlaso.Library.NumberedLog
import Atlaso.Library.Outcomes

/-!
`producer_log_history`: the rows of one source of the producer log store, and the
transactions that write them.

Every statement of the source selects its rows by `source`, so the state is that of one
source. `capture_pending.prepared` and `checkpoint.parser` are kept as the values whose JSON
text the columns hold. The secret scanner of `log_sanitization` and the keyed hash are
parameters: what the store guarantees about its rows does not depend on which texts the
scanner lets through.
-/

namespace Atlaso.Logs.ProducerStore

open Library Dictionary LineText NumberedLog

inductive Raised where
  | valueError (message : String)
  | integrityError (message : String)
  | operationalError (message : String)
  | formatterError
  deriving DecidableEq, Repr

abbrev Parser := List (String × String)

/-- `_safe_lines`, `redact_operational_text` and the HMAC under the store's
`receipt_key`. The scanner refuses a marker state it cannot have written, and takes up
every state it has. -/
structure Services where
  safeLines : List String → Bool → Parser → Except Raised (List String × Bool × Parser)
  redactOperationalText : String → String
  hmac : List UInt8 → List UInt8
  Scans : Parser → Prop
  scans_empty : Scans []
  scans_result : ∀ lines privateKey parser, Scans parser →
    ∃ result, safeLines lines privateKey parser = .ok result ∧ Scans result.2.2

def SOURCES : List String := ["app", "kms", "nginx-access", "nginx-error"]

/-- `WRITERS.get(source, frozenset())`. -/
def WRITERS (source : String) : List String :=
  if source = "app" then ["web", "worker", "console"]
  else if SOURCES.contains source then ["service"]
  else []

def BATCH_BYTES : Nat := 1024 * 1024

def RETAINED_BYTES : Nat := 8 * BATCH_BYTES

structure Checkpoint where
  privateKey : Bool
  parser : Parser
  deriving DecidableEq, Repr

structure Receipt where
  revision : Int
  fingerprint : List UInt8
  sequence : Nat
  deriving DecidableEq, Repr

/-- A batch after the scanner: the texts, what each is charged, the checkpoint behind
them and the fingerprint of the input. -/
structure Batch where
  texts : List String
  charges : List Nat
  privateKey : Bool
  parser : Parser
  fingerprint : List UInt8
  deriving DecidableEq, Repr

structure Prepared where
  base : Nat × Nat
  batch : Batch
  deriving DecidableEq, Repr

structure CapturePending where
  writer : String
  revision : Int
  prepared : Option Prepared
  deriving DecidableEq, Repr

structure Store where
  /-- `sequence` and `byte_end` of the source's row of `producer`. -/
  producer : Option (Nat × Nat)
  checkpoints : List (String × Checkpoint)
  records : List (Record String)
  receipts : List (String × Receipt)
  pending : Option CapturePending
  deriving DecidableEq, Repr

/-- What `initialize` leaves. -/
def emptyStore : Store := ⟨none, [], [], [], none⟩

def recoveryMessage : String := "Producer capture requires interrupted-record recovery."

def captureRecoveryMessage : String :=
  "Producer history capture requires interrupted-record recovery."

def oversizedNotice : String :=
  "[Oversized log entry omitted: exceeds 64 KiB; continuing with the next complete entry.]"

def concealedText : String := "[redacted private key]"

/-! ### Statements -/

/-- `INSERT INTO record`: the primary key is the sequence number. -/
def insertRecord (record : Record String) (records : List (Record String)) :
    Except Raised (List (Record String)) :=
  if records.any fun other => other.sequence = record.sequence then
    .error (.integrityError "UNIQUE constraint failed: record.source, record.sequence")
  else .ok (records ++ [record])

def insertRows : List (String × Nat) → Nat × Nat → List (Record String) →
    Except Raised ((Nat × Nat) × List (Record String))
  | [], place, records => .ok (place, records)
  | (text, charge) :: rows, (sequence, byteEnd), records => do
      let records ← insertRecord ⟨sequence + 1, byteEnd + charge, text⟩ records
      insertRows rows (sequence + 1, byteEnd + charge) records

/-- `DELETE FROM record WHERE source=? AND byte_end<=?`. -/
def expire (source : String) (byteEnd : Nat) (records : List (Record String)) :
    List (Record String) :=
  if source = "app" then
    records.filter fun record => decide (byteEnd < record.byteEnd + RETAINED_BYTES)
  else records

/-- `UPDATE checkpoint ... WHERE source=? AND writer=?`: a missing row stays missing. -/
def updateCheckpoint (slot : String) (checkpoint : Checkpoint)
    (checkpoints : List (String × Checkpoint)) : List (String × Checkpoint) :=
  if (getItem slot checkpoints).isSome then setItem slot checkpoint checkpoints else checkpoints

/-- `INSERT OR IGNORE INTO checkpoint VALUES (?,?,0,'{}')`. -/
def ensureCheckpoint (slot : String) (checkpoints : List (String × Checkpoint)) :
    List (String × Checkpoint) :=
  if (getItem slot checkpoints).isSome then checkpoints
  else setItem slot ⟨false, []⟩ checkpoints

/-- `zip(texts, charges, strict=True)`. -/
def zipStrict (texts : List String) (charges : List Nat) :
    Except Raised (List (String × Nat)) :=
  if texts.length < charges.length then
    .error (.valueError "zip() argument 2 is longer than argument 1")
  else if charges.length < texts.length then
    .error (.valueError "zip() argument 2 is shorter than argument 1")
  else .ok (texts.zip charges)

def lineSize (line : String) : Nat := line.utf8ByteSize

/-- The condition on one item of `lines` that the batch checks. -/
def isComplete (line : String) : Bool := line = "" || splitlines line = [line]

/-! ### Receipts and checkpoints -/

/-- The receipt of an earlier attempt: its sequence when this revision was accepted with
this content, nothing when it is the next one. -/
def checkReceipt (store : Store) (writer : String) (revision : Int)
    (fingerprint : List UInt8) : Except Raised (Option Nat) :=
  let previous := ((getItem writer store.receipts).map Receipt.revision).getD 0
  match getItem writer store.receipts with
  | some receipt =>
    if revision = previous ∧ receipt.fingerprint = fingerprint then .ok (some receipt.sequence)
    else if revision ≠ previous + 1 then
      .error (.valueError "Producer revision conflicts with its committed receipt.")
    else .ok none
  | none =>
    if revision ≠ previous + 1 then
      .error (.valueError "Producer revision conflicts with its committed receipt.")
    else .ok none

/-- Whether another writer's stream is inside a key or has an incomplete marker. The
scanner writes `carry` as a JSON list of texts. -/
def conceals (checkpoint : Checkpoint) : Except Raised Bool := do
  let carry ← match getItem "carry" checkpoint.parser with
    | none | some "" => .ok ("S", "")
    | some text =>
      match Library.JsonText.loads text with
      | some (.array (.string mode :: .string suffix :: _)) => .ok (mode, suffix)
      | _ => .error (.valueError "Invalid private-key parser state.")
  .ok (checkpoint.privateKey || getItem "hold" checkpoint.parser = some "1" ||
    carry.1 ≠ "S" || carry.2 ≠ "")

def anyConceals (store : Store) (slot : String) : Except Raised Bool := do
  let states ← (store.checkpoints.filter fun row => row.1 ≠ slot).mapM fun row =>
    conceals row.2
  .ok (states.any id)

section Writing

variable (services : Services) (source : String)

/-- The batch's rows inserted at the end of the source, the checkpoint and the receipt
moved to them, and the expired rows and the capture marker removed. -/
def publish (slot : String) (identity : Option (String × Int)) (batch : Batch)
    (store : Store) : Except Raised (Nat × Store) := do
  let rows ← zipStrict batch.texts batch.charges
  let ((sequence, byteEnd), records) ← insertRows rows (store.producer.getD (0, 0)) store.records
  let receipts := match identity with
    | some (writer, revision) =>
      setItem writer ⟨revision, batch.fingerprint, sequence⟩ store.receipts
    | none => store.receipts
  .ok (sequence, {
    producer := some (sequence, byteEnd)
    checkpoints := setItem slot ⟨batch.privateKey, batch.parser⟩ store.checkpoints
    records := expire source byteEnd records
    receipts := receipts
    pending := none })

/-! ### `append` -/

def linesBytes (lines : List String) : List UInt8 :=
  Library.ByteWords.utf8Encode (String.ofList (dumpsLines lines))

/-- The lines after the scanner and the redaction, with the row of an oversized line
replaced by the notice. -/
def sanitize (slot : String) (lines : List String) (fingerprint : List UInt8)
    (store : Store) : Except Raised Batch := do
  let checkpoint := (getItem slot store.checkpoints).getD ⟨false, []⟩
  let (safe, privateKey, parser) ←
    services.safeLines lines checkpoint.privateKey checkpoint.parser
  let concealed ← anyConceals store slot
  let texts := safe.map fun line =>
    if concealed then concealedText else services.redactOperationalText line
  let charges := lines.map fun line => lineSize line + 1
  let rows ← zipStrict texts charges
  .ok {
    texts := rows.map fun row => if 65537 < row.2 then oversizedNotice else row.1
    charges := charges
    privateKey := privateKey
    parser := parser
    fingerprint := fingerprint }

/-- The checks of `append` before its transaction. -/
def checkLines (lines : List String) (writer : Option String) (revision : Option Int)
    (prepareOnly : Bool) : Except Raised Unit :=
  if lines.isEmpty || (!prepareOnly && decide (500 < lines.length)) || lines.any (fun line =>
      !isComplete line || (!prepareOnly && decide (65536 < lineSize line))) then
    .error (.valueError "Producer records must be bounded complete physical lines.")
  else if !prepareOnly &&
      decide (BATCH_BYTES < (lines.map fun line => lineSize line + 1).sum) then
    .error (.valueError "Producer batch exceeds its byte budget.")
  else match writer, revision with
    | none, none => .ok ()
    | some writer, some revision =>
      if (WRITERS source).contains writer && decide (1 ≤ revision) then .ok ()
      else .error (.valueError "Invalid producer receipt identity.")
    | _, _ => .error (.valueError "Invalid producer receipt identity.")

/-- `_connect`. -/
def checkSource : Except Raised Unit :=
  if SOURCES.contains source then .ok ()
  else .error (.valueError "Invalid producer history source.")

/-- The marker of an interrupted capture lets only its own batch through, and once that
has been staged only with the staged content. -/
def checkPending (writer : Option String) (revision : Option Int) (prepareOnly : Bool)
    (fingerprint : List UInt8) (store : Store) : Except Raised Unit :=
  match store.pending with
  | none =>
    if prepareOnly then
      .error (.valueError "Prepared capture requires a matching input marker.")
    else .ok ()
  | some marker =>
    if (writer, revision) ≠ (some marker.writer, some marker.revision) then
      .error (.valueError recoveryMessage)
    else match marker.prepared with
      | some prepared =>
        if prepared.batch.fingerprint ≠ fingerprint then
          .error (.valueError "Producer input conflicts with its prepared capture.")
        else .ok ()
      | none => .ok ()

/-- What the checks of `append` find: an earlier acceptance of this very batch, or the
batch to write. -/
inductive Finding where
  | repeated (sequence : Nat)
  | fresh (batch : Batch)

def examine (lines : List String) (writer : Option String) (revision : Option Int)
    (prepareOnly : Bool) (store : Store) : Except Raised Finding := do
  checkLines source lines writer revision prepareOnly
  checkSource source
  let fingerprint := if writer.isSome then services.hmac (linesBytes lines) else []
  checkPending writer revision prepareOnly fingerprint store
  match writer, revision with
  | some writer, some revision =>
    match ← checkReceipt store writer revision fingerprint with
    | some sequence => .ok (.repeated sequence)
    | none => .ok (.fresh (← sanitize services writer lines fingerprint store))
  | _, _ => .ok (.fresh (← sanitize services "" lines fingerprint store))

def identityOf (writer : Option String) (revision : Option Int) : Option (String × Int) :=
  match writer, revision with
  | some writer, some revision => some (writer, revision)
  | _, _ => none

def stage (slot : String) (batch : Batch) (store : Store) : Nat × Store :=
  let base := store.producer.getD (0, 0)
  (base.1 + batch.texts.length, { store with
    producer := some base
    checkpoints := ensureCheckpoint slot store.checkpoints
    pending := store.pending.map fun marker => { marker with prepared := some ⟨base, batch⟩ } })

def append (lines : List String) (writer : Option String) (revision : Option Int)
    (prepareOnly : Bool) (store : Store) : Except Raised (Nat × Store) := do
  match ← examine services source lines writer revision prepareOnly store with
  | .repeated sequence => .ok (sequence, store)
  | .fresh batch =>
    if prepareOnly then .ok (stage (writer.getD "") batch store)
    else publish source (writer.getD "") (identityOf writer revision) batch store

/-! ### `append_stream` -/

/-- The local variables of the loop over the chunks; `input` is what the digest has been
fed and `kept` what the incremental decoder holds back. -/
structure Reading where
  pending : List UInt8
  charge : Nat
  (terminated oversized : Bool)
  kept : List UInt8
  privateKey : Bool
  parser : Parser
  input : List UInt8

def scanFragment (text : String) (reading : Reading) : Except Raised Reading := do
  let (_, privateKey, parser) ← services.safeLines [text] reading.privateKey reading.parser
  .ok { reading with privateKey := privateKey, parser := parser }

def readChunk (reading : Reading) (chunk : List UInt8) : Except Raised Reading :=
  if chunk.isEmpty || decide (65536 < chunk.length) || reading.terminated then
    .error (.valueError "Streamed producer records require bounded physical input.")
  else if chunk.contains 10 && (chunk.getLast? != some 10 || chunk.dropLast.contains 10) then
    .error (.valueError "Streamed producer input contains multiple physical records.")
  else
    let terminated := chunk.contains 10
    let fragment := if terminated then chunk.dropLast else chunk
    let reading := { reading with
      terminated := terminated
      charge := reading.charge + chunk.length
      input := reading.input ++ chunk }
    if reading.oversized then
      let (text, kept) := decodeReplacing false (reading.kept ++ fragment)
      scanFragment services text { reading with kept := kept }
    else if 65536 < reading.pending.length + fragment.length then
      let (text, kept) := decodeReplacing false (reading.kept ++ (reading.pending ++ fragment))
      scanFragment services text { reading with oversized := true, kept := kept, pending := [] }
    else .ok { reading with pending := reading.pending ++ fragment }

/-- `str.removesuffix("\r")`. -/
def removeCarriage (text : String) : String :=
  if text.toList.getLast? = some '\r' then String.ofList text.toList.dropLast else text

/-- The row's text and the checkpoint behind it, once the chunks are read. -/
def finishReading (reading : Reading) : Except Raised (String × Bool × Parser) := do
  if reading.oversized then
    let reading ← scanFragment services (decodeReplacing true reading.kept).1 reading
    .ok (oversizedNotice, reading.privateKey, reading.parser)
  else
    let (safe, privateKey, parser) ← services.safeLines
      [removeCarriage (decodeReplacing true reading.pending).1] reading.privateKey reading.parser
    .ok (String.intercalate " " (safe.map services.redactOperationalText), privateKey, parser)

def recordBytes (data : List UInt8) : List UInt8 :=
  Library.ByteWords.utf8Encode "physical-record\x00" ++ data

/-- The checks of `append_stream` before it reads the chunks. -/
def checkStream (writer : String) (revision : Int) (store : Store) : Except Raised Unit :=
  if !((WRITERS source).contains writer && decide (1 ≤ revision)) then
    .error (.valueError "Invalid producer receipt identity.")
  else do
    checkSource source
    if store.pending.isSome then .error (.valueError recoveryMessage) else .ok ()

def readChunks (checkpoint : Checkpoint) (chunks : List (List UInt8)) :
    Except Raised Reading := do
  let reading ← chunks.foldlM (readChunk services)
    ⟨[], 0, false, false, [], checkpoint.privateKey, checkpoint.parser, []⟩
  if reading.charge = 0 then .error (.valueError "Streamed producer record is empty.")
  else .ok reading

/-- What `append_stream` finds. It reads the chunks before it looks at the receipt. -/
def examineStream (chunks : List (List UInt8)) (writer : String) (revision : Int)
    (store : Store) : Except Raised Finding := do
  checkStream source writer revision store
  let reading ← readChunks services
    ((getItem writer store.checkpoints).getD ⟨false, []⟩) chunks
  let (text, privateKey, parser) ← finishReading services reading
  let fingerprint := services.hmac (recordBytes reading.input)
  match ← checkReceipt store writer revision fingerprint with
  | some sequence => .ok (.repeated sequence)
  | none => do
      let concealed ← anyConceals store writer
      .ok (.fresh {
        texts := [if concealed && !reading.oversized then concealedText else text]
        charges := [reading.charge]
        privateKey := privateKey
        parser := parser
        fingerprint := fingerprint })

def appendStream (chunks : List (List UInt8)) (writer : String) (revision : Int)
    (store : Store) : Except Raised (Nat × Store) := do
  match ← examineStream services source chunks writer revision store with
  | .repeated sequence => .ok (sequence, store)
  | .fresh batch => publish source writer (some (writer, revision)) batch store

/-! ### Capture -/

/-- `_finish_prepared_capture`. The `UPDATE` statements leave missing rows missing. -/
def finishPreparedCapture (store : Store) : Except Raised Store :=
  match store.pending with
  | none => .ok store
  | some marker =>
    match marker.prepared with
    | none => .error (.valueError captureRecoveryMessage)
    | some prepared =>
      let place := store.producer.getD (0, 0)
      if place ≠ prepared.base then
        .error (.valueError "Prepared capture does not match its source boundary.")
      else do
        let rows ← zipStrict prepared.batch.texts prepared.batch.charges
        let ((sequence, byteEnd), records) ← insertRows rows place store.records
        .ok {
          producer := store.producer.map fun _ => (sequence, byteEnd)
          checkpoints := updateCheckpoint marker.writer
            ⟨prepared.batch.privateKey, prepared.batch.parser⟩ store.checkpoints
          records := expire source byteEnd records
          receipts := setItem marker.writer
            ⟨marker.revision, prepared.batch.fingerprint, sequence⟩ store.receipts
          pending := none }

/-- The second transaction of `capture_record`: the marker before the record is
formatted. -/
def markCapture (writer : String) (store : Store) : Except Raised (Int × Store) :=
  if store.pending.isSome then .error (.valueError captureRecoveryMessage)
  else
    let revision := ((getItem writer store.receipts).map Receipt.revision).getD 0 + 1
    .ok (revision, { store with pending := some ⟨writer, revision, none⟩ })

/-- `formatter.format(record).splitlines() or [""]`. -/
def captureLines (message : String) : List String :=
  match splitlines message with
  | [] => [""]
  | lines => lines

end Writing

end Atlaso.Logs.ProducerStore
