import Atlaso.Library.FilePrograms
import Atlaso.Logs.LogPaging
import Atlaso.Logs.SafeLines

/-!
`nginx_log_capture`: a sealed pair of Nginx log files replayed into the producer store,
batch by batch, each under a receipt that is written down before it is used.

The disk is that of the whole collector. Its files are ordinary single-link files; a name
stands for an identity, so that a file that is renamed keeps its bytes. Metadata files are
kept as the values whose JSON text they hold.
-/

namespace Atlaso.Logs.NginxCapture

open Library Dictionary FilePrograms LineText PhysicalLines ProducerStore

/-! ### The disk -/

/-- `LOG_NAMES`. -/
inductive LogName where
  | access | error
  deriving DecidableEq, Repr

def LogName.source : LogName → String
  | .access => "nginx-access"
  | .error => "nginx-error"

/-- A dictionary with the keys `LOG_NAMES`. -/
structure PerLog (Value : Type) where
  (access error : Value)
  deriving DecidableEq, Repr

namespace PerLog

variable {Value Other : Type}

def get (values : PerLog Value) : LogName → Value
  | .access => values.access
  | .error => values.error

def set (values : PerLog Value) : LogName → Value → PerLog Value
  | .access, value => { values with access := value }
  | .error, value => { values with error := value }

@[simp] theorem get_set (values : PerLog Value) (name : LogName) (value : Value) :
    (values.set name value).get name = value := by
  cases name <;> rfl

theorem get_set_ne (values : PerLog Value) {name other : LogName} (value : Value)
    (different : other ≠ name) : (values.set name value).get other = values.get other := by
  cases name <;> cases other <;> first | rfl | exact absurd rfl different

end PerLog

/-- `st_dev` and `st_ino`. -/
abbrev Identity := Nat × Nat

/-- One entry of the manifest's `files`; size and digest are there once it is sealed. -/
structure SealedFile where
  identity : Identity
  size : Option Nat
  sha256 : Option String
  deriving DecidableEq, Repr

structure Manifest where
  schema : Int
  state : String
  files : PerLog SealedFile
  deriving DecidableEq, Repr

structure Pending where
  (start finish : Nat)
  revision : Int
  deriving DecidableEq, Repr

structure Entry where
  offset : Nat
  pending : Option Pending
  deriving DecidableEq, Repr

/-- `capture.json`. -/
structure CaptureState where
  schema : Int
  storeGeneration : String
  files : PerLog Entry
  deriving DecidableEq, Repr

structure Generation where
  manifest : Option Manifest
  retained : PerLog (Option Identity)
  capture : Option CaptureState
  deriving DecidableEq, Repr

/-- `nginx.sqlite`: the identity row, the rows of each source, and the rows of
`legacy_import` and `cutover`. -/
structure NginxStore where
  generation : String
  sources : PerLog Store
  imported : PerLog (Option (List String))
  cutover : PerLog (Option Nat)
  deriving DecidableEq, Repr

/-- The name of a rotated file: its number, and whether it ends in `.gz`. -/
structure Rotation where
  number : Nat
  compressed : Bool
  deriving DecidableEq, Repr

/-- `nginx-state.json`; `pending` is the sequence whose directory it names. -/
structure CollectorState where
  schema : Int
  phase : String
  next : Nat
  pending : Option Nat
  archives : PerLog (List Rotation)
  storeGeneration : Option String
  deriving DecidableEq, Repr

/-- The files by identity, the log directory, the collector's own files, and the identities
that processes of Nginx hold open. -/
structure Disk where
  inodes : List (Identity × List UInt8)
  logs : PerLog (Option Identity)
  archives : PerLog (List (Rotation × Identity))
  generations : List (Nat × Generation)
  state : Option CollectorState
  store : Option NginxStore
  writers : List Identity
  deriving DecidableEq, Repr

def Disk.content (disk : Disk) (identity : Identity) : List UInt8 :=
  (getItem identity disk.inodes).getD []

def Disk.setGeneration (disk : Disk) (directory : Nat) (generation : Generation) : Disk :=
  { disk with generations := setItem directory generation disk.generations }

/-- `_checkpoint`. -/
def Disk.writeCapture (disk : Disk) (directory : Nat) (state : CaptureState) : Disk :=
  match getItem directory disk.generations with
  | some generation => disk.setGeneration directory { generation with capture := some state }
  | none => disk

def Disk.setSource (disk : Disk) (name : LogName) (rows : Store) : Disk :=
  { disk with store := disk.store.map fun store =>
      { store with sources := store.sources.set name rows } }

inductive CollectorError where
  | raised (raised : Raised)
  | fileNotFound | osError | timeout
  deriving DecidableEq, Repr

def valueError (message : String) : CollectorError := .raised (.valueError message)

/-- The durable steps of the collector. -/
inductive Place where
  | stateWrite | logFile | directory | manifestWrite | rename | reopen | storeTables | snapshot
  | importing | activation | checkpoint | appending
  deriving DecidableEq, Repr

abbrev Action (Value : Type) := Program Disk Place (Except CollectorError Value)

def raise {Value : Type} (error : CollectorError) : Action Value := .done (.error error)

/-- One durable step; a step that is reported as failed raises. -/
def durable {Value : Type} (place : Place) (effect : Disk → Disk) (next : Action Value) :
    Action Value :=
  .update place effect fun reported => if reported then next else raise .osError

def andThen {Value Next : Type} (first : Action Value) (next : Value → Action Next) :
    Action Next :=
  first.bind fun result =>
    match result with
    | .error error => raise error
    | .ok value => next value

/-! ### Reading a batch -/

def BATCH_INPUT_BYTES : Nat := 192 * 1024

def LINE_INPUT_BYTES : Nat := 64 * 1024

/-- `raw.decode("utf-8", errors="replace").rstrip("\r\n")`. -/
def lineText (raw : List UInt8) : String :=
  rstripNewlines (decodeReplacing true raw).1

/-- The passes of the loop that add a line, at most as many as may still be added, with the
bytes they read. A line over the bound ends the batch before it. -/
def readLines : Nat → Nat → List UInt8 → List String × Nat
  | 0, _, _ => ([], 0)
  | room + 1, used, rest =>
    if used < BATCH_INPUT_BYTES then
      let raw := readline (LINE_INPUT_BYTES + 1) rest
      if raw.isEmpty || decide (LINE_INPUT_BYTES < raw.length) then ([], 0)
      else
        let (lines, size) := readLines room (used + raw.length) (rest.drop raw.length)
        (lineText raw :: lines, raw.length + size)
    else ([], 0)

/-- The loop that reads on to the end of a line over the bound: how many bytes it adds.
Every pass reads a byte, so the bytes left are fuel enough. -/
def skipRecord : Nat → List UInt8 → List UInt8 → Nat
  | 0, _, _ => 0
  | fuel + 1, raw, rest =>
    if raw.getLast? = some 10 then 0
    else
      let raw := readline LINE_INPUT_BYTES rest
      if raw.isEmpty then 0 else raw.length + skipRecord fuel raw (rest.drop raw.length)

/-- What one pass of the outer loop finds before the bytes `rest`: lines for one batch, or
one line over the bound. -/
inductive FileBatch where
  | lines (lines : List String) (size : Nat)
  | oversized (size : Nat)
  deriving DecidableEq, Repr

def FileBatch.size : FileBatch → Nat
  | .lines _ size => size
  | .oversized size => size

def readBatch (rest : List UInt8) : FileBatch :=
  let raw := readline (LINE_INPUT_BYTES + 1) rest
  if LINE_INPUT_BYTES < raw.length then
    .oversized (raw.length + skipRecord rest.length raw (rest.drop raw.length))
  else
    let (lines, size) := readLines 500 0 rest
    .lines lines size

def recordChunks : Nat → List UInt8 → List (List UInt8)
  | 0, _ => []
  | fuel + 1, record =>
    if record.isEmpty then []
    else record.take LINE_INPUT_BYTES :: recordChunks fuel (record.drop LINE_INPUT_BYTES)

/-! ### `capture_generation` -/

def changedInput : String := "Nginx pending capture does not match its sealed input."

/-- `read_page(store, "nginx-access", limit=1).generation`. -/
def readGeneration (disk : Disk) : Except CollectorError String :=
  match disk.store with
  | none => .error (.raised (.operationalError "unable to open database file"))
  | some store =>
    match LogPaging.readPage "nginx-access" store.generation store.sources.access 0 none none 1
    with
    | .error raised => .error (.raised raised)
    | .ok page => .ok page.generation

section Capture

variable (services : Services) (sha256 : List UInt8 → String) (directory : Nat)

def storeBatch (name : LogName) (record : List UInt8) (batch : FileBatch) (revision : Int)
    (rows : Store) : Except Raised (Nat × Store) :=
  match batch with
  | .lines lines _ =>
    append services name.source lines (some "service") (some revision) false rows
  | .oversized _ =>
    appendStream services name.source (recordChunks record.length record) "service" revision
      rows

def appendBatch {Value : Type} (name : LogName) (record : List UInt8) (batch : FileBatch)
    (revision : Int) (next : Action Value) : Action Value :=
  .observe fun disk =>
    match disk.store with
    | none => raise (.raised (.operationalError "unable to open database file"))
    | some store =>
      match storeBatch services name record batch revision (store.sources.get name) with
      | .error raised => raise (.raised raised)
      | .ok (_, rows) => durable .appending (fun disk => disk.setSource name rows) next

/-- The receipt of the batch before it is used: the one an interrupted run left, or the
next one, written down first. -/
def markBatch (name : LogName) (finish : Nat) (state : CaptureState)
    (next : CaptureState → Pending → Action CaptureState) : Action CaptureState :=
  let entry := state.files.get name
  match entry.pending with
  | some pending => next state pending
  | none =>
    .observe fun disk =>
      match disk.store with
      | none => raise (.raised (.operationalError "unable to open database file"))
      | some store =>
        let revision := ((getItem "service" (store.sources.get name).receipts).map
          Receipt.revision).getD 0 + 1
        let pending : Pending := ⟨entry.offset, finish, revision⟩
        let state := { state with files := state.files.set name ⟨entry.offset, some pending⟩ }
        durable .checkpoint (fun disk => disk.writeCapture directory state)
          (next state pending)

/-- The loop over the batches of one file. Every batch has a byte, so the bytes of the file
are fuel enough. -/
def captureBatches (name : LogName) (content : List UInt8) :
    Nat → CaptureState → Action CaptureState
  | 0, state => .done (.ok state)
  | fuel + 1, state =>
    let offset := (state.files.get name).offset
    if content.length ≤ offset then .done (.ok state)
    else
      let batch := readBatch (content.drop offset)
      let finish := offset + batch.size
      markBatch directory name finish state fun state pending =>
        if pending.start ≠ offset ∨ pending.finish ≠ finish then raise (valueError changedInput)
        else
          let record := (content.drop offset).take batch.size
          let state := { state with files := state.files.set name ⟨finish, none⟩ }
          appendBatch services name record batch pending.revision
            (durable .checkpoint (fun disk => disk.writeCapture directory state)
              (captureBatches name content fuel state))

def captureFile (manifest : Manifest) (name : LogName) (state : CaptureState) :
    Action CaptureState :=
  .observe fun disk =>
    match (getItem directory disk.generations).bind fun generation =>
        generation.retained.get name with
    | none => raise .fileNotFound
    | some identity =>
      let content := disk.content identity
      let expected := manifest.files.get name
      if identity ≠ expected.identity ∨ expected.size ≠ some content.length ∨
          expected.sha256 ≠ some (sha256 content) then
        raise (valueError "Nginx sealed generation identity or contents changed.")
      else if content.length < (state.files.get name).offset then
        raise (valueError "Invalid Nginx capture offset.")
      else
        andThen (captureBatches services directory name content content.length state)
          fun state => .observe fun disk =>
            if disk.content identity ≠ content then
              raise (valueError "Sealed Nginx input changed during capture.")
            else .done (.ok state)

def captureFiles (manifest : Manifest) (state : CaptureState) : Action Unit :=
  andThen (captureFile services sha256 directory manifest .access state) fun state =>
    andThen (captureFile services sha256 directory manifest .error state) fun _ =>
      .done (.ok ())

def captureGeneration : Action Unit :=
  .observe fun disk =>
    match getItem directory disk.generations with
    | none => raise .fileNotFound
    | some generation =>
      match generation.manifest with
      | none => raise .fileNotFound
      | some manifest =>
        if manifest.schema ≠ 1 ∨ manifest.state ≠ "sealed" then
          raise (valueError "Nginx capture requires a complete sealed generation.")
        else match readGeneration disk with
          | .error error => raise error
          | .ok storeGeneration =>
            match generation.capture with
            | some state =>
              if state.schema ≠ 1 ∨ state.storeGeneration ≠ storeGeneration then
                raise (valueError "Nginx capture store changed during generation replay.")
              else captureFiles services sha256 directory manifest state
            | none =>
              let state : CaptureState :=
                ⟨1, storeGeneration, ⟨⟨0, none⟩, ⟨0, none⟩⟩⟩
              durable .checkpoint (fun disk => disk.writeCapture directory state)
                (captureFiles services sha256 directory manifest state)

end Capture

end Atlaso.Logs.NginxCapture
