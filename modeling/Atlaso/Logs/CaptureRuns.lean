import Atlaso.Logs.ProducerStore

/-!
Runs of the producer log store: appends, streamed records and captures of any writers in
any order, each transaction a step, with a crash of the capturing process between any two
of its transactions.

Beside the store runs a ledger of what has been accepted. It reads the outcome of each
call and is not part of the program.
-/

namespace Atlaso.Logs.CaptureRuns

open Library Dictionary NumberedLog ProducerStore

/-! ### The system -/

/-- Where `capture_record` stands between its transactions. -/
inductive Stage where
  | recovering | marking
  | preparing (revision : Int)
  | publishing
  deriving DecidableEq, Repr

/-- The process that holds the capture lock. `message` is what the formatter will return,
nothing when it raises. -/
structure Capture where
  writer : String
  message : Option String
  stage : Stage
  deriving DecidableEq, Repr

structure World where
  store : Store
  capture : Option Capture
  deriving DecidableEq, Repr

inductive Event where
  | append (lines : List String) (writer : Option String) (revision : Option Int)
  | appendStream (chunks : List (List UInt8)) (writer : String) (revision : Int)
  | beginCapture (writer : String) (message : Option String)
  | advanceCapture | crash
  deriving DecidableEq, Repr

inductive Outcome where
  | returned (sequence : Nat)
  | proceeded
  | refused (raised : Raised)
  deriving DecidableEq, Repr

section Steps

variable (services : Services) (source : String)

def captureTransaction (capture : Capture) (store : Store) :
    Except Raised (Store × Option Stage) :=
  match capture.stage with
  | .recovering => do
      let store ← finishPreparedCapture source store
      .ok (store, some .marking)
  | .marking => do
      let (revision, store) ← markCapture capture.writer store
      .ok (store, some (.preparing revision))
  | .preparing revision =>
    match capture.message with
    | none => .error .formatterError
    | some message => do
        let (_, store) ← append services source (captureLines message)
          (some capture.writer) (some revision) true store
        .ok (store, some .publishing)
  | .publishing => do
      let store ← finishPreparedCapture source store
      .ok (store, none)

def step (world : World) : Event → World × Outcome
  | .append lines writer revision =>
    match append services source lines writer revision false world.store with
    | .ok (sequence, store) => ({ world with store := store }, .returned sequence)
    | .error raised => (world, .refused raised)
  | .appendStream chunks writer revision =>
    match appendStream services source chunks writer revision world.store with
    | .ok (sequence, store) => ({ world with store := store }, .returned sequence)
    | .error raised => (world, .refused raised)
  | .beginCapture writer message =>
    if !(WRITERS source).contains writer then
      (world, .refused (.valueError "Invalid producer slot."))
    else if world.capture.isSome then
      (world, .refused (.operationalError "database is locked"))
    else ({ world with capture := some ⟨writer, message, .recovering⟩ }, .proceeded)
  | .advanceCapture =>
    match world.capture with
    | none => (world, .proceeded)
    | some capture =>
      match captureTransaction services source capture world.store with
      | .ok (store, stage) =>
        (⟨store, stage.map fun stage => { capture with stage := stage }⟩, .proceeded)
      | .error raised => ({ world with capture := none }, .refused raised)
  | .crash => ({ world with capture := none }, .proceeded)

/-! ### What has been accepted -/

inductive Content where
  | lines (lines : List String)
  | physicalRecord (data : List UInt8)
  deriving DecidableEq, Repr

def Content.charges : Content → List Nat
  | .lines given => given.map fun line => lineSize line + 1
  | .physicalRecord data => [data.length]

def Content.bytes : Content → List UInt8
  | .lines given => linesBytes given
  | .physicalRecord data => recordBytes data

structure Accepted where
  writer : Option String
  revision : Option Int
  content : Content
  texts : List String
  /-- The number of the batch's last row. -/
  sequence : Nat
  deriving DecidableEq, Repr

def Accepted.rows (accepted : Accepted) : List (String × Nat) :=
  accepted.texts.zip accepted.content.charges

/-- The rows the source started with, the batches accepted since, and the input of the
batch that is staged. -/
structure Ledger where
  legacy : List (String × Nat)
  accepted : List Accepted
  staged : Option Content
  deriving DecidableEq, Repr

def Ledger.rows (ledger : Ledger) : List (String × Nat) :=
  ledger.legacy ++ ledger.accepted.flatMap Accepted.rows

def Ledger.ofWriter (ledger : Ledger) (writer : String) : List Accepted :=
  ledger.accepted.filter fun accepted => accepted.writer = some writer

def Ledger.accept (ledger : Ledger) (writer : Option String) (revision : Option Int)
    (content : Content) (texts : List String) : Ledger :=
  { ledger with
    accepted := ledger.accepted ++
      [⟨writer, revision, content, texts, ledger.rows.length + texts.length⟩]
    staged := none }

def Ledger.publish (ledger : Ledger) (store : Store) : Ledger :=
  match store.pending, ledger.staged with
  | some marker, some content =>
    match marker.prepared with
    | some prepared =>
      ledger.accept (some marker.writer) (some marker.revision) content prepared.batch.texts
    | none => ledger
  | _, _ => ledger

def observeCapture (capture : Capture) (store : Store) (ledger : Ledger) : Ledger :=
  match captureTransaction services source capture store, capture.stage, capture.message with
  | .ok _, .recovering, _ => ledger.publish store
  | .ok _, .publishing, _ => ledger.publish store
  | .ok _, .preparing _, some message =>
    { ledger with staged := some (.lines (captureLines message)) }
  | _, _, _ => ledger

def observe (world : World) (event : Event) (ledger : Ledger) : Ledger :=
  match event with
  | .append lines writer revision =>
    match append services source lines writer revision false world.store,
        examine services source lines writer revision false world.store with
    | .ok _, .ok (.fresh batch) => ledger.accept writer revision (.lines lines) batch.texts
    | _, _ => ledger
  | .appendStream chunks writer revision =>
    match appendStream services source chunks writer revision world.store,
        examineStream services source chunks writer revision world.store with
    | .ok _, .ok (.fresh batch) =>
      ledger.accept (some writer) (some revision) (.physicalRecord chunks.flatten) batch.texts
    | _, _ => ledger
  | .advanceCapture =>
    match world.capture with
    | some capture => observeCapture services source capture world.store ledger
    | none => ledger
  | .beginCapture _ _ | .crash => ledger

def runEvents (state : World × Ledger) (events : List Event) : World × Ledger :=
  events.foldl (fun state event =>
    ((step services source state.1 event).1, observe services source state.1 event state.2)) state

end Steps

/-- What `import_legacy` leaves: every preserved row, and one checkpoint for all writers. -/
def importedStore (source : String) (legacy : List (String × Nat)) (checkpoint : Checkpoint) :
    Store :=
  ⟨some (legacy.length, total legacy), (WRITERS source).map fun writer => (writer, checkpoint),
    numbered 0 0 legacy, [], none⟩

inductive Opening (services : Services) (source : String) :
    Store → List (String × Nat) → Prop where
  | fresh : Opening services source emptyStore []
  | imported (legacy : List (String × Nat)) (checkpoint : Checkpoint)
      (scans : services.Scans checkpoint.parser) :
      Opening services source (importedStore source legacy checkpoint) legacy

end Atlaso.Logs.CaptureRuns
