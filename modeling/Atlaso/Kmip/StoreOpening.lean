import Atlaso.Kmip.StoreOperations

/-!
The constructor of `WrappedKeyStore`: the existence check, `_load_or_create_kek` and
`_initialize`.
-/

namespace Atlaso.Kmip.StoreOpening

open Exceptions StoreFiles StoreOperations StoreOperations.StoreM Library FilePrograms
open SortedTables

/-- What an opening draws: a new KEK and the nonces of the envelopes it may write. -/
structure OpenDraws where
  kek : KeyMaterial
  (createNonce settleNonce : Bytes)

/-- The part of the constructor that has no session yet. -/
def FilesM (Value : Type) : Type := Files (Except Raised Value)

namespace FilesM

variable {Value Next : Type}

def bind (first : FilesM Value) (next : Value → FilesM Next) : FilesM Next :=
  Program.bind first fun outcome =>
    match outcome with
    | .ok value => next value
    | .error raised => .done (.error raised)

instance : Monad FilesM where
  pure value := .done (.ok value)
  bind := bind

def lift (result : Except Raised Value) : FilesM Value := .done result

def inspect (view : Disk → Except Raised Value) : FilesM Value :=
  .observe fun disk => .done (view disk)

def change (step : FileStep) (effect : Disk → Disk) : FilesM Unit :=
  .update step effect fun reported =>
    if reported then .done (.ok ()) else .done (.error (.osError "file operation failed"))

end FilesM

def unlessReadOnly (readOnly : Bool) (action : FilesM Unit) : FilesM Unit :=
  if readOnly then pure () else action

def makeDatabaseDirectory (disk : Disk) : Disk := { disk with databaseDirectory := true }

def makeKekDirectory (disk : Disk) : Disk := { disk with kekDirectory := true }

/-- The create branch of `_load_or_create_kek`: it writes with the master key of the
secrets key, whatever the custody file holds. -/
def createKek (crypto : Crypto) (secretsKey : String) (draws : OpenDraws) :
    FilesM (Bytes × KekEnvelope) := do
  FilesM.change .makeKekDirectory makeKekDirectory
  let master ← FilesM.lift (masterKey crypto secretsKey)
  let envelope := settledEnvelope draws.kek.bytes 0 ""
  FilesM.change .createKek fun disk =>
    disk.writeKek (envelopeText crypto master draws.createNonce envelope)
  return (master, envelope)

def loadOrCreateKek (crypto : Crypto) (secretsKey : String) (readOnly : Bool)
    (draws : OpenDraws) : FilesM (Bytes × KekEnvelope) := do
  let secretsMaster ← FilesM.lift (masterKey crypto secretsKey)
  let master ← FilesM.inspect fun disk => custodyMaster crypto secretsMaster disk.custody
  let kek ← FilesM.inspect fun disk => .ok disk.kek
  match kek with
  | some text => do
      let envelope ← FilesM.lift (readEnvelope crypto master text)
      return (master, envelope)
  | none =>
    if readOnly then
      FilesM.lift (.error (.keyStoreError "KMIP read-only store is incomplete."))
    else createKek crypto secretsKey draws

/-! ### `_initialize` -/

/-- `sqlite3.connect` creates an empty file; each statement of the schema script creates
its table if it does not exist. -/
def createDatabase (disk : Disk) : Disk :=
  { disk with database := some (disk.database.getD ⟨none, none⟩) }

def createMetadataTable (disk : Disk) : Disk :=
  { disk with database := disk.database.map fun database =>
    { database with metadata := some (database.metadata.getD ⟨[], Tables.empty.metadataSorted⟩) } }

def createKeysTable (disk : Disk) : Disk :=
  { disk with database := disk.database.map fun database =>
    { database with keys := some (database.keys.getD ⟨[], Tables.empty.keysSorted⟩) } }

def runSchemaScript : FilesM Unit := do
  FilesM.change .createDatabase createDatabase
  FilesM.change .createMetadataTable createMetadataTable
  FilesM.change .createKeysTable createKeysTable

def schemaVersion (tables : Tables) : Option String :=
  (findRow Prod.fst "schema_version" tables.metadata).map Prod.snd

/-- The rows as the transaction of `_initialize` leaves them, and whether it inserted the
schema version. -/
def withSchemaVersion (readOnly : Bool) (tables : Tables) : Except Raised (Tables × Bool) :=
  match schemaVersion tables with
  | some value =>
    if value = toString storeSchemaVersion then .ok (tables, false)
    else .error (.keyStoreError "KMIP operational store schema version is unsupported.")
  | none =>
    if readOnly then
      .error (.keyStoreError "KMIP read-only store schema is incomplete.")
    else (tables.insertMetadata "schema_version" (toString storeSchemaVersion)).map
      fun inserted => (inserted, true)

/-- `_initialize` after the schema script. -/
def initializeRows (crypto : Crypto) (draws : OpenDraws) : StoreM Unit := do
  let session ← session
  let stored ← readTables
  let (tables, inserted) ← StoreM.lift (withSchemaVersion session.readOnly stored)
  verifyStoreCommitment crypto draws.settleNonce tables
  if inserted then do
    let committed ← commitTables .commitSchema tables
    if committed then pure () else raise (.osError "database commit failed")
  else pure ()

/-- A method run from the constructor: the result is the session that it leaves. -/
def inSession (action : StoreM Unit) (session : Session) : FilesM Session :=
  (action session).bind fun outcome => .done (outcome.1.map fun _ => outcome.2)

/-- `_initialize`. -/
def initializeStore (crypto : Crypto) (draws : OpenDraws) (session : Session) :
    FilesM Session := do
  unlessReadOnly session.readOnly runSchemaScript
  inSession (initializeRows crypto draws) session

/-! ### The constructor -/

def existTogether (disk : Disk) : Except Raised Unit :=
  if disk.database.isSome = disk.kek.isSome then .ok ()
  else .error (.keyStoreError "KMIP operational store and KEK envelope must exist together.")

def journalSettled (readOnly : Bool) (disk : Disk) : Except Raised Unit :=
  if readOnly && disk.journal then
    .error (.keyStoreError "KMIP offline snapshot requires settled SQLite journal state.")
  else .ok ()

/-- `WrappedKeyStore(database_path, kek_path, secrets_key=..., read_only=...)`. -/
def openStore (crypto : Crypto) (secretsKey : String) (readOnly : Bool) (draws : OpenDraws) :
    FilesM Session := do
  FilesM.inspect (journalSettled readOnly)
  FilesM.inspect existTogether
  unlessReadOnly readOnly (FilesM.change .makeDatabaseDirectory makeDatabaseDirectory)
  let (master, envelope) ← loadOrCreateKek crypto secretsKey readOnly draws
  initializeStore crypto draws ⟨master, envelope.kek, envelope, readOnly⟩

end Atlaso.Kmip.StoreOpening
