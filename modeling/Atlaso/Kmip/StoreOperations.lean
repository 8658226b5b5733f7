import Atlaso.Kmip.StoreFiles
import Atlaso.Library.FilePrograms

/-!
The operations of `WrappedKeyStore` as programs over its files.

One `observe` is one read of a file and one `update` is one file-level step of the
source: a directory creation, the replacement of the KEK envelope, one autocommitted
schema statement, or one database commit. Rows of an open transaction stay in a
variable until the commit, so a rollback has nothing to undo. Random values and clock
readings come from a `Draws` record.
-/

namespace Atlaso.Kmip.StoreOperations

open Clock Exceptions Identifiers StoreFiles Library ByteWords Dictionary
open FilePrograms JsonText SortedTables

inductive FileStep where
  | makeDatabaseDirectory | makeKekDirectory | createKek | createDatabase | createMetadataTable
  | createKeysTable | settleEnvelope | commitSchema | pendingEnvelope | commitMutation | rollback
  | restoreEnvelope | finalEnvelope
  deriving DecidableEq, Repr

/-- `os.urandom(12)`. -/
structure Nonce where
  bytes : Bytes
  length : bytes.length = 12

/-- `os.urandom(32)`. -/
structure KeyMaterial where
  bytes : Bytes
  length : bytes.length = 32

/-- What one operation draws: an identifier, a clock reading, key bytes, a nonce for the
row, and the nonces of the envelopes it writes. -/
structure Draws where
  keyId : Uuid
  now : Reading
  material : KeyMaterial
  nonce : Nonce
  (settleNonce pendingNonce closingNonce : Bytes)

/-- The attributes of an open `WrappedKeyStore`. -/
structure Session where
  (masterKey kek : Bytes)
  envelope : KekEnvelope
  readOnly : Bool

def Session.remember (session : Session) (envelope : KekEnvelope) : Session :=
  { session with envelope := envelope }

abbrev Files (Result : Type) : Type := Program Disk FileStep Result

/-- A method of an open store: it may raise, and it may replace the envelope in memory. -/
def StoreM (Value : Type) : Type := Session → Files (Except Raised Value × Session)

namespace StoreM

variable {Value Next : Type}

def bind (first : StoreM Value) (next : Value → StoreM Next) : StoreM Next := fun session =>
  (first session).bind fun outcome =>
    match outcome.1 with
    | .ok value => next value outcome.2
    | .error raised => .done (.error raised, outcome.2)

instance : Monad StoreM where
  pure value := fun session => .done (.ok value, session)
  bind := bind

def lift (result : Except Raised Value) : StoreM Value := fun session => .done (result, session)

def raise (raised : Raised) : StoreM Value := lift (.error raised)

def session : StoreM Session := fun session => .done (.ok session, session)

end StoreM

open StoreM

/-! ### The two-file commit -/

/-- The rows that a connection sees. -/
def readTables : StoreM Tables := fun session => .observe fun disk =>
  .done (orRaise (.osError "no such table") (disk.database.bind Database.tables), session)

/-- `_write_envelope`. The envelope in memory changes only after the file did. -/
def writeEnvelope (crypto : Crypto) (step : FileStep) (nonce : Bytes) (envelope : KekEnvelope) :
    StoreM Unit := fun session =>
  .update step
    (fun disk => disk.writeKek (envelopeText crypto session.masterKey nonce envelope))
    fun reported =>
      if reported then .done (.ok (), session.remember envelope)
      else .done (.error (.osError "KEK envelope write failed"), session)

/-- `connection.commit()` of a transaction that leaves `tables`. -/
def commitTables (step : FileStep) (tables : Tables) : StoreM Bool := fun session =>
  .update step (fun disk => disk.writeTables tables)
    fun reported => .done (.ok reported, session)

/-- `connection.rollback()`. -/
def rollbackTables : StoreM Unit := fun session =>
  .update .rollback id fun reported =>
    if reported then .done (.ok (), session)
    else .done (.error (.osError "rollback failed"), session)

/-- What `_verify_store_commitment` decides from the envelope in memory and the
commitment of the rows. -/
inductive Settlement where
  | accept
  | rewrite (envelope : KekEnvelope)
  | reject (raised : Raised)
  deriving DecidableEq, Repr

def settlement (session : Session) (observed : String) : Settlement :=
  let envelope := session.envelope
  if session.readOnly then
    if envelope.commitment = "" ∨ envelope.pendingCommitment ≠ none ∨
        observed ≠ envelope.commitment then
      .reject (.keyStoreError
        "KMIP read-only store integrity or transaction state is unavailable.")
    else .accept
  else if envelope.commitment = "" then
    .rewrite (settledEnvelope session.kek envelope.generation observed)
  else if observed = envelope.commitment then
    if envelope.pendingCommitment ≠ none then
      .rewrite (settledEnvelope session.kek envelope.generation envelope.commitment)
    else .accept
  else if some observed = envelope.pendingCommitment then
    match envelope.pendingGeneration with
    | some generation => .rewrite (settledEnvelope session.kek generation observed)
    | none => .reject (.assertionError "")
  else .reject (.keyStoreError
    "KMIP operational store rollback or integrity validation failed.")

def verifyStoreCommitment (crypto : Crypto) (nonce : Bytes) (tables : Tables) : StoreM Unit := do
  let session ← session
  match settlement session (storeCommitment crypto tables) with
  | .accept => pure ()
  | .rewrite envelope => writeEnvelope crypto .settleEnvelope nonce envelope
  | .reject raised => raise raised

/-- The verification at the start of every operation. -/
def verifyStore (crypto : Crypto) (draws : Draws) : StoreM Unit := do
  let tables ← readTables
  verifyStoreCommitment crypto draws.settleNonce tables

/-- The steps of `_commit_mutation` after the pending envelope is written over a settled
one with this generation and commitment. -/
def finishMutation (crypto : Crypto) (draws : Draws) (kek : Bytes) (generation : Nat)
    (commitment : String) (tables : Tables) : StoreM Unit := do
  let committed ← commitTables .commitMutation tables
  if committed then
    writeEnvelope crypto .finalEnvelope draws.closingNonce
      (settledEnvelope kek (generation + 1) (storeCommitment crypto tables))
  else do
    rollbackTables
    writeEnvelope crypto .restoreEnvelope draws.closingNonce
      (settledEnvelope kek generation commitment)
    raise (.osError "database commit failed")

/-- `_commit_mutation` of a transaction that leaves `tables`. -/
def commitMutation (crypto : Crypto) (draws : Draws) (tables : Tables) : StoreM Unit := do
  let session ← session
  let generation := session.envelope.generation
  let commitment := session.envelope.commitment
  writeEnvelope crypto .pendingEnvelope draws.pendingNonce
    ⟨session.kek, generation, commitment, some (generation + 1),
      some (storeCommitment crypto tables)⟩
  finishMutation crypto draws session.kek generation commitment tables

/-! ### Keys -/

def insertKeyRow (tables : Tables) (row : WrappedRow) : StoreM Tables := do
  let session ← session
  if session.readOnly then raise (.osError "attempt to write a readonly database")
  else lift (tables.insertKey row)

def validateName (name : Option String) : Except Raised Unit :=
  match name with
  | none => .ok ()
  | some name =>
    if 1 ≤ name.length ∧ name.length ≤ 256 then .ok ()
    else .error (.valueError "name must contain 1 to 256 characters.")

/-- The row that `create_key` inserts. -/
def wrappedRow (crypto : Crypto) (kek : Bytes) (draws : Draws) (metadata : StoredKey) :
    WrappedRow :=
  { providerId := metadata.providerId
    keyId := metadata.keyId
    algorithm := metadata.algorithm
    keyLength := metadata.length
    name := metadata.name
    state := metadata.state
    createdAt := metadata.createdAt
    activatedAt := metadata.activatedAt
    nonce := draws.nonce.bytes
    ciphertext := crypto.encrypt kek draws.nonce.bytes draws.material.bytes
      (utf8Encode (canonicalAad metadata))
    aadJson := canonicalAad metadata }

def newMetadata (draws : Draws) (providerId : String) (name : Option String)
    (customAttributes : List (String × String)) : StoredKey :=
  { providerId := providerId
    keyId := draws.keyId.text
    algorithm := "AES"
    length := 256
    name := name
    state := "Pre-Active"
    createdAt := isoformat draws.now
    activatedAt := none
    customAttributes := customAttributes }

def createKey (crypto : Crypto) (draws : Draws) (providerId : String) (name : Option String)
    (customAttributes : List (String × String)) : StoreM StoredKey := do
  let normalizedProvider ← lift (validatedUuid providerId "provider_id")
  let normalizedCustomAttributes ←
    lift (validatedCustomAttributes (textMembers customAttributes))
  lift (validateName name)
  let metadata := newMetadata draws normalizedProvider name normalizedCustomAttributes
  let session ← session
  verifyStore crypto draws
  let tables ← readTables
  let inserted ← insertKeyRow tables (wrappedRow crypto session.kek draws metadata)
  commitMutation crypto draws inserted
  return metadata

/-- `_row`. -/
def findKeyRow (tables : Tables) (providerId keyId : String) : Except Raised WrappedRow := do
  let normalizedProvider ← validatedUuid providerId "provider_id"
  let normalizedKey ← validatedUuid keyId "key_id"
  orRaise (.keyNotFoundError "KMIP key was not found in the authenticated provider.")
    (findRow WrappedRow.key (toLex (normalizedProvider, normalizedKey)) tables.keys)

def metadataInvalid : Raised := .keyStoreError "KMIP key metadata integrity validation failed."

/-- The custom attributes that `_metadata` takes from the AAD of a row; every error of
the parser and of the validation has the same text. -/
def aadCustomAttributes (aadJson : String) : Except Raised (List (String × String)) := do
  let document ← orRaise metadataInvalid (loads aadJson)
  let members ← objectMembers metadataInvalid document
  let attributes ← objectMembers metadataInvalid
    ((getItem "custom_attributes" members).getD (.object []))
  (validatedCustomAttributes attributes).mapError fun _ => metadataInvalid

/-- `_metadata`. -/
def rowMetadata (row : WrappedRow) : Except Raised StoredKey := do
  let customAttributes ← aadCustomAttributes row.aadJson
  return {
    providerId := row.providerId
    keyId := row.keyId
    algorithm := row.algorithm
    length := row.keyLength
    name := row.name
    state := row.state
    createdAt := row.createdAt
    activatedAt := row.activatedAt
    customAttributes := customAttributes }

def decryptRow (crypto : Crypto) (kek : Bytes) (row : WrappedRow) :
    Except Raised (StoredKey × Bytes) := do
  let metadata ← rowMetadata row
  if row.aadJson = canonicalAad metadata then do
    let plaintext ← orRaise
      (.keyStoreError "KMIP wrapped key integrity validation failed.")
      (crypto.decrypt kek row.nonce row.ciphertext (utf8Encode (canonicalAad metadata)))
    if plaintext.length = 32 then return (metadata, plaintext)
    else throw (.keyStoreError "KMIP wrapped key length is invalid.")
  else throw metadataInvalid

def getKey (crypto : Crypto) (draws : Draws) (providerId keyId : String) :
    StoreM (StoredKey × Bytes) := do
  verifyStore crypto draws
  let tables ← readTables
  let row ← lift (findKeyRow tables providerId keyId)
  let session ← session
  lift (decryptRow crypto session.kek row)

def getMetadata (crypto : Crypto) (draws : Draws) (providerId keyId : String) :
    StoreM StoredKey := do
  let (metadata, _) ← getKey crypto draws providerId keyId
  return metadata

/-- The metadata that `activate_key` writes over a Pre-Active key. -/
def activatedMetadata (draws : Draws) (metadata : StoredKey) : StoredKey :=
  { metadata with state := "Active", activatedAt := some (isoformat draws.now) }

def activationOf (crypto : Crypto) (kek : Bytes) (draws : Draws) (updated : StoredKey)
    (plaintext : Bytes) : Activation :=
  { state := updated.state
    activatedAt := updated.activatedAt
    nonce := draws.nonce.bytes
    ciphertext := crypto.encrypt kek draws.nonce.bytes plaintext
      (utf8Encode (canonicalAad updated))
    aadJson := canonicalAad updated }

/-- The UPDATE of `activate_key` and the commit, once the key is known to be
Pre-Active. -/
def applyActivation (crypto : Crypto) (draws : Draws) (metadata : StoredKey)
    (plaintext : Bytes) : StoreM StoredKey := do
  let session ← session
  let updated := activatedMetadata draws metadata
  if session.readOnly then raise (.osError "attempt to write a readonly database")
  else do
    let tables ← readTables
    if tables.keys.countP (activates updated.providerId updated.keyId) ≠ 1 then
      raise (.keyStateError "KMIP key activation was not applied.")
    else do
      commitMutation crypto draws (tables.activateRows updated.providerId updated.keyId
        (activationOf crypto session.kek draws updated plaintext))
      return updated

def activateKey (crypto : Crypto) (draws : Draws) (providerId keyId : String) :
    StoreM StoredKey := do
  let (metadata, plaintext) ← getKey crypto draws providerId keyId
  if metadata.state = "Active" then return metadata
  else if metadata.state ≠ "Pre-Active" then
    raise (.keyStateError "KMIP key cannot be activated from its current state.")
  else applyActivation crypto draws metadata plaintext

/-! ### Queries -/

def validateState (state : Option String) : Except Raised Unit :=
  if state = none ∨ state = some "Pre-Active" ∨ state = some "Active" then .ok ()
  else .error (.valueError "state is outside the supported KMIP lifecycle.")

def validateLimit (limit : Nat) : Except Raised Unit :=
  if 1 ≤ limit ∧ limit ≤ 1024 then .ok ()
  else .error (.valueError "limit must be between 1 and 1024.")

/-- The WHERE clause of `locate_keys`. -/
def located (providerId : String) (state name : Option String) (row : WrappedRow) : Bool :=
  row.providerId = providerId && (state.isNone || state = some row.state) &&
    (name.isNone || name = row.name)

/-- `ORDER BY created_at, key_id LIMIT ?`. -/
def locatedIds (tables : Tables) (providerId : String) (state name : Option String)
    (limit : Nat) : List String :=
  (((tables.keys.filter (located providerId state name)).insertionSort fun left right =>
    toLex (left.createdAt, left.keyId) ≤ toLex (right.createdAt, right.keyId)).take limit).map
      WrappedRow.keyId

def locateKeys (crypto : Crypto) (draws : Draws) (providerId : String)
    (state name : Option String) (limit : Nat) : StoreM (List String) := do
  let normalizedProvider ← lift (validatedUuid providerId "provider_id")
  lift (validateState state)
  lift (validateLimit limit)
  lift (validateName name)
  verifyStore crypto draws
  let tables ← readTables
  return locatedIds tables normalizedProvider state name limit

structure LifecycleCounts where
  (preActive active total : Nat)
  deriving DecidableEq, Repr

def LifecycleCounts.add (counts : LifecycleCounts) (state : String) : LifecycleCounts :=
  if state = "Pre-Active" then
    { counts with preActive := counts.preActive + 1, total := counts.total + 1 }
  else { counts with active := counts.active + 1, total := counts.total + 1 }

def countRow (crypto : Crypto) (kek : Bytes) (counts : List (String × LifecycleCounts))
    (row : WrappedRow) : Except Raised (List (String × LifecycleCounts)) := do
  let (metadata, _) ← decryptRow crypto kek row
  let known := (getItem metadata.providerId counts).getD ⟨0, 0, 0⟩
  return setItem metadata.providerId (known.add metadata.state) counts

/-- The loop of `lifecycle_counts` over the rows, from explicit zeroes for `providers`. -/
def countKeys (crypto : Crypto) (kek : Bytes) (providers : List String) (tables : Tables) :
    Except Raised (List (String × LifecycleCounts)) :=
  tables.keys.foldlM (countRow crypto kek)
    (ofPairs (providers.map fun provider => (provider, ⟨0, 0, 0⟩)))

def lifecycleCounts (crypto : Crypto) (draws : Draws) (providerIds : List String) :
    StoreM (List (String × LifecycleCounts)) := do
  let providers ← lift (providerIds.mapM fun providerId =>
    validatedUuid providerId "provider_id")
  verifyStore crypto draws
  let tables ← readTables
  let session ← session
  lift (countKeys crypto session.kek providers tables)

end Atlaso.Kmip.StoreOperations
