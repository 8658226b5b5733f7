import Atlaso.Kmip.Clock
import Atlaso.Kmip.Identifiers
import Atlaso.Library.Base64
import Atlaso.Library.ByteWords
import Atlaso.Library.JsonText
import Atlaso.Library.Outcomes
import Atlaso.Library.SortedTables
import Mathlib.Data.Prod.Lex

/-!
The files of the operational key store of `kmip/store.py`: the wrapped-key database,
the KEK envelope and the recovery custody file, with the pure functions that read and
write them.

The cryptographic primitives are a parameter. A row holds the storage class that the
schema declares for each column, and a table is the list of its rows in primary-key
order. File modes, temporary files and the clearing of key buffers have no effect on
any result and are left out.
-/

namespace Atlaso.Kmip.StoreFiles

open Exceptions Identifiers Library Base64 ByteWords Dictionary JsonText
open Numerals SortedTables

abbrev Bytes := List UInt8

/-- SHA-256 and AES-GCM. `decrypt` is `none` where the library raises `InvalidTag` or
rejects a parameter. -/
structure Crypto where
  sha256 : Bytes → Bytes
  encrypt (key nonce plaintext aad : Bytes) : Bytes
  decrypt (key nonce ciphertext aad : Bytes) : Option Bytes

structure Crypto.Authentic (crypto : Crypto) : Prop where
  decrypt_encrypt : ∀ key nonce plaintext aad,
    crypto.decrypt key nonce (crypto.encrypt key nonce plaintext aad) aad = some plaintext

structure Crypto.CollisionFree (crypto : Crypto) : Prop where
  injective : Function.Injective crypto.sha256
  nonempty : ∀ data, crypto.sha256 data ≠ []

/-- AES-GCM does not open a ciphertext under another key. -/
structure Crypto.KeyBound (crypto : Crypto) : Prop where
  decrypt_other : ∀ key other nonce plaintext aad, other ≠ key →
    crypto.decrypt other nonce (crypto.encrypt key nonce plaintext aad) aad = none

/-- A byte string that no other one of its kind continues. -/
def framed : Bytes → Bytes
  | [] => [0]
  | byte :: rest => 1 :: byte :: framed rest

theorem framed_injective {left right leftRest rightRest : Bytes}
    (same : framed left ++ leftRest = framed right ++ rightRest) :
    left = right ∧ leftRest = rightRest := by
  induction left generalizing right with
  | nil =>
    cases right with
    | nil => exact ⟨rfl, List.tail_eq_of_cons_eq same⟩
    | cons byte rest => exact absurd (List.head_eq_of_cons_eq same) (by decide)
  | cons byte rest induction =>
    cases right with
    | nil => exact absurd (List.head_eq_of_cons_eq same) (by decide)
    | cons other others =>
      simp only [framed, List.cons_append, List.cons.injEq, true_and] at same
      obtain ⟨rfl, rfl⟩ := induction same.2
      exact ⟨by rw [same.1], rfl⟩

def sealTag (key nonce aad : Bytes) : Bytes := framed key ++ (framed nonce ++ framed aad)

/-- Primitives with these properties: the digest carries its data, and a ciphertext
carries the parameters it must be opened with. -/
def Crypto.transparent : Crypto where
  sha256 data := 1 :: data
  encrypt key nonce plaintext aad := sealTag key nonce aad ++ plaintext
  decrypt key nonce ciphertext aad :=
    if ciphertext.take (sealTag key nonce aad).length = sealTag key nonce aad then
      some (ciphertext.drop (sealTag key nonce aad).length)
    else none

theorem transparent_authentic : Crypto.transparent.Authentic := by
  refine ⟨fun key nonce plaintext aad => ?_⟩
  simp only [Crypto.transparent]
  rw [List.take_left, if_pos rfl, List.drop_left]

theorem transparent_collision_free : Crypto.transparent.CollisionFree :=
  ⟨fun _ _ same => List.tail_eq_of_cons_eq same, fun _ => List.cons_ne_nil _ _⟩

theorem transparent_key_bound : Crypto.transparent.KeyBound := by
  refine ⟨fun key other nonce plaintext aad different => ?_⟩
  simp only [Crypto.transparent]
  refine if_neg ?_
  intro opened
  have whole := List.take_append_drop (sealTag other nonce aad).length
    (sealTag key nonce aad ++ plaintext)
  rw [opened] at whole
  simp only [sealTag, List.append_assoc] at whole
  exact different (framed_injective whole).1

def storeSchemaVersion : Nat := 2
def kekEnvelopeFormat : String := "atlaso-kmip-kek-v2"
def legacyKekEnvelopeFormat : String := "atlaso-kmip-kek-v1"
def kekAad : Bytes := utf8Encode "atlaso-kmip-kek-v2"
def legacyKekAad : Bytes := utf8Encode "atlaso-kmip-kek-v1"
def recoveryMasterAad : Bytes := utf8Encode "atlaso-kmip-recovery-master-v1"
def storeCommitmentFormat : String := "atlaso-kmip-store-commitment-v1"
def vsphereCustomAttributes : List String :=
  ["x-Component", "x-Identifier", "x-Product", "x-Product_Version", "x-Vendor"]
def maxCustomAttributeValueBytes : Nat := 512

structure StoredKey where
  (providerId keyId algorithm : String)
  length : Int
  name : Option String
  (state createdAt : String)
  activatedAt : Option String
  customAttributes : List (String × String)
  deriving DecidableEq, Repr

structure KekEnvelope where
  kek : Bytes
  generation : Nat
  commitment : String
  pendingGeneration : Option Nat
  pendingCommitment : Option String
  deriving DecidableEq, Repr

def settledEnvelope (kek : Bytes) (generation : Nat) (commitment : String) : KekEnvelope :=
  ⟨kek, generation, commitment, none, none⟩

/-- What `_load_or_create_kek` accepts. -/
structure KekEnvelope.Valid (envelope : KekEnvelope) : Prop where
  kek : envelope.kek.length = 32
  pending : envelope.pendingGeneration =
    envelope.pendingCommitment.map fun _ => envelope.generation + 1

/-! ### Tables -/

structure WrappedRow where
  (providerId keyId algorithm : String)
  keyLength : Int
  name : Option String
  (state createdAt : String)
  activatedAt : Option String
  (nonce ciphertext : Bytes)
  aadJson : String
  deriving DecidableEq, Repr

def WrappedRow.key (row : WrappedRow) : Lex (String × String) := toLex (row.providerId, row.keyId)

/-- The rows of `store_metadata` and `wrapped_keys`. -/
structure Tables where
  metadata : List (String × String)
  keys : List WrappedRow
  metadataSorted : Sorted Prod.fst metadata
  keysSorted : Sorted WrappedRow.key keys
  deriving DecidableEq

def Tables.empty : Tables := ⟨[], [], List.Pairwise.nil, List.Pairwise.nil⟩

/-- A database file, with the tables that exist in it. -/
structure Database where
  metadata : Option { rows : List (String × String) // Sorted Prod.fst rows }
  keys : Option { rows : List WrappedRow // Sorted WrappedRow.key rows }
  deriving DecidableEq

def Database.tables (database : Database) : Option Tables :=
  match database.metadata, database.keys with
  | some metadata, some keys => some ⟨metadata.1, keys.1, metadata.2, keys.2⟩
  | _, _ => none

def Tables.database (tables : Tables) : Database :=
  ⟨some ⟨tables.metadata, tables.metadataSorted⟩, some ⟨tables.keys, tables.keysSorted⟩⟩

@[simp] theorem tables_database (tables : Tables) : tables.database.tables = some tables := rfl

structure Disk where
  custody : Option Bytes
  (databaseDirectory kekDirectory journal : Bool)
  kek : Option String
  database : Option Database
  deriving DecidableEq

namespace Disk

def writeKek (disk : Disk) (text : String) : Disk := { disk with kek := some text }

def writeTables (disk : Disk) (tables : Tables) : Disk :=
  { disk with database := some tables.database }

variable (disk : Disk) (text : String) (tables : Tables)

@[simp] theorem write_kek_kek : (disk.writeKek text).kek = some text := rfl
@[simp] theorem write_kek_database : (disk.writeKek text).database = disk.database := rfl
@[simp] theorem write_kek_custody : (disk.writeKek text).custody = disk.custody := rfl
@[simp] theorem write_tables_kek : (disk.writeTables tables).kek = disk.kek := rfl
@[simp] theorem write_tables_database :
    (disk.writeTables tables).database = some tables.database := rfl
@[simp] theorem write_tables_custody : (disk.writeTables tables).custody = disk.custody := rfl

end Disk

/-- SQLite's `length()` of a text stops at the first NUL. -/
def sqliteLength (text : String) : Nat := (text.toList.takeWhile fun c => c ≠ '\x00').length

/-- The CHECK constraints of `wrapped_keys`. -/
def satisfiesChecks (row : WrappedRow) : Bool :=
  row.algorithm = "AES" && row.keyLength = 256 &&
    (match row.name with
      | none => true
      | some name => 1 ≤ sqliteLength name && sqliteLength name ≤ 256) &&
    (row.state = "Pre-Active" || row.state = "Active") && row.nonce.length = 12

/-- `INSERT INTO wrapped_keys`. -/
def Tables.insertKey (tables : Tables) (row : WrappedRow) : Except Raised Tables :=
  if satisfiesChecks row = false then .error (.integrityError "CHECK constraint failed")
  else if absent : ∀ other ∈ tables.keys, other.key ≠ row.key then
    .ok { tables with
      keys := insertRow WrappedRow.key row tables.keys
      keysSorted := sorted_insert_row tables.keysSorted absent }
  else .error (.integrityError
    "UNIQUE constraint failed: wrapped_keys.provider_id, wrapped_keys.key_id")

/-- The row that the UPDATE of `activate_key` selects. -/
def activates (providerId keyId : String) (row : WrappedRow) : Bool :=
  row.providerId = providerId && row.keyId = keyId && row.state = "Pre-Active"

structure Activation where
  state : String
  activatedAt : Option String
  (nonce ciphertext : Bytes)
  aadJson : String

def Activation.apply (activation : Activation) (row : WrappedRow) : WrappedRow :=
  { row with
    state := activation.state
    activatedAt := activation.activatedAt
    nonce := activation.nonce
    ciphertext := activation.ciphertext
    aadJson := activation.aadJson }

/-- The UPDATE of `activate_key`. -/
def Tables.activateRows (tables : Tables) (providerId keyId : String)
    (activation : Activation) : Tables :=
  { tables with
    keys := tables.keys.map fun row =>
      if activates providerId keyId row then activation.apply row else row
    keysSorted := sorted_map tables.keysSorted _ fun row => by
      split <;> rfl }

/-- `INSERT INTO store_metadata` of a name that the table does not hold. -/
def Tables.insertMetadata (tables : Tables) (name value : String) : Except Raised Tables :=
  if absent : ∀ other ∈ tables.metadata, other.1 ≠ name then
    .ok { tables with
      metadata := insertRow Prod.fst (name, value) tables.metadata
      metadataSorted := sorted_insert_row tables.metadataSorted absent }
  else .error (.integrityError "UNIQUE constraint failed: store_metadata.name")

/-! ### Documents -/

def optionalText : Option String → Json
  | some text => .string text
  | none => .null

def textMembers (pairs : List (String × String)) : List (String × Json) :=
  pairs.map fun pair => (pair.1, .string pair.2)

/-- The document of `_canonical_aad`, in the order in which the source fills it. -/
def aadDocument (metadata : StoredKey) : Json :=
  .object ([("schema_version", .int storeSchemaVersion),
    ("provider_id", .string metadata.providerId),
    ("key_id", .string metadata.keyId),
    ("algorithm", .string metadata.algorithm),
    ("length", .int metadata.length),
    ("name", optionalText metadata.name),
    ("state", .string metadata.state),
    ("created_at", .string metadata.createdAt),
    ("activated_at", optionalText metadata.activatedAt)] ++
    if metadata.customAttributes = [] then []
    else [("custom_attributes", .object (ofPairs (textMembers metadata.customAttributes)))])

def canonicalAad (metadata : StoredKey) : String := dumps (aadDocument metadata)

def hexdigest (digest : Bytes) : String :=
  String.ofList (digest.flatMap fun byte => fixedDigits 16 2 byte.toNat)

def rowDocument (row : WrappedRow) : Json :=
  .object [("provider_id", .string row.providerId),
    ("key_id", .string row.keyId),
    ("algorithm", .string row.algorithm),
    ("key_length", .int row.keyLength),
    ("name", optionalText row.name),
    ("state", .string row.state),
    ("created_at", .string row.createdAt),
    ("activated_at", optionalText row.activatedAt),
    ("nonce", .string (b64encode row.nonce)),
    ("ciphertext", .string (b64encode row.ciphertext)),
    ("aad_json", .string row.aadJson)]

def commitmentDocument (tables : Tables) : Json :=
  .object [("format", .string storeCommitmentFormat),
    ("metadata", .array (tables.metadata.map fun row => .array [.string row.1, .string row.2])),
    ("keys", .array (tables.keys.map rowDocument))]

def storeCommitment (crypto : Crypto) (tables : Tables) : String :=
  hexdigest (crypto.sha256 (utf8Encode (dumps (commitmentDocument tables))))

/-- `_validated_custom_attributes`. The callers pass texts, or the values of a parsed
JSON object. -/
def validatedCustomAttributes (pairs : List (String × Json)) :
    Except Raised (List (String × String)) :=
  if vsphereCustomAttributes.length < pairs.length then
    .error (.valueError "custom_attributes contains too many entries.")
  else do
    let normalized ← pairs.foldlM addAttribute []
    return normalized.insertionSort fun left right => toLex left ≤ toLex right
where
  addAttribute (normalized : List (String × String)) (pair : String × Json) :
      Except Raised (List (String × String)) :=
    match pair.2 with
    | .string value =>
      if pair.1 ∉ vsphereCustomAttributes ∨ pair.1 ∈ normalized.map Prod.fst ∨
          maxCustomAttributeValueBytes < (utf8Encode value).length then
        .error (.valueError "custom_attributes contains an unsupported or invalid entry.")
      else .ok (setItem pair.1 value normalized)
    | _ => .error (.valueError "custom_attributes contains an unsupported or invalid entry.")

/-! ### The KEK envelope -/

def masterKey (crypto : Crypto) (secretsKey : String) : Except Raised Bytes :=
  if secretsKey = "" then
    .error (.keyStoreError "ATLASO_SECRETS_KEY is required for the KMIP operational store.")
  else .ok (crypto.sha256 (utf8Encode "atlaso-kmip-master-v1\x00" ++ utf8Encode secretsKey))

def optionalInt : Option Nat → Json
  | some value => .int value
  | none => .null

def envelopePlaintext (envelope : KekEnvelope) : Json :=
  .object [("kek", .string (b64encode envelope.kek)),
    ("generation", .int envelope.generation),
    ("commitment", .string envelope.commitment),
    ("pending_generation", optionalInt envelope.pendingGeneration),
    ("pending_commitment", optionalText envelope.pendingCommitment)]

/-- The text that `_write_kek_envelope` puts in the file. -/
def envelopeText (crypto : Crypto) (master nonce : Bytes) (envelope : KekEnvelope) : String :=
  dumps (.object [("format", .string kekEnvelopeFormat),
    ("nonce", .string (b64encode nonce)),
    ("ciphertext", .string (b64encode (crypto.encrypt master nonce
      (utf8Encode (dumps (envelopePlaintext envelope))) kekAad)))]) ++ "\n"

def envelopeInvalid : Raised := .keyStoreError "KMIP KEK envelope is invalid."

/-- The error that the reader puts in place of `InvalidTag` and every `ValueError`. -/
def kekNotOpened : Raised :=
  .keyStoreError "KMIP KEK could not be opened with the configured appliance secrets key."

def orRaise {Value : Type} (raised : Raised) : Option Value → Except Raised Value
  | some value => .ok value
  | none => .error raised

def decodeEnvelopeValue (members : List (String × Json)) (field : String) :
    Except Raised Bytes :=
  match getItem field members with
  | some (.string text) => orRaise envelopeInvalid (b64decode text)
  | _ => .error envelopeInvalid

def textField (members : List (String × Json)) (field : String) : Except Raised String :=
  match getItem field members with
  | some (.string text) => .ok text
  | _ => .error envelopeInvalid

def generationField (members : List (String × Json)) : Except Raised Nat :=
  match getItem "generation" members with
  | some (.int (.ofNat generation)) => .ok generation
  | _ => .error envelopeInvalid

def pendingGenerationField (members : List (String × Json)) (generation : Nat) :
    Except Raised (Option Nat) :=
  match getItem "pending_generation" members with
  | some (.int pending) =>
    if pending = generation + 1 then .ok (some (generation + 1)) else .error envelopeInvalid
  | some .null | none => .ok none
  | _ => .error envelopeInvalid

def pendingCommitmentField (members : List (String × Json)) : Except Raised (Option String) :=
  match getItem "pending_commitment" members with
  | some (.string pending) => .ok (some pending)
  | some .null | none => .ok none
  | _ => .error envelopeInvalid

/-- The fields of an authenticated payload, with the checks of `_load_or_create_kek`. -/
def readPayload (members : List (String × Json)) : Except Raised KekEnvelope := do
  let encodedKek ← textField members "kek"
  let kek ← orRaise kekNotOpened (b64decode encodedKek)
  let generation ← generationField members
  let commitment ← textField members "commitment"
  let pendingGeneration ← pendingGenerationField members generation
  let pendingCommitment ← pendingCommitmentField members
  if pendingGeneration.isNone = pendingCommitment.isNone then
    .ok ⟨kek, generation, commitment, pendingGeneration, pendingCommitment⟩
  else .error envelopeInvalid

/-- Whether a file has the legacy format; a format that cannot be hashed is a
`TypeError` of the set lookup. -/
def legacyFormat (members : List (String × Json)) : Except Raised Bool :=
  match getItem "format" members with
  | some (.string format) =>
    if format = kekEnvelopeFormat then .ok false
    else if format = legacyKekEnvelopeFormat then .ok true
    else .error (.keyStoreError "KMIP KEK envelope format is unsupported.")
  | some (.array _) | some (.object _) => .error (.typeError "unhashable type")
  | _ => .error (.keyStoreError "KMIP KEK envelope format is unsupported.")

def objectMembers (raised : Raised) : Json → Except Raised (List (String × Json))
  | .object members => .ok members
  | _ => .error raised

def readEnvelopeBody (crypto : Crypto) (master nonce ciphertext : Bytes) (legacy : Bool) :
    Except Raised KekEnvelope :=
  if legacy then do
    let kek ← orRaise kekNotOpened (crypto.decrypt master nonce ciphertext legacyKekAad)
    return settledEnvelope kek 0 ""
  else do
    let plaintext ← orRaise kekNotOpened (crypto.decrypt master nonce ciphertext kekAad)
    let payload ← orRaise kekNotOpened ((utf8Decode plaintext).bind loads)
    let members ← objectMembers envelopeInvalid payload
    readPayload members

/-- The branch of `_load_or_create_kek` for a file that exists. -/
def readEnvelope (crypto : Crypto) (master : Bytes) (text : String) :
    Except Raised KekEnvelope := do
  let document ← orRaise kekNotOpened (loads text)
  let members ← objectMembers
    (.keyStoreError "KMIP KEK envelope format is unsupported.") document
  let legacy ← legacyFormat members
  let nonce ← decodeEnvelopeValue members "nonce"
  let ciphertext ← decodeEnvelopeValue members "ciphertext"
  let envelope ← readEnvelopeBody crypto master nonce ciphertext legacy
  if envelope.kek.length = 32 then return envelope else throw envelopeInvalid

/-- The master key in use: the one the secrets key gives, or the one it unseals from the
recovery custody file. -/
def custodyMaster (crypto : Crypto) (master : Bytes) : Option Bytes → Except Raised Bytes
  | none => .ok master
  | some sealed =>
    if sealed.length ≠ 60 then .error (.keyStoreError "KMIP recovery custody is invalid.")
    else orRaise (.keyStoreError "KMIP recovery custody could not be authenticated.")
      (crypto.decrypt master (sealed.take 12) (sealed.drop 12) recoveryMasterAad)

end Atlaso.Kmip.StoreFiles
