import Atlaso.Kmip.StoreDocuments
import Atlaso.Kmip.StoreOperations

/-!
The store as a sequential object: what each operation answers on given rows and which
rows it leaves, with the facts about rows that no mutation breaks.

`Operation.plan` is the specification of an operation on authenticated rows;
`Operation.perform` is the operation itself, with its files and its commit protocol.
-/

namespace Atlaso.Kmip.StoreKeys

open Clock Exceptions Identifiers StoreDocuments StoreFiles StoreOperations Library ByteWords
open Dictionary JsonText Outcomes SortedTables

/-! ### Operations -/

inductive Operation where
  | create (providerId : String) (name : Option String)
      (customAttributes : List (String × String))
  | activate (providerId keyId : String)
  | getKey (providerId keyId : String)
  | getMetadata (providerId keyId : String)
  | locate (providerId : String) (state name : Option String) (limit : Nat)
  | lifecycleCounts (providerIds : List String)

inductive Answer where
  | metadata (key : StoredKey)
  | material (key : StoredKey) (bytes : Bytes)
  | identifiers (keyIds : List String)
  | counts (providers : List (String × LifecycleCounts))
  deriving DecidableEq, Repr

def Operation.perform (crypto : Crypto) (draws : Draws) : Operation → StoreM Answer
  | .create providerId name customAttributes => do
      let key ← StoreOperations.createKey crypto draws providerId name customAttributes
      return .metadata key
  | .activate providerId keyId => do
      let key ← StoreOperations.activateKey crypto draws providerId keyId
      return .metadata key
  | .getKey providerId keyId => do
      let (key, bytes) ← StoreOperations.getKey crypto draws providerId keyId
      return .material key bytes
  | .getMetadata providerId keyId => do
      let key ← StoreOperations.getMetadata crypto draws providerId keyId
      return .metadata key
  | .locate providerId state name limit => do
      let keyIds ← locateKeys crypto draws providerId state name limit
      return .identifiers keyIds
  | .lifecycleCounts providerIds => do
      let providers ← StoreOperations.lifecycleCounts crypto draws providerIds
      return .counts providers

/-- What an operation may reject before it looks at the store. -/
def Operation.validate : Operation → Except Raised Unit
  | .create providerId name customAttributes => do
      let _ ← validatedUuid providerId "provider_id"
      let _ ← validatedCustomAttributes (textMembers customAttributes)
      validateName name
  | .locate providerId state name limit => do
      let _ ← validatedUuid providerId "provider_id"
      validateState state
      validateLimit limit
      validateName name
  | .lifecycleCounts providerIds => do
      let _ ← providerIds.mapM fun providerId => validatedUuid providerId "provider_id"
      return ()
  | .activate _ _ | .getKey _ _ | .getMetadata _ _ => .ok ()

/-- An answer, and the rows to commit before it is given. -/
structure Plan where
  answer : Answer
  mutation : Option Tables

def createPlan (crypto : Crypto) (kek : Bytes) (draws : Draws) (tables : Tables)
    (providerId : String) (name : Option String) (customAttributes : List (String × String)) :
    Except Raised Plan := do
  let provider ← validatedUuid providerId "provider_id"
  let attributes ← validatedCustomAttributes (textMembers customAttributes)
  validateName name
  let metadata := newMetadata draws provider name attributes
  let inserted ← tables.insertKey (wrappedRow crypto kek draws metadata)
  return ⟨.metadata metadata, some inserted⟩

def readPlan (crypto : Crypto) (kek : Bytes) (tables : Tables) (providerId keyId : String) :
    Except Raised (StoredKey × Bytes) := do
  let row ← findKeyRow tables providerId keyId
  decryptRow crypto kek row

def activationPlan (crypto : Crypto) (kek : Bytes) (draws : Draws) (tables : Tables)
    (metadata : StoredKey) (plaintext : Bytes) : Except Raised Plan :=
  if metadata.state = "Active" then .ok ⟨.metadata metadata, none⟩
  else if metadata.state ≠ "Pre-Active" then
    .error (.keyStateError "KMIP key cannot be activated from its current state.")
  else if tables.keys.countP (activates metadata.providerId metadata.keyId) ≠ 1 then
    .error (.keyStateError "KMIP key activation was not applied.")
  else .ok ⟨.metadata (activatedMetadata draws metadata),
    some (tables.activateRows metadata.providerId metadata.keyId
      (activationOf crypto kek draws (activatedMetadata draws metadata) plaintext))⟩

def Operation.plan (crypto : Crypto) (kek : Bytes) (draws : Draws) (tables : Tables) :
    Operation → Except Raised Plan
  | .create providerId name customAttributes =>
    createPlan crypto kek draws tables providerId name customAttributes
  | .activate providerId keyId => do
      let (metadata, plaintext) ← readPlan crypto kek tables providerId keyId
      activationPlan crypto kek draws tables metadata plaintext
  | .getKey providerId keyId => do
      let (metadata, plaintext) ← readPlan crypto kek tables providerId keyId
      return ⟨.material metadata plaintext, none⟩
  | .getMetadata providerId keyId => do
      let (metadata, _) ← readPlan crypto kek tables providerId keyId
      return ⟨.metadata metadata, none⟩
  | .locate providerId state name limit => do
      let provider ← validatedUuid providerId "provider_id"
      validateState state
      validateLimit limit
      validateName name
      return ⟨.identifiers (locatedIds tables provider state name limit), none⟩
  | .lifecycleCounts providerIds => do
      let providers ← providerIds.mapM fun providerId => validatedUuid providerId "provider_id"
      let counted ← countKeys crypto kek providers tables
      return ⟨.counts counted, none⟩

/-! ### Rows -/

/-- The row holds `metadata`, with `material` wrapped under its AAD. -/
structure RowOf (crypto : Crypto) (kek : Bytes) (row : WrappedRow) (metadata : StoredKey)
    (material : Bytes) : Prop where
  attributes : ValidAttributes metadata.customAttributes
  length : material.length = 32
  columns : row = {
    providerId := metadata.providerId
    keyId := metadata.keyId
    algorithm := metadata.algorithm
    keyLength := metadata.length
    name := metadata.name
    state := metadata.state
    createdAt := metadata.createdAt
    activatedAt := metadata.activatedAt
    nonce := row.nonce
    ciphertext := crypto.encrypt kek row.nonce material (utf8Encode (canonicalAad metadata))
    aadJson := canonicalAad metadata }

theorem aad_custom_attributes_canonical (metadata : StoredKey)
    (valid : ValidAttributes metadata.customAttributes) :
    aadCustomAttributes (canonicalAad metadata) = .ok metadata.customAttributes := by
  simp only [aadCustomAttributes, loads_canonical_aad metadata valid, orRaise, ok_bind,
    objectMembers, custom_attributes_of_aad, validated_custom_attributes_valid valid,
    Except.mapError]

variable {crypto : Crypto} {kek : Bytes} {metadata : StoredKey}

theorem decrypt_row_of (authentic : crypto.Authentic) {row : WrappedRow} {material : Bytes}
    (holds : RowOf crypto kek row metadata material) :
    decryptRow crypto kek row = .ok (metadata, material) := by
  obtain ⟨attributes, length, columns⟩ := holds
  have read : rowMetadata row = .ok metadata := by
    rw [columns]
    simp only [rowMetadata, aad_custom_attributes_canonical metadata attributes, ok_bind,
      pure_is_ok]
  have aad : row.aadJson = canonicalAad metadata := by rw [columns]
  have opened : crypto.decrypt kek row.nonce row.ciphertext
      (utf8Encode (canonicalAad metadata)) = some material := by
    rw [columns]
    exact authentic.decrypt_encrypt kek row.nonce material _
  simp only [decryptRow, read, ok_bind, aad, if_true, opened, orRaise, length, pure_is_ok]

theorem row_metadata_fields {row : WrappedRow} (read : rowMetadata row = .ok metadata) :
    ∃ attributes, ValidAttributes attributes ∧ metadata = {
      providerId := row.providerId
      keyId := row.keyId
      algorithm := row.algorithm
      length := row.keyLength
      name := row.name
      state := row.state
      createdAt := row.createdAt
      activatedAt := row.activatedAt
      customAttributes := attributes } := by
  obtain ⟨attributes, readAttributes, result⟩ := bind_ok_iff.mp read
  cases result
  refine ⟨attributes, ?_, rfl⟩
  simp only [aadCustomAttributes, bind_ok_iff] at readAttributes
  obtain ⟨document, -, members, -, fields, -, validated⟩ := readAttributes
  cases checked : validatedCustomAttributes fields with
  | error raised =>
    rw [checked] at validated
    cases validated
  | ok result =>
    rw [checked] at validated
    cases validated
    exact validated_custom_attributes_sound checked

theorem decrypt_row_fields {row : WrappedRow} {material : Bytes}
    (decrypted : decryptRow crypto kek row = .ok (metadata, material)) :
    rowMetadata row = .ok metadata ∧ material.length = 32 := by
  simp only [decryptRow, bind_ok_iff] at decrypted
  obtain ⟨read, readMetadata, rest⟩ := decrypted
  split at rest
  · obtain ⟨plaintext, -, checked⟩ := bind_ok_iff.mp rest
    split at checked
    · rename_i length
      cases checked
      exact ⟨readMetadata, length⟩
    · cases checked
  · cases rest

theorem decrypt_activated (authentic : crypto.Authentic) {row : WrappedRow} {material : Bytes}
    (draws : Draws) (decrypted : decryptRow crypto kek row = .ok (metadata, material)) :
    decryptRow crypto kek ((activationOf crypto kek draws (activatedMetadata draws metadata)
      material).apply row) = .ok (activatedMetadata draws metadata, material) := by
  obtain ⟨read, length⟩ := decrypt_row_fields decrypted
  obtain ⟨attributes, valid, rfl⟩ := row_metadata_fields read
  exact decrypt_row_of authentic ⟨valid, length, rfl⟩

/-! ### What a mutation keeps -/

def Activated (crypto : Crypto) (kek : Bytes) (row later : WrappedRow) : Prop :=
  ∃ metadata material moment,
    decryptRow crypto kek row = .ok (metadata, material) ∧ metadata.state = "Pre-Active" ∧
      decryptRow crypto kek later =
        .ok ({ metadata with state := "Active", activatedAt := some moment }, material)

/-- No key of the first tables is lost or altered in the second ones, except that a
Pre-Active key may have been activated. -/
def KeysKept (crypto : Crypto) (kek : Bytes) (tables later : Tables) : Prop :=
  ∀ row ∈ tables.keys, ∃ kept ∈ later.keys, kept.key = row.key ∧
    (kept = row ∨ Activated crypto kek row kept)

theorem keys_kept_refl (crypto : Crypto) (kek : Bytes) (tables : Tables) :
    KeysKept crypto kek tables tables :=
  fun row member => ⟨row, member, rfl, .inl rfl⟩

theorem keys_kept_trans {first second third : Tables} (before : KeysKept crypto kek first second)
    (after : KeysKept crypto kek second third) :
    KeysKept crypto kek first third := by
  intro row member
  obtain ⟨middle, middleMember, middleKey, middleKept⟩ := before row member
  obtain ⟨last, lastMember, lastKey, lastKept⟩ := after middle middleMember
  refine ⟨last, lastMember, lastKey.trans middleKey, ?_⟩
  rcases middleKept with rfl | activated
  · exact lastKept
  · rcases lastKept with rfl | again
    · exact .inr activated
    · -- An Active key is not activated a second time.
      obtain ⟨metadata, material, moment, -, -, decrypted⟩ := activated
      obtain ⟨other, otherMaterial, otherMoment, decryptedAgain, preActive, -⟩ := again
      rw [decrypted] at decryptedAgain
      cases decryptedAgain
      exact absurd preActive (by simp)

theorem insert_key_ok {tables inserted : Tables} {row : WrappedRow}
    (insertion : tables.insertKey row = .ok inserted) :
    satisfiesChecks row = true ∧ (∀ other ∈ tables.keys, other.key ≠ row.key) ∧
      inserted.metadata = tables.metadata ∧
        inserted.keys = insertRow WrappedRow.key row tables.keys := by
  unfold Tables.insertKey at insertion
  split at insertion
  · cases insertion
  · rename_i checks
    split at insertion
    · rename_i absent
      cases insertion
      exact ⟨by simpa using checks, absent, rfl, rfl⟩
    · cases insertion

structure Extends (crypto : Crypto) (kek : Bytes) (tables later : Tables) : Prop where
  metadata : later.metadata = tables.metadata
  changed : later ≠ tables
  kept : KeysKept crypto kek tables later

theorem insert_key_extends {tables inserted : Tables} {row : WrappedRow}
    (insertion : tables.insertKey row = .ok inserted) :
    Extends crypto kek tables inserted := by
  obtain ⟨-, absent, metadata, keys⟩ := insert_key_ok insertion
  refine ⟨metadata, ?_, ?_⟩
  · rintro rfl
    have member : row ∈ inserted.keys := by
      rw [keys]
      exact mem_insert_row.mpr (.inl rfl)
    exact absent row member rfl
  · intro other member
    refine ⟨other, ?_, rfl, .inl rfl⟩
    rw [keys]
    exact mem_insert_row.mpr (.inr member)

theorem activate_rows_extends (authentic : crypto.Authentic) {tables : Tables} {row : WrappedRow}
    {material : Bytes} (draws : Draws) (member : row ∈ tables.keys)
    (decrypted : decryptRow crypto kek row = .ok (metadata, material))
    (preActive : metadata.state = "Pre-Active") :
    Extends crypto kek tables (tables.activateRows metadata.providerId metadata.keyId
      (activationOf crypto kek draws (activatedMetadata draws metadata) material)) := by
  obtain ⟨attributes, valid, fields⟩ := row_metadata_fields (decrypt_row_fields decrypted).1
  have selected : ∀ other ∈ tables.keys,
      activates metadata.providerId metadata.keyId other = true ↔ other = row := by
    intro other inside
    constructor
    · intro chosen
      simp only [activates, Bool.and_eq_true, decide_eq_true_eq] at chosen
      have sameKey : other.key = row.key := by
        simp [WrappedRow.key, chosen.1.1, chosen.1.2, fields]
      have found := (find_row_some_iff tables.keysSorted).mpr ⟨inside, sameKey⟩
      rw [(find_row_some_iff tables.keysSorted).mpr ⟨member, rfl⟩] at found
      exact (Option.some.inj found).symm
    · rintro rfl
      rw [fields] at preActive ⊢
      simp only at preActive
      simp [activates, preActive]
  refine ⟨rfl, ?_, ?_⟩
  · intro same
    have keys := congrArg Tables.keys same
    have rowKept : (activationOf crypto kek draws (activatedMetadata draws metadata)
        material).apply row ∈ tables.keys := by
      rw [← keys]
      refine List.mem_map.mpr ⟨row, member, ?_⟩
      rw [if_pos ((selected row member).mpr rfl)]
    have found : findRow WrappedRow.key row.key tables.keys = some _ :=
      (find_row_some_iff tables.keysSorted).mpr ⟨rowKept, rfl⟩
    rw [(find_row_some_iff tables.keysSorted).mpr ⟨member, rfl⟩] at found
    have states : row.state = "Active" := by
      rw [Option.some.inj found]
      rfl
    rw [fields] at preActive
    simp only [states] at preActive
    exact absurd preActive (by decide)
  · intro other inside
    by_cases chosen : other = row
    · subst chosen
      refine ⟨(activationOf crypto kek draws (activatedMetadata draws metadata)
        material).apply other, List.mem_map.mpr ⟨other, member, ?_⟩, rfl, .inr ?_⟩
      · rw [if_pos ((selected other member).mpr rfl)]
      · exact ⟨metadata, material, isoformat draws.now, decrypted, preActive,
          decrypt_activated authentic draws decrypted⟩
    · refine ⟨other, List.mem_map.mpr ⟨other, inside, ?_⟩, rfl, .inl rfl⟩
      rw [if_neg (fun picked => chosen ((selected other inside).mp picked))]

theorem find_key_row_member {tables : Tables} {providerId keyId : String} {row : WrappedRow}
    (found : findKeyRow tables providerId keyId = .ok row) : row ∈ tables.keys := by
  simp only [findKeyRow, bind_ok_iff] at found
  obtain ⟨provider, -, key, -, looked⟩ := found
  cases search : findRow WrappedRow.key (toLex (provider, key)) tables.keys with
  | none =>
    rw [search] at looked
    cases looked
  | some other =>
    rw [search] at looked
    cases looked
    exact ((find_row_some_iff tables.keysSorted).mp search).1

theorem plan_extends (authentic : crypto.Authentic) {draws : Draws} {tables later : Tables}
    {operation : Operation} {answer : Answer}
    (planned : operation.plan crypto kek draws tables = .ok ⟨answer, some later⟩) :
    Extends crypto kek tables later := by
  cases operation with
  | create providerId name customAttributes =>
    simp only [Operation.plan, createPlan, bind_ok_iff] at planned
    obtain ⟨provider, -, attributes, -, _, -, inserted, insertion, result⟩ := planned
    cases result
    exact insert_key_extends insertion
  | activate providerId keyId =>
    simp only [Operation.plan, bind_ok_iff] at planned
    obtain ⟨⟨metadata, material⟩, read, activation⟩ := planned
    obtain ⟨row, found, decrypted⟩ := bind_ok_iff.mp read
    simp only [activationPlan] at activation
    split_ifs at activation with active other missing
    · cases activation
    · cases activation
      exact activate_rows_extends authentic draws (find_key_row_member found) decrypted
        (not_not.mp other)
  | getKey providerId keyId =>
    obtain ⟨_, -, result⟩ := bind_ok_iff.mp planned
    cases result
  | getMetadata providerId keyId =>
    obtain ⟨_, -, result⟩ := bind_ok_iff.mp planned
    cases result
  | locate providerId state name limit =>
    simp only [Operation.plan, bind_ok_iff] at planned
    obtain ⟨_, -, _, -, _, -, _, -, result⟩ := planned
    cases result
  | lifecycleCounts providerIds =>
    simp only [Operation.plan, bind_ok_iff] at planned
    obtain ⟨_, -, _, -, result⟩ := planned
    cases result

end Atlaso.Kmip.StoreKeys
