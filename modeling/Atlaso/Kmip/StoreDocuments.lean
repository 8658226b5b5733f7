import Atlaso.Kmip.StoreFiles

/-!
What the key store writes is read back, and the commitment document determines the
tables.
-/

namespace Atlaso.Kmip.StoreDocuments

open Exceptions StoreFiles Library Base64 ByteWords Dictionary JsonText
open Numerals Outcomes

/-! ### Digests -/

theorem hex_pair_injective {left right : UInt8}
    (same : fixedDigits 16 2 left.toNat = fixedDigits 16 2 right.toNat) : left = right := by
  have value : ∀ byte : UInt8, numeralValue 16 0 (fixedDigits 16 2 byte.toNat) =
      some byte.toNat := by
    intro byte
    rw [numeral_value_fixed_digits 16 (by decide) (by decide) 2 byte.toNat 0 byte.toNat_lt]
    simp
  have read := value left
  rw [same, value right] at read
  exact UInt8.toNat_inj.mp (Option.some.inj read).symm

theorem hexdigest_injective : Function.Injective hexdigest := by
  intro left right same
  have chars := String.ofList_injective same
  clear same
  induction left generalizing right with
  | nil =>
    cases right with
    | nil => rfl
    | cons byte right =>
      have lengths := congrArg List.length chars
      simp [fixed_digits_length] at lengths
      omega
  | cons byte left induction =>
    cases right with
    | nil =>
      have lengths := congrArg List.length chars
      simp [fixed_digits_length] at lengths
    | cons other right =>
      simp only [List.flatMap_cons] at chars
      obtain ⟨first, rest⟩ := List.append_inj chars (by simp [fixed_digits_length])
      rw [hex_pair_injective first, induction rest]

theorem hexdigest_ne_empty {digest : Bytes} (nonempty : digest ≠ []) : hexdigest digest ≠ "" := by
  intro empty
  have same : hexdigest digest = hexdigest [] := by
    rw [empty]
    rfl
  exact nonempty (hexdigest_injective same)

/-! ### The commitment -/

def rowMembers (row : WrappedRow) : Fin 11 → String × Json
  | 0 => ("provider_id", .string row.providerId)
  | 1 => ("key_id", .string row.keyId)
  | 2 => ("algorithm", .string row.algorithm)
  | 3 => ("key_length", .int row.keyLength)
  | 4 => ("name", optionalText row.name)
  | 5 => ("state", .string row.state)
  | 6 => ("created_at", .string row.createdAt)
  | 7 => ("activated_at", optionalText row.activatedAt)
  | 8 => ("nonce", .string (b64encode row.nonce))
  | 9 => ("ciphertext", .string (b64encode row.ciphertext))
  | 10 => ("aad_json", .string row.aadJson)

/-- The members of a row document in the order in which `sort_keys` writes them. -/
def sortedRowDocument (row : WrappedRow) : Json :=
  .object ([10, 7, 2, 9, 6, 1, 3, 4, 8, 0, 5].map (rowMembers row))

theorem render_row_document (row : WrappedRow) :
    render (rowDocument row) = render (sortedRowDocument row) := by
  have order : List.Perm [0, 1, 2, 3, 4, 5, 6, 7, 8, 9, 10]
      ([10, 7, 2, 9, 6, 1, 3, 4, 8, 0, 5] : List (Fin 11)) := by decide
  refine render_object_perm (order.map (rowMembers row)) ?_
  change ["provider_id", "key_id", "algorithm", "key_length", "name", "state", "created_at",
    "activated_at", "nonce", "ciphertext", "aad_json"].Nodup
  decide

theorem optional_text_canonical (text : Option String) : Canonical (optionalText text) := by
  cases text <;> trivial

theorem optional_text_injective : Function.Injective optionalText := by
  intro left right same
  cases left <;> cases right <;> simp_all [optionalText]

theorem sorted_row_document_canonical (row : WrappedRow) :
    Canonical (sortedRowDocument row) := by
  constructor
  · change ["aad_json", "activated_at", "algorithm", "ciphertext", "created_at", "key_id",
      "key_length", "name", "nonce", "provider_id", "state"].Pairwise (· < ·)
    decide
  · exact ⟨trivial, optional_text_canonical _, trivial, trivial, trivial, trivial, trivial,
      optional_text_canonical _, trivial, trivial, trivial, trivial⟩

theorem sorted_row_document_injective : Function.Injective sortedRowDocument := by
  intro left right same
  simp only [sortedRowDocument, List.map_cons, List.map_nil, rowMembers, Json.object.injEq,
    List.cons.injEq, Prod.mk.injEq, true_and, and_true, Json.string.injEq, Json.int.injEq,
    optional_text_injective.eq_iff, b64encode_injective.eq_iff] at same
  obtain ⟨aad, activated, algorithm, ciphertext, created, keyId, keyLength, name, nonce,
    provider, state⟩ := same
  cases left
  cases right
  simp_all

def metadataDocument (row : String × String) : Json := .array [.string row.1, .string row.2]

def sortedCommitmentDocument (tables : Tables) : Json :=
  .object [("format", .string storeCommitmentFormat),
    ("keys", .array (tables.keys.map sortedRowDocument)),
    ("metadata", .array (tables.metadata.map metadataDocument))]

theorem render_key_documents (rows : List WrappedRow) :
    render (.array (rows.map rowDocument)) = render (.array (rows.map sortedRowDocument)) := by
  have items : renderItems (rows.map rowDocument) = renderItems (rows.map sortedRowDocument) := by
    rw [render_items_map, render_items_map, List.map_map, List.map_map]
    exact List.map_congr_left fun row _ => render_row_document row
  rw [render, render, items]

theorem render_members_congr (before : List (String × Json)) {key : String}
    {left right : Json} {after : List (String × Json)} (same : render left = render right) :
    render (.object (before ++ (key, left) :: after)) =
      render (.object (before ++ (key, right) :: after)) := by
  have members : renderMembers (before ++ (key, left) :: after) =
      renderMembers (before ++ (key, right) :: after) := by
    simp only [render_members_map, List.map_append, List.map_cons, same]
  rw [render, render, members]

theorem render_commitment_document (tables : Tables) :
    render (commitmentDocument tables) = render (sortedCommitmentDocument tables) := by
  have swapped : render (commitmentDocument tables) = render (.object
      [("format", .string storeCommitmentFormat),
        ("keys", .array (tables.keys.map rowDocument)),
        ("metadata", .array (tables.metadata.map metadataDocument))]) := by
    refine render_object_perm (List.Perm.cons _ (List.Perm.swap _ _ _)) ?_
    change ["format", "metadata", "keys"].Nodup
    decide
  rw [swapped]
  exact render_members_congr [("format", .string storeCommitmentFormat)]
    (render_key_documents tables.keys)

theorem sorted_commitment_document_canonical (tables : Tables) :
    Canonical (sortedCommitmentDocument tables) := by
  refine ⟨?_, trivial, canonical_items ?_, canonical_items ?_, trivial⟩
  · change ["format", "keys", "metadata"].Pairwise (· < ·)
    decide
  · intro item member
    obtain ⟨row, -, rfl⟩ := List.mem_map.mp member
    exact sorted_row_document_canonical row
  · intro item member
    obtain ⟨row, -, rfl⟩ := List.mem_map.mp member
    exact ⟨trivial, trivial, trivial⟩

theorem commitment_text_injective {left right : Tables}
    (same : dumps (commitmentDocument left) = dumps (commitmentDocument right)) :
    left = right := by
  have sorted : dumps (sortedCommitmentDocument left) =
      dumps (sortedCommitmentDocument right) := by
    unfold dumps at *
    rwa [render_commitment_document, render_commitment_document] at same
  have documents := dumps_injective (sorted_commitment_document_canonical left)
    (sorted_commitment_document_canonical right) sorted
  have metadataInjective : Function.Injective metadataDocument := by
    rintro ⟨name, value⟩ ⟨otherName, otherValue⟩ same
    simpa [metadataDocument] using same
  simp only [sortedCommitmentDocument, Json.object.injEq, List.cons.injEq, Prod.mk.injEq,
    true_and, and_true, Json.array.injEq, (List.map_injective_iff.mpr
      sorted_row_document_injective).eq_iff, (List.map_injective_iff.mpr
        metadataInjective).eq_iff] at documents
  obtain ⟨keys, metadata⟩ := documents
  cases left
  cases right
  simp_all

variable {crypto : Crypto} {attributes : List (String × String)}

theorem store_commitment_injective (hash : crypto.CollisionFree) :
    Function.Injective (storeCommitment crypto) := by
  intro left right same
  apply commitment_text_injective
  exact utf8_encode_injective (hash.injective (hexdigest_injective same))

theorem store_commitment_ne_empty (hash : crypto.CollisionFree) (tables : Tables) :
    storeCommitment crypto tables ≠ "" :=
  hexdigest_ne_empty (hash.nonempty _)

/-! ### Custom attributes -/

/-- The attribute lists that `_validated_custom_attributes` returns. -/
structure ValidAttributes (attributes : List (String × String)) : Prop where
  sorted : (attributes.map Prod.fst).Pairwise (· < ·)
  supported : ∀ pair ∈ attributes, pair.1 ∈ vsphereCustomAttributes
  bounded : ∀ pair ∈ attributes, (utf8Encode pair.2).length ≤ maxCustomAttributeValueBytes

theorem text_members_keys (pairs : List (String × String)) :
    (textMembers pairs).map Prod.fst = pairs.map Prod.fst := by
  simp [textMembers, List.map_map, Function.comp_def]

theorem valid_attributes_length (valid : ValidAttributes attributes) :
    attributes.length ≤ vsphereCustomAttributes.length := by
  have names : (attributes.map Prod.fst).Nodup := pairwise_lt_nodup valid.sorted
  have inside : attributes.map Prod.fst ⊆ vsphereCustomAttributes := by
    intro name member
    obtain ⟨pair, pairMember, rfl⟩ := List.mem_map.mp member
    exact valid.supported pair pairMember
  have bound := (List.subperm_of_subset names inside).length_le
  simpa using bound

theorem fold_add_attribute (attributes known : List (String × String))
    (distinct : ((known ++ attributes).map Prod.fst).Nodup)
    (supported : ∀ pair ∈ attributes, pair.1 ∈ vsphereCustomAttributes)
    (bounded : ∀ pair ∈ attributes,
      (utf8Encode pair.2).length ≤ maxCustomAttributeValueBytes) :
    (textMembers attributes).foldlM validatedCustomAttributes.addAttribute known =
      .ok (known ++ attributes) := by
  induction attributes generalizing known with
  | nil => simp [textMembers]
  | cons pair attributes induction =>
    have absent : pair.1 ∉ known.map Prod.fst := by
      rw [List.map_append, List.map_cons, List.nodup_append] at distinct
      intro member
      exact distinct.2.2 pair.1 member pair.1 (by simp) rfl
    have accepted : validatedCustomAttributes.addAttribute known (pair.1, .string pair.2) =
        .ok (known ++ [pair]) := by
      have fine : ¬(pair.1 ∉ vsphereCustomAttributes ∨ pair.1 ∈ known.map Prod.fst ∨
          maxCustomAttributeValueBytes < (utf8Encode pair.2).length) := by
        rintro (unsupported | repeated | long)
        · exact unsupported (supported pair (by simp))
        · exact absent repeated
        · exact absurd (bounded pair (by simp)) (not_le.mpr long)
      simp only [validatedCustomAttributes.addAttribute, if_neg fine,
        set_item_new pair.1 pair.2 known absent]
    rw [textMembers, List.map_cons, List.foldlM_cons, accepted, ok_bind]
    have rest := induction (known ++ [pair]) (by simpa using distinct)
      (fun other member => supported other (List.mem_cons_of_mem _ member))
      (fun other member => bounded other (List.mem_cons_of_mem _ member))
    rw [textMembers] at rest
    rw [rest, List.append_assoc, List.singleton_append]

theorem validated_custom_attributes_valid (valid : ValidAttributes attributes) :
    validatedCustomAttributes (textMembers attributes) = .ok attributes := by
  have short : ¬vsphereCustomAttributes.length < (textMembers attributes).length := by
    have bound := valid_attributes_length valid
    simpa [textMembers] using bound
  have folded := fold_add_attribute attributes [] (pairwise_lt_nodup valid.sorted)
    valid.supported valid.bounded
  have ordered : attributes.insertionSort (fun left right => toLex left ≤ toLex right) =
      attributes := by
    apply List.Pairwise.insertionSort_eq
    refine (List.pairwise_map.mp valid.sorted).imp ?_
    intro left right before
    exact le_of_lt (Prod.Lex.left _ _ before)
  rw [validatedCustomAttributes, if_neg short, folded]
  simp only [List.nil_append, ok_bind, pure_is_ok, ordered]

variable {known result : List (String × String)} {pairs : List (String × Json)} {master : Bytes}

theorem add_attribute_keeps {pair : String × Json} (distinct : (known.map Prod.fst).Nodup)
    (supported : ∀ pair ∈ known, pair.1 ∈ vsphereCustomAttributes)
    (bounded : ∀ pair ∈ known, (utf8Encode pair.2).length ≤ maxCustomAttributeValueBytes)
    (added : validatedCustomAttributes.addAttribute known pair = .ok result) :
    (result.map Prod.fst).Nodup ∧ (∀ pair ∈ result, pair.1 ∈ vsphereCustomAttributes) ∧
      ∀ pair ∈ result, (utf8Encode pair.2).length ≤ maxCustomAttributeValueBytes := by
  obtain ⟨name, value⟩ := pair
  unfold validatedCustomAttributes.addAttribute at added
  split at added
  · rename_i text
    split at added
    · cases added
    · rename_i fine
      simp only [not_or, not_not, not_lt] at fine
      rw [set_item_new _ _ _ fine.2.1] at added
      cases added
      refine ⟨?_, ?_, ?_⟩
      · rw [List.map_append, List.map_singleton]
        exact List.Nodup.append distinct (List.nodup_singleton _)
          (List.disjoint_singleton.mpr fine.2.1)
      · intro other member
        rcases List.mem_append.mp member with inside | isLast
        · exact supported other inside
        · rw [List.mem_singleton.mp isLast]
          exact fine.1
      · intro other member
        rcases List.mem_append.mp member with inside | isLast
        · exact bounded other inside
        · rw [List.mem_singleton.mp isLast]
          exact fine.2.2
  · cases added

theorem fold_add_attribute_keeps (distinct : (known.map Prod.fst).Nodup)
    (supported : ∀ pair ∈ known, pair.1 ∈ vsphereCustomAttributes)
    (bounded : ∀ pair ∈ known, (utf8Encode pair.2).length ≤ maxCustomAttributeValueBytes)
    (folded : pairs.foldlM validatedCustomAttributes.addAttribute known = .ok result) :
    (result.map Prod.fst).Nodup ∧ (∀ pair ∈ result, pair.1 ∈ vsphereCustomAttributes) ∧
      ∀ pair ∈ result, (utf8Encode pair.2).length ≤ maxCustomAttributeValueBytes := by
  induction pairs generalizing known with
  | nil =>
    cases folded
    exact ⟨distinct, supported, bounded⟩
  | cons pair pairs induction =>
    rw [List.foldlM_cons, bind_ok_iff] at folded
    obtain ⟨middle, added, rest⟩ := folded
    obtain ⟨middleDistinct, middleSupported, middleBounded⟩ :=
      add_attribute_keeps distinct supported bounded added
    exact induction middleDistinct middleSupported middleBounded rest

theorem validated_custom_attributes_sound
    (validated : validatedCustomAttributes pairs = .ok attributes) :
    ValidAttributes attributes := by
  unfold validatedCustomAttributes at validated
  split at validated
  · cases validated
  · obtain ⟨normalized, folded, result⟩ := bind_ok_iff.mp validated
    cases result
    obtain ⟨distinct, supported, bounded⟩ :=
      fold_add_attribute_keeps (by simp) (by simp) (by simp) folded
    have perm := List.perm_insertionSort (fun left right => toLex left ≤ toLex right) normalized
    refine ⟨?_, fun pair member => supported pair (perm.mem_iff.mp member),
      fun pair member => bounded pair (perm.mem_iff.mp member)⟩
    -- The pairs are sorted, and equal names would be one name twice.
    have ordered := List.pairwise_insertionSort
      (fun left right : String × String => toLex left ≤ toLex right) normalized
    have names := (perm.map Prod.fst).nodup_iff.mpr distinct
    refine List.pairwise_map.mpr ((ordered.and (List.pairwise_map.mp names)).imp ?_)
    rintro left right ⟨below, different⟩
    rcases (Prod.Lex.toLex_le_toLex).mp below with before | ⟨same, -⟩
    · exact before
    · exact absurd same different

/-! ### The AAD document -/

def aadMembers (metadata : StoredKey) : Fin 10 → String × Json
  | 0 => ("schema_version", .int storeSchemaVersion)
  | 1 => ("provider_id", .string metadata.providerId)
  | 2 => ("key_id", .string metadata.keyId)
  | 3 => ("algorithm", .string metadata.algorithm)
  | 4 => ("length", .int metadata.length)
  | 5 => ("name", optionalText metadata.name)
  | 6 => ("state", .string metadata.state)
  | 7 => ("created_at", .string metadata.createdAt)
  | 8 => ("activated_at", optionalText metadata.activatedAt)
  | 9 => ("custom_attributes", .object (textMembers metadata.customAttributes))

def sortedAadMembers (metadata : StoredKey) : List (String × Json) :=
  (if metadata.customAttributes = [] then [8, 3, 7, 2, 4, 5, 1, 0, 6]
    else [8, 3, 7, 9, 2, 4, 5, 1, 0, 6]).map (aadMembers metadata)

theorem render_aad_document (metadata : StoredKey)
    (valid : ValidAttributes metadata.customAttributes) :
    render (aadDocument metadata) = render (.object (sortedAadMembers metadata)) := by
  have attributes : ofPairs (textMembers metadata.customAttributes) =
      textMembers metadata.customAttributes := by
    apply of_pairs_distinct
    rw [text_members_keys]
    exact pairwise_lt_nodup valid.sorted
  by_cases none : metadata.customAttributes = []
  · have order : List.Perm [0, 1, 2, 3, 4, 5, 6, 7, 8]
        ([8, 3, 7, 2, 4, 5, 1, 0, 6] : List (Fin 10)) := by decide
    rw [aadDocument, sortedAadMembers, if_pos none, if_pos none, List.append_nil]
    refine render_object_perm (order.map (aadMembers metadata)) ?_
    change ["schema_version", "provider_id", "key_id", "algorithm", "length", "name", "state",
      "created_at", "activated_at"].Nodup
    decide
  · have order : List.Perm [0, 1, 2, 3, 4, 5, 6, 7, 8, 9]
        ([8, 3, 7, 9, 2, 4, 5, 1, 0, 6] : List (Fin 10)) := by decide
    rw [aadDocument, sortedAadMembers, if_neg none, if_neg none, attributes]
    refine render_object_perm (order.map (aadMembers metadata)) ?_
    change ["schema_version", "provider_id", "key_id", "algorithm", "length", "name", "state",
      "created_at", "activated_at", "custom_attributes"].Nodup
    decide

theorem text_members_canonical (pairs : List (String × String)) :
    CanonicalMembers (textMembers pairs) := by
  induction pairs with
  | nil => trivial
  | cons pair pairs induction => exact ⟨trivial, induction⟩

theorem sorted_aad_members_canonical (metadata : StoredKey)
    (valid : ValidAttributes metadata.customAttributes) :
    Canonical (.object (sortedAadMembers metadata)) := by
  have attributes : Canonical (.object (textMembers metadata.customAttributes)) := by
    refine ⟨?_, text_members_canonical _⟩
    rw [text_members_keys]
    exact valid.sorted
  unfold sortedAadMembers
  split
  · refine ⟨?_, optional_text_canonical _, trivial, trivial, trivial, trivial,
      optional_text_canonical _, trivial, trivial, trivial, trivial⟩
    change ["activated_at", "algorithm", "created_at", "key_id", "length", "name",
      "provider_id", "schema_version", "state"].Pairwise (· < ·)
    decide
  · refine ⟨?_, optional_text_canonical _, trivial, trivial, attributes, trivial, trivial,
      optional_text_canonical _, trivial, trivial, trivial, trivial⟩
    change ["activated_at", "algorithm", "created_at", "custom_attributes", "key_id", "length",
      "name", "provider_id", "schema_version", "state"].Pairwise (· < ·)
    decide

theorem loads_canonical_aad (metadata : StoredKey)
    (valid : ValidAttributes metadata.customAttributes) :
    loads (canonicalAad metadata) = some (.object (sortedAadMembers metadata)) := by
  have text : canonicalAad metadata = dumps (.object (sortedAadMembers metadata)) := by
    rw [canonicalAad, dumps, render_aad_document metadata valid, dumps]
  rw [text, loads_dumps _ (sorted_aad_members_canonical metadata valid)]

theorem custom_attributes_of_aad (metadata : StoredKey) :
    (getItem "custom_attributes" (sortedAadMembers metadata)).getD (.object []) =
      .object (textMembers metadata.customAttributes) := by
  unfold sortedAadMembers
  split
  · rename_i none
    rw [none]
    rfl
  · rfl

/-! ### The KEK envelope -/

def payloadMembers (envelope : KekEnvelope) : Fin 5 → String × Json
  | 0 => ("kek", .string (b64encode envelope.kek))
  | 1 => ("generation", .int envelope.generation)
  | 2 => ("commitment", .string envelope.commitment)
  | 3 => ("pending_generation", optionalInt envelope.pendingGeneration)
  | 4 => ("pending_commitment", optionalText envelope.pendingCommitment)

def sortedPayload (envelope : KekEnvelope) : List (String × Json) :=
  [2, 1, 0, 4, 3].map (payloadMembers envelope)

theorem loads_payload (envelope : KekEnvelope) :
    loads (dumps (envelopePlaintext envelope)) = some (.object (sortedPayload envelope)) := by
  have order : List.Perm [0, 1, 2, 3, 4] ([2, 1, 0, 4, 3] : List (Fin 5)) := by decide
  have text : render (envelopePlaintext envelope) = render (.object (sortedPayload envelope)) := by
    refine render_object_perm (order.map (payloadMembers envelope)) ?_
    change ["kek", "generation", "commitment", "pending_generation",
      "pending_commitment"].Nodup
    decide
  have canonical : Canonical (.object (sortedPayload envelope)) := by
    have number : Canonical (optionalInt envelope.pendingGeneration) := by
      cases envelope.pendingGeneration <;> trivial
    refine ⟨?_, trivial, trivial, trivial, optional_text_canonical _, number, trivial⟩
    change ["commitment", "generation", "kek", "pending_commitment",
      "pending_generation"].Pairwise (· < ·)
    decide
  rw [dumps, text]
  exact loads_dumps _ canonical

theorem read_payload_written (envelope : KekEnvelope) (valid : envelope.Valid) :
    readPayload (sortedPayload envelope) = .ok envelope := by
  obtain ⟨kek, generation, commitment, pendingGeneration, pendingCommitment⟩ := envelope
  have pending := valid.pending
  simp only at pending
  subst pending
  cases pendingCommitment with
  | none =>
    simp [readPayload, sortedPayload, payloadMembers, textField, generationField,
      pendingGenerationField, pendingCommitmentField, getItem, optionalInt, optionalText,
      orRaise, b64decode_b64encode]
  | some pendingText =>
    simp [readPayload, sortedPayload, payloadMembers, textField, generationField,
      pendingGenerationField, pendingCommitmentField, getItem, optionalInt, optionalText,
      orRaise, b64decode_b64encode]

theorem loads_envelope_text (crypto : Crypto) (master nonce : Bytes) (envelope : KekEnvelope) :
    loads (envelopeText crypto master nonce envelope) = some (.object
      [("ciphertext", .string (b64encode (crypto.encrypt master nonce
          (utf8Encode (dumps (envelopePlaintext envelope))) kekAad))),
        ("format", .string kekEnvelopeFormat),
        ("nonce", .string (b64encode nonce))]) := by
  rw [envelopeText]
  generalize b64encode (crypto.encrypt _ _ _ _) = ciphertext
  generalize b64encode nonce = nonceText
  have order : List.Perm [("format", Json.string kekEnvelopeFormat),
      ("nonce", .string nonceText), ("ciphertext", .string ciphertext)]
      [("ciphertext", .string ciphertext), ("format", .string kekEnvelopeFormat),
        ("nonce", .string nonceText)] :=
    ((List.Perm.swap _ _ _).cons _).trans (List.Perm.swap _ _ _)
  have canonical : Canonical (.object [("ciphertext", .string ciphertext),
      ("format", .string kekEnvelopeFormat), ("nonce", .string nonceText)]) := by
    refine ⟨?_, trivial, trivial, trivial, trivial⟩
    change ["ciphertext", "format", "nonce"].Pairwise (· < ·)
    decide
  have text := render_object_perm order (by
    change ["format", "nonce", "ciphertext"].Nodup
    decide)
  rw [dumps, text]
  exact loads_dumps_line _ canonical

theorem read_envelope_written (authentic : crypto.Authentic) (master nonce : Bytes)
    (envelope : KekEnvelope) (valid : envelope.Valid) :
    readEnvelope crypto master (envelopeText crypto master nonce envelope) = .ok envelope := by
  have body : readEnvelopeBody crypto master nonce (crypto.encrypt master nonce
      (utf8Encode (dumps (envelopePlaintext envelope))) kekAad) false = .ok envelope := by
    simp only [readEnvelopeBody, Bool.false_eq_true, if_false, authentic.decrypt_encrypt,
      orRaise, ok_bind, utf8_decode_encode, Option.bind_some, loads_payload, objectMembers,
      read_payload_written envelope valid]
  rw [readEnvelope, loads_envelope_text]
  generalize crypto.encrypt master nonce (utf8Encode (dumps (envelopePlaintext envelope)))
    kekAad = ciphertext at body
  simp [orRaise, objectMembers, legacyFormat, decodeEnvelopeValue, getItem, b64decode_b64encode,
    body, valid.kek]

theorem read_envelope_other_key (bound : crypto.KeyBound) {other : Bytes}
    (different : other ≠ master) (nonce : Bytes) (envelope : KekEnvelope) :
    readEnvelope crypto other (envelopeText crypto master nonce envelope) =
      .error kekNotOpened := by
  have body : readEnvelopeBody crypto other nonce (crypto.encrypt master nonce
      (utf8Encode (dumps (envelopePlaintext envelope))) kekAad) false = .error kekNotOpened := by
    simp only [readEnvelopeBody, Bool.false_eq_true, if_false,
      bound.decrypt_other _ _ _ _ _ different, orRaise, error_bind]
  rw [readEnvelope, loads_envelope_text]
  generalize crypto.encrypt master nonce (utf8Encode (dumps (envelopePlaintext envelope)))
    kekAad = ciphertext at body
  simp [orRaise, objectMembers, legacyFormat, decodeEnvelopeValue, getItem, b64decode_b64encode,
    body]

theorem read_payload_pending {members : List (String × Json)} {envelope : KekEnvelope}
    (read : readPayload members = .ok envelope) :
    envelope.pendingGeneration = envelope.pendingCommitment.map fun _ =>
      envelope.generation + 1 := by
  simp only [readPayload, bind_ok_iff] at read
  obtain ⟨encoded, -, kek, -, generation, -, commitment, -, pendingGeneration, readGeneration,
    pendingCommitment, -, checked⟩ := read
  have shape : pendingGeneration = none ∨ pendingGeneration = some (generation + 1) := by
    unfold pendingGenerationField at readGeneration
    split at readGeneration
    · split at readGeneration
      · exact .inr (Except.ok.inj readGeneration).symm
      · cases readGeneration
    · exact .inl (Except.ok.inj readGeneration).symm
    · exact .inl (Except.ok.inj readGeneration).symm
    · cases readGeneration
  split at checked
  · rename_i together
    cases checked
    rcases shape with rfl | rfl
    · cases pendingCommitment with
      | none => rfl
      | some pending => cases together
    · cases pendingCommitment with
      | none => cases together
      | some pending => rfl
  · cases checked

theorem read_envelope_valid {text : String} {envelope : KekEnvelope}
    (read : readEnvelope crypto master text = .ok envelope) :
    envelope.Valid := by
  simp only [readEnvelope, bind_ok_iff] at read
  obtain ⟨document, -, members, -, legacy, -, nonce, -, ciphertext, -, body, readBody,
    checked⟩ := read
  split at checked
  · rename_i length
    cases checked
    refine ⟨length, ?_⟩
    unfold readEnvelopeBody at readBody
    split at readBody
    · obtain ⟨kek, -, result⟩ := bind_ok_iff.mp readBody
      cases result
      rfl
    · simp only [bind_ok_iff] at readBody
      obtain ⟨plaintext, -, payload, -, fields, -, readFields⟩ := readBody
      exact read_payload_pending readFields
  · cases checked

end Atlaso.Kmip.StoreDocuments
