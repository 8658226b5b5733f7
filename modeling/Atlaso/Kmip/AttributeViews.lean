import Atlaso.Kmip.Protocol
import Atlaso.Kmip.StoredRows

/-!
The KMIP views of a key's attributes: the list of names, the attributes of a request that names
none, and those of one that does. All three agree with one table of the attributes that the key
has.
-/

namespace Atlaso.Kmip.AttributeViews

open Library Dictionary JsonText Outcomes Clock CommitProtocol Exceptions
open Identifiers Instants Protocol StoreDocuments StoreFiles StoreHistories StoreKeys
open StoreOperations StoreRuns StoredRows TtlvCodec

/-- `_attribute`. -/
def attributeNode (name : String) : Ttlv → Ttlv
  | .tuple _ type nodes => structure' Tag.attribute
      [textString Tag.attributeName name, .tuple Tag.attributeValue type nodes]
  | .scalar _ type value => structure' Tag.attribute
      [textString Tag.attributeName name, .scalar Tag.attributeValue type value]

/-- `int(datetime.fromisoformat(text).timestamp())`. -/
def textSeconds (text : String) : Except Raised Int :=
  match fromIsoformat text with
  | some reading => .ok (timestampSeconds reading)
  | none => .error (.valueError "Invalid isoformat string")

def nameNode (name : String) : Ttlv :=
  structure' Tag.attributeValue [textString Tag.nameValue name,
    enumeration Tag.nameType nameTypeUninterpretedTextString]

def metadataAttribute (name : String) (metadata : StoredKey) : Except Raised Ttlv :=
  if name = "Cryptographic Algorithm" then
    .ok (attributeNode name (enumeration Tag.attributeValue cryptographicAlgorithmAes))
  else if name = "Cryptographic Length" then
    .ok (attributeNode name (integer Tag.attributeValue 256))
  else if name = "Cryptographic Usage Mask" then
    .ok (attributeNode name (integer Tag.attributeValue usageEncryptDecrypt))
  else if name = "Object Type" then
    .ok (attributeNode name (enumeration Tag.attributeValue objectTypeSymmetricKey))
  else if name = "State" then
    .ok (attributeNode name (enumeration Tag.attributeValue
      (if metadata.state = "Active" then stateActive else statePreActive)))
  else if name = "Unique Identifier" then
    .ok (attributeNode name (textString Tag.attributeValue metadata.keyId))
  else if name = "Activation Date" then
    match metadata.activatedAt with
    | none => .error (invalidField "Activation Date is unavailable for a pre-active key.")
    | some text => (textSeconds text).map fun seconds =>
      attributeNode name (dateTime Tag.attributeValue seconds)
  else if name = "Name" then
    match metadata.name with
    | none => .error (invalidField "Name is unavailable for this key.")
    | some keyName => .ok (attributeNode name (nameNode keyName))
  else
    match getItem name (ofPairs metadata.customAttributes) with
    | some customValue => .ok (attributeNode name (textString Tag.attributeValue customValue))
    | none => .error (invalidField "Requested KMIP attribute is unsupported.")

def standardNames : List String :=
  ["Cryptographic Algorithm", "Cryptographic Length", "Cryptographic Usage Mask", "Object Type",
    "State", "Unique Identifier"]

def derivedNames (metadata : StoredKey) : List String :=
  standardNames ++ (if metadata.name ≠ none then ["Name"] else []) ++
    (if metadata.activatedAt ≠ none then ["Activation Date"] else []) ++
      vsphereCustomAttributes.filter fun name =>
        name ∈ (ofPairs metadata.customAttributes).map Prod.fst

def supportedNames : List String := attributeTags.map Prod.fst ++ vsphereCustomAttributes

/-- Whether a requested name is in `present_names`. -/
def isPresent (metadata : StoredKey) (name : String) : Bool :=
  (name ∉ vsphereCustomAttributes && !(metadata.name = none && name = "Name") &&
    !(metadata.activatedAt = none && name = "Activation Date")) ||
      name ∈ (ofPairs metadata.customAttributes).map Prod.fst

/-- `self.store.get_metadata`. -/
def storedMetadata (store : Operation → Except Raised Answer) (providerId keyId : String) :
    Except Raised StoredKey := do
  match ← store (.getMetadata providerId keyId) with
  | .metadata key => return key
  | _ => throw (.assertionError "")

def getAttributeList (store : Operation → Except Raised Answer) (providerId : String)
    (payload : Ttlv) : Except Raised (List Ttlv) := do
  catchTtlv (invalidField "Get Attribute List contains unsupported fields.")
    (assertOnlyTags payload [Tag.uniqueIdentifier])
  let metadata ← storedMetadata store providerId (← uniqueIdentifier payload)
  return textString Tag.uniqueIdentifier metadata.keyId ::
    (derivedNames metadata).map (textString Tag.attributeName)

def getAttributes (store : Operation → Except Raised Answer) (providerId : String)
    (payload : Ttlv) : Except Raised (List Ttlv) := do
  catchTtlv (invalidField "Get Attributes contains unsupported fields.")
    (assertOnlyTags payload [Tag.uniqueIdentifier, Tag.attributeName])
  let metadata ← storedMetadata store providerId (← uniqueIdentifier payload)
  let requested ← (← children payload Tag.attributeName).mapM textValue
  let names := if requested = [] then derivedNames metadata else requested
  if names.Nodup ∧ names ⊆ supportedNames then
    let attributes ← (names.filter (isPresent metadata)).mapM fun name =>
      metadataAttribute name metadata
    return textString Tag.uniqueIdentifier metadata.keyId :: attributes
  else throw (invalidField "Requested attributes are invalid.")

/-! ### The attributes of a key -/

def heldAttributes (metadata : StoredKey) (activated : Option Reading) :
    List (String × Ttlv) :=
  [("Cryptographic Algorithm", enumeration Tag.attributeValue
      (if metadata.algorithm = "AES" then cryptographicAlgorithmAes else 0)),
    ("Cryptographic Length", integer Tag.attributeValue metadata.length),
    ("Cryptographic Usage Mask", integer Tag.attributeValue usageEncryptDecrypt),
    ("Object Type", enumeration Tag.attributeValue objectTypeSymmetricKey),
    ("State", enumeration Tag.attributeValue (if metadata.state = "Active" then stateActive
      else if metadata.state = "Pre-Active" then statePreActive else 0)),
    ("Unique Identifier", textString Tag.attributeValue metadata.keyId)] ++
  (metadata.name.toList.map fun name => ("Name", nameNode name)) ++
  (activated.toList.map fun reading =>
    ("Activation Date", dateTime Tag.attributeValue (timestampSeconds reading))) ++
  metadata.customAttributes.map fun entry => (entry.1, textString Tag.attributeValue entry.2)

structure Sound (metadata : StoredKey) (activated : Option Reading) : Prop where
  algorithm : metadata.algorithm = "AES"
  length : metadata.length = 256
  state : metadata.state = "Pre-Active" ∨ metadata.state = "Active"
  activation : metadata.activatedAt = activated.map isoformat
  attributes : ValidAttributes metadata.customAttributes

section Views

variable {metadata : StoredKey} {activated : Option Reading}

theorem custom_pairs (attributes : ValidAttributes metadata.customAttributes) :
    ofPairs metadata.customAttributes = metadata.customAttributes :=
  of_pairs_distinct _ (pairwise_lt_nodup attributes.sorted)

theorem custom_names (attributes : ValidAttributes metadata.customAttributes) :
    (vsphereCustomAttributes.filter fun name =>
      name ∈ (ofPairs metadata.customAttributes).map Prod.fst) =
        metadata.customAttributes.map Prod.fst := by
  have listed : vsphereCustomAttributes.Pairwise (· < ·) := by decide
  rw [custom_pairs attributes]
  refine List.Perm.eq_of_pairwise ?_ (listed.filter _) attributes.sorted ?_
  · intro left right _ _ less greater
    exact absurd less (lt_asymm greater)
  · apply (List.perm_ext_iff_of_nodup ((pairwise_lt_nodup listed).filter _)
      (pairwise_lt_nodup attributes.sorted)).mpr
    intro name
    rw [List.mem_filter, decide_eq_true_eq]
    refine ⟨fun both => both.2, fun inside => ⟨?_, inside⟩⟩
    obtain ⟨entry, member, rfl⟩ := List.mem_map.mp inside
    exact attributes.supported entry member

theorem derived_held (sound : Sound metadata activated) :
    derivedNames metadata = (heldAttributes metadata activated).map Prod.fst := by
  unfold derivedNames heldAttributes
  rw [custom_names sound.attributes, sound.activation]
  simp only [List.map_append, List.map_map, Function.comp_def]
  cases metadata.name <;> cases activated <;> rfl

theorem custom_name_other {name : String} (custom : name ∈ vsphereCustomAttributes) :
    name ∉ attributeTags.map Prod.fst := by
  have apart : ∀ name ∈ vsphereCustomAttributes, name ∉ attributeTags.map Prod.fst := by decide
  exact apart name custom

theorem custom_name_apart {name : String} (custom : name ∈ vsphereCustomAttributes) :
    name ≠ "Activation Date" ∧ name ≠ "Cryptographic Algorithm" ∧ name ≠ "Cryptographic Length" ∧
      name ≠ "Cryptographic Usage Mask" ∧ name ≠ "Name" ∧ name ≠ "Object Type" ∧
        name ≠ "State" ∧ name ≠ "Unique Identifier" := by
  simpa [attributeTags] using custom_name_other custom

section

variable (sound : Sound metadata activated)
include sound

theorem held_distinct :
    ((heldAttributes metadata activated).map Prod.fst).Nodup := by
  have listed : vsphereCustomAttributes.Nodup := by decide
  rw [← derived_held sound]
  unfold derivedNames
  rw [List.nodup_append]
  refine ⟨by split <;> split <;> decide, listed.filter _, ?_⟩
  intro name front other later same
  rw [← same] at later
  refine custom_name_other (List.mem_of_mem_filter later) ?_
  revert front
  split <;> split <;> exact fun front => (show _ ⊆ attributeTags.map Prod.fst by decide) front

theorem held_returned {name : String} {value : Ttlv}
    (held : (name, value) ∈ heldAttributes metadata activated) :
    metadataAttribute name metadata = .ok (attributeNode name value) := by
  have state : (if metadata.state = "Active" then stateActive
      else if metadata.state = "Pre-Active" then statePreActive else 0) =
        if metadata.state = "Active" then stateActive else statePreActive := by
    rcases sound.state with preActive | active
    · rw [preActive]
      rfl
    · rw [active]
      rfl
  unfold heldAttributes at held
  rw [sound.algorithm, sound.length, state] at held
  rcases List.mem_append.mp held with front | custom
  · rcases List.mem_append.mp front with standard | activation
    · rcases List.mem_append.mp standard with fixed | named
      · simp only [List.mem_cons, List.not_mem_nil, or_false, Prod.mk.injEq] at fixed
        rcases fixed with ⟨rfl, rfl⟩ | ⟨rfl, rfl⟩ | ⟨rfl, rfl⟩ | ⟨rfl, rfl⟩ | ⟨rfl, rfl⟩ | ⟨rfl, rfl⟩ <;>
          rfl
      · obtain ⟨keyName, given, pair⟩ := List.mem_map.mp named
        cases pair
        have known : metadata.name = some keyName := Option.mem_toList.mp given
        simp [metadataAttribute, known]
    · obtain ⟨reading, given, pair⟩ := List.mem_map.mp activation
      cases pair
      have known : activated = some reading := Option.mem_toList.mp given
      have text : metadata.activatedAt = some (isoformat reading) := by
        rw [sound.activation, known]
        rfl
      simp [metadataAttribute, text, textSeconds, from_isoformat_isoformat, Except.map]
  · obtain ⟨entry, given, pair⟩ := List.mem_map.mp custom
    cases pair
    obtain ⟨activation, algorithm, length, usage, keyName, object, state, identifier⟩ :=
      custom_name_apart (sound.attributes.supported entry given)
    have found : getItem entry.1 (ofPairs metadata.customAttributes) = some entry.2 := by
      rw [custom_pairs sound.attributes]
      exact (get_item_iff (pairwise_lt_nodup sound.attributes.sorted)).mpr given
    simp only [metadataAttribute, algorithm, length, usage, object, state, identifier, activation,
      keyName, if_false, found]

theorem present_iff {name : String} (supported : name ∈ supportedNames) :
    isPresent metadata name = true ↔
      name ∈ (heldAttributes metadata activated).map Prod.fst := by
  rw [← derived_held sound]
  unfold isPresent derivedNames
  rcases List.mem_append.mp supported with tagged | custom
  · have other : name ∉ vsphereCustomAttributes := fun custom => custom_name_other custom tagged
    have unlisted : name ∉ (ofPairs metadata.customAttributes).map Prod.fst := by
      rw [custom_pairs sound.attributes]
      intro inside
      obtain ⟨entry, member, rfl⟩ := List.mem_map.mp inside
      exact other (sound.attributes.supported entry member)
    simp only [attributeTags, List.map_cons, List.map_nil, List.mem_cons, List.not_mem_nil,
      or_false] at tagged
    rcases tagged with rfl | rfl | rfl | rfl | rfl | rfl | rfl | rfl <;>
      cases metadata.name <;> cases metadata.activatedAt <;>
      simp_all [standardNames]
  · obtain ⟨activation, algorithm, length, usage, keyName, object, state, identifier⟩ :=
      custom_name_apart custom
    simp only [custom, not_true_eq_false, decide_false, Bool.false_and, Bool.false_or,
      decide_eq_true_eq, List.mem_append, List.mem_filter, true_and, standardNames, List.mem_cons,
      algorithm, length, usage, object, state, identifier, List.not_mem_nil, false_or, or_false]
    refine ⟨.inr, fun either => ?_⟩
    rcases either with (named | dated) | listed
    · split at named
      · exact absurd (List.mem_singleton.mp named) keyName
      · cases named
    · split at dated
      · exact absurd (List.mem_singleton.mp dated) activation
      · cases dated
    · exact listed

def requestedAttributes (metadata : StoredKey) (activated : Option Reading)
    (names : List String) : List Ttlv :=
  names.filterMap fun name =>
    (getItem name (heldAttributes metadata activated)).map (attributeNode name)

theorem selected_attributes {names : List String} (supported : names ⊆ supportedNames) :
    (names.filter (isPresent metadata)).mapM (fun name => metadataAttribute name metadata) =
      .ok (requestedAttributes metadata activated names) := by
  induction names with
  | nil => rfl
  | cons name names induction =>
    obtain ⟨listed, rest⟩ := List.cons_subset.mp supported
    have later := induction rest
    have present := present_iff sound listed
    unfold requestedAttributes at later ⊢
    rw [List.filter_cons, List.filterMap_cons]
    cases held : getItem name (heldAttributes metadata activated) with
    | none =>
      have absent : ¬isPresent metadata name = true := by
        rw [present]
        exact get_item_none.mp held
      rw [if_neg absent]
      exact later
    | some value =>
      have member := mem_of_get_item held
      rw [if_pos (present.mpr (List.mem_map.mpr ⟨_, member, rfl⟩)), List.mapM_cons,
        held_returned sound member, later]
      rfl

theorem requested_all :
    requestedAttributes metadata activated ((heldAttributes metadata activated).map Prod.fst) =
      (heldAttributes metadata activated).map fun entry => attributeNode entry.1 entry.2 := by
  unfold requestedAttributes
  rw [List.filterMap_map, ← List.filterMap_eq_map]
  apply List.filterMap_congr
  intro entry member
  have found := (get_item_iff (held_distinct sound)).mpr member
  simp only [Function.comp_apply, found, Option.map_some]

theorem held_supported :
    (heldAttributes metadata activated).map Prod.fst ⊆ supportedNames := by
  rw [← derived_held sound]
  unfold derivedNames
  intro name inside
  simp only [List.mem_append] at inside
  rcases inside with ((standard | named) | dated) | custom
  · exact (show _ ⊆ supportedNames by decide) standard
  · split at named
    · exact (show _ ⊆ supportedNames by decide) named
    · cases named
  · split at dated
    · exact (show _ ⊆ supportedNames by decide) dated
    · cases dated
  · exact List.mem_append_right _ (List.mem_of_mem_filter custom)

end

end Views

/-! ### Requests -/

def attributesPayload (keyId : String) (names : List String) : Ttlv :=
  structure' Tag.requestPayload
    (textString Tag.uniqueIdentifier keyId :: names.map (textString Tag.attributeName))

theorem payload_tags (keyId : String) (names : List String) (allowed : List Int)
    (identifier : Tag.uniqueIdentifier ∈ allowed)
    (attributes : names ≠ [] → Tag.attributeName ∈ allowed) :
    assertOnlyTags (attributesPayload keyId names) allowed = .ok () := by
  have none : ((textString Tag.uniqueIdentifier keyId ::
      names.map (textString Tag.attributeName)).map Ttlv.tag).filter (fun tag => tag ∉ allowed) =
        [] := by
    apply List.filter_eq_nil_iff.mpr
    intro tag inside
    rw [decide_eq_true_eq, not_not]
    rcases List.mem_cons.mp inside with rfl | later
    · exact identifier
    · obtain ⟨node, member, rfl⟩ := List.mem_map.mp later
      obtain ⟨name, given, rfl⟩ := List.mem_map.mp member
      exact attributes (List.ne_nil_of_mem given)
  unfold assertOnlyTags attributesPayload
  change (if (((textString Tag.uniqueIdentifier keyId ::
    names.map (textString Tag.attributeName)).map Ttlv.tag).filter _).dedup.insertionSort
      (· ≤ ·) = [] then _ else _) = _
  rw [none]
  rfl

theorem payload_names (keyId : String) (names : List String) :
    (children (attributesPayload keyId names) Tag.attributeName).bind (·.mapM textValue) =
      .ok names := by
  have filtered : children (attributesPayload keyId names) Tag.attributeName =
      .ok (names.map (textString Tag.attributeName)) := by
    unfold children attributesPayload
    change Except.ok (List.filter _ (_ :: _)) = _
    rw [List.filter_cons_of_neg Bool.false_ne_true, List.filter_eq_self.mpr]
    intro node member
    obtain ⟨name, -, rfl⟩ := List.mem_map.mp member
    exact decide_eq_true rfl
  rw [filtered]
  change (names.map (textString Tag.attributeName)).mapM textValue = .ok names
  clear filtered
  induction names with
  | nil => rfl
  | cons name names induction =>
    rw [List.map_cons, List.mapM_cons, induction]
    rfl

theorem payload_identifier {keyId : String} (named : keyId ≠ "") (names : List String) :
    uniqueIdentifier (attributesPayload keyId names) = .ok keyId := by
  have filtered : children (attributesPayload keyId names) Tag.uniqueIdentifier =
      .ok [textString Tag.uniqueIdentifier keyId] := by
    unfold children attributesPayload
    change Except.ok (List.filter _ (_ :: _)) = _
    rw [List.filter_cons_of_pos rfl, List.filter_eq_nil_iff.mpr]
    intro node member
    obtain ⟨name, -, rfl⟩ := List.mem_map.mp member
    exact Bool.false_ne_true
  have required : requiredChild (attributesPayload keyId names) Tag.uniqueIdentifier =
      .ok (textString Tag.uniqueIdentifier keyId) := by
    unfold requiredChild child
    rw [filtered]
    rfl
  unfold uniqueIdentifier
  rw [required]
  change (if keyId = "" then _ else _) = _
  rw [if_neg named]
  rfl

/-- The list of names, the attributes of a request without names and those of a request with
names are views of the attributes that the stored key has. -/
theorem attribute_views_agree {crypto : Crypto} (authentic : crypto.Authentic)
    (hash : crypto.CollisionFree) (bound : crypto.KeyBound) {secretsKey : String} {store : Store}
    (grown : Grown crypto secretsKey store) {providerId keyId : String} {draws : Draws}
    {metadata : StoredKey}
    (stored : (store.call crypto (.getMetadata providerId keyId) draws).1 =
      .ok (.metadata metadata)) :
    ∃ activated : Option Reading, metadata.activatedAt = activated.map isoformat ∧
      ∀ later : Draws,
        let kept := fun operation => (store.call crypto operation later).1
        let held := heldAttributes metadata activated
        getAttributeList kept providerId (attributesPayload keyId []) =
            .ok (textString Tag.uniqueIdentifier metadata.keyId ::
              held.map fun entry => textString Tag.attributeName entry.1) ∧
          getAttributes kept providerId (attributesPayload keyId []) =
            .ok (textString Tag.uniqueIdentifier metadata.keyId ::
              held.map fun entry => attributeNode entry.1 entry.2) ∧
          ∀ names, names ≠ [] → names.Nodup → names ⊆ supportedNames →
            getAttributes kept providerId (attributesPayload keyId names) =
              .ok (textString Tag.uniqueIdentifier metadata.keyId ::
                names.filterMap fun name => (getItem name held).map (attributeNode name)) := by
  obtain ⟨site, tables, generation, rfl, ready, written⟩ :=
    grown_ready authentic hash bound grown
  have answered : ∀ later, (store.call site.crypto (.getMetadata providerId keyId) later).1 =
      .ok (.metadata metadata) := by
    intro later
    rw [call_answers authentic hash ready] at stored ⊢
    exact stored
  have read : ∃ material, readPlan site.crypto site.kek tables providerId keyId =
      .ok (metadata, material) := by
    rw [call_answers authentic hash ready] at stored
    simp only [Operation.plan] at stored
    cases planned : readPlan site.crypto site.kek tables providerId keyId with
    | error raised =>
      rw [planned] at stored
      cases stored
    | ok result =>
      rw [planned] at stored
      cases stored
      exact ⟨result.2, rfl⟩
  obtain ⟨material, read⟩ := read
  obtain ⟨row, found, decrypted⟩ := bind_ok_iff.mp read
  have rowWritten := written row (find_key_row_member found)
  obtain ⟨activated, activation⟩ := rowWritten.activated
  obtain ⟨attributes, valid, fields⟩ := row_metadata_fields (decrypt_row_fields decrypted).1
  have sound : Sound metadata activated := by
    rw [fields]
    exact ⟨rowWritten.algorithm, rowWritten.keyLength, rowWritten.state, activation, valid⟩
  have named : keyId ≠ "" := by
    rintro rfl
    simp only [findKeyRow, bind_ok_iff] at found
    obtain ⟨_, -, _, validated, -⟩ := found
    have rejected : (validatedUuid "" "key_id").isOk = false := by decide
    rw [validated] at rejected
    cases rejected
  refine ⟨activated, sound.activation, fun later => ?_⟩
  have metadataOf : storedMetadata (fun operation => (store.call site.crypto operation later).1)
      providerId keyId = .ok metadata := by
    simp only [storedMetadata, answered later]
    rfl
  have selected : ∀ names, names.Nodup → names ⊆ supportedNames →
      (if names.Nodup ∧ names ⊆ supportedNames then do
        let attributes ← (names.filter (isPresent metadata)).mapM fun name =>
          metadataAttribute name metadata
        return textString Tag.uniqueIdentifier metadata.keyId :: attributes
      else throw (invalidField "Requested attributes are invalid.") : Except Raised (List Ttlv)) =
        .ok (textString Tag.uniqueIdentifier metadata.keyId ::
          requestedAttributes metadata activated names) := by
    intro names distinct supported
    rw [if_pos ⟨distinct, supported⟩, selected_attributes sound supported]
    rfl
  have attributes : ∀ names, getAttributes (fun operation =>
      (store.call site.crypto operation later).1) providerId (attributesPayload keyId names) =
        (let names := if names = [] then derivedNames metadata else names
        if names.Nodup ∧ names ⊆ supportedNames then do
          let attributes ← (names.filter (isPresent metadata)).mapM fun name =>
            metadataAttribute name metadata
          return textString Tag.uniqueIdentifier metadata.keyId :: attributes
        else throw (invalidField "Requested attributes are invalid.")) := by
    intro names
    have texts := payload_names keyId names
    unfold getAttributes
    rw [payload_tags keyId names _ (by decide) (fun _ => by decide), payload_identifier named]
    simp only [catchTtlv, ok_bind, metadataOf]
    obtain ⟨nodes, filtered, given⟩ := bind_ok_iff.mp texts
    rw [filtered, ok_bind, given, ok_bind]
  refine ⟨?list, ?all, ?some⟩
  case list =>
    unfold getAttributeList
    rw [payload_tags keyId [] _ (by decide) (absurd rfl), payload_identifier named]
    simp only [catchTtlv, ok_bind, metadataOf]
    rw [derived_held sound, List.map_map]
    rfl
  case all =>
    rw [attributes, if_pos rfl, derived_held sound,
      selected _ (held_distinct sound) (held_supported sound), requested_all sound]
  case some =>
    intro names someNames distinct supported
    rw [attributes, if_neg someNames]
    exact selected names distinct supported

/-- The views of the key of the sample store, and its name among two that are asked for. -/
theorem sample_views : ∃ store : Store,
    let kept := fun operation => (store.call sampleSite.crypto operation sampleKey).1
    let held := heldAttributes (newMetadata sampleKey sampleProvider none []) none
    getAttributes kept sampleProvider (attributesPayload sampleRow.keyId ["Name", "State"]) =
        .ok (textString Tag.uniqueIdentifier sampleRow.keyId ::
          ["Name", "State"].filterMap fun name => (getItem name held).map (attributeNode name)) := by
  obtain ⟨store, tables, generation, grown, ready, keys⟩ := sample_grown
  have decrypted : decryptRow sampleSite.crypto sampleSite.kek sampleRow =
      .ok (newMetadata sampleKey sampleProvider none [], sampleKey.material.bytes) :=
    decrypt_row_of transparent_authentic
      ⟨(validated_custom_attributes_sound (show validatedCustomAttributes [] = .ok [] from rfl)),
        sampleKey.material.length, rfl⟩
  have found : findKeyRow tables sampleProvider sampleRow.keyId = .ok sampleRow := by
    unfold findKeyRow
    rw [keys]
    exact bind_ok_iff.mpr ⟨sampleProvider, validated_uuid_text _ _, bind_ok_iff.mpr
      ⟨sampleRow.keyId, validated_uuid_text _ _, by rfl⟩⟩
  have stored : (store.call sampleSite.crypto (.getMetadata sampleProvider sampleRow.keyId)
      sampleKey).1 = .ok (.metadata (newMetadata sampleKey sampleProvider none [])) := by
    rw [call_answers transparent_authentic transparent_collision_free ready]
    have planned : (Operation.getMetadata sampleProvider sampleRow.keyId).plan sampleSite.crypto
        sampleSite.kek sampleKey tables =
          .ok ⟨.metadata (newMetadata sampleKey sampleProvider none []), none⟩ :=
      bind_ok_iff.mpr ⟨_, bind_ok_iff.mpr ⟨sampleRow, found, decrypted⟩, rfl⟩
    rw [planned]
    rfl
  obtain ⟨activated, activation, views⟩ := attribute_views_agree transparent_authentic
    transparent_collision_free transparent_key_bound grown stored
  have inactive : activated = none := Option.map_eq_none_iff.mp activation.symm
  subst inactive
  exact ⟨store, (views sampleKey).2.2 _ (by decide) (by decide) (by decide)⟩

end Atlaso.Kmip.AttributeViews
