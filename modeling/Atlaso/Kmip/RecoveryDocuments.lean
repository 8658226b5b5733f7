import Atlaso.Kmip.Recovery
import Atlaso.Library.JsonOrder

/-!
What a recovery archive holds is read back.

The reader returns every object with its fields in order. Validation and the readers of
rows look fields up by name, so that they see the same values in the sorted document.
-/

namespace Atlaso.Kmip.RecoveryDocuments

open Exceptions Recovery StoreDocuments StoreFiles Library Base64 ByteWords
open Dictionary JsonOrder JsonText Outcomes

variable {fields : List String} {members : List (String × Json)}

/-! ### Objects with exactly given fields -/

theorem exactly_perm (different : fields.Nodup) (exact : exactly fields members = true) :
    fields.Perm (members.map Prod.fst) := by
  simp only [exactly, Bool.and_eq_true, decide_eq_true_eq, List.all_eq_true] at exact
  have inside : fields.Subperm (members.map Prod.fst) :=
    List.subperm_of_subset different fun field member => exact.2 field member
  exact inside.perm_of_length_le (by simp [exact.1])

theorem exactly_distinct (different : fields.Nodup) (exact : exactly fields members = true) :
    (members.map Prod.fst).Nodup :=
  (exactly_perm different exact).nodup_iff.mp different

theorem exactly_sorted (fields : List String) (members : List (String × Json)) :
    exactly fields (byKey (sortMembers members)) = exactly fields members := by
  have perm := by_key_perm (sortMembers members)
  have length : (byKey (sortMembers members)).length = members.length := by
    rw [perm.length_eq, sort_members_map, List.length_map]
  have keys : ∀ field, field ∈ (byKey (sortMembers members)).map Prod.fst ↔
      field ∈ members.map Prod.fst := by
    intro field
    rw [(perm.map Prod.fst).mem_iff, sort_members_keys]
  simp only [exactly, length, keys]

theorem object_of_sorted (fields : List String) (row : Json) :
    objectOf fields (sortKeys row) =
      (objectOf fields row).map fun members => byKey (sortMembers members) := by
  cases row with
  | object members =>
    simp only [sortKeys, objectOf, exactly_sorted]
    split_ifs <;> rfl
  | null => rfl
  | bool value => rfl
  | int value => rfl
  | real literal => rfl
  | string value => rfl
  | array items => rfl

theorem object_of_some {row : Json} (found : objectOf fields row = some members) :
    row = .object members ∧ exactly fields members = true := by
  cases row with
  | object held =>
    simp only [objectOf] at found
    split_ifs at found with exact
    cases found
    exact ⟨rfl, exact⟩
  | null => cases found
  | bool value => cases found
  | int value => cases found
  | real literal => cases found
  | string value => cases found
  | array items => cases found

/-! ### Fields of the sorted object -/

section Items

variable (distinct : (members.map Prod.fst).Nodup) (field : String)
include distinct

theorem string_item_sorted :
    stringItem field (byKey (sortMembers members)) = stringItem field members := by
  rw [stringItem, stringItem, get_item_sorted distinct]
  cases getItem field members with
  | none => rfl
  | some value => cases value <;> rfl

theorem bool_item_sorted :
    boolItem field (byKey (sortMembers members)) = boolItem field members := by
  rw [boolItem, boolItem, get_item_sorted distinct]
  cases getItem field members with
  | none => rfl
  | some value => cases value <;> rfl

theorem int_item_sorted :
    intItem field (byKey (sortMembers members)) = intItem field members := by
  rw [intItem, intItem, get_item_sorted distinct]
  cases getItem field members with
  | none => rfl
  | some value => cases value <;> rfl

theorem optional_item_sorted :
    optionalItem field (byKey (sortMembers members)) = optionalItem field members := by
  rw [optionalItem, optionalItem, get_item_sorted distinct]
  cases getItem field members with
  | none => rfl
  | some value => cases value <;> rfl

theorem bytes_item_sorted :
    bytesItem field (byKey (sortMembers members)) = bytesItem field members := by
  rw [bytesItem, bytesItem, string_item_sorted distinct]

theorem canonical_id_sorted :
    canonicalId field (byKey (sortMembers members)) = canonicalId field members := by
  rw [canonicalId, canonicalId, string_item_sorted distinct]

theorem bounded_text_sorted (least most : Nat) :
    boundedText field least most (byKey (sortMembers members)) =
      boundedText field least most members := by
  rw [boundedText, boundedText, string_item_sorted distinct]

end Items

theorem read_object_sorted {Row : Type} (fields : List String) (different : fields.Nodup)
    (view : List (String × Json) → Option Row)
    (same : ∀ members, (members.map Prod.fst).Nodup →
      view (byKey (sortMembers members)) = view members) (row : Json) :
    (objectOf fields (sortKeys row)).bind view = (objectOf fields row).bind view := by
  rw [object_of_sorted]
  cases found : objectOf fields row with
  | none => rfl
  | some members =>
    exact same members (exactly_distinct different (object_of_some found).2)

theorem read_provider_row_sorted (row : Json) :
    readProviderRow (sortKeys row) = readProviderRow row := by
  refine read_object_sorted _ (by decide) _ (fun members distinct => ?_) row
  simp only [canonical_id_sorted distinct, bool_item_sorted distinct, bounded_text_sorted distinct]

theorem read_vcenter_row_sorted (row : Json) :
    readVcenterRow (sortKeys row) = readVcenterRow row := by
  refine read_object_sorted _ (by decide) _ (fun members distinct => ?_) row
  simp only [canonical_id_sorted distinct, bool_item_sorted distinct, bounded_text_sorted distinct,
    string_item_sorted distinct]

theorem read_certificate_row_sorted (services : Services) (row : Json) :
    readCertificateRow services (sortKeys row) = readCertificateRow services row := by
  refine read_object_sorted _ (by decide) _ (fun members distinct => ?_) row
  simp only [canonical_id_sorted distinct, string_item_sorted distinct]

theorem read_rows_sorted {Row : Type} {read : Json → Option Row}
    (same : ∀ row, read (sortKeys row) = read row) (distinct : (members.map Prod.fst).Nodup)
    (kind : String) :
    readRows read kind (byKey (sortMembers members)) = readRows read kind members := by
  rw [readRows, readRows, get_item_sorted distinct]
  cases getItem kind members with
  | none => rfl
  | some value =>
    cases value with
    | array rows =>
      simp only [Option.map_some, sortKeys, sort_items_map, List.length_map, List.mapM_map]
      split_ifs
      · congr 1
        funext row
        exact same row
      · rfl
    | null => rfl
    | bool value => rfl
    | int value => rfl
    | real literal => rfl
    | string value => rfl
    | object members => rfl

theorem read_trust_sorted (services : Services) (distinct : (members.map Prod.fst).Nodup) :
    readTrust services (byKey (sortMembers members)) = readTrust services members := by
  simp only [readTrust, read_rows_sorted read_provider_row_sorted distinct,
    read_rows_sorted read_vcenter_row_sorted distinct,
    read_rows_sorted (read_certificate_row_sorted services) distinct]

/-- The validation of public trust does not depend on the order of fields. -/
theorem validate_trust_sorted (services : Services) (trust : Json) :
    validateTrust services (sortKeys trust) = validateTrust services trust := by
  rw [validateTrust, validateTrust, object_of_sorted]
  cases found : objectOf ["providers", "vcenters", "certificates"] trust with
  | none => rfl
  | some members =>
    simp only [Option.map_some]
    rw [read_trust_sorted services (exactly_distinct (by decide) (object_of_some found).2)]

/-! ### Validated trust has no fractions -/

theorem plain_object {row : Json} (different : fields.Nodup)
    (found : objectOf fields row = some members)
    (each : ∀ field ∈ fields, ∃ value, getItem field members = some value ∧ Plain value) :
    Plain row := by
  obtain ⟨rfl, exact⟩ := object_of_some found
  have distinct := exactly_distinct different exact
  refine .object distinct fun member inside => ?_
  have field : member.1 ∈ fields :=
    (exactly_perm different exact).mem_iff.mpr (List.mem_map_of_mem inside)
  obtain ⟨value, here, plain⟩ := each member.1 field
  rw [get_item_member distinct inside] at here
  cases here
  exact plain

theorem plain_string {field text : String} (found : stringItem field members = some text) :
    ∃ value, getItem field members = some value ∧ Plain value := by
  unfold stringItem at found
  split at found
  · rename_i text here
    exact ⟨_, here, .string text⟩
  · cases found

theorem plain_bool {field : String} {value : Bool} (found : boolItem field members = some value) :
    ∃ value, getItem field members = some value ∧ Plain value := by
  unfold boolItem at found
  split at found
  · rename_i value here
    exact ⟨_, here, .bool value⟩
  · cases found

theorem canonical_id_string {field text : String}
    (found : canonicalId field members = some text) : stringItem field members = some text := by
  obtain ⟨held, here, found⟩ := Option.bind_eq_some_iff.mp found
  obtain ⟨id, _, found⟩ := Option.bind_eq_some_iff.mp found
  split_ifs at found
  cases found
  exact here

theorem bounded_text_string {field text : String} {least most : Nat}
    (found : boundedText field least most members = some text) :
    stringItem field members = some text := by
  obtain ⟨held, here, found⟩ := Option.bind_eq_some_iff.mp found
  split_ifs at found
  cases found
  exact here

theorem provider_row_plain {row : Json} {read : ProviderRow} (found : readProviderRow row = some read) :
    Plain row := by
  obtain ⟨members, object, found⟩ := Option.bind_eq_some_iff.mp found
  obtain ⟨id, first, found⟩ := Option.bind_eq_some_iff.mp found
  obtain ⟨enabled, second, found⟩ := Option.bind_eq_some_iff.mp found
  obtain ⟨name, third, found⟩ := Option.bind_eq_some_iff.mp found
  obtain ⟨description, fourth, _⟩ := Option.bind_eq_some_iff.mp found
  refine plain_object (by decide) object ?_
  simp only [List.forall_mem_cons, List.not_mem_nil, false_implies, implies_true, and_true]
  exact ⟨plain_string (canonical_id_string first), plain_string (bounded_text_string third),
    plain_string (bounded_text_string fourth), plain_bool second⟩

theorem vcenter_row_plain {row : Json} {read : VcenterRow} (found : readVcenterRow row = some read) :
    Plain row := by
  obtain ⟨members, object, found⟩ := Option.bind_eq_some_iff.mp found
  obtain ⟨id, first, found⟩ := Option.bind_eq_some_iff.mp found
  obtain ⟨enabled, second, found⟩ := Option.bind_eq_some_iff.mp found
  obtain ⟨name, third, found⟩ := Option.bind_eq_some_iff.mp found
  obtain ⟨description, fourth, found⟩ := Option.bind_eq_some_iff.mp found
  obtain ⟨provider, fifth, found⟩ := Option.bind_eq_some_iff.mp found
  obtain ⟨hostname, sixth, _⟩ := Option.bind_eq_some_iff.mp found
  refine plain_object (by decide) object ?_
  simp only [List.forall_mem_cons, List.not_mem_nil, false_implies, implies_true, and_true]
  exact ⟨plain_string (canonical_id_string first), plain_string fifth,
    plain_string (bounded_text_string third), plain_string (bounded_text_string sixth),
    plain_string (bounded_text_string fourth), plain_bool second⟩

theorem certificate_row_plain {services : Services} {row : Json} {read : CertificateRow}
    (found : readCertificateRow services row = some read) : Plain row := by
  obtain ⟨members, object, found⟩ := Option.bind_eq_some_iff.mp found
  obtain ⟨id, first, found⟩ := Option.bind_eq_some_iff.mp found
  obtain ⟨vcenter, second, found⟩ := Option.bind_eq_some_iff.mp found
  obtain ⟨pem, third, found⟩ := Option.bind_eq_some_iff.mp found
  obtain ⟨fingerprint, fourth, _⟩ := Option.bind_eq_some_iff.mp found
  refine plain_object (by decide) object ?_
  simp only [List.forall_mem_cons, List.not_mem_nil, false_implies, implies_true, and_true]
  exact ⟨plain_string (canonical_id_string first), plain_string second, plain_string third,
    plain_string fourth⟩

theorem map_m_each {Row : Type} {read : Json → Option Row} {rows : List Json} {results : List Row}
    (found : rows.mapM read = some results) : ∀ row ∈ rows, ∃ result, read row = some result := by
  induction rows generalizing results with
  | nil => simp
  | cons row rows induction =>
    rw [List.mapM_cons] at found
    obtain ⟨first, here, found⟩ := Option.bind_eq_some_iff.mp found
    obtain ⟨rest, later, _⟩ := Option.bind_eq_some_iff.mp found
    intro other inside
    rcases List.mem_cons.mp inside with rfl | behind
    · exact ⟨first, here⟩
    · exact induction later other behind

theorem map_m_member {Row : Type} {read : Json → Option Row} {rows : List Json}
    {results : List Row} (found : rows.mapM read = some results) :
    ∀ result ∈ results, ∃ row ∈ rows, read row = some result := by
  induction rows generalizing results with
  | nil =>
    cases found
    simp
  | cons row rows induction =>
    rw [List.mapM_cons] at found
    obtain ⟨first, here, found⟩ := Option.bind_eq_some_iff.mp found
    obtain ⟨rest, later, found⟩ := Option.bind_eq_some_iff.mp found
    cases found
    intro result inside
    rcases List.mem_cons.mp inside with rfl | behind
    · exact ⟨row, List.mem_cons_self, here⟩
    · obtain ⟨other, member, read⟩ := induction later result behind
      exact ⟨other, List.mem_cons_of_mem _ member, read⟩

theorem rows_plain {Row : Type} {read : Json → Option Row} {kind : String} {results : List Row}
    (each : ∀ row result, read row = some result → Plain row)
    (found : readRows read kind members = some results) :
    ∃ value, getItem kind members = some value ∧ Plain value := by
  unfold readRows at found
  split at found
  · rename_i rows here
    split_ifs at found
    refine ⟨_, here, .array fun row inside => ?_⟩
    obtain ⟨result, read⟩ := map_m_each found row inside
    exact each row result read
  · cases found

theorem or_raise_ok {Value : Type} {raised : Raised} {option : Option Value} {value : Value}
    (found : orRaise raised option = .ok value) : option = some value := by
  cases option with
  | none => cases found
  | some held =>
    cases found
    rfl

section

variable {services : Services} {trust : Json} {rows : Trust}
  (valid : validateTrust services trust = .ok rows)
include valid

theorem validated_read :
    ∃ members, objectOf ["providers", "vcenters", "certificates"] trust = some members ∧
      readTrust services members = some rows := by
  unfold validateTrust at valid
  split at valid
  · cases valid
  · rename_i members found
    exact ⟨members, found, or_raise_ok valid⟩

theorem validated_plain : Plain trust := by
  obtain ⟨members, object, found⟩ := validated_read valid
  obtain ⟨providers, first, found⟩ := Option.bind_eq_some_iff.mp found
  obtain ⟨vcenters, second, found⟩ := Option.bind_eq_some_iff.mp found
  obtain ⟨certificates, third, _⟩ := Option.bind_eq_some_iff.mp found
  refine plain_object (by decide) object ?_
  simp only [List.forall_mem_cons, List.not_mem_nil, false_implies, implies_true, and_true]
  exact ⟨rows_plain (fun _ _ => provider_row_plain) first,
    rows_plain (fun _ _ => vcenter_row_plain) second,
    rows_plain (fun _ _ => certificate_row_plain) third⟩

theorem validated_provider_id :
    ∀ row ∈ rows.providers, ∃ id : Identifiers.Uuid, row.id = id.text := by
  obtain ⟨members, object, found⟩ := validated_read valid
  obtain ⟨providers, first, found⟩ := Option.bind_eq_some_iff.mp found
  obtain ⟨vcenters, second, found⟩ := Option.bind_eq_some_iff.mp found
  obtain ⟨certificates, third, found⟩ := Option.bind_eq_some_iff.mp found
  simp only at found
  split_ifs at found
  cases found
  intro row inside
  unfold readRows at first
  split at first
  · split_ifs at first
    rename_i documents _ _
    obtain ⟨document, _, read⟩ := map_m_member first row inside
    obtain ⟨members, object, read⟩ := Option.bind_eq_some_iff.mp read
    obtain ⟨id, here, read⟩ := Option.bind_eq_some_iff.mp read
    obtain ⟨enabled, _, read⟩ := Option.bind_eq_some_iff.mp read
    obtain ⟨name, _, read⟩ := Option.bind_eq_some_iff.mp read
    obtain ⟨description, _, read⟩ := Option.bind_eq_some_iff.mp read
    cases read
    obtain ⟨text, _, here⟩ := Option.bind_eq_some_iff.mp here
    obtain ⟨uuid, _, here⟩ := Option.bind_eq_some_iff.mp here
    split_ifs at here with same
    cases here
    exact ⟨uuid, same.symm⟩
  · cases first

end

/-! ### Rows of the archive -/

theorem read_key_row_sorted (trust : Trust) (row : Json) :
    readKeyRow trust (sortKeys row) = readKeyRow trust row := by
  refine read_object_sorted _ (by decide) _ (fun members distinct => ?_) row
  simp only [string_item_sorted distinct, int_item_sorted distinct, optional_item_sorted distinct,
    bytes_item_sorted distinct]

theorem optional_item_text {field : String} {text : Option String}
    (found : getItem field members = some (optionalText text)) :
    optionalItem field members = some text := by
  rw [optionalItem, found]
  cases text <;> rfl

def archivedMembers (row : WrappedRow) : List (String × Json) :=
  [("provider_id", .string row.providerId), ("key_id", .string row.keyId),
    ("algorithm", .string row.algorithm), ("key_length", .int row.keyLength),
    ("name", optionalText row.name), ("state", .string row.state),
    ("created_at", .string row.createdAt), ("activated_at", optionalText row.activatedAt),
    ("nonce", .string (b64encode row.nonce)), ("ciphertext", .string (b64encode row.ciphertext)),
    ("aad_json", .string row.aadJson)]

theorem row_document_members (row : WrappedRow) :
    objectOf rowFields (rowDocument row) = some (archivedMembers row) := by
  rw [rowDocument, objectOf, if_pos]
  · rfl
  · simp [exactly, rowFields]

theorem read_key_row_document {trust : Trust} {row : WrappedRow}
    (covered : row.providerId ∈ trust.providers.map ProviderRow.id) :
    readKeyRow trust (rowDocument row) = some row := by
  have name : optionalItem "name" (archivedMembers row) = some row.name := optional_item_text rfl
  have activated : optionalItem "activated_at" (archivedMembers row) = some row.activatedAt :=
    optional_item_text rfl
  simp only [readKeyRow, row_document_members, Option.bind_eq_bind, Option.bind_some, name,
    activated]
  simp only [archivedMembers, stringItem, intItem, bytesItem, getItem, if_true, Option.bind_some,
    if_pos covered, b64decode_b64encode, String.reduceEq, if_false]

theorem row_document_plain (row : WrappedRow) : Plain (rowDocument row) := by
  have optional : ∀ text, Plain (optionalText text) := by
    intro text
    cases text with
    | none => exact .null
    | some text => exact .string text
  refine plain_object (by decide) (row_document_members row) ?_
  simp only [rowFields, List.forall_mem_cons, List.not_mem_nil, false_implies, implies_true,
    and_true]
  exact ⟨⟨_, rfl, .string _⟩, ⟨_, rfl, .string _⟩, ⟨_, rfl, .string _⟩, ⟨_, rfl, .int _⟩,
    ⟨_, rfl, optional _⟩, ⟨_, rfl, .string _⟩, ⟨_, rfl, .string _⟩, ⟨_, rfl, optional _⟩,
    ⟨_, rfl, .string _⟩, ⟨_, rfl, .string _⟩, ⟨_, rfl, .string _⟩⟩

/-! ### Snapshots -/

theorem item_weight {items : List Json} {item : Json} (inside : item ∈ items) :
    weight item < itemsWeight items := by
  induction items with
  | nil => cases inside
  | cons first items induction =>
    rw [itemsWeight]
    rcases List.mem_cons.mp inside with rfl | later
    · omega
    · have below := induction later
      omega

theorem member_weight {member : String × Json} (inside : member ∈ members) :
    weight member.2 < membersWeight members := by
  induction members with
  | nil => cases inside
  | cons first members induction =>
    obtain ⟨key, value⟩ := first
    rw [membersWeight]
    rcases List.mem_cons.mp inside with rfl | later
    · show weight value < 1 + max (weight value) (membersWeight members)
      omega
    · have below := induction later
      omega

theorem distinct_fields_canonical {document : Json} (canonical : Canonical document) (fuel : Nat)
    (enough : weight document ≤ fuel) : distinctFields fuel document = true := by
  induction fuel generalizing document with
  | zero => cases document <;> simp [weight] at enough
  | succ fuel induction =>
    cases document with
    | array items =>
      simp only [distinctFields, List.all_eq_true]
      intro item inside
      refine induction (canonical_item canonical item inside) ?_
      have below := item_weight inside
      simp only [weight] at enough
      omega
    | object members =>
      simp only [distinctFields, Bool.and_eq_true, decide_eq_true_eq, List.all_eq_true]
      refine ⟨pairwise_lt_nodup canonical.1, fun member inside => ?_⟩
      refine induction (canonical_member canonical.2 member inside) ?_
      have below := member_weight inside
      simp only [weight] at enough
      omega
    | null => rfl
    | bool value => rfl
    | int value => rfl
    | real literal => rfl
    | string value => rfl

def snapshotMembers (keys metadata : List Json) (kek : String) (master : Bytes) (trust : Json) :
    List (String × Json) :=
  [("schema", .int 1), ("keys", .array keys), ("metadata", .array metadata),
    ("kek", .string (b64encode (utf8Encode kek))), ("master", .string (b64encode master)),
    ("trust", trust)]

variable {keys metadata : List Json} {kek : String} {master : Bytes} {trust : Json}

theorem snapshot_object :
    objectOf ["schema", "keys", "metadata", "kek", "master", "trust"]
      (snapshotDocument keys metadata kek master trust) =
        some (snapshotMembers keys metadata kek master trust) := by
  rw [snapshotDocument, objectOf, if_pos]
  · rfl
  · simp [exactly]

theorem snapshot_distinct :
    ((snapshotMembers keys metadata kek master trust).map Prod.fst).Nodup :=
  exactly_distinct (by decide) (object_of_some snapshot_object).2

theorem snapshot_plain (keysPlain : ∀ row ∈ keys, Plain row)
    (metadataPlain : ∀ row ∈ metadata, Plain row) (trustPlain : Plain trust) :
    Plain (snapshotDocument keys metadata kek master trust) := by
  refine plain_object (by decide) snapshot_object ?_
  simp only [List.forall_mem_cons, List.not_mem_nil, false_implies, implies_true, and_true]
  exact ⟨⟨_, rfl, .int 1⟩, ⟨_, rfl, .array keysPlain⟩, ⟨_, rfl, .array metadataPlain⟩,
    ⟨_, rfl, .string _⟩, ⟨_, rfl, .string _⟩, ⟨_, rfl, trustPlain⟩⟩

theorem snapshot_field {field : String} {value : Json}
    (found : getItem field (snapshotMembers keys metadata kek master trust) = some value) :
    getItem field (byKey (sortMembers (snapshotMembers keys metadata kek master trust))) =
      some (sortKeys value) := by
  rw [get_item_sorted snapshot_distinct, found]
  rfl

theorem read_snapshot_sorted {services : Services} {rows : Trust}
    (valid : validateTrust services trust = .ok rows)
    (plain : Plain (snapshotDocument keys metadata kek master trust)) :
    readSnapshot services (sortKeys (snapshotDocument keys metadata kek master trust)) =
      .ok (sortKeys (snapshotDocument keys metadata kek master trust)) := by
  have distinct := distinct_fields_canonical (sort_keys_canonical plain) _ le_rfl
  have object : objectOf ["schema", "keys", "metadata", "kek", "master", "trust"]
      (sortKeys (snapshotDocument keys metadata kek master trust)) =
        some (byKey (sortMembers (snapshotMembers keys metadata kek master trust))) := by
    rw [object_of_sorted, snapshot_object]
    rfl
  have schema := snapshot_field (show getItem "schema"
    (snapshotMembers keys metadata kek master trust) = some (.int 1) from rfl)
  have keyRows := snapshot_field (show getItem "keys"
    (snapshotMembers keys metadata kek master trust) = some (.array keys) from rfl)
  have metadataRows := snapshot_field (show getItem "metadata"
    (snapshotMembers keys metadata kek master trust) = some (.array metadata) from rfl)
  have trustField := snapshot_field (show getItem "trust"
    (snapshotMembers keys metadata kek master trust) = some trust from rfl)
  have accepted : validateTrust services (sortKeys trust) = .ok rows := by
    rw [validate_trust_sorted, valid]
  rw [readSnapshot, if_neg (by simp [distinct]), object]
  simp only [schema, keyRows, metadataRows, trustField, sortKeys, Option.getD_some, accepted,
    ok_bind]

end Atlaso.Kmip.RecoveryDocuments
