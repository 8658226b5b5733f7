import Atlaso.Kmip.Protocol
import Atlaso.Kmip.StoredRows

/-!
KMIP Locate. The dispatcher decides the filters that every key meets or none does and passes the
others on to the query of the store; together they select exactly the keys with the given values,
the oldest first.
-/

namespace Atlaso.Kmip.KeyLocations

open Library ByteWords Dictionary JsonText Outcomes SortedTables
open Clock CommitProtocol Exceptions Identifiers Instants Protocol StoreDocuments StoreFiles
open StoreHistories StoreKeys StoreOperations StoreRuns StoredRows TtlvCodec

def parseName (node : Ttlv) : Except Raised String :=
  if node.type ≠ .struct then .error (invalidField "Name must be a structure.")
  else do
    catchTtlv (invalidField "Name contains unsupported fields.")
      (assertOnlyTags node [Tag.nameValue, Tag.nameType])
    let name ← textValue (← requiredChild node Tag.nameValue)
    let nameType ← integerValue (← requiredChild node Tag.nameType) .enumeration
    if nameType ≠ nameTypeUninterpretedTextString then
      throw (invalidField "Only Uninterpreted Text String names are supported.")
    else if 1 ≤ name.length ∧ name.length ≤ 256 then return name
    else throw (invalidField "Name must contain 1 to 256 characters.")

/-- The value that `_parse_template_attributes` takes from a node under a name. -/
def attributeValue (stringNames : List String) (name : String) (rawValue : Ttlv) :
    Except Raised Scalar :=
  if name = "Name" then (parseName rawValue).map Scalar.text
  else if name ∈ stringNames then do
    let value ← textValue rawValue
    if maxCustomAttributeValueBytes < (utf8Encode value).length then
      throw (invalidField "Custom attribute values exceed the supported UTF-8 byte limit.")
    else return .text value
  else
    let expected := if name ∈ ["Cryptographic Algorithm", "Object Type", "State"] then
      TtlvType.enumeration else .integer
    (integerValue rawValue expected).map Scalar.int

/-- One turn of the loop of `_parse_template_attributes`. -/
def parseAttribute (allowedNames stringNames : List String) (result : List (String × Scalar))
    (node : Ttlv) : Except Raised (List (String × Scalar)) :=
  if node.type ≠ .struct then .error (invalidField "Attribute must be a structure.")
  else do
    catchTtlv (invalidField "Attribute contains unsupported fields.")
      (assertOnlyTags node [Tag.attributeName, Tag.attributeValue])
    let name ← textValue (← requiredChild node Tag.attributeName)
    if name ∈ result.map Prod.fst then
      throw (invalidField "Duplicate KMIP attributes are unsupported.")
    else if name ∉ allowedNames then
      throw (invalidField "Create attribute is outside the allowlist.")
    else
      let rawValue ← requiredChild node Tag.attributeValue
      let value ← attributeValue stringNames name rawValue
      return setItem name value result

def parseTemplateAttributes (allowedNames stringNames : List String) (template : Ttlv) :
    Except Raised (List (String × Scalar)) :=
  if template.type ≠ .struct then
    .error (invalidField "Template Attribute must be a structure.")
  else do
    catchTtlv (invalidField "Template Attribute contains unsupported fields.")
      (assertOnlyTags template [Tag.attribute])
    (← children template Tag.attribute).foldlM (parseAttribute allowedNames stringNames) []

def locateNames : List String :=
  ["Cryptographic Algorithm", "Cryptographic Length", "Name", "Object Type", "State"]

/-- What `_locate` makes of the filters: nothing to look for, or a state and a name. -/
def searchOf (filters : List (String × Scalar)) :
    Except Raised (Option (Option String × Option String)) :=
  if (getItem "Cryptographic Algorithm" filters).getD (.int cryptographicAlgorithmAes) ≠
      .int cryptographicAlgorithmAes then .ok none
  else if (getItem "Cryptographic Length" filters).getD (.int 256) ≠ .int 256 then .ok none
  else if (getItem "Object Type" filters).getD (.int objectTypeSymmetricKey) ≠
      .int objectTypeSymmetricKey then .ok none
  else
    let rawState := getItem "State" filters
    if rawState ∉ [none, some (.int statePreActive), some (.int stateActive)] then .ok none
    else
      let state := if rawState = some (.int statePreActive) then some "Pre-Active"
        else if rawState = some (.int stateActive) then some "Active" else none
      match getItem "Name" filters with
      | none => .ok (some (state, none))
      | some (.text name) => .ok (some (state, some name))
      | some _ => .error (.assertionError "")

/-- What `_locate` looks for, given the attributes of its payload. -/
def locateSearch (attributes : List Ttlv) :
    Except Raised (Option (Option String × Option String)) :=
  if attributes = [] then .ok (some (none, none))
  else do
    searchOf (← parseTemplateAttributes locateNames []
      (structure' Tag.templateAttribute attributes))

def locate (store : Operation → Except Raised Answer) (providerId : String) (payload : Ttlv) :
    Except Raised (List Ttlv) := do
  catchTtlv (invalidField "Locate contains unsupported fields.")
    (assertOnlyTags payload [Tag.maximumResponseSize, Tag.attribute])
  match ← locateSearch (← children payload Tag.attribute) with
  | none => return []
  | some (state, name) =>
    match ← store (.locate providerId state name 1024) with
    | .identifiers keyIds => return keyIds.map (textString Tag.uniqueIdentifier)
    | _ => throw (.assertionError "")

/-! ### Filters -/

/-- A node gives a filter: a name, and the value under it. -/
def GivesFilter (node : Ttlv) (filter : String × Scalar) : Prop :=
  (requiredChild node Tag.attributeName >>= textValue) = .ok filter.1 ∧
    (requiredChild node Tag.attributeValue >>= attributeValue [] filter.1) = .ok filter.2

theorem parse_attribute_ok {allowed : List String} {result later : List (String × Scalar)}
    {node : Ttlv} (parsed : parseAttribute allowed [] result node = .ok later) :
    ∃ filter, later = result ++ [filter] ∧ GivesFilter node filter ∧ filter.1 ∈ allowed ∧
      filter.1 ∉ result.map Prod.fst := by
  unfold parseAttribute at parsed
  split at parsed
  · cases parsed
  obtain ⟨-, -, rest⟩ := bind_ok_iff.mp parsed
  obtain ⟨nameNode, nameFound, rest⟩ := bind_ok_iff.mp rest
  obtain ⟨name, nameRead, rest⟩ := bind_ok_iff.mp rest
  split at rest
  · cases rest
  rename_i fresh
  split at rest
  · cases rest
  rename_i listed
  obtain ⟨rawValue, valueFound, rest⟩ := bind_ok_iff.mp rest
  obtain ⟨value, valueRead, rest⟩ := bind_ok_iff.mp rest
  cases rest
  refine ⟨(name, value), set_item_new name value result fresh, ⟨?_, ?_⟩, not_not.mp listed, fresh⟩
  · exact bind_ok_iff.mpr ⟨nameNode, nameFound, nameRead⟩
  · exact bind_ok_iff.mpr ⟨rawValue, valueFound, valueRead⟩

theorem parse_attributes_ok {allowed : List String} {nodes : List Ttlv}
    {start filters : List (String × Scalar)} (distinct : (start.map Prod.fst).Nodup)
    (parsed : nodes.foldlM (parseAttribute allowed []) start = .ok filters) :
    ∃ added, filters = start ++ added ∧ List.Forall₂ GivesFilter nodes added ∧
      (∀ filter ∈ added, filter.1 ∈ allowed) ∧ (filters.map Prod.fst).Nodup := by
  induction nodes generalizing start with
  | nil =>
    cases parsed
    exact ⟨[], (List.append_nil _).symm, .nil, List.forall_mem_nil _, distinct⟩
  | cons node nodes induction =>
    rw [List.foldlM_cons] at parsed
    obtain ⟨next, first, rest⟩ := bind_ok_iff.mp parsed
    obtain ⟨filter, rfl, gives, listed, fresh⟩ := parse_attribute_ok first
    have grown : ((start ++ [filter]).map Prod.fst).Nodup := by
      rw [List.map_append]
      exact List.Nodup.append distinct (List.nodup_singleton _)
        (List.disjoint_singleton.mpr fresh)
    obtain ⟨added, rfl, given, allowed, distinctLater⟩ := induction grown rest
    refine ⟨filter :: added, List.append_assoc _ _ _, .cons gives given, ?_, distinctLater⟩
    exact List.forall_mem_cons.mpr ⟨listed, allowed⟩

def rowValue (row : WrappedRow) (name : String) : Option Scalar :=
  if name = "Cryptographic Algorithm" then
    if row.algorithm = "AES" then some (.int cryptographicAlgorithmAes) else none
  else if name = "Cryptographic Length" then some (.int row.keyLength)
  else if name = "Object Type" then some (.int objectTypeSymmetricKey)
  else if name = "State" then
    if row.state = "Pre-Active" then some (.int statePreActive)
    else if row.state = "Active" then some (.int stateActive) else none
  else if name = "Name" then row.name.map Scalar.text
  else none

def matching (providerId : String) (filters : List (String × Scalar)) (row : WrappedRow) : Bool :=
  decide (validatedUuid providerId "provider_id" = .ok row.providerId) &&
    filters.all fun filter => rowValue row filter.1 = some filter.2

section Filters

variable {filters : List (String × Scalar)} {row : WrappedRow}

theorem all_match_iff (distinct : (filters.map Prod.fst).Nodup)
    (listed : ∀ filter ∈ filters, filter.1 ∈ locateNames) :
    (filters.all fun filter => rowValue row filter.1 = some filter.2) = true ↔
      ∀ name ∈ locateNames, ∀ value, getItem name filters = some value →
        rowValue row name = some value := by
  rw [List.all_eq_true]
  constructor
  · intro every name _ value found
    exact of_decide_eq_true (every (name, value) (mem_of_get_item found))
  · intro every filter member
    exact decide_eq_true (every filter.1 (listed filter member) filter.2
      ((get_item_iff distinct).mpr member))

theorem row_values (written : Written row) :
    rowValue row "Cryptographic Algorithm" = some (.int cryptographicAlgorithmAes) ∧
      rowValue row "Cryptographic Length" = some (.int 256) ∧
        rowValue row "Object Type" = some (.int objectTypeSymmetricKey) ∧
          rowValue row "State" = (if row.state = "Pre-Active" then some (.int statePreActive)
            else if row.state = "Active" then some (.int stateActive) else none) ∧
              rowValue row "Name" = row.name.map Scalar.text := by
  simp [rowValue, written.algorithm, written.keyLength]

theorem constant_filter {name : String} {value : Scalar} (shared : rowValue row name = some value) :
    (∀ given, getItem name filters = some given → rowValue row name = some given) ↔
      (getItem name filters).getD value = value := by
  rw [shared]
  cases getItem name filters with
  | none => simp
  | some given => simp [eq_comm]

theorem search_exact (distinct : (filters.map Prod.fst).Nodup)
    (listed : ∀ filter ∈ filters, filter.1 ∈ locateNames)
    {search : Option (Option String × Option String)} (searched : searchOf filters = .ok search)
    (written : Written row) :
    (filters.all fun filter => rowValue row filter.1 = some filter.2) =
      search.elim false fun asked =>
        (asked.1.isNone || asked.1 = some row.state) && (asked.2.isNone || asked.2 = row.name) := by
  obtain ⟨sameAlgorithm, sameLength, sameObject, rowState, rowName⟩ := row_values written
  rw [Bool.eq_iff_iff, all_match_iff distinct listed]
  simp only [locateNames, List.forall_mem_cons, List.not_mem_nil, false_imp_iff, implies_true,
    and_true, constant_filter sameAlgorithm, constant_filter sameLength, constant_filter sameObject]
  unfold searchOf at searched
  split at searched
  · cases searched
    exact iff_of_false (fun every => absurd every.1 ‹_›) Bool.false_ne_true
  split at searched
  · cases searched
    exact iff_of_false (fun every => absurd every.2.1 ‹_›) Bool.false_ne_true
  split at searched
  · cases searched
    exact iff_of_false (fun every => absurd every.2.2.2.1 ‹_›) Bool.false_ne_true
  rename_i algorithm length object
  rw [not_not] at algorithm length object
  simp only [algorithm, length, object, true_and, rowState, rowName]
  generalize getItem "State" filters = rawState at searched ⊢
  generalize getItem "Name" filters = rawName at searched ⊢
  dsimp only at searched
  split at searched
  · cases searched
    refine iff_of_false (fun every => ‹rawState ∉ _› ?_) Bool.false_ne_true
    cases rawState with
    | none => simp
    | some value =>
      have known := every.2 value rfl
      rcases written.state with state | state <;> rw [state] at known <;> cases known <;> simp
  rename_i known
  have named : ∀ name, (row.name.map Scalar.text = some (.text name)) ↔ some name = row.name := by
    intro name
    cases row.name with
    | none => simp
    | some held => simp [eq_comm]
  simp only [not_not, List.mem_cons, List.not_mem_nil, or_false] at known
  cases rawName with
  | none =>
    cases searched
    rcases known with rfl | rfl | rfl <;> rcases written.state with state | state <;>
      simp [state, statePreActive, stateActive]
  | some value =>
    cases value with
    | text name =>
      cases searched
      rcases known with rfl | rfl | rfl <;> rcases written.state with state | state <;>
        simp [state, statePreActive, stateActive, ← named]
    | int => cases searched
    | bool => cases searched
    | bytes => cases searched

theorem located_matching (distinct : (filters.map Prod.fst).Nodup)
    (listed : ∀ filter ∈ filters, filter.1 ∈ locateNames) {state name : Option String}
    (searched : searchOf filters = .ok (some (state, name))) {providerId provider : String}
    (validated : validatedUuid providerId "provider_id" = .ok provider) (written : Written row) :
    located provider state name row = matching providerId filters row := by
  have owner : (row.providerId = provider) ↔ provider = row.providerId := eq_comm
  unfold located matching
  rw [search_exact distinct listed searched written, validated]
  simp [Bool.and_assoc, owner]

end Filters

/-! ### The order of keys -/

/-- The key was created earlier, or at the same instant under a smaller identifier. -/
def Before (left right : WrappedRow) : Prop :=
  ∃ first second : Reading, left.createdAt = isoformat first ∧ right.createdAt = isoformat second ∧
    (microsecondsSinceEpoch first.time < microsecondsSinceEpoch second.time ∨
      microsecondsSinceEpoch first.time = microsecondsSinceEpoch second.time ∧
        left.keyId < right.keyId)

theorem written_before {left right : WrappedRow} (leftWritten : Written left)
    (rightWritten : Written right) (distinct : left.keyId ≠ right.keyId)
    (ordered : toLex (left.createdAt, left.keyId) ≤ toLex (right.createdAt, right.keyId)) :
    Before left right := by
  obtain ⟨first, created⟩ := leftWritten.created
  obtain ⟨second, createdLater⟩ := rightWritten.created
  refine ⟨first, second, created, createdLater, ?_⟩
  rw [created, createdLater, Prod.Lex.toLex_le_toLex] at ordered
  rcases ordered with less | ⟨same, keys⟩
  · exact .inl ((isoformat_lt_iff first second).mp less)
  · have reading : first = second := by
      apply Option.some.inj
      rw [← from_isoformat_isoformat first, ← from_isoformat_isoformat second]
      exact congrArg fromIsoformat same
    exact .inr ⟨by rw [reading], lt_of_le_of_ne keys distinct⟩

structure Located (tables : Tables) (providerId : String) (filters : List (String × Scalar))
    (rows : List WrappedRow) : Prop where
  matched : rows.Perm (tables.keys.filter (matching providerId filters))
  ordered : rows.Pairwise Before
  distinct : (rows.map WrappedRow.keyId).Nodup

section Rows

variable {tables : Tables} {keep : WrappedRow → Bool} {provider : String}

theorem provider_keys_distinct (owned : ∀ row, keep row = true → row.providerId = provider) :
    ((tables.keys.filter keep).map WrappedRow.keyId).Nodup := by
  rw [List.Nodup, List.pairwise_map]
  apply (tables.keysSorted.filter keep).imp_of_mem
  intro left right leftInside rightInside ordered same
  have owner := owned left (List.mem_filter.mp leftInside).2
  have ownerRight := owned right (List.mem_filter.mp rightInside).2
  refine ne_of_lt ordered ?_
  rw [WrappedRow.key, WrappedRow.key, owner, ownerRight, same]

theorem query_before (written : ∀ row ∈ tables.keys, Written row)
    (owned : ∀ row, keep row = true → row.providerId = provider) :
    ((tables.keys.filter keep).insertionSort fun left right =>
      toLex (left.createdAt, left.keyId) ≤ toLex (right.createdAt, right.keyId)).Pairwise
        Before := by
  let order := fun left right : WrappedRow =>
    toLex (left.createdAt, left.keyId) ≤ toLex (right.createdAt, right.keyId)
  have total : Std.Total order := ⟨fun left right => le_total _ _⟩
  have transitive : IsTrans WrappedRow order := ⟨fun _ _ _ first second => le_trans first second⟩
  have perm := List.perm_insertionSort order (tables.keys.filter keep)
  have distinct : ((tables.keys.filter keep).insertionSort order).Pairwise fun left right =>
      left.keyId ≠ right.keyId :=
    List.pairwise_map.mp ((perm.map WrappedRow.keyId).nodup_iff.mpr (provider_keys_distinct owned))
  apply ((List.pairwise_insertionSort order _).and distinct).imp_of_mem
  intro left right leftInside rightInside ordered
  have stored : ∀ row ∈ (tables.keys.filter keep).insertionSort order, Written row :=
    fun row inside => written row (List.mem_of_mem_filter (perm.mem_iff.mp inside))
  exact written_before (stored left leftInside) (stored right rightInside) ordered.2 ordered.1

end Rows

/-! ### Requests -/

theorem payload_filters {attributes : List Ttlv} {search : Option (Option String × Option String)}
    (searched : locateSearch attributes = .ok search)
    (tagged : ∀ node ∈ attributes, node.tag = Tag.attribute) :
    ∃ filters, List.Forall₂ GivesFilter attributes filters ∧ (filters.map Prod.fst).Nodup ∧
      (∀ filter ∈ filters, filter.1 ∈ locateNames) ∧ searchOf filters = .ok search := by
  unfold locateSearch at searched
  split at searched
  · rename_i none
    subst none
    cases searched
    exact ⟨[], .nil, List.nodup_nil, List.forall_mem_nil _, rfl⟩
  obtain ⟨filters, parsed, found⟩ := bind_ok_iff.mp searched
  have nodes : children (structure' Tag.templateAttribute attributes) Tag.attribute =
      .ok attributes := by
    change Except.ok (attributes.filter fun item => item.tag = Tag.attribute) = _
    rw [List.filter_eq_self.mpr fun node member => decide_eq_true (tagged node member)]
  unfold parseTemplateAttributes at parsed
  rw [if_neg (show ¬(structure' Tag.templateAttribute attributes).type ≠ .struct from
    not_not.mpr rfl), nodes] at parsed
  obtain ⟨-, -, folded⟩ := bind_ok_iff.mp parsed
  obtain ⟨added, joined, given, listed, distinct⟩ := parse_attributes_ok
    (show ([].map Prod.fst).Nodup from List.nodup_nil) folded
  rw [List.nil_append] at joined
  subst joined
  exact ⟨filters, given, distinct, listed, found⟩

/-- An accepted Locate lists exactly the keys of the provider that have the value of every given
filter, each once, in the order of their creation and then of their identifiers, up to 1024. -/
theorem locate_exact {crypto : Crypto} (authentic : crypto.Authentic)
    (hash : crypto.CollisionFree) (bound : crypto.KeyBound) {secretsKey : String} {store : Store}
    (grown : Grown crypto secretsKey store) {providerId : String} {payload : Ttlv} {draws : Draws}
    {response : List Ttlv}
    (accepted : locate (fun operation => (store.call crypto operation draws).1) providerId payload =
      .ok response) :
    (∃ (tables : Tables) (attributes : List Ttlv) (filters : List (String × Scalar))
      (rows : List WrappedRow), store.disk.database = some tables.database ∧
        children payload Tag.attribute = .ok attributes ∧
          List.Forall₂ GivesFilter attributes filters ∧ Located tables providerId filters rows ∧
            response = (rows.take 1024).map fun row =>
              textString Tag.uniqueIdentifier row.keyId) ∧
      ∀ first second : Reading, isoformat first < isoformat second ↔
        microsecondsSinceEpoch first.time < microsecondsSinceEpoch second.time := by
  refine ⟨?_, isoformat_lt_iff⟩
  obtain ⟨site, tables, generation, rfl, ready, written⟩ := grown_ready authentic hash bound grown
  obtain ⟨envelope, recoverable⟩ := ready.recoverable
  obtain ⟨-, -, rest⟩ := bind_ok_iff.mp accepted
  obtain ⟨attributes, listedNodes, rest⟩ := bind_ok_iff.mp rest
  obtain ⟨search, searched, rest⟩ := bind_ok_iff.mp rest
  have tagged : ∀ node ∈ attributes, node.tag = Tag.attribute := by
    obtain ⟨nodes, -, filtered⟩ := bind_ok_iff.mp listedNodes
    cases filtered
    exact fun node member => of_decide_eq_true (List.mem_filter.mp member).2
  obtain ⟨filters, given, distinct, listed, found⟩ := payload_filters searched tagged
  refine ⟨tables, attributes, filters, ?_⟩
  cases search with
  | none =>
    cases rest
    have empty : tables.keys.filter (matching providerId filters) = [] := by
      apply List.filter_eq_nil_iff.mpr
      intro row member
      unfold matching
      rw [search_exact distinct listed found (written row member), Option.elim_none, Bool.and_false]
      exact Bool.false_ne_true
    exact ⟨[], recoverable.database, listedNodes, given, ⟨by rw [empty], .nil, List.nodup_nil⟩, rfl⟩
  | some asked =>
    obtain ⟨state, name⟩ := asked
    obtain ⟨answer, called, rest⟩ := bind_ok_iff.mp rest
    replace called := (call_answers authentic hash ready _ draws).symm.trans called
    have planned : ∃ provider, validatedUuid providerId "provider_id" = .ok provider ∧
        answer = .identifiers (locatedIds tables provider state name 1024) := by
      cases plan : (Operation.locate providerId state name 1024).plan site.crypto site.kek draws
          tables with
      | error raised =>
        rw [plan] at called
        cases called
      | ok made =>
        rw [plan] at called
        simp only [Operation.plan, bind_ok_iff] at plan
        obtain ⟨provider, validated, -, -, -, -, -, -, result⟩ := plan
        cases result
        cases called
        exact ⟨provider, validated, rfl⟩
    obtain ⟨provider, validated, rfl⟩ := planned
    cases rest
    have same : tables.keys.filter (located provider state name) =
        tables.keys.filter (matching providerId filters) :=
      List.filter_congr fun row member =>
        located_matching distinct listed found validated (written row member)
    have owned : ∀ row, matching providerId filters row = true → row.providerId = provider := by
      intro row holds
      have owner := of_decide_eq_true (Bool.and_eq_true_iff.mp holds).1
      exact (Except.ok.inj (validated.symm.trans owner)).symm
    refine ⟨_, recoverable.database, listedNodes, given, ⟨List.perm_insertionSort _ _,
      query_before written owned, ?_⟩, ?_⟩
    · exact ((List.perm_insertionSort _ _).map _).nodup_iff.mpr (provider_keys_distinct owned)
    · unfold locatedIds
      rw [same, List.map_map]
      rfl

def sampleFilter (name : String) (value : Ttlv) : Ttlv :=
  structure' Tag.attribute [textString Tag.attributeName name, value]

def samplePayload : Ttlv :=
  structure' Tag.requestPayload
    [sampleFilter "State" (enumeration Tag.attributeValue statePreActive),
      sampleFilter "Cryptographic Length" (integer Tag.attributeValue 256)]

/-- The key of the sample store is found by its state and length. -/
theorem sample_located : ∃ (store : Store) (tables : Tables) (filters : List (String × Scalar))
    (rows : List WrappedRow), store.disk.database = some tables.database ∧
      Located tables sampleProvider filters rows ∧
        [textString Tag.uniqueIdentifier sampleRow.keyId] =
          (rows.take 1024).map fun row => textString Tag.uniqueIdentifier row.keyId := by
  obtain ⟨store, tables, generation, grown, ready, keys⟩ := sample_grown
  have ids : locatedIds tables sampleProvider (some "Pre-Active") none 1024 =
      [sampleRow.keyId] := by
    have inside : located sampleProvider (some "Pre-Active") none sampleRow = true := by
      simp [located, sampleRow, wrappedRow, newMetadata]
    unfold locatedIds
    rw [keys, List.filter_cons_of_pos inside]
    rfl
  have planned : (Operation.locate sampleProvider (some "Pre-Active") none 1024).plan
      sampleSite.crypto sampleSite.kek sampleKey tables =
        .ok ⟨.identifiers [sampleRow.keyId], none⟩ :=
    bind_ok_iff.mpr ⟨sampleProvider, validated_uuid_text _ _, bind_ok_iff.mpr ⟨(), rfl,
      bind_ok_iff.mpr ⟨(), rfl, bind_ok_iff.mpr ⟨(), rfl, by rw [ids]; rfl⟩⟩⟩⟩
  have answered : (store.call sampleSite.crypto (.locate sampleProvider (some "Pre-Active") none
      1024) sampleKey).1 = .ok (.identifiers [sampleRow.keyId]) := by
    rw [call_answers transparent_authentic transparent_collision_free ready, planned]
    rfl
  have accepted : locate (fun operation => (store.call sampleSite.crypto operation sampleKey).1)
      sampleProvider samplePayload = .ok [textString Tag.uniqueIdentifier sampleRow.keyId] :=
    bind_ok_iff.mpr ⟨(), rfl, bind_ok_iff.mpr ⟨_, rfl, bind_ok_iff.mpr ⟨_, rfl,
      bind_ok_iff.mpr ⟨_, answered, rfl⟩⟩⟩⟩
  obtain ⟨⟨found, attributes, filters, rows, holds, -, -, located, response⟩, -⟩ := locate_exact
    transparent_authentic transparent_collision_free transparent_key_bound grown accepted
  exact ⟨store, found, filters, rows, holds, located, response⟩

end Atlaso.Kmip.KeyLocations
