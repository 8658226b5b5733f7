import Atlaso.Kmip.Protocol
import Atlaso.Kmip.TtlvExactness
import Mathlib.Algebra.Order.BigOperators.Group.List

/-!
What the KMIP server logs about a request whose dispatch fails: the tags and types of its first
fields, its numeric protocol fields, and the allowlisted names among its attributes. Nothing of
the log depends on another text or byte value, and the log is of bounded size.
-/

namespace Atlaso.Kmip.RequestShapes

open Library.ByteWords Protocol TtlvCodec TtlvExactness

def attributeDiagnosticTypes : List (String × TtlvType) :=
  [("Cryptographic Algorithm", .enumeration),
    ("Cryptographic Length", .integer),
    ("Cryptographic Usage Mask", .integer),
    ("Object Type", .enumeration),
    ("State", .enumeration)]

def attributeDiagnosticNames : List String :=
  attributeDiagnosticTypes.map Prod.fst ++
    ["Activation Date", "Name", "Unique Identifier", "x-Component", "x-Identifier", "x-Name",
      "x-Product", "x-Product_Version", "x-Vendor"]

/-- `node.value[:16]` of a tuple, and `()` of another value. -/
def firstNodes : Ttlv → List Ttlv
  | .tuple _ _ children => children.take 16
  | .scalar _ _ _ => []

def numericValue (tag : Int) (expectedType : TtlvType) : Ttlv → Option Int
  | .scalar childTag type (.int value) =>
    if childTag = tag ∧ type = expectedType then some value else none
  | _ => none

def numericChildValue (node : Ttlv) (tag : Int) (expectedType : TtlvType) : Option Int :=
  if node.type = .struct then (firstNodes node).findSome? (numericValue tag expectedType)
  else none

def field (child : Ttlv) : Int × UInt8 := (child.tag, child.type.code)

def isStructure (tag : Int) (node : Ttlv) : Bool := node.tag = tag && node.type = .struct

structure AttributeShape where
  fields : List (Int × UInt8)
  name : String
  numericValue : Option Int
  deriving DecidableEq, Repr

def attributeNameText : Ttlv → Option String
  | .scalar tag type (.text name) =>
    if tag = Tag.attributeName ∧ type = .textString then some name else none
  | _ => none

def diagnosticLabel (name : String) : String :=
  if name ∈ attributeDiagnosticNames then name else "unsupported"

def attributeLabel (children : List Ttlv) : String :=
  ((children.findSome? attributeNameText).map diagnosticLabel).getD "unsupported"

def attributeShape (node : Ttlv) : AttributeShape :=
  let label := attributeLabel (firstNodes node)
  { fields := (firstNodes node).map field
    name := label
    numericValue := (attributeDiagnosticTypes.lookup label).bind
      (numericChildValue node Tag.attributeValue) }

def templateAttributeShape (payload : Ttlv) : List AttributeShape :=
  if payload.type = .struct then
    match (firstNodes payload).find? (isStructure Tag.templateAttribute) with
    | none => []
    | some template =>
      ((firstNodes template).filter (isStructure Tag.attribute)).map attributeShape
  else []

structure RequestShape where
  headerFields : List (Int × UInt8)
  protocolVersion : Option (Option Int × Option Int)
  operations : List Int
  (batchFields payloadFields : List (List (Int × UInt8)))
  templateAttributes : List (List AttributeShape)
  deriving DecidableEq, Repr

def rootChildren : Ttlv → List Ttlv
  | .tuple _ .struct children => children.take (maxBatchItems + 1)
  | _ => []

def nodesUnder (tag : Int) (nodes : List Ttlv) : List Ttlv :=
  ((nodes.find? (isStructure tag)).map firstNodes).getD []

def versionNumbers (version : Ttlv) : Option Int × Option Int :=
  (numericChildValue version Tag.protocolVersionMajor .integer,
    numericChildValue version Tag.protocolVersionMinor .integer)

def itemOperation (item : Ttlv) : Option Int := numericChildValue item Tag.operation .enumeration

def itemTemplate (item : Ttlv) : List AttributeShape :=
  (((firstNodes item).find? (isStructure Tag.requestPayload)).map templateAttributeShape).getD []

def dispatchRequestShape (request : Ttlv) : RequestShape :=
  let headerChildren := nodesUnder Tag.requestHeader (rootChildren request)
  let items := ((rootChildren request).filter (isStructure Tag.batchItem)).take maxBatchItems
  { headerFields := headerChildren.map field
    protocolVersion :=
      (headerChildren.find? (isStructure Tag.protocolVersion)).map versionNumbers
    operations := items.filterMap itemOperation
    batchFields := items.map fun item => (firstNodes item).map field
    payloadFields := items.map fun item =>
      (nodesUnder Tag.requestPayload (firstNodes item)).map field
    templateAttributes := items.map itemTemplate }

/-! ### Two requests -/

def SameName : Scalar → Scalar → Prop
  | .text first, .text second => first = second ∨
      (first ∉ attributeDiagnosticNames ∧ second ∉ attributeDiagnosticNames)
  | _, _ => False

/-- The same tree of tags and types with the same integers and enumerations, and attribute
names that the allowlist does not tell apart. -/
inductive Alike : Ttlv → Ttlv → Prop
  | tuple (tag : Int) (type : TtlvType) {first second : List Ttlv}
      (children : List.Forall₂ Alike first second) :
      Alike (.tuple tag type first) (.tuple tag type second)
  | scalar (tag : Int) (type : TtlvType) {first second : Scalar}
      (numeric : type = .integer ∨ type = .enumeration → first = second)
      (name : tag = Tag.attributeName → type = .textString → SameName first second) :
      Alike (.scalar tag type first) (.scalar tag type second)

section Alike

variable {first second : Ttlv} {firsts seconds : List Ttlv}

theorem alike_shape (alike : Alike first second) :
    first.tag = second.tag ∧ first.type = second.type := by
  cases alike <;> exact ⟨rfl, rfl⟩

theorem alike_structure (tag : Int) (alike : Alike first second) :
    isStructure tag first = isStructure tag second := by
  obtain ⟨sameTag, sameType⟩ := alike_shape alike
  unfold isStructure
  rw [sameTag, sameType]

theorem alike_field (alike : Alike first second) : field first = field second := by
  obtain ⟨sameTag, sameType⟩ := alike_shape alike
  unfold field
  rw [sameTag, sameType]

theorem alike_nodes (alike : Alike first second) :
    List.Forall₂ Alike (firstNodes first) (firstNodes second) := by
  cases alike with
  | tuple tag type children => exact List.forall₂_take 16 children
  | scalar tag type numeric name => exact .nil

theorem alike_root (alike : Alike first second) :
    List.Forall₂ Alike (rootChildren first) (rootChildren second) := by
  cases alike with
  | tuple tag type children =>
    cases type with
    | struct => exact List.forall₂_take _ children
    | _ => exact .nil
  | scalar tag type numeric name => exact .nil

variable {Value : Type} {expectedType : TtlvType}

theorem alike_map {view : Ttlv → Value}
    (same : ∀ first second, Alike first second → view first = view second)
    (alike : List.Forall₂ Alike firsts seconds) : firsts.map view = seconds.map view := by
  induction alike with
  | nil => rfl
  | cons head _ induction => rw [List.map_cons, List.map_cons, same _ _ head, induction]

theorem alike_find_some {view : Ttlv → Option Value}
    (same : ∀ first second, Alike first second → view first = view second)
    (alike : List.Forall₂ Alike firsts seconds) :
    firsts.findSome? view = seconds.findSome? view := by
  have found := congrArg (List.findSome? id) (alike_map same alike)
  rwa [List.findSome?_map, List.findSome?_map] at found

theorem alike_filter (tag : Int) (alike : List.Forall₂ Alike firsts seconds) :
    List.Forall₂ Alike (firsts.filter (isStructure tag)) (seconds.filter (isStructure tag)) := by
  induction alike with
  | nil => exact .nil
  | cons head _ induction =>
    rw [List.filter_cons, List.filter_cons, alike_structure tag head]
    split
    · exact .cons head induction
    · exact induction

theorem alike_find {view : Ttlv → Value} (tag : Int)
    (same : ∀ first second, Alike first second → view first = view second)
    (alike : List.Forall₂ Alike firsts seconds) :
    (firsts.find? (isStructure tag)).map view = (seconds.find? (isStructure tag)).map view := by
  induction alike with
  | nil => rfl
  | cons head _ induction =>
    rw [List.find?_cons, List.find?_cons, alike_structure tag head]
    split
    · exact congrArg some (same _ _ head)
    · exact induction

theorem alike_nodes_under (tag : Int) (alike : List.Forall₂ Alike firsts seconds) :
    List.Forall₂ Alike (nodesUnder tag firsts) (nodesUnder tag seconds) := by
  unfold nodesUnder
  induction alike with
  | nil => exact .nil
  | cons head _ induction =>
    rw [List.find?_cons, List.find?_cons, alike_structure tag head]
    split
    · exact alike_nodes head
    · exact induction

theorem alike_numeric (tag : Int) (numbered : expectedType = .integer ∨ expectedType = .enumeration)
    (alike : Alike first second) :
    numericValue tag expectedType first = numericValue tag expectedType second := by
  cases alike with
  | tuple => rfl
  | scalar childTag type numeric name =>
    rename_i firstValue secondValue
    by_cases kind : type = expectedType
    · rw [numeric (kind ▸ numbered)]
    · cases firstValue <;> cases secondValue <;> simp [numericValue, kind]

theorem alike_numeric_child (tag : Int)
    (numbered : expectedType = .integer ∨ expectedType = .enumeration)
    (alike : Alike first second) :
    numericChildValue first tag expectedType = numericChildValue second tag expectedType := by
  unfold numericChildValue
  rw [(alike_shape alike).2, alike_find_some
    (fun _ _ childAlike => alike_numeric tag numbered childAlike) (alike_nodes alike)]

theorem same_name_label {first second : String} (same : SameName (.text first) (.text second)) :
    diagnosticLabel first = diagnosticLabel second := by
  rcases same with same | ⟨firstOutside, secondOutside⟩
  · rw [same]
  · unfold diagnosticLabel
    rw [if_neg firstOutside, if_neg secondOutside]

theorem alike_name (alike : Alike first second) :
    (attributeNameText first).map diagnosticLabel =
      (attributeNameText second).map diagnosticLabel := by
  cases alike with
  | tuple => rfl
  | scalar tag type numeric name =>
    rename_i firstValue secondValue
    by_cases named : tag = Tag.attributeName ∧ type = .textString
    · have same := name named.1 named.2
      cases firstValue <;> cases secondValue <;>
        first
        | exact absurd same id
        | skip
      simp only [attributeNameText, if_pos named, Option.map_some, same_name_label same]
    · cases firstValue <;> cases secondValue <;> simp [attributeNameText, named]

theorem alike_label (alike : List.Forall₂ Alike firsts seconds) :
    attributeLabel firsts = attributeLabel seconds := by
  unfold attributeLabel
  rw [List.map_findSome?, List.map_findSome?]
  exact congrArg (Option.getD · "unsupported")
    (alike_find_some (fun _ _ childAlike => alike_name childAlike) alike)

theorem diagnostic_type_numbered {label : String}
    (listed : attributeDiagnosticTypes.lookup label = some expectedType) :
    expectedType = .integer ∨ expectedType = .enumeration := by
  have each : ∀ entry ∈ attributeDiagnosticTypes,
      entry.2 = .integer ∨ entry.2 = .enumeration := by
    decide
  obtain ⟨before, after, split, -⟩ := List.lookup_eq_some_iff.mp listed
  exact each (label, expectedType) (by rw [split]; simp)

theorem alike_attribute (alike : Alike first second) :
    attributeShape first = attributeShape second := by
  have nodes := alike_nodes alike
  unfold attributeShape
  rw [alike_label nodes, alike_map (fun _ _ childAlike => alike_field childAlike) nodes]
  simp only [AttributeShape.mk.injEq, true_and]
  cases listed : attributeDiagnosticTypes.lookup (attributeLabel (firstNodes second)) with
  | none => rfl
  | some expectedType =>
    exact alike_numeric_child Tag.attributeValue (diagnostic_type_numbered listed) alike

theorem template_nodes (payload : Ttlv) : templateAttributeShape payload =
    if payload.type = .struct then
      ((nodesUnder Tag.templateAttribute (firstNodes payload)).filter
        (isStructure Tag.attribute)).map attributeShape
    else [] := by
  unfold templateAttributeShape nodesUnder
  cases (firstNodes payload).find? (isStructure Tag.templateAttribute) <;> rfl

theorem alike_template (alike : Alike first second) :
    templateAttributeShape first = templateAttributeShape second := by
  rw [template_nodes, template_nodes, (alike_shape alike).2]
  congr 1
  exact alike_map (fun _ _ attributeAlike => alike_attribute attributeAlike)
    (alike_filter Tag.attribute (alike_nodes_under Tag.templateAttribute (alike_nodes alike)))

theorem alike_filter_map {view : Ttlv → Option Value}
    (same : ∀ first second, Alike first second → view first = view second)
    (alike : List.Forall₂ Alike firsts seconds) :
    firsts.filterMap view = seconds.filterMap view := by
  have mapped := congrArg (List.filterMap id) (alike_map same alike)
  rwa [List.filterMap_map, List.filterMap_map] at mapped

theorem alike_request (alike : Alike first second) :
    dispatchRequestShape first = dispatchRequestShape second := by
  have root := alike_root alike
  have header := alike_nodes_under Tag.requestHeader root
  have items := List.forall₂_take maxBatchItems (alike_filter Tag.batchItem root)
  have version : ∀ first second, Alike first second →
      versionNumbers first = versionNumbers second := by
    intro first second versionAlike
    unfold versionNumbers
    rw [alike_numeric_child _ (.inl rfl) versionAlike, alike_numeric_child _ (.inl rfl) versionAlike]
  have operation : ∀ first second, Alike first second →
      itemOperation first = itemOperation second :=
    fun _ _ itemAlike => alike_numeric_child Tag.operation (.inr rfl) itemAlike
  have payload : ∀ first second, Alike first second →
      (nodesUnder Tag.requestPayload (firstNodes first)).map field =
        (nodesUnder Tag.requestPayload (firstNodes second)).map field :=
    fun _ _ itemAlike => alike_map (fun _ _ => alike_field)
      (alike_nodes_under _ (alike_nodes itemAlike))
  have template : ∀ first second, Alike first second →
      itemTemplate first = itemTemplate second := by
    intro first second itemAlike
    unfold itemTemplate
    rw [alike_find Tag.requestPayload (fun _ _ => alike_template) (alike_nodes itemAlike)]
  simp only [dispatchRequestShape]
  rw [alike_map (fun _ _ => alike_field) header, alike_find _ version header,
    alike_filter_map operation items, alike_map payload items, alike_map template items,
    alike_map (fun _ _ itemAlike => alike_map (fun _ _ => alike_field) (alike_nodes itemAlike)) items]

end Alike

/-! ### Size -/

def intSize (value : Int) : Nat := (toString value).length

def listSize {Item : Type} (size : Item → Nat) (items : List Item) : Nat :=
  (items.map fun item => size item + 1).sum

def fieldSize (entry : Int × UInt8) : Nat := intSize entry.1 + intSize entry.2.toNat

def optionalSize (value : Option Int) : Nat := (value.map intSize).getD 0

def AttributeShape.size (shape : AttributeShape) : Nat :=
  listSize fieldSize shape.fields + shape.name.length + optionalSize shape.numericValue

def RequestShape.size (shape : RequestShape) : Nat :=
  listSize fieldSize shape.headerFields +
    (shape.protocolVersion.map fun version =>
      optionalSize version.1 + optionalSize version.2).getD 0 +
    listSize intSize shape.operations + listSize (listSize fieldSize) shape.batchFields +
    listSize (listSize fieldSize) shape.payloadFields +
    listSize (listSize AttributeShape.size) shape.templateAttributes

def maxShapeSize : Nat := 67432

theorem list_size_le {Item : Type} {size : Item → Nat} {items : List Item} {count each : Nat}
    (short : items.length ≤ count) (small : ∀ item ∈ items, size item ≤ each) :
    listSize size items ≤ count * (each + 1) := by
  have bounded := List.sum_le_card_nsmul (items.map fun item => size item + 1) (each + 1) (by
    intro value member
    obtain ⟨item, inside, rfl⟩ := List.mem_map.mp member
    exact Nat.succ_le_succ (small item inside))
  rw [List.length_map] at bounded
  exact le_trans (b := items.length * (each + 1)) bounded (Nat.mul_le_mul_right _ short)

theorem int_size_le {value : Int} {digits : Nat} (small : value.natAbs < 10 ^ digits)
    (some : 0 < digits) : intSize value ≤ digits + 1 := by
  have short : ∀ number < 10 ^ digits, number.repr.length ≤ digits := by
    intro number bound
    rw [← String.length_toList, Nat.toList_repr]
    exact (Nat.length_toDigits_le_iff (by decide) some).mpr bound
  unfold intSize
  cases value with
  | ofNat number => exact (short number small).trans (Nat.le_succ _)
  | negSucc number =>
    change ("-" ++ number.succ.repr).length ≤ digits + 1
    rw [String.length_append, Nat.add_comm]
    exact Nat.add_le_add_right (short number.succ small) 1

variable {nodes : List Ttlv} {request : Ttlv}

theorem all_values_fit (fit : AllValuesFit nodes) :
    ∀ node ∈ nodes, ValuesFit node := by
  induction nodes with
  | nil => exact fun _ none => absurd none List.not_mem_nil
  | cons head tail induction =>
    rw [AllValuesFit] at fit
    exact List.forall_mem_cons.mpr ⟨fit.1, induction fit.2⟩

theorem fit_nodes {node : Ttlv} (fit : ValuesFit node) :
    ∀ child ∈ firstNodes node, ValuesFit child := by
  cases node with
  | scalar tag type value => exact fun _ none => absurd none List.not_mem_nil
  | tuple tag type children =>
    rw [ValuesFit] at fit
    exact fun child member => all_values_fit fit.2.2.2 child (List.mem_of_mem_take member)

theorem fit_root {node : Ttlv} (fit : ValuesFit node) :
    ∀ child ∈ rootChildren node, ValuesFit child := by
  cases node with
  | scalar tag type value => exact fun _ none => absurd none List.not_mem_nil
  | tuple tag type children =>
    rw [ValuesFit] at fit
    obtain ⟨-, rfl, -, fitting⟩ := fit
    exact fun child member => all_values_fit fitting child (List.mem_of_mem_take member)

theorem first_nodes_length (node : Ttlv) : (firstNodes node).length ≤ 16 := by
  cases node with
  | tuple tag type children => exact List.length_take_le 16 children
  | scalar tag type value => exact Nat.zero_le 16

theorem fit_under (fit : ∀ node ∈ nodes, ValuesFit node) (tag : Int) :
    (nodesUnder tag nodes).length ≤ 16 ∧ ∀ node ∈ nodesUnder tag nodes, ValuesFit node := by
  unfold nodesUnder
  cases found : nodes.find? (isStructure tag) with
  | none => exact ⟨Nat.zero_le 16, fun _ none => absurd none List.not_mem_nil⟩
  | some node =>
    exact ⟨first_nodes_length node, fit_nodes (fit node (List.mem_of_find?_eq_some found))⟩

theorem field_size_le {node : Ttlv} (fit : ValuesFit node) : fieldSize (field node) ≤ 11 := by
  have standard : StandardTag node.tag := by
    cases node <;> exact (by rw [ValuesFit] at fit; exact fit.1)
  have tag : intSize node.tag ≤ 7 + 1 := by
    unfold StandardTag at standard
    exact int_size_le (by omega) (by decide)
  have type : intSize node.type.code.toNat ≤ 2 + 1 := by
    refine int_size_le ?_ (by decide)
    cases node.type <;> decide
  exact Nat.add_le_add tag type

theorem fields_size_le (short : nodes.length ≤ 16) (fit : ∀ node ∈ nodes, ValuesFit node) :
    listSize fieldSize (nodes.map field) ≤ 192 := by
  change _ ≤ 16 * (11 + 1)
  refine list_size_le ?_ ?_
  · rwa [List.length_map]
  · intro entry member
    obtain ⟨node, inside, rfl⟩ := List.mem_map.mp member
    exact field_size_le (fit node inside)

theorem numeric_child_size_le {node : Ttlv} (fit : ValuesFit node) (tag : Int)
    (expectedType : TtlvType) : optionalSize (numericChildValue node tag expectedType) ≤ 20 := by
  unfold numericChildValue
  split
  · cases found : (firstNodes node).findSome? (numericValue tag expectedType) with
    | none => exact Nat.zero_le 20
    | some value =>
      obtain ⟨child, member, taken⟩ := List.exists_of_findSome?_eq_some found
      have childFit := fit_nodes fit child member
      change intSize value ≤ 19 + 1
      refine int_size_le ?_ (by decide)
      unfold numericValue at taken
      split at taken
      · split_ifs at taken
        obtain rfl := Option.some.inj taken
        rename_i childTag type value _
        rw [ValuesFit] at childFit
        have fits := childFit.2.1
        cases type <;>
          first
          | exact absurd fits id
          | simp only [ScalarFits, FitsSigned] at fits
            omega
      · cases taken
  · exact Nat.zero_le 20

theorem label_length_le (children : List Ttlv) : (attributeLabel children).length ≤ 24 := by
  have each : ∀ name ∈ attributeDiagnosticNames, name.length ≤ 24 := by
    decide
  unfold attributeLabel
  cases children.findSome? attributeNameText with
  | none => decide
  | some name =>
    change (diagnosticLabel name).length ≤ 24
    unfold diagnosticLabel
    split
    · exact each name ‹_›
    · decide

theorem attribute_size_le {node : Ttlv} (fit : ValuesFit node) :
    (attributeShape node).size ≤ 236 := by
  have fields := fields_size_le (first_nodes_length node) (fit_nodes fit)
  have label := label_length_le (firstNodes node)
  have number : optionalSize (attributeShape node).numericValue ≤ 20 := by
    simp only [attributeShape]
    cases attributeDiagnosticTypes.lookup (attributeLabel (firstNodes node)) with
    | none => exact Nat.zero_le 20
    | some expectedType => exact numeric_child_size_le fit Tag.attributeValue expectedType
  exact Nat.add_le_add (Nat.add_le_add fields label) number

theorem template_size_le {node : Ttlv} (fit : ValuesFit node) :
    listSize AttributeShape.size (templateAttributeShape node) ≤ 3792 := by
  obtain ⟨short, fitting⟩ := fit_under (fit_nodes fit) Tag.templateAttribute
  rw [template_nodes]
  split
  · change _ ≤ 16 * (236 + 1)
    refine list_size_le ?_ ?_
    · rw [List.length_map]
      exact (List.length_filter_le _ _).trans short
    · intro shape member
      obtain ⟨entry, inside, rfl⟩ := List.mem_map.mp member
      exact attribute_size_le (fitting entry (List.mem_of_mem_filter inside))
  · exact Nat.zero_le _

theorem request_size_le (fit : ValuesFit request) :
    (dispatchRequestShape request).size ≤ maxShapeSize := by
  have rootFit := fit_root fit
  obtain ⟨headerShort, headerFit⟩ := fit_under rootFit Tag.requestHeader
  let items := ((rootChildren request).filter (isStructure Tag.batchItem)).take maxBatchItems
  have itemsShort : items.length ≤ 16 := List.length_take_le _ _
  have itemFit : ∀ item ∈ items, ValuesFit item := fun item member =>
    rootFit item (List.mem_of_mem_filter (List.mem_of_mem_take member))
  have mapped : ∀ {Value : Type} (view : Ttlv → Value) (size : Value → Nat) (each : Nat),
      (∀ item, ValuesFit item → size (view item) ≤ each) →
        listSize size (items.map view) ≤ 16 * (each + 1) := by
    intro Value view size each small
    refine list_size_le ?_ ?_
    · rwa [List.length_map]
    · intro value member
      obtain ⟨item, inside, rfl⟩ := List.mem_map.mp member
      exact small item (itemFit item inside)
  have header := fields_size_le headerShort headerFit
  have version : ((dispatchRequestShape request).protocolVersion.map fun version =>
      optionalSize version.1 + optionalSize version.2).getD 0 ≤ 40 := by
    change ((((nodesUnder Tag.requestHeader (rootChildren request)).find?
      (isStructure Tag.protocolVersion)).map versionNumbers).map _).getD 0 ≤ 40
    cases found : (nodesUnder Tag.requestHeader (rootChildren request)).find?
        (isStructure Tag.protocolVersion) with
    | none => exact Nat.zero_le 40
    | some node =>
      have nodeFit := headerFit node (List.mem_of_find?_eq_some found)
      exact Nat.add_le_add (numeric_child_size_le nodeFit _ _)
        (numeric_child_size_le nodeFit _ _)
  have operations : listSize intSize (items.filterMap itemOperation) ≤ 16 * (20 + 1) := by
    refine list_size_le ((List.length_filterMap_le _ _).trans itemsShort) ?_
    intro number member
    obtain ⟨item, inside, taken⟩ := List.mem_filterMap.mp member
    have small := numeric_child_size_le (itemFit item inside) Tag.operation .enumeration
    change optionalSize (itemOperation item) ≤ 20 at small
    rwa [taken] at small
  have batch := mapped (fun item => (firstNodes item).map field) (listSize fieldSize) 192
    fun item itemFits => fields_size_le (first_nodes_length item) (fit_nodes itemFits)
  have payload := mapped (fun item => (nodesUnder Tag.requestPayload (firstNodes item)).map field)
    (listSize fieldSize) 192 fun item itemFits => by
      obtain ⟨short, fitting⟩ := fit_under (fit_nodes itemFits) Tag.requestPayload
      exact fields_size_le short fitting
  have templates := mapped itemTemplate (listSize AttributeShape.size) 3792 fun item itemFits => by
    unfold itemTemplate
    cases found : (firstNodes item).find? (isStructure Tag.requestPayload) with
    | none => exact Nat.zero_le _
    | some node =>
      exact template_size_le (fit_nodes itemFits node (List.mem_of_find?_eq_some found))
  exact Nat.add_le_add (Nat.add_le_add (Nat.add_le_add (Nat.add_le_add
    (Nat.add_le_add header version) operations) batch) payload) templates

/-- The diagnostics of a decoded request are the same for every request that differs from it in
peer-supplied texts and bytes alone, and they are of bounded size. -/
theorem diagnostics_leak_no_text {data : List UInt8} (decoded : decode data = .ok request) :
    (∀ other, Alike request other →
      dispatchRequestShape other = dispatchRequestShape request) ∧
      (dispatchRequestShape request).size ≤ maxShapeSize := by
  refine ⟨fun other alike => (alike_request alike).symm, ?_⟩
  exact request_size_le ((decode_eq_ok_iff_encode data request).mp decoded).1.values

def sampleRequest (keyId : String) : Ttlv :=
  structure' 0x420078 [structure' Tag.batchItem [enumeration Tag.operation 10,
    structure' Tag.requestPayload [textString Tag.uniqueIdentifier keyId]]]

def sampleRequestData : List UInt8 :=
  [0x42, 0, 0x78, 1, 0, 0, 0, 48, 0x42, 0, 0x0F, 1, 0, 0, 0, 40, 0x42, 0, 0x5C, 5, 0, 0, 0, 4,
    0, 0, 0, 10, 0, 0, 0, 0, 0x42, 0, 0x79, 1, 0, 0, 0, 16, 0x42, 0, 0x94, 7, 0, 0, 0, 2,
    0xC3, 0xA9, 0, 0, 0, 0, 0, 0]

set_option maxRecDepth 8000 in
theorem sample_request_decoded : decode sampleRequestData = .ok (sampleRequest "é") := by
  rfl

theorem sample_diagnostics_leak_no_text :
    (∀ other, Alike (sampleRequest "é") other →
      dispatchRequestShape other = dispatchRequestShape (sampleRequest "é")) ∧
      (dispatchRequestShape (sampleRequest "é")).size ≤ maxShapeSize :=
  diagnostics_leak_no_text sample_request_decoded

end Atlaso.Kmip.RequestShapes
