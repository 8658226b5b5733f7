import Atlaso.Kmip.Exceptions
import Atlaso.Library.ByteWords
import Atlaso.Library.Outcomes
import Mathlib.Data.List.Sort

/-!
The bounded TTLV codec of `kmip/ttlv.py`.

A node keeps its tag, its declared type and its Python value apart, as the source
dataclass does, so a node whose value does not suit its type exists and `encode`
rejects it. Offsets into a buffer are represented by the remaining suffix, and the
decoder's depth by the number of levels still allowed below it.
-/

namespace Atlaso.Kmip.TtlvCodec

open Exceptions Library.ByteWords

def maxMessageBytes : Nat := 1048576
def maxNestingDepth : Nat := 16
def maxNodeCount : Nat := 4096

inductive TtlvType where
  | struct | integer | longInteger | bigInteger | enumeration | boolean | textString | byteString
  | dateTime | interval
  deriving DecidableEq, Repr

def TtlvType.code : TtlvType → UInt8
  | .struct => 1
  | .integer => 2
  | .longInteger => 3
  | .bigInteger => 4
  | .enumeration => 5
  | .boolean => 6
  | .textString => 7
  | .byteString => 8
  | .dateTime => 9
  | .interval => 10

def TtlvType.all : List TtlvType :=
  [.struct, .integer, .longInteger, .bigInteger, .enumeration, .boolean, .textString,
    .byteString, .dateTime, .interval]

def TtlvType.ofCode (code : UInt8) : Option TtlvType :=
  TtlvType.all.find? fun type => type.code == code

theorem TtlvType.of_code_code (type : TtlvType) : TtlvType.ofCode type.code = some type := by
  cases type <;> rfl

theorem TtlvType.code_of_of_code {code : UInt8} {type : TtlvType}
    (found : TtlvType.ofCode code = some type) : type.code = code := by
  have holds := List.find?_some found
  simpa using holds

/-- The values a TTLV node can hold other than a tuple of nodes. -/
inductive Scalar where
  | int (value : Int)
  | bool (value : Bool)
  | text (value : String)
  | bytes (value : List UInt8)
  deriving DecidableEq, Repr

inductive Ttlv where
  | tuple (tag : Int) (type : TtlvType) (children : List Ttlv)
  | scalar (tag : Int) (type : TtlvType) (value : Scalar)
  deriving Repr

namespace Ttlv

def tag : Ttlv → Int
  | .tuple tag _ _ => tag
  | .scalar tag _ _ => tag

def type : Ttlv → TtlvType
  | .tuple _ type _ => type
  | .scalar _ type _ => type

theorem nested_induction {motive : Ttlv → Prop}
    (scalar : ∀ tag type value, motive (.scalar tag type value))
    (tuple : ∀ tag type children, (∀ child ∈ children, motive child) →
      motive (.tuple tag type children)) (node : Ttlv) : motive node :=
  @Ttlv.rec motive (fun nodes => ∀ child ∈ nodes, motive child)
    tuple scalar (by simp)
    (by
      intro head tail headHolds tailHolds child member
      rcases List.mem_cons.mp member with rfl | inTail
      · exact headHolds
      · exact tailHolds child inTail)
    node

end Ttlv

def structure' (tag : Int) (children : List Ttlv) : Ttlv := .tuple tag .struct children
def integer (tag : Int) (value : Int) : Ttlv := .scalar tag .integer (.int value)
def enumeration (tag : Int) (value : Int) : Ttlv := .scalar tag .enumeration (.int value)
def boolean (tag : Int) (value : Bool) : Ttlv := .scalar tag .boolean (.bool value)
def textString (tag : Int) (value : String) : Ttlv := .scalar tag .textString (.text value)
def byteString (tag : Int) (value : List UInt8) : Ttlv := .scalar tag .byteString (.bytes value)
def dateTime (tag : Int) (value : Int) : Ttlv := .scalar tag .dateTime (.int value)

def renderTag (tag : Int) : String :=
  let digits := Nat.toDigits 16 tag.toNat
  "0x" ++ String.ofList (List.replicate (6 - digits.length) '0' ++ digits)

/-- `Ttlv.children()` without a tag filter. -/
def childNodes : Ttlv → Except Raised (List Ttlv)
  | .tuple _ type nodes =>
    if type = .struct then .ok nodes else .error (.ttlvError "TTLV node is not a structure.")
  | .scalar _ type _ =>
    if type = .struct then .error (.typeError "value of a structure is not a tuple of nodes")
    else .error (.ttlvError "TTLV node is not a structure.")

def children (node : Ttlv) (tag : Int) : Except Raised (List Ttlv) := do
  let nodes ← childNodes node
  return nodes.filter fun item => item.tag = tag

def child (node : Ttlv) (tag : Int) (required : Bool) : Except Raised (Option Ttlv) := do
  match ← children node tag with
  | [] =>
    if required then throw (.ttlvError ("TTLV tag " ++ renderTag tag ++ " is required."))
    else return none
  | [only] => return some only
  | _ :: _ :: _ =>
    throw (.ttlvError ("TTLV tag " ++ renderTag tag ++ " must not be duplicated."))

def assertOnlyTags (node : Ttlv) (allowed : List Int) : Except Raised Unit := do
  let nodes ← childNodes node
  let unexpected :=
    ((nodes.map Ttlv.tag).filter fun tag => tag ∉ allowed).dedup.insertionSort (· ≤ ·)
  if unexpected = [] then return ()
  else throw (.ttlvError ("TTLV structure contains unsupported tags: " ++
    ", ".intercalate (unexpected.map renderTag) ++ "."))

def StandardTag (tag : Int) : Prop := 0x420000 ≤ tag ∧ tag ≤ 0x42FFFF

instance (tag : Int) : Decidable (StandardTag tag) := by
  unfold StandardTag
  infer_instance

def packWord (width : Nat) (value : Int) : Except Raised (List UInt8) :=
  if FitsSigned width value then .ok (packSigned width value)
  else .error (.structError "argument out of range")

/-- `_encoded_value` of a node that holds no children. -/
def encodedScalar (type : TtlvType) (value : Scalar) : Except Raised (List UInt8) :=
  match type, value with
  | .integer, .int number => packWord 4 number
  | .enumeration, .int number => packWord 4 number
  | .interval, .int number => packWord 4 number
  | .integer, _ => .error (.ttlvError "TTLV 32-bit value is invalid.")
  | .enumeration, _ => .error (.ttlvError "TTLV 32-bit value is invalid.")
  | .interval, _ => .error (.ttlvError "TTLV 32-bit value is invalid.")
  | .longInteger, .int number => packWord 8 number
  | .dateTime, .int number => packWord 8 number
  | .longInteger, _ => .error (.ttlvError "TTLV 64-bit value is invalid.")
  | .dateTime, _ => .error (.ttlvError "TTLV 64-bit value is invalid.")
  | .boolean, .bool flag => packWord 8 (if flag then 1 else 0)
  | .boolean, _ => .error (.ttlvError "TTLV boolean value is invalid.")
  | .textString, .text text => .ok (utf8Encode text)
  | .textString, _ => .error (.ttlvError "TTLV text value is invalid.")
  | .byteString, .bytes bytes => .ok bytes
  | .bigInteger, .bytes bytes => .ok bytes
  | .byteString, _ => .error (.ttlvError "TTLV byte value is invalid.")
  | .bigInteger, _ => .error (.ttlvError "TTLV byte value is invalid.")
  | .struct, _ => .error (.ttlvError "TTLV structure value is invalid.")

/-- The complaint of `_encoded_value` about a tuple under a scalar type. -/
def tupleComplaint : TtlvType → String
  | .integer | .enumeration | .interval => "TTLV 32-bit value is invalid."
  | .longInteger | .dateTime => "TTLV 64-bit value is invalid."
  | .boolean => "TTLV boolean value is invalid."
  | .textString => "TTLV text value is invalid."
  | .byteString | .bigInteger => "TTLV byte value is invalid."
  | .struct => "TTLV structure value is invalid."

def frameBytes (tag : Nat) (type : TtlvType) (value : List UInt8) : List UInt8 :=
  toBytesBig 3 tag ++ type.code :: toBytesBig 4 value.length ++ value ++
    List.replicate (paddingLength 8 value.length) 0

/-- The part of `encode` around `_encoded_value`: the tag check before it, the size
check and the header after it. -/
def encodeFrame (tag : Int) (type : TtlvType) (encodedValue : Except Raised (List UInt8)) :
    Except Raised (List UInt8) :=
  if StandardTag tag then do
    let value ← encodedValue
    if maxMessageBytes < value.length then
      throw (.ttlvError "TTLV value exceeds the maximum size.")
    else return frameBytes tag.toNat type value
  else throw (.ttlvError "Only standard KMIP tags are supported.")

mutual

def encode : Ttlv → Except Raised (List UInt8)
  | .tuple tag type children =>
    encodeFrame tag type
      (if type = .struct then encodeAll children else .error (.ttlvError (tupleComplaint type)))
  | .scalar tag type value => encodeFrame tag type (encodedScalar type value)

def encodeAll : List Ttlv → Except Raised (List UInt8)
  | [] => .ok []
  | node :: nodes => do
      let head ← encode node
      let tail ← encodeAll nodes
      return head ++ tail

end

/-- The checks of `_decode_one` before the node is counted: tag, type, raw value and
the bytes after its padding. -/
def readFrame (data : List UInt8) :
    Except Raised (Nat × TtlvType × List UInt8 × List UInt8) :=
  if data.length < 8 then throw (.ttlvError "TTLV header is truncated.")
  else
    let tag := fromBytesBig (data.take 3)
    if tag < 0x420000 ∨ 0x42FFFF < tag then
      throw (.ttlvError "TTLV contains a non-standard KMIP tag.")
    else
      match TtlvType.ofCode (data.getD 3 0) with
      | none => throw (.ttlvError "TTLV contains an unsupported type.")
      | some type =>
        let length := fromBytesBig ((data.drop 4).take 4)
        if maxMessageBytes < length then
          throw (.ttlvError "TTLV value exceeds the maximum size.")
        else
          let body := data.drop 8
          let padding := paddingLength 8 length
          if body.length < length + padding then
            throw (.ttlvError "TTLV value is truncated.")
          else if ((body.drop length).take padding).any (· != 0) then
            throw (.ttlvError "TTLV padding must be zero.")
          else return (tag, type, body.take length, body.drop (length + padding))

def decodeScalar (type : TtlvType) (raw : List UInt8) : Except Raised Scalar :=
  match type with
  | .integer | .enumeration | .interval =>
    if raw.length ≠ 4 then throw (.ttlvError "TTLV 32-bit type must have length 4.")
    else return .int (unpackSigned raw)
  | .longInteger | .dateTime =>
    if raw.length ≠ 8 then throw (.ttlvError "TTLV 64-bit type must have length 8.")
    else return .int (unpackSigned raw)
  | .boolean =>
    if raw.length ≠ 8 then throw (.ttlvError "TTLV boolean must have length 8.")
    else
      let numeric := unpackSigned raw
      if numeric = 0 then return .bool false
      else if numeric = 1 then return .bool true
      else throw (.ttlvError "TTLV boolean must be zero or one.")
  | .textString =>
    match utf8Decode raw with
    | some text => return .text text
    | none => throw (.ttlvError "TTLV text string is not valid UTF-8.")
  | .byteString | .bigInteger => return .bytes raw
  | .struct => throw (.typeError "a structure holds nodes")

/-- The loop over the children of a structure. Every child takes at least its eight
header bytes, so the fuel `raw.length` given by the caller is never used up. -/
def decodeChildren
    (decodeChild : List UInt8 → Nat → Except Raised (Ttlv × List UInt8 × Nat)) :
    Nat → List UInt8 → Nat → Except Raised (List Ttlv × Nat)
  | _, [], nodes => .ok ([], nodes)
  | 0, _ :: _, _ => .error (.assertionError "children loop did not advance")
  | fuel + 1, raw, nodes => do
      let (node, rest, nodes) ← decodeChild raw nodes
      let (others, nodes) ← decodeChildren decodeChild fuel rest nodes
      return (node :: others, nodes)

/-- `_decode_one`, with `levels = MAX_NESTING_DEPTH + 1 - depth` and the node counter
passed through. -/
def decodeOne : Nat → List UInt8 → Nat → Except Raised (Ttlv × List UInt8 × Nat)
  | 0, _, _ => .error (.ttlvError "TTLV nesting exceeds the maximum depth.")
  | levels + 1, data, nodes => do
      let (tag, type, raw, rest) ← readFrame data
      if maxNodeCount < nodes + 1 then
        throw (.ttlvError "TTLV node count exceeds the maximum.")
      else if type = .struct then do
        let (children, nodes) ← decodeChildren (decodeOne levels) raw.length raw (nodes + 1)
        return (.tuple tag type children, rest, nodes)
      else do
        let value ← decodeScalar type raw
        return (.scalar tag type value, rest, nodes + 1)

def decode (data : List UInt8) : Except Raised Ttlv :=
  if data = [] then throw (.ttlvError "TTLV message is empty.")
  else if maxMessageBytes + 8 < data.length then
    throw (.ttlvError "TTLV message exceeds the maximum size.")
  else do
    let (node, rest, _) ← decodeOne (maxNestingDepth + 1) data 0
    if rest ≠ [] then throw (.ttlvError "TTLV message contains trailing data.")
    else return node

end Atlaso.Kmip.TtlvCodec
