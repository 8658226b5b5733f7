import Atlaso.Kmip.TtlvCodec

/-!
The tags and constants of `kmip/protocol.py`, and its readers of single fields and of lists of
attributes.
-/

namespace Atlaso.Kmip.Protocol

open Exceptions TtlvCodec

def Tag.activationDate : Int := 0x420001
def Tag.attribute : Int := 0x420008
def Tag.attributeName : Int := 0x42000A
def Tag.attributeValue : Int := 0x42000B
def Tag.batchItem : Int := 0x42000F
def Tag.cryptographicAlgorithm : Int := 0x420028
def Tag.cryptographicLength : Int := 0x42002A
def Tag.cryptographicUsageMask : Int := 0x42002C
def Tag.maximumResponseSize : Int := 0x420050
def Tag.name : Int := 0x420053
def Tag.nameType : Int := 0x420054
def Tag.nameValue : Int := 0x420055
def Tag.objectType : Int := 0x420057
def Tag.operation : Int := 0x42005C
def Tag.protocolVersion : Int := 0x420069
def Tag.protocolVersionMajor : Int := 0x42006A
def Tag.protocolVersionMinor : Int := 0x42006B
def Tag.requestHeader : Int := 0x420077
def Tag.requestPayload : Int := 0x420079
def Tag.state : Int := 0x42008D
def Tag.templateAttribute : Int := 0x420091
def Tag.uniqueIdentifier : Int := 0x420094

def objectTypeSymmetricKey : Int := 2
def cryptographicAlgorithmAes : Int := 3
def nameTypeUninterpretedTextString : Int := 1
def statePreActive : Int := 1
def stateActive : Int := 2
def usageEncryptDecrypt : Int := 0x0000000C
def maxBatchItems : Nat := 16

def attributeTags : List (String × Int) :=
  [("Activation Date", Tag.activationDate),
    ("Cryptographic Algorithm", Tag.cryptographicAlgorithm),
    ("Cryptographic Length", Tag.cryptographicLength),
    ("Cryptographic Usage Mask", Tag.cryptographicUsageMask),
    ("Name", Tag.name),
    ("Object Type", Tag.objectType),
    ("State", Tag.state),
    ("Unique Identifier", Tag.uniqueIdentifier)]

def invalidField (message : String) : Raised := .protocolFailure .invalidField message

/-- `except TtlvError as exc: raise ProtocolFailure(...) from exc`. -/
def catchTtlv {Value : Type} (failure : Raised) : Except Raised Value → Except Raised Value
  | .error (.ttlvError _) => .error failure
  | other => other

def value (node : Ttlv) (expectedType : TtlvType) : Except Raised Scalar :=
  if node.type = expectedType then
    match node with
    | .tuple _ _ _ => .error (.assertionError "")
    | .scalar _ _ value => .ok value
  else .error (invalidField "A KMIP field has the wrong TTLV type.")

def integerValue (node : Ttlv) (expectedType : TtlvType) : Except Raised Int := do
  match ← value node expectedType with
  | .int number => return number
  | _ => throw (invalidField "A KMIP numeric field is invalid.")

def textValue (node : Ttlv) : Except Raised String := do
  match ← value node .textString with
  | .text text => return text
  | _ => throw (invalidField "A KMIP text field is invalid.")

def requiredChild (node : Ttlv) (tag : Int) : Except Raised Ttlv := do
  match ← catchTtlv (.protocolFailure .missingData "A required KMIP field is missing.")
      (child node tag true) with
  | some found => return found
  | none => throw (.assertionError "")

def uniqueIdentifier (payload : Ttlv) : Except Raised String := do
  let value ← textValue (← requiredChild payload Tag.uniqueIdentifier)
  if value = "" then throw (invalidField "Unique Identifier must not be empty.")
  else return value

end Atlaso.Kmip.Protocol
