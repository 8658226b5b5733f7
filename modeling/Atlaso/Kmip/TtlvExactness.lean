import Atlaso.Kmip.TtlvCodec

/-!
The language of the TTLV decoder.

`WellFormed` states the accepted nodes in their own terms: standard tags, a value of
the kind and range the type requires, bounded value sizes, nesting and node count.
The decoder accepts exactly the encodings of these nodes, each node having one.
-/

namespace Atlaso.Kmip.TtlvExactness

open Exceptions TtlvCodec Library ByteWords Outcomes

/-- The kind and range of value a scalar type requires. Text is valid UTF-8 as such. -/
def ScalarFits : TtlvType → Scalar → Prop
  | .integer, .int number => FitsSigned 4 number
  | .enumeration, .int number => FitsSigned 4 number
  | .interval, .int number => FitsSigned 4 number
  | .longInteger, .int number => FitsSigned 8 number
  | .dateTime, .int number => FitsSigned 8 number
  | .boolean, .bool _ => True
  | .textString, .text _ => True
  | .byteString, .bytes _ => True
  | .bigInteger, .bytes _ => True
  | _, _ => False

/-- The unpadded size of a scalar's value on the wire. -/
def scalarLength : TtlvType → Scalar → Nat
  | .integer, _ => 4
  | .enumeration, _ => 4
  | .interval, _ => 4
  | _, .text text => (utf8Encode text).length
  | _, .bytes bytes => bytes.length
  | _, _ => 8

def framedLength (length : Nat) : Nat := 8 + (length + paddingLength 8 length)

mutual

def encodedLength : Ttlv → Nat
  | .tuple _ _ children => framedLength (encodedLengths children)
  | .scalar _ type value => framedLength (scalarLength type value)

def encodedLengths : List Ttlv → Nat
  | [] => 0
  | node :: nodes => encodedLength node + encodedLengths nodes

end

mutual

/-- Levels of nesting below the node. -/
def nestingDepth : Ttlv → Nat
  | .tuple _ _ children => nestingDepths children
  | .scalar _ _ _ => 0

def nestingDepths : List Ttlv → Nat
  | [] => 0
  | node :: nodes => max (nestingDepth node + 1) (nestingDepths nodes)

end

mutual

def nodeCount : Ttlv → Nat
  | .tuple _ _ children => 1 + nodeCounts children
  | .scalar _ _ _ => 1

def nodeCounts : List Ttlv → Nat
  | [] => 0
  | node :: nodes => nodeCount node + nodeCounts nodes

end

mutual

/-- Standard tags, values of the kind and range of their type, and bounded value
sizes, at the node and everywhere below it. -/
def ValuesFit : Ttlv → Prop
  | .tuple tag type children =>
    StandardTag tag ∧ type = .struct ∧ encodedLengths children ≤ maxMessageBytes ∧
      AllValuesFit children
  | .scalar tag type value =>
    StandardTag tag ∧ ScalarFits type value ∧ scalarLength type value ≤ maxMessageBytes

def AllValuesFit : List Ttlv → Prop
  | [] => True
  | node :: nodes => ValuesFit node ∧ AllValuesFit nodes

end

structure WellFormed (node : Ttlv) : Prop where
  values : ValuesFit node
  depth : nestingDepth node ≤ maxNestingDepth
  count : nodeCount node ≤ maxNodeCount
  length : encodedLength node ≤ maxMessageBytes + 8

theorem frame_bytes_length (tag : Nat) (type : TtlvType) (value : List UInt8) :
    (frameBytes tag type value).length = framedLength value.length := by
  simp only [frameBytes, framedLength, List.length_append, List.length_cons,
    to_bytes_big_length, List.length_replicate]
  omega

theorem read_frame_frame_bytes (tag : Nat) (type : TtlvType) (value rest : List UInt8)
    (standard : StandardTag tag) (bound : value.length ≤ maxMessageBytes) :
    readFrame (frameBytes tag type value ++ rest) = .ok (tag, type, value, rest) := by
  have tagLow : 0x420000 ≤ tag := by exact_mod_cast standard.1
  have tagHigh : tag ≤ 0x42FFFF := by exact_mod_cast standard.2
  have lengthBound : value.length < 256 ^ 4 := lt_of_le_of_lt bound (by decide)
  obtain ⟨t0, t1, t2, tagBytes⟩ : ∃ t0 t1 t2, toBytesBig 3 tag = [t0, t1, t2] :=
    ⟨_, _, _, rfl⟩
  obtain ⟨l0, l1, l2, l3, lengthBytes⟩ :
      ∃ l0 l1 l2 l3, toBytesBig 4 value.length = [l0, l1, l2, l3] := ⟨_, _, _, _, rfl⟩
  have tagRead : fromBytesBig [t0, t1, t2] = tag := by
    rw [← tagBytes]
    exact from_bytes_big_to_bytes_big 3 tag (lt_of_le_of_lt tagHigh (by decide))
  have lengthRead : fromBytesBig [l0, l1, l2, l3] = value.length := by
    rw [← lengthBytes]
    exact from_bytes_big_to_bytes_big 4 _ lengthBound
  have shape : frameBytes tag type value ++ rest =
      t0 :: t1 :: t2 :: type.code :: l0 :: l1 :: l2 :: l3 ::
        (value ++ (List.replicate (paddingLength 8 value.length) 0 ++ rest)) := by
    simp [frameBytes, tagBytes, lengthBytes]
  rw [shape]
  have padded : (value ++ (List.replicate (paddingLength 8 value.length) 0 ++ rest)).drop
      (value.length + paddingLength 8 value.length) = rest := by
    rw [← List.append_assoc, List.drop_append_of_le_length (by simp)]
    simp
  simp [readFrame, tagRead, lengthRead, TtlvType.of_code_code, padded, Nat.not_lt.mpr tagLow,
    Nat.not_lt.mpr tagHigh, Nat.not_lt.mpr bound]

variable {data : List UInt8}

/-- Whatever `readFrame` returns, the buffer starts with the frame of it. -/
theorem read_frame_sound {value rest : List UInt8} {tag : Nat} {type : TtlvType}
    (read : readFrame data = .ok (tag, type, value, rest)) :
    StandardTag tag ∧ value.length ≤ maxMessageBytes ∧
      data = frameBytes tag type value ++ rest := by
  unfold readFrame at read
  split at read
  · cases read
  rename_i long
  obtain ⟨t0, t1, t2, code, l0, l1, l2, l3, body, rfl⟩ :
      ∃ t0 t1 t2 code l0 l1 l2 l3 body,
        data = t0 :: t1 :: t2 :: code :: l0 :: l1 :: l2 :: l3 :: body := by
    match data, long with
    | t0 :: t1 :: t2 :: code :: l0 :: l1 :: l2 :: l3 :: body, _ =>
      exact ⟨t0, t1, t2, code, l0, l1, l2, l3, body, rfl⟩
    | [], long | [_], long | [_, _], long | [_, _, _], long | [_, _, _, _], long
    | [_, _, _, _, _], long | [_, _, _, _, _, _], long | [_, _, _, _, _, _, _], long =>
      simp at long
  simp only [List.take_succ_cons, List.take_zero, List.drop_succ_cons, List.drop_zero,
    List.getD_cons_succ, List.getD_cons_zero] at read
  split at read
  · cases read
  rename_i standard
  cases typed : TtlvType.ofCode code with
  | none => simp [typed] at read
  | some found =>
    rw [typed] at read
    simp only at read
    split at read
    · cases read
    rename_i bound
    split at read
    · cases read
    rename_i whole
    split at read
    · cases read
    rename_i zeros
    simp only [pure_is_ok, Except.ok.injEq, Prod.mk.injEq] at read
    obtain ⟨rfl, rfl, rfl, rfl⟩ := read
    have bodyLength : fromBytesBig [l0, l1, l2, l3] ≤ body.length := by omega
    have taken : (body.take (fromBytesBig [l0, l1, l2, l3])).length =
        fromBytesBig [l0, l1, l2, l3] := by simpa using bodyLength
    have padding : (body.drop (fromBytesBig [l0, l1, l2, l3])).take
        (paddingLength 8 (fromBytesBig [l0, l1, l2, l3])) =
          List.replicate (paddingLength 8 (fromBytesBig [l0, l1, l2, l3])) 0 := by
      apply List.eq_replicate_iff.mpr
      constructor
      · simp only [List.length_take, List.length_drop]
        omega
      · simpa using zeros
    have tagBytes := to_bytes_big_from_bytes_big [t0, t1, t2]
    have lengthBytes := to_bytes_big_from_bytes_big [l0, l1, l2, l3]
    simp only [List.length_cons, List.length_nil] at tagBytes lengthBytes
    refine ⟨⟨by omega, by omega⟩, by omega, ?_⟩
    rw [frameBytes, taken, tagBytes, lengthBytes, TtlvType.code_of_of_code typed, ← padding]
    simp [← List.drop_drop, List.take_append_drop]

theorem pack_word_ok {width : Nat} {value : Int} {bytes : List UInt8} :
    packWord width value = .ok bytes ↔ FitsSigned width value ∧ bytes = packSigned width value := by
  unfold packWord
  split_ifs with fits
  · simp [fits, eq_comm]
  · simp [fits]

/-- The scalar writer succeeds only on values of the right kind and range, with the
length `scalarLength` predicts. -/
theorem encoded_scalar_fits {type : TtlvType} {value : Scalar} {bytes : List UInt8}
    (encoded : encodedScalar type value = .ok bytes) :
    ScalarFits type value ∧ bytes.length = scalarLength type value := by
  cases type <;> cases value <;>
    simp_all [encodedScalar, ScalarFits, scalarLength, pack_word_ok]

theorem encoded_scalar_of_fits {type : TtlvType} {value : Scalar}
    (fits : ScalarFits type value) : ∃ bytes, encodedScalar type value = .ok bytes := by
  cases type <;> cases value <;>
    simp_all [encodedScalar, ScalarFits, packWord]
  case boolean.bool flag =>
    refine ⟨_, if_pos ?_⟩
    cases flag <;> decide

theorem scalar_fits_not_struct {type : TtlvType} {value : Scalar}
    (fits : ScalarFits type value) : type ≠ .struct := by
  rintro rfl
  cases value <;> exact fits

theorem decode_scalar_encoded {type : TtlvType} {value : Scalar} {bytes : List UInt8}
    (encoded : encodedScalar type value = .ok bytes) :
    decodeScalar type bytes = .ok value := by
  cases type <;> cases value <;>
    simp_all [encodedScalar, decodeScalar, pack_word_ok, unpack_signed_pack_signed]
  case boolean.bool flag =>
    cases flag <;> simp_all
  case textString.text text =>
    rw [← encoded, utf8_decode_encode]

theorem encoded_scalar_decoded {type : TtlvType} {value : Scalar} {bytes : List UInt8}
    (decoded : decodeScalar type bytes = .ok value) :
    encodedScalar type value = .ok bytes := by
  cases type <;> simp only [decodeScalar] at decoded
  case struct => cases decoded
  case integer | enumeration | interval | longInteger | dateTime =>
    split at decoded
    · cases decoded
    · rename_i width
      cases decoded
      have fits := fits_signed_unpack_signed bytes
      have packed := pack_signed_unpack_signed bytes
      rw [not_ne_iff.mp width] at fits packed
      simp [encodedScalar, packWord, fits, packed]
  case boolean =>
    split at decoded
    · cases decoded
    · rename_i width
      have fits := fits_signed_unpack_signed bytes
      have packed := pack_signed_unpack_signed bytes
      rw [not_ne_iff.mp width] at fits packed
      split at decoded
      · rename_i zero
        cases decoded
        rw [zero] at fits packed
        simp [encodedScalar, packWord, fits, packed]
      · split at decoded
        · rename_i one
          cases decoded
          rw [one] at fits packed
          simp [encodedScalar, packWord, fits, packed]
        · cases decoded
  case textString =>
    split at decoded
    · rename_i text found
      cases decoded
      simp [encodedScalar, utf8_encode_decode found]
    · cases decoded
  case byteString | bigInteger =>
    cases decoded
    rfl

theorem encode_frame_ok {tag : Int} {type : TtlvType} {encodedValue : Except Raised (List UInt8)} :
    encodeFrame tag type encodedValue = .ok data ↔
      StandardTag tag ∧ ∃ value, encodedValue = .ok value ∧ value.length ≤ maxMessageBytes ∧
        data = frameBytes tag.toNat type value := by
  unfold encodeFrame
  split_ifs with standard
  · cases encodedValue with
    | error raised => simp
    | ok value =>
      by_cases bound : maxMessageBytes < value.length
      · simp [bound]
      · simp [bound, standard, Nat.not_lt.mp bound, eq_comm]
  · simp [standard]

theorem encode_tuple_ok {tag : Int} {type : TtlvType} {children : List Ttlv} :
    encode (.tuple tag type children) = .ok data ↔
      StandardTag tag ∧ type = .struct ∧ ∃ value, encodeAll children = .ok value ∧
        value.length ≤ maxMessageBytes ∧ data = frameBytes tag.toNat type value := by
  rw [encode, encode_frame_ok]
  split_ifs with struct
  · simp [struct]
  · simp [struct]

theorem encode_scalar_ok {tag : Int} {type : TtlvType} {value : Scalar} :
    encode (.scalar tag type value) = .ok data ↔
      StandardTag tag ∧ ∃ raw, encodedScalar type value = .ok raw ∧
        raw.length ≤ maxMessageBytes ∧ data = frameBytes tag.toNat type raw := by
  rw [encode, encode_frame_ok]

theorem encode_all_cons_ok {node : Ttlv} {nodes : List Ttlv} :
    encodeAll (node :: nodes) = .ok data ↔
      ∃ head tail, encode node = .ok head ∧ encodeAll nodes = .ok tail ∧ data = head ++ tail := by
  rw [encodeAll]
  cases encode node with
  | error raised => simp
  | ok head =>
    cases encodeAll nodes with
    | error raised => simp
    | ok tail => simp [eq_comm]

theorem encode_positive {node : Ttlv} (encoded : encode node = .ok data) :
    data ≠ [] := by
  intro empty
  have framed : ∃ tag type value, data = frameBytes tag type value := by
    cases node with
    | tuple tag type children =>
      obtain ⟨-, -, value, -, -, same⟩ := encode_tuple_ok.mp encoded
      exact ⟨_, _, value, same⟩
    | scalar tag type value =>
      obtain ⟨-, raw, -, -, same⟩ := encode_scalar_ok.mp encoded
      exact ⟨_, _, raw, same⟩
  obtain ⟨tag, type, value, same⟩ := framed
  have length := frame_bytes_length tag type value
  rw [← same, empty, framedLength] at length
  simp at length
  omega

theorem encode_length (node : Ttlv) :
    ∀ data, encode node = .ok data → data.length = encodedLength node := by
  induction node using Ttlv.nested_induction with
  | scalar tag type value =>
    intro data encoded
    obtain ⟨-, raw, written, -, rfl⟩ := encode_scalar_ok.mp encoded
    rw [frame_bytes_length, encodedLength, (encoded_scalar_fits written).2]
  | tuple tag type children induction =>
    intro data encoded
    obtain ⟨-, -, value, written, -, rfl⟩ := encode_tuple_ok.mp encoded
    rw [frame_bytes_length, encodedLength]
    congr 1
    clear encoded
    induction children generalizing value with
    | nil =>
      cases written
      rfl
    | cons child others rest =>
      obtain ⟨head, tail, headWritten, tailWritten, rfl⟩ := encode_all_cons_ok.mp written
      rw [List.length_append, encodedLengths, induction child (by simp) head headWritten,
        rest (fun node member => induction node (by simp [member])) tail tailWritten]

theorem encode_all_length (nodes : List Ttlv) (data : List UInt8)
    (encoded : encodeAll nodes = .ok data) : data.length = encodedLengths nodes := by
  induction nodes generalizing data with
  | nil =>
    cases encoded
    rfl
  | cons node nodes induction =>
    obtain ⟨head, tail, headWritten, tailWritten, rfl⟩ := encode_all_cons_ok.mp encoded
    rw [List.length_append, encodedLengths, encode_length node head headWritten,
      induction tail tailWritten]

theorem encode_succeeds_iff (node : Ttlv) :
    (∃ data, encode node = .ok data) ↔ ValuesFit node := by
  induction node using Ttlv.nested_induction with
  | scalar tag type value =>
    constructor
    · rintro ⟨data, encoded⟩
      obtain ⟨standard, raw, written, bound, -⟩ := encode_scalar_ok.mp encoded
      obtain ⟨fits, length⟩ := encoded_scalar_fits written
      exact ⟨standard, fits, length ▸ bound⟩
    · rintro ⟨standard, fits, bound⟩
      obtain ⟨raw, written⟩ := encoded_scalar_of_fits fits
      have length := (encoded_scalar_fits written).2
      exact ⟨_, encode_scalar_ok.mpr ⟨standard, raw, written, length ▸ bound, rfl⟩⟩
  | tuple tag type children induction =>
    have all : (∃ data, encodeAll children = .ok data) ↔ AllValuesFit children := by
      induction children with
      | nil => exact ⟨fun _ => trivial, fun _ => ⟨[], rfl⟩⟩
      | cons child others rest =>
        have first := induction child (by simp)
        have later := rest fun node member => induction node (by simp [member])
        rw [AllValuesFit, ← first, ← later]
        constructor
        · rintro ⟨data, encoded⟩
          obtain ⟨head, tail, headWritten, tailWritten, -⟩ := encode_all_cons_ok.mp encoded
          exact ⟨⟨head, headWritten⟩, tail, tailWritten⟩
        · rintro ⟨⟨head, headWritten⟩, tail, tailWritten⟩
          exact ⟨_, encode_all_cons_ok.mpr ⟨head, tail, headWritten, tailWritten, rfl⟩⟩
    constructor
    · rintro ⟨data, encoded⟩
      obtain ⟨standard, struct, value, written, bound, -⟩ := encode_tuple_ok.mp encoded
      refine ⟨standard, struct, ?_, all.mp ⟨value, written⟩⟩
      rw [← encode_all_length children value written]
      exact bound
    · rintro ⟨standard, struct, bound, fits⟩
      obtain ⟨value, written⟩ := all.mpr fits
      rw [← encode_all_length children value written] at bound
      exact ⟨_, encode_tuple_ok.mpr ⟨standard, struct, value, written, bound, rfl⟩⟩

theorem decode_children_encode_all
    (decodeChild : List UInt8 → Nat → Except Raised (Ttlv × List UInt8 × Nat))
    (nodes : List Ttlv) (data : List UInt8) (fuel seen : Nat)
    (roundtrip : ∀ node ∈ nodes, ∀ bytes rest before, encode node = .ok bytes →
      before + nodeCount node ≤ maxNodeCount →
        decodeChild (bytes ++ rest) before = .ok (node, rest, before + nodeCount node))
    (encoded : encodeAll nodes = .ok data) (enough : data.length ≤ fuel)
    (bound : seen + nodeCounts nodes ≤ maxNodeCount) :
    decodeChildren decodeChild fuel data seen = .ok (nodes, seen + nodeCounts nodes) := by
  induction nodes generalizing data fuel seen with
  | nil =>
    cases encoded
    simp [decodeChildren, nodeCounts]
  | cons node nodes induction =>
    obtain ⟨head, tail, headWritten, tailWritten, rfl⟩ := encode_all_cons_ok.mp encoded
    have nonempty := List.length_pos_iff.mpr (encode_positive headWritten)
    simp only [nodeCounts] at bound ⊢
    rw [List.length_append] at enough
    obtain ⟨fuel, rfl⟩ : ∃ less, fuel = less + 1 := ⟨fuel - 1, by omega⟩
    have first := roundtrip node (by simp) head tail seen headWritten (by omega)
    have later := induction tail fuel (seen + nodeCount node)
      (fun other member => roundtrip other (by simp [member])) tailWritten (by omega) (by omega)
    obtain ⟨byte, others, shape⟩ := List.exists_cons_of_ne_nil (encode_positive headWritten)
    have unfolded : decodeChildren decodeChild (fuel + 1) (head ++ tail) seen =
        (do
          let first ← decodeChild (head ++ tail) seen
          let behind ← decodeChildren decodeChild fuel first.2.1 first.2.2
          return (first.1 :: behind.1, behind.2)) := by
      rw [shape]
      rfl
    rw [unfolded, first]
    simp only [ok_bind, later, pure_is_ok, Nat.add_assoc]

/-- A node within the depth and count limits is read back from the front of any
buffer that starts with its encoding. -/
theorem decode_one_encode (levels : Nat) (node : Ttlv) (data rest : List UInt8) (seen : Nat)
    (encoded : encode node = .ok data) (depth : nestingDepth node < levels)
    (bound : seen + nodeCount node ≤ maxNodeCount) :
    decodeOne levels (data ++ rest) seen = .ok (node, rest, seen + nodeCount node) := by
  induction levels generalizing node data rest seen with
  | zero => omega
  | succ levels induction =>
    cases node with
    | scalar tag type value =>
      obtain ⟨standard, raw, written, size, rfl⟩ := encode_scalar_ok.mp encoded
      have tagCast : ((tag.toNat : Nat) : Int) = tag :=
        Int.toNat_of_nonneg (le_trans (by decide) standard.1)
      have frame := read_frame_frame_bytes tag.toNat type raw rest (tagCast ▸ standard) size
      have scalarType := scalar_fits_not_struct (encoded_scalar_fits written).1
      simp only [nodeCount] at bound ⊢
      simp [decodeOne, frame, Nat.not_lt.mpr bound, scalarType,
        decode_scalar_encoded written, tagCast]
    | tuple tag type children =>
      obtain ⟨standard, rfl, value, written, size, rfl⟩ := encode_tuple_ok.mp encoded
      have tagCast : ((tag.toNat : Nat) : Int) = tag :=
        Int.toNat_of_nonneg (le_trans (by decide) standard.1)
      have frame := read_frame_frame_bytes tag.toNat .struct value rest (tagCast ▸ standard) size
      simp only [nodeCount, nestingDepth] at bound depth ⊢
      have shallow : ∀ child ∈ children, nestingDepth child < levels := by
        clear encoded written bound
        induction children with
        | nil => simp
        | cons child others induction =>
          simp only [nestingDepths] at depth
          intro node member
          rcases List.mem_cons.mp member with rfl | inTail
          · omega
          · exact induction (by omega) node inTail
      have loop := decode_children_encode_all (decodeOne levels) children value value.length
        (seen + 1)
        (fun child member bytes after before childWritten childBound =>
          induction child bytes after before childWritten (shallow child member) childBound)
        written (Nat.le_refl _) (by omega)
      have counted : ¬ maxNodeCount < seen + 1 := by omega
      simp [decodeOne, frame, counted, loop, tagCast, Nat.add_assoc]

/-- What one successful read of a node says: the buffer starts with the node's own
encoding, and depth and node count stay inside the limits it was given. -/
structure ReadNode (levels : Nat) (data : List UInt8) (seen : Nat)
    (node : Ttlv) (rest : List UInt8) (after : Nat) : Prop where
  bytes : ∃ encoded, encode node = .ok encoded ∧ data = encoded ++ rest
  depth : nestingDepth node < levels
  count : after = seen + nodeCount node
  bound : after ≤ maxNodeCount

theorem decode_children_sound (levels : Nat)
    (decodeChild : List UInt8 → Nat → Except Raised (Ttlv × List UInt8 × Nat))
    (sound : ∀ data seen node rest after, decodeChild data seen = .ok (node, rest, after) →
      ReadNode levels data seen node rest after)
    (fuel : Nat) (data : List UInt8) (seen : Nat) (nodes : List Ttlv) (after : Nat)
    (start : seen ≤ maxNodeCount)
    (decoded : decodeChildren decodeChild fuel data seen = .ok (nodes, after)) :
    encodeAll nodes = .ok data ∧ nestingDepths nodes ≤ levels ∧
      after = seen + nodeCounts nodes ∧ after ≤ maxNodeCount := by
  induction fuel generalizing data seen nodes with
  | zero =>
    cases data with
    | nil =>
      cases decoded
      exact ⟨rfl, by simp [nestingDepths], by simp [nodeCounts], start⟩
    | cons byte bytes => simp [decodeChildren] at decoded
  | succ fuel induction =>
    cases data with
    | nil =>
      cases decoded
      exact ⟨rfl, by simp [nestingDepths], by simp [nodeCounts], start⟩
    | cons byte bytes =>
      simp only [decodeChildren] at decoded
      obtain ⟨⟨node, rest, middle⟩, first, decoded⟩ := bind_ok_iff.mp decoded
      obtain ⟨⟨others, last⟩, later, decoded⟩ := bind_ok_iff.mp decoded
      simp only [pure_is_ok, Except.ok.injEq, Prod.mk.injEq] at decoded
      obtain ⟨rfl, rfl⟩ := decoded
      have head := sound _ _ _ _ _ first
      obtain ⟨written, depth, count, bound⟩ :=
        induction rest middle others head.bound later
      obtain ⟨encoded, headWritten, split⟩ := head.bytes
      refine ⟨?_, ?_, ?_, bound⟩
      · rw [split]
        exact encode_all_cons_ok.mpr ⟨encoded, rest, headWritten, written, rfl⟩
      · have headDepth := head.depth
        simp only [nestingDepths]
        omega
      · rw [count, head.count, nodeCounts]
        omega

theorem decode_one_sound (levels : Nat) :
    ∀ data seen node rest after, decodeOne levels data seen = .ok (node, rest, after) →
      ReadNode levels data seen node rest after := by
  induction levels with
  | zero =>
    intro data seen node rest after decoded
    simp [decodeOne] at decoded
  | succ levels induction =>
    intro data seen node rest after decoded
    rw [decodeOne] at decoded
    obtain ⟨⟨tag, type, raw, remaining⟩, frame, decoded⟩ := bind_ok_iff.mp decoded
    obtain ⟨standard, size, split⟩ := read_frame_sound frame
    simp only at decoded
    split_ifs at decoded with full struct
    · obtain ⟨⟨children, counted⟩, loop, decoded⟩ := bind_ok_iff.mp decoded
      cases decoded
      obtain ⟨written, depth, count, bound⟩ := decode_children_sound levels (decodeOne levels)
        induction raw.length raw (seen + 1) children _ (by omega) loop
      refine ⟨⟨_, encode_tuple_ok.mpr ⟨standard, struct, raw, written, size, rfl⟩, ?_⟩, ?_, ?_,
        bound⟩
      · simpa using split
      · simp only [nestingDepth]
        omega
      · simp only [nodeCount]
        omega
    · obtain ⟨value, parsed, decoded⟩ := bind_ok_iff.mp decoded
      cases decoded
      refine ⟨⟨_, encode_scalar_ok.mpr
        ⟨standard, raw, encoded_scalar_decoded parsed, size, rfl⟩, ?_⟩, ?_, rfl, ?_⟩
      · simpa using split
      · simp [nestingDepth]
      · omega

/-- The top-level checks around the first node. -/
theorem decode_ok_iff {node : Ttlv} :
    decode data = .ok node ↔ data ≠ [] ∧ data.length ≤ maxMessageBytes + 8 ∧
      ∃ after, decodeOne (maxNestingDepth + 1) data 0 = .ok (node, [], after) := by
  unfold decode
  split_ifs with empty long
  · simp [empty]
  · have longer := Nat.not_le.mpr long
    simp [longer]
  · have short := Nat.not_lt.mp long
    simp only [empty, short, ne_eq, not_false_eq_true, true_and]
    cases decodeOne (maxNestingDepth + 1) data 0 with
    | error raised => simp
    | ok result =>
      obtain ⟨found, rest, after⟩ := result
      by_cases trailing : rest = []
      · simp [trailing]
      · simp [trailing]

theorem decode_eq_ok_iff_encode (data : List UInt8) (node : Ttlv) :
    decode data = .ok node ↔ WellFormed node ∧ encode node = .ok data := by
  rw [decode_ok_iff]
  constructor
  · rintro ⟨-, short, after, decoded⟩
    have read := decode_one_sound _ _ _ _ _ _ decoded
    obtain ⟨encoded, written, same⟩ := read.bytes
    rw [List.append_nil] at same
    subst same
    have count := read.count
    have bound := read.bound
    refine ⟨⟨(encode_succeeds_iff node).mp ⟨_, written⟩, Nat.lt_succ_iff.mp read.depth, by omega,
      ?_⟩, written⟩
    rw [← encode_length node _ written]
    exact short
  · rintro ⟨formed, written⟩
    refine ⟨encode_positive written, ?_, 0 + nodeCount node, ?_⟩
    · rw [encode_length node _ written]
      exact formed.length
    · have decoded := decode_one_encode (maxNestingDepth + 1) node data [] 0 written
        (Nat.lt_succ_iff.mpr formed.depth) (by simpa using formed.count)
      simpa using decoded

/-- The decoder's language: it accepts exactly the encodings of well-formed nodes, so
each of the two functions undoes the other and no node has two encodings. -/
theorem ttlv_decode_exact :
    (∀ data node, decode data = .ok node ↔ WellFormed node ∧ encode node = .ok data) ∧
      (∀ node, WellFormed node → ∃ data, encode node = .ok data ∧ decode data = .ok node) ∧
      (∀ data node, decode data = .ok node → encode node = .ok data) ∧
      ∀ left right node, decode left = .ok node → decode right = .ok node → left = right := by
  refine ⟨decode_eq_ok_iff_encode, ?_, ?_, ?_⟩
  · intro node formed
    obtain ⟨data, written⟩ := (encode_succeeds_iff node).mpr formed.values
    exact ⟨data, written, (decode_eq_ok_iff_encode data node).mpr ⟨formed, written⟩⟩
  · intro data node decoded
    exact ((decode_eq_ok_iff_encode data node).mp decoded).2
  · intro left right node leftDecoded rightDecoded
    have leftWritten := ((decode_eq_ok_iff_encode left node).mp leftDecoded).2
    have rightWritten := ((decode_eq_ok_iff_encode right node).mp rightDecoded).2
    rw [leftWritten] at rightWritten
    exact Except.ok.inj rightWritten

set_option maxRecDepth 4000 in
example : decode
    [0x42, 0, 0x78, 1, 0, 0, 0, 16, 0x42, 0, 0x94, 7, 0, 0, 0, 2, 0xC3, 0xA9, 0, 0, 0, 0, 0, 0] =
      .ok (structure' 0x420078 [textString 0x420094 "é"]) := by
  rfl

end Atlaso.Kmip.TtlvExactness
