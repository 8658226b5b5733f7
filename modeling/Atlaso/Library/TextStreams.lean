import Atlaso.Library.ByteWords
import Atlaso.Library.PhysicalLines

/-!
UTF-8 text that is read in fragments: decoding the fragments one after the other, with the
bytes of an unfinished sequence kept for the next, is decoding the whole; and the lines that
Python splits off the fragments have the characters of the whole without its line boundaries.
-/

namespace Atlaso.Library.TextStreams

open ByteWords LineText PhysicalLines

section Decoding

variable {data : List UInt8} {lead : UInt8}

theorem continuation_read {low high bits count code : Nat} {after : List UInt8}
    (found : continuation low high bits count data = .read code after) (more : List UInt8) :
    after.length ≤ data.length ∧
      continuation low high bits count (data ++ more) = .read code (after ++ more) := by
  induction count generalizing low high bits data with
  | zero =>
    rw [continuation] at found ⊢
    cases found
    exact ⟨Nat.le_refl _, rfl⟩
  | succ count induction =>
    cases data with
    | nil =>
      rw [continuation] at found
      cases found
    | cons byte rest =>
      rw [continuation] at found
      rw [List.cons_append, continuation]
      split_ifs at found ⊢ with within
      obtain ⟨shorter, same⟩ := induction found
      exact ⟨Nat.le_succ_of_le shorter, same⟩

theorem continuation_replaced {low high bits count : Nat} {after : List UInt8}
    (found : continuation low high bits count data = .replaced after) (more : List UInt8) :
    after.length ≤ data.length ∧
      continuation low high bits count (data ++ more) = .replaced (after ++ more) := by
  induction count generalizing low high bits data with
  | zero =>
    rw [continuation] at found
    cases found
  | succ count induction =>
    cases data with
    | nil =>
      rw [continuation] at found
      cases found
    | cons byte rest =>
      rw [continuation] at found
      rw [List.cons_append, continuation]
      split_ifs at found ⊢ with within
      · obtain ⟨shorter, same⟩ := induction found
        exact ⟨Nat.le_succ_of_le shorter, same⟩
      · cases found
        exact ⟨Nat.le_refl _, rfl⟩

theorem first_sequence_read {code : Nat} {after : List UInt8}
    (found : firstSequence lead data = .read code after) (more : List UInt8) :
    after.length ≤ data.length ∧ firstSequence lead (data ++ more) = .read code (after ++ more) := by
  unfold firstSequence at found ⊢
  split_ifs at found ⊢ with small
  · cases found
    exact ⟨Nat.le_refl _, rfl⟩
  · split at found
    · cases found
    · exact continuation_read found more

theorem first_sequence_replaced {after : List UInt8}
    (found : firstSequence lead data = .replaced after) (more : List UInt8) :
    after.length ≤ data.length ∧
      firstSequence lead (data ++ more) = .replaced (after ++ more) := by
  unfold firstSequence at found ⊢
  split_ifs at found ⊢ with small
  split at found
  · cases found
    exact ⟨Nat.le_refl _, rfl⟩
  · exact continuation_replaced found more

theorem decode_from_fuel (final : Bool) {more less : Nat} (enough : data.length ≤ more)
    (fewer : data.length ≤ less) :
    decodeFrom final more data = decodeFrom final less data := by
  induction more generalizing less data with
  | zero =>
    rw [List.eq_nil_of_length_eq_zero (Nat.le_zero.mp enough)]
    cases less <;> rfl
  | succ more induction =>
    cases data with
    | nil => cases less <;> rfl
    | cons lead rest =>
      cases less with
      | zero => exact absurd fewer (Nat.not_succ_le_zero _)
      | succ less =>
        have restEnough := Nat.le_of_succ_le_succ enough
        have restFewer := Nat.le_of_succ_le_succ fewer
        rw [decodeFrom, decodeFrom]
        cases found : firstSequence lead rest with
        | read code after =>
          have shorter := (first_sequence_read found []).1
          simp only
          rw [induction (shorter.trans restEnough) (shorter.trans restFewer)]
        | replaced after =>
          have shorter := (first_sequence_replaced found []).1
          simp only
          rw [induction (shorter.trans restEnough) (shorter.trans restFewer)]
        | incomplete => rfl

/-- The characters of a whole and what is kept of it. -/
def decoded (final : Bool) (data : List UInt8) : List Char × List UInt8 :=
  decodeFrom final data.length data

theorem decoded_read {final : Bool} {after : List UInt8} {code : Nat}
    (found : firstSequence lead data = .read code after) :
    decoded final (lead :: data) =
      (Char.ofNat code :: (decoded final after).1, (decoded final after).2) := by
  unfold decoded
  rw [List.length_cons, decodeFrom]
  simp only [found]
  rw [decode_from_fuel final (first_sequence_read found []).1 (Nat.le_refl after.length)]

theorem decoded_replaced {final : Bool} {after : List UInt8}
    (found : firstSequence lead data = .replaced after) :
    decoded final (lead :: data) =
      ('\uFFFD' :: (decoded final after).1, (decoded final after).2) := by
  unfold decoded
  rw [List.length_cons, decodeFrom]
  simp only [found]
  rw [decode_from_fuel final (first_sequence_replaced found []).1 (Nat.le_refl after.length)]

theorem decoded_incomplete (found : firstSequence lead data = .incomplete) :
    decoded false (lead :: data) = ([], lead :: data) := by
  unfold decoded
  rw [List.length_cons, decodeFrom]
  simp only [found]
  rfl

theorem decoded_append (final : Bool) (first second : List UInt8) :
    decoded final (first ++ second) =
      ((decoded false first).1 ++ (decoded final ((decoded false first).2 ++ second)).1,
        (decoded final ((decoded false first).2 ++ second)).2) := by
  induction size : first.length using Nat.strong_induction_on generalizing first with
  | _ size induction =>
    cases first with
    | nil => rfl
    | cons lead rest =>
      rw [List.length_cons] at size
      cases found : firstSequence lead rest with
      | read code after =>
        obtain ⟨shorter, more⟩ := first_sequence_read found second
        have later := induction after.length (by omega) after rfl
        rw [List.cons_append, decoded_read more, decoded_read found, later]
        rfl
      | replaced after =>
        obtain ⟨shorter, more⟩ := first_sequence_replaced found second
        have later := induction after.length (by omega) after rfl
        rw [List.cons_append, decoded_replaced more, decoded_replaced found, later]
        rfl
      | incomplete =>
        rw [decoded_incomplete found]
        rfl

end Decoding

section Lines

/-- The lines of a text have all its characters but the line boundaries. -/
theorem split_from_flatten (current characters : List Char) :
    (splitFrom current characters).flatten =
      current ++ characters.filter fun c => !isBoundary c := by
  fun_induction splitFrom current characters with
  | case1 current empty =>
    rw [List.isEmpty_iff.mp empty]
    rfl
  | case2 current some => simp
  | case3 current rest induction =>
    rw [List.flatten_cons, induction]
    rfl
  | case4 current c rest other boundary induction =>
    rw [List.flatten_cons, induction, List.filter_cons, boundary]
    rfl
  | case5 current c rest other inside induction =>
    rw [induction, List.filter_cons, if_pos (by simpa using inside), List.append_assoc]
    rfl

def lineBytes (characters : List Char) : List UInt8 :=
  utf8Encode (String.ofList (characters.filter fun c => !isBoundary c))

theorem line_bytes_append (left right : List Char) :
    lineBytes (left ++ right) = lineBytes left ++ lineBytes right := by
  unfold lineBytes
  rw [List.filter_append, String.ofList_append, utf8_encode_append]

theorem lines_bytes (lines : List (List Char)) :
    ((lines.map String.ofList).map utf8Encode).flatten =
      utf8Encode (String.ofList lines.flatten) := by
  induction lines with
  | nil => rfl
  | cons line lines induction =>
    rw [List.map_cons, List.map_cons, List.flatten_cons, induction, List.flatten_cons,
      String.ofList_append, utf8_encode_append]

theorem splitlines_bytes (text : String) :
    ((splitlines text).map utf8Encode).flatten = lineBytes text.toList := by
  unfold splitlines
  rw [lines_bytes, split_from_flatten, List.nil_append]
  rfl

end Lines

section Plain

def Plain (bytes : List UInt8) : Prop :=
  ∀ byte ∈ bytes, byte.toNat < 0x80 ∧ isBoundary (Char.ofNat byte.toNat) = false

def charactersOf (bytes : List UInt8) : List Char := bytes.map fun byte => Char.ofNat byte.toNat

theorem decoded_plain (final : Bool) {bytes : List UInt8} (plain : Plain bytes) :
    decoded final bytes = (charactersOf bytes, []) := by
  induction bytes with
  | nil => rfl
  | cons byte bytes induction =>
    have small := (plain byte List.mem_cons_self).1
    have found : firstSequence byte bytes = .read byte.toNat bytes := if_pos small
    rw [decoded_read found, induction fun other member =>
      plain other (List.mem_cons_of_mem byte member)]
    rfl

theorem utf8_encode_byte {byte : UInt8} (small : byte.toNat < 0x80) :
    utf8Encode (String.ofList [Char.ofNat byte.toNat]) = [byte] := by
  have each : ∀ value : Fin 0x80,
      utf8Encode (String.ofList [Char.ofNat value]) = [UInt8.ofNat value] := by
    decide +kernel
  have known := each ⟨byte.toNat, small⟩
  rwa [UInt8.ofNat_toNat] at known

section

variable {bytes : List UInt8} (plain : Plain bytes)
include plain

theorem utf8_encode_plain :
    utf8Encode (String.ofList (charactersOf bytes)) = bytes := by
  induction bytes with
  | nil => rfl
  | cons byte bytes induction =>
    have small := (plain byte List.mem_cons_self).1
    have rest := induction fun other member => plain other (List.mem_cons_of_mem byte member)
    change utf8Encode (String.ofList ([Char.ofNat byte.toNat] ++ charactersOf bytes)) = _
    rw [String.ofList_append, utf8_encode_append, utf8_encode_byte small, rest]
    rfl

theorem filter_plain :
    (charactersOf bytes).filter (fun c => !isBoundary c) = charactersOf bytes := by
  rw [List.filter_eq_self]
  intro c member
  obtain ⟨byte, listed, same⟩ := List.mem_map.mp member
  rw [← same, (plain byte listed).2]
  rfl

theorem line_bytes_plain :
    lineBytes (charactersOf bytes) = bytes := by
  unfold lineBytes
  rw [filter_plain plain, utf8_encode_plain plain]

theorem splitlines_plain (some : bytes ≠ []) :
    splitlines (String.ofList (charactersOf bytes)) = [String.ofList (charactersOf bytes)] := by
  unfold splitlines
  rw [String.toList_ofList, split_from_unbroken []]
  · rfl
  · intro c member
    obtain ⟨byte, listed, same⟩ := List.mem_map.mp member
    exact same ▸ (plain byte listed).2
  · intro empty
    exact some (List.map_eq_nil_iff.mp empty)

end

end Plain

end Atlaso.Library.TextStreams
