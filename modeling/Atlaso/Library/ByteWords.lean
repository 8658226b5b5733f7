import Mathlib.Data.List.Induction
import Mathlib.Tactic.Linarith
import Mathlib.Tactic.Ring

/-!
Fixed-width words, padding and text as byte lists.

Words are big-endian and as wide as the caller says; signed words are two's
complement. Text is Lean's `String`, whose bytes are valid UTF-8 by construction,
so the encoder and the decoder are inverse to each other without a side condition.
-/

namespace Atlaso.Library.ByteWords

def toBytesBig : Nat → Nat → List UInt8
  | 0, _ => []
  | width + 1, value => toBytesBig width (value / 256) ++ [UInt8.ofNat (value % 256)]

def fromBytesBig (bytes : List UInt8) : Nat :=
  bytes.foldl (fun value byte => value * 256 + byte.toNat) 0

@[simp] theorem to_bytes_big_length (width value : Nat) :
    (toBytesBig width value).length = width := by
  induction width generalizing value with
  | zero => rfl
  | succ width induction => simp [toBytesBig, induction]

theorem from_bytes_big_snoc (bytes : List UInt8) (byte : UInt8) :
    fromBytesBig (bytes ++ [byte]) = fromBytesBig bytes * 256 + byte.toNat := by
  simp [fromBytesBig]

theorem from_bytes_big_to_bytes_big (width value : Nat) (bound : value < 256 ^ width) :
    fromBytesBig (toBytesBig width value) = value := by
  induction width generalizing value with
  | zero =>
    have zero : value = 0 := by simpa using bound
    simp [toBytesBig, fromBytesBig, zero]
  | succ width induction =>
    have quotient : value / 256 < 256 ^ width := by
      rw [Nat.div_lt_iff_lt_mul (by decide)]
      simpa [pow_succ] using bound
    have digit : (UInt8.ofNat (value % 256)).toNat = value % 256 := by
      rw [UInt8.toNat_ofNat']
      omega
    rw [toBytesBig, from_bytes_big_snoc, induction _ quotient, digit]
    omega

theorem from_bytes_big_lt (bytes : List UInt8) : fromBytesBig bytes < 256 ^ bytes.length := by
  induction bytes using List.reverseRecOn with
  | nil => simp [fromBytesBig]
  | append_singleton bytes byte induction =>
    have digit := byte.toNat_lt
    rw [from_bytes_big_snoc, List.length_append, List.length_singleton, pow_succ]
    omega

theorem to_bytes_big_from_bytes_big (bytes : List UInt8) :
    toBytesBig bytes.length (fromBytesBig bytes) = bytes := by
  induction bytes using List.reverseRecOn with
  | nil => rfl
  | append_singleton bytes byte induction =>
    have digit := byte.toNat_lt
    have quotient : (fromBytesBig bytes * 256 + byte.toNat) / 256 = fromBytesBig bytes := by omega
    have remainder : (fromBytesBig bytes * 256 + byte.toNat) % 256 = byte.toNat := by omega
    rw [from_bytes_big_snoc, List.length_append, List.length_singleton, toBytesBig, quotient,
      remainder, induction, UInt8.ofNat_toNat]

/-- The value a word of `width` bytes has when its top bit is the sign. -/
def unpackSigned (bytes : List UInt8) : Int :=
  let value := fromBytesBig bytes
  if 2 * value < 256 ^ bytes.length then (value : Int) else (value : Int) - 256 ^ bytes.length

/-- Whether a number has a two's complement form of `width` bytes. -/
def FitsSigned (width : Nat) (value : Int) : Prop :=
  -(256 ^ width : Int) ≤ 2 * value ∧ 2 * value < (256 ^ width : Int)

instance (width : Nat) (value : Int) : Decidable (FitsSigned width value) := by
  unfold FitsSigned
  infer_instance

def packSigned (width : Nat) (value : Int) : List UInt8 :=
  toBytesBig width (value % 256 ^ width).toNat

@[simp] theorem pack_signed_length (width : Nat) (value : Int) :
    (packSigned width value).length = width := by
  simp [packSigned]

private theorem signed_residue (modulus : Nat) (value : Int)
    (low : -(modulus : Int) ≤ 2 * value) (high : 2 * value < modulus) :
    (value % (modulus : Int)).toNat < modulus ∧
      (if 2 * (value % (modulus : Int)).toNat < modulus then
        (((value % (modulus : Int)).toNat : Nat) : Int)
      else (((value % (modulus : Int)).toNat : Nat) : Int) - modulus) = value := by
  have positive : (0 : Int) < modulus := by omega
  by_cases sign : 0 ≤ value
  · have residue : value % (modulus : Int) = value := Int.emod_eq_of_lt sign (by omega)
    rw [residue, Int.toNat_of_nonneg sign]
    constructor
    · omega
    · rw [if_pos (by omega)]
  · have residue : value % (modulus : Int) = value + modulus := by
      rw [← Int.add_emod_right]
      exact Int.emod_eq_of_lt (by omega) (by omega)
    rw [residue, Int.toNat_of_nonneg (by omega)]
    constructor
    · omega
    · rw [if_neg (by omega)]
      omega

theorem unpack_signed_pack_signed (width : Nat) (value : Int) (fits : FitsSigned width value) :
    unpackSigned (packSigned width value) = value := by
  have cast : ((256 ^ width : Nat) : Int) = 256 ^ width := by simp
  obtain ⟨bound, residue⟩ := signed_residue (256 ^ width) value
    (by rw [cast]; exact fits.1) (by rw [cast]; exact fits.2)
  rw [cast] at bound residue
  have read : fromBytesBig (packSigned width value) = (value % 256 ^ width).toNat :=
    from_bytes_big_to_bytes_big width _ bound
  simp only [unpackSigned, read, pack_signed_length]
  exact residue

theorem fits_signed_unpack_signed (bytes : List UInt8) :
    FitsSigned bytes.length (unpackSigned bytes) := by
  have bound := from_bytes_big_lt bytes
  have cast : ((256 ^ bytes.length : Nat) : Int) = 256 ^ bytes.length := by simp
  have integral : (fromBytesBig bytes : Int) < 256 ^ bytes.length := by
    rw [← cast]
    exact_mod_cast bound
  simp only [FitsSigned, unpackSigned]
  split_ifs with half
  · have halfInt : 2 * (fromBytesBig bytes : Int) < 256 ^ bytes.length := by
      rw [← cast]
      exact_mod_cast half
    omega
  · have halfInt : (256 ^ bytes.length : Int) ≤ 2 * (fromBytesBig bytes : Int) := by
      rw [← cast]
      exact_mod_cast Nat.le_of_not_lt half
    omega

theorem pack_signed_unpack_signed (bytes : List UInt8) :
    packSigned bytes.length (unpackSigned bytes) = bytes := by
  have bound := from_bytes_big_lt bytes
  have cast : ((256 ^ bytes.length : Nat) : Int) = 256 ^ bytes.length := by simp
  have integral : (fromBytesBig bytes : Int) < 256 ^ bytes.length := by
    rw [← cast]
    exact_mod_cast bound
  have residue : unpackSigned bytes % 256 ^ bytes.length = (fromBytesBig bytes : Int) := by
    simp only [unpackSigned]
    split_ifs
    · exact Int.emod_eq_of_lt (by omega) integral
    · rw [Int.sub_emod_right]
      exact Int.emod_eq_of_lt (by omega) integral
  rw [packSigned, residue, Int.toNat_natCast, to_bytes_big_from_bytes_big]

/-- The bytes missing to the next multiple of `block`. -/
def paddingLength (block length : Nat) : Nat := (block - length % block) % block

def utf8Encode (text : String) : List UInt8 := text.toByteArray.data.toList

def utf8Decode (bytes : List UInt8) : Option String := String.fromUTF8? ⟨bytes.toArray⟩

theorem utf8_encode_append (left right : String) :
    utf8Encode (left ++ right) = utf8Encode left ++ utf8Encode right := by
  simp [utf8Encode, String.toByteArray_append]

@[simp] theorem utf8_decode_encode (text : String) :
    utf8Decode (utf8Encode text) = some text := by
  simp [utf8Decode, utf8Encode, String.fromUTF8?, text.isValidUTF8, String.fromUTF8]

theorem utf8_encode_decode {bytes : List UInt8} {text : String}
    (decoded : utf8Decode bytes = some text) : utf8Encode text = bytes := by
  simp only [utf8Decode, String.fromUTF8?] at decoded
  split at decoded
  · cases decoded
    simp [utf8Encode, String.fromUTF8]
  · contradiction

theorem utf8_encode_injective : Function.Injective utf8Encode := by
  intro left right same
  have decoded := congrArg utf8Decode same
  simpa using decoded

end Atlaso.Library.ByteWords
