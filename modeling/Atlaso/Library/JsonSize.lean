import Atlaso.Library.Base64
import Atlaso.Library.ByteWords
import Atlaso.Library.JsonOrder

/-!
The size of a JSON rendering in UTF-8: it is ASCII, so it has one byte for each character.
-/

namespace Atlaso.Library.JsonSize

open Base64 ByteWords JsonOrder JsonText

def Ascii (chars : List Char) : Prop := ∀ c ∈ chars, c.toNat < 128

theorem ascii_append {left right : List Char} (leftAscii : Ascii left) (rightAscii : Ascii right) :
    Ascii (left ++ right) := by
  intro c inside
  rcases List.mem_append.mp inside with inLeft | inRight
  · exact leftAscii c inLeft
  · exact rightAscii c inRight

theorem utf8_length_ascii {chars : List Char} (ascii : Ascii chars) :
    (utf8Encode (String.ofList chars)).length = chars.length := by
  have bytes : ∀ chars, Ascii chars → (chars.utf8Encode).size = chars.length := by
    intro chars
    induction chars with
    | nil => intro _; rfl
    | cons head tail induction =>
      intro ascii
      have one : head.utf8Size = 1 := by
        have small := ascii head List.mem_cons_self
        rw [Char.utf8Size_eq_one_iff]
        exact UInt32.le_iff_toNat_le.mpr (Nat.le_of_lt_succ small)
      have rest := induction fun c inside => ascii c (List.mem_cons_of_mem _ inside)
      rw [List.utf8Encode_cons, ByteArray.size_append, rest, List.utf8Encode_singleton]
      simp [one]
      omega
  rw [utf8Encode, String.toByteArray_ofList, Array.length_toList]
  exact bytes chars ascii

theorem digit_char_ascii (digit : Nat) : (Nat.digitChar digit).toNat < 128 := by
  by_cases small : digit < 16
  · have each : ∀ digit < 16, (Nat.digitChar digit).toNat < 128 := by decide
    exact each digit small
  · have star : Nat.digitChar digit = '*' := by
      unfold Nat.digitChar
      repeat rw [if_neg (by omega)]
    rw [star]
    decide

theorem escape_unit_ascii (unit : Nat) : Ascii (escapeUnit unit) := by
  intro c inside
  simp only [escapeUnit, List.mem_cons, List.not_mem_nil, or_false] at inside
  rcases inside with rfl | rfl | rfl | rfl | rfl | rfl
  · decide
  · decide
  all_goals exact digit_char_ascii _

theorem escape_char_ascii (c : Char) : Ascii (escapeChar c) := by
  have pair : ∀ d : Char, d.toNat < 128 → Ascii ['\\', d] := by
    intro d small e inside
    rcases List.mem_cons.mp inside with rfl | last
    · decide
    · rw [List.mem_singleton.mp last]
      exact small
  unfold escapeChar
  split_ifs with _ _ _ _ _ _ _ printable
  · exact pair _ (by decide)
  · exact pair _ (by decide)
  · exact pair _ (by decide)
  · exact pair _ (by decide)
  · exact pair _ (by decide)
  · exact pair _ (by decide)
  · exact pair _ (by decide)
  · intro d inside
    rw [List.mem_singleton.mp inside]
    omega
  · exact escape_unit_ascii _
  · exact ascii_append (escape_unit_ascii _) (escape_unit_ascii _)

theorem ascii_cons {head : Char} {tail : List Char} (small : head.toNat < 128)
    (rest : Ascii tail) : Ascii (head :: tail) :=
  List.forall_mem_cons.mpr ⟨small, rest⟩

theorem quote_ascii (text : String) : Ascii (quote text) := by
  refine ascii_cons (by decide) (ascii_append ?_ (ascii_cons (by decide) (by simp [Ascii])))
  intro c inside
  obtain ⟨source, -, escaped⟩ := List.mem_flatMap.mp inside
  exact escape_char_ascii source c escaped

theorem digits_ascii (value : Nat) : Ascii (Nat.toDigits 10 value) := by
  intro c inside
  have digit := Nat.isDigit_of_mem_toDigits (by decide) (by decide) inside
  simp only [Char.isDigit, Bool.and_eq_true, decide_eq_true_eq] at digit
  have upper := UInt32.le_iff_toNat_le.mp digit.2
  exact lt_of_le_of_lt upper (by decide)

theorem join_with_ascii {texts : List (List Char)} (each : ∀ text ∈ texts, Ascii text) :
    Ascii (joinWith ',' texts) := by
  induction texts with
  | nil => simp [joinWith, Ascii]
  | cons first rest induction =>
    have later := induction fun text inside => each text (List.mem_cons_of_mem _ inside)
    cases rest with
    | nil => exact each first List.mem_cons_self
    | cons second rest =>
      exact ascii_append (each first List.mem_cons_self) (ascii_cons (by decide) later)

theorem render_ascii {document : Json} (canonical : Canonical document) :
    Ascii (render document) := by
  induction document using Json.nested_induction with
  | null => exact List.forall_iff_forall_mem.mp (by decide)
  | bool value => cases value <;> exact List.forall_iff_forall_mem.mp (by decide)
  | int value =>
    cases value with
    | ofNat value => exact digits_ascii value
    | negSucc value => exact ascii_cons (by decide) (digits_ascii _)
  | real literal => exact canonical.elim
  | string value => exact quote_ascii value
  | array items induction =>
    refine ascii_cons (by decide) (ascii_append (join_with_ascii ?_)
      (ascii_cons (by decide) (by simp [Ascii])))
    intro text inside
    rw [render_items_map] at inside
    obtain ⟨item, member, rfl⟩ := List.mem_map.mp inside
    exact induction item member (canonical_item canonical item member)
  | object members induction =>
    rw [render_object_sorted members canonical.1]
    refine ascii_cons (by decide) (ascii_append (join_with_ascii ?_)
      (ascii_cons (by decide) (by simp [Ascii])))
    intro text inside
    obtain ⟨member, belongs, rfl⟩ := List.mem_map.mp inside
    exact ascii_append (quote_ascii _) (ascii_cons (by decide)
      (induction member belongs (canonical_member canonical.2 member belongs)))

/-! ### Lengths -/

theorem join_with_length (texts : List (List Char)) :
    (joinWith ',' texts).length ≤ (texts.map fun text => text.length + 1).sum := by
  induction texts with
  | nil => simp [joinWith]
  | cons first rest induction =>
    cases rest with
    | nil => simp [joinWith]
    | cons second rest =>
      simp only [joinWith, List.length_append, List.length_cons, List.map_cons,
        List.sum_cons] at induction ⊢
      omega

theorem render_object_length (members : List (String × Json)) :
    (render (.object members)).length ≤
      2 + (members.map fun member => (memberText member).length + 1).sum := by
  have joined := join_with_length (((renderMembers members).insertionSort fun left right =>
    left.1 ≤ right.1).map fun member => quote member.1 ++ ':' :: member.2)
  have order : ((renderMembers members).insertionSort fun left right =>
      left.1 ≤ right.1).Perm (renderMembers members) := List.perm_insertionSort _ _
  rw [List.map_map, ((order.map _).sum_nat), render_members_map, List.map_map] at joined
  rw [render, render_members_map]
  simp only [List.length_cons, List.length_append, List.length_nil]
  simp only [Function.comp_def] at joined
  simp only [memberText]
  omega

theorem dumps_size {document : Json} (plain : Plain document) :
    (utf8Encode (dumps document)).length = (render document).length := by
  refine utf8_length_ascii ?_
  rw [← render_sort_keys plain]
  exact render_ascii (sort_keys_canonical plain)

/-- A text that the renderer does not escape. -/
def Unescaped (chars : List Char) : Prop := ∀ c ∈ chars, escapeChar c = [c]

theorem quote_length {text : String} (unescaped : Unescaped text.toList) :
    (quote text).length = text.toList.length + 2 := by
  have whole : text.toList.flatMap escapeChar = text.toList := by
    have each := List.flatMap_congr (g := fun c => [c]) unescaped
    rw [each, List.flatMap_singleton']
  simp [quote, whole]

theorem digit_unescaped (value : Nat) : escapeChar (digit value) = [digit value] := by
  have each : ∀ value < 64, escapeChar (digit value) = [digit value] := by decide
  by_cases small : value < 64
  · exact each value small
  · have last : digit value = '/' := by
      unfold digit
      repeat rw [if_neg (by omega)]
    rw [last]
    rfl

theorem base64_unescaped (data : List UInt8) : Unescaped (encodeBytes data) := by
  induction data using encodeBytes.induct with
  | case1 => simp [encodeBytes, Unescaped]
  | case2 a =>
    simp only [encodeBytes, Unescaped, List.forall_mem_cons, digit_unescaped, true_and]
    simp [escapeChar]
  | case3 a b =>
    simp only [encodeBytes, Unescaped, List.forall_mem_cons, digit_unescaped, true_and]
    simp [escapeChar]
  | case4 a b c rest induction =>
    simp only [encodeBytes, Unescaped, List.forall_mem_cons, digit_unescaped, true_and]
    exact induction

theorem base64_length (data : List UInt8) :
    (encodeBytes data).length = (data.length + 2) / 3 * 4 := by
  induction data using encodeBytes.induct with
  | case1 => rfl
  | case2 a => simp [encodeBytes]
  | case3 a b => simp [encodeBytes]
  | case4 a b c rest induction =>
    simp only [encodeBytes, List.length_cons, induction]
    omega

theorem quote_base64_length (data : List UInt8) :
    (quote (b64encode data)).length = (data.length + 2) / 3 * 4 + 2 := by
  rw [quote_length, b64encode, String.toList_ofList, base64_length]
  rw [b64encode, String.toList_ofList]
  exact base64_unescaped data

theorem render_int_length {value digits : Nat} (small : value < 10 ^ digits) (some : 0 < digits) :
    (render (.int value)).length ≤ digits := by
  show (Nat.toDigits 10 value).length ≤ digits
  exact (Nat.length_toDigits_le_iff (by decide) some).mpr small

end Atlaso.Library.JsonSize
