import Atlaso.Kmip.Exceptions
import Atlaso.Library.Numerals
import Mathlib.Data.List.TakeWhile
import Mathlib.Tactic.NormNum

/-!
UUIDs and clock readings as the key store writes and reads them.

`uuidOfText` is Python's `uuid.UUID(text)`: it drops `urn:` and `uuid:`, strips
braces, drops dashes, and hands the 32 remaining characters to `int(_, 16)` with all
that this accepts: space around the number, a plus sign, a `0x` prefix, single
underscores between digits, and the decimal digits of every script.
-/

namespace Atlaso.Kmip.Identifiers

open Exceptions Library.Numerals

structure Uuid where
  value : Nat
  bound : value < 2 ^ 128
  deriving DecidableEq, Repr

/-! ### Reading -/

/-- `text.replace(pattern, "")`; `skip` counts the characters of a match still to drop. -/
def removeAll (pattern : List Char) : Nat → List Char → List Char
  | _, [] => []
  | skip + 1, _ :: chars => removeAll pattern skip chars
  | 0, c :: chars =>
    if pattern.isPrefixOf (c :: chars) then removeAll pattern (pattern.length - 1) chars
    else c :: removeAll pattern 0 chars

def isBrace (c : Char) : Bool := c = '{' || c = '}'

/-- `text.strip("{}")`. -/
def stripBraces (chars : List Char) : List Char :=
  ((chars.dropWhile isBrace).reverse.dropWhile isBrace).reverse

/-- The code points of the zero digits of the scripts that `int` accepts. -/
def decimalZeros : List Nat :=
  [0x660, 0x6f0, 0x7c0, 0x966, 0x9e6, 0xa66, 0xae6, 0xb66, 0xbe6, 0xc66, 0xce6, 0xd66, 0xde6,
    0xe50, 0xed0, 0xf20, 0x1040, 0x1090, 0x17e0, 0x1810, 0x1946, 0x19d0, 0x1a80, 0x1a90,
    0x1b50, 0x1bb0, 0x1c40, 0x1c50, 0xa620, 0xa8d0, 0xa900, 0xa9d0, 0xa9f0, 0xaa50, 0xabf0,
    0xff10, 0x104a0, 0x10d30, 0x10d40, 0x11066, 0x110f0, 0x11136, 0x111d0, 0x112f0, 0x11450,
    0x114d0, 0x11650, 0x116c0, 0x116d0, 0x116da, 0x11730, 0x118e0, 0x11950, 0x11bf0, 0x11c50,
    0x11d50, 0x11da0, 0x11f50, 0x16130, 0x16a60, 0x16ac0, 0x16b50, 0x16d70, 0x1ccf0, 0x1d7ce,
    0x1d7d8, 0x1d7e2, 0x1d7ec, 0x1d7f6, 0x1e140, 0x1e2f0, 0x1e4f0, 0x1e5f1, 0x1e950, 0x1fbf0]

/-- The code points of the spaces outside ASCII. -/
def isWideSpace (code : Nat) : Bool :=
  code = 0x85 || code = 0xa0 || code = 0x1680 || (0x2000 ≤ code && code ≤ 0x200a) ||
    code = 0x2028 || code = 0x2029 || code = 0x202f || code = 0x205f || code = 0x3000

/-- The ASCII form of one character before `int` parses the number. -/
def toAsciiDigit (c : Char) : Char :=
  if c.toNat < 127 then c
  else if isWideSpace c.toNat then ' '
  else
    match decimalZeros.find? fun start => start ≤ c.toNat && c.toNat < start + 10 with
    | some start => Nat.digitChar (c.toNat - start)
    | none => '?'

def isAsciiSpace (c : Char) : Bool :=
  c = ' ' || c = '\t' || c = '\n' || c = '\x0b' || c = '\x0c' || c = '\r'

def isHexDigit (c : Char) : Bool := (digitValue 16 c).isSome

def isNumeralChar (c : Char) : Bool := isHexDigit c || c = '_'

/-- No underscore first, last or next to another one; the flag says that an underscore
would not be accepted here. -/
def underscoresSeparate : Bool → List Char → Bool
  | closed, [] => !closed
  | closed, c :: chars =>
    if c = '_' then !closed && underscoresSeparate true chars
    else underscoresSeparate false chars

def dropSign : List Char → List Char
  | '+' :: chars => chars
  | chars => chars

def dropBasePrefix : List Char → List Char
  | '0' :: 'x' :: '_' :: chars => chars
  | '0' :: 'X' :: '_' :: chars => chars
  | '0' :: 'x' :: chars => chars
  | '0' :: 'X' :: chars => chars
  | chars => chars

/-- `int(text, 16)` on a text without a minus sign; `none` is its `ValueError`. -/
def intOfHex (text : List Char) : Option Nat :=
  let body := dropBasePrefix (dropSign ((text.map toAsciiDigit).dropWhile isAsciiSpace))
  let numeral := body.takeWhile isNumeralChar
  let rest := body.dropWhile isNumeralChar
  if underscoresSeparate true numeral ∧ rest.dropWhile isAsciiSpace = [] then
    numeralValue 16 0 (numeral.filter fun c => c ≠ '_')
  else none

def uuidOfText (text : String) : Option Uuid :=
  let hex := removeAll ['-'] 0 (stripBraces
    (removeAll "uuid:".toList 0 (removeAll "urn:".toList 0 text.toList)))
  if hex.length ≠ 32 then none
  else
    match intOfHex hex with
    | some value => if bound : value < 2 ^ 128 then some ⟨value, bound⟩ else none
    | none => none

/-! ### Writing -/

/-- `str(uuid.UUID(...))`: 32 digits in groups of 8, 4, 4, 4 and 12. -/
def Uuid.text (id : Uuid) : String :=
  let digits := fixedDigits 16 32 id.value
  String.ofList (digits.take 8 ++ '-' :: ((digits.drop 8).take 4 ++ '-' ::
    ((digits.drop 12).take 4 ++ '-' :: ((digits.drop 16).take 4 ++ '-' :: digits.drop 20))))

def validatedUuid (value label : String) : Except Raised String :=
  match uuidOfText value with
  | some id => .ok id.text
  | none => .error (.valueError (label ++ " must be a UUID."))

/-! ### The canonical text is read back -/

/-- A character that the reader keeps and takes for a digit. -/
structure PlainDigit (c : Char) : Prop where
  ascii : toAsciiDigit c = c
  notSpace : isAsciiSpace c = false
  numeral : isNumeralChar c = true
  notBrace : isBrace c = false
  notSyntax : c ∉ ['-', '_', '+', 'x', 'X', 'u']

theorem digit_char_plain (digit : Nat) (bound : digit < 16) :
    PlainDigit (Nat.digitChar digit) := by
  have ascii : ∀ digit < 16, toAsciiDigit (Nat.digitChar digit) = Nat.digitChar digit := by
    decide
  have notSpace : ∀ digit < 16, isAsciiSpace (Nat.digitChar digit) = false := by decide
  have numeral : ∀ digit < 16, isNumeralChar (Nat.digitChar digit) = true := by decide
  have notBrace : ∀ digit < 16, isBrace (Nat.digitChar digit) = false := by decide
  have notSyntax : ∀ digit < 16, Nat.digitChar digit ∉ ['-', '_', '+', 'x', 'X', 'u'] := by
    decide
  exact ⟨ascii digit bound, notSpace digit bound, numeral digit bound, notBrace digit bound,
    notSyntax digit bound⟩

theorem fixed_digits_plain (width value : Nat) :
    ∀ c ∈ fixedDigits 16 width value, PlainDigit c := by
  induction width generalizing value with
  | zero => simp [fixedDigits]
  | succ width induction =>
    intro c member
    rcases List.mem_append.mp member with inFront | isLast
    · exact induction _ c inFront
    · rw [List.mem_singleton.mp isLast]
      exact digit_char_plain _ (Nat.mod_lt _ (by decide))

theorem remove_all_absent (head : Char) (tail chars : List Char) (absent : head ∉ chars) :
    removeAll (head :: tail) 0 chars = chars := by
  induction chars with
  | nil => rfl
  | cons c chars induction =>
    simp only [List.mem_cons, not_or] at absent
    have different : (head :: tail).isPrefixOf (c :: chars) = false := by
      simp [List.isPrefixOf, absent.1]
    rw [removeAll, different, induction absent.2]
    rfl

theorem remove_dash_append (left right : List Char) :
    removeAll ['-'] 0 (left ++ right) = removeAll ['-'] 0 left ++ removeAll ['-'] 0 right := by
  induction left with
  | nil => rfl
  | cons c left induction =>
    simp only [List.cons_append, removeAll, List.isPrefixOf, Bool.and_true, List.length_cons,
      List.length_nil, Nat.zero_add, Nat.sub_self, induction]
    split <;> rfl

theorem strip_braces_absent (chars : List Char) (absent : ∀ c ∈ chars, isBrace c = false) :
    stripBraces chars = chars := by
  have noDrop : ∀ chars : List Char, (∀ c ∈ chars, isBrace c = false) →
      chars.dropWhile isBrace = chars := by
    intro chars absent
    cases chars with
    | nil => rfl
    | cons c chars => simp [absent c (by simp)]
  rw [stripBraces, noDrop chars absent, noDrop chars.reverse (by simpa using absent),
    List.reverse_reverse]

theorem int_of_hex_plain (digits : List Char) (nonempty : digits ≠ [])
    (plain : ∀ c ∈ digits, PlainDigit c) : intOfHex digits = numeralValue 16 0 digits := by
  obtain ⟨first, rest, rfl⟩ := List.exists_cons_of_ne_nil nonempty
  have head := plain first (by simp)
  have ascii : (first :: rest).map toAsciiDigit = first :: rest :=
    (List.map_congr_left fun c member => (plain c member).ascii).trans (List.map_id _)
  have unsigned : dropSign (first :: rest) = first :: rest := by
    unfold dropSign
    split
    · rename_i same
      cases same
      exact absurd head.notSyntax (by decide)
    · rfl
  have unmarked : dropBasePrefix (first :: rest) = first :: rest := by
    have noMark : ∀ c ∈ first :: rest, c ≠ 'x' ∧ c ≠ 'X' := by
      intro c member
      have notSyntax := (plain c member).notSyntax
      constructor
      · rintro rfl
        exact notSyntax (by decide)
      · rintro rfl
        exact notSyntax (by decide)
    unfold dropBasePrefix
    split
    · rename_i same
      exact absurd rfl (noMark 'x' (by simp [same])).1
    · rename_i same
      exact absurd rfl (noMark 'X' (by simp [same])).2
    · rename_i same
      exact absurd rfl (noMark 'x' (by simp [same])).1
    · rename_i same
      exact absurd rfl (noMark 'X' (by simp [same])).2
    · rfl
  have taken : (first :: rest).takeWhile isNumeralChar = first :: rest :=
    List.takeWhile_eq_self_iff.mpr fun c member => (plain c member).numeral
  have dropped : (first :: rest).dropWhile isNumeralChar = [] :=
    List.dropWhile_eq_nil_iff.mpr fun c member => (plain c member).numeral
  have noUnderscore : ∀ c ∈ first :: rest, c ≠ '_' := by
    rintro c member rfl
    exact (plain '_' member).notSyntax (by decide)
  have separate : underscoresSeparate true (first :: rest) = true := by
    have open' : ∀ chars : List Char, (∀ c ∈ chars, c ≠ '_') →
        underscoresSeparate false chars = true := by
      intro chars absent
      induction chars with
      | nil => rfl
      | cons c chars induction =>
        rw [underscoresSeparate, if_neg (absent c (by simp)),
          induction fun other member => absent other (List.mem_cons_of_mem _ member)]
    rw [underscoresSeparate, if_neg (noUnderscore first (by simp)),
      open' rest fun other member => noUnderscore other (List.mem_cons_of_mem _ member)]
  have kept : (first :: rest).filter (fun c => c ≠ '_') = first :: rest :=
    List.filter_eq_self.mpr fun c member => by simpa using noUnderscore c member
  have started : (first :: rest).dropWhile isAsciiSpace = first :: rest := by
    simp [head.notSpace]
  simp only [intOfHex, ascii, started, unsigned, unmarked, taken, dropped, separate, kept,
    List.dropWhile_nil, and_self, if_true]

theorem uuid_of_text_text (id : Uuid) : uuidOfText id.text = some id := by
  have plain := fixed_digits_plain 32 id.value
  have length := fixed_digits_length 16 32 id.value
  set digits := fixedDigits 16 32 id.value with digitsDef
  have pieces : id.text.toList = digits.take 8 ++ '-' :: ((digits.drop 8).take 4 ++ '-' ::
      ((digits.drop 12).take 4 ++ '-' :: ((digits.drop 16).take 4 ++ '-' :: digits.drop 20))) := by
    rw [Uuid.text, String.toList_ofList]
  have chars : ∀ c ∈ id.text.toList, c = '-' ∨ c ∈ digits := by
    intro c member
    rw [pieces] at member
    simp only [List.mem_append, List.mem_cons] at member
    rcases member with front | rfl | front | rfl | front | rfl | front | rfl | back
    · exact .inr (List.mem_of_mem_take front)
    · exact .inl rfl
    · exact .inr (List.mem_of_mem_drop (List.mem_of_mem_take front))
    · exact .inl rfl
    · exact .inr (List.mem_of_mem_drop (List.mem_of_mem_take front))
    · exact .inl rfl
    · exact .inr (List.mem_of_mem_drop (List.mem_of_mem_take front))
    · exact .inl rfl
    · exact .inr (List.mem_of_mem_drop back)
  have noMark : 'u' ∉ id.text.toList := by
    intro member
    rcases chars 'u' member with same | inside
    · cases same
    · exact (plain 'u' inside).notSyntax (by decide)
  have noBrace : ∀ c ∈ id.text.toList, isBrace c = false := by
    intro c member
    rcases chars c member with rfl | inside
    · rfl
    · exact (plain c inside).notBrace
  have dashFree : ∀ part : List Char, (∀ c ∈ part, c ∈ digits) → removeAll ['-'] 0 part = part := by
    intro part inside
    apply remove_all_absent
    intro member
    exact (plain '-' (inside '-' member)).notSyntax (by decide)
  have dash : ∀ part : List Char, removeAll ['-'] 0 ('-' :: part) = removeAll ['-'] 0 part := by
    intro part
    rfl
  have joined : removeAll ['-'] 0 id.text.toList = digits := by
    rw [pieces, remove_dash_append, dash, remove_dash_append, dash, remove_dash_append, dash,
      remove_dash_append, dash,
      dashFree _ fun c member => List.mem_of_mem_take member,
      dashFree _ fun c member => List.mem_of_mem_drop (List.mem_of_mem_take member),
      dashFree _ fun c member => List.mem_of_mem_drop (List.mem_of_mem_take member),
      dashFree _ fun c member => List.mem_of_mem_drop (List.mem_of_mem_take member),
      dashFree _ fun c member => List.mem_of_mem_drop member]
    have step : ∀ start width, (digits.drop start).take width ++ digits.drop (start + width) =
        digits.drop start := by
      intro start width
      rw [← List.drop_drop, List.take_append_drop]
    rw [step 16 4, step 12 4, step 8 4, List.take_append_drop]
  have value : intOfHex digits = some id.value := by
    have nonempty : digits ≠ [] := by
      intro empty
      rw [empty] at length
      cases length
    rw [int_of_hex_plain digits nonempty plain, digitsDef,
      numeral_value_fixed_digits 16 (by decide) (by decide) 32 id.value 0
        (lt_of_lt_of_eq id.bound (by norm_num))]
    simp
  rw [uuidOfText, show "urn:".toList = 'u' :: ['r', 'n', ':'] from rfl,
    remove_all_absent 'u' _ _ noMark, show "uuid:".toList = 'u' :: ['u', 'i', 'd', ':'] from rfl,
    remove_all_absent 'u' _ _ noMark, strip_braces_absent _ noBrace, joined]
  simp only [length, value, ne_eq, not_true, if_false, dif_pos id.bound]

theorem validated_uuid_text (id : Uuid) (label : String) :
    validatedUuid id.text label = .ok id.text := by
  rw [validatedUuid, uuid_of_text_text]

theorem validated_uuid_ok {value label text : String}
    (validated : validatedUuid value label = .ok text) : ∃ id : Uuid, text = id.text := by
  unfold validatedUuid at validated
  cases parsed : uuidOfText value with
  | none =>
    rw [parsed] at validated
    exact absurd validated (by simp)
  | some id =>
    rw [parsed] at validated
    exact ⟨id, (Except.ok.inj validated).symm⟩

theorem validated_uuid_again {value label text : String}
    (validated : validatedUuid value label = .ok text) (other : String) :
    validatedUuid text other = .ok text := by
  obtain ⟨id, rfl⟩ := validated_uuid_ok validated
  exact validated_uuid_text id other

end Atlaso.Kmip.Identifiers
