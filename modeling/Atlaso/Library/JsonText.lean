import Atlaso.Library.Dictionary
import Mathlib.Data.List.Induction
import Mathlib.Data.List.Sort
import Mathlib.Data.String.Basic

/-!
JSON documents, their compact ASCII rendering with sorted keys, and a reader.

The renderer is `json.dumps(value, separators=(",", ":"), sort_keys=True)`: every
character outside printable ASCII is written as one `\uXXXX` unit or as a surrogate
pair. The reader is `json.loads`. Numbers with a fraction or an exponent keep their
text. An unpaired surrogate escape has no Lean character, so the reader rejects it.
-/

namespace Atlaso.Library.JsonText

open Dictionary

inductive Json where
  | null
  | bool (value : Bool)
  | int (value : Int)
  | real (literal : List Char)
  | string (value : String)
  | array (items : List Json)
  | object (members : List (String × Json))

theorem Json.nested_induction {motive : Json → Prop} (null : motive .null)
    (bool : ∀ value, motive (.bool value)) (int : ∀ value, motive (.int value))
    (real : ∀ literal, motive (.real literal)) (string : ∀ value, motive (.string value))
    (array : ∀ items, (∀ item ∈ items, motive item) → motive (.array items))
    (object : ∀ members, (∀ member ∈ members, motive member.2) → motive (.object members))
    (document : Json) : motive document :=
  @Json.rec motive (fun items => ∀ item ∈ items, motive item)
    (fun members => ∀ member ∈ members, motive member.2) (fun member => motive member.2)
    null bool int real string array object (by simp)
    (by
      intro head tail headHolds tailHolds item member
      rcases List.mem_cons.mp member with rfl | inTail
      · exact headHolds
      · exact tailHolds item inTail)
    (by simp)
    (by
      intro head tail headHolds tailHolds item member
      rcases List.mem_cons.mp member with rfl | inTail
      · exact headHolds
      · exact tailHolds item inTail)
    (fun _ _ holds => holds) document

/-! ### Rendering -/

def escapeUnit (unit : Nat) : List Char :=
  ['\\', 'u', Nat.digitChar (unit / 4096), Nat.digitChar (unit / 256 % 16),
    Nat.digitChar (unit / 16 % 16), Nat.digitChar (unit % 16)]

def escapeChar (c : Char) : List Char :=
  if c = '"' then ['\\', '"']
  else if c = '\\' then ['\\', '\\']
  else if c = '\n' then ['\\', 'n']
  else if c = '\r' then ['\\', 'r']
  else if c = '\t' then ['\\', 't']
  else if c = '\x08' then ['\\', 'b']
  else if c = '\x0c' then ['\\', 'f']
  else if 0x20 ≤ c.toNat ∧ c.toNat ≤ 0x7e then [c]
  else if c.toNat < 0x10000 then escapeUnit c.toNat
  else escapeUnit (0xd800 + (c.toNat - 0x10000) / 1024) ++
    escapeUnit (0xdc00 + (c.toNat - 0x10000) % 1024)

def quote (text : String) : List Char :=
  '"' :: (text.toList.flatMap escapeChar ++ ['"'])

def renderInt : Int → List Char
  | .ofNat value => Nat.toDigits 10 value
  | .negSucc value => '-' :: Nat.toDigits 10 (value + 1)

def joinWith (separator : Char) : List (List Char) → List Char
  | [] => []
  | [only] => only
  | first :: second :: rest => first ++ separator :: joinWith separator (second :: rest)

mutual

def render : Json → List Char
  | .null => ['n', 'u', 'l', 'l']
  | .bool true => ['t', 'r', 'u', 'e']
  | .bool false => ['f', 'a', 'l', 's', 'e']
  | .int value => renderInt value
  | .real literal => literal
  | .string value => quote value
  | .array items => '[' :: (joinWith ',' (renderItems items) ++ [']'])
  | .object members =>
    '{' :: (joinWith ',' (((renderMembers members).insertionSort fun left right =>
      left.1 ≤ right.1).map fun member => quote member.1 ++ ':' :: member.2) ++ ['}'])

def renderItems : List Json → List (List Char)
  | [] => []
  | item :: items => render item :: renderItems items

def renderMembers : List (String × Json) → List (String × List Char)
  | [] => []
  | (key, value) :: members => (key, render value) :: renderMembers members

end

def dumps (document : Json) : String := String.ofList (render document)

/-! ### Reading -/

def hexValue (c : Char) : Option Nat :=
  if '0' ≤ c ∧ c ≤ '9' then some (c.toNat - 48)
  else if 'a' ≤ c ∧ c ≤ 'f' then some (c.toNat - 87)
  else if 'A' ≤ c ∧ c ≤ 'F' then some (c.toNat - 55)
  else none

def simpleEscape (c : Char) : Option Nat :=
  if c = '"' then some 0x22
  else if c = '\\' then some 0x5c
  else if c = '/' then some 0x2f
  else if c = 'b' then some 0x08
  else if c = 'f' then some 0x0c
  else if c = 'n' then some 0x0a
  else if c = 'r' then some 0x0d
  else if c = 't' then some 0x09
  else none

def scanUnits : List Char → Option (List Nat × List Char)
  | [] => none
  | head :: rest =>
    if head = '"' then some ([], rest)
    else if head = '\\' then
      match rest with
      | [] => none
      | escape :: rest =>
        if escape = 'u' then
          match rest with
          | a :: b :: c :: d :: rest => do
              let a ← hexValue a
              let b ← hexValue b
              let c ← hexValue c
              let d ← hexValue d
              let (units, after) ← scanUnits rest
              some ((a * 4096 + b * 256 + c * 16 + d) :: units, after)
          | _ => none
        else do
          let unit ← simpleEscape escape
          let (units, after) ← scanUnits rest
          some (unit :: units, after)
    else if head.toNat < 0x20 then none
    else do
      let (units, after) ← scanUnits rest
      some (head.toNat :: units, after)

/-- Surrogate pairs become one character; an unpaired surrogate is rejected. -/
def joinUnits : List Nat → Option (List Char)
  | [] => some []
  | unit :: units =>
    if 0xd800 ≤ unit ∧ unit ≤ 0xdfff then
      match units with
      | low :: others =>
        if unit ≤ 0xdbff ∧ 0xdc00 ≤ low ∧ low ≤ 0xdfff then
          (joinUnits others).map
            (Char.ofNat (0x10000 + (unit - 0xd800) * 1024 + (low - 0xdc00)) :: ·)
        else none
      | [] => none
    else (joinUnits units).map (Char.ofNat unit :: ·)

def parseString (chars : List Char) : Option (String × List Char) := do
  let (units, rest) ← scanUnits chars
  let text ← joinUnits units
  some (String.ofList text, rest)

def isSpace (c : Char) : Bool := c = ' ' || c = '\t' || c = '\n' || c = '\r'

def skipSpace (chars : List Char) : List Char := chars.dropWhile isSpace

def realSuffix (chars : List Char) : List Char :=
  let fraction := match chars with
    | '.' :: rest =>
      let digits := rest.takeWhile Char.isDigit
      if digits = [] then [] else '.' :: digits
    | _ => []
  let afterFraction := chars.drop fraction.length
  let exponent := match afterFraction with
    | mark :: rest =>
      if mark = 'e' ∨ mark = 'E' then
        let sign := match rest with
          | '+' :: _ => ['+']
          | '-' :: _ => ['-']
          | _ => []
        let digits := (rest.drop sign.length).takeWhile Char.isDigit
        if digits = [] then [] else mark :: sign ++ digits
      else []
    | [] => []
  fraction ++ exponent

def integerDigits (chars : List Char) : List Char :=
  match chars.takeWhile Char.isDigit with
  | '0' :: _ => ['0']
  | digits => digits

def parseNatural (negative : Bool) (chars : List Char) : Option (Json × List Char) :=
  let digits := integerDigits chars
  let rest := chars.drop digits.length
  let sign := if negative then ['-'] else []
  if digits = [] then none
  else if realSuffix rest = [] then
    let value : Int := Nat.ofDigitChars 10 digits 0
    some (.int (if negative then -value else value), rest)
  else some (.real (sign ++ digits ++ realSuffix rest), rest.drop (realSuffix rest).length)

def parseNumber : List Char → Option (Json × List Char)
  | '-' :: rest => parseNatural true rest
  | chars => parseNatural false chars

/-- The values that are not delimited: the three names, a number, or one of the
constants Python adds to the grammar. -/
def parseWord (chars : List Char) : Option (Json × List Char) :=
  if "null".toList.isPrefixOf chars then some (.null, chars.drop 4)
  else if "true".toList.isPrefixOf chars then some (.bool true, chars.drop 4)
  else if "false".toList.isPrefixOf chars then some (.bool false, chars.drop 5)
  else
    match parseNumber chars with
    | some parsed => some parsed
    | none =>
      if "NaN".toList.isPrefixOf chars then some (.real "NaN".toList, chars.drop 3)
      else if "Infinity".toList.isPrefixOf chars then
        some (.real "Infinity".toList, chars.drop 8)
      else if "-Infinity".toList.isPrefixOf chars then
        some (.real "-Infinity".toList, chars.drop 9)
      else none

mutual

/-- One value at the front of the text. The fuel bounds the number of values. -/
def parseValue : Nat → List Char → Option (Json × List Char)
  | 0, _ => none
  | _ + 1, [] => none
  | fuel + 1, head :: rest =>
    if head = '"' then do
      let (text, after) ← parseString rest
      some (.string text, after)
    else if head = '{' then
      if (skipSpace rest).head? = some '}' then some (.object [], (skipSpace rest).tail)
      else do
        let (pairs, after) ← parseMembers fuel (skipSpace rest)
        some (.object (ofPairs pairs), after)
    else if head = '[' then
      if (skipSpace rest).head? = some ']' then some (.array [], (skipSpace rest).tail)
      else do
        let (items, after) ← parseItems fuel (skipSpace rest)
        some (.array items, after)
    else parseWord (head :: rest)

def parseItems : Nat → List Char → Option (List Json × List Char)
  | 0, _ => none
  | fuel + 1, chars => do
      let (item, rest) ← parseValue fuel chars
      match skipSpace rest with
      | [] => none
      | mark :: after =>
        if mark = ']' then some ([item], after)
        else if mark = ',' then do
          let (items, after) ← parseItems fuel (skipSpace after)
          some (item :: items, after)
        else none

def parseMembers : Nat → List Char → Option (List (String × Json) × List Char)
  | 0, _ => none
  | fuel + 1, chars => do
      guard (chars.head? = some '"')
      let (key, afterKey) ← parseString chars.tail
      guard ((skipSpace afterKey).head? = some ':')
      let (value, afterValue) ← parseValue fuel (skipSpace (skipSpace afterKey).tail)
      match skipSpace afterValue with
      | [] => none
      | mark :: after =>
        if mark = '}' then some ([(key, value)], after)
        else if mark = ',' then do
          let (members, after) ← parseMembers fuel (skipSpace after)
          some ((key, value) :: members, after)
        else none

end

def loads (text : String) : Option Json := do
  let (document, rest) ← parseValue (text.length + 1) (skipSpace text.toList)
  if skipSpace rest = [] then some document else none

/-! ### Strings read back -/

section

-- generates the equations of the scanners before the proofs that share them
attribute [local simp] scanUnits joinUnits

end

theorem hex_value_digit_char : ∀ digit < 16, hexValue (Nat.digitChar digit) = some digit := by
  decide

theorem scan_units_escape_unit (unit : Nat) (bound : unit < 0x10000) (rest : List Char) :
    scanUnits (escapeUnit unit ++ rest) =
      (scanUnits rest).map fun scanned => (unit :: scanned.1, scanned.2) := by
  have value : unit / 4096 * 4096 + unit / 256 % 16 * 256 + unit / 16 % 16 * 16 + unit % 16 =
      unit := by omega
  simp only [escapeUnit, List.cons_append, List.nil_append, scanUnits,
    hex_value_digit_char (unit / 4096) (by omega),
    hex_value_digit_char (unit / 256 % 16) (by omega),
    hex_value_digit_char (unit / 16 % 16) (by omega),
    hex_value_digit_char (unit % 16) (by omega)]
  cases scanUnits rest <;> simp [value]

/-- The UTF-16 form of a character. -/
def charUnits (c : Char) : List Nat :=
  if c.toNat < 0x10000 then [c.toNat]
  else [0xd800 + (c.toNat - 0x10000) / 1024, 0xdc00 + (c.toNat - 0x10000) % 1024]

theorem char_bound (c : Char) : c.toNat < 0x110000 := by
  have valid := c.valid
  rcases valid with low | high
  · exact lt_trans low (by decide)
  · exact high.2

theorem scan_units_plain (c : Char) (rest : List Char) (quoteFree : c ≠ '"')
    (backslashFree : c ≠ '\\') (visible : 0x20 ≤ c.toNat) :
    scanUnits (c :: rest) =
      (scanUnits rest).map fun scanned => (c.toNat :: scanned.1, scanned.2) := by
  rw [scanUnits.eq_def]
  simp only [if_neg quoteFree, if_neg backslashFree, if_neg (Nat.not_lt.mpr visible)]
  cases scanUnits rest <;> rfl

theorem scan_units_escape_char (c : Char) (rest : List Char) :
    scanUnits (escapeChar c ++ rest) =
      (scanUnits rest).map fun scanned => (charUnits c ++ scanned.1, scanned.2) := by
  have simple : ∀ escape unit, simpleEscape escape = some unit → escape ≠ 'u' →
      scanUnits ('\\' :: escape :: rest) =
        (scanUnits rest).map fun scanned => (unit :: scanned.1, scanned.2) := by
    intro escape unit known notUnit
    rw [scanUnits.eq_def]
    simp only [if_neg notUnit, known, if_neg (show ('\\' : Char) ≠ '"' by decide), if_true]
    cases scanUnits rest <;> rfl
  unfold escapeChar
  split_ifs with quoted slash newline carriage tab back feed visible basic
  · subst quoted
    exact simple '"' 0x22 rfl (by decide)
  · subst slash
    exact simple '\\' 0x5c rfl (by decide)
  · subst newline
    exact simple 'n' 0x0a rfl (by decide)
  · subst carriage
    exact simple 'r' 0x0d rfl (by decide)
  · subst tab
    exact simple 't' 0x09 rfl (by decide)
  · subst back
    exact simple 'b' 0x08 rfl (by decide)
  · subst feed
    exact simple 'f' 0x0c rfl (by decide)
  · have units : charUnits c = [c.toNat] := if_pos (by omega)
    rw [units]
    exact scan_units_plain c rest quoted slash visible.1
  · have units : charUnits c = [c.toNat] := if_pos basic
    rw [units]
    exact scan_units_escape_unit c.toNat basic rest
  · have bound := char_bound c
    rw [charUnits, if_neg basic, List.append_assoc, scan_units_escape_unit _ (by omega),
      scan_units_escape_unit _ (by omega)]
    cases scanUnits rest <;> rfl

theorem scan_units_quoted (text rest : List Char) :
    scanUnits (text.flatMap escapeChar ++ '"' :: rest) = some (text.flatMap charUnits, rest) := by
  induction text with
  | nil => simp [scanUnits.eq_def]
  | cons c text induction =>
    rw [List.flatMap_cons, List.append_assoc, scan_units_escape_char, induction]
    rfl

theorem join_units_plain (unit : Nat) (units : List Nat)
    (notSurrogate : ¬(0xd800 ≤ unit ∧ unit ≤ 0xdfff)) :
    joinUnits (unit :: units) = (joinUnits units).map (Char.ofNat unit :: ·) := by
  cases units with
  | nil => simp only [joinUnits, if_neg notSurrogate]
  | cons low others => simp only [joinUnits, if_neg notSurrogate]

theorem join_units_char_units (text : List Char) :
    joinUnits (text.flatMap charUnits) = some text := by
  induction text with
  | nil => rfl
  | cons c text induction =>
    rw [List.flatMap_cons]
    have bound := char_bound c
    by_cases basic : c.toNat < 0x10000
    · have units : charUnits c = [c.toNat] := if_pos basic
      have notSurrogate : ¬(0xd800 ≤ c.toNat ∧ c.toNat ≤ 0xdfff) := by
        rcases c.valid with low | high
        · have below : c.toNat < 0xd800 := low
          omega
        · have above : 0xdfff < c.toNat := high.1
          omega
      rw [units, List.singleton_append, join_units_plain _ _ notSurrogate, induction,
        Char.ofNat_toNat]
      rfl
    · have high : 0xd800 ≤ 0xd800 + (c.toNat - 0x10000) / 1024 ∧
          0xd800 + (c.toNat - 0x10000) / 1024 ≤ 0xdfff := by omega
      have pair : 0xd800 + (c.toNat - 0x10000) / 1024 ≤ 0xdbff ∧
          0xdc00 ≤ 0xdc00 + (c.toNat - 0x10000) % 1024 ∧
            0xdc00 + (c.toNat - 0x10000) % 1024 ≤ 0xdfff := by omega
      have value : 0x10000 + (0xd800 + (c.toNat - 0x10000) / 1024 - 0xd800) * 1024 +
          (0xdc00 + (c.toNat - 0x10000) % 1024 - 0xdc00) = c.toNat := by omega
      rw [charUnits, if_neg basic, List.cons_append, List.singleton_append, joinUnits,
        if_pos high]
      simp only [if_pos pair, value, induction, Char.ofNat_toNat, Option.map_some]

theorem parse_string_quoted (text : String) (rest : List Char) :
    parseString (text.toList.flatMap escapeChar ++ '"' :: rest) = some (text, rest) := by
  simp [parseString, scan_units_quoted, join_units_char_units]

/-! ### Numbers read back -/

/-- The text after a rendered value: the end, a separator of the enclosing value, or the
end of the line. -/
def Delimited (rest : List Char) : Prop :=
  ∀ c ∈ rest.head?, c = ',' ∨ c = ']' ∨ c = '}' ∨ c = '\n'

theorem to_digits_shape (value : Nat) :
    ∃ head tail, Nat.toDigits 10 value = head :: tail ∧
      (∀ c ∈ head :: tail, c.isDigit = true) ∧ (head = '0' → tail = []) := by
  obtain ⟨head, tail, shape⟩ := List.exists_cons_of_ne_nil (Nat.toDigits_ne_nil (b := 10)
    (n := value))
  refine ⟨head, tail, shape, ?_, ?_⟩
  · intro c member
    rw [← shape] at member
    exact Nat.isDigit_of_mem_toDigits (by decide) (by decide) member
  · intro zero
    subst zero
    -- Dropping the leading zero keeps the value, and the shorter word is too short for it.
    have parsed := Nat.ofDigitChars_ten_toDigits (n := value)
    have length := (Nat.length_toDigits_le_iff (b := 10) (n := value) (k := tail.length)
      (by decide))
    rw [shape] at parsed length
    rw [Nat.ofDigitChars_cons] at parsed
    by_contra nonempty
    have positive := List.length_pos_iff.mpr nonempty
    have digits : ∀ c ∈ tail, c.isDigit = true := by
      intro c member
      exact Nat.isDigit_of_mem_toDigits (b := 10) (n := value) (by decide) (by decide)
        (by rw [shape]; simp [member])
    have small : Nat.ofDigitChars 10 tail 0 < 10 ^ tail.length := by
      clear parsed length shape nonempty positive
      induction tail using List.reverseRecOn with
      | nil => simp
      | append_singleton tail c induction =>
        have digit := digits c (by simp)
        have rest := induction (fun other member => digits other (by simp [member]))
        rw [Nat.ofDigitChars_append, Nat.ofDigitChars_cons, Nat.ofDigitChars_nil,
          List.length_append, List.length_singleton, pow_succ]
        simp only [Char.isDigit, ge_iff_le, Bool.and_eq_true, decide_eq_true_eq] at digit
        have upper : c.toNat ≤ 57 := digit.2
        have lower : 48 ≤ c.toNat := digit.1
        have zeroCode : '0'.toNat = 48 := rfl
        omega
    have start : Nat.ofDigitChars 10 tail (10 * 0 + ('0'.toNat - '0'.toNat)) =
        Nat.ofDigitChars 10 tail 0 := rfl
    rw [start] at parsed
    rw [parsed] at small
    have short := (length positive).mpr small
    simp at short

theorem digit_not_delimiter {c : Char}
    (delimiter : c = ',' ∨ c = ']' ∨ c = '}' ∨ c = '\n') : c.isDigit = false := by
  rcases delimiter with rfl | rfl | rfl | rfl <;> rfl

theorem integer_digits_to_digits (value : Nat) (rest : List Char) (stop : Delimited rest) :
    integerDigits (Nat.toDigits 10 value ++ rest) = Nat.toDigits 10 value := by
  obtain ⟨head, tail, shape, digits, leading⟩ := to_digits_shape value
  have stopped : rest.takeWhile Char.isDigit = [] := by
    cases rest with
    | nil => rfl
    | cons c rest =>
      have delimiter := digit_not_delimiter (stop c rfl)
      simp [delimiter]
  have taken : (Nat.toDigits 10 value ++ rest).takeWhile Char.isDigit =
      Nat.toDigits 10 value := by
    rw [shape, List.takeWhile_append_of_pos digits, stopped, List.append_nil]
  unfold integerDigits
  rw [taken, shape]
  split
  · rename_i same
    cases same
    rw [leading rfl]
  · rfl

theorem real_suffix_delimited (rest : List Char) (stop : Delimited rest) :
    realSuffix rest = [] := by
  cases rest with
  | nil => rfl
  | cons c rest =>
    rcases stop c rfl with rfl | rfl | rfl | rfl <;> rfl

theorem parse_natural_to_digits (negative : Bool) (value : Nat) (rest : List Char)
    (stop : Delimited rest) :
    parseNatural negative (Nat.toDigits 10 value ++ rest) =
      some (.int (if negative then -(value : Int) else value), rest) := by
  have digits := integer_digits_to_digits value rest stop
  simp only [parseNatural, digits, List.drop_left, real_suffix_delimited rest stop,
    Nat.toDigits_ne_nil, if_false, if_true, Nat.ofDigitChars_ten_toDigits]

theorem parse_word_render_int (value : Int) (rest : List Char) (stop : Delimited rest) :
    parseWord (renderInt value ++ rest) = some (.int value, rest) := by
  have plain : ∀ head tail, head ≠ 'n' → head ≠ 't' → head ≠ 'f' →
      parseNumber (head :: tail) = some (.int value, rest) →
        parseWord (head :: tail) = some (.int value, rest) := by
    intro head tail notNull notTrue notFalse parsed
    simp [parseWord, parsed, notNull.symm, notTrue.symm, notFalse.symm]
  cases value with
  | ofNat value =>
    obtain ⟨head, tail, shape, digits, -⟩ := to_digits_shape value
    have digit := digits head (by simp)
    have parsed := parse_natural_to_digits false value rest stop
    simp only [renderInt, shape, List.cons_append] at parsed ⊢
    apply plain
    · rintro rfl
      cases digit
    · rintro rfl
      cases digit
    · rintro rfl
      cases digit
    · rw [parseNumber]
      · exact parsed
      · intro other same
        cases same
        cases digit
  | negSucc value =>
    have parsed := parse_natural_to_digits true (value + 1) rest stop
    exact plain '-' _ (by decide) (by decide) (by decide) parsed

/-! ### Documents read back -/

mutual

/-- Documents without fractional numbers whose objects list their keys in strictly
increasing order. -/
def Canonical : Json → Prop
  | .real _ => False
  | .array items => CanonicalItems items
  | .object members =>
    (members.map Prod.fst).Pairwise (· < ·) ∧ CanonicalMembers members
  | .null | .bool _ | .int _ | .string _ => True

def CanonicalItems : List Json → Prop
  | [] => True
  | item :: items => Canonical item ∧ CanonicalItems items

def CanonicalMembers : List (String × Json) → Prop
  | [] => True
  | (_, value) :: members => Canonical value ∧ CanonicalMembers members

end

mutual

/-- The fuel that reads a document back. -/
def weight : Json → Nat
  | .array items => 1 + itemsWeight items
  | .object members => 1 + membersWeight members
  | .null | .bool _ | .int _ | .real _ | .string _ => 1

def itemsWeight : List Json → Nat
  | [] => 0
  | item :: items => 1 + max (weight item) (itemsWeight items)

def membersWeight : List (String × Json) → Nat
  | [] => 0
  | (_, value) :: members => 1 + max (weight value) (membersWeight members)

end

theorem canonical_item {items : List Json} (canonical : CanonicalItems items) :
    ∀ item ∈ items, Canonical item := by
  induction items with
  | nil => simp
  | cons first items induction =>
    intro item member
    rcases List.mem_cons.mp member with rfl | inTail
    · exact canonical.1
    · exact induction canonical.2 item inTail

theorem canonical_member {members : List (String × Json)}
    (canonical : CanonicalMembers members) : ∀ member ∈ members, Canonical member.2 := by
  induction members with
  | nil => simp
  | cons first members induction =>
    obtain ⟨key, value⟩ := first
    intro member inside
    rcases List.mem_cons.mp inside with rfl | inTail
    · exact canonical.1
    · exact induction canonical.2 member inTail

def memberText (member : String × Json) : List Char := quote member.1 ++ ':' :: render member.2

theorem render_items_map (items : List Json) : renderItems items = items.map render := by
  induction items with
  | nil => rfl
  | cons item items induction => rw [renderItems, induction, List.map_cons]

theorem render_members_map (members : List (String × Json)) :
    renderMembers members = members.map fun member => (member.1, render member.2) := by
  induction members with
  | nil => rfl
  | cons member members induction =>
    obtain ⟨key, value⟩ := member
    rw [renderMembers, induction, List.map_cons]

theorem render_object_sorted (members : List (String × Json))
    (sorted : (members.map Prod.fst).Pairwise (· < ·)) :
    render (.object members) = '{' :: (joinWith ',' (members.map memberText) ++ ['}']) := by
  have ordered : ((renderMembers members).insertionSort fun left right => left.1 ≤ right.1) =
      renderMembers members := by
    apply List.Pairwise.insertionSort_eq
    rw [render_members_map, List.pairwise_map]
    exact (List.pairwise_map.mp sorted).imp le_of_lt
  rw [render, ordered, render_members_map, List.map_map]
  rfl

/-- A rendered document starts with a character that neither is space nor closes an
array or an object. -/
theorem render_head (document : Json) (canonical : Canonical document) :
    ∃ head tail, render document = head :: tail ∧ isSpace head = false ∧
      head ≠ ']' ∧ head ≠ '}' := by
  cases document with
  | null => exact ⟨'n', _, rfl, rfl, by decide, by decide⟩
  | bool value =>
    cases value with
    | true => exact ⟨'t', _, rfl, rfl, by decide, by decide⟩
    | false => exact ⟨'f', _, rfl, rfl, by decide, by decide⟩
  | int value =>
    cases value with
    | ofNat value =>
      obtain ⟨head, tail, shape, digits, -⟩ := to_digits_shape value
      have digit := digits head (by simp)
      refine ⟨head, tail, shape, ?_, ?_, ?_⟩
      · by_contra space
        simp only [isSpace, Bool.not_eq_false, Bool.or_eq_true, decide_eq_true_eq] at space
        rcases space with ((rfl | rfl) | rfl) | rfl <;> cases digit
      · rintro rfl
        cases digit
      · rintro rfl
        cases digit
    | negSucc value => exact ⟨'-', _, rfl, rfl, by decide, by decide⟩
  | real literal => exact canonical.elim
  | string value => exact ⟨'"', _, rfl, rfl, by decide, by decide⟩
  | array items => exact ⟨'[', _, rfl, rfl, by decide, by decide⟩
  | object members => exact ⟨'{', _, rfl, rfl, by decide, by decide⟩

theorem skip_space_of_head {head : Char} {tail : List Char} (notSpace : isSpace head = false) :
    skipSpace (head :: tail) = head :: tail := by
  simp [skipSpace, notSpace]

theorem skip_space_render (document : Json) (canonical : Canonical document)
    (rest : List Char) : skipSpace (render document ++ rest) = render document ++ rest := by
  obtain ⟨head, tail, shape, notSpace, -, -⟩ := render_head document canonical
  rw [shape, List.cons_append, skip_space_of_head notSpace]

def ReadsBack (document : Json) : Prop :=
  ∀ fuel rest, weight document ≤ fuel → Delimited rest →
    parseValue fuel (render document ++ rest) = some (document, rest)

theorem delimited_cons {c : Char}
    (delimiter : c = ',' ∨ c = ']' ∨ c = '}' ∨ c = '\n')
    (rest : List Char) : Delimited (c :: rest) := by
  intro other head
  cases Option.some.inj head
  exact delimiter

theorem parse_items_render (items : List Json) (canonical : CanonicalItems items)
    (readsBack : ∀ item ∈ items, ReadsBack item) (nonempty : items ≠ []) (fuel : Nat)
    (enough : itemsWeight items ≤ fuel) (rest : List Char) :
    parseItems fuel (joinWith ',' (items.map render) ++ ']' :: rest) = some (items, rest) := by
  induction items generalizing fuel with
  | nil => exact absurd rfl nonempty
  | cons item items induction =>
    obtain ⟨fuel, rfl⟩ : ∃ less, fuel = less + 1 := by
      cases fuel with
      | zero => simp [itemsWeight] at enough
      | succ less => exact ⟨less, rfl⟩
    simp only [itemsWeight] at enough
    have read := readsBack item (by simp) fuel
    cases items with
    | nil =>
      rw [List.map_cons, List.map_nil, joinWith, parseItems,
        read _ (by omega) (delimited_cons (by simp) rest)]
      rfl
    | cons second items =>
      have others := induction canonical.2 (fun other member => readsBack other
        (List.mem_cons_of_mem _ member)) (by simp) fuel (by omega)
      obtain ⟨head, tail, shape, notSpace, -⟩ := render_head second canonical.2.1
      have unspaced : skipSpace (joinWith ',' ((second :: items).map render) ++ ']' :: rest) =
          joinWith ',' ((second :: items).map render) ++ ']' :: rest := by
        cases items with
        | nil =>
          simp only [List.map_cons, List.map_nil, joinWith, shape, List.cons_append]
          exact skip_space_of_head notSpace
        | cons third items =>
          simp only [List.map_cons, joinWith, shape, List.cons_append]
          exact skip_space_of_head notSpace
      have split : joinWith ',' ((item :: second :: items).map render) ++ ']' :: rest =
          render item ++ (',' :: (joinWith ',' ((second :: items).map render) ++
            ']' :: rest)) := by
        simp only [List.map_cons, joinWith, List.append_assoc, List.cons_append]
      rw [split, parseItems, read _ (by omega) (delimited_cons (by simp) _)]
      simp only [Option.bind_eq_bind, Option.bind_some,
        skip_space_of_head (show isSpace ',' = false from rfl),
        if_neg (show (',' : Char) ≠ ']' by decide), if_true, unspaced, others]

theorem parse_members_render (members : List (String × Json)) (canonical : CanonicalMembers members)
    (readsBack : ∀ member ∈ members, ReadsBack member.2) (nonempty : members ≠ []) (fuel : Nat)
    (enough : membersWeight members ≤ fuel) (rest : List Char) :
    parseMembers fuel (joinWith ',' (members.map memberText) ++ '}' :: rest) =
      some (members, rest) := by
  induction members generalizing fuel with
  | nil => exact absurd rfl nonempty
  | cons member members induction =>
    obtain ⟨key, value⟩ := member
    obtain ⟨fuel, rfl⟩ : ∃ less, fuel = less + 1 := by
      cases fuel with
      | zero => simp [membersWeight] at enough
      | succ less => exact ⟨less, rfl⟩
    simp only [membersWeight] at enough
    have read : ∀ after, weight value ≤ fuel → Delimited after →
        parseValue fuel (render value ++ after) = some (value, after) :=
      readsBack (key, value) (by simp) fuel
    -- One member is read whatever follows it.
    have step : ∀ after, Delimited after →
        parseMembers (fuel + 1) (memberText (key, value) ++ after) =
          match skipSpace after with
          | [] => none
          | mark :: others =>
            if mark = '}' then some ([(key, value)], others)
            else if mark = ',' then do
              let (members, last) ← parseMembers fuel (skipSpace others)
              some ((key, value) :: members, last)
            else none := by
      intro after stop
      have text : memberText (key, value) ++ after =
          '"' :: (key.toList.flatMap escapeChar ++ '"' :: ':' :: (render value ++ after)) := by
        simp [memberText, quote]
      rw [text, parseMembers]
      simp only [List.head?_cons, List.tail_cons, guard_true, Option.bind_eq_bind,
        parse_string_quoted, Option.bind_some, Option.pure_def,
        skip_space_of_head (show isSpace ':' = false from rfl),
        skip_space_render value canonical.1, read after (by omega) stop]
    cases members with
    | nil =>
      rw [List.map_cons, List.map_nil, joinWith, step _ (delimited_cons (by simp) rest)]
      rfl
    | cons second members =>
      have others := induction canonical.2 (fun other member => readsBack other
        (List.mem_cons_of_mem _ member)) (by simp) fuel (by omega)
      have unspaced : skipSpace (joinWith ',' ((second :: members).map memberText) ++
          '}' :: rest) = joinWith ',' ((second :: members).map memberText) ++ '}' :: rest := by
        cases members with
        | nil => exact skip_space_of_head rfl
        | cons third members => exact skip_space_of_head rfl
      have split : joinWith ',' (((key, value) :: second :: members).map memberText) ++
          '}' :: rest = memberText (key, value) ++ (',' ::
            (joinWith ',' ((second :: members).map memberText) ++ '}' :: rest)) := by
        simp only [List.map_cons, joinWith, List.append_assoc, List.cons_append]
      rw [split, step _ (delimited_cons (by simp) _)]
      simp only [skip_space_of_head (show isSpace ',' = false from rfl),
        if_neg (show (',' : Char) ≠ '}' by decide), if_true, unspaced, others,
        Option.bind_eq_bind, Option.bind_some]

theorem pairwise_lt_nodup {keys : List String} (sorted : keys.Pairwise (· < ·)) :
    keys.Nodup := sorted.imp ne_of_lt

theorem canonical_items {items : List Json} (each : ∀ item ∈ items, Canonical item) :
    CanonicalItems items := by
  induction items with
  | nil => trivial
  | cons item items induction =>
    exact ⟨each item List.mem_cons_self, induction fun other inside =>
      each other (List.mem_cons_of_mem _ inside)⟩

theorem parse_value_render (document : Json) (canonical : Canonical document) :
    ReadsBack document := by
  induction document using Json.nested_induction with
  | null =>
    intro fuel rest enough stop
    obtain ⟨fuel, rfl⟩ := Nat.exists_eq_succ_of_ne_zero (Nat.ne_of_gt enough)
    rfl
  | bool value =>
    intro fuel rest enough stop
    obtain ⟨fuel, rfl⟩ := Nat.exists_eq_succ_of_ne_zero (Nat.ne_of_gt enough)
    cases value <;> rfl
  | int value =>
    intro fuel rest enough stop
    obtain ⟨fuel, rfl⟩ := Nat.exists_eq_succ_of_ne_zero (Nat.ne_of_gt enough)
    have word := parse_word_render_int value rest stop
    obtain ⟨head, tail, shape, quoteFree, braceFree, bracketFree⟩ :
        ∃ head tail, renderInt value = head :: tail ∧ head ≠ '"' ∧ head ≠ '{' ∧
          head ≠ '[' := by
      cases value with
      | ofNat value =>
        obtain ⟨head, tail, shape, digits, -⟩ := to_digits_shape value
        have digit := digits head (by simp)
        refine ⟨head, tail, shape, ?_, ?_, ?_⟩
        · rintro rfl
          cases digit
        · rintro rfl
          cases digit
        · rintro rfl
          cases digit
      | negSucc value => exact ⟨'-', _, rfl, by decide, by decide, by decide⟩
    rw [render, shape, List.cons_append, parseValue.eq_def]
    simp only [if_neg quoteFree, if_neg braceFree, if_neg bracketFree]
    rw [shape, List.cons_append] at word
    exact word
  | real literal => exact canonical.elim
  | string value =>
    intro fuel rest enough stop
    obtain ⟨fuel, rfl⟩ := Nat.exists_eq_succ_of_ne_zero (Nat.ne_of_gt enough)
    have text : render (.string value) ++ rest =
        '"' :: (value.toList.flatMap escapeChar ++ '"' :: rest) := by
      simp [render, quote]
    rw [text, parseValue.eq_def]
    simp only [if_true, parse_string_quoted, Option.bind_eq_bind, Option.bind_some]
  | array items induction =>
    intro fuel rest enough stop
    obtain ⟨fuel, rfl⟩ := Nat.exists_eq_succ_of_ne_zero
      (show fuel ≠ 0 by simp only [weight] at enough; omega)
    simp only [weight] at enough
    have opened : ∀ others, parseValue (fuel + 1) ('[' :: others) =
        if (skipSpace others).head? = some ']' then
          some (.array [], (skipSpace others).tail)
        else (parseItems fuel (skipSpace others)).bind fun read =>
          some (.array read.1, read.2) := by
      intro others
      rw [parseValue.eq_def]
      rfl
    have text : render (.array items) ++ rest =
        '[' :: (joinWith ',' (items.map render) ++ ']' :: rest) := by
      simp [render, render_items_map]
    rw [text, opened]
    cases items with
    | nil => rfl
    | cons first items =>
      have loop := parse_items_render (first :: items) canonical
        (fun item member => induction item member (canonical_item canonical item member))
        (by simp) fuel (by omega) rest
      obtain ⟨head, tail, shape, notSpace, notClosed, -⟩ := render_head first canonical.1
      obtain ⟨others, front⟩ : ∃ others, joinWith ',' ((first :: items).map render) ++
          ']' :: rest = head :: others := by
        cases items <;> simp [joinWith, shape]
      rw [front] at loop ⊢
      rw [skip_space_of_head notSpace, List.head?_cons,
        if_neg (fun same => notClosed (Option.some.inj same)), loop]
      rfl
  | object members induction =>
    intro fuel rest enough stop
    obtain ⟨fuel, rfl⟩ := Nat.exists_eq_succ_of_ne_zero
      (show fuel ≠ 0 by simp only [weight] at enough; omega)
    simp only [weight] at enough
    have opened : ∀ others, parseValue (fuel + 1) ('{' :: others) =
        if (skipSpace others).head? = some '}' then
          some (.object [], (skipSpace others).tail)
        else (parseMembers fuel (skipSpace others)).bind fun read =>
          some (.object (ofPairs read.1), read.2) := by
      intro others
      rw [parseValue.eq_def]
      rfl
    rw [render_object_sorted members canonical.1, List.cons_append, List.append_assoc,
      List.singleton_append, opened]
    cases members with
    | nil => rfl
    | cons first members =>
      have loop := parse_members_render (first :: members) canonical.2
        (fun member inside => induction member inside
          (canonical_member canonical.2 member inside)) (by simp) fuel (by omega) rest
      obtain ⟨others, front⟩ : ∃ others, joinWith ',' ((first :: members).map memberText) ++
          '}' :: rest = '"' :: others := by
        cases members <;> simp [joinWith, memberText, quote]
      rw [front] at loop ⊢
      rw [skip_space_of_head rfl, List.head?_cons, if_neg (by decide), loop]
      simp only [Option.bind_some, of_pairs_distinct _ (pairwise_lt_nodup canonical.1)]

theorem join_with_length_cons (separator : Char) (first : List Char) (rest : List (List Char)) :
    first.length + (joinWith separator rest).length ≤
      (joinWith separator (first :: rest)).length := by
  cases rest with
  | nil => simp [joinWith]
  | cons second rest => simp [joinWith]

section

variable (document : Json) (canonical : Canonical document)
include document canonical

/-- The text is long enough for its own length to be the fuel. -/
theorem weight_le_render_length :
    weight document ≤ (render document).length := by
  induction document using Json.nested_induction with
  | null => simp [weight, render]
  | bool value => cases value <;> simp [weight, render]
  | int value =>
    obtain ⟨head, tail, shape, -⟩ := render_head (.int value) canonical
    simp [weight, shape]
  | real literal => exact canonical.elim
  | string value => simp [weight, render, quote]
  | array items induction =>
    have loop : ∀ items, CanonicalItems items →
        (∀ item ∈ items, Canonical item → weight item ≤ (render item).length) →
        itemsWeight items ≤ (joinWith ',' (items.map render)).length + 1 := by
      intro items
      induction items with
      | nil => simp [itemsWeight]
      | cons item items others =>
        intro canonical bound
        have rest := others canonical.2 (fun other member =>
          bound other (List.mem_cons_of_mem _ member))
        have first := bound item (by simp) canonical.1
        have joined := join_with_length_cons ',' (render item) (items.map render)
        obtain ⟨head, tail, shape, -⟩ := render_head item canonical.1
        have positive : 0 < (render item).length := by simp [shape]
        simp only [itemsWeight, List.map_cons]
        omega
    have bound := loop items canonical induction
    simp only [weight, render, render_items_map, List.length_cons, List.length_append,
      List.length_nil]
    omega
  | object members induction =>
    have loop : ∀ members, CanonicalMembers members →
        (∀ member ∈ members, Canonical member.2 →
          weight member.2 ≤ (render member.2).length) →
        membersWeight members ≤ (joinWith ',' (members.map memberText)).length + 1 := by
      intro members
      induction members with
      | nil => simp [membersWeight]
      | cons member members others =>
        obtain ⟨key, value⟩ := member
        intro canonical bound
        have rest := others canonical.2 (fun other member =>
          bound other (List.mem_cons_of_mem _ member))
        have first : weight value ≤ (render value).length :=
          bound (key, value) (by simp) canonical.1
        have joined := join_with_length_cons ',' (memberText (key, value))
          (members.map memberText)
        have text : (memberText (key, value)).length =
            (quote key).length + ((render value).length + 1) := by
          simp [memberText]
        simp only [membersWeight, List.map_cons]
        omega
    have bound := loop members canonical.2 induction
    rw [render_object_sorted members canonical.1]
    simp only [weight, List.length_cons, List.length_append, List.length_nil]
    omega

theorem loads_written (rest : List Char) (stop : Delimited rest) (blank : skipSpace rest = []) :
    loads (String.ofList (render document ++ rest)) = some document := by
  have enough : weight document ≤ (String.ofList (render document ++ rest)).length + 1 := by
    have bound := weight_le_render_length document canonical
    simp only [String.length_ofList, List.length_append]
    omega
  rw [loads, String.toList_ofList, skip_space_render document canonical,
    parse_value_render document canonical _ rest enough stop]
  simp [blank]

theorem loads_dumps :
    loads (dumps document) = some document := by
  have read := loads_written document canonical [] (by simp [Delimited]) rfl
  rwa [List.append_nil] at read

theorem loads_dumps_line :
    loads (dumps document ++ "\n") = some document := by
  have read := loads_written document canonical ['\n'] (delimited_cons (by simp) []) rfl
  rwa [String.ofList_append] at read

end

/-- Two canonical documents with the same text are the same document. -/
theorem dumps_injective {left right : Json} (leftCanonical : Canonical left)
    (rightCanonical : Canonical right) (same : dumps left = dumps right) : left = right := by
  have read := loads_dumps left leftCanonical
  rw [same, loads_dumps right rightCanonical] at read
  exact (Option.some.inj read).symm

theorem render_object_perm {left right : List (String × Json)} (same : left.Perm right)
    (distinct : (left.map Prod.fst).Nodup) : render (.object left) = render (.object right) := by
  have sorted : ((renderMembers left).insertionSort fun a b => a.1 ≤ b.1) =
      (renderMembers right).insertionSort fun a b => a.1 ≤ b.1 := by
    have perm : (renderMembers left).Perm (renderMembers right) := by
      rw [render_members_map, render_members_map]
      exact same.map _
    have keys : ((renderMembers left).map Prod.fst).Nodup := by
      rw [render_members_map, List.map_map]
      exact distinct
    refine List.Perm.eq_of_pairwise ?_ (List.pairwise_insertionSort _ _)
      (List.pairwise_insertionSort _ _)
      ((List.perm_insertionSort _ _).trans (perm.trans (List.perm_insertionSort _ _).symm))
    intro a b leftMember rightMember lower upper
    have inLeft : b ∈ renderMembers left :=
      perm.mem_iff.mpr ((List.perm_insertionSort _ _).mem_iff.mp rightMember)
    exact List.inj_on_of_nodup_map keys ((List.perm_insertionSort _ _).mem_iff.mp leftMember)
      inLeft (le_antisymm lower upper)
  rw [render, render, sorted]

end Atlaso.Library.JsonText
