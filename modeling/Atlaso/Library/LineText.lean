import Atlaso.Library.JsonText

/-!
Text as physical lines: where Python ends a line, the JSON form of a list of lines in
which only the characters that must be escaped are, and UTF-8 read with replacement
characters, a fragment at a time.
-/

namespace Atlaso.Library.LineText

open JsonText

/-! ### Line boundaries -/

def isBoundary (c : Char) : Bool :=
  [0x0a, 0x0b, 0x0c, 0x0d, 0x1c, 0x1d, 0x1e, 0x85, 0x2028, 0x2029].contains c.toNat

/-- The lines from here on, `current` being what the open line has so far. -/
def splitFrom (current : List Char) : List Char → List (List Char)
  | [] => if current.isEmpty then [] else [current]
  | '\r' :: '\n' :: rest => current :: splitFrom [] rest
  | c :: rest =>
    if isBoundary c then current :: splitFrom [] rest else splitFrom (current ++ [c]) rest

def splitlines (text : String) : List String := (splitFrom [] text.toList).map String.ofList

/-! ### Lines as JSON -/

/-- `json.dumps` with `ensure_ascii=False`: quotes, backslashes and control characters. -/
def escapePlain (c : Char) : List Char :=
  if c = '"' then ['\\', '"']
  else if c = '\\' then ['\\', '\\']
  else if c = '\n' then ['\\', 'n']
  else if c = '\r' then ['\\', 'r']
  else if c = '\t' then ['\\', 't']
  else if c = '\x08' then ['\\', 'b']
  else if c = '\x0c' then ['\\', 'f']
  else if c.toNat < 0x20 then escapeUnit c.toNat
  else [c]

def quotePlain (text : String) : List Char :=
  '"' :: (text.toList.flatMap escapePlain ++ ['"'])

/-- The items after the first, each behind its separator. -/
def laterItems : List String → List Char
  | [] => []
  | text :: texts => ',' :: ' ' :: (quotePlain text ++ laterItems texts)

/-- `json.dumps(lines, ensure_ascii=False)`. -/
def dumpsLines : List String → List Char
  | [] => ['[', ']']
  | text :: texts => '[' :: (quotePlain text ++ laterItems texts ++ [']'])

theorem scan_units_escape_plain (c : Char) (rest : List Char) :
    scanUnits (escapePlain c ++ rest) =
      (scanUnits rest).map fun scanned => (c.toNat :: scanned.1, scanned.2) := by
  have simple : ∀ escape unit, simpleEscape escape = some unit → escape ≠ 'u' →
      scanUnits ('\\' :: escape :: rest) =
        (scanUnits rest).map fun scanned => (unit :: scanned.1, scanned.2) := by
    intro escape unit known notUnit
    rw [scanUnits.eq_def]
    simp only [if_neg notUnit, known, if_neg (show ('\\' : Char) ≠ '"' by decide), if_true]
    cases scanUnits rest <;> rfl
  unfold escapePlain
  split_ifs with quoted slash newline carriage tab back feed control
  · subst quoted
    exact simple '"' 0x22 rfl (by decide)
  · subst slash
    exact simple '\\' 0x5c rfl (by decide)
  · subst newline
    exact simple 'n' 0x0a rfl (by decide)
  · subst carriage
    exact simple 'r' 0x0d rfl (by decide)
  · subst tab
    exact simple 't' 0x09 rfl (by decide)
  · subst back
    exact simple 'b' 0x08 rfl (by decide)
  · subst feed
    exact simple 'f' 0x0c rfl (by decide)
  · exact scan_units_escape_unit c.toNat (by omega) rest
  · exact scan_units_plain c rest quoted slash (by omega)

theorem scan_units_plain_text (text rest : List Char) :
    scanUnits (text.flatMap escapePlain ++ '"' :: rest) = some (text.map Char.toNat, rest) := by
  induction text with
  | nil => simp [scanUnits.eq_def]
  | cons c text induction =>
    rw [List.flatMap_cons, List.append_assoc, scan_units_escape_plain, induction]
    rfl

/-- A quoted text is read off the front of a document in one way only. -/
theorem quote_plain_cancel {left right : String} {leftRest rightRest : List Char}
    (same : quotePlain left ++ leftRest = quotePlain right ++ rightRest) :
    left = right ∧ leftRest = rightRest := by
  simp only [quotePlain, List.cons_append, List.append_assoc, List.nil_append,
    List.cons.injEq, true_and] at same
  have scanned := congrArg scanUnits same
  rw [scan_units_plain_text, scan_units_plain_text, Option.some.injEq, Prod.mk.injEq] at scanned
  refine ⟨?_, scanned.2⟩
  have characters : left.toList = right.toList :=
    List.map_injective_iff.mpr (fun _ _ equal => Char.toNat_inj.mp equal) scanned.1
  exact String.toList_inj.mp characters

theorem later_items_cancel {left right : List String}
    (same : laterItems left ++ [']'] = laterItems right ++ [']']) : left = right := by
  induction left generalizing right with
  | nil =>
    cases right with
    | nil => rfl
    | cons text texts => simp [laterItems] at same
  | cons text texts induction =>
    cases right with
    | nil => simp [laterItems] at same
    | cons other others =>
      simp only [laterItems, List.cons_append, List.append_assoc, List.cons.injEq,
        true_and] at same
      obtain ⟨heads, rests⟩ := quote_plain_cancel same
      rw [heads, induction rests]

theorem dumps_lines_injective {left right : List String}
    (same : dumpsLines left = dumpsLines right) : left = right := by
  cases left with
  | nil =>
    cases right with
    | nil => rfl
    | cons text texts => simp [dumpsLines, quotePlain] at same
  | cons text texts =>
    cases right with
    | nil => simp [dumpsLines, quotePlain] at same
    | cons other others =>
      simp only [dumpsLines, List.append_assoc, List.cons.injEq, true_and] at same
      obtain ⟨heads, rests⟩ := quote_plain_cancel same
      rw [heads, later_items_cancel rests]

/-! ### UTF-8 with replacement characters -/

/-- How many continuation bytes a lead byte asks for, the range of the first of them
(no overlong form, no surrogate, nothing above U+10FFFF) and the bits it carries. -/
def leadByte (lead : Nat) : Option (Nat × Nat × Nat × Nat) :=
  if 0xc2 ≤ lead ∧ lead ≤ 0xdf then some (1, 0x80, 0xbf, lead - 0xc0)
  else if lead = 0xe0 then some (2, 0xa0, 0xbf, 0)
  else if lead = 0xed then some (2, 0x80, 0x9f, 0xd)
  else if 0xe1 ≤ lead ∧ lead ≤ 0xef then some (2, 0x80, 0xbf, lead - 0xe0)
  else if lead = 0xf0 then some (3, 0x90, 0xbf, 0)
  else if 0xf1 ≤ lead ∧ lead ≤ 0xf3 then some (3, 0x80, 0xbf, lead - 0xf0)
  else if lead = 0xf4 then some (3, 0x80, 0x8f, 4)
  else none

/-- A sequence that starts at the front: a character or a byte run to replace, with the
bytes behind it, or a sequence whose end is not there yet. -/
inductive Sequence where
  | read (code : Nat) (rest : List UInt8)
  | replaced (rest : List UInt8)
  | incomplete

def continuation (low high bits : Nat) : Nat → List UInt8 → Sequence
  | 0, rest => .read bits rest
  | _ + 1, [] => .incomplete
  | more + 1, byte :: rest =>
    if low ≤ byte.toNat ∧ byte.toNat ≤ high then
      continuation 0x80 0xbf (bits * 64 + byte.toNat % 64) more rest
    else .replaced (byte :: rest)

def firstSequence (lead : UInt8) (rest : List UInt8) : Sequence :=
  if lead.toNat < 0x80 then .read lead.toNat rest
  else match leadByte lead.toNat with
    | none => .replaced rest
    | some (count, low, high, bits) => continuation low high bits count rest

/-- `utf_8_decode(data, "replace", final)`: the characters, and the bytes kept for the
next fragment. Every sequence takes a byte, so the length of the data is fuel enough. -/
def decodeFrom (final : Bool) : Nat → List UInt8 → List Char × List UInt8
  | 0, data => ([], data)
  | _ + 1, [] => ([], [])
  | fuel + 1, lead :: rest =>
    match firstSequence lead rest with
    | .read code after =>
      let (characters, kept) := decodeFrom final fuel after
      (Char.ofNat code :: characters, kept)
    | .replaced after =>
      let (characters, kept) := decodeFrom final fuel after
      ('\uFFFD' :: characters, kept)
    | .incomplete => if final then (['\uFFFD'], []) else ([], lead :: rest)

def decodeReplacing (final : Bool) (data : List UInt8) : String × List UInt8 :=
  let (characters, kept) := decodeFrom final data.length data
  (String.ofList characters, kept)

example : decodeReplacing false [0x41, 0xe2, 0x82, 0x41, 0xff, 0xe2, 0x82] =
    ("A\uFFFDA\uFFFD", [0xe2, 0x82]) := by decide +kernel

end Atlaso.Library.LineText
