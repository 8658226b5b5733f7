import Atlaso.Logs.PemStreams

/-!
The stored state of the search for private-key markers, and the search as `_safe_lines` calls
it: with the state as JSON text, checked when it is read.
-/

namespace Atlaso.Logs.PemCarry

open Library JsonText StreamSearch PemMarkers PemStreams ProducerStore SafeLines

local instance lawfulBytes : LawfulBEq (List UInt8) := inferInstance

section Hex

def isBlank (c : Char) : Bool := isSpace c || c = '\x0b' || c = '\x0c'

/-- `bytes.fromhex`: white space between the bytes is skipped. -/
def fromHex : List Char → Option (List UInt8)
  | [] => some []
  | high :: rest =>
    if isBlank high then fromHex rest
    else match rest with
      | [] => none
      | low :: behind => do
          let upper ← hexValue high
          let lower ← hexValue low
          let bytes ← fromHex behind
          some (UInt8.ofNat (upper * 16 + lower) :: bytes)

def isHexDigit (c : Char) : Bool := ('0' ≤ c && c ≤ '9') || ('a' ≤ c && c ≤ 'f')

theorem hex_byte_digits (byte : UInt8) : (hexByte byte).all isHexDigit = true := by
  have each : ∀ value : Fin 256, (hexByte (UInt8.ofNat value)).all isHexDigit = true := by
    decide +kernel
  have known := each ⟨byte.toNat, byte.toNat_lt⟩
  rwa [UInt8.ofNat_toNat] at known

theorem hex_digit_value {value : Nat} (digit : value < 16) :
    isBlank (Nat.digitChar value) = false ∧ hexValue (Nat.digitChar value) = some value := by
  have each : ∀ value : Fin 16, isBlank (Nat.digitChar value) = false ∧
      hexValue (Nat.digitChar value) = some value.val := by
    decide +kernel
  exact each ⟨value, digit⟩

theorem from_hex_byte (byte : UInt8) (rest : List Char) :
    fromHex (hexByte byte ++ rest) = (fromHex rest).map fun bytes => byte :: bytes := by
  have bound := byte.toNat_lt
  obtain ⟨visible, upper⟩ := hex_digit_value (show byte.toNat / 16 < 16 by omega)
  obtain ⟨-, lower⟩ := hex_digit_value (show byte.toNat % 16 < 16 by omega)
  have whole : byte.toNat / 16 * 16 + byte.toNat % 16 = byte.toNat := by omega
  unfold hexByte
  rw [List.cons_append, List.cons_append, List.nil_append, fromHex, visible]
  simp only [Bool.false_eq_true, if_false, upper, lower, Option.bind_eq_bind, Option.bind_some,
    whole, UInt8.ofNat_toNat]
  cases fromHex rest <;> rfl

theorem from_hex_hex (bytes : List UInt8) : fromHex (hex bytes).toList = some bytes := by
  unfold hex
  rw [String.toList_ofList]
  induction bytes with
  | nil => rfl
  | cons byte bytes induction =>
    rw [List.flatMap_cons, from_hex_byte, induction]
    rfl

theorem hex_length (bytes : List UInt8) : (hex bytes).toList.length = 2 * bytes.length := by
  unfold hex
  rw [String.toList_ofList]
  induction bytes with
  | nil => rfl
  | cons byte bytes induction =>
    rw [List.flatMap_cons, List.length_append, induction, List.length_cons]
    simp only [hexByte, List.length_cons, List.length_nil]
    omega

theorem hex_digits (bytes : List UInt8) : (hex bytes).toList.all isHexDigit = true := by
  unfold hex
  rw [String.toList_ofList, List.all_flatMap]
  exact List.all_eq_true.mpr fun byte _ => hex_byte_digits byte

end Hex

section Texts

def Mode.ofLetter (letter : String) : Option Mode :=
  if letter = "S" then some .outside
  else if letter = "B" then some .opening
  else if letter = "E" then some .closing
  else none

/-- Nothing, several open keys, or the hash of the label of one. -/
def validActive (active : String) : Bool :=
  active = "" || active = "!" || (active.toList.length = 64 && active.toList.all isHexDigit)

def checkState (letter : String) (suffix digest pending : List UInt8) (active : String) :
    Option State :=
  match Mode.ofLetter letter with
  | none => none
  | some mode =>
    if size : digest.length = 32 then
      if (suffix = [] ∨ suffix ∈ mode.parts) ∧ pending.length < 16 ∧
          validActive active = true then
        some ⟨mode, suffix, ⟨digest, size⟩, pending, active⟩
      else none
    else none

/-- The state of an earlier release: the mode and the suffix. -/
def legacyState (carry : List Char) : Option State :=
  if carry.all fun c => c.toNat < 128 then
    checkState ((carry.head?.map fun c => String.ofList [c]).getD "S")
      (carry.tail.map fun c => UInt8.ofNat c.toNat) zeroDigest.1 [] ""
  else none

def readState (carry : String) : Option State :=
  if carry.toList.head? = some '[' then
    match loads carry with
    | some (.array [.string letter, .string suffix, .string digest, .string pending,
        .string active]) => do
        let suffix ← fromHex suffix.toList
        let digest ← fromHex digest.toList
        let pending ← fromHex pending.toList
        checkState letter suffix digest pending active
    | _ => none
  else legacyState carry.toList

def stateItems (state : State) : List Json :=
  [.string state.mode.letter, .string (hex state.suffix), .string (hex state.digest.1),
    .string (hex state.pending), .string state.active]

def writeState (state : State) : String := dumps (.array (stateItems state))

structure Valid (state : State) : Prop where
  suffix : state.suffix = [] ∨ state.suffix ∈ state.mode.parts
  pending : state.pending.length < 16
  active : validActive state.active = true

theorem check_state_valid {letter active : String} {suffix digest pending : List UInt8}
    {state : State} (checked : checkState letter suffix digest pending active = some state) :
    Valid state := by
  unfold checkState at checked
  split at checked
  · exact absurd checked nofun
  · split_ifs at checked with size holds
    cases checked
    exact ⟨holds.1, holds.2.1, holds.2.2⟩

theorem read_state_valid {carry : String} {state : State} (read : readState carry = some state) :
    Valid state := by
  unfold readState at read
  split_ifs at read with bracket
  · split at read
    · simp only [Option.bind_eq_bind, Option.bind_eq_some_iff] at read
      obtain ⟨suffix, _, digest, _, pending, _, checked⟩ := read
      exact check_state_valid checked
    · exact absurd read nofun
  · unfold legacyState at read
    split_ifs at read
    exact check_state_valid read

theorem mode_of_letter (mode : Mode) : Mode.ofLetter mode.letter = some mode := by
  cases mode <;> decide

theorem check_state_self {state : State} (valid : Valid state) :
    checkState state.mode.letter state.suffix state.digest.1 state.pending state.active =
      some state := by
  unfold checkState
  simp only [mode_of_letter]
  rw [dif_pos state.digest.2, if_pos ⟨valid.suffix, valid.pending, valid.active⟩]

theorem loads_write_state (state : State) :
    loads (writeState state) = some (.array (stateItems state)) :=
  loads_dumps _ ⟨trivial, trivial, trivial, trivial, trivial, trivial⟩

theorem write_state_bracket (state : State) :
    (writeState state).toList.head? = some '[' := by
  unfold writeState dumps render
  rw [String.toList_ofList]
  rfl

theorem read_write_state {state : State} (valid : Valid state) :
    readState (writeState state) = some state := by
  unfold readState
  rw [if_pos (write_state_bracket state), loads_write_state]
  simp only [stateItems, from_hex_hex, Option.bind_eq_bind, Option.bind_some]
  exact check_state_self valid

end Texts

section Search

variable (sha256 : List UInt8 → Digest)

structure Sound (cursor : Cursor) : Prop where
  pending : cursor.pending.length < 16
  active : validActive cursor.active = true

theorem hex_active (digest : Digest) : validActive (hex digest.1) = true := by
  unfold validActive
  rw [hex_length, digest.2, hex_digits]
  simp

variable {cursor : Cursor}

theorem close_marker_active (sound : validActive cursor.active = true) :
    validActive (closeMarker sha256 cursor).1 = true := by
  unfold closeMarker
  cases cursor.mode with
  | opening =>
    simp only
    split_ifs
    · exact hex_active _
    · decide
  | outside | closing =>
    simp only
    split_ifs
    · decide
    · exact sound

theorem marker_end_active (sound : validActive cursor.active = true) (label : List UInt8)
    (isDashes : Bool) :
    validActive (markerEnd sha256 cursor label isDashes).1 = true := by
  unfold markerEnd
  split_ifs
  · exact close_marker_active sha256 sound
  · exact sound

theorem inside_sound {entered : Cursor} (sound : Sound cursor)
    (entering : cursor.inside = some entered) : Sound entered := by
  unfold Cursor.inside at entering
  split_ifs at entering with outside
  · unfold enter at entering
    cases found : search startAt cursor.rest with
    | none =>
      rw [found] at entering
      exact absurd entering nofun
    | some result =>
      rw [found] at entering
      cases entering
      exact ⟨Nat.zero_lt_succ 15, sound.active⟩
  · cases entering
    exact sound

theorem leave_sound {left : Cursor} (sound : Sound cursor)
    (leaving : leave sha256 cursor = some left) : Sound left := by
  unfold leave at leaving
  cases found : search boundaryAt cursor.rest with
  | none =>
    rw [found] at leaving
    exact absurd leaving nofun
  | some result =>
    rw [found] at leaving
    cases leaving
    exact ⟨Nat.zero_lt_succ 15, marker_end_active sha256 sound.active _ _⟩

theorem open_suffix_listed (parts : List (List UInt8)) (data : List UInt8) :
    openSuffix parts data = [] ∨ openSuffix parts data ∈ parts := by
  unfold openSuffix
  cases found : parts.find? fun part => part.isSuffixOf data with
  | none => exact .inl rfl
  | some part => exact .inr (List.mem_of_find?_eq_some found)

theorem inside_parts {mode : Mode} (inside : mode ≠ .outside) : mode.parts = endParts := by
  cases mode with
  | outside => exact absurd rfl inside
  | opening | closing => rfl

theorem scan_loop_valid (sound : Sound cursor) :
    Valid (scanLoop sha256 cursor).1 := by
  fun_induction scanLoop sha256 cursor with
  | case1 cursor entering =>
    have suffix := open_suffix_listed startParts cursor.rest
    refine ⟨?_, sound.pending, sound.active⟩
    change openSuffix startParts cursor.rest = [] ∨
      openSuffix startParts cursor.rest ∈ cursor.mode.parts
    rw [(inside_none entering).1]
    exact suffix
  | case2 cursor entered entering leaving =>
    have suffix := open_suffix_listed endParts entered.rest
    refine ⟨?_, absorb_blocks_pending sha256 _ _, (inside_sound sound entering).active⟩
    change openSuffix endParts entered.rest = [] ∨
      openSuffix endParts entered.rest ∈ entered.mode.parts
    rw [inside_parts (inside_mode entering)]
    exact suffix
  | case3 cursor entered entering left leaving induction =>
    exact induction (leave_sound sha256 (inside_sound sound entering) leaving)

theorem scan_valid {state : State} (valid : Valid state) (chunk : List UInt8) :
    Valid (scan sha256 state chunk).1 :=
  scan_loop_valid sha256 ⟨valid.pending, valid.active⟩

def scanPemMarkers (chunk : List UInt8) (carry : String) :
    Except Raised (Option Bool × String) :=
  match readState carry with
  | none => .error (.valueError parserMessage)
  | some state =>
    .ok ((scan sha256 state chunk).2, writeState (scan sha256 state chunk).1)

theorem carry_state_write (state : State) :
    carryState (writeState state) = .ok (state.mode.letter, hex state.suffix) := by
  unfold carryState
  rw [loads_write_state]
  rfl

/-- The scanner of `_safe_lines`. -/
def scanner (redactTaskValue : String → String) : Scanner where
  scanPemMarkers := scanPemMarkers sha256
  redactTaskValue
  Scans := fun carry => (readState carry).isSome = true
  scans_start := by decide +kernel
  scans_open := by decide +kernel
  scans_result := by
    intro chunk carry scans
    obtain ⟨state, read⟩ := Option.isSome_iff_exists.mp scans
    have valid := scan_valid sha256 (read_state_valid read) chunk
    refine ⟨(scan sha256 state chunk).2, writeState (scan sha256 state chunk).1, _, _, ?_, ?_,
      carry_state_write _⟩
    · rw [scanPemMarkers, read]
    · rw [read_write_state valid]
      rfl

/-- Scanning two fragments with the state carried between them ends in the state of scanning both
at once, and the answer is that of the later fragment that has one. -/
theorem scan_fragments (carry : String) (scans : (readState carry).isSome = true)
    (first second : List UInt8) :
    ∃ early late middle final,
      scanPemMarkers sha256 first carry = .ok (early, middle) ∧
      scanPemMarkers sha256 second middle = .ok (late, final) ∧
      scanPemMarkers sha256 (first ++ second) carry = .ok (late.or early, final) ∧
      (readState middle).isSome = true ∧ (readState final).isSome = true := by
  obtain ⟨state, read⟩ := Option.isSome_iff_exists.mp scans
  have validMiddle := scan_valid sha256 (read_state_valid read) first
  have readMiddle := read_write_state validMiddle
  have readFinal := read_write_state (scan_valid sha256 validMiddle second)
  refine ⟨(scan sha256 state first).2, (scan sha256 (scan sha256 state first).1 second).2,
    writeState (scan sha256 state first).1,
    writeState (scan sha256 (scan sha256 state first).1 second).1,
    ?firstScan, ?secondScan, ?whole, ?middle, ?final⟩
  case firstScan =>
    unfold scanPemMarkers
    rw [read]
  case secondScan =>
    unfold scanPemMarkers
    rw [readMiddle]
  case whole =>
    unfold scanPemMarkers
    rw [read]
    simp only [scan_append]
  case middle =>
    rw [readMiddle]
    rfl
  case final =>
    rw [readFinal]
    rfl

/-- A label cut inside its ending, from the state of a stream's beginning. -/
theorem sample_fragments :
    ∃ early late middle final,
      scanPemMarkers (fun _ => zeroDigest) "-----BEGIN PRIVATE K".toUTF8.toList "S" =
        .ok (early, middle) ∧
      scanPemMarkers (fun _ => zeroDigest) "EY-----".toUTF8.toList middle = .ok (late, final) ∧
      scanPemMarkers (fun _ => zeroDigest)
        ("-----BEGIN PRIVATE K".toUTF8.toList ++ "EY-----".toUTF8.toList) "S" =
        .ok (late.or early, final) ∧
      (readState middle).isSome = true ∧ (readState final).isSome = true :=
  scan_fragments (fun _ => zeroDigest) "S" (by decide) _ _

end Search

end Atlaso.Logs.PemCarry
