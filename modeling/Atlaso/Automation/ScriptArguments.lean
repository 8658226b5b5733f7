import Atlaso.Library.Outcomes
import Atlaso.Library.TextFields
import Mathlib.Algebra.GroupWithZero.Nat

/-!
The literal arguments of managed scripts: the PowerShell scanner, the limits on what it
returns, and when single-quoted literals are read back.
-/

namespace Atlaso.Automation.ScriptArguments

open Library Outcomes TextFields

abbrev ValueError := String

def maxScriptArguments : Nat := 64
def maxScriptArgumentBytes : Nat := 4096
def maxScriptArgumentsBytes : Nat := 16 * 1024

/-! ### The scanner -/

structure Scanner where
  arguments : List (List Char)
  current : List Char
  quote : Option Char
  tokenStarted : Bool
  deriving DecidableEq, Repr

def Scanner.start : Scanner := ⟨[], [], none, false⟩

/-- `current.append(character)`, which starts a token. -/
def Scanner.append (scanner : Scanner) (character : Char) : Scanner :=
  { scanner with current := scanner.current ++ [character], tokenStarted := true }

def Scanner.close (scanner : Scanner) : Scanner :=
  if scanner.tokenStarted then
    { scanner with
      arguments := scanner.arguments ++ [scanner.current], current := [], tokenStarted := false }
  else scanner

/-- One character that neither escapes nor is doubled. -/
def Scanner.read (scanner : Scanner) (character : Char) : Scanner :=
  if (character = '\'' ∨ character = '"') ∧ scanner.quote = none then
    { scanner with quote := some character, tokenStarted := true }
  else if (character = '\'' ∨ character = '"') ∧ scanner.quote = some character then
    { scanner with quote := none }
  else if scanner.quote = none ∧ isWhitespace character = true then scanner.close
  else scanner.append character

def Scanner.finish (scanner : Scanner) : Except ValueError (List (List Char)) :=
  if scanner.quote.isSome then .error "Managed script parameters contain an unterminated quote."
  else .ok scanner.close.arguments

/-- The loop over the characters that are left. -/
def scan (scanner : Scanner) : List Char → Except ValueError (List (List Char))
  | [] => scanner.finish
  | ['`'] =>
    .error "A PowerShell continuation marker must be followed by another line or character."
  | '`' :: '\r' :: '\n' :: rest => scan scanner rest
  | '`' :: '\n' :: rest => scan scanner rest
  | '`' :: escaped :: rest => scan (scanner.append escaped) rest
  | '\'' :: '\'' :: rest =>
    if scanner.quote = some '\'' then scan (scanner.append '\'') rest
    else scan (scanner.read '\'') ('\'' :: rest)
  | character :: rest => scan (scanner.read character) rest

def parsePowershellArguments (rawValue : String) : Except ValueError (List String) := do
  let arguments ← scan Scanner.start rawValue.toList
  .ok (arguments.map String.ofList)

def boundArguments (arguments : List String) : Except ValueError (List String) :=
  if maxScriptArguments < arguments.length then
    .error "Managed scripts accept at most 64 arguments."
  else if arguments.any fun argument => argument.toList.contains '\x00' then
    .error "Managed script arguments cannot contain null bytes."
  else if arguments.any fun argument => maxScriptArgumentBytes < argument.utf8ByteSize then
    .error "Each managed script argument must be 4096 bytes or smaller."
  else if maxScriptArgumentsBytes < (arguments.map String.utf8ByteSize).sum then
    .error "Managed script arguments must total 16384 bytes or less."
  else .ok arguments

/-- `raw_value.replace("\\\r\n", "").replace("\\\n", "")`, a pass for each of the two. -/
def dropContinuations (ending : List Char) : List Char → List Char
  | [] => []
  | character :: rest =>
    if character = '\\' ∧ ending.isPrefixOf rest then
      dropContinuations ending (rest.drop ending.length)
    else character :: dropContinuations ending rest
termination_by text => text.length
decreasing_by
  all_goals simp only [List.length_drop, List.length_cons]
  all_goals omega

/-- `parse_script_arguments`, where `shlexSplit` is `shlex.split` in POSIX mode. -/
def parseScriptArguments (shlexSplit : List Char → Except ValueError (List String))
    (rawValue interpreter : String) : Except ValueError (List String) :=
  if interpreter = "powershell" then parsePowershellArguments rawValue >>= boundArguments
  else
    match shlexSplit (dropContinuations ['\n'] (dropContinuations ['\r', '\n'] rawValue.toList)) with
    | .ok arguments => boundArguments arguments
    | .error message => .error ("Managed script parameters are invalid: " ++ message ++ ".")

/-! ### Single-quoted literals -/

def doubleQuote (character : Char) : List Char :=
  if character = '\'' then ['\'', '\''] else [character]

def literal (argument : List Char) : List Char :=
  '\'' :: (argument.flatMap doubleQuote ++ ['\''])

/-- The literals with a space between them. -/
def joinLiterals : List (List Char) → List Char
  | [] => []
  | [argument] => literal argument
  | argument :: next :: rest => literal argument ++ ' ' :: joinLiterals (next :: rest)

def literals (arguments : List String) : String :=
  String.ofList (joinLiterals (arguments.map String.toList))

theorem scan_plain (scanner : Scanner) (character : Char) (rest : List Char)
    (unescaped : character ≠ '`') (single : character = '\'' → rest.head? ≠ some '\'') :
    scan scanner (character :: rest) = scan (scanner.read character) rest := by
  rw [scan.eq_7]
  · rintro rfl
    exact fun _ => unescaped rfl
  · rintro more rfl
    exact fun _ => unescaped rfl
  · rintro more rfl
    exact fun _ => unescaped rfl
  · rintro escaped more rfl
    exact fun _ => unescaped rfl
  · rintro more same rfl
    exact single same rfl

variable {argument : List Char} {arguments : List (List Char)}

theorem scan_literal_body (plain : '`' ∉ argument) (scanner : Scanner) (rest : List Char)
    (inside : scanner.quote = some '\'') (started : scanner.tokenStarted = true)
    (outside : rest.head? ≠ some '\'') :
    scan scanner (argument.flatMap doubleQuote ++ '\'' :: rest) =
      scan { scanner with current := scanner.current ++ argument, quote := none } rest := by
  induction argument generalizing scanner with
  | nil =>
    have closes : scanner.read '\'' =
        { scanner with current := scanner.current ++ [], quote := none } := by
      simp [Scanner.read, inside]
    rw [List.flatMap_nil, List.nil_append, scan_plain _ _ _ (by decide) (fun _ => outside),
      closes]
  | cons character argument induction =>
    have fewer : '`' ∉ argument := fun later => plain (List.mem_cons_of_mem _ later)
    have later := induction fewer (scanner.append character) inside rfl
    have joined : (scanner.append character).current ++ argument =
        scanner.current ++ character :: argument := by
      simp [Scanner.append]
    rw [joined] at later
    have same : ({ scanner.append character with
        current := scanner.current ++ character :: argument, quote := none } : Scanner) =
        { scanner with current := scanner.current ++ character :: argument, quote := none } := by
      simp [Scanner.append, started]
    rw [same] at later
    rw [List.flatMap_cons, List.append_assoc]
    by_cases quoted : character = '\''
    · subst quoted
      rw [doubleQuote, if_pos rfl, List.cons_append, List.singleton_append, scan,
        if_pos inside]
      exact later
    · have unescaped : character ≠ '`' := fun equal => plain (equal ▸ List.mem_cons_self)
      have reads : scanner.read character = scanner.append character := by
        have other : ¬(some '\'' = some character) := fun equal =>
          quoted (Option.some.inj equal).symm
        simp [Scanner.read, inside, quoted, other]
      rw [doubleQuote, if_neg quoted, List.singleton_append,
        scan_plain _ _ _ unescaped (fun equal => absurd equal quoted), reads]
      exact later

/-- A literal between tokens becomes the token that is open behind it. -/
theorem scan_literal (plain : '`' ∉ argument) (done : List (List Char)) (rest : List Char)
    (outside : rest.head? ≠ some '\'') :
    scan ⟨done, [], none, false⟩ (literal argument ++ rest) =
      scan ⟨done, argument, none, true⟩ rest := by
  have body := scan_literal_body plain ⟨done, [], some '\'', true⟩ rest rfl rfl outside
  have opens : (⟨done, [], none, false⟩ : Scanner).read '\'' = ⟨done, [], some '\'', true⟩ := rfl
  have whole : literal argument ++ rest =
      '\'' :: (argument.flatMap doubleQuote ++ '\'' :: rest) := by
    simp [literal]
  have unquoted : ¬((none : Option Char) = some '\'') := Option.some_ne_none _ ∘ Eq.symm
  rw [whole]
  -- Only an argument that starts with a doubled quote puts two quotes in front.
  cases argument with
  | nil =>
    rw [List.flatMap_nil, List.nil_append, scan, if_neg unquoted, opens]
    exact body
  | cons character argument =>
    by_cases quoted : character = '\''
    · subst quoted
      rw [List.flatMap_cons, doubleQuote, if_pos rfl, List.append_assoc, List.cons_append,
        scan, if_neg unquoted, opens]
      rw [List.flatMap_cons, doubleQuote, if_pos rfl, List.append_assoc, List.cons_append]
        at body
      exact body
    · have first : ((character :: argument).flatMap doubleQuote ++ '\'' :: rest).head? ≠
          some '\'' := by
        rw [List.flatMap_cons, doubleQuote, if_neg quoted, List.append_assoc,
          List.singleton_append, List.head?_cons]
        exact fun same => quoted (Option.some.inj same)
      rw [scan_plain _ _ _ (by decide) (fun _ => first), opens]
      exact body

theorem scan_literals (plain : ∀ argument ∈ arguments, '`' ∉ argument) (done : List (List Char)) :
    scan ⟨done, [], none, false⟩ (joinLiterals arguments) = .ok (done ++ arguments) := by
  induction arguments generalizing done with
  | nil => simp [joinLiterals, scan, Scanner.finish, Scanner.close]
  | cons argument arguments induction =>
    have first := plain argument List.mem_cons_self
    cases arguments with
    | nil =>
      have last := scan_literal first done [] (by simp)
      rw [List.append_nil] at last
      rw [joinLiterals, last]
      rfl
    | cons next rest =>
      have later := induction (fun other inside => plain other (List.mem_cons_of_mem _ inside))
        (done ++ [argument])
      have space : (⟨done, argument, none, true⟩ : Scanner).read ' ' =
          ⟨done ++ [argument], [], none, false⟩ := rfl
      rw [joinLiterals, scan_literal first done _ (by simp),
        scan_plain _ _ _ (by decide) (fun equal => absurd equal (by decide)), space, later,
        List.append_assoc, List.singleton_append]

/-! ### Backticks -/

def backticks (text : List Char) : Nat := text.count '`'

theorem backticks_cons (character : Char) (rest : List Char) :
    backticks (character :: rest) = backticks [character] + backticks rest := by
  rw [backticks, ← List.singleton_append, List.count_append]
  rfl

theorem backticks_single {character : Char} (other : character ≠ '`') :
    backticks [character] = 0 := by
  rw [backticks, List.count_singleton, beq_eq_false_iff_ne.mpr other]
  rfl

def Scanner.backticks (scanner : Scanner) : Nat :=
  ScriptArguments.backticks (scanner.arguments.flatten ++ scanner.current)

theorem backticks_append (scanner : Scanner) (character : Char) :
    (scanner.append character).backticks = scanner.backticks + backticks [character] := by
  simp only [Scanner.append, Scanner.backticks, backticks, List.count_append]
  omega

theorem backticks_close (scanner : Scanner) : scanner.close.backticks = scanner.backticks := by
  unfold Scanner.close
  split_ifs
  · simp [Scanner.backticks, List.flatten_append]
  · rfl

theorem backticks_read (scanner : Scanner) (character : Char) :
    (scanner.read character).backticks ≤ scanner.backticks + backticks [character] := by
  unfold Scanner.read
  split_ifs
  · exact Nat.le_add_right _ _
  · exact Nat.le_add_right _ _
  · rw [backticks_close]
    exact Nat.le_add_right _ _
  · exact Nat.le_of_eq (backticks_append scanner character)

/-- Every backtick that is kept was escaped by another one. -/
theorem scan_backticks {scanner : Scanner} {text : List Char}
    (scanned : scan scanner text = .ok arguments) :
    2 * backticks arguments.flatten ≤ 2 * scanner.backticks + backticks text := by
  fun_induction scan scanner text with
  | case1 scanner =>
    unfold Scanner.finish at scanned
    split_ifs at scanned
    have kept := backticks_close scanner
    cases scanned
    have whole : backticks scanner.close.arguments.flatten ≤ scanner.close.backticks := by
      simp only [Scanner.backticks, backticks, List.count_append]
      omega
    rw [kept] at whole
    omega
  | case2 scanner => cases scanned
  | case3 scanner rest induction =>
    have later := induction scanned
    rw [backticks_cons, backticks_cons '\r', backticks_cons '\n']
    omega
  | case4 scanner rest induction =>
    have later := induction scanned
    rw [backticks_cons, backticks_cons '\n']
    omega
  | case5 scanner escaped rest _ _ induction =>
    have later := induction scanned
    rw [backticks_append] at later
    have one : backticks [escaped] ≤ 1 := List.count_le_length
    have marker : backticks ['`'] = 1 := rfl
    rw [backticks_cons, backticks_cons escaped]
    omega
  | case6 scanner rest quoted induction =>
    have later := induction scanned
    have single := backticks_single (show '\'' ≠ '`' by decide)
    rw [backticks_append] at later
    have whole := backticks_cons '\'' ('\'' :: rest)
    have second := backticks_cons '\'' rest
    omega
  | case7 scanner rest unquoted induction =>
    have later := induction scanned
    have single := backticks_single (show '\'' ≠ '`' by decide)
    have read := backticks_read scanner '\''
    have whole := backticks_cons '\'' ('\'' :: rest)
    omega
  | case8 scanner character rest lone windows line escaped doubled induction =>
    have later := induction scanned
    have other : character ≠ '`' := by
      rintro rfl
      cases rest with
      | nil => exact lone rfl rfl
      | cons next more => exact escaped next more rfl rfl
    have single := backticks_single other
    have read := backticks_read scanner character
    rw [backticks_cons]
    omega

theorem backticks_literal (argument : List Char) :
    backticks (literal argument) = backticks argument := by
  have body : backticks (argument.flatMap doubleQuote) = backticks argument := by
    induction argument with
    | nil => rfl
    | cons character argument induction =>
      have doubled : backticks (doubleQuote character) = backticks [character] := by
        unfold doubleQuote
        split_ifs with quoted
        · rw [quoted]
          rfl
        · rfl
      rw [List.flatMap_cons, backticks_cons, ← induction, ← doubled, backticks,
        List.count_append]
      rfl
  have close : backticks (argument.flatMap doubleQuote ++ ['\'']) =
      backticks (argument.flatMap doubleQuote) := by
    rw [backticks, List.count_append]
    rfl
  rw [literal, backticks_cons, close, body, backticks_single (by decide), Nat.zero_add]

theorem backticks_literals (arguments : List (List Char)) :
    backticks (joinLiterals arguments) = backticks arguments.flatten := by
  induction arguments with
  | nil => rfl
  | cons argument arguments induction =>
    have flat : backticks (argument :: arguments).flatten =
        backticks argument + backticks arguments.flatten := by
      rw [List.flatten_cons, backticks, List.count_append]
      rfl
    cases arguments with
    | nil =>
      rw [joinLiterals, backticks_literal, flat]
      rfl
    | cons next rest =>
      have spaced : backticks (literal argument ++ ' ' :: joinLiterals (next :: rest)) =
          backticks (literal argument) + backticks (' ' :: joinLiterals (next :: rest)) :=
        List.count_append
      rw [joinLiterals, spaced, backticks_literal, backticks_cons,
        backticks_single (by decide), Nat.zero_add, induction, flat]

/-! ### The round trip -/

theorem bound_arguments_ok {arguments : List String} (few : arguments.length ≤ 64)
    (plain : ∀ argument ∈ arguments, '\x00' ∉ argument.toList)
    (short : ∀ argument ∈ arguments, argument.utf8ByteSize ≤ 4096)
    (total : (arguments.map String.utf8ByteSize).sum ≤ 16384) :
    boundArguments arguments = .ok arguments := by
  have clean : ¬(arguments.any fun argument => argument.toList.contains '\x00') = true := by
    rw [List.any_eq_true]
    rintro ⟨argument, inside, bad⟩
    exact plain argument inside (List.contains_iff_mem.mp bad)
  have sizes : ¬(arguments.any fun argument =>
      maxScriptArgumentBytes < argument.utf8ByteSize) = true := by
    rw [List.any_eq_true]
    rintro ⟨argument, inside, bad⟩
    exact Nat.not_lt.mpr (short argument inside) (of_decide_eq_true bad)
  have count : ¬maxScriptArguments < arguments.length := Nat.not_lt.mpr few
  have sum : ¬maxScriptArgumentsBytes < (arguments.map String.utf8ByteSize).sum :=
    Nat.not_lt.mpr total
  rw [boundArguments, if_neg count, if_neg clean, if_neg sizes, if_neg sum]

/-- Arguments within the limits are read back from their literals exactly when none of
them has a backtick. -/
theorem powershell_literals_iff (shlexSplit : List Char → Except ValueError (List String))
    (arguments : List String) (few : arguments.length ≤ 64)
    (plain : ∀ argument ∈ arguments, '\x00' ∉ argument.toList)
    (short : ∀ argument ∈ arguments, argument.utf8ByteSize ≤ 4096)
    (total : (arguments.map String.utf8ByteSize).sum ≤ 16384) :
    parseScriptArguments shlexSplit (literals arguments) "powershell" = .ok arguments ↔
      ∀ argument ∈ arguments, '`' ∉ argument.toList := by
  have bounded := bound_arguments_ok few plain short total
  have text : (literals arguments).toList = joinLiterals (arguments.map String.toList) :=
    String.toList_ofList
  have back : (arguments.map String.toList).map String.ofList = arguments := by
    rw [List.map_map]
    exact (List.map_congr_left fun argument _ => String.ofList_toList).trans (List.map_id _)
  rw [parseScriptArguments, if_pos rfl]
  constructor
  · intro parsed argument inside bad
    obtain ⟨read, split, limits⟩ := bind_ok_iff.mp parsed
    obtain ⟨tokens, scanned, same⟩ := bind_ok_iff.mp split
    cases same
    have unchanged : tokens.map String.ofList = arguments := by
      unfold boundArguments at limits
      split_ifs at limits
      exact Except.ok.inj limits
    have tokensBack : tokens = arguments.map String.toList := by
      rw [← unchanged, List.map_map]
      exact ((List.map_congr_left fun token _ => String.toList_ofList).trans
        (List.map_id _)).symm
    have halved := scan_backticks scanned
    rw [text, backticks_literals, tokensBack] at halved
    have nothing : Scanner.start.backticks = 0 := rfl
    have some : 0 < backticks (arguments.map String.toList).flatten :=
      List.count_pos_iff.mpr (List.mem_flatten.mpr
        ⟨argument.toList, List.mem_map.mpr ⟨argument, inside, rfl⟩, bad⟩)
    omega
  · intro clean
    have plain : ∀ token ∈ arguments.map String.toList, '`' ∉ token := by
      rintro token inside
      obtain ⟨argument, belongs, rfl⟩ := List.mem_map.mp inside
      exact clean argument belongs
    have scanned := scan_literals plain []
    rw [parsePowershellArguments, text, Scanner.start, scanned, ok_bind, List.nil_append, back,
      ok_bind, bounded]

theorem quoted_arguments_read_back : parseScriptArguments (fun _ => .ok [])
    (literals ["it's", "", "a \"b\"\n", "$HOME"]) "powershell" =
      .ok ["it's", "", "a \"b\"\n", "$HOME"] :=
  (powershell_literals_iff _ ["it's", "", "a \"b\"\n", "$HOME"] (by decide) (by decide)
    (by decide) (by decide)).mpr (by decide)

/-- A backtick in a literal escapes the character behind it. -/
theorem backtick_not_literal : ¬∀ shlexSplit arguments, arguments.length ≤ 64 →
    (∀ argument ∈ arguments, '\x00' ∉ argument.toList) →
      (∀ argument ∈ arguments, argument.utf8ByteSize ≤ 4096) →
        (arguments.map String.utf8ByteSize).sum ≤ 16384 →
          parseScriptArguments shlexSplit (literals arguments) "powershell" = .ok arguments := by
  intro claimed
  have parsed := claimed (fun _ => .ok []) ["a`b"] (by decide) (by decide) (by decide) (by decide)
  exact absurd parsed (by decide)

end Atlaso.Automation.ScriptArguments
