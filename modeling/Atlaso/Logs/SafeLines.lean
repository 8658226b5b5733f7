import Atlaso.Library.PhysicalLines
import Atlaso.Logs.ProducerStore

/-!
`_safe_lines`: complete lines sanitized one by one, with an unfinished private key carried
from each line to the next.

The search for PEM markers inside one line and the redaction of one value are parameters.
The search keeps its state as JSON text and takes up every state it has written.
-/

namespace Atlaso.Logs.SafeLines

open Library Dictionary JsonText LineText Outcomes PhysicalLines
open ProducerStore

def parserMessage : String := "Invalid private-key parser state."

def carryState (carry : String) : Except Raised (String × String) :=
  match loads carry with
  | some (.array (.string mode :: .string suffix :: _)) => .ok (mode, suffix)
  | _ => .error (.valueError parserMessage)

def openState : String :=
  "[\"S\", \"\", \"" ++ String.ofList (List.replicate 64 '0') ++ "\", \"\", \"!\"]"

/-- `_scan_pem_markers` and `redact_task_value`. -/
structure Scanner where
  scanPemMarkers : List UInt8 → String → Except Raised (Option Bool × String)
  redactTaskValue : String → String
  Scans : String → Prop
  scans_start : Scans ""
  scans_open : Scans openState
  scans_result : ∀ chunk carry, Scans carry → ∃ marker after mode suffix,
    scanPemMarkers chunk carry = .ok (marker, after) ∧ Scans after ∧
      carryState after = .ok (mode, suffix)

/-- What the loop carries from line to line. -/
structure Scan where
  output : List String
  privateKey : Bool
  carry : String
  deriving DecidableEq, Repr

section Loop

variable (scanner : Scanner)

/-- The text of one line and the state behind it, from what the search found in it; `hold`
is `parser.get("hold") == "1"`. -/
def scanned (hold : Bool) (scan : Scan) (line : String) (marker : Option Bool)
    (carry mode suffix : String) : Scan :=
  let privateKey := scan.privateKey || hold
  let concealed := privateKey || marker.isSome || decide (mode ≠ "S") || decide (suffix ≠ "")
  let text := if concealed then concealedText else scanner.redactTaskValue line
  { output := scan.output ++ [text]
    privateKey := marker.getD privateKey || decide (mode = "B") || hold
    carry := carry }

def scanLine (hold : Bool) (scan : Scan) (line : String) : Except Raised Scan := do
  let (marker, carry) ←
    scanner.scanPemMarkers (Library.ByteWords.utf8Encode line) scan.carry
  let (mode, suffix) ← carryState carry
  .ok (scanned scanner hold scan line marker carry mode suffix)

def startState (privateKey : Bool) (carry : String) : String :=
  if privateKey && !(carry.toList.head? == some '[') then openState else carry

def safeLines (lines : List String) (privateKey : Bool) (parser : Parser) :
    Except Raised (List String × Bool × Parser) := do
  let hold := getItem "hold" parser = some "1"
  let carry := startState privateKey ((getItem "carry" parser).getD "")
  let scan ← (lines.flatMap captureLines).foldlM (scanLine scanner hold) ⟨[], privateKey, carry⟩
  .ok (scan.output, scan.privateKey, setItem "carry" scan.carry parser)

variable {scanner}

theorem scan_line_total {scan : Scan} (hold : Bool) (line : String)
    (scans : scanner.Scans scan.carry) :
    ∃ after, scanLine scanner hold scan line = .ok after ∧ scanner.Scans after.carry ∧
      after.output.length = scan.output.length + 1 := by
  obtain ⟨marker, carry, mode, suffix, found, kept, read⟩ :=
    scanner.scans_result (Library.ByteWords.utf8Encode line) scan.carry scans
  refine ⟨scanned scanner hold scan line marker carry mode suffix, ?_, kept, ?_⟩
  · simp only [scanLine, found, ok_bind, read]
  · simp [scanned]

theorem scan_lines_total {scan : Scan} (hold : Bool) (lines : List String)
    (scans : scanner.Scans scan.carry) :
    ∃ after, lines.foldlM (scanLine scanner hold) scan = .ok after ∧
      scanner.Scans after.carry ∧ after.output.length = scan.output.length + lines.length := by
  induction lines generalizing scan with
  | nil => exact ⟨scan, rfl, scans, rfl⟩
  | cons line lines induction =>
    obtain ⟨middle, first, kept, output⟩ := scan_line_total hold line scans
    obtain ⟨after, rest, scansAfter, lengths⟩ := induction kept
    refine ⟨after, ?_, scansAfter, ?_⟩
    · rw [List.foldlM_cons, first, ok_bind, rest]
    · rw [lengths, output, List.length_cons]
      omega

/-- A scanned batch of lines has one text for every line Python splits off them. -/
theorem safe_lines_total {parser : Parser} (lines : List String) (privateKey : Bool)
    (scans : scanner.Scans ((getItem "carry" parser).getD "")) :
    ∃ result, safeLines scanner lines privateKey parser = .ok result ∧
      scanner.Scans ((getItem "carry" result.2.2).getD "") ∧
      result.1.length = (lines.flatMap captureLines).length := by
  have start : scanner.Scans (startState privateKey ((getItem "carry" parser).getD "")) := by
    rw [startState]
    split_ifs
    · exact scanner.scans_open
    · exact scans
  obtain ⟨after, looped, kept, lengths⟩ := @scan_lines_total scanner
    ⟨[], privateKey, startState privateKey ((getItem "carry" parser).getD "")⟩
    (getItem "hold" parser = some "1") (lines.flatMap captureLines) start
  refine ⟨(after.output, after.privateKey, setItem "carry" after.carry parser), ?_, ?_, ?_⟩
  · simp only [safeLines, looped, ok_bind]
  · rw [get_item_set_item, if_pos rfl]
    exact kept
  · simpa using lengths

theorem capture_lines_complete {line : String} (complete : isComplete line = true) :
    (captureLines line).length = 1 := by
  simp only [isComplete, Bool.or_eq_true, decide_eq_true_eq] at complete
  rcases complete with rfl | single
  · decide
  · rw [captureLines, single]
    rfl

theorem capture_lines_length {lines : List String}
    (complete : ∀ line ∈ lines, isComplete line = true) :
    (lines.flatMap captureLines).length = lines.length := by
  induction lines with
  | nil => rfl
  | cons line lines induction =>
    rw [List.flatMap_cons, List.length_append,
      capture_lines_complete (complete line List.mem_cons_self),
      induction fun other inside => complete other (List.mem_cons_of_mem line inside),
      List.length_cons, Nat.add_comm]

end Loop

def services (scanner : Scanner) (redactOperationalText : String → String)
    (hmac : List UInt8 → List UInt8) : Services where
  safeLines := safeLines scanner
  redactOperationalText := redactOperationalText
  hmac := hmac
  Scans := fun parser => scanner.Scans ((getItem "carry" parser).getD "")
  scans_empty := scanner.scans_start
  scans_result := by
    intro lines privateKey parser scans
    obtain ⟨result, done, kept, -⟩ := safe_lines_total lines privateKey scans
    exact ⟨result, done, kept⟩

end Atlaso.Logs.SafeLines
