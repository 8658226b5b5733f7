import Atlaso.Logs.ProducerStore
import Mathlib.Data.List.Sort
import Mathlib.Data.List.MinMax

/-!
The reading side of `producer_log_history`: pages of rows in either direction, their signed
positions, and the search for the number of rows that fit the response.

The signing serializer is a parameter. Its tokens compress the position, so their length is
not monotone in it.
-/

namespace Atlaso.Logs.LogPaging

open Library Dictionary JsonText NumberedLog ProducerStore

def PAGE_BYTES : Nat := 1024 * 1024

structure ProducerPage where
  generation : String
  (through start after : Nat)
  lines : List String
  more : Bool
  oldest : Nat
  deriving DecidableEq, Repr

/-- `SELECT MIN(sequence)` and `SELECT MAX(sequence)`. -/
def firstSequence (store : Store) : Option Nat := (store.records.map Record.sequence).min?

def lastSequence (store : Store) : Option Nat := (store.records.map Record.sequence).max?

/-- `WHERE sequence>? AND sequence<=? ORDER BY sequence LIMIT ?`. -/
def selectAfter (store : Store) (after boundary limit : Nat) : List (Record String) :=
  ((store.records.filter fun record =>
    decide (after < record.sequence) && decide (record.sequence ≤ boundary)).insertionSort
      fun left right => left.sequence ≤ right.sequence).take limit

/-- `WHERE sequence<=? ORDER BY sequence DESC LIMIT ?`. -/
def selectBefore (store : Store) (boundary limit : Nat) : List (Record String) :=
  ((store.records.filter fun record => decide (record.sequence ≤ boundary)).insertionSort
    fun left right => right.sequence ≤ left.sequence).take limit

/-- The loop that stops before the row that would pass the byte budget. -/
def takeWithin (used : Nat) : List (Record String) → List (Record String)
  | [] => []
  | record :: records =>
    if BATCH_BYTES < used + (lineSize record.text + 1) then []
    else record :: takeWithin (used + (lineSize record.text + 1)) records

def replacedMessage : String := "Producer history was replaced; reopen retained history."

def positionMessage : String := "Invalid producer history position."

def boundaryExpired : String := "Producer history boundary expired through retention."

def positionExpired : String := "Producer history position expired through retention."

section Reading

variable (source observed : String) (store : Store)

def readPage (after : Nat) (through : Option Nat) (generation : Option String)
    (limit : Nat) : Except Raised ProducerPage :=
  let newest := (store.producer.getD (0, 0)).1
  let boundary := through.getD newest
  let first := firstSequence store
  if !(decide (1 ≤ limit) && decide (limit ≤ 500)) ||
      through.any (fun through => decide (through < after)) then
    .error (.valueError positionMessage)
  else if !SOURCES.contains source then
    .error (.valueError "Invalid producer history source.")
  else if generation.any (fun generation => decide (generation ≠ observed)) then
    .error (.valueError replacedMessage)
  else if newest < boundary ∨ newest < after then
    .error (.valueError "Producer history boundary is unavailable.")
  else if through.any (fun through => decide (0 < through) &&
      first.any fun first => decide (through < first)) then
    .error (.valueError boundaryExpired)
  else if (decide (0 < after) || through.any fun through => decide (0 < through)) &&
      first.any (fun first => decide (after + 1 < first)) then
    .error (.valueError positionExpired)
  else
    let output := takeWithin 0 (selectAfter store after boundary limit)
    let position := (output.getLast?.map Record.sequence).getD after
    .ok {
      generation := observed
      through := boundary
      start := if output.isEmpty then after
        else (first.map fun first => max after (first - 1)).getD after
      after := position
      lines := output.map Record.text
      more := decide (position < newest)
      oldest := first.getD 0 }

def readTail (before : Option Nat) (generation : Option String) (limit : Nat) :
    Except Raised ProducerPage :=
  let last := (lastSequence store).getD 0
  let first := firstSequence store
  let boundary := before.getD last
  if !(decide (1 ≤ limit) && decide (limit ≤ 500)) then
    .error (.valueError positionMessage)
  else if !SOURCES.contains source then
    .error (.valueError "Invalid producer history source.")
  else if generation.any (fun generation => decide (generation ≠ observed)) then
    .error (.valueError replacedMessage)
  else if decide (last < boundary) ||
      (decide (0 < boundary) && first.any fun first => decide (boundary < first)) then
    .error (.valueError boundaryExpired)
  else
    let rows := (takeWithin 0 (selectBefore store boundary limit)).reverse
    let finish := (rows.getLast?.map Record.sequence).getD boundary
    .ok {
      generation := observed
      through := boundary
      start := (rows.head?.map fun row => row.sequence - 1).getD boundary
      after := finish
      lines := rows.map Record.text
      more := decide (finish < last)
      oldest := first.getD 0 }

end Reading

/-! ### Signed positions -/

/-- The value `encode_cursor(source, kind="producer", generation=..., **position)` signs. -/
def cursorValue (source generation : String) (position : List (String × Json)) : Json :=
  .object (("source", .string source) :: ("kind", .string "producer") ::
    ("generation", .string generation) :: position)

inductive IsPosition : List (String × Json) → Prop where
  | next (after : Nat) : IsPosition [("after", .int after)]
  | previous (before : Nat) : IsPosition [("before", .int before)]
  | own (after through : Nat) : IsPosition [("after", .int after), ("through", .int through)]

/-- `itsdangerous.URLSafeSerializer` under the appliance's key: a token is read back to
what was signed, has only URL-safe characters, and is no longer than the base64 form of the
JSON text with a signature. -/
structure Signer where
  dumps : Json → String
  loads : String → Option Json
  loads_dumps : ∀ source generation position, IsPosition position →
    loads (dumps (cursorValue source generation position)) =
      some (cursorValue source generation position)
  dumps_some : ∀ source generation position,
    dumps (cursorValue source generation position) ≠ ""
  dumps_plain : ∀ source generation position, IsPosition position →
    ∀ c ∈ (dumps (cursorValue source generation position)).toList, escapeChar c = [c]
  dumps_length : ∀ source generation position, IsPosition position →
    (dumps (cursorValue source generation position)).toList.length ≤
      2 * (render (cursorValue source generation position)).length + 64

structure ViewerPage where
  source : String
  available : Bool
  (text cursor nextCursor previousCursor : String)
  (hasMore reset : Bool)
  notice : String
  deriving DecidableEq, Repr

/-- A member of the answer as `json.dumps` writes it. -/
def fieldText (key : String) (value : Json) : List Char := quote key ++ ':' :: ' ' :: render value

/-- `json.dumps(page, ensure_ascii=True)`. -/
def pageText (page : ViewerPage) : List Char :=
  '\x7b' :: (List.intercalate [',', ' '] [
    fieldText "source" (.string page.source), fieldText "available" (.bool page.available),
    fieldText "text" (.string page.text), fieldText "cursor" (.string page.cursor),
    fieldText "next_cursor" (.string page.nextCursor),
    fieldText "previous_cursor" (.string page.previousCursor),
    fieldText "has_more" (.bool page.hasMore), fieldText "reset" (.bool page.reset),
    fieldText "notice" (.string page.notice)] ++ ['\x7d'])

section Viewing

variable (signer : Signer) (source : String)

def encodeCursor (generation : String) (position : List (String × Json)) : String :=
  signer.dumps (cursorValue source generation position)

/-- Whether a member is there and is this text. -/
def isText (expected : String) : Option Json → Bool
  | some (.string text) => text = expected
  | _ => false

def decodeCursor (cursor : String) : Except Raised (List (String × Json)) :=
  if cursor = "" then .ok []
  else if 4096 < cursor.toList.length then .error (.valueError "Invalid log history position.")
  else match signer.loads cursor with
    | none => .error (.valueError "Invalid log history position. Open the log again.")
    | some (.object members) =>
      if isText source (getItem "source" members) then .ok members
      else .error (.valueError "Log history position belongs to another source.")
    | some _ => .error (.valueError "Log history position belongs to another source.")

/-- The response with the first, or with the last, `count` rows of the page. -/
def renderPage (page : ProducerPage) (backward : Bool) (count : Nat) : ViewerPage :=
  let lines := if backward && decide (0 < count) then
      page.lines.drop (page.lines.length - count)
    else page.lines.take count
  let start := if backward then page.after - count else page.start
  let after := if backward then page.after else page.start + count
  { source := source
    available := true
    text := String.intercalate "\n" lines
    cursor := encodeCursor signer source page.generation
      [("after", .int start), ("through", .int after)]
    nextCursor := encodeCursor signer source page.generation [("after", .int after)]
    previousCursor := if page.oldest ≤ start ∧ 0 < page.oldest then
        encodeCursor signer source page.generation [("before", .int start)]
      else ""
    hasMore := page.more || (!backward && decide (count < page.lines.length))
    reset := false
    notice := "" }

/-- Whether the response with `count` rows is within the wire budget. -/
def fitsBudget (page : ProducerPage) (backward : Bool) (count : Nat) : Bool :=
  decide ((pageText (renderPage signer source page backward count)).length ≤ PAGE_BYTES)

/-- `while low < high`. The interval loses at least one number in each round. -/
def searchCount (fits : Nat → Bool) : Nat → Nat → Nat → Nat
  | 0, low, _ => low
  | fuel + 1, low, high =>
    if low < high then
      let middle := (low + high + 1) / 2
      if fits middle then searchCount fits fuel middle high
      else searchCount fits fuel low (middle - 1)
    else low

def boundedViewerPage (page : ProducerPage) (backward : Bool) : Except Raised ViewerPage :=
  let low := searchCount (fitsBudget signer source page backward) page.lines.length 0
    page.lines.length
  if !page.lines.isEmpty && decide (low = 0) then
    .error (.valueError "Producer record exceeds the viewer response budget.")
  else .ok (renderPage signer source page backward low)

/-- `position["generation"]`, where null stands for none. -/
def positionGeneration (position : List (String × Json)) : Except Raised (Option String) :=
  match getItem "generation" position with
  | none | some .null => .ok none
  | some (.string generation) => .ok (some generation)
  | some _ => .error (.valueError "Invalid producer history identity.")

def positionNumber (key : String) (position : List (String × Json)) :
    Except Raised (Option Nat) :=
  match getItem key position with
  | none => .ok none
  | some (.int value) =>
    if 0 ≤ value then .ok (some value.toNat) else .error (.valueError positionMessage)
  | some _ => .error (.valueError positionMessage)

def viewerPage (observed : String) (store : Store) (cursor : String) (tail : Bool)
    (limit : Nat) : Except Raised ViewerPage := do
  let position ← decodeCursor signer source cursor
  if !position.isEmpty && !isText "producer" (getItem "kind" position) then
    .error (.valueError "Log history position belongs to another storage generation.")
  else do
    let generation ← positionGeneration position
    let after ← positionNumber "after" position
    let through ← positionNumber "through" position
    let before ← positionNumber "before" position
    let backward := tail || before.isSome
    let page ← if backward then
        readTail source observed store (if tail then none else before) generation limit
      else readPage source observed store (after.getD 0) through generation limit
    boundedViewerPage signer source page backward

end Viewing

end Atlaso.Logs.LogPaging
