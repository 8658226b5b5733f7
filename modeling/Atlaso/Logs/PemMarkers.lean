import Atlaso.Library.StreamSearch
import Atlaso.Logs.SafeLines
import Mathlib.Data.List.Sort

/-!
`_scan_pem_markers`: the search for the markers of private keys in a stream that is read in
fragments.

The state between two fragments has the open marker's kind, the longest suffix that may begin
the next token, a hash over the label so far in blocks of sixteen bytes, and the hash of the
label of the open key. It is stored as JSON text; states of earlier releases are a mode letter
with the suffix behind it.
-/

namespace Atlaso.Logs.PemMarkers

open Library JsonText StreamSearch ProducerStore SafeLines

section Tokens

def ascii (text : String) : List UInt8 := text.toList.map fun c => UInt8.ofNat c.toNat

def beginToken : List UInt8 := ascii "-----BEGIN "

def endToken : List UInt8 := ascii "-----END "

def dashes : List UInt8 := ascii "-----"

def privateKeyWord : List UInt8 := ascii "PRIVATE KEY"

def shorterBeginnings (tokens : List (List UInt8)) : List (List UInt8) :=
  (tokens.flatMap fun token =>
    (List.range' 1 (token.length - 1)).map fun size => token.take size).insertionSort
      fun left right => right.length ≤ left.length

def startParts : List (List UInt8) := shorterBeginnings [beginToken, endToken]

def endParts : List (List UInt8) := shorterBeginnings [privateKeyWord ++ dashes, dashes]

/-- `next((part for part in parts if data.endswith(part)), b"")`. -/
def openSuffix (parts : List (List UInt8)) (data : List UInt8) : List UInt8 :=
  (parts.find? fun part => part.isSuffixOf data).getD []

/-- The mode of the search: outside a marker, or behind its first token. -/
inductive Mode where
  | outside | opening | closing
  deriving DecidableEq, Repr

def Mode.letter : Mode → String
  | .outside => "S"
  | .opening => "B"
  | .closing => "E"

def Mode.parts : Mode → List (List UInt8)
  | .outside => startParts
  | .opening | .closing => endParts

/-- `-----(BEGIN|END) ` at the front. -/
def startAt (data : List UInt8) : Option (Mode × List UInt8) :=
  if beginToken.isPrefixOf data then some (.opening, data.drop beginToken.length)
  else if endToken.isPrefixOf data then some (.closing, data.drop endToken.length)
  else none

def printable (byte : UInt8) : Bool := 0x20 ≤ byte && byte ≤ 0x7e

/-- `-----|[^ -~]` at the front, and whether it is dashes. -/
def boundaryAt (data : List UInt8) : Option (Bool × List UInt8) :=
  if dashes.isPrefixOf data then some (true, data.drop dashes.length)
  else match data with
    | byte :: rest => if printable byte then none else some (false, rest)
    | [] => none

end Tokens

section Scan

/-- What a hash has. -/
abbrev Digest := { bytes : List UInt8 // bytes.length = 32 }

def zeroDigest : Digest := ⟨List.replicate 32 0, rfl⟩

/-- What is carried between fragments. `active` is the hash of the label of the open key,
`!` when several are open. -/
structure State where
  mode : Mode
  suffix : List UInt8
  digest : Digest
  pending : List UInt8
  active : String
  deriving DecidableEq, Repr

def hexByte (byte : UInt8) : List Char :=
  [Nat.digitChar (byte.toNat / 16), Nat.digitChar (byte.toNat % 16)]

def hex (bytes : List UInt8) : String := String.ofList (bytes.flatMap hexByte)

/-- The local variables of the loop; `rest` is the data from the position on. -/
@[ext] structure Cursor where
  mode : Mode
  digest : Digest
  pending : List UInt8
  active : String
  last : Option Bool
  rest : List UInt8

variable (sha256 : List UInt8 → Digest)

def absorbBlocks (digest : Digest) (value : List UInt8) : Digest × List UInt8 :=
  if 16 ≤ value.length then
    absorbBlocks (sha256 (ascii "pem-label-block" ++ digest.1 ++ value.take 16)) (value.drop 16)
  else (digest, value)
termination_by value.length
decreasing_by
  rw [List.length_drop]
  omega

def absorb (cursor : Cursor) (value : List UInt8) : Cursor :=
  let absorbed := absorbBlocks sha256 cursor.digest (cursor.pending ++ value)
  { cursor with digest := absorbed.1, pending := absorbed.2 }

/-- The first half of the loop body: the next first token of a marker. -/
def enter (cursor : Cursor) : Option Cursor :=
  match search startAt cursor.rest with
  | none => none
  | some (_, mode, rest) =>
    some { cursor with mode, rest, digest := zeroDigest, pending := [] }

def closeMarker (cursor : Cursor) : String × Option Bool :=
  let label := hex (sha256 (ascii "pem-label-final" ++ cursor.digest.1 ++ cursor.pending)).1
  match cursor.mode with
  | .opening => (if cursor.active = "" then label else "!", some true)
  | _ =>
    if cursor.active = label then ("", some false)
    else (cursor.active, some (decide (cursor.active ≠ "")))

def isKeyLabel (label : List UInt8) (isDashes : Bool) : Bool :=
  isDashes && privateKeyWord.isSuffixOf label

def markerEnd (cursor : Cursor) (label : List UInt8) (isDashes : Bool) : String × Option Bool :=
  if isKeyLabel label isDashes then closeMarker sha256 (absorb sha256 cursor (label ++ dashes))
  else (cursor.active, cursor.last)

/-- Dashes that do not end the marker of a private key may begin the next marker. -/
def restBehind (label : List UInt8) (isDashes : Bool) (rest : List UInt8) : List UInt8 :=
  if isDashes && !isKeyLabel label isDashes then dashes ++ rest else rest

/-- The second half of the loop body: the end of the label. -/
def leave (cursor : Cursor) : Option Cursor :=
  match search boundaryAt cursor.rest with
  | none => none
  | some (label, isDashes, rest) =>
    some
      { mode := .outside
        digest := zeroDigest
        pending := []
        active := (markerEnd sha256 cursor label isDashes).1
        last := (markerEnd sha256 cursor label isDashes).2
        rest := restBehind label isDashes rest }

def Cursor.stopOutside (cursor : Cursor) : State × Option Bool :=
  ({ mode := cursor.mode
     suffix := openSuffix startParts cursor.rest
     digest := cursor.digest
     pending := cursor.pending
     active := cursor.active }, cursor.last)

def Cursor.stopInside (cursor : Cursor) : State × Option Bool :=
  let suffix := openSuffix endParts cursor.rest
  let absorbed := absorb sha256 cursor (cursor.rest.take (cursor.rest.length - suffix.length))
  ({ mode := absorbed.mode
     suffix
     digest := absorbed.digest
     pending := absorbed.pending
     active := absorbed.active }, absorbed.last)

end Scan

section Beginnings

variable {tokens : List (List UInt8)} {token data : List UInt8}

theorem mem_shorter_beginnings {part : List UInt8} :
    part ∈ shorterBeginnings tokens ↔
      ∃ token ∈ tokens, part ≠ [] ∧ part <+: token ∧ part.length < token.length := by
  unfold shorterBeginnings
  rw [List.mem_insertionSort, List.mem_flatMap]
  constructor
  · rintro ⟨token, listed, inSizes⟩
    obtain ⟨size, inRange, same⟩ := List.mem_map.mp inSizes
    obtain ⟨least, most⟩ := List.mem_range'_1.mp inRange
    subst same
    refine ⟨token, listed, ?_, List.take_prefix _ _, ?_⟩
    · intro empty
      rcases List.take_eq_nil_iff.mp empty with zero | nothing
      · omega
      · simp [nothing] at most
        omega
    · rw [List.length_take]
      omega
  · rintro ⟨token, listed, some, isBeginning, shorter⟩
    have positive := List.length_pos_iff.mpr some
    refine ⟨token, listed, List.mem_map.mpr ⟨part.length, List.mem_range'_1.mpr ?_,
      (List.prefix_iff_eq_take.mp isBeginning).symm⟩⟩
    omega

theorem shorter_beginnings_sorted (tokens : List (List UInt8)) :
    (shorterBeginnings tokens).Pairwise fun left right => right.length ≤ left.length := by
  have total : Std.Total fun left right : List UInt8 => right.length ≤ left.length :=
    ⟨fun left right => Nat.le_total right.length left.length⟩
  have transitive : IsTrans (List UInt8) fun left right => right.length ≤ left.length :=
    ⟨fun _ _ _ first second => second.trans first⟩
  exact List.pairwise_insertionSort _ _

def carried (parts : List (List UInt8)) (data : List UInt8) : Bool := decide (data ∈ parts)

theorem open_suffix_shorter (tokens : List (List UInt8)) (data : List UInt8) :
    openSuffix (shorterBeginnings tokens) data =
      longestSuffix (carried (shorterBeginnings tokens)) data :=
  find_longest_suffix (shorter_beginnings_sorted tokens) (fun _ => decide_eq_true_iff) data

theorem beginnings_closed (tokens : List (List UInt8)) (start rest : List UInt8)
    (listed : carried (shorterBeginnings tokens) (start ++ rest) = true) :
    start = [] ∨ carried (shorterBeginnings tokens) start = true := by
  by_cases empty : start = []
  · exact .inl empty
  · obtain ⟨token, among, -, isBeginning, shorter⟩ :=
      mem_shorter_beginnings.mp (of_decide_eq_true listed)
    refine .inr (decide_eq_true (mem_shorter_beginnings.mpr ⟨token, among, empty,
      (List.prefix_append start rest).trans isBeginning, ?_⟩))
    rw [List.length_append] at shorter
    omega

theorem open_suffix_append (tokens : List (List UInt8)) (first second : List UInt8) :
    openSuffix (shorterBeginnings tokens) (first ++ second) =
      openSuffix (shorterBeginnings tokens)
        (openSuffix (shorterBeginnings tokens) first ++ second) := by
  rw [open_suffix_shorter, open_suffix_shorter, open_suffix_shorter]
  exact longest_suffix_append (beginnings_closed tokens) first second

theorem token_beginnings (among : token ∈ tokens) (start rest : List UInt8)
    (whole : start ++ rest = token) (some : rest ≠ []) :
    start = [] ∨ carried (shorterBeginnings tokens) start = true := by
  by_cases empty : start = []
  · exact .inl empty
  · refine .inr (decide_eq_true (mem_shorter_beginnings.mpr ⟨token, among, empty,
      ⟨rest, whole⟩, ?_⟩))
    have positive := List.length_pos_iff.mpr some
    rw [← whole, List.length_append]
    omega

theorem beginnings_quiet {Found : Type} {matchAt : List UInt8 → Option (Found × List UInt8)}
    (checked : ∀ token ∈ tokens, ∀ size ∈ List.range' 1 (token.length - 1), (search matchAt
      (token.take size)).isNone = true) (listed : carried (shorterBeginnings tokens) data = true) :
    search matchAt data = none := by
  obtain ⟨token, among, some, isBeginning, shorter⟩ :=
    mem_shorter_beginnings.mp (of_decide_eq_true listed)
  have positive := List.length_pos_iff.mpr some
  have quiet := checked token among data.length (List.mem_range'_1.mpr (by omega))
  rw [← List.prefix_iff_eq_take.mp isBeginning] at quiet
  exact Option.isNone_iff_eq_none.mp quiet

theorem token_split (found : token <+: data) :
    data = token ++ data.drop token.length := by
  obtain ⟨rest, same⟩ := found
  rw [← same, List.drop_left]

theorem token_extends (found : token <+: data) (more : List UInt8) :
    (data ++ more).drop token.length = data.drop token.length ++ more := by
  rw [List.drop_append_of_le_length found.length_le]

theorem token_partial {more : List UInt8} (among : token ∈ tokens) (some : data ≠ [])
    (unseen : ¬token <+: data) (seen : token <+: data ++ more) :
    carried (shorterBeginnings tokens) data = true ∧
      ∃ taken, taken ≠ [] ∧ more = taken ++ (data ++ more).drop token.length := by
  obtain ⟨rest, whole⟩ := seen
  have dropped : (data ++ more).drop token.length = rest := by
    rw [← whole, List.drop_left]
  rw [dropped]
  rcases List.append_eq_append_iff.mp whole with ⟨middle, same, split⟩ | ⟨middle, same, split⟩
  · exact absurd ⟨middle, same.symm⟩ unseen
  · have nonempty : middle ≠ [] := by
      intro empty
      rw [empty, List.append_nil] at same
      exact unseen (same ▸ List.prefix_rfl)
    have listed := token_beginnings among data middle same.symm nonempty
    exact ⟨listed.resolve_left some, middle, nonempty, split⟩

end Beginnings

section Matchers

theorem begin_not_end : ¬endToken <+: beginToken := by decide

variable {data rest : List UInt8} {mode : Mode}

theorem start_at_some (found : startAt data = some (mode, rest)) :
    (beginToken <+: data ∧ mode = .opening ∧ rest = data.drop beginToken.length) ∨
      (¬beginToken <+: data ∧ endToken <+: data ∧ mode = .closing ∧
        rest = data.drop endToken.length) := by
  unfold startAt at found
  simp only [List.isPrefixOf_iff_prefix] at found
  by_cases opens : beginToken <+: data
  · rw [if_pos opens] at found
    cases found
    exact .inl ⟨opens, rfl, rfl⟩
  · rw [if_neg opens] at found
    by_cases closes : endToken <+: data
    · rw [if_pos closes] at found
      cases found
      exact .inr ⟨opens, closes, rfl, rfl⟩
    · rw [if_neg closes] at found
      exact absurd found nofun

theorem start_at_none (found : startAt data = none) :
    ¬beginToken <+: data ∧ ¬endToken <+: data := by
  unfold startAt at found
  simp only [List.isPrefixOf_iff_prefix] at found
  by_cases opens : beginToken <+: data
  · rw [if_pos opens] at found
    exact absurd found nofun
  · rw [if_neg opens] at found
    by_cases closes : endToken <+: data
    · rw [if_pos closes] at found
      exact absurd found nofun
    · exact ⟨opens, closes⟩

theorem start_at_takes (found : startAt data = some (mode, rest)) :
    ∃ taken, taken ≠ [] ∧ data = taken ++ rest := by
  rcases start_at_some found with ⟨opens, -, same⟩ | ⟨-, closes, -, same⟩
  · exact ⟨beginToken, by decide, same ▸ token_split opens⟩
  · exact ⟨endToken, by decide, same ▸ token_split closes⟩

theorem start_at_resumes : Resumes startAt (carried startParts) where
  extends_match := by
    intro data mode rest found more
    rcases start_at_some found with ⟨opens, rfl, rfl⟩ | ⟨other, closes, rfl, rfl⟩
    · have still : beginToken <+: data ++ more := opens.trans (List.prefix_append data more)
      rw [← token_extends opens more, startAt,
        if_pos (List.isPrefixOf_iff_prefix.mpr still)]
    · have still : endToken <+: data ++ more := closes.trans (List.prefix_append data more)
      have neither : ¬beginToken <+: data ++ more := by
        intro opens
        exact begin_not_end (List.prefix_of_prefix_length_le still opens (by decide))
      rw [← token_extends closes more, startAt,
        if_neg (mt List.isPrefixOf_iff_prefix.mp neither),
        if_pos (List.isPrefixOf_iff_prefix.mpr still)]
  partial_match := by
    intro data more mode rest some unseen found
    obtain ⟨notOpening, notClosing⟩ := start_at_none unseen
    rcases start_at_some found with ⟨opens, rfl, rfl⟩ | ⟨-, closes, rfl, rfl⟩
    · exact token_partial (by simp) some notOpening opens
    · exact token_partial (by simp) some notClosing closes
  quiet := beginnings_quiet (by decide)

theorem search_start_mode {before : List UInt8}
    (found : search startAt data = some (before, mode, rest)) : mode ≠ .outside := by
  induction data generalizing before with
  | nil => exact absurd found nofun
  | cons head tail induction =>
    cases here : startAt (head :: tail) with
    | some result =>
      obtain ⟨kind, behind⟩ := result
      rw [search_cons_some here] at found
      cases found
      rcases start_at_some here with ⟨-, same, -⟩ | ⟨-, -, same, -⟩ <;> rw [same] <;> nofun
    | none =>
      rw [search_cons_none here] at found
      obtain ⟨⟨beforeTail, result⟩, inTail, same⟩ := Option.map_eq_some_iff.mp found
      cases same
      exact induction inTail

theorem boundary_at_dashes (ends : dashes <+: data) :
    boundaryAt data = some (true, data.drop dashes.length) := by
  unfold boundaryAt
  rw [if_pos (List.isPrefixOf_iff_prefix.mpr ends)]

theorem boundary_at_byte {byte : UInt8} (other : ¬dashes <+: byte :: rest) :
    boundaryAt (byte :: rest) = if printable byte then none else some (false, rest) := by
  unfold boundaryAt
  rw [if_neg (mt List.isPrefixOf_iff_prefix.mp other)]

theorem boundary_at_some {isDashes : Bool} (found : boundaryAt data = some (isDashes, rest)) :
    (dashes <+: data ∧ isDashes = true ∧ rest = data.drop dashes.length) ∨
      (¬dashes <+: data ∧ isDashes = false ∧
        ∃ byte, data = byte :: rest ∧ printable byte = false) := by
  unfold boundaryAt at found
  simp only [List.isPrefixOf_iff_prefix] at found
  by_cases ends : dashes <+: data
  · rw [if_pos ends] at found
    cases found
    exact .inl ⟨ends, rfl, rfl⟩
  · rw [if_neg ends] at found
    cases data with
    | nil => exact absurd found nofun
    | cons byte tail =>
      cases visible : printable byte with
      | true => simp [visible] at found
      | false =>
        simp only [visible, Bool.false_eq_true, if_false, Option.some.injEq,
          Prod.mk.injEq] at found
        obtain ⟨rfl, rfl⟩ := found
        exact .inr ⟨ends, rfl, byte, rfl, visible⟩

theorem boundary_at_takes {isDashes : Bool} (found : boundaryAt data = some (isDashes, rest)) :
    ∃ taken, taken ≠ [] ∧ data = taken ++ rest := by
  rcases boundary_at_some found with ⟨ends, -, same⟩ | ⟨-, -, byte, same, -⟩
  · exact ⟨dashes, by decide, same ▸ token_split ends⟩
  · exact ⟨[byte], List.cons_ne_nil _ _, same⟩

theorem boundary_at_resumes : Resumes boundaryAt (carried endParts) where
  extends_match := by
    intro data isDashes rest found more
    rcases boundary_at_some found with ⟨ends, rfl, rfl⟩ | ⟨other, rfl, byte, rfl, visible⟩
    · have still : dashes <+: data ++ more := ends.trans (List.prefix_append data more)
      rw [← token_extends ends more, boundary_at_dashes still]
    · have never : ¬dashes <+: (byte :: rest) ++ more := by
        intro ends
        have first : byte = 0x2d := by
          obtain ⟨behind, same⟩ := ends
          exact (List.cons.inj same).1.symm
        rw [first] at visible
        exact absurd visible (by decide)
      refine (boundary_at_byte never).trans ?_
      simp [visible]
  partial_match := by
    intro data more isDashes rest some unseen found
    have notEnding : ¬dashes <+: data := by
      intro ends
      rw [boundary_at_dashes ends] at unseen
      exact absurd unseen nofun
    rcases boundary_at_some found with ⟨ends, rfl, rfl⟩ | ⟨-, rfl, byte, same, visible⟩
    · exact token_partial (by simp) some notEnding ends
    · cases data with
      | nil => exact absurd rfl some
      | cons head tail =>
        cases same
        rw [boundary_at_byte notEnding] at unseen
        simp [visible] at unseen
  quiet := beginnings_quiet (by decide)

theorem search_boundary_dashes {label : List UInt8}
    (found : search boundaryAt data = some (label, true, rest)) :
    data = label ++ (dashes ++ rest) := by
  induction data generalizing label with
  | nil => exact absurd found nofun
  | cons head tail induction =>
    cases here : boundaryAt (head :: tail) with
    | some result =>
      obtain ⟨isDashes, behind⟩ := result
      rw [search_cons_some here] at found
      cases found
      rcases boundary_at_some here with ⟨ends, -, same⟩ | ⟨-, never, -⟩
      · rw [List.nil_append, same]
        exact token_split ends
      · exact absurd never nofun
    | none =>
      rw [search_cons_none here] at found
      obtain ⟨⟨labelTail, result⟩, inTail, same⟩ := Option.map_eq_some_iff.mp found
      cases same
      exact congrArg (List.cons head) (induction inTail)

end Matchers

section Loop

variable (sha256 : List UInt8 → Digest)

theorem enter_shorter {cursor entered : Cursor} (entering : enter cursor = some entered) :
    entered.rest.length < cursor.rest.length ∧ entered.mode ≠ .outside := by
  unfold enter at entering
  cases found : search startAt cursor.rest with
  | none =>
    rw [found] at entering
    exact absurd entering nofun
  | some result =>
    obtain ⟨before, mode, rest⟩ := result
    rw [found] at entering
    cases entering
    obtain ⟨taken, some, split⟩ := search_rest start_at_takes found
    have positive := List.length_pos_iff.mpr some
    refine ⟨?_, search_start_mode found⟩
    rw [split, List.length_append]
    exact Nat.lt_add_of_pos_left positive

theorem leave_shorter {cursor left : Cursor} (leaving : leave sha256 cursor = some left) :
    left.rest.length ≤ cursor.rest.length ∧ left.mode = .outside := by
  unfold leave at leaving
  cases found : search boundaryAt cursor.rest with
  | none =>
    rw [found] at leaving
    exact absurd leaving nofun
  | some result =>
    obtain ⟨label, isDashes, rest⟩ := result
    rw [found] at leaving
    cases leaving
    refine ⟨?_, rfl⟩
    change (restBehind label isDashes rest).length ≤ cursor.rest.length
    unfold restBehind
    by_cases again : (isDashes && !isKeyLabel label isDashes) = true
    · rw [if_pos again]
      cases isDashes with
      | false => exact absurd again nofun
      | true =>
        rw [search_boundary_dashes found]
        exact (List.suffix_append label (dashes ++ rest)).length_le
    · rw [if_neg again]
      obtain ⟨taken, -, split⟩ := search_rest boundary_at_takes found
      rw [split, List.length_append]
      exact Nat.le_add_left _ _

/-- The mode in which the rest is searched for the end of a label: the current one, or that of
the next marker. -/
def Cursor.inside (cursor : Cursor) : Option Cursor :=
  if cursor.mode = .outside then enter cursor else some cursor

/-- The loop of `_scan_pem_markers`. -/
def scanLoop (cursor : Cursor) : State × Option Bool :=
  match _entering : cursor.inside with
  | none => cursor.stopOutside
  | some entered =>
    match _leaving : leave sha256 entered with
    | none => entered.stopInside sha256
    | some left => scanLoop left
termination_by 2 * cursor.rest.length + (if cursor.mode = .outside then 0 else 1)
decreasing_by
  have ended := leave_shorter sha256 _leaving
  have entering := _entering
  unfold Cursor.inside at entering
  by_cases outside : cursor.mode = .outside
  · rw [if_pos outside] at entering
    have begun := enter_shorter entering
    rw [if_pos outside, if_pos ended.2]
    omega
  · rw [if_neg outside] at entering
    cases entering
    rw [if_neg outside, if_pos ended.2]
    omega

/-- The next fragment behind what has been carried. -/
def State.resume (state : State) (last : Option Bool) (chunk : List UInt8) : Cursor where
  mode := state.mode
  digest := state.digest
  pending := state.pending
  active := state.active
  last
  rest := state.suffix ++ chunk

/-- `_scan_pem_markers`: the state behind a fragment, and what its last marker of a private key
says. -/
def scan (state : State) (chunk : List UInt8) : State × Option Bool :=
  scanLoop sha256 (state.resume none chunk)

def Cursor.more (cursor : Cursor) (chunk : List UInt8) : Cursor :=
  { cursor with rest := cursor.rest ++ chunk }

def Cursor.answered (cursor : Cursor) (earlier : Option Bool) : Cursor :=
  { cursor with last := cursor.last.or earlier }

end Loop

end Atlaso.Logs.PemMarkers
