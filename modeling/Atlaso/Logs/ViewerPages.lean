import Atlaso.Library.JsonSize
import Atlaso.Logs.PageRanges
import Mathlib.Data.List.Flatten

/-!
The pages of the log viewer: how the response budget cuts a range of rows, and what the
signed positions of a page select when they are sent back.
-/

namespace Atlaso.Logs.ViewerPages

open Library Dictionary JsonSize JsonText NumberedLog Outcomes
open ProducerStore LogPaging PageRanges

/-! ### The search for the number of rows -/

theorem search_count_bounds (fits : Nat → Bool) (fuel low high : Nat) (ordered : low ≤ high) :
    low ≤ searchCount fits fuel low high ∧ searchCount fits fuel low high ≤ high := by
  induction fuel generalizing low high with
  | zero => exact ⟨Nat.le_refl _, ordered⟩
  | succ fuel induction =>
    simp only [searchCount]
    split_ifs with open_ found
    · have bounds := induction ((low + high + 1) / 2) high (by omega)
      omega
    · have bounds := induction low ((low + high + 1) / 2 - 1) (by omega)
      omega
    · omega

theorem search_count_all (fits : Nat → Bool) (fuel low high : Nat) (ordered : low ≤ high)
    (enough : high - low ≤ fuel) (all : ∀ count, low < count → count ≤ high → fits count = true) :
    searchCount fits fuel low high = high := by
  induction fuel generalizing low high with
  | zero =>
    simp only [searchCount]
    omega
  | succ fuel induction =>
    simp only [searchCount]
    split_ifs with open_ found
    · refine induction ((low + high + 1) / 2) high (by omega) (by omega) ?_
      intro count above below
      exact all count (by omega) below
    · exact absurd (all ((low + high + 1) / 2) (by omega) (by omega)) found
    · omega

theorem search_count_some (fits : Nat → Bool) (fuel high : Nat) (enough : high ≤ fuel)
    (some : 1 ≤ high) (one : fits 1 = true) : 1 ≤ searchCount fits fuel 0 high := by
  induction fuel generalizing high with
  | zero => omega
  | succ fuel induction =>
    simp only [searchCount]
    split_ifs with open_ found
    · have bounds := search_count_bounds fits fuel ((0 + high + 1) / 2) high (by omega)
      omega
    · refine induction ((0 + high + 1) / 2 - 1) (by omega) ?_
      by_contra none
      have middle : (0 + high + 1) / 2 = 1 := by omega
      rw [middle] at found
      exact found one
    · omega

/-! ### The size of a response -/

theorem escape_char_length (c : Char) : (escapeChar c).length ≤ 12 := by
  unfold escapeChar
  split_ifs
  all_goals simp [escapeUnit]

theorem quote_length_le (text : String) : (quote text).length ≤ 12 * text.toList.length + 2 := by
  have each : ∀ chars : List Char, (chars.flatMap escapeChar).length ≤ 12 * chars.length := by
    intro chars
    induction chars with
    | nil => simp
    | cons c chars induction =>
      have first := escape_char_length c
      simp only [List.flatMap_cons, List.length_append, List.length_cons]
      omega
  have bound := each text.toList
  simp only [quote, List.length_cons, List.length_append, List.length_nil]
  omega

theorem utf8_size_le_escape (c : Char) : c.utf8Size ≤ (escapeChar c).length := by
  have four : c.utf8Size ≤ 4 := Char.utf8Size_le_four c
  unfold escapeChar
  split_ifs with quoted slash newline carriage tab back feed visible basic
  · subst quoted; decide
  · subst slash; decide
  · subst newline; decide
  · subst carriage; decide
  · subst tab; decide
  · subst back; decide
  · subst feed; decide
  · have one : c.utf8Size = 1 := by
      rw [Char.utf8Size_eq_one_iff]
      exact UInt32.le_iff_toNat_le.mpr (Nat.le_trans visible.2 (by decide))
    rw [one]
    exact Nat.le_refl _
  · simp only [escapeUnit, List.length_cons, List.length_nil]
    omega
  · simp only [escapeUnit, List.length_append, List.length_cons, List.length_nil]
    omega

theorem line_size_le_quote (text : String) : lineSize text + 2 ≤ (quote text).length := by
  have each : ∀ chars : List Char,
      chars.utf8Encode.size ≤ (chars.flatMap escapeChar).length := by
    intro chars
    induction chars with
    | nil => exact Nat.le_refl _
    | cons c chars induction =>
      have first := utf8_size_le_escape c
      rw [List.utf8Encode_cons, ByteArray.size_append, List.utf8Encode_singleton,
        List.flatMap_cons, List.length_append]
      simp only [List.size_toByteArray, String.length_utf8EncodeChar]
      omega
  have bytes : lineSize text = text.toList.utf8Encode.size := by
    rw [lineSize, ← String.size_toByteArray, ← String.toByteArray_ofList, String.ofList_toList]
  have bound := each text.toList
  rw [bytes]
  simp only [quote, List.length_cons, List.length_append, List.length_nil]
  omega

/-! ### Signed positions -/

section Positions

variable (signer : Signer) {source observed : String}

structure SmallPosition (position : List (String × Json)) : Prop where
  shape : IsPosition position
  keys : ∀ member ∈ position, member.1.toList.length ≤ 7
  numbers : ∀ member ∈ position, ∃ value : Nat, value < 2 ^ 63 ∧ member.2 = .int value

theorem small_member {member : String × Json} (key : member.1.toList.length ≤ 7)
    (number : ∃ value : Nat, value < 2 ^ 63 ∧ member.2 = .int value) :
    (memberText member).length + 1 ≤ 107 := by
  obtain ⟨value, small, same⟩ := number
  have digits := @render_int_length value 19 (Nat.lt_trans small (by norm_num)) (by norm_num)
  have quoted := quote_length_le member.1
  simp only [memberText, same, List.length_append, List.length_cons] at digits ⊢
  omega

variable {position : List (String × Json)}

theorem small_members (small : SmallPosition position) :
    (position.map fun member => (memberText member).length + 1).sum ≤ 214 := by
  have each : ∀ member ∈ position, (memberText member).length + 1 ≤ 107 :=
    fun member inside => small_member (small.keys member inside) (small.numbers member inside)
  cases small.shape with
  | next after =>
    have first := each _ List.mem_cons_self
    simp only [List.map_cons, List.map_nil, List.sum_cons, List.sum_nil]
    omega
  | previous before =>
    have first := each _ List.mem_cons_self
    simp only [List.map_cons, List.map_nil, List.sum_cons, List.sum_nil]
    omega
  | own after through =>
    have first := each _ List.mem_cons_self
    have second := each _ (List.mem_cons_of_mem _ List.mem_cons_self)
    simp only [List.map_cons, List.map_nil, List.sum_cons, List.sum_nil]
    omega

theorem source_length (known : SOURCES.contains source = true) : source.toList.length ≤ 12 := by
  simp only [SOURCES, List.contains_cons, List.contains_nil, Bool.or_false, Bool.or_eq_true,
    beq_iff_eq] at known
  rcases known with rfl | rfl | rfl | rfl
  all_goals decide

theorem cursor_length (known : SOURCES.contains source = true) (short : observed.toList.length ≤ 32)
    (small : SmallPosition position) :
    (encodeCursor signer source observed position).toList.length ≤ 2300 := by
  have bound := render_object_length (("source", .string source) :: ("kind", .string "producer") ::
    ("generation", .string observed) :: position)
  have token := signer.dumps_length source observed position small.shape
  have named := source_length known
  have sourceQuote := quote_length_le source
  have observedQuote := quote_length_le observed
  have tail := small_members small
  have sourceMember : (memberText ("source", .string source)).length =
      9 + (quote source).length := by
    have key : (quote "source").length = 8 := by decide
    simp only [memberText, render, List.length_append, List.length_cons, key]
    omega
  have kindMember : (memberText ("kind", .string "producer")).length = 17 := by decide
  have generationMember : (memberText ("generation", .string observed)).length =
      13 + (quote observed).length := by
    have key : (quote "generation").length = 12 := by decide
    simp only [memberText, render, List.length_append, List.length_cons, key]
    omega
  simp only [List.map_cons, List.sum_cons] at bound
  simp only [cursorValue] at token
  simp only [encodeCursor, cursorValue]
  omega

theorem decode_encode (known : SOURCES.contains source = true) (short : observed.toList.length ≤ 32)
    (small : SmallPosition position) :
    decodeCursor signer source (encodeCursor signer source observed position) =
      .ok (("source", .string source) :: ("kind", .string "producer") ::
        ("generation", .string observed) :: position) := by
  have length := cursor_length signer known short small
  have some : encodeCursor signer source observed position ≠ "" := signer.dumps_some _ _ _
  have fits : ¬4096 < (encodeCursor signer source observed position).toList.length := by omega
  rw [decodeCursor, if_neg some, if_neg fits, encodeCursor,
    signer.loads_dumps _ _ _ small.shape]
  simp [cursorValue, getItem, isText]

theorem after_small {after : Nat} (small : after < 2 ^ 63) :
    SmallPosition [("after", .int after)] where
  shape := .next after
  keys := by simp
  numbers := by simpa using small

theorem before_small {before : Nat} (small : before < 2 ^ 63) :
    SmallPosition [("before", .int before)] where
  shape := .previous before
  keys := by simp
  numbers := by simpa using small

theorem pair_small {after through : Nat} (first : after < 2 ^ 63) (second : through < 2 ^ 63) :
    SmallPosition [("after", .int after), ("through", .int through)] where
  shape := .own after through
  keys := by simp
  numbers := by simpa using ⟨first, second⟩

/-! ### What a position selects -/

variable (observed) (store : Store) (limit : Nat)

theorem viewer_first :
    viewerPage signer source observed store "" false limit =
      (readPage source observed store 0 none none limit >>= fun page =>
        boundedViewerPage signer source page false) := by
  rfl

theorem viewer_tail :
    viewerPage signer source observed store "" true limit =
      (readTail source observed store none none limit >>= fun page =>
        boundedViewerPage signer source page true) := by
  rfl

variable {observed} (known : SOURCES.contains source = true)
  (short : observed.toList.length ≤ 32)
include known short

theorem viewer_next {after : Nat} (small : after < 2 ^ 63) :
    viewerPage signer source observed store
        (encodeCursor signer source observed [("after", .int after)]) false limit =
      (readPage source observed store after none (some observed) limit >>= fun page =>
        boundedViewerPage signer source page false) := by
  have decoded := decode_encode signer known short (after_small small)
  simp [viewerPage, decoded, getItem, isText, positionGeneration, positionNumber]

theorem viewer_previous {before : Nat} (small : before < 2 ^ 63) :
    viewerPage signer source observed store
        (encodeCursor signer source observed [("before", .int before)]) false limit =
      (readTail source observed store (some before) (some observed) limit >>= fun page =>
        boundedViewerPage signer source page true) := by
  have decoded := decode_encode signer known short (before_small small)
  simp [viewerPage, decoded, getItem, isText, positionGeneration, positionNumber]

theorem viewer_reopen {after through : Nat} (first : after < 2 ^ 63) (second : through < 2 ^ 63) :
    viewerPage signer source observed store (encodeCursor signer source observed
        [("after", .int after), ("through", .int through)]) false limit =
      (readPage source observed store after (some through) (some observed) limit >>= fun page =>
        boundedViewerPage signer source page false) := by
  have decoded := decode_encode signer known short (pair_small first second)
  simp [viewerPage, decoded, getItem, isText, positionGeneration, positionNumber]

end Positions

/-! ### The response budget -/

theorem intercalate_sublist {lines others : List String} (part : lines.Sublist others) :
    (String.intercalate "\n" lines).toList.Sublist (String.intercalate "\n" others).toList := by
  induction part with
  | slnil => exact List.Sublist.refl _
  | @cons lines others line part induction =>
    cases others with
    | nil =>
      obtain rfl := List.sublist_nil.mp part
      simp
    | cons next others =>
      rw [String.intercalate_cons_cons, String.toList_append, String.toList_append]
      exact induction.trans (List.sublist_append_right _ _)
  | @cons_cons lines others line part induction =>
    cases lines with
    | nil =>
      cases others with
      | nil => exact List.Sublist.refl _
      | cons next others =>
        rw [String.intercalate_singleton, String.intercalate_cons_cons,
          String.toList_append, String.toList_append, List.append_assoc]
        exact List.sublist_append_left _ _
    | cons first lines =>
      cases others with
      | nil => simp at part
      | cons next others =>
        rw [String.intercalate_cons_cons, String.intercalate_cons_cons,
          String.toList_append, String.toList_append, String.toList_append,
          String.toList_append]
        exact (List.Sublist.refl _).append induction

theorem quote_sublist {lines others : List String} (part : lines.Sublist others) :
    (quote (String.intercalate "\n" lines)).length ≤
      (quote (String.intercalate "\n" others)).length := by
  have inner := ((intercalate_sublist part).flatMap escapeChar).length_le
  simp only [quote, List.length_cons, List.length_append, List.length_nil]
  omega

theorem page_text_length (page : ViewerPage) :
    (pageText page).length = 18 + (fieldText "source" (.string page.source)).length +
      (fieldText "available" (.bool page.available)).length +
      (fieldText "text" (.string page.text)).length +
      (fieldText "cursor" (.string page.cursor)).length +
      (fieldText "next_cursor" (.string page.nextCursor)).length +
      (fieldText "previous_cursor" (.string page.previousCursor)).length +
      (fieldText "has_more" (.bool page.hasMore)).length +
      (fieldText "reset" (.bool page.reset)).length +
      (fieldText "notice" (.string page.notice)).length := by
  simp only [pageText, List.intercalate_cons_cons, List.intercalate_singleton, List.length_cons,
    List.length_append, List.length_nil]
  omega

section Budget

variable (signer : Signer) {source observed : String} {log : List (String × Nat)}
  {dropped : Nat}

/-- The texts of a range as the viewer shows them. -/
def shownText (log : List (String × Nat)) (first last : Nat) : String :=
  String.intercalate "\n" ((segment log first last).map Record.text)

/-- The response leaves eight kibibytes of the budget to everything but the text. -/
def Roomy (text : String) : Prop := (quote text).length + 8192 ≤ PAGE_BYTES

instance (text : String) : Decidable (Roomy text) :=
  inferInstanceAs (Decidable ((quote text).length + 8192 ≤ PAGE_BYTES))

theorem cursor_field {position : List (String × Json)} (key : String)
    (known : SOURCES.contains source = true) (short : observed.toList.length ≤ 32)
    (small : SmallPosition position) :
    (fieldText key (.string (encodeCursor signer source observed position))).length ≤
      (quote key).length + 2304 := by
  have length := cursor_length signer known short small
  have quoted := @quote_length (encodeCursor signer source observed position)
    (signer.dumps_plain _ _ _ small.shape)
  simp only [fieldText, render, List.length_append, List.length_cons, quoted]
  omega

theorem fits_of_room {page : ProducerPage} {first last count : Nat} (backward : Bool)
    (known : SOURCES.contains source = true) (short : observed.toList.length ≤ 32)
    (bounded : log.length < 2 ^ 63) (range : PageOf observed log dropped page first last)
    (inside : count ≤ last - first)
    (room : Roomy (renderPage signer source page backward count).text) :
    fitsBudget signer source page backward count = true := by
  have within := range.within
  have ordered := range.ordered
  have start : ∃ start, start < 2 ^ 63 ∧
      (if backward then page.after - count else page.start) = start := by
    refine ⟨_, ?_, rfl⟩
    rw [range.start, range.finish]
    split_ifs
    all_goals omega
  have finish : ∃ finish, finish < 2 ^ 63 ∧
      (if backward then page.after else page.start + count) = finish := by
    refine ⟨_, ?_, rfl⟩
    rw [range.start, range.finish]
    split_ifs
    all_goals omega
  obtain ⟨start, startSmall, startEq⟩ := start
  obtain ⟨finish, finishSmall, finishEq⟩ := finish
  have named := source_length known
  have sourceField : (fieldText "source" (.string source)).length ≤ 156 := by
    have quoted := quote_length_le source
    have key : (quote "source").length = 8 := by decide
    simp only [fieldText, render, List.length_append, List.length_cons, key]
    omega
  have flag : ∀ key value, (fieldText key (.bool value)).length ≤ (quote key).length + 7 := by
    intro key value
    cases value <;> simp [fieldText, render]
  have textField : ∀ text, (fieldText "text" (.string text)).length = 8 + (quote text).length := by
    intro text
    have key : (quote "text").length = 6 := by decide
    simp only [fieldText, render, List.length_append, List.length_cons, key]
    omega
  have available := flag "available" true
  have more := flag "has_more" (renderPage signer source page backward count).hasMore
  have reset := flag "reset" false
  have cursor := cursor_field signer "cursor" known short (pair_small startSmall finishSmall)
  have next := cursor_field signer "next_cursor" known short (after_small finishSmall)
  have previous : (fieldText "previous_cursor"
      (.string (renderPage signer source page backward count).previousCursor)).length ≤
        17 + 2304 := by
    simp only [renderPage, startEq, range.generation]
    split_ifs
    · exact cursor_field signer "previous_cursor" known short (before_small startSmall)
    · decide
  have keys : (quote "available").length = 11 ∧ (quote "has_more").length = 10 ∧
      (quote "reset").length = 7 ∧ (quote "cursor").length = 8 ∧
      (quote "next_cursor").length = 13 ∧ (fieldText "notice" (.string "")).length = 12 := by
    decide
  have length := page_text_length (renderPage signer source page backward count)
  have text := textField (renderPage signer source page backward count).text
  simp only [fitsBudget, decide_eq_true_eq, length]
  simp only [Roomy] at room
  have shownCursor : (renderPage signer source page backward count).cursor =
      encodeCursor signer source observed [("after", .int start), ("through", .int finish)] := by
    simp only [renderPage, startEq, finishEq, range.generation]
  have shownNext : (renderPage signer source page backward count).nextCursor =
      encodeCursor signer source observed [("after", .int finish)] := by
    simp only [renderPage, finishEq, range.generation]
  rw [shownCursor, shownNext]
  have fixed : (renderPage signer source page backward count).source = source ∧
      (renderPage signer source page backward count).available = true ∧
      (renderPage signer source page backward count).reset = false ∧
      (renderPage signer source page backward count).notice = "" := ⟨rfl, rfl, rfl, rfl⟩
  rw [fixed.1, fixed.2.1, fixed.2.2.1, fixed.2.2.2]
  omega

/-- The answer shows exactly the rows behind `first` up to `last`, and its positions are
those of this range. -/
structure Shows (source observed : String) (log : List (String × Nat)) (dropped : Nat)
    (view : ViewerPage) (first last : Nat) : Prop where
  ordered : first ≤ last
  within : last ≤ log.length
  text : view.text = shownText log first last
  budget : sizes (segment log first last) ≤ BATCH_BYTES
  cursor : view.cursor =
    encodeCursor signer source observed [("after", .int first), ("through", .int last)]
  next : view.nextCursor = encodeCursor signer source observed [("after", .int last)]
  previous : view.previousCursor = if dropped < first then
      encodeCursor signer source observed [("before", .int first)]
    else ""

def budgetMessage : String := "Producer record exceeds the viewer response budget."

theorem shows_forward (source : String) {page : ProducerPage} {first last count : Nat}
    (range : PageOf observed log dropped page first last) (inside : first + count ≤ last) :
    Shows signer source observed log dropped (renderPage signer source page false count) first
      (first + count) := by
  have within := range.within
  have part : sizes (segment log first (first + count)) ≤ BATCH_BYTES := by
    rw [← segment_take log inside]
    exact Nat.le_trans (sizes_sublist (List.take_sublist _ _)) range.budget
  refine ⟨Nat.le_add_right _ _, Nat.le_trans inside within, ?_, part, ?_, ?_, ?_⟩
  · simp only [renderPage, Bool.false_and, Bool.false_eq_true, if_false, shownText, range.lines]
    rw [← List.map_take, segment_take log inside]
  · simp [renderPage, range.start, range.generation]
  · simp [renderPage, range.start, range.generation]
  · simp only [renderPage, Bool.false_eq_true, if_false, range.start, range.generation,
      range.oldest]
    by_cases empty : log = []
    · have zero : first = 0 := by
        simp only [empty, List.length_nil] at within
        have := range.ordered
        omega
      simp [empty, zero]
    · simp only [empty, if_false]
      by_cases older : dropped < first
      · rw [if_pos older, if_pos (by omega)]
      · rw [if_neg older, if_neg (by omega)]

theorem shows_backward (source : String) {page : ProducerPage} {first last count : Nat}
    (range : PageOf observed log dropped page first last) (inside : first + count ≤ last) :
    Shows signer source observed log dropped (renderPage signer source page true count)
      (last - count) last := by
  have within := range.within
  have size : page.lines.length = last - first := by
    rw [range.lines, List.length_map, segment_length within]
  have part : sizes (segment log (last - count) last) ≤ BATCH_BYTES := by
    have place : first + (last - first - count) = last - count := by omega
    rw [← place, ← segment_drop]
    exact Nat.le_trans (sizes_sublist (List.drop_sublist _ _)) range.budget
  refine ⟨Nat.sub_le _ _, within, ?_, part, ?_, ?_, ?_⟩
  · simp only [renderPage, Bool.true_and, shownText, size, decide_eq_true_eq]
    split_ifs with some
    · have place : first + (last - first - count) = last - count := by omega
      rw [range.lines, ← List.map_drop, segment_drop, place]
    · have none : count = 0 := by omega
      subst none
      simp [Library.NumberedLog.segment]
  · simp [renderPage, range.finish, range.generation]
  · simp [renderPage, range.finish, range.generation]
  · simp only [renderPage, if_true, range.finish, range.generation, range.oldest]
    by_cases empty : log = []
    · have zero : last = 0 := by
        simp only [empty, List.length_nil] at within
        omega
      simp [empty, zero]
    · simp only [empty, if_false]
      by_cases older : dropped < last - count
      · rw [if_pos older, if_pos (by omega)]
      · rw [if_neg older, if_neg (by omega)]

theorem bounded_cases (source : String) {page : ProducerPage} {first last : Nat} (backward : Bool)
    (range : PageOf observed log dropped page first last) :
    (∃ count, boundedViewerPage signer source page backward =
        .ok (renderPage signer source page backward count) ∧ first + count ≤ last ∧
        (first < last → 0 < count) ∧
        ((∀ number, 0 < number → number ≤ last - first →
          fitsBudget signer source page backward number = true) → count = last - first)) ∨
      (first < last ∧ fitsBudget signer source page backward 1 = false ∧
        boundedViewerPage signer source page backward = .error (.valueError budgetMessage)) := by
  have within := range.within
  have ordered := range.ordered
  have size : page.lines.length = last - first := by
    rw [range.lines, List.length_map, segment_length within]
  obtain ⟨low, named⟩ : ∃ low, searchCount (fitsBudget signer source page backward)
    page.lines.length 0 page.lines.length = low := ⟨_, rfl⟩
  have bounds := search_count_bounds (fitsBudget signer source page backward)
    page.lines.length 0 page.lines.length (Nat.zero_le _)
  rw [named, size] at bounds
  have blank : page.lines.isEmpty = decide (last - first = 0) := by
    rw [← size]
    cases page.lines <;> simp
  simp only [boundedViewerPage, named, blank]
  split_ifs with refused
  · right
    simp only [Bool.and_eq_true, Bool.not_eq_true', decide_eq_false_iff_not,
      decide_eq_true_eq] at refused
    refine ⟨by omega, ?_, rfl⟩
    by_contra one
    have some := search_count_some (fitsBudget signer source page backward) page.lines.length
      page.lines.length (Nat.le_refl _) (by omega) (by simpa using one)
    omega
  · left
    simp only [Bool.and_eq_true, Bool.not_eq_true', decide_eq_false_iff_not, decide_eq_true_eq,
      not_and] at refused
    refine ⟨low, rfl, by omega, ?_, ?_⟩
    · intro proper
      have := refused (by omega)
      omega
    · intro all
      rw [← named, ← size]
      refine search_count_all _ _ _ _ (Nat.zero_le _) (by omega) ?_
      intro count above below
      exact all count above (by omega)

end Budget

end Atlaso.Logs.ViewerPages
