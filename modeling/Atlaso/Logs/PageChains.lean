import Atlaso.Logs.ViewerPages
import Atlaso.Logs.RunIntegrity

/-!
Following the positions of the log viewer while the store is appended to and trimmed.

Each page begins where the page before it ended, in either direction, or the read fails
because the next row has been dropped.
-/

namespace Atlaso.Logs.PageChains

open Library JsonText NumberedLog Outcomes ProducerStore LogPaging PageRanges
open ViewerPages

/-- The row of this number leaves room in a response of its own. -/
def Readable (log : List (String × Nat)) (number : Nat) : Prop :=
  Roomy (shownText log (number - 1) number)

section Following

variable (signer : Signer) {source observed : String} {store : Store}
  {log : List (String × Nat)} {dropped limit : Nat}

/-! ### Rows that are shown -/

theorem segment_head {first last : Nat} (proper : first < last) (within : last ≤ log.length) :
    ∃ record rest, segment log first last = record :: rest ∧
      shownText log first (first + 1) = record.text := by
  have size := @segment_length _ log first last within
  cases rows : segment log first last with
  | nil =>
    rw [rows, List.length_nil] at size
    omega
  | cons record rest =>
    refine ⟨record, rest, rfl, ?_⟩
    rw [shownText, ← segment_take log (show first + 1 ≤ last by omega), rows]
    simp

theorem roomy_fits_bytes {text : String} (room : Roomy text) :
    lineSize text + 1 ≤ BATCH_BYTES := by
  have bytes := line_size_le_quote text
  simp only [Roomy, PAGE_BYTES] at room
  simp only [BATCH_BYTES]
  omega

theorem forward_count_some {first boundary : Nat} (proper : first < boundary)
    (within : boundary ≤ log.length) (limited : 1 ≤ limit)
    (readable : Readable log (first + 1)) : 0 < forwardCount log first boundary limit := by
  obtain ⟨record, rest, rows, text⟩ := segment_head proper within
  have fits : lineSize record.text + 1 ≤ BATCH_BYTES := by
    rw [← text]
    exact roomy_fits_bytes readable
  obtain ⟨more, rfl⟩ : ∃ more, limit = more + 1 := ⟨limit - 1, by omega⟩
  rw [forwardCount, rows, List.take_succ_cons]
  exact take_within_some fits

theorem segment_tail {first last : Nat} (proper : first < last) (within : last ≤ log.length) :
    ∃ record rest, (segment log first last).reverse = record :: rest ∧
      shownText log (last - 1) last = record.text := by
  have parts := @segment_append _ log first (last - 1) last (by omega) (by omega)
  obtain ⟨record, rest, rows, text⟩ :=
    @segment_head log (last - 1) last (by omega) within
  have single : rest = [] := by
    have size := @segment_length _ log (last - 1) last within
    rw [rows, List.length_cons] at size
    exact List.length_eq_zero_iff.mp (by omega)
  rw [show last - 1 + 1 = last by omega] at text
  refine ⟨record, (segment log first (last - 1)).reverse, ?_, text⟩
  rw [← parts, rows, single]
  simp

theorem backward_count_some {boundary : Nat} (proper : dropped < boundary)
    (within : boundary ≤ log.length) (limited : 1 ≤ limit) (readable : Readable log boundary) :
    0 < backwardCount log dropped boundary limit := by
  obtain ⟨record, rest, rows, text⟩ := segment_tail proper within
  have fits : lineSize record.text + 1 ≤ BATCH_BYTES := by
    rw [← text]
    exact roomy_fits_bytes readable
  obtain ⟨more, rfl⟩ : ∃ more, limit = more + 1 := ⟨limit - 1, by omega⟩
  rw [backwardCount, rows, List.take_succ_cons]
  exact take_within_some fits

theorem first_row_fits {page : ProducerPage} {first last : Nat}
    (known : SOURCES.contains source = true) (short : observed.toList.length ≤ 32)
    (bounded : log.length < 2 ^ 63) (range : PageOf observed log dropped page first last)
    (proper : first < last) (readable : Readable log (first + 1)) :
    fitsBudget signer source page false 1 = true := by
  have shows := shows_forward signer source range (show first + 1 ≤ last by omega)
  refine fits_of_room signer false known short bounded range (by omega) ?_
  rw [shows.text]
  exact readable

theorem last_row_fits {page : ProducerPage} {first last : Nat}
    (known : SOURCES.contains source = true) (short : observed.toList.length ≤ 32)
    (bounded : log.length < 2 ^ 63) (range : PageOf observed log dropped page first last)
    (proper : first < last) (readable : Readable log last) :
    fitsBudget signer source page true 1 = true := by
  have shows := shows_backward signer source range (show first + 1 ≤ last by omega)
  refine fits_of_room signer true known short bounded range (by omega) ?_
  rw [shows.text]
  exact readable

end Following

/-! ### One page -/

/-- The viewer of one source: its authenticated positions name this source and the store's
generation, a UUID in hexadecimal. -/
structure Viewer where
  signer : Signer
  (source observed : String)
  known : SOURCES.contains source = true
  short : observed.toList.length ≤ 32

/-- The store at the time of a read. Sequence numbers are SQLite integers. -/
structure Snapshot where
  store : Store
  log : List (String × Nat)
  dropped : Nat
  holds : Holds store log dropped
  bounded : log.length < 2 ^ 63

/-- `viewer_page`. -/
def Viewer.page (viewer : Viewer) (snapshot : Snapshot) (cursor : String) (tail : Bool)
    (limit : Nat) : Except Raised ViewerPage :=
  viewerPage viewer.signer viewer.source viewer.observed snapshot.store cursor tail limit

def Viewer.Shows (viewer : Viewer) (snapshot : Snapshot) (view : ViewerPage)
    (first last : Nat) : Prop :=
  ViewerPages.Shows viewer.signer viewer.source viewer.observed snapshot.log snapshot.dropped
    view first last

section Pages

variable {viewer : Viewer} {snapshot : Snapshot} {limit : Nat} {view : ViewerPage}

variable {generation : Option String} {before : Option Nat} {position first : Nat}

theorem read_page_limited {source observed : String} {store : Store} {after limit : Nat}
    {through : Option Nat} {page : ProducerPage}
    (read : readPage source observed store after through generation limit = .ok page) :
    1 ≤ limit ∧ limit ≤ 500 := by
  by_contra outside
  have refused : (decide (1 ≤ limit) && decide (limit ≤ 500)) = false := by
    simpa [Bool.and_eq_false_iff, not_and_or] using outside
  simp [readPage, refused] at read

theorem read_tail_limited {source observed : String} {store : Store} {limit : Nat}
    {page : ProducerPage}
    (read : readTail source observed store before generation limit = .ok page) :
    1 ≤ limit ∧ limit ≤ 500 := by
  by_contra outside
  have refused : (decide (1 ≤ limit) && decide (limit ≤ 500)) = false := by
    simpa [Bool.and_eq_false_iff, not_and_or] using outside
  simp [readTail, refused] at read

/-- A page read forward from a position: the rows right behind it, at least one if there is
one that can be shown. -/
structure Onward (viewer : Viewer) (snapshot : Snapshot) (view : ViewerPage)
    (position first last : Nat) : Prop where
  shows : viewer.Shows snapshot view first last
  begins : first = max position snapshot.dropped ∨ (first = position ∧ last = position)
  moves : max position snapshot.dropped < snapshot.log.length →
    Readable snapshot.log (max position snapshot.dropped + 1) → first < last

theorem onward_page (limited : 1 ≤ limit ∧ limit ≤ 500) (within : position ≤ snapshot.log.length)
    (own : generation = none ∨ generation = some viewer.observed)
    (live : position = 0 ∨ snapshot.dropped ≤ position) :
    ∃ page first last, readPage viewer.source viewer.observed snapshot.store position none
        generation limit = .ok page ∧
      PageOf viewer.observed snapshot.log snapshot.dropped page first last ∧
      ((first = position ∧ last = position ∧
          forwardCount snapshot.log (max position snapshot.dropped) snapshot.log.length limit = 0) ∨
        (first = max position snapshot.dropped ∧ first < last)) := by
  have reaches : Live snapshot.dropped position none := by
    rcases live with zero | reached
    · exact .inl ⟨zero, rfl⟩
    · refine .inr ⟨reached, ?_⟩
      intro boundary impossible
      simp at impossible
  obtain ⟨page, read, ranges⟩ := read_page_live snapshot.holds viewer.known own limited
    (Nat.le_refl _) within reaches
  simp only [Option.getD_none] at ranges
  rcases ranges with ⟨none, range⟩ | ⟨some, range⟩
  · exact ⟨page, position, position, read, range, .inl ⟨rfl, rfl, none⟩⟩
  · exact ⟨page, _, _, read, range, .inr ⟨rfl, by omega⟩⟩

theorem onward_shows (within : position ≤ snapshot.log.length)
    (own : generation = none ∨ generation = some viewer.observed)
    (live : position = 0 ∨ snapshot.dropped ≤ position)
    (shown : (readPage viewer.source viewer.observed snapshot.store position none generation limit
      >>= fun page => boundedViewerPage viewer.signer viewer.source page false) = .ok view) :
    ∃ first last, Onward viewer snapshot view position first last := by
  obtain ⟨page, read, cut⟩ := bind_ok_iff.mp shown
  have limited := read_page_limited read
  obtain ⟨other, first, last, same, range, begins⟩ := onward_page limited within own live
  obtain rfl := Except.ok.inj (read.symm.trans same)
  rcases bounded_cases viewer.signer viewer.source false range with
    ⟨count, fitted, inside, some, -⟩ | ⟨-, -, refused⟩
  · rw [fitted] at cut
    obtain rfl := Except.ok.inj cut
    have shows := shows_forward viewer.signer viewer.source range inside
    refine ⟨first, first + count, shows, ?_, ?_⟩
    · rcases begins with ⟨start, finish, -⟩ | ⟨start, -⟩
      · have none : count = 0 := by omega
        exact .inr ⟨start, by omega⟩
      · exact .inl start
    · intro more readable
      rcases begins with ⟨-, -, blank⟩ | ⟨-, proper⟩
      · have counted := forward_count_some more (Nat.le_refl _) limited.1 readable
        omega
      · have := some proper
        omega
  · rw [refused] at cut
    simp at cut

theorem onward_succeeds (limited : 1 ≤ limit ∧ limit ≤ 500)
    (within : position ≤ snapshot.log.length)
    (own : generation = none ∨ generation = some viewer.observed)
    (live : position = 0 ∨ snapshot.dropped ≤ position) (readable : max position snapshot.dropped <
      snapshot.log.length → Readable snapshot.log (max position snapshot.dropped + 1)) :
    ∃ view, (readPage viewer.source viewer.observed snapshot.store position none generation
      limit >>= fun page => boundedViewerPage viewer.signer viewer.source page false) =
        .ok view := by
  obtain ⟨page, first, last, read, range, begins⟩ := onward_page limited within own live
  rw [read, ok_bind]
  rcases bounded_cases viewer.signer viewer.source false range with
    ⟨count, fitted, -⟩ | ⟨proper, narrow, -⟩
  · exact ⟨_, fitted⟩
  · exfalso
    rcases begins with ⟨start, finish, -⟩ | ⟨start, -⟩
    · omega
    · have within := range.within
      have fits := first_row_fits viewer.signer viewer.known viewer.short snapshot.bounded range
        proper (start ▸ readable (by omega))
      rw [narrow] at fits
      simp at fits

/-- A page read backward to a boundary: the rows that end there, none older than the
oldest kept one. -/
structure Backward (viewer : Viewer) (snapshot : Snapshot) (view : ViewerPage)
    (first last : Nat) : Prop where
  shows : viewer.Shows snapshot view first last
  oldest : snapshot.dropped ≤ first
  moves : snapshot.dropped < last → Readable snapshot.log last → first < last

theorem backward_shows (within : before.getD snapshot.log.length ≤ snapshot.log.length)
    (own : generation = none ∨ generation = some viewer.observed)
    (live : snapshot.log = [] ∨ snapshot.dropped < before.getD snapshot.log.length)
    (shown : (readTail viewer.source viewer.observed snapshot.store before generation limit >>= fun
      page => boundedViewerPage viewer.signer viewer.source page true) = .ok view) :
    ∃ first, Backward viewer snapshot view first (before.getD snapshot.log.length) := by
  obtain ⟨page, read, cut⟩ := bind_ok_iff.mp shown
  have limited := read_tail_limited read
  obtain ⟨other, same, range⟩ := read_tail_live snapshot.holds viewer.known own limited within live
  obtain rfl := Except.ok.inj (read.symm.trans same)
  have kept : snapshot.dropped ≤ before.getD snapshot.log.length := by
    rcases live with blank | above
    · have := snapshot.holds.kept
      simp only [blank, List.length_nil] at this
      omega
    · omega
  have counted := (@backward_rows snapshot.log snapshot.dropped limit _ within kept).2
  rcases bounded_cases viewer.signer viewer.source true range with
    ⟨count, fitted, inside, some, -⟩ | ⟨-, -, refused⟩
  · rw [fitted] at cut
    obtain rfl := Except.ok.inj cut
    refine ⟨_, shows_backward viewer.signer viewer.source range inside, by omega, ?_⟩
    intro above readable
    have rows := backward_count_some above within limited.1 readable
    have := some (by omega)
    omega
  · rw [refused] at cut
    simp at cut

theorem backward_succeeds (limited : 1 ≤ limit ∧ limit ≤ 500)
    (within : before.getD snapshot.log.length ≤ snapshot.log.length)
    (own : generation = none ∨ generation = some viewer.observed)
    (live : snapshot.log = [] ∨ snapshot.dropped < before.getD snapshot.log.length)
    (readable : snapshot.log ≠ [] → Readable snapshot.log (before.getD snapshot.log.length)) :
    ∃ view, (readTail viewer.source viewer.observed snapshot.store before generation limit >>=
      fun page => boundedViewerPage viewer.signer viewer.source page true) = .ok view := by
  obtain ⟨page, read, range⟩ := read_tail_live snapshot.holds viewer.known own limited within live
  rw [read, ok_bind]
  rcases bounded_cases viewer.signer viewer.source true range with
    ⟨count, fitted, -⟩ | ⟨proper, narrow, -⟩
  · exact ⟨_, fitted⟩
  · exfalso
    have filled : snapshot.log ≠ [] := by
      intro blank
      have empty : snapshot.log.length = 0 := by rw [blank, List.length_nil]
      omega
    have fits := last_row_fits viewer.signer viewer.known viewer.short snapshot.bounded range
      proper (readable filled)
    rw [narrow] at fits
    simp at fits

/-! ### Opening a page again -/

theorem forward_count_all {log : List (String × Nat)} {last : Nat} (within : last ≤ log.length)
    (budget : sizes (segment log first last) ≤ BATCH_BYTES) (enough : last - first ≤ limit) :
    forwardCount log first last limit = last - first := by
  have size := @segment_length _ log first last within
  rw [forwardCount, List.take_of_length_le (by omega), take_within_all 0 _ (by omega), size]

/-- A page opened again: its first rows, all of them if they leave room in the response. -/
structure Reopened (viewer : Viewer) (snapshot : Snapshot) (view : ViewerPage)
    (first last final : Nat) : Prop where
  shows : viewer.Shows snapshot view first final
  inside : final ≤ last
  moves : first < last → first < final
  whole : Roomy (shownText snapshot.log first last) → final = last

theorem reopened_page {last : Nat} (limited : 1 ≤ limit ∧ limit ≤ 500) (ordered : first ≤ last)
    (within : last ≤ snapshot.log.length)
    (budget : sizes (segment snapshot.log first last) ≤ BATCH_BYTES) (enough : last - first ≤ limit)
    (live : Live snapshot.dropped first (some last)) :
    ∃ page, readPage viewer.source viewer.observed snapshot.store first (some last)
        (some viewer.observed) limit = .ok page ∧
      PageOf viewer.observed snapshot.log snapshot.dropped page first last := by
  obtain ⟨page, read, ranges⟩ := read_page_live snapshot.holds viewer.known
    (.inr (rfl : some viewer.observed = some viewer.observed)) limited
    (show (some last).getD snapshot.log.length ≤ snapshot.log.length from within) ordered live
  simp only [Option.getD_some] at ranges
  refine ⟨page, read, ?_⟩
  rcases live with ⟨zero, blank⟩ | ⟨reached, -⟩
  · have none : last = 0 := blank
    subst zero none
    rcases ranges with ⟨-, range⟩ | ⟨some, -⟩
    · exact range
    · simp [forwardCount, Library.NumberedLog.segment, takeWithin] at some
  · have start : max first snapshot.dropped = first := Nat.max_eq_left reached
    rw [start, forward_count_all within budget enough] at ranges
    rcases ranges with ⟨none, range⟩ | ⟨-, range⟩
    · have same : first = last := by omega
      subst same
      exact range
    · rwa [Nat.add_sub_cancel' ordered] at range

theorem room_of_prefix {log : List (String × Nat)} {last count : Nat}
    (inside : first + count ≤ last) (room : Roomy (shownText log first last)) :
    Roomy (shownText log first (first + count)) := by
  have part := quote_sublist (((segment log first last).take_sublist count).map Record.text)
  rw [segment_take log inside] at part
  simp only [Roomy, shownText] at room ⊢
  omega

theorem reopened_shows {last : Nat} (ordered : first ≤ last) (within : last ≤ snapshot.log.length)
    (budget : sizes (segment snapshot.log first last) ≤ BATCH_BYTES) (enough : last - first ≤ limit)
    (live : Live snapshot.dropped first (some last))
    (shown : (readPage viewer.source viewer.observed snapshot.store first (some last) (some
      viewer.observed) limit >>= fun page => boundedViewerPage viewer.signer viewer.source page
      false) = .ok view) :
    ∃ final, Reopened viewer snapshot view first last final := by
  obtain ⟨page, read, cut⟩ := bind_ok_iff.mp shown
  have limited := read_page_limited read
  obtain ⟨other, same, range⟩ := reopened_page limited ordered within budget enough live
  obtain rfl := Except.ok.inj (read.symm.trans same)
  rcases bounded_cases viewer.signer viewer.source false range with
    ⟨count, fitted, inside, some, whole⟩ | ⟨-, -, refused⟩
  · rw [fitted] at cut
    obtain rfl := Except.ok.inj cut
    refine ⟨first + count, shows_forward viewer.signer viewer.source range inside, inside,
      fun proper => by have := some proper; omega, ?_⟩
    intro room
    have all := whole fun number _ few => by
      have part := shows_forward viewer.signer viewer.source range
        (show first + number ≤ last by omega)
      refine fits_of_room viewer.signer false viewer.known viewer.short snapshot.bounded range
        few ?_
      rw [part.text]
      exact room_of_prefix (by omega) room
    omega
  · rw [refused] at cut
    simp at cut

theorem reopened_succeeds {last : Nat} (limited : 1 ≤ limit ∧ limit ≤ 500) (ordered : first ≤ last)
    (within : last ≤ snapshot.log.length)
    (budget : sizes (segment snapshot.log first last) ≤ BATCH_BYTES) (enough : last - first ≤ limit)
    (live : Live snapshot.dropped first (some last))
    (readable : first < last → Readable snapshot.log (first + 1)) :
    ∃ view, (readPage viewer.source viewer.observed snapshot.store first (some last)
      (some viewer.observed) limit >>= fun page =>
        boundedViewerPage viewer.signer viewer.source page false) = .ok view := by
  obtain ⟨page, read, range⟩ := reopened_page limited ordered within budget enough live
  rw [read, ok_bind]
  rcases bounded_cases viewer.signer viewer.source false range with
    ⟨count, fitted, -⟩ | ⟨proper, narrow, -⟩
  · exact ⟨_, fitted⟩
  · exfalso
    have fits := first_row_fits viewer.signer viewer.known viewer.short snapshot.bounded range
      proper (readable proper)
    rw [narrow] at fits
    simp at fits

end Pages

end Atlaso.Logs.PageChains
