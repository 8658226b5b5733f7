import Atlaso.Logs.PageChains

/-!
Paging through the log viewer while the store changes: chains of pages in both directions,
pages opened again, and the reads that fail because a row has been dropped.

Position zero stands for the retained start. A reader whose first page was empty at position
zero therefore continues with the oldest row that is left, without an error for those that
came and went in between.
-/

namespace Atlaso.Logs.PagingGuarantees

open Library Base64 ByteWords Dictionary JsonOrder JsonSize
open JsonText NumberedLog Outcomes ProducerStore CaptureRuns StoreIntegrity
open RunIntegrity LogPaging PageRanges ViewerPages PageChains

/-- A read of the viewer: the store at that time, the requested page size and the answer. -/
structure Visit where
  snapshot : Snapshot
  limit : Nat
  view : ViewerPage

/-- Each visit opens the position its predecessor names. -/
def Follows (viewer : Viewer) (cursorOf : ViewerPage → String) :
    ViewerPage → List Visit → Prop
  | _, [] => True
  | view, visit :: visits => cursorOf view ≠ "" ∧
      viewer.page visit.snapshot (cursorOf view) false visit.limit = .ok visit.view ∧
      Follows viewer cursorOf visit.view visits

/-- Between the visits rows are appended and old ones dropped. -/
def Evolves : List (String × Nat) → List Visit → Prop
  | _, [] => True
  | log, visit :: visits => log <+: visit.snapshot.log ∧ Evolves visit.snapshot.log visits

/-- Forward pages, each the rows right behind those of the page before. -/
def Consecutive (viewer : Viewer) : Nat → List Visit → Prop
  | _, [] => True
  | position, visit :: visits => ∃ first last,
      Onward viewer visit.snapshot visit.view position first last ∧
      (0 < position → first = position) ∧ Consecutive viewer last visits

/-- Backward pages, each the rows right before those of the page after it, with no further
position exactly when the oldest kept row has been shown. -/
def Descending (viewer : Viewer) : Nat → List Visit → Prop
  | _, [] => True
  | position, visit :: visits => ∃ first,
      Backward viewer visit.snapshot visit.view first position ∧
      (visit.view.previousCursor = "" ↔ first = visit.snapshot.dropped) ∧
      Descending viewer first visits

section Paging

variable {viewer : Viewer} {snapshot later : Snapshot} {view : ViewerPage} {first last : Nat}

section

variable (shows : viewer.Shows snapshot view first last)
include shows

theorem shows_small :
    first < 2 ^ 63 ∧ last < 2 ^ 63 := by
  have bounded := snapshot.bounded
  have ordered := shows.ordered
  have within := shows.within
  omega

theorem later_within (grown : snapshot.log <+: later.log) : last ≤ later.log.length :=
  Nat.le_trans shows.within grown.length_le

/-! ### The next page -/

theorem next_reads (limit : Nat) :
    viewer.page later view.nextCursor false limit =
      (readPage viewer.source viewer.observed later.store last none (some viewer.observed) limit
        >>= fun page => boundedViewerPage viewer.signer viewer.source page false) := by
  rw [Viewer.page, shows.next]
  exact viewer_next viewer.signer later.store limit viewer.known viewer.short (shows_small shows).2

end

variable {answer : ViewerPage} {limit : Nat}

section

variable (shows : viewer.Shows snapshot view first last)
include shows

theorem next_live (grown : snapshot.log <+: later.log)
    (opened : viewer.page later view.nextCursor false limit = .ok answer) :
    last = 0 ∨ later.dropped ≤ last := by
  by_contra expired
  rw [next_reads shows] at opened
  obtain ⟨page, read, -⟩ := bind_ok_iff.mp opened
  have limited := read_page_limited read
  have within : last ≤ later.log.length := later_within shows grown
  have pinned : 0 < last ∨ 0 < (none : Option Nat).getD 0 := .inl (by omega)
  rcases read_page_expired later.holds viewer.known (.inr (rfl : some viewer.observed = _)) limited
    (Nat.le_refl _) within pinned (show last < later.dropped by omega) with error | error
  · rw [error] at read
    simp at read
  · rw [error] at read
    simp at read

theorem next_shows (grown : snapshot.log <+: later.log)
    (opened : viewer.page later view.nextCursor false limit = .ok answer) :
    ∃ start finish, Onward viewer later answer last start finish ∧ (0 < last → start = last) := by
  have live := next_live shows grown opened
  rw [next_reads shows] at opened
  obtain ⟨start, finish, onward⟩ :=
    onward_shows (later_within shows grown) (.inr rfl) live opened
  refine ⟨start, finish, onward, ?_⟩
  intro positive
  rcases onward.begins with begins | ⟨begins, -⟩
  · omega
  · exact begins

/-- Following `next_cursor` shows consecutive rows, whatever happens to the store between
the reads. -/
theorem next_pages_consecutive {visits : List Visit} (evolves : Evolves snapshot.log visits)
    (follows : Follows viewer ViewerPage.nextCursor view visits) :
    Consecutive viewer last visits := by
  induction visits generalizing snapshot view first last with
  | nil => exact trivial
  | cons visit visits induction =>
    obtain ⟨grown, evolves⟩ := evolves
    obtain ⟨-, opened, follows⟩ := follows
    obtain ⟨start, finish, onward, begins⟩ := next_shows shows grown opened
    exact ⟨start, finish, onward, begins, induction onward.shows evolves follows⟩

end

/-! ### The previous page -/

theorem previous_reads (shows : viewer.Shows snapshot view first last)
    (older : view.previousCursor ≠ "") (limit : Nat) :
    snapshot.dropped < first ∧ viewer.page later view.previousCursor false limit =
      (readTail viewer.source viewer.observed later.store (some first) (some viewer.observed) limit
        >>= fun page => boundedViewerPage viewer.signer viewer.source page true) := by
  have above : snapshot.dropped < first := by
    by_contra none
    rw [shows.previous, if_neg none] at older
    exact older rfl
  refine ⟨above, ?_⟩
  rw [Viewer.page, shows.previous, if_pos above]
  exact viewer_previous viewer.signer later.store limit viewer.known viewer.short
    (shows_small shows).1

theorem previous_live (shows : viewer.Shows snapshot view first last)
    (older : view.previousCursor ≠ "")
    (opened : viewer.page later view.previousCursor false limit = .ok answer) :
    later.dropped < first := by
  by_contra expired
  obtain ⟨above, reads⟩ := @previous_reads viewer snapshot later view first last shows older limit
  rw [reads] at opened
  obtain ⟨page, read, -⟩ := bind_ok_iff.mp opened
  have refused : readTail viewer.source viewer.observed later.store (some first)
      (some viewer.observed) limit = .error (.valueError boundaryExpired) :=
    read_tail_expired later.holds viewer.known (.inr rfl) (read_tail_limited read) (by omega)
      (by omega)
  rw [refused] at read
  simp at read

theorem previous_shows (shows : viewer.Shows snapshot view first last)
    (grown : snapshot.log <+: later.log) (older : view.previousCursor ≠ "")
    (opened : viewer.page later view.previousCursor false limit = .ok answer) :
    ∃ start, Backward viewer later answer start first := by
  have live := previous_live shows older opened
  obtain ⟨above, reads⟩ := @previous_reads viewer snapshot later view first last shows older limit
  rw [reads] at opened
  have within : (some first).getD later.log.length ≤ later.log.length :=
    Nat.le_trans shows.ordered (later_within shows grown)
  exact backward_shows within (.inr rfl) (.inr live) opened

theorem previous_ends (backward : Backward viewer snapshot view first last) :
    view.previousCursor = "" ↔ first = snapshot.dropped := by
  have oldest := backward.oldest
  rw [backward.shows.previous]
  split_ifs with above
  · constructor
    · intro blank
      exact absurd blank (viewer.signer.dumps_some _ _ _)
    · omega
  · exact ⟨fun _ => by omega, fun _ => rfl⟩

section

variable (shows : viewer.Shows snapshot view first last)
include shows

theorem previous_pages_descending {visits : List Visit} (evolves : Evolves snapshot.log visits)
    (follows : Follows viewer ViewerPage.previousCursor view visits) :
    Descending viewer first visits := by
  induction visits generalizing snapshot view first last with
  | nil => exact trivial
  | cons visit visits induction =>
    obtain ⟨grown, evolves⟩ := evolves
    obtain ⟨older, opened, follows⟩ := follows
    obtain ⟨start, backward⟩ := previous_shows shows grown older opened
    exact ⟨start, backward, previous_ends backward, induction backward.shows evolves follows⟩

/-! ### The page itself -/

theorem own_reads (limit : Nat) :
    viewer.page later view.cursor false limit =
      (readPage viewer.source viewer.observed later.store first (some last)
        (some viewer.observed) limit >>= fun page =>
          boundedViewerPage viewer.signer viewer.source page false) := by
  rw [Viewer.page, shows.cursor]
  exact viewer_reopen viewer.signer later.store limit viewer.known viewer.short
    (shows_small shows).1 (shows_small shows).2

theorem own_shows (grown : snapshot.log <+: later.log) (enough : last - first ≤ limit)
    (opened : viewer.page later view.cursor false limit = .ok answer) :
    ∃ final, Reopened viewer later answer first last final := by
  rw [own_reads shows] at opened
  obtain ⟨page, read, -⟩ := bind_ok_iff.mp opened
  have live := read_page_pinned later.holds read
  have budget : sizes (segment later.log first last) ≤ BATCH_BYTES := by
    rw [segment_extend grown shows.within]
    exact shows.budget
  exact reopened_shows shows.ordered (later_within shows grown) budget enough live opened

theorem own_live (some : first < last)
    (opened : viewer.page later view.cursor false limit = .ok answer) :
    later.dropped ≤ first := by
  rw [own_reads shows] at opened
  obtain ⟨page, read, -⟩ := bind_ok_iff.mp opened
  rcases read_page_pinned later.holds read with ⟨-, zero⟩ | ⟨reached, -⟩
  · have none : last = 0 := zero
    omega
  · exact reached

/-! ### All of it -/

/-- What can be asked of a page that shows the rows behind `first` up to `last`. -/
structure PageGuarantee (viewer : Viewer) (snapshot : Snapshot) (view : ViewerPage)
    (first last : Nat) : Prop where
  onward : ∀ visits, Evolves snapshot.log visits →
    Follows viewer ViewerPage.nextCursor view visits → Consecutive viewer last visits
  backward : ∀ visits, Evolves snapshot.log visits →
    Follows viewer ViewerPage.previousCursor view visits → Descending viewer first visits
  reopened : ∀ later, snapshot.log <+: later.log → ∀ limit answer, last - first ≤ limit →
    viewer.page later view.cursor false limit = .ok answer →
    ∃ final, Reopened viewer later answer first last final
  nextExpired : ∀ later, snapshot.log <+: later.log → ∀ limit, 0 < last →
    last < later.dropped → ∃ raised, viewer.page later view.nextCursor false limit = .error raised
  previousExpired : ∀ later, snapshot.log <+: later.log → ∀ limit,
    view.previousCursor ≠ "" → first ≤ later.dropped →
    ∃ raised, viewer.page later view.previousCursor false limit = .error raised
  ownExpired : ∀ later, snapshot.log <+: later.log → ∀ limit, first < last →
    first < later.dropped → ∃ raised, viewer.page later view.cursor false limit = .error raised
  nextOpens : ∀ later, snapshot.log <+: later.log → ∀ limit, 1 ≤ limit → limit ≤ 500 →
    (last = 0 ∨ later.dropped ≤ last) →
    (max last later.dropped < later.log.length →
      Readable later.log (max last later.dropped + 1)) →
    ∃ answer, viewer.page later view.nextCursor false limit = .ok answer
  previousOpens : ∀ later, snapshot.log <+: later.log → ∀ limit, 1 ≤ limit → limit ≤ 500 →
    view.previousCursor ≠ "" → later.dropped < first → Readable later.log first →
    ∃ answer, viewer.page later view.previousCursor false limit = .ok answer
  ownOpens : ∀ later, snapshot.log <+: later.log → ∀ limit, limit ≤ 500 → first < last →
    last - first ≤ limit → later.dropped ≤ first → Readable later.log (first + 1) →
    ∃ answer, viewer.page later view.cursor false limit = .ok answer

theorem shown_page_guarantee :
    PageGuarantee viewer snapshot view first last := by
  refine ⟨fun visits => next_pages_consecutive shows, fun visits => previous_pages_descending shows,
    fun later grown limit answer enough => own_shows shows grown enough, ?_, ?_, ?_, ?_, ?_, ?_⟩
  · intro later grown limit positive expired
    cases opened : viewer.page later view.nextCursor false limit with
    | error raised => exact ⟨raised, rfl⟩
    | ok answer =>
      have live := next_live shows grown opened
      omega
  · intro later grown limit older expired
    cases opened : viewer.page later view.previousCursor false limit with
    | error raised => exact ⟨raised, rfl⟩
    | ok answer =>
      have live := previous_live shows older opened
      omega
  · intro later grown limit proper expired
    cases opened : viewer.page later view.cursor false limit with
    | error raised => exact ⟨raised, rfl⟩
    | ok answer =>
      have live := own_live shows proper opened
      omega
  · intro later grown limit lower upper live readable
    rw [next_reads shows]
    exact onward_succeeds ⟨lower, upper⟩ (later_within shows grown) (.inr rfl) live readable
  · intro later grown limit lower upper older live readable
    rw [(@previous_reads viewer snapshot later view first last shows older limit).2]
    have within : (some first).getD later.log.length ≤ later.log.length :=
      Nat.le_trans shows.ordered (later_within shows grown)
    exact backward_succeeds ⟨lower, upper⟩ within (.inr rfl) (.inr live) fun _ => readable
  · intro later grown limit upper proper enough live readable
    rw [own_reads shows]
    have budget : sizes (segment later.log first last) ≤ BATCH_BYTES := by
      rw [segment_extend grown shows.within]
      exact shows.budget
    refine reopened_succeeds ⟨by omega, upper⟩ shows.ordered (later_within shows grown) budget
      enough (.inr ⟨live, ?_⟩) fun _ => readable
    intro boundary same
    obtain rfl := Option.some.inj same
    omega

end

/-- Every first page shows a range of the retained rows, the oldest ones or the newest ones,
and every page that shows a range can be followed in both directions without a gap or a
repetition. -/
theorem paging_neither_skips_nor_repeats (viewer : Viewer) (snapshot : Snapshot)
    (view : ViewerPage) :
    (∀ limit, viewer.page snapshot "" false limit = .ok view →
        ∃ first last, Onward viewer snapshot view 0 first last) ∧
      (∀ limit, viewer.page snapshot "" true limit = .ok view →
        ∃ first, Backward viewer snapshot view first snapshot.log.length) ∧
      ∀ first last, viewer.Shows snapshot view first last →
        PageGuarantee viewer snapshot view first last := by
  refine ⟨?_, ?_, fun first last => shown_page_guarantee⟩
  · intro limit opened
    rw [Viewer.page, viewer_first] at opened
    exact onward_shows (Nat.zero_le _) (.inl rfl) (.inl rfl) opened
  · intro limit opened
    rw [Viewer.page, viewer_tail] at opened
    have live : snapshot.log = [] ∨ snapshot.dropped <
        (none : Option Nat).getD snapshot.log.length := by
      by_cases empty : snapshot.log = []
      · exact .inl empty
      · exact .inr (snapshot.holds.proper empty)
    exact backward_shows (Nat.le_refl _) (.inl rfl) live opened

end Paging

/-! ### Reading beside the writers -/

section Writers

variable {services : Services} {source : String}

end Writers

/-! ### A reader that starts on an empty source -/

def positionKeys : List String := ["source", "kind", "generation", "after", "through", "before"]

def inOrder : Json → Json
  | .object members => .object (positionKeys.filterMap fun key =>
    (getItem key members).map fun value => (key, value))
  | value => value

variable {position : List (String × Json)}

theorem in_order_sorted (source generation : String) (shape : IsPosition position) :
    inOrder (sortKeys (cursorValue source generation position)) =
      cursorValue source generation position := by
  have lookup : ∀ members : List (String × Json), (members.map Prod.fst).Nodup →
      inOrder (.object (byKey members)) = inOrder (.object members) := by
    intro members distinct
    have same : ∀ key, getItem key (byKey members) = getItem key members := fun key =>
      (get_item_perm (by_key_perm members).symm distinct key).symm
    simp only [inOrder, same]
  cases shape with
  | next after =>
    rw [cursorValue, sortKeys, lookup]
    · rfl
    · simp [sortMembers]
  | previous before =>
    rw [cursorValue, sortKeys, lookup]
    · rfl
    · simp [sortMembers]
  | own after through =>
    rw [cursorValue, sortKeys, lookup]
    · rfl
    · simp [sortMembers]

theorem cursor_plain (source generation : String) (shape : IsPosition position) :
    Plain (cursorValue source generation position) := by
  have plain : ∀ position : List (String × Json), IsPosition position →
      (("source" :: "kind" :: "generation" :: position.map Prod.fst).Nodup ∧
        ∀ member ∈ position, Plain member.2) := by
    intro position shape
    cases shape with
    | next after => exact ⟨by simp, by simpa using Plain.int _⟩
    | previous before => exact ⟨by simp, by simpa using Plain.int _⟩
    | own after through => exact ⟨by simp, by simpa using ⟨Plain.int _, Plain.int _⟩⟩
  obtain ⟨distinct, members⟩ := plain position shape
  refine .object (by simpa using distinct) ?_
  intro member inside
  simp only [List.mem_cons] at inside
  rcases inside with rfl | rfl | rfl | inside
  · exact .string _
  · exact .string _
  · exact .string _
  · exact members member inside

theorem token_length (shape : IsPosition position) :
    (b64encode (utf8Encode (dumps (cursorValue source generation position)))).toList.length ≤
      2 * (render (cursorValue source generation position)).length + 64 := by
  rw [b64encode, String.toList_ofList, base64_length,
    dumps_size (cursor_plain source generation shape)]
  omega

/-- Tokens without compression and signature: the base64 form of the JSON text. -/
def plainSigner : Signer where
  dumps value := b64encode (utf8Encode (dumps value))
  loads token := do
    let document ← b64decode token >>= utf8Decode >>= loads
    some (inOrder document)
  loads_dumps source generation position shape := by
    rw [b64decode_b64encode]
    simp [loads_dumps_plain (cursor_plain source generation shape), in_order_sorted _ _ shape]
  dumps_some source generation position := by
    intro blank
    have read := b64decode_b64encode (utf8Encode (dumps (cursorValue source generation position)))
    rw [blank] at read
    have empty : dumps (cursorValue source generation position) = "" :=
      utf8_encode_injective ((Option.some.inj read).symm.trans rfl)
    have chars := congrArg String.toList empty
    simp [dumps, cursorValue, render] at chars
  dumps_plain source generation position shape := by
    rw [b64encode, String.toList_ofList]
    exact base64_unescaped _
  dumps_length _ _ _ := token_length

def plainViewer : Viewer where
  signer := plainSigner
  source := "app"
  observed := "4f0c1a7e9b8d4c5fa3b2d1e0f9c8b7a6"
  known := by decide
  short := by decide

def emptySnapshot : Snapshot where
  store := emptyStore
  log := []
  dropped := 0
  holds := ⟨by decide, by decide, by decide, by decide⟩
  bounded := by decide

/-- The store after a short row and a captured line of eight mebibytes, which drops it. -/
def trimmedSnapshot : Snapshot where
  store := {
    emptyStore with
    producer := some (2, 8388613)
    records := [⟨2, 8388613, oversizedNotice⟩] }
  log := [("one", 4), (oversizedNotice, 8388609)]
  dropped := 1
  holds := ⟨by decide, by decide, by decide, by decide⟩
  bounded := by decide

/-- The first row came and went between the two reads, and the second read does not fail. -/
theorem empty_start_passes_over_expired_row :
    emptySnapshot.log <+: trimmedSnapshot.log ∧ trimmedSnapshot.dropped = 1 ∧
      ∃ opened followed, plainViewer.page emptySnapshot "" false 200 = .ok opened ∧
        plainViewer.page trimmedSnapshot opened.nextCursor false 200 = .ok followed ∧
        followed.text = oversizedNotice := by
  have grown : emptySnapshot.log <+: trimmedSnapshot.log := by decide
  refine ⟨grown, rfl, ?_⟩
  obtain ⟨opened, first⟩ : ∃ opened, plainViewer.page emptySnapshot "" false 200 = .ok opened := by
    rw [Viewer.page, viewer_first]
    exact onward_succeeds (by decide) (Nat.zero_le _) (.inl rfl) (.inl rfl)
      fun some => absurd some (by decide)
  obtain ⟨start, finish, onward⟩ : ∃ start finish,
      Onward plainViewer emptySnapshot opened 0 start finish := by
    rw [Viewer.page, viewer_first] at first
    exact onward_shows (Nat.zero_le _) (.inl rfl) (.inl rfl) first
  have none : finish = 0 := Nat.le_zero.mp onward.shows.within
  subst none
  have readable : Readable trimmedSnapshot.log 2 := by
    have shown : shownText trimmedSnapshot.log 1 2 = oversizedNotice := by decide
    rw [Readable, shown]
    decide
  obtain ⟨followed, second⟩ : ∃ followed,
      plainViewer.page trimmedSnapshot opened.nextCursor false 200 = .ok followed := by
    rw [next_reads onward.shows]
    exact onward_succeeds (by decide) (Nat.zero_le _) (.inr rfl) (.inl rfl) fun _ => readable
  obtain ⟨after, last, shown, -⟩ := next_shows onward.shows grown second
  have moves : after < last := shown.moves (by decide) readable
  have within : last ≤ 2 := shown.shows.within
  have dropped : max 0 trimmedSnapshot.dropped = 1 := rfl
  have begins := shown.begins
  obtain ⟨rfl, rfl⟩ : after = 1 ∧ last = 2 := by omega
  refine ⟨opened, followed, first, second, ?_⟩
  rw [shown.shows.text]
  decide

end Atlaso.Logs.PagingGuarantees
