import Atlaso.Logs.RunIntegrity

/-!
The guarantees of the producer log store, in every state of every run.

A capture that stopped between its marker and its staged batch closes the source until
the marker's batch is appended under the marker's identity. While it is closed, a repeated
call of another batch is refused as well.
-/

namespace Atlaso.Logs.StoreGuarantees

open Library Dictionary NumberedLog Outcomes ProducerStore CaptureRuns
open StoreIntegrity RunIntegrity

section Guarantees

variable (services : Services) (source : String)

structure Contiguous (world : World) (ledger : Ledger) : Prop where
  rows : ∃ dropped, world.store.records = (numbered 0 0 ledger.rows).drop dropped ∧
    world.store.records.map Record.sequence =
      List.range' (dropped + 1) (ledger.rows.length - dropped) ∧
    (source ≠ "app" → dropped = 0) ∧ (ledger.rows ≠ [] → dropped < ledger.rows.length)
  ends : world.store.producer.getD (0, 0) = (ledger.rows.length, total ledger.rows)
  bytes : world.store.records.Pairwise fun older newer => older.byteEnd ≤ newer.byteEnd
  batches : ∀ before accepted after, ledger.accepted = before ++ accepted :: after →
    accepted.texts.length = accepted.content.charges.length ∧
      accepted.sequence = ledger.legacy.length + (before.flatMap Accepted.rows).length +
        accepted.texts.length
  revisions : ∀ writer, (ledger.ofWriter writer).map Accepted.revision =
    (List.range (ledger.ofWriter writer).length).map fun index : Nat => some ((index : Int) + 1)

structure Answers (world : World) (ledger : Ledger) : Prop where
  returned : ∀ event sequence, (step services source world event).2 = .returned sequence →
    ((step services source world event).1 = world ∧
        observe services source world event ledger = ledger) ∨
      ∃ accepted, accepted.sequence = sequence ∧
        (observe services source world event ledger).accepted = ledger.accepted ++ [accepted]
  repeatedLines : ∀ writer accepted lines,
    (ledger.ofWriter writer).getLast? = some accepted → accepted.content = .lines lines →
    world.store.pending = none →
    checkLines source lines (some writer) accepted.revision false = .ok () →
    step services source world (.append lines (some writer) accepted.revision) =
      (world, .returned accepted.sequence)
  repeatedRecord : ∀ writer accepted chunks revision,
    (ledger.ofWriter writer).getLast? = some accepted →
    accepted.content = .physicalRecord chunks.flatten → accepted.revision = some revision →
    checkStream source writer revision world.store = .ok () →
    chunks ≠ [] → boundedChunks false chunks = true →
    step services source world (.appendStream chunks writer revision) =
      (world, .returned accepted.sequence)
  conflictingLines : ∀ writer revision lines,
    revision ≠ ((ledger.ofWriter writer).length : Int) + 1 →
    (¬∃ accepted, (ledger.ofWriter writer).getLast? = some accepted ∧
      revision = (ledger.ofWriter writer).length ∧ accepted.content = .lines lines) →
    ∃ raised, step services source world (.append lines (some writer) (some revision)) =
      (world, .refused raised)
  conflictingRecord : ∀ writer revision chunks,
    revision ≠ ((ledger.ofWriter writer).length : Int) + 1 →
    (¬∃ accepted, (ledger.ofWriter writer).getLast? = some accepted ∧
      revision = (ledger.ofWriter writer).length ∧
      accepted.content = .physicalRecord chunks.flatten) →
    ∃ raised, step services source world (.appendStream chunks writer revision) =
      (world, .refused raised)

structure Interrupted (world : World) (ledger : Ledger) (marker : CapturePending) : Prop where
  blockedLines : ∀ lines writer revision,
    (writer, revision) ≠ (some marker.writer, some marker.revision) →
    ∃ raised, step services source world (.append lines writer revision) =
      (world, .refused raised)
  blockedRecord : ∀ chunks writer revision,
    ∃ raised, step services source world (.appendStream chunks writer revision) =
      (world, .refused raised)
  otherContent : ∀ lines prepared, marker.prepared = some prepared →
    ledger.staged ≠ some (.lines lines) →
    ∃ raised, step services source world
      (.append lines (some marker.writer) (some marker.revision)) = (world, .refused raised)
  publishes : ∀ capture prepared, world.capture = some capture →
    capture.stage = .recovering → marker.prepared = some prepared →
    (step services source world .advanceCapture).1.store.pending = none ∧
      Recovered ledger (observe services source world .advanceCapture ledger) marker
  refuses : ∀ capture, world.capture = some capture → capture.stage = .recovering →
    marker.prepared = none →
    step services source world .advanceCapture =
      ({ world with capture := none }, .refused (.valueError captureRecoveryMessage))
  stays : world.capture = none → ∀ later,
    (∀ lines, Event.append lines (some marker.writer) (some marker.revision) ∉ later) →
    ((runEvents services source (world, ledger) later).1.store = world.store ∧
        (runEvents services source (world, ledger) later).2 = ledger) ∨
      Recovered ledger (runEvents services source (world, ledger) later).2 marker

variable {services source}

variable {world : World} {ledger : Ledger}

theorem sound_contiguous (sound : Sound services source ledger world.store) :
    Contiguous source world ledger := by
  obtain ⟨dropped, eq, proper⟩ := sound.retained
  have bytes : world.store.records.Pairwise fun older newer => older.byteEnd ≤ newer.byteEnd := by
    rw [eq]
    exact (numbered_bytes_increase 0 0 ledger.rows).sublist (List.drop_sublist _ _)
  have numbers : ∀ count, ((numbered 0 0 ledger.rows).drop count).map Record.sequence =
      List.range' (count + 1) (ledger.rows.length - count) := by
    intro count
    rw [List.map_drop, numbered_sequences, List.drop_range']
    congr 1
    omega
  refine ⟨?_, sound.place, bytes, ?_, sound.revisions⟩
  · by_cases app : source = "app"
    · exact ⟨dropped, eq, by rw [eq, numbers], fun other => absurd app other, proper⟩
    · refine ⟨0, ?_, ?_, fun _ => rfl, fun some => List.length_pos_iff.mpr some⟩
      · rw [sound.whole app, List.drop_zero]
      · rw [sound.whole app, ← numbers, List.drop_zero]
  · intro before accepted after split
    refine ⟨(sound.complete accepted ?_).1, sound.numbering before accepted after split⟩
    rw [split]
    simp

theorem bounded_nonempty {chunks : List (List UInt8)} (some : chunks ≠ [])
    (bounded : boundedChunks false chunks = true) : chunks.flatten ≠ [] := by
  cases chunks with
  | nil => exact absurd rfl some
  | cons chunk chunks =>
    intro empty
    have blank : chunk = [] := (List.append_eq_nil_iff.mp empty).1
    subst blank
    simp [boundedChunks] at bounded

theorem sound_answers (injective : Function.Injective services.hmac)
    (sound : Sound services source ledger world.store) :
    Answers services source world ledger := by
  refine ⟨?_, ?_, ?_, ?_, ?_⟩
  · intro event sequence result
    cases event with
    | append lines writer revision =>
      simp only [step, observe] at result ⊢
      cases done : append services source lines writer revision false world.store with
      | error raised => simp [done] at result
      | ok pair =>
        simp only [done, Outcome.returned.injEq] at result
        rcases append_cases sound done with ⟨examined, same⟩ | ⟨batch, examined, number, -⟩
        · simp only [examined, same]
          exact .inl ⟨trivial, trivial⟩
        · simp only [examined, ← result, number]
          exact .inr ⟨_, rfl, rfl⟩
    | appendStream chunks writer revision =>
      simp only [step, observe] at result ⊢
      cases done : appendStream services source chunks writer revision world.store with
      | error raised => simp [done] at result
      | ok pair =>
        simp only [done, Outcome.returned.injEq] at result
        rcases append_stream_cases sound done with
          ⟨examined, same⟩ | ⟨batch, examined, number, -⟩
        · simp only [examined, same]
          exact .inl ⟨trivial, trivial⟩
        · simp only [examined, ← result, number]
          exact .inr ⟨_, rfl, rfl⟩
    | beginCapture writer message =>
      simp only [step] at result
      split_ifs at result
    | advanceCapture =>
      simp only [step] at result
      split at result
      · simp at result
      · split at result
        · simp at result
        · simp at result
    | crash => simp [step] at result
  · intro writer accepted lines last same idle checked
    simp only [step, append_repeats sound idle last same checked]
  · intro writer accepted chunks revision last same number checked some bounded
    simp only [step, append_stream_repeats sound last same number checked bounded
      (bounded_nonempty some bounded)]
  · intro writer revision lines jump other
    cases done : append services source lines (some writer) (some revision) false world.store with
    | error raised => exact ⟨raised, by simp only [step, done]⟩
    | ok result =>
      exfalso
      rcases append_identity injective sound done with next | found
      · exact jump next
      · exact other found
  · intro writer revision chunks jump other
    cases done : appendStream services source chunks writer revision world.store with
    | error raised => exact ⟨raised, by simp only [step, done]⟩
    | ok result =>
      exfalso
      rcases append_stream_identity injective sound done with next | found
      · exact jump next
      · exact other found

theorem staged_content {store : Store} {marker : CapturePending} {prepared : Prepared}
    {lines : List String} {result : Nat × Store} (injective : Function.Injective services.hmac)
    (sound : Sound services source ledger store) (pending : store.pending = some marker)
    (ready : marker.prepared = some prepared) (done : append services source lines (some
      marker.writer) (some marker.revision) false store = .ok result) :
    ledger.staged = some (.lines lines) := by
  obtain ⟨content, staged⟩ := (sound.marker marker pending).2 prepared ready
  obtain ⟨finding, examined, -⟩ := bind_ok_iff.mp done
  obtain ⟨_, -, examined⟩ := bind_ok_iff.mp examined
  obtain ⟨_, -, examined⟩ := bind_ok_iff.mp examined
  obtain ⟨_, checked, -⟩ := bind_ok_iff.mp examined
  simp only [checkPending, pending, ready, ne_eq, not_true_eq_false, if_false,
    Option.isSome_some, if_true] at checked
  split_ifs at checked with same
  have fingerprint : services.hmac content.bytes = services.hmac (Content.lines lines).bytes := by
    rw [← staged.fingerprint]
    exact same
  rw [staged.input, content_bytes_injective (injective fingerprint)]

theorem sound_interrupted {marker : CapturePending} (injective : Function.Injective services.hmac)
    (sound : Sound services source ledger world.store)
    (pending : world.store.pending = some marker) :
    Interrupted services source world ledger marker := by
  refine ⟨?_, ?_, ?_, ?_, ?_, ?_⟩
  · intro lines writer revision foreign
    have blocked : ∃ raised, append services source lines writer revision false world.store =
        .error raised := append_blocked pending foreign
    obtain ⟨raised, refused⟩ := blocked
    exact ⟨raised, by simp only [step, refused]⟩
  · intro chunks writer revision
    have blocked : ∃ raised, appendStream services source chunks writer revision world.store =
        .error raised := append_stream_blocked pending
    obtain ⟨raised, refused⟩ := blocked
    exact ⟨raised, by simp only [step, refused]⟩
  · intro lines prepared ready other
    cases done : append services source lines (some marker.writer) (some marker.revision) false
        world.store with
    | error raised => exact ⟨raised, by simp only [step, done]⟩
    | ok result => exact absurd (staged_content injective sound pending ready done) other
  · intro capture prepared holder first ready
    obtain ⟨content, after, input, finished, cleared, _⟩ := finish_staged sound pending ready
    have done : captureTransaction services source capture world.store =
        .ok (after, some .marking) := by
      simp [captureTransaction, first, finished]
    refine ⟨?_, prepared, content, ready, input, ?_⟩
    · simp only [step, holder, done, cleared]
    · simp only [observe, holder, observeCapture, done, first, Ledger.publish, pending, input,
        ready]
      exact List.prefix_rfl
  · intro capture holder first unready
    have stopped : captureTransaction services source capture world.store =
        .error (.valueError captureRecoveryMessage) := by
      simp [captureTransaction, first, finish_unprepared pending unready]
    simp only [step, holder, stopped]
  · intro idle later foreign
    have waiting : Waiting world.capture := by
      intro holder impossible
      simp [idle] at impossible
    exact @interrupted_run services source marker (world, ledger) later sound pending waiting
      foreign

/-- In every state of every run the rows are one contiguous range that ends at the
producer's sequence and holds each accepted batch once and in full, a repeated call returns
the original sequence, a conflicting one is refused, and an interrupted capture is published
in full or keeps the source closed until its own batch is appended. -/
theorem producer_store_integrity (services : Services) (source : String)
    (injective : Function.Injective services.hmac) (store : Store)
    (legacy : List (String × Nat)) (opening : Opening services source store legacy)
    (events : List Event) :
    let state := runEvents services source (⟨store, none⟩, ⟨legacy, [], none⟩) events
    Contiguous source state.1 state.2 ∧ Answers services source state.1 state.2 ∧
      ∀ marker, state.1.store.pending = some marker →
        Interrupted services source state.1 state.2 marker := by
  have start : Sound services source (⟨legacy, [], none⟩ : Ledger) store := opening_sound opening
  have sound := @run_sound services source (⟨store, none⟩, ⟨legacy, [], none⟩) events start
  exact ⟨sound_contiguous sound, sound_answers injective sound,
    fun marker pending => sound_interrupted injective sound pending⟩

end Guarantees

/-! ### A run -/

/-- The marker state behind lines without a private-key marker. -/
def quietCarry : String :=
  "[\"S\",\"\",\"0000000000000000000000000000000000000000000000000000000000000000\",\"\",\"\"]"

/-- The scanner on lines that hold no secret, with a hash that keeps its input. -/
def plainServices : Services where
  safeLines lines privateKey _ := .ok (lines, privateKey, [("carry", quietCarry)])
  redactOperationalText text := text
  hmac data := data
  Scans _ := True
  scans_empty := trivial
  scans_result _ _ _ _ := ⟨_, rfl, trivial⟩

def markedRun : List Event :=
  [.append ["one"] (some "web") (some 1), .beginCapture "worker" (some "two"), .advanceCapture,
    .advanceCapture, .crash]

theorem marked_run_integrity :
    let state := runEvents plainServices "app" (⟨emptyStore, none⟩, ⟨[], [], none⟩) markedRun
    Contiguous "app" state.1 state.2 ∧ Answers plainServices "app" state.1 state.2 ∧
      ∀ marker, state.1.store.pending = some marker →
        Interrupted plainServices "app" state.1 state.2 marker :=
  producer_store_integrity plainServices "app" (fun _ _ same => same) emptyStore [] .fresh
    markedRun

/-- Behind the interrupted capture, the web writer's last batch is refused when it is
repeated. An append under the marker's identity then takes the place of the captured record,
and capture goes on without it. -/
theorem marker_released_by_append :
    let opened : World × Ledger := (⟨emptyStore, none⟩, ⟨[], [], none⟩)
    let marked := runEvents plainServices "app" opened markedRun
    let released := runEvents plainServices "app" marked
      [.append ["three"] (some "worker") (some 1), .beginCapture "web" (some "four"),
        .advanceCapture, .advanceCapture, .advanceCapture, .advanceCapture]
    marked.1.store.pending = some ⟨"worker", 1, none⟩ ∧
      ((marked.2.ofWriter "web").getLast?.map Accepted.content = some (.lines ["one"])) ∧
      step plainServices "app" marked.1 (.append ["one"] (some "web") (some 1)) =
        (marked.1, .refused (.valueError recoveryMessage)) ∧
      released.2.accepted.map Accepted.content =
        [.lines ["one"], .lines ["three"], .lines ["four"]] := by
  decide +kernel

end Atlaso.Logs.StoreGuarantees
