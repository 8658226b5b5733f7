import Atlaso.Logs.CaptureReplay

/-!
When a sealed generation can be captured.

The producer store is one that the collector has brought about: an import and calls of the
capture. Whatever an interrupted run has left, a further run captures both files to their
ends exactly when every line of theirs is one the store takes. A line with a form feed or a
carriage return inside it, or with so many invalid bytes that their replacement takes more
than 64 KiB, stops this and every later generation.
-/

namespace Atlaso.Logs.CaptureGuarantees

open Library ByteWords Dictionary FilePrograms Outcomes
open PhysicalLines RelyGuarantee ProducerStore CaptureRuns StoreIntegrity
open RunIntegrity SafeLines NginxCapture CaptureBatches BatchReceipts CaptureReplay

/-! ### The stores that capture meets -/

/-- A call of `append` or `append_stream` as `capture_generation` makes it. -/
def ServiceCall : Event → Prop
  | .append _ writer _ => writer = some "service"
  | .appendStream _ writer _ => writer = "service"
  | .beginCapture _ _ | .advanceCapture | .crash => False

def Reachable (services : Services) (source : String) (rows : Store) : Prop :=
  ∃ legacy checkpoint events, services.Scans checkpoint.parser ∧
    (∀ event ∈ events, ServiceCall event) ∧
    (runEvents services source (⟨importedStore source legacy checkpoint, none⟩,
      ⟨legacy, [], none⟩) events).1.store = rows

section Reach

variable {services : Services} {source : String} {ledger : Ledger} {store : Store}

theorem held_call {world : World} {event : Event} (call : ServiceCall event)
    (held : Held services source ledger world.store) :
    ∃ later, Held services source later (step services source world event).1.store := by
  cases event with
  | append lines writer revision =>
    obtain rfl : writer = some "service" := call
    simp only [step]
    cases done : append services source lines (some "service") revision false world.store with
    | error raised => exact ⟨ledger, held⟩
    | ok result =>
      obtain ⟨finding, examined, done⟩ := bind_ok_iff.mp done
      cases finding with
      | repeated sequence =>
        obtain rfl := Except.ok.inj done
        exact ⟨ledger, held⟩
      | fresh batch =>
        obtain ⟨describes, next⟩ := examine_fresh held.sound examined
        simp only [Bool.false_eq_true, if_false, Option.getD_some,
          publish_ok held.sound describes.lengths] at done
        obtain rfl := Except.ok.inj done
        exact ⟨_, held_accept held describes next⟩
  | appendStream chunks writer revision =>
    obtain rfl : writer = "service" := call
    simp only [step]
    cases done : appendStream services source chunks "service" revision world.store with
    | error raised => exact ⟨ledger, held⟩
    | ok result =>
      obtain ⟨finding, examined, done⟩ := bind_ok_iff.mp done
      obtain ⟨earlier, receipt, found⟩ := examine_stream_ok held.sound examined
      rcases found with ⟨number, -, rfl⟩ | ⟨rfl, batch, rfl, describes, fingerprint⟩
      · obtain rfl := Except.ok.inj done
        exact ⟨ledger, held⟩
      · have next : NextIdentity services ledger (some "service") (some revision)
            (.physicalRecord chunks.flatten) batch.fingerprint := by
          refine .inr ⟨"service", rfl, ?_, fingerprint⟩
          rw [check_receipt_next receipt, previous_revision held.sound]
        simp only [publish_ok held.sound describes.lengths] at done
        obtain rfl := Except.ok.inj done
        exact ⟨_, held_accept held describes next⟩
  | beginCapture writer message => exact absurd call id
  | advanceCapture => exact absurd call id
  | crash => exact absurd call id

theorem held_calls {state : World × Ledger} {events : List Event}
    (calls : ∀ event ∈ events, ServiceCall event)
    (held : Held services source ledger state.1.store) :
    ∃ later, Held services source later (runEvents services source state events).1.store := by
  induction events generalizing state ledger with
  | nil => exact ⟨ledger, held⟩
  | cons event events induction =>
    obtain ⟨middle, kept⟩ := held_call (calls event List.mem_cons_self) held
    exact induction (fun other inside => calls other (List.mem_cons_of_mem event inside)) kept

theorem reachable_held {name : LogName} (reachable : Reachable services name.source store) :
    ∃ ledger, Held services name.source ledger store := by
  obtain ⟨legacy, checkpoint, events, scans, calls, rfl⟩ := reachable
  have start : Held services name.source ⟨legacy, [], none⟩
      (importedStore name.source legacy checkpoint) := by
    refine ⟨opening_sound (.imported legacy checkpoint scans), rfl, ?_, by simp⟩
    intro row inside
    obtain ⟨writer, listed, rfl⟩ := List.mem_map.mp inside
    cases name <;> exact List.mem_singleton.mp listed
  exact held_calls calls start

end Reach

/-! ### Sealed generations -/

/-- The directory holds two files and the manifest that describes them. -/
def Sealed (sha256 : List UInt8 → String) (disk : Disk) (directory : Nat)
    (retained : PerLog Identity) : Prop :=
  getItem directory disk.generations = some ⟨some ⟨1, "sealed",
      ⟨⟨retained.access, some (disk.content retained.access).length,
          some (sha256 (disk.content retained.access))⟩,
        ⟨retained.error, some (disk.content retained.error).length,
          some (sha256 (disk.content retained.error))⟩⟩⟩,
    ⟨some retained.access, some retained.error⟩, none⟩

/-- Both sources have been imported and have since been captured to only. -/
def StoresReachable (services : Services) (disk : Disk) : Prop :=
  ∃ store, disk.store = some store ∧
    ∀ name : LogName, Reachable services name.source (store.sources.get name)

/-- Some runs, each stopped after one of its durable steps, and the next one begun there. -/
def Interrupted (services : Services) (sha256 : List UInt8 → String) (directory : Nat) :
    Disk → Disk → Prop :=
  Relation.ReflTransGen fun before after =>
    after ∈ (captureGeneration services sha256 directory).trace before

def Captures (services : Services) (sha256 : List UInt8 → String) (directory : Nat)
    (sizes : PerLog Nat) (disk : Disk) : Prop :=
  ∃ after generation state,
    (captureGeneration services sha256 directory).run disk = (.ok (), after) ∧
      getItem directory after.generations = some generation ∧ generation.capture = some state ∧
      ∀ name, state.files.get name = ⟨sizes.get name, none⟩

section Generations

variable {scanner : Scanner} {redact : String → String} {hmac : List UInt8 → List UInt8}
variable {sha256 : List UInt8 → String} {start disk : Disk} {directory : Nat}
variable {retained : PerLog Identity}

/-- Nothing happens beside the capture. -/
def undisturbed (replay : Replay) : Surroundings replay where
  quiet := fun _ => True
  rely := fun disk later => later = disk
  refl := fun _ => rfl
  beside := fun _ _ _ _ => trivial
  stable := by
    rintro disk _ rfl _
    exact ⟨trivial, rfl, rfl, fun _ => rfl⟩

theorem sealed_replaying (sealed_ : Sealed sha256 start directory retained)
    (stores : StoresReachable (services scanner redact hmac) start) :
    ∃ replay, replay.contents = ⟨start.content retained.access, start.content retained.error⟩ ∧
      replay.directory = directory ∧ Seals sha256 replay ∧
      Replaying (services scanner redact hmac) replay (undisturbed replay) start none := by
  obtain ⟨store, present, reachable⟩ := stores
  obtain ⟨accessLedger, accessHeld⟩ := reachable_held (reachable .access)
  obtain ⟨errorLedger, errorHeld⟩ := reachable_held (reachable .error)
  refine ⟨⟨directory, _, retained, ⟨start.content retained.access, start.content retained.error⟩,
    store.generation, ⟨accessLedger.legacy, errorLedger.legacy⟩,
    ⟨accessLedger.accepted.map Accepted.content, errorLedger.accepted.map Accepted.content⟩⟩,
    rfl, rfl, ⟨rfl, rfl, ?_⟩, ⟨trivial, sealed_, ?_, ⟨store, present, rfl, ?_⟩, by simp⟩⟩
  · intro name
    cases name <;> rfl
  · intro name
    cases name <;> rfl
  · intro name
    cases name with
    | access =>
      refine ⟨accessLedger, accessHeld, rfl, ?_⟩
      have begun : Progress (start.content retained.access)
          (accessLedger.accepted.map Accepted.content) ⟨0, none⟩
          (accessLedger.accepted.map Accepted.content ++ []) := .settled 0 [] .start
      rw [List.append_nil] at begun
      exact begun
    | error =>
      refine ⟨errorLedger, errorHeld, rfl, ?_⟩
      have begun : Progress (start.content retained.error)
          (errorLedger.accepted.map Accepted.content) ⟨0, none⟩
          (errorLedger.accepted.map Accepted.content ++ []) := .settled 0 [] .start
      rw [List.append_nil] at begun
      exact begun

theorem interrupted_replaying {replay : Replay} (seals : Seals sha256 replay)
    (replaying : Replaying (services scanner redact hmac) replay (undisturbed replay) start none)
    (interrupted : Interrupted (services scanner redact hmac) sha256 replay.directory start disk) :
    ∃ capture, Replaying (services scanner redact hmac) replay (undisturbed replay) disk
      capture := by
  induction interrupted with
  | refl => exact ⟨none, replaying⟩
  | tail _ stopped induction =>
    obtain ⟨capture, holds⟩ := induction
    obtain ⟨_, -, later⟩ := proceeds_trace (undisturbed replay).refl
      (capture_generation_proceeds seals holds) stopped
    exact later

/-- A sealed generation is captured to its end, by the first run or by a retry, exactly when
every line of its files is one the store takes. -/
theorem generation_captured_iff (sealed_ : Sealed sha256 start directory retained)
    (stores : StoresReachable (services scanner redact hmac) start)
    (interrupted : Interrupted (services scanner redact hmac) sha256 directory start disk) :
    Captures (services scanner redact hmac) sha256 directory
        ⟨(start.content retained.access).length, (start.content retained.error).length⟩ disk ↔
      Capturable (start.content retained.access) ∧ Capturable (start.content retained.error) := by
  obtain ⟨replay, contents, rfl, seals, replaying⟩ := sealed_replaying sealed_ stores
  have access : start.content retained.access = replay.content .access := by
    rw [Replay.content, contents]
    rfl
  have error : start.content retained.error = replay.content .error := by
    rw [Replay.content, contents]
    rfl
  rw [access, error]
  obtain ⟨capture, holds⟩ := interrupted_replaying seals replaying interrupted
  have ends := proceeds_run (undisturbed replay).refl (capture_generation_proceeds seals holds)
  constructor
  · rintro ⟨after, generation, state, ran, -, -, -⟩
    rw [ran] at ends
    obtain ⟨final, finished, atEnd⟩ := ends
    have whole : ∀ name, Capturable (replay.content name) := by
      intro name
      obtain ⟨store, -, -, kept⟩ := finished.store
      obtain ⟨ledger, -, -, progress⟩ := kept name
      rw [entryOf, atEnd name] at progress
      generalize ledger.accepted.map Accepted.content = contents at progress
      cases progress with
      | settled _ contents captured => exact (captured_whole captured).1
    exact ⟨whole .access, whole .error⟩
  · rintro ⟨accessFine, errorFine⟩
    cases ran : (captureGeneration (services scanner redact hmac) sha256 replay.directory).run disk
      with
    | mk result after =>
      rw [ran] at ends
      cases result with
      | error raised =>
        obtain ⟨name, odd⟩ := ends
        cases name with
        | access => exact absurd accessFine odd
        | error => exact absurd errorFine odd
      | ok done =>
        obtain ⟨final, finished, atEnd⟩ := ends
        refine ⟨after, _, final, ran, finished.generation, rfl, ?_⟩
        intro name
        cases name with
        | access => exact atEnd .access
        | error => exact atEnd .error

end Generations

/-! ### A generation of two lines -/

/-- The search on lines without a marker. -/
def plainState : String :=
  "[\"S\",\"\",\"" ++ String.ofList (List.replicate 64 '0') ++ "\",\"\",\"\"]"

def plainScanner : Scanner where
  scanPemMarkers := fun _ _ => .ok (none, plainState)
  redactTaskValue := id
  Scans := fun _ => True
  scans_start := trivial
  scans_open := trivial
  scans_result := fun _ _ _ => ⟨none, plainState, "S", "", rfl, trivial, by decide +kernel⟩

def sampleServices : Services := services plainScanner id id

def sampleDigest (data : List UInt8) : String := toString data.length

def sampleRetained : PerLog Identity := ⟨(1, 10), (1, 11)⟩

def sampleDisk (access error : List UInt8) : Disk where
  inodes := [((1, 10), access), ((1, 11), error)]
  logs := ⟨some (1, 12), some (1, 13)⟩
  archives := ⟨[], []⟩
  generations := [(1, ⟨some ⟨1, "sealed", ⟨⟨(1, 10), some access.length, some (sampleDigest access)⟩,
    ⟨(1, 11), some error.length, some (sampleDigest error)⟩⟩⟩,
    ⟨some (1, 10), some (1, 11)⟩, none⟩)]
  state := some ⟨1, "active", 1, some 1, ⟨[], []⟩, some "history"⟩
  store := some ⟨"history", ⟨importedStore "nginx-access" [] ⟨false, []⟩,
    importedStore "nginx-error" [] ⟨false, []⟩⟩, ⟨some [], some []⟩, ⟨some 0, some 0⟩⟩
  writers := [(1, 12), (1, 13)]

theorem sample_sealed (access error : List UInt8) :
    Sealed sampleDigest (sampleDisk access error) 1 sampleRetained := rfl

theorem sample_reachable (access error : List UInt8) :
    StoresReachable sampleServices (sampleDisk access error) := by
  refine ⟨_, rfl, ?_⟩
  intro name
  refine ⟨[], ⟨false, []⟩, [], trivial, by simp, ?_⟩
  cases name <;> rfl

def sampleLine : List UInt8 := [71, 69, 84, 32, 47, 10]

def sampleWarning : List UInt8 := [91, 119, 97, 114, 110, 93, 10]

theorem sample_generation_captured :
    Captures sampleServices sampleDigest 1 ⟨6, 7⟩ (sampleDisk sampleLine sampleWarning) :=
  (generation_captured_iff (sample_sealed sampleLine sampleWarning)
    (sample_reachable sampleLine sampleWarning) .refl).mpr
      ⟨by decide, by decide⟩

/-- A request line with a form feed in it. -/
theorem form_feed_not_captured :
    Sealed sampleDigest (sampleDisk [71, 12, 47, 10] []) 1 sampleRetained ∧
      StoresReachable sampleServices (sampleDisk [71, 12, 47, 10] []) ∧
      ((captureGeneration sampleServices sampleDigest 1).run
        (sampleDisk [71, 12, 47, 10] [])).1 = .error
          (valueError "Producer records must be bounded complete physical lines.") :=
  ⟨sample_sealed _ _, sample_reachable _ _, by decide +kernel⟩

end Atlaso.Logs.CaptureGuarantees
