import Atlaso.Dhcp.PoolVerification

/-!
What the published reports of one applied pool say about an address over any sequence of
verifications.

The ledger of an address is kept from the published rows alone: the finding that was
reported last and not yet answered by a legitimate use, and the first time the address
was seen. Every report agrees with the ledger as long as a verification that completes
has checked every address of the report it started from.
-/

namespace Atlaso.Dhcp.FindingHistory

open PoolVerification Kmip.Clock

def Report.row (report : Report) (address : Address) : Option Row :=
  oldRow report.observations address

structure Ledger where
  outstanding : Option Evidence
  firstSeen : Option String
  deriving DecidableEq, Repr

def Ledger.empty : Ledger := ⟨none, none⟩

def Ledger.note (ledger : Ledger) : Option Row → Ledger
  | none => ledger
  | some row =>
    { outstanding :=
        if row.status ∈ findings then some row.evidence
        else if row.status = .legitimateUse then none
        else ledger.outstanding
      firstSeen := some (ledger.firstSeen.getD row.firstSeen) }

def ledgerAfter (address : Address) (ledger : Ledger) (reports : List Report) : Ledger :=
  reports.foldl (fun ledger report => ledger.note (Report.row report address)) ledger

structure Faithful (ledger : Ledger) (row : Row) : Prop where
  unresolved : row.unresolved = ledger.outstanding.isSome
  fresh : row.status ∈ findings →
    ledger.outstanding = some row.evidence ∧ row.retainedFinding = none
  retained : row.status ∉ findings → ledger.outstanding.isSome →
    row.retainedFinding = ledger.outstanding
  legitimate : row.status = .legitimateUse → ledger.outstanding = none
  firstSeen : ledger.firstSeen = some row.firstSeen

/-- The report agrees with the ledger; an address with an entry has a row. -/
def Agrees (ledger : Ledger) : Option Row → Prop
  | none => ledger = Ledger.empty
  | some row => Faithful ledger row

/-! ### Rows -/

/-- What `classify` returns: a finding is unresolved, and nothing is retained yet. -/
structure Classified (row : Row) : Prop where
  unresolved : row.unresolved = decide (row.status ∈ findings)
  retained : row.retainedFinding = none

theorem classify_classified (observation : Observation) (pool : Pool) (before after : List Lease)
    (observedAt : Reading) (leaseAttributionUnknown : Bool) :
    Classified (classify observation pool before after observedAt leaseAttributionUnknown) :=
  ⟨rfl, rfl⟩

theorem legitimate_use_no_finding : Status.legitimateUse ∉ findings := by decide

theorem unknown_no_finding : Status.unknown ∉ findings := by decide

theorem retain_over_status (current previous : Row) :
    (retainOver current previous).status = current.status := by
  simp only [retainOver]
  split_ifs <;> rfl

theorem retain_over_address (current previous : Row) :
    (retainOver current previous).ipAddress = current.ipAddress := by
  simp only [retainOver]
  split_ifs <;> rfl

theorem retain_over_first_seen (current previous : Row) :
    (retainOver current previous).firstSeen = previous.firstSeen := by
  simp only [retainOver]
  split_ifs <;> rfl

variable {ledger before : Ledger} {previous : List Row} {address : Address} {applied : Applied}
  {progress : Progress}

variable {current : Row} {next : Progress} {reply : Reply} {chunk : Chunk} {jobId : String}
  {verification : Verification} {report : Report}

theorem retain_over_faithful {previous : Row} (classified : Classified current)
    (faithful : Faithful ledger previous) :
    Faithful (ledger.note (some (retainOver current previous))) (retainOver current previous) := by
  obtain ⟨currentUnresolved, currentRetained⟩ := classified
  have seen : (ledger.note (some (retainOver current previous))).firstSeen =
      some (retainOver current previous).firstSeen := by
    simp [Ledger.note, faithful.firstSeen, retain_over_first_seen]
  by_cases finding : current.status ∈ findings
  · -- A fresh finding: unresolved by itself, and it replaces what was retained.
    have noted : (ledger.note (some (retainOver current previous))).outstanding =
        some (retainOver current previous).evidence := by
      simp [Ledger.note, retain_over_status, finding]
    have notLegitimate : current.status ≠ .legitimateUse := by
      intro same
      exact legitimate_use_no_finding (same ▸ finding)
    refine ⟨?_, fun _ => ⟨noted, ?_⟩, ?_, ?_, seen⟩
    · rw [noted]
      simp only [retainOver]
      split_ifs <;> simp_all
    · simp only [retainOver]
      split_ifs <;> simp_all
    · intro none
      rw [retain_over_status] at none
      exact absurd finding none
    · intro legitimate
      rw [retain_over_status] at legitimate
      exact absurd legitimate notLegitimate
  · by_cases legitimate : current.status = .legitimateUse
    · have noted : (ledger.note (some (retainOver current previous))).outstanding = none := by
        simp [Ledger.note, retain_over_status, legitimate, legitimate_use_no_finding]
      refine ⟨?_, ?_, ?_, fun _ => noted, seen⟩
      · rw [noted]
        simp only [retainOver]
        split_ifs <;> simp_all
      · intro found
        rw [retain_over_status] at found
        exact absurd found finding
      · rw [noted]
        simp
    · -- No evidence either way: the outstanding finding is carried along.
      have noted : (ledger.note (some (retainOver current previous))).outstanding =
          ledger.outstanding := by
        simp [Ledger.note, retain_over_status, finding, legitimate]
      have carried : ledger.outstanding.isSome →
          some (previous.retainedFinding.getD previous.evidence) = ledger.outstanding := by
        intro outstanding
        by_cases previousFinding : previous.status ∈ findings
        · obtain ⟨same, none⟩ := faithful.fresh previousFinding
          rw [none, same, Option.getD_none]
        · obtain ⟨evidence, held⟩ := Option.isSome_iff_exists.mp outstanding
          rw [faithful.retained previousFinding outstanding, held, Option.getD_some]
      refine ⟨?_, ?_, ?_, ?_, seen⟩
      · rw [noted, ← faithful.unresolved]
        simp only [retainOver]
        split_ifs <;> simp_all
      · intro found
        rw [retain_over_status] at found
        exact absurd found finding
      · rw [noted]
        intro _ outstanding
        have previousUnresolved : previous.unresolved = true := by
          rw [faithful.unresolved, outstanding]
        rw [← carried outstanding]
        simp [retainOver, previousUnresolved, legitimate, finding]
      · intro other
        rw [retain_over_status] at other
        exact absurd other legitimate

theorem unchecked_history_status (previous : Row) (reason : String) :
    (uncheckedHistory previous reason).status = .unknown :=
  retain_over_status _ _

theorem unchecked_history_faithful {previous : Row} (faithful : Faithful ledger previous)
    (reason : String) :
    Faithful (ledger.note (some (uncheckedHistory previous reason)))
      (uncheckedHistory previous reason) := by
  refine retain_over_faithful ⟨?_, rfl⟩ faithful
  simp [unknown_no_finding]

theorem note_note (ledger : Ledger) (row : Row) :
    (ledger.note (some row)).note (some row) = ledger.note (some row) := by
  simp only [Ledger.note, Option.getD_some]
  split_ifs <;> rfl

theorem note_unchecked {previous : Row} (faithful : Faithful ledger previous) (reason : String) :
    ledger.note (some (uncheckedHistory previous reason)) = ledger := by
  obtain ⟨outstanding, firstSeen⟩ := ledger
  have seen := faithful.firstSeen
  simp only at seen
  simp [Ledger.note, unchecked_history_status, unknown_no_finding, seen]

theorem note_agrees {row : Option Row} (agrees : Agrees ledger row) :
    ledger.note row = ledger := by
  cases row with
  | none => rfl
  | some row =>
    obtain ⟨outstanding, firstSeen⟩ := ledger
    have fresh := agrees.fresh
    have legitimate := agrees.legitimate
    have seen := agrees.firstSeen
    simp only at fresh legitimate seen
    simp only [Ledger.note, seen, Option.getD_some]
    split_ifs with finding answered
    · rw [(fresh finding).1]
    · rw [legitimate answered]
    · rfl

theorem retain_history_agrees {previous : Option Row} (classified : Classified current)
    (agrees : Agrees ledger previous) :
    Agrees (ledger.note (some (retainHistory current previous)))
      (some (retainHistory current previous)) := by
  cases previous with
  | some row => exact retain_over_faithful classified agrees
  | none =>
    obtain ⟨unresolved, retained⟩ := classified
    rw [show ledger = Ledger.empty from agrees]
    change Faithful (Ledger.empty.note (some current)) current
    have noted : (Ledger.empty.note (some current)).outstanding =
        if current.status ∈ findings then some current.evidence else none := by
      simp [Ledger.note, Ledger.empty]
    refine ⟨?_, ?_, ?_, ?_, rfl⟩
    · rw [noted, unresolved]
      split_ifs with finding <;> simp [finding]
    · intro finding
      exact ⟨by rw [noted, if_pos finding], retained⟩
    · intro other
      rw [noted, if_neg other]
      simp
    · intro legitimate
      rw [noted, legitimate, if_neg legitimate_use_no_finding]

/-! ### Row lookup -/

theorem old_row_append (left right : List Row) (address : Address) :
    oldRow (left ++ right) address = (oldRow right address).or (oldRow left address) := by
  simp [oldRow, List.find?_append]

theorem old_row_some {rows : List Row} {row : Row} (found : oldRow rows address = some row) :
    row ∈ rows ∧ row.ipAddress = address := by
  have member := List.mem_of_find?_eq_some found
  have same := List.find?_some found
  exact ⟨List.mem_reverse.mp member, by simpa using same⟩

theorem old_row_none_iff {rows : List Row} :
    oldRow rows address = none ↔ address ∉ rows.map Row.ipAddress := by
  simp only [oldRow, List.find?_eq_none, List.mem_reverse, decide_eq_true_eq, List.mem_map,
    not_exists, not_and]

theorem unchecked_history_address (previous : Row) (reason : String) :
    (uncheckedHistory previous reason).ipAddress = previous.ipAddress :=
  retain_over_address _ _

theorem old_row_unchecked (previous observations : List Row) (reason : String)
    (address : Address) : oldRow (uncheckedRows previous observations reason) address =
      if address ∈ observations.map Row.ipAddress then none
      else (oldRow previous address).map fun row => uncheckedHistory row reason := by
  simp only [oldRow, uncheckedRows, ← List.map_reverse, ← List.filter_reverse]
  induction previous.reverse with
  | nil => simp
  | cons row rows induction =>
    by_cases same : row.ipAddress = address
    · by_cases checked : address ∈ observations.map Row.ipAddress
      · rw [if_pos checked] at induction ⊢
        rw [List.filter_cons_of_neg (by simpa [same] using checked), induction]
      · rw [if_neg checked] at induction ⊢
        rw [List.filter_cons_of_pos (by simpa [same] using checked)]
        simp [unchecked_history_address, same]
    · by_cases kept : row.ipAddress ∈ observations.map Row.ipAddress
      · rw [List.filter_cons_of_neg (by simpa using kept), induction]
        simp [same]
      · rw [List.filter_cons_of_pos (by simpa using kept), List.map_cons, List.find?_cons_of_neg
          (by simpa [unchecked_history_address] using same), induction]
        simp [same]

theorem old_row_listed (previous observations : List Row) (reason : String) (address : Address) :
    oldRow (observations ++ uncheckedRows previous observations reason) address =
      (oldRow observations address).or
        ((oldRow previous address).map fun row => uncheckedHistory row reason) := by
  rw [old_row_append, old_row_unchecked]
  by_cases checked : address ∈ observations.map Row.ipAddress
  · rw [if_pos checked, Option.none_or]
    cases found : oldRow observations address with
    | none => exact absurd checked (old_row_none_iff.mp found)
    | some row => rfl
  · rw [if_neg checked, old_row_none_iff.mpr checked, Option.or_none, Option.none_or]

/-! ### Replies -/

theorem admit_fold_new {pool : Pool} {addresses seen admitted : List Address}
    (folded : addresses.foldlM (admitAddress pool) seen = some admitted) :
    ∀ address ∈ addresses, address ∉ seen := by
  induction addresses generalizing seen with
  | nil => simp
  | cons candidate addresses induction =>
    simp only [List.foldlM_cons, Option.bind_eq_bind, Option.bind_eq_some_iff] at folded
    obtain ⟨next, allowed, rest⟩ := folded
    unfold admitAddress at allowed
    split_ifs at allowed with refused
    simp only [not_or] at refused
    cases allowed
    intro address member
    rcases List.mem_cons.mp member with rfl | later
    · exact refused.1
    · intro inside
      exact induction rest address later (List.mem_cons_of_mem _ inside)

theorem take_reply_checked {finished : Bool}
    (taken : takeReply applied previous progress reply = .checked next finished) :
    ∃ chunk, reply.chunk = some chunk ∧
      next.observations = progress.observations ++ classifyChunk applied previous chunk ∧
        finished = decide (reply.nextOffset = .done) ∧
          ∀ address ∈ chunk.observations.map Observation.ipAddress,
            address ∉ progress.observations.map Row.ipAddress := by
  unfold takeReply at taken
  split at taken
  · cases taken
  split at taken
  · cases taken
  split at taken
  · cases taken
  split at taken
  · rename_i total chunk totalRead chunkRead
    dsimp only at taken
    split_ifs at taken
    split at taken
    · cases taken
    · rename_i admitted folded
      cases taken
      exact ⟨chunk, chunkRead, rfl, rfl, admit_fold_new folded⟩
  · cases taken

theorem take_reply_stop {state : RunState} {reason : String}
    (taken : takeReply applied previous progress reply = .stop state reason) :
    state ≠ .complete := by
  have stopped : ∀ other, Continuation.stop (interrupted progress) other = .stop state reason →
      state ≠ .complete := by
    intro other same
    cases same
    unfold interrupted
    split_ifs <;> decide
  unfold takeReply at taken
  split at taken
  · exact stopped _ taken
  split at taken
  · exact stopped _ taken
  split at taken
  · exact stopped _ taken
  split at taken
  · dsimp only at taken
    split_ifs at taken
    split at taken
    · cases taken
    · cases taken
  · cases taken

theorem retain_history_address (current : Row) (previous : Option Row) :
    (retainHistory current previous).ipAddress = current.ipAddress := by
  cases previous with
  | none => rfl
  | some row => exact retain_over_address current row

theorem classify_chunk_addresses (applied : Applied) (previous : List Row) (chunk : Chunk) :
    (classifyChunk applied previous chunk).map Row.ipAddress =
      chunk.observations.map Observation.ipAddress := by
  simp only [classifyChunk, List.map_map]
  refine List.map_congr_left ?_
  intro observation _
  exact retain_history_address _ _

def Checked (previous : Option Row) (row : Row) : Prop :=
  ∃ current, Classified current ∧ row = retainHistory current previous

theorem classify_chunk_checked {row : Row}
    (found : oldRow (classifyChunk applied previous chunk) address = some row) :
    Checked (oldRow previous address) row := by
  obtain ⟨member, same⟩ := old_row_some found
  obtain ⟨observation, -, rfl⟩ := List.mem_map.mp member
  rw [retain_history_address] at same
  have observed : observation.ipAddress = address := same
  rw [observed]
  exact ⟨_, classify_classified _ _ _ _ _ _, rfl⟩

/-! ### One verification -/

def Sound (address : Address) (ledger : Ledger) : List Report → Prop
  | [] => True
  | report :: reports =>
    Agrees (ledger.note (Report.row report address)) (Report.row report address) ∧
      Sound address (ledger.note (Report.row report address)) reports

theorem ledger_after_append (address : Address) (ledger : Ledger) (left right : List Report) :
    ledgerAfter address ledger (left ++ right) =
      ledgerAfter address (ledgerAfter address ledger left) right :=
  List.foldl_append

theorem sound_append {left right : List Report} :
    Sound address ledger (left ++ right) ↔
      Sound address ledger left ∧ Sound address (ledgerAfter address ledger left) right := by
  induction left generalizing ledger with
  | nil => simp [Sound, ledgerAfter]
  | cons report reports induction =>
    simp only [List.cons_append, Sound, induction, and_assoc]
    rfl

/-- The ledger in the course of a run over a report with the row `previous`, whose ledger
was `before`. -/
def Tracks (before : Ledger) (previous : Option Row) : Option Row → Ledger → Prop
  | none, ledger => ledger = before
  | some row, ledger => Checked previous row ∧ ledger = before.note (some row)

theorem publish_tracks {previous earlier later : Option Row} (agrees : Agrees before previous)
    (tracks : Tracks before previous earlier ledger)
    (kept : ∀ row, earlier = some row → later = some row)
    (checked : ∀ row, later = some row → Checked previous row) (reason : String) :
    Tracks before previous later
        (ledger.note (later.or (previous.map fun row => uncheckedHistory row reason))) ∧
      Agrees (ledger.note (later.or (previous.map fun row => uncheckedHistory row reason)))
        (later.or (previous.map fun row => uncheckedHistory row reason)) := by
  cases later with
  | none =>
    have unchecked : earlier = none := by
      cases earlier with
      | none => rfl
      | some row => exact absurd (kept row rfl) (by simp)
    subst unchecked
    rw [show ledger = before from tracks]
    cases previous with
    | none => exact ⟨rfl, agrees⟩
    | some row =>
      have same := note_unchecked agrees reason
      refine ⟨same, ?_⟩
      exact unchecked_history_faithful agrees reason
  | some row =>
    have noted : ledger.note (some row) = before.note (some row) := by
      cases earlier with
      | none => rw [show ledger = before from tracks]
      | some first =>
        cases Option.some.inj (kept first rfl)
        rw [tracks.2, note_note]
    obtain ⟨current, classified, rfl⟩ := checked row rfl
    refine ⟨⟨⟨current, classified, rfl⟩, noted⟩, ?_⟩
    rw [Option.some_or, noted]
    exact retain_history_agrees classified agrees

theorem chunk_rows
    (rows : next.observations = progress.observations ++ classifyChunk applied previous chunk)
    (new : ∀ address ∈ chunk.observations.map Observation.ipAddress, address ∉
      progress.observations.map Row.ipAddress) (sofar : ∀ row, oldRow progress.observations address
      = some row → Checked (oldRow previous address) row) :
    (∀ row, oldRow progress.observations address = some row →
        oldRow next.observations address = some row) ∧
      ∀ row, oldRow next.observations address = some row →
        Checked (oldRow previous address) row := by
  rw [rows, old_row_append]
  cases added : oldRow (classifyChunk applied previous chunk) address with
  | none => simpa using sofar
  | some row =>
    have member : address ∈ chunk.observations.map Observation.ipAddress := by
      by_contra outside
      rw [← classify_chunk_addresses applied previous] at outside
      rw [old_row_none_iff.mpr outside] at added
      cases added
    rw [old_row_none_iff.mpr (new address member)]
    refine ⟨by simp, ?_⟩
    intro other same
    cases Option.some.inj same
    exact classify_chunk_checked added

theorem run_loop_sound (applied : Applied) (jobId : String)
    (agrees : Agrees before (oldRow previous address)) (turns : List Turn) :
    ∀ (progress : Progress) (ledger : Ledger),
      Tracks before (oldRow previous address) (oldRow progress.observations address) ledger →
        Sound address ledger (runLoop applied jobId previous progress turns).1 ∧
          ∀ final state reason,
            (runLoop applied jobId previous progress turns).2 = some (final, state, reason) →
              Tracks before (oldRow previous address) (oldRow final.observations address)
                (ledgerAfter address ledger
                  (runLoop applied jobId previous progress turns).1) := by
  induction turns with
  | nil =>
    intro progress ledger _
    exact ⟨trivial, fun _ _ _ ended => by cases ended⟩
  | cons turn turns induction =>
    intro progress ledger tracks
    cases turn with
    | timeLimit =>
      refine ⟨trivial, fun final state reason ended => ?_⟩
      cases ended
      exact tracks
    | disowned => exact ⟨trivial, fun _ _ _ ended => by cases ended⟩
    | cancelRequested =>
      refine ⟨trivial, fun final state reason ended => ?_⟩
      cases ended
      exact tracks
    | replied reply publishes =>
      rw [runLoop]
      cases taken : takeReply applied previous progress reply with
      | stop state reason =>
        refine ⟨trivial, fun final state reason ended => ?_⟩
        cases ended
        exact tracks
      | abort => exact ⟨trivial, fun _ _ _ ended => by cases ended⟩
      | checked next finished =>
        obtain ⟨chunk, -, rows, -, new⟩ := take_reply_checked taken
        have sofar : ∀ row, oldRow progress.observations address = some row →
            Checked (oldRow previous address) row := by
          intro row found
          rw [found] at tracks
          exact tracks.1
        obtain ⟨kept, checked⟩ := chunk_rows rows new sofar
        obtain ⟨tracksNext, agreesNext⟩ :=
          publish_tracks agrees tracks kept checked notYetChecked
        have listed : Report.row (runningReport applied jobId previous next) address =
            (oldRow next.observations address).or ((oldRow previous address).map
              fun row => uncheckedHistory row notYetChecked) :=
          old_row_listed previous next.observations notYetChecked address
        rw [← listed] at tracksNext agreesNext
        cases publishes with
        | false => exact ⟨trivial, fun _ _ _ ended => by cases ended⟩
        | true =>
          cases finished with
          | true =>
            refine ⟨⟨agreesNext, trivial⟩, fun final state reason ended => ?_⟩
            cases ended
            exact tracksNext
          | false =>
            obtain ⟨sound, ends⟩ := induction next _ tracksNext
            exact ⟨⟨agreesNext, sound⟩, ends⟩

/-! ### Coverage -/

def swept : List Turn → Option (List Address)
  | .replied reply _ :: turns =>
    match reply.chunk with
    | none => none
    | some chunk =>
      if reply.nextOffset = .done then some (chunk.observations.map Observation.ipAddress)
      else (swept turns).map fun addresses =>
        chunk.observations.map Observation.ipAddress ++ addresses
  | _ => none

/-- A verification that gets through the whole pool and is not cancelled has checked every
address that the report before it lists. -/
def Verification.Covers (stored : List Row) (verification : Verification) : Prop :=
  verification.closing = .owned → ∀ addresses, swept verification.turns = some addresses →
    ∀ row ∈ stored, row.ipAddress ∈ addresses

def AllCover (applied : Applied) : Option Report → List Verification → Prop
  | _, [] => True
  | stored, verification :: rest =>
    Verification.Covers (pendingReport applied verification.jobId stored).observations
        verification ∧
      AllCover applied (verification.reports applied stored).getLast? rest

theorem run_loop_swept (turns : List Turn) :
    ∀ (progress final : Progress) (reason : String),
      (runLoop applied jobId previous progress turns).2 = some (final, .complete, reason) →
        (∀ address ∈ progress.observations.map Row.ipAddress,
            address ∈ final.observations.map Row.ipAddress) ∧
          ∃ addresses, swept turns = some addresses ∧
            ∀ address ∈ addresses, address ∈ final.observations.map Row.ipAddress := by
  induction turns with
  | nil =>
    intro progress final reason ended
    cases ended
  | cons turn turns induction =>
    intro progress final reason ended
    cases turn with
    | timeLimit => cases ended
    | disowned => cases ended
    | cancelRequested => cases ended
    | replied reply publishes =>
      rw [runLoop] at ended
      cases taken : takeReply applied previous progress reply with
      | stop state other =>
        rw [taken] at ended
        cases ended
        exact absurd rfl (take_reply_stop taken)
      | abort =>
        rw [taken] at ended
        cases ended
      | checked next finished =>
        obtain ⟨chunk, chunkRead, rows, done, -⟩ := take_reply_checked taken
        have addresses : next.observations.map Row.ipAddress =
            progress.observations.map Row.ipAddress ++
              chunk.observations.map Observation.ipAddress := by
          rw [rows, List.map_append, classify_chunk_addresses]
        rw [taken] at ended
        cases publishes with
        | false => cases ended
        | true =>
          cases finished with
          | true =>
            cases ended
            refine ⟨fun address member => ?_,
              chunk.observations.map Observation.ipAddress, ?_,
              fun address member => ?_⟩
            · rw [addresses]
              exact List.mem_append_left _ member
            · have last : reply.nextOffset = .done := of_decide_eq_true done.symm
              simp only [swept, chunkRead, if_pos last]
            · rw [addresses]
              exact List.mem_append_right _ member
          | false =>
            obtain ⟨kept, others, sweptOthers, inside⟩ :=
              induction next final reason ended
            refine ⟨fun address member => ?_,
              chunk.observations.map Observation.ipAddress ++ others, ?_,
              fun address member => ?_⟩
            · refine kept address ?_
              rw [addresses]
              exact List.mem_append_left _ member
            · have more : reply.nextOffset ≠ .done := of_decide_eq_false done.symm
              simp only [swept, chunkRead, if_neg more, sweptOthers, Option.map_some]
            · rcases List.mem_append.mp member with first | later
              · refine kept address ?_
                rw [addresses]
                exact List.mem_append_right _ first
              · exact inside address later

/-! ### Sequences of verifications -/

theorem final_report_agrees {final : Progress} {state : RunState}
    (agrees : Agrees before (oldRow previous address))
    (tracks : Tracks before (oldRow previous address) (oldRow final.observations address) ledger)
    (covered : state = .complete → address ∈ previous.map Row.ipAddress → address ∈
      final.observations.map Row.ipAddress) (reason : String) :
    Agrees (ledger.note (Report.row (finalReport applied jobId previous final state reason)
        address))
      (Report.row (finalReport applied jobId previous final state reason) address) := by
  have checked : ∀ row, oldRow final.observations address = some row →
      Checked (oldRow previous address) row := by
    intro row found
    rw [found] at tracks
    exact tracks.1
  by_cases complete : state = .complete
  · simp only [Report.row, finalReport, if_pos complete]
    cases found : oldRow final.observations address with
    | some row =>
      obtain ⟨current, classified, rfl⟩ := checked row found
      rw [found] at tracks
      rw [tracks.2, note_note]
      exact retain_history_agrees classified agrees
    | none =>
      have absent : oldRow previous address = none := by
        refine old_row_none_iff.mpr fun listed => ?_
        exact old_row_none_iff.mp found (covered complete listed)
      rw [found, absent] at tracks
      rw [absent] at agrees
      rw [show ledger = before from tracks]
      exact agrees
  · have published := (publish_tracks agrees tracks (fun _ same => same) checked notChecked).2
    rw [← old_row_listed previous final.observations notChecked address] at published
    simp only [Report.row, finalReport, if_neg complete]
    exact published

theorem run_sound (agrees : Agrees before (oldRow previous address))
    (covers : Verification.Covers previous verification) :
    Sound address before (run applied verification.jobId previous verification.turns
      verification.closing) := by
  obtain ⟨loopSound, ends⟩ := run_loop_sound applied verification.jobId agrees
    verification.turns Progress.start before rfl
  refine sound_append.mpr ⟨loopSound, ?_⟩
  cases ended : (runLoop applied verification.jobId previous Progress.start
      verification.turns).2 with
  | none => trivial
  | some outcome =>
    obtain ⟨final, state, reason⟩ := outcome
    have tracks := ends final state reason ended
    unfold closingReport
    cases closes : verification.closing with
    | disowned => trivial
    | cancelRequested =>
      exact ⟨final_report_agrees agrees tracks (fun same => by cases same) _, trivial⟩
    | owned =>
      refine ⟨final_report_agrees agrees tracks ?_ _, trivial⟩
      rintro rfl listed
      obtain ⟨-, addresses, sweeps, inside⟩ :=
        run_loop_swept verification.turns Progress.start final reason ended
      obtain ⟨row, member, rfl⟩ := List.mem_map.mp listed
      exact inside _ (covers closes addresses sweeps row member)

theorem run_loop_digest (applied : Applied) (jobId : String) (previous : List Row)
    (turns : List Turn) : ∀ (progress : Progress),
      ∀ report ∈ (runLoop applied jobId previous progress turns).1,
        report.configHash = applied.digest := by
  induction turns with
  | nil => simp [runLoop]
  | cons turn turns induction =>
    intro progress
    cases turn with
    | timeLimit => simp [runLoop]
    | disowned => simp [runLoop]
    | cancelRequested => simp [runLoop]
    | replied reply publishes =>
      rw [runLoop]
      cases takeReply applied previous progress reply with
      | stop state reason => simp
      | abort => simp
      | checked next finished =>
        cases publishes <;> cases finished
        · simp
        · simp
        · simp only [Bool.true_eq_false, if_false, Bool.false_eq_true, List.mem_cons]
          rintro report (rfl | later)
          · rfl
          · exact induction next report later
        · simp [runningReport]

theorem reports_digest {stored : Option Report}
    (member : report ∈ verification.reports applied stored) :
    report.configHash = applied.digest := by
  rcases List.mem_cons.mp member with rfl | published
  · rfl
  rcases List.mem_append.mp published with loop | closing
  · exact run_loop_digest applied _ _ _ _ report loop
  · unfold closingReport at closing
    split at closing
    · cases closing
    · split at closing
      · cases closing
      · rw [List.mem_singleton.mp closing]
        rfl
      · rw [List.mem_singleton.mp closing]
        rfl

theorem sound_last {reports : List Report} {last : Report} (sound : Sound address ledger reports)
    (ends : reports.getLast? = some last) :
    Agrees (ledgerAfter address ledger reports) (Report.row last address) := by
  obtain ⟨earlier, rfl⟩ := List.getLast?_eq_some_iff.mp ends
  have published := (sound_append.mp sound).2.1
  rw [ledger_after_append]
  exact published

theorem pending_rows_kept {last : Report} (jobId : String)
    (same : last.configHash = applied.digest) :
    (pendingReport applied jobId (some last)).observations = last.observations := by
  simp [pendingReport, Option.filter, same]

theorem published_sound (verifications : List Verification) :
    ∀ (stored : Option Report) (ledger : Ledger),
      (∀ jobId, Agrees ledger
        (oldRow (pendingReport applied jobId stored).observations address)) →
      AllCover applied stored verifications →
        Sound address ledger (publishedReports applied stored verifications) := by
  induction verifications with
  | nil => intros; trivial
  | cons verification rest induction =>
    intro stored ledger agrees cover
    have pending := agrees verification.jobId
    have noted := note_agrees pending
    have first : Sound address ledger (verification.reports applied stored) := by
      refine ⟨?_, ?_⟩
      · rw [show ledger.note (Report.row _ address) = ledger from noted]
        exact pending
      · rw [show ledger.note (Report.row _ address) = ledger from noted]
        exact run_sound pending cover.1
    refine sound_append.mpr ⟨first, induction _ _ ?_ cover.2⟩
    intro jobId
    cases ends : (verification.reports applied stored).getLast? with
    | none => exact absurd (List.getLast?_eq_none_iff.mp ends) (by simp [Verification.reports])
    | some last =>
      rw [pending_rows_kept jobId (reports_digest (List.mem_of_getLast? ends))]
      exact sound_last first ends

/-! ### Findings -/

theorem outstanding_stays (reports : List Report) : ∀ ledger : Ledger,
    (∀ report ∈ reports, ∀ row, Report.row report address = some row →
      row.status ≠ .legitimateUse) →
    ledger.outstanding.isSome →
      (ledgerAfter address ledger reports).outstanding.isSome := by
  induction reports with
  | nil => exact fun ledger _ outstanding => outstanding
  | cons report reports induction =>
    intro ledger unanswered outstanding
    refine induction (ledger.note (Report.row report address))
      (fun later member => unanswered later (List.mem_cons_of_mem _ member)) ?_
    cases found : Report.row report address with
    | none => exact outstanding
    | some row =>
      have other := unanswered report (by simp) row found
      simp only [Ledger.note, if_neg other]
      split_ifs
      · rfl
      · exact outstanding

theorem outstanding_unchanged (reports : List Report) : ∀ ledger : Ledger,
    (∀ report ∈ reports, ∀ row, Report.row report address = some row →
      row.status ≠ .legitimateUse ∧ row.status ∉ findings) →
      (ledgerAfter address ledger reports).outstanding = ledger.outstanding := by
  induction reports with
  | nil => exact fun ledger _ => rfl
  | cons report reports induction =>
    intro ledger silent
    refine (induction (ledger.note (Report.row report address))
      (fun later member => silent later (List.mem_cons_of_mem _ member))).trans ?_
    cases found : Report.row report address with
    | none => rfl
    | some row =>
      have other := silent report (by simp) row found
      simp [Ledger.note, other.1, other.2]

theorem first_seen_unchanged (address : Address) {text : String} (reports : List Report) :
    ∀ ledger : Ledger, ledger.firstSeen = some text →
      (ledgerAfter address ledger reports).firstSeen = some text := by
  induction reports with
  | nil => exact fun ledger seen => seen
  | cons report reports induction =>
    intro ledger seen
    refine induction (ledger.note (Report.row report address)) ?_
    cases Report.row report address with
    | none => exact seen
    | some row => simp [Ledger.note, seen]

/-- What the published reports promise about the findings on an address: from a report
with a finding on, and until one with a legitimate use, the row is unresolved and carries
the last finding, and the time it was first seen never changes. -/
structure FindingsKept (reports : List Report) (address : Address) : Prop where
  unresolved : ∀ before finding newer report after found,
    reports = before ++ finding :: (newer ++ report :: after) →
      Report.row finding address = some found → found.status ∈ findings →
        (∀ later ∈ newer ++ [report], ∀ row, Report.row later address = some row →
          row.status ≠ .legitimateUse) →
          ∃ row, Report.row report address = some row ∧ row.unresolved = true
  retained : ∀ before finding newer report after found row,
    reports = before ++ finding :: (newer ++ report :: after) →
      Report.row finding address = some found → found.status ∈ findings →
        (∀ later ∈ newer ++ [report], ∀ row, Report.row later address = some row →
          row.status ≠ .legitimateUse ∧ row.status ∉ findings) →
          Report.row report address = some row → row.retainedFinding = some found.evidence
  firstSeen : ∀ before finding newer report after found row,
    reports = before ++ finding :: (newer ++ report :: after) →
      Report.row finding address = some found → found.status ∈ findings →
        Report.row report address = some row → row.firstSeen = found.firstSeen

theorem sound_between {before newer after : List Report} {finding : Report} {found : Row}
    (sound : Sound address ledger (before ++ finding :: (newer ++ report :: after)))
    (row : Report.row finding address = some found) :
    Faithful (ledgerAfter address ledger (before ++ [finding])) found ∧
      Agrees (ledgerAfter address (ledgerAfter address ledger (before ++ [finding]))
        (newer ++ [report])) (Report.row report address) := by
  have split : before ++ finding :: (newer ++ report :: after) =
      (before ++ [finding]) ++ ((newer ++ [report]) ++ after) := by simp
  rw [split] at sound
  obtain ⟨upTo, rest⟩ := sound_append.mp sound
  obtain ⟨between, -⟩ := sound_append.mp rest
  have atFinding := sound_last upTo List.getLast?_concat
  rw [row] at atFinding
  exact ⟨atFinding, sound_last between List.getLast?_concat⟩

theorem sound_findings_kept {reports : List Report} (sound : Sound address ledger reports) :
    FindingsKept reports address := by
  refine ⟨?_, ?_, ?_⟩
  · rintro before finding newer report after found rfl row isFinding unanswered
    obtain ⟨faithful, agrees⟩ := sound_between sound row
    have outstanding := outstanding_stays (newer ++ [report]) _ unanswered
      (by rw [(faithful.fresh isFinding).1]; rfl)
    cases last : Report.row report address with
    | none =>
      rw [last] at agrees
      rw [show ledgerAfter _ _ _ = Ledger.empty from agrees] at outstanding
      cases outstanding
    | some kept =>
      rw [last] at agrees
      exact ⟨kept, rfl, agrees.unresolved.trans outstanding⟩
  · rintro before finding newer report after found kept rfl row isFinding silent last
    obtain ⟨faithful, agrees⟩ := sound_between sound row
    have same := outstanding_unchanged (newer ++ [report])
      (ledgerAfter address ledger (before ++ [finding])) silent
    rw [(faithful.fresh isFinding).1] at same
    rw [last] at agrees
    have other := (silent report (by simp) kept last).2
    rw [agrees.retained other (by rw [same]; rfl), same]
  · rintro before finding newer report after found kept rfl row _ last
    obtain ⟨faithful, agrees⟩ := sound_between sound row
    have seen := first_seen_unchanged address (newer ++ [report]) _ faithful.firstSeen
    rw [last] at agrees
    exact Option.some.inj (agrees.firstSeen.symm.trans seen)

/-- In every sequence of verifications whose complete ones have checked all the addresses
of the report before them, a finding is only resolved by a legitimate use. -/
theorem findings_kept (applied : Applied) (stored : Option Report)
    (other : ∀ report, stored = some report → report.configHash ≠ applied.digest)
    (verifications : List Verification) (cover : AllCover applied stored verifications)
    (address : Address) :
    FindingsKept (publishedReports applied stored verifications) address := by
  refine sound_findings_kept (published_sound verifications stored Ledger.empty ?_ cover)
  intro jobId
  have nothing : (pendingReport applied jobId stored).observations = [] := by
    cases stored with
    | none => rfl
    | some report => simp [pendingReport, Option.filter, other report rfl]
  rw [nothing]
  rfl

def sampleApplied : Applied :=
  { digest := "digest"
    pool := {
      scopeId := 1
      name := "Site"
      interfaceName := "eth1"
      addressFamily := "ipv4"
      siteAddress := 0xC0A83201
      prefixLength := 24
      ranges := [(0xC0A83264, 0xC0A83265)]
      reservations := [] }
    overlapping := [] }

def sampleTurn (observations : List Observation) : Turn :=
  .replied
    { returncode := 0
      status := some "complete"
      configHash := some sampleApplied.digest
      scope := some sampleApplied.pool
      reason := none
      linkIdentityHash := some (String.ofList (List.replicate 64 'a'))
      total := some observations.length
      offset := some 0
      nextOffset := .done
      chunk := some {
        observations := observations
        leasesBefore := []
        leasesAfter := []
        observedAt := ⟨⟨2030, 1, 1, 0, 0, 0, 0⟩, by decide⟩
        dnsmasqVersion := none } }
    true

def sampleOccupied : Observation := ⟨0xC0A83264, ["02:00:00:00:00:01"], .response⟩

def sampleSilent : Observation := ⟨0xC0A83265, [], .noResponse⟩

def sampleSweeps : List Verification :=
  [⟨"job_1", [sampleTurn [sampleOccupied, sampleSilent]], .owned⟩,
    ⟨"job_2", [sampleTurn [{ sampleOccupied with status := .noResponse }, sampleSilent]],
      .owned⟩]

theorem sample_sweeps_cover : AllCover sampleApplied none sampleSweeps := by
  refine ⟨?_, ?_, trivial⟩
  · intro _ addresses _ row member
    cases member
  · intro _ addresses sweeps row member
    have same : [0xC0A83264, 0xC0A83265] = addresses := Option.some.inj sweeps
    have listed : row.ipAddress ∈ [(0xC0A83264 : Address), 0xC0A83265] :=
      List.mem_map.mpr ⟨row, member, rfl⟩
    rw [← same]
    exact listed

theorem sample_findings_kept :
    FindingsKept (publishedReports sampleApplied none sampleSweeps) 0xC0A83264 :=
  findings_kept sampleApplied none (by simp) sampleSweeps sample_sweeps_cover _

def sampleShrinking : List Verification :=
  [⟨"job_1", [sampleTurn [sampleOccupied, sampleSilent]], .owned⟩,
    ⟨"job_2", [sampleTurn [sampleSilent]], .owned⟩]

/-- The complete report of the second sweep drops the finding of the first one. -/
theorem local_address_drops_finding :
    ¬∀ (applied : Applied) (stored : Option Report) (verifications : List Verification)
      (address : Address),
        (∀ report, stored = some report → report.configHash ≠ applied.digest) →
          FindingsKept (publishedReports applied stored verifications) address := by
  intro kept
  have promised := (kept sampleApplied none sampleShrinking 0xC0A83264 (by simp)).unresolved
  let reports := publishedReports sampleApplied none sampleShrinking
  let queued := reports.get ⟨3, by decide⟩
  let running := reports.get ⟨4, by decide⟩
  let last := reports.get ⟨5, by decide⟩
  have unanswered : ∀ later ∈ [running] ++ [last],
      (Report.row later 0xC0A83264).all (fun row => row.status ≠ .legitimateUse) = true := by
    decide
  obtain ⟨row, found, -⟩ := promised (reports.take 3) queued [running] last [] _ rfl rfl
    (by decide) (fun later member row found => by
      have checked := unanswered later member
      rw [found] at checked
      simpa using checked)
  have dropped : Report.row last 0xC0A83264 = none := rfl
  rw [dropped] at found
  cases found

end Atlaso.Dhcp.FindingHistory
