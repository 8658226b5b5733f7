import Atlaso.Logs.PemMarkers

/-!
The search for private-key markers does not depend on how its stream is divided: the state and
the answer behind two fragments are those behind the text of both.
-/

namespace Atlaso.Logs.PemStreams

open Library.StreamSearch PemMarkers

section Streams

variable (sha256 : List UInt8 → Digest)

variable {cursor entered : Cursor}

theorem scan_loop_none (entering : cursor.inside = none) :
    scanLoop sha256 cursor = cursor.stopOutside := by
  rw [scanLoop.eq_def]
  split
  · rfl
  · next entered found => cases entering.symm.trans found

theorem scan_loop_some (entering : cursor.inside = some entered) :
    scanLoop sha256 cursor =
      match leave sha256 entered with
      | none => entered.stopInside sha256
      | some left => scanLoop sha256 left := by
  rw [scanLoop.eq_def]
  split
  · next missing => cases missing.symm.trans entering
  · next other found =>
    cases Option.some.inj (entering.symm.trans found)
    split <;> rename_i leaving <;> rw [leaving]

theorem enter_more_some (entering : enter cursor = some entered) (chunk : List UInt8) :
    enter (cursor.more chunk) = some (entered.more chunk) := by
  unfold enter at entering ⊢
  cases found : search startAt cursor.rest with
  | none =>
    rw [found] at entering
    exact absurd entering nofun
  | some result =>
    obtain ⟨before, mode, rest⟩ := result
    rw [found] at entering
    cases entering
    have extended := search_append_some start_at_resumes found chunk
    simp only [Cursor.more, extended]

theorem inside_more_some (entering : cursor.inside = some entered) (chunk : List UInt8) :
    (cursor.more chunk).inside = some (entered.more chunk) := by
  unfold Cursor.inside at entering ⊢
  by_cases outside : cursor.mode = .outside
  · rw [if_pos outside] at entering
    exact (if_pos outside).trans (enter_more_some entering chunk)
  · rw [if_neg outside] at entering
    cases entering
    exact if_neg outside

theorem rest_behind_append (label : List UInt8) (isDashes : Bool) (rest chunk : List UInt8) :
    restBehind label isDashes (rest ++ chunk) = restBehind label isDashes rest ++ chunk := by
  unfold restBehind
  by_cases again : (isDashes && !isKeyLabel label isDashes) = true
  · rw [if_pos again, if_pos again, List.append_assoc]
  · rw [if_neg again, if_neg again]

theorem leave_more_some {left : Cursor} (leaving : leave sha256 cursor = some left)
    (chunk : List UInt8) : leave sha256 (cursor.more chunk) = some (left.more chunk) := by
  unfold leave at leaving ⊢
  cases found : search boundaryAt cursor.rest with
  | none =>
    rw [found] at leaving
    exact absurd leaving nofun
  | some result =>
    obtain ⟨label, isDashes, rest⟩ := result
    rw [found] at leaving
    cases leaving
    have extended := search_append_some boundary_at_resumes found chunk
    simp only [Cursor.more, extended, rest_behind_append]
    rfl

/-! ### Blocks of a label -/

theorem absorb_blocks_append (digest : Digest) (first second : List UInt8) :
    absorbBlocks sha256 digest (first ++ second) =
      absorbBlocks sha256 (absorbBlocks sha256 digest first).1
        ((absorbBlocks sha256 digest first).2 ++ second) := by
  fun_induction absorbBlocks sha256 digest first with
  | case1 digest first block induction =>
    have long : 16 ≤ (first ++ second).length := by
      rw [List.length_append]
      omega
    rw [absorbBlocks.eq_def, if_pos long, List.take_append_of_le_length block,
      List.drop_append_of_le_length block]
    exact induction
  | case2 digest first short => rfl

theorem absorb_append (cursor : Cursor) (first second : List UInt8) :
    absorb sha256 cursor (first ++ second) = absorb sha256 (absorb sha256 cursor first) second := by
  simp only [absorb, ← List.append_assoc, absorb_blocks_append sha256 cursor.digest
    (cursor.pending ++ first) second]

theorem absorb_blocks_pending (digest : Digest) (value : List UInt8) :
    (absorbBlocks sha256 digest value).2.length < 16 := by
  fun_induction absorbBlocks sha256 digest value with
  | case1 digest value block induction => exact induction
  | case2 digest value short => exact Nat.lt_of_not_le short

/-! ### Resuming -/

def resumed (stopped : State × Option Bool) (chunk : List UInt8) : Cursor :=
  stopped.1.resume stopped.2 chunk

theorem enter_resumed (nothing : search startAt cursor.rest = none) (chunk : List UInt8) :
    enter (resumed cursor.stopOutside chunk) = enter (cursor.more chunk) := by
  have whole := search_append_none start_at_resumes nothing chunk
  have suffix : openSuffix startParts cursor.rest =
      longestSuffix (carried startParts) cursor.rest := open_suffix_shorter _ _
  rw [← suffix] at whole
  have kept : (resumed cursor.stopOutside chunk).rest =
      openSuffix startParts cursor.rest ++ chunk := rfl
  have longer : (cursor.more chunk).rest = cursor.rest ++ chunk := rfl
  unfold enter
  rw [kept, longer, whole]
  cases search startAt (openSuffix startParts cursor.rest ++ chunk) <;> rfl

theorem stop_outside_resumed (cursor : Cursor) (chunk : List UInt8) :
    (resumed cursor.stopOutside chunk).stopOutside = (cursor.more chunk).stopOutside := by
  have suffix := open_suffix_append [beginToken, endToken] cursor.rest chunk
  simp only [Cursor.more, resumed, State.resume, Cursor.stopOutside, startParts, suffix]

theorem open_end_suffix (data : List UInt8) :
    openSuffix endParts data = longestSuffix (carried endParts) data := open_suffix_shorter _ _

theorem is_key_label_resumed {data more label rest : List UInt8} (isDashes : Bool)
    (found : search boundaryAt (longestSuffix (carried endParts) data ++ more) =
      some (label, isDashes, rest)) :
    isKeyLabel (settledFront (carried endParts) data ++ label) isDashes =
      isKeyLabel label isDashes := by
  cases isDashes with
  | false => rfl
  | true =>
    have quiet : search boundaryAt (longestSuffix (carried endParts) data) = none := by
      rcases @longest_suffix_kind UInt8 (carried endParts) data with empty | kept
      · rw [empty]
        rfl
      · exact boundary_at_resumes.quiet kept
    obtain ⟨taken, some, split⟩ :=
      search_append_rest boundary_at_resumes boundary_at_takes quiet found
    have whole := search_boundary_dashes found
    rw [split, ← List.append_assoc, ← List.append_assoc] at whole
    have ended : longestSuffix (carried endParts) data ++ taken = label ++ dashes :=
      List.append_cancel_right whole
    have all : data ++ taken = settledFront (carried endParts) data ++ label ++ dashes := by
      rw [List.append_assoc, ← ended, ← List.append_assoc, settled_front_append]
    have same := token_suffix_iff some (token_beginnings
      (show privateKeyWord ++ dashes ∈ [privateKeyWord ++ dashes, dashes] by simp)) data
    rw [all] at same
    change (privateKeyWord ++ dashes <:+ _ ↔
      privateKeyWord ++ dashes <:+ longestSuffix (carried endParts) data ++ taken) at same
    rw [ended, List.suffix_append_self_iff, List.suffix_append_self_iff] at same
    unfold isKeyLabel
    rw [Bool.true_and, Bool.true_and, Bool.eq_iff_iff, List.isSuffixOf_iff_suffix,
      List.isSuffixOf_iff_suffix]
    exact same

theorem stop_inside_eq (cursor : Cursor) :
    cursor.stopInside sha256 =
      let absorbed := absorb sha256 cursor (settledFront (carried endParts) cursor.rest)
      ({ mode := absorbed.mode
         suffix := longestSuffix (carried endParts) cursor.rest
         digest := absorbed.digest
         pending := absorbed.pending
         active := absorbed.active }, absorbed.last) := by
  unfold Cursor.stopInside settledFront
  rw [open_end_suffix]

theorem leave_resumed (leaving : leave sha256 cursor = none) (chunk : List UInt8) :
    leave sha256 (resumed (cursor.stopInside sha256) chunk) =
      leave sha256 (cursor.more chunk) := by
  have nothing : search boundaryAt cursor.rest = none := by
    unfold leave at leaving
    cases found : search boundaryAt cursor.rest with
    | none => rfl
    | some result =>
      rw [found] at leaving
      exact absurd leaving nofun
  have whole := search_append_none boundary_at_resumes nothing chunk
  rw [stop_inside_eq]
  simp only [leave, resumed, State.resume, Cursor.more]
  rw [whole]
  cases found : search boundaryAt (longestSuffix (carried endParts) cursor.rest ++ chunk) with
  | none => rfl
  | some result =>
    obtain ⟨label, isDashes, rest⟩ := result
    have sameLabel := is_key_label_resumed isDashes found
    simp only [Option.map_some, markerEnd, restBehind, sameLabel]
    by_cases isKey : isKeyLabel label isDashes = true
    · simp only [if_pos isKey, List.append_assoc, absorb_append]
      rfl
    · simp only [if_neg isKey]
      rfl

theorem stop_inside_resumed (cursor : Cursor) (chunk : List UInt8) :
    (resumed (cursor.stopInside sha256) chunk).stopInside sha256 =
      (cursor.more chunk).stopInside sha256 := by
  have closed := beginnings_closed [privateKeyWord ++ dashes, dashes]
  have suffix := longest_suffix_append closed cursor.rest chunk
  have front := settled_front_append_more closed cursor.rest chunk
  change longestSuffix (carried endParts) _ = longestSuffix (carried endParts) _ at suffix
  change settledFront (carried endParts) _ = settledFront (carried endParts) _ ++
    settledFront (carried endParts) _ at front
  rw [stop_inside_eq, stop_inside_eq, stop_inside_eq]
  simp only [resumed, State.resume, Cursor.more, suffix, front, absorb_append]
  rfl

theorem inside_mode (entering : cursor.inside = some entered) :
    entered.mode ≠ .outside := by
  unfold Cursor.inside at entering
  by_cases outside : cursor.mode = .outside
  · rw [if_pos outside] at entering
    exact (enter_shorter entering).2
  · rw [if_neg outside] at entering
    cases entering
    exact outside

theorem inside_none (entering : cursor.inside = none) :
    cursor.mode = .outside ∧ search startAt cursor.rest = none := by
  unfold Cursor.inside at entering
  by_cases outside : cursor.mode = .outside
  · rw [if_pos outside] at entering
    refine ⟨outside, ?_⟩
    unfold enter at entering
    cases found : search startAt cursor.rest with
    | none => rfl
    | some result =>
      rw [found] at entering
      exact absurd entering nofun
  · rw [if_neg outside] at entering
    exact absurd entering nofun

/-- Searching two fragments one after the other is searching them at once. -/
theorem scan_loop_more (cursor : Cursor) (chunk : List UInt8) :
    scanLoop sha256 (cursor.more chunk) =
      scanLoop sha256 (resumed (scanLoop sha256 cursor) chunk) := by
  fun_induction scanLoop sha256 cursor with
  | case1 cursor entering =>
    obtain ⟨outside, nothing⟩ := inside_none entering
    have insideMore : (cursor.more chunk).inside = enter (cursor.more chunk) := if_pos outside
    have insideResumed : (resumed cursor.stopOutside chunk).inside =
        enter (cursor.more chunk) :=
      (if_pos outside).trans (enter_resumed nothing chunk)
    cases found : enter (cursor.more chunk) with
    | none =>
      rw [scan_loop_none sha256 (insideMore.trans found),
        scan_loop_none sha256 (insideResumed.trans found), stop_outside_resumed]
    | some entered =>
      rw [scan_loop_some sha256 (insideMore.trans found),
        scan_loop_some sha256 (insideResumed.trans found)]
  | case2 cursor entered entering leaving =>
    have insideResumed : (resumed (entered.stopInside sha256) chunk).inside =
        some (resumed (entered.stopInside sha256) chunk) := if_neg (inside_mode entering)
    rw [scan_loop_some sha256 (inside_more_some entering chunk),
      scan_loop_some sha256 insideResumed, leave_resumed sha256 leaving,
      stop_inside_resumed]
  | case3 cursor entered entering left leaving induction =>
    rw [scan_loop_some sha256 (inside_more_some entering chunk),
      leave_more_some sha256 leaving chunk]
    exact induction

/-! ### The answer -/

theorem close_marker_answered (cursor : Cursor) (earlier : Option Bool) :
    closeMarker sha256 (cursor.answered earlier) =
      ((closeMarker sha256 cursor).1, (closeMarker sha256 cursor).2.or earlier) := by
  unfold closeMarker Cursor.answered
  cases cursor.mode with
  | opening => rfl
  | outside | closing =>
    simp only
    split_ifs <;> rfl

theorem marker_end_answered (cursor : Cursor) (earlier : Option Bool) (label : List UInt8)
    (isDashes : Bool) :
    markerEnd sha256 (cursor.answered earlier) label isDashes =
      ((markerEnd sha256 cursor label isDashes).1,
        (markerEnd sha256 cursor label isDashes).2.or earlier) := by
  unfold markerEnd
  by_cases isKey : isKeyLabel label isDashes = true
  · rw [if_pos isKey, if_pos isKey]
    exact close_marker_answered sha256 (absorb sha256 cursor (label ++ dashes)) earlier
  · rw [if_neg isKey, if_neg isKey]
    rfl

theorem leave_answered (cursor : Cursor) (earlier : Option Bool) :
    leave sha256 (cursor.answered earlier) =
      (leave sha256 cursor).map fun left => left.answered earlier := by
  unfold leave
  simp only [marker_end_answered]
  have same : (cursor.answered earlier).rest = cursor.rest := rfl
  rw [same]
  cases search boundaryAt cursor.rest <;> rfl

theorem inside_answered (cursor : Cursor) (earlier : Option Bool) :
    (cursor.answered earlier).inside =
      cursor.inside.map fun entered => entered.answered earlier := by
  unfold Cursor.inside
  by_cases outside : cursor.mode = .outside
  · refine (if_pos outside).trans ?_
    rw [if_pos outside]
    unfold enter
    have same : (cursor.answered earlier).rest = cursor.rest := rfl
    rw [same]
    cases search startAt cursor.rest <;> rfl
  · rw [if_neg outside]
    exact if_neg outside

theorem scan_loop_answered (cursor : Cursor) (earlier : Option Bool) :
    scanLoop sha256 (cursor.answered earlier) =
      ((scanLoop sha256 cursor).1, (scanLoop sha256 cursor).2.or earlier) := by
  fun_induction scanLoop sha256 cursor with
  | case1 cursor entering =>
    rw [scan_loop_none sha256 ((inside_answered cursor earlier).trans (by rw [entering]; rfl))]
    rfl
  | case2 cursor entered entering leaving =>
    rw [scan_loop_some sha256 ((inside_answered cursor earlier).trans (by rw [entering]; rfl)),
      leave_answered, leaving]
    rfl
  | case3 cursor entered entering left leaving induction =>
    rw [scan_loop_some sha256 ((inside_answered cursor earlier).trans (by rw [entering]; rfl)),
      leave_answered, leaving]
    exact induction

/-- The state behind two fragments is that behind the text of both, and so is the answer. -/
theorem scan_append (state : State) (first second : List UInt8) :
    scan sha256 state (first ++ second) =
      ((scan sha256 (scan sha256 state first).1 second).1,
        (scan sha256 (scan sha256 state first).1 second).2.or (scan sha256 state first).2) := by
  have more : state.resume none (first ++ second) = (state.resume none first).more second := by
    simp only [State.resume, Cursor.more, List.append_assoc]
  have answer : resumed (scan sha256 state first) second =
      ((scan sha256 state first).1.resume none second).answered (scan sha256 state first).2 := rfl
  change scanLoop sha256 (state.resume none (first ++ second)) = _
  rw [more, scan_loop_more]
  change scanLoop sha256 (resumed (scan sha256 state first) second) = _
  rw [answer, scan_loop_answered]
  rfl

end Streams

end Atlaso.Logs.PemStreams
