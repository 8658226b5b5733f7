import Atlaso.Dns.AuthorityLines
import Atlaso.Library.Traversals

/-!
Sequences of projections: the generated directives follow the records of the last step,
and the lines of the operator stay, apart from serials and the networks of zones.
-/

namespace Atlaso.Dns.ProjectionRuns

open Library KeptLines LineText Outcomes Traversals AuthorityLines
open GeneratedProjection

local instance lawfulChars : LawfulBEq (List Char) := inferInstance

/-! ### Owned lines -/

def directivesOf (lines : List (List Char)) : List (List Char) :=
  lines.filterMap unwrapAuthoritativeLine

/-- The record directives of a configuration, in order. -/
def directives (config : List Char) : List (List Char) := directivesOf (keepLines config)

def isOwned (generated : List (List Char)) (line : List Char) : Bool :=
  match unwrapAuthoritativeLine line with
  | none => false
  | some directive => decide (directive ∈ generated)

def otherLines (generated lines : List (List Char)) : List (List Char) :=
  lines.filter fun line => !isOwned generated line

def operatorValues (generated : List (List Char)) (config : List Char) : List (List Char) :=
  (otherLines generated (keepLines config)).map lineValue

section Reconciling

variable {generated : List (List Char)}

variable {line directive : List Char} {lines : List (List Char)}

theorem owned_iff : isOwned generated line = true ↔
    ∃ directive ∈ generated, unwrapAuthoritativeLine line = some directive := by
  unfold isOwned
  cases unwrapAuthoritativeLine line with
  | none => simp
  | some directive => simp

theorem directives_cons_some (record : unwrapAuthoritativeLine line = some directive) :
    directivesOf (line :: lines) = directive :: directivesOf lines :=
  List.filterMap_cons_some record

theorem directives_cons_none (plain : unwrapAuthoritativeLine line = none) :
    directivesOf (line :: lines) = directivesOf lines :=
  List.filterMap_cons_none plain

theorem remove_owned_others {owned : List (List Char)}
    (ours : ∀ directive ∈ owned, directive ∈ generated) (counted : ∀ directive ∈ generated,
      (directivesOf lines).count directive ≤ owned.count directive) :
    removeOwned lines owned = otherLines generated lines := by
  induction lines generalizing owned with
  | nil => rfl
  | cons line rest induction =>
    cases record : unwrapAuthoritativeLine line with
    | none =>
      have plain : isOwned generated line = false := by rw [isOwned, record]
      rw [directives_cons_none record] at counted
      simp only [removeOwned, record, otherLines, List.filter_cons, plain, Bool.not_false,
        if_true]
      exact congrArg (line :: ·) (induction ours counted)
    | some directive =>
      rw [directives_cons_some record] at counted
      by_cases inside : directive ∈ owned
      · have held : isOwned generated line = true :=
          owned_iff.mpr ⟨directive, ours directive inside, record⟩
        simp only [removeOwned, record, if_pos inside, otherLines, List.filter_cons, held,
          Bool.not_true, Bool.false_eq_true, if_false]
        refine induction (fun other among => ours other (List.mem_of_mem_erase among)) ?_
        intro other among
        have before := counted other among
        rw [List.count_erase]
        rw [List.count_cons] at before
        by_cases same : directive = other
        · simp only [same, beq_self_eq_true, if_true] at before ⊢
          omega
        · simp only [beq_eq_false_iff_ne.mpr same, Bool.false_eq_true, if_false] at before ⊢
          omega
      · have foreign : directive ∉ generated := by
          intro among
          have before := counted directive among
          rw [List.count_cons_self, List.count_eq_zero_of_not_mem inside] at before
          omega
        have plain : isOwned generated line = false := by
          rw [isOwned, record]
          exact decide_eq_false foreign
        simp only [removeOwned, record, if_neg inside, otherLines, List.filter_cons, plain,
          Bool.not_false, if_true]
        refine congrArg (line :: ·) (induction ours ?_)
        intro other among
        have before := counted other among
        have apart : directive ≠ other := by
          rintro rfl
          exact foreign among
        rwa [List.count_cons_of_ne apart] at before

theorem others_hold_none (among : directive ∈ generated) :
    (directivesOf (otherLines generated lines)).count directive = 0 := by
  refine List.count_eq_zero_of_not_mem fun inside => ?_
  obtain ⟨line, member, record⟩ := List.mem_filterMap.mp inside
  have plain := (List.mem_filter.mp member).2
  rw [owned_iff.mpr ⟨directive, among, record⟩] at plain
  cases plain

theorem desired_lines_sublist (lines needed : List (List Char)) :
    (desiredLines lines needed).Sublist lines := by
  induction lines generalizing needed with
  | nil => exact List.Sublist.slnil
  | cons line rest induction =>
    unfold desiredLines
    split
    · exact (induction needed).cons line
    · split_ifs
      · exact (induction _).cons_cons line
      · exact (induction needed).cons line

theorem desired_lines_record {needed : List (List Char)}
    (inside : line ∈ desiredLines lines needed) :
    ∃ directive ∈ needed, unwrapAuthoritativeLine line = some directive := by
  induction lines generalizing needed with
  | nil => exact absurd inside List.not_mem_nil
  | cons first rest induction =>
    unfold desiredLines at inside
    split at inside
    · exact induction inside
    · rename_i directive record
      split_ifs at inside with wanted
      · rcases List.mem_cons.mp inside with rfl | later
        · exact ⟨directive, wanted, record⟩
        · obtain ⟨other, among, found⟩ := induction later
          exact ⟨other, List.mem_of_mem_erase among, found⟩
      · exact induction inside

theorem desired_lines_count {needed : List (List Char)}
    (rendered : ∀ directive, needed.count directive ≤ (directivesOf lines).count directive)
    (directive : List Char) :
    (directivesOf (desiredLines lines needed)).count directive = needed.count directive := by
  induction lines generalizing needed with
  | nil =>
    have none := rendered directive
    simp only [directivesOf, List.filterMap_nil, List.count_nil, Nat.le_zero] at none
    rw [none]
    rfl
  | cons line rest induction =>
    cases record : unwrapAuthoritativeLine line with
    | none =>
      rw [directives_cons_none record] at rendered
      simp only [desiredLines, record]
      exact induction rendered
    | some held =>
      rw [directives_cons_some record] at rendered
      by_cases wanted : held ∈ needed
      · have later : ∀ other, (needed.erase held).count other ≤
            (directivesOf rest).count other := by
          intro other
          have before := rendered other
          rw [List.count_cons] at before
          rw [List.count_erase]
          by_cases same : held = other
          · simp only [same, beq_self_eq_true, if_true] at before ⊢
            omega
          · simp only [beq_eq_false_iff_ne.mpr same, Bool.false_eq_true, if_false] at before ⊢
            omega
        simp only [desiredLines, record, if_pos wanted]
        rw [directives_cons_some record, List.count_cons, induction later, List.count_erase]
        by_cases same : held = directive
        · have some := List.count_pos_iff.mpr (same ▸ wanted)
          simp only [same, beq_self_eq_true, if_true]
          omega
        · simp only [beq_eq_false_iff_ne.mpr same, Bool.false_eq_true, if_false]
          omega
      · simp only [desiredLines, record, if_neg wanted]
        refine induction fun other => ?_
        have before := rendered other
        by_cases same : held = other
        · rw [← same, List.count_eq_zero_of_not_mem wanted]
          exact Nat.zero_le _
        · rwa [List.count_cons_of_ne same] at before

/-! ### The reconciled text -/

theorem tidy_last (tidy : Tidy line) (some : line ≠ []) :
    line.getLast? = .some '\n' ∨
      (lineEnding line = [] ∧ ∃ c, line.getLast? = .some c ∧ isBoundary c = false) := by
  have parts := body_ending line
  rcases List.mem_cons.mp tidy with none | tidy
  · rw [none, List.append_nil] at parts
    obtain ⟨front, c, shape⟩ := (List.eq_nil_or_concat line).resolve_left some
    rw [List.concat_eq_append] at shape
    have last : line.getLast? = .some c := by rw [shape, List.getLast?_concat]
    refine .inr ⟨none, c, last, ?_⟩
    refine body_unbroken line c ?_
    rw [parts, shape]
    exact List.mem_append_right _ (List.mem_singleton_self c)
  · rcases List.mem_cons.mp tidy with newline | tidy
    · rw [newline] at parts
      rw [← parts, List.getLast?_concat]
      exact .inl rfl
    · rw [List.mem_singleton.mp tidy] at parts
      rw [← parts, show ['\r', '\n'] = ['\r'] ++ ['\n'] from rfl, ← List.append_assoc,
        List.getLast?_concat]
      exact .inl rfl

theorem front_closed {front : List (List Char)} {last : List Char}
    (whole : Lines (front ++ [last])) (tidy : ∀ line ∈ front, Tidy line) :
    ∀ line ∈ front, line.getLast? = some '\n' := by
  induction front with
  | nil => exact fun line inside => absurd inside List.not_mem_nil
  | cons first front induction =>
    rw [List.cons_append] at whole
    generalize shape : front ++ [last] = rest at whole
    cases whole with
    | last text unbroken => exact absurd shape (by simp)
    | @cons body ending _ unbroken ends _ later =>
      rw [← shape] at later
      intro line inside
      rcases List.mem_cons.mp inside with rfl | behind
      · rcases tidy_last (tidy _ List.mem_cons_self) (lines_nonempty
          (Lines.cons unbroken ends (fun _ => by simp) Lines.nil) _ List.mem_cons_self) with
          closed | ⟨none, -⟩
        · exact closed
        · rw [(body_of_parts unbroken (.inr ends)).2] at none
          exact absurd none (ending_nonempty ends)
      · exact induction later (fun other among => tidy other (List.mem_cons_of_mem _ among))
          line behind

theorem newline_ending (output : List Char) :
    newlineFor output ∈ [[], ['\n'], ['\r', '\n']] ∧ (newlineFor output).getLast? = some '\n' ∧
      IsEnding (newlineFor output) := by
  unfold newlineFor
  split_ifs
  · exact ⟨by decide, rfl, .inl rfl⟩
  · exact ⟨by decide, rfl, .inr ⟨'\n', rfl, rfl⟩⟩

theorem close_lines (whole : Lines lines) (tidy : ∀ line ∈ lines, Tidy line) :
    ∃ closed, closed.flatten = closeText lines.flatten ∧ Lines closed ∧
      (∀ line ∈ closed, line.getLast? = some '\n') ∧ (∀ line ∈ closed, Tidy line) ∧
        closed.map lineValue = lines.map lineValue := by
  rcases List.eq_nil_or_concat lines with rfl | ⟨front, last, rfl⟩
  · exact ⟨[], rfl, Lines.nil, by simp, by simp, rfl⟩
  · rw [List.concat_eq_append] at whole tidy ⊢
    have lastTidy := tidy last (by simp)
    have frontTidy : ∀ line ∈ front, Tidy line := fun line inside =>
      tidy line (List.mem_append_left _ inside)
    have frontLast := front_closed whole frontTidy
    have lastSome := lines_nonempty whole last (by simp)
    have ends : (front ++ [last]).flatten.getLast? = last.getLast? := by
      rw [List.flatten_append, List.flatten_singleton, List.getLast?_append]
      obtain ⟨c, found⟩ := Option.ne_none_iff_exists'.mp
        (fun none => lastSome (List.getLast?_eq_none_iff.mp none))
      rw [found]
      rfl
    rcases tidy_last lastTidy lastSome with closed | ⟨open_end, c, found, plain⟩
    · refine ⟨front ++ [last], ?_, whole, ?_, tidy, rfl⟩
      · rw [closeText, ends, closed]
        rfl
      · intro line inside
        rcases List.mem_append.mp inside with before | here
        · exact frontLast line before
        · rw [List.mem_singleton.mp here]
          exact closed
    · obtain ⟨kind, newlineLast, ending⟩ := newline_ending (front ++ [last]).flatten
      have body : Unbroken last := by
        have parts := body_ending last
        rw [open_end, List.append_nil] at parts
        rw [← parts]
        exact body_unbroken last
      have closedLast : (last ++ newlineFor (front ++ [last]).flatten).getLast? = some '\n' := by
        rw [List.getLast?_append, newlineLast]
        rfl
      have frontLines : Lines front := lines_sublist whole (List.sublist_append_left _ _)
        (.inl fun line inside => by rw [frontLast line inside]; decide)
      have lastLine : Lines [last ++ newlineFor (front ++ [last]).flatten] :=
        Lines.cons body ending (fun _ => by simp) Lines.nil
      refine ⟨front ++ [last ++ newlineFor (front ++ [last]).flatten], ?_,
        lines_append frontLines frontLast lastLine, ?_, ?_, ?_⟩
      · have apart : ¬(c = '\n' ∨ c = '\r') := by
          rintro (rfl | rfl)
          · exact absurd plain (by decide)
          · exact absurd plain (by decide)
        rw [closeText, ends, found]
        simp only [if_neg apart, List.flatten_append, List.flatten_singleton, List.append_assoc]
      · intro line inside
        rcases List.mem_append.mp inside with before | here
        · exact frontLast line before
        · rw [List.mem_singleton.mp here]
          exact closedLast
      · intro line inside
        rcases List.mem_append.mp inside with before | here
        · exact frontTidy line before
        · rw [List.mem_singleton.mp here]
          exact tidy_of_parts body kind
      · have value : lineValue (last ++ newlineFor (front ++ [last]).flatten) = last := by
          refine line_value_parts body fun c inside => ?_
          unfold newlineFor at inside
          split_ifs at inside
          · simpa using inside
          · exact .inr (List.mem_singleton.mp inside)
        have bare : lineValue (last ++ []) = last :=
          line_value_parts body fun c inside => absurd inside List.not_mem_nil
        rw [List.append_nil] at bare
        rw [List.map_append, List.map_append, List.map_singleton, List.map_singleton, value, bare]

theorem record_value (record : unwrapAuthoritativeLine line = some directive) :
    lineValue line = (splitAuthoritative (lineValue line)).1 ++ directive ∧ directive ≠ [] := by
  have parts := split_authoritative_append (lineValue line)
  unfold unwrapAuthoritativeLine at record
  simp only at record
  split_ifs at record with starts
  cases record
  exact ⟨parts.symm, (record_directive_head starts).1⟩

theorem wrapper_head (value : List Char) : (splitAuthoritative value).1 = [] ∨
    (splitAuthoritative value).1.head? = some '#' := by
  unfold splitAuthoritative
  split_ifs
  · exact .inr rfl
  · exact .inl rfl

theorem record_head (record : unwrapAuthoritativeLine line = some directive)
    (unbroken : Unbroken directive) :
    line.head? ≠ some '\n' := by
  obtain ⟨value, some⟩ := record_value record
  have head : line.head? = (lineValue line).head? := by
    obtain ⟨ending, whole, -⟩ := line_value_ending line
    have nonempty : lineValue line ≠ [] := by
      rw [value]
      exact fun empty => some (List.append_eq_nil_iff.mp empty).2
    nth_rewrite 1 [whole]
    exact List.head?_append_of_ne_nil _ nonempty
  rw [head, value]
  rcases wrapper_head (lineValue line) with bare | wrapped
  · rw [bare, List.nil_append]
    intro newline
    have boundary := unbroken '\n' (List.mem_of_mem_head? newline)
    exact absurd boundary (by decide)
  · rw [List.head?_append, wrapped]
    exact fun newline => absurd (Option.some.inj newline) (by decide)

/-- What the lines of the reconciled text are: those of the operator, and generated ones. -/
structure Merged (generated retained desired lines : List (List Char)) : Prop where
  separate : Lines lines
  kinds : ∀ line ∈ lines, isOwned generated line = true ∨
    (isOwned generated line = false ∧ Tidy line)
  values : (otherLines generated lines).map lineValue = retained.map lineValue
  counts : ∀ directive ∈ generated, (directivesOf lines).count directive = desired.count directive

theorem owned_of_value {left right : List Char} (same : lineValue left = lineValue right) :
    isOwned generated left = isOwned generated right := by
  unfold isOwned unwrapAuthoritativeLine
  rw [same]

theorem owned_of_values {left right : List (List Char)}
    (same : left.map lineValue = right.map lineValue)
    (plain : ∀ line ∈ right, isOwned generated line = false) :
    ∀ line ∈ left, isOwned generated line = false := by
  intro line inside
  have member : lineValue line ∈ right.map lineValue :=
    same ▸ List.mem_map.mpr ⟨line, inside, rfl⟩
  obtain ⟨other, among, value⟩ := List.mem_map.mp member
  rw [← plain other among]
  exact owned_of_value value.symm

theorem others_of_plain (plain : ∀ line ∈ lines, isOwned generated line = false) :
    otherLines generated lines = lines := by
  refine List.filter_eq_self.mpr fun line inside => ?_
  rw [plain line inside]
  rfl

theorem others_of_owned (held : ∀ line ∈ lines, isOwned generated line = true) :
    otherLines generated lines = [] := by
  refine List.filter_eq_nil_iff.mpr fun line inside => ?_
  rw [held line inside]
  exact Bool.false_ne_true

theorem plain_count (plain : ∀ line ∈ lines, isOwned generated line = false)
    (among : directive ∈ generated) : (directivesOf lines).count directive = 0 := by
  rw [← others_of_plain plain]
  exact others_hold_none among

theorem reconciled_merged {previousConfig desiredConfig : List Char}
    {owned desired : List (List Char)} (ours : ∀ directive ∈ owned, directive ∈ generated)
    (wanted : ∀ directive ∈ desired, directive ∈ generated)
    (unbroken : ∀ directive ∈ generated, Unbroken directive)
    (held : ∀ directive ∈ generated, (directives previousConfig).count directive =
      owned.count directive)
    (tidy : ∀ line ∈ otherLines generated (keepLines previousConfig), Tidy line)
    (rendered : ∀ directive, desired.count directive ≤
      (directives desiredConfig).count directive) :
    ∃ lines, lines.flatten = reconciled previousConfig desiredConfig owned desired ∧
      Merged generated (otherLines generated (keepLines previousConfig)) desired lines := by
  have removed : removeOwned (keepLines previousConfig) owned =
      otherLines generated (keepLines previousConfig) :=
    remove_owned_others ours fun directive among => (held directive among).le
  generalize retainedIs : otherLines generated (keepLines previousConfig) = retained at *
  have retainedPlain : ∀ line ∈ retained, isOwned generated line = false := by
    intro line inside
    rw [← retainedIs] at inside
    simpa using (List.mem_filter.mp inside).2
  have retainedLines : Lines retained := by
    refine lines_sublist (keep_lines_lines previousConfig) ?_ (.inl fun line inside => ?_)
    · rw [← retainedIs]
      exact List.filter_sublist
    · by_cases empty : line = []
      · rw [empty]
        decide
      · rcases tidy_last (tidy line inside) empty with newline | ⟨-, c, last, plain⟩
        · rw [newline]
          decide
        · rw [last]
          intro carriage
          rw [Option.some.inj carriage] at plain
          exact absurd plain (by decide)
  have needed : ∀ directive, (desired.diff (directivesOf retained)).count directive =
      desired.count directive := by
    intro directive
    rw [List.count_diff]
    by_cases among : directive ∈ generated
    · rw [plain_count retainedPlain among]
      exact Nat.sub_zero _
    · rw [List.count_eq_zero_of_not_mem fun inside => among (wanted directive inside)]
      exact Nat.zero_sub _
  have additionsCount : ∀ directive, (directivesOf (desiredLines (keepLines desiredConfig)
      (desired.diff (directivesOf retained)))).count directive = desired.count directive := by
    intro directive
    rw [desired_lines_count (fun other => by rw [needed]; exact rendered other), needed]
  have additionsRecord : ∀ line ∈ desiredLines (keepLines desiredConfig)
      (desired.diff (directivesOf retained)), ∃ directive ∈ generated,
        unwrapAuthoritativeLine line = some directive := by
    intro line inside
    obtain ⟨directive, among, record⟩ := desired_lines_record inside
    exact ⟨directive, wanted directive (List.diff_subset _ _ among), record⟩
  have additionsLines : Lines (desiredLines (keepLines desiredConfig)
      (desired.diff (directivesOf retained))) := by
    refine lines_sublist (keep_lines_lines desiredConfig) (desired_lines_sublist _ _)
      (.inr fun line inside => ?_)
    obtain ⟨directive, among, record⟩ := additionsRecord line inside
    exact record_head record (unbroken directive among)
  have shape : reconciled previousConfig desiredConfig owned desired =
      if (desiredLines (keepLines desiredConfig)
          (desired.diff (directivesOf retained))).isEmpty then retained.flatten
      else closeText retained.flatten ++ (desiredLines (keepLines desiredConfig)
          (desired.diff (directivesOf retained))).flatten := by
    rw [reconciled, removed]
    rfl
  rw [shape]
  generalize desiredLines (keepLines desiredConfig) (desired.diff (directivesOf retained)) =
    additions at *
  by_cases nothing : additions.isEmpty = true
  · rw [if_pos nothing]
    rw [List.isEmpty_iff.mp nothing] at additionsCount
    refine ⟨retained, rfl, retainedLines, fun line inside =>
      .inr ⟨retainedPlain line inside, tidy line inside⟩, ?_, fun directive among => ?_⟩
    · rw [others_of_plain retainedPlain]
    · rw [plain_count retainedPlain among, ← additionsCount directive]
      rfl
  · rw [if_neg nothing]
    obtain ⟨closed, closedText, closedLines, closedLast, closedTidy, values⟩ :=
      close_lines retainedLines tidy
    have closedPlain := owned_of_values values retainedPlain
    have additionsOwned : ∀ line ∈ additions, isOwned generated line = true :=
      fun line inside => owned_iff.mpr (additionsRecord line inside)
    refine ⟨closed ++ additions, ?_, lines_append closedLines closedLast additionsLines, ?_, ?_, ?_⟩
    · rw [List.flatten_append, closedText]
    · intro line inside
      rcases List.mem_append.mp inside with before | added
      · exact .inr ⟨closedPlain line before, closedTidy line before⟩
      · exact .inl (additionsOwned line added)
    · rw [otherLines, List.filter_append]
      have front := others_of_plain closedPlain
      have back := others_of_owned additionsOwned
      rw [otherLines] at front back
      rw [front, back, List.append_nil, values]
    · intro directive among
      rw [directivesOf, List.filterMap_append, List.count_append]
      have front := plain_count closedPlain among
      rw [directivesOf] at front
      rw [front, Nat.zero_add]
      exact additionsCount directive

/-! ### The refreshed text -/

/-- One line refreshed: it holds what it held, and an operator's line is kept. -/
structure Refreshed (generated : List (List Char)) (target : List Char → Prop)
    (line after : List Char) : Prop where
  reworded : Reworded line after
  record : unwrapAuthoritativeLine after = unwrapAuthoritativeLine line
  kept : isOwned generated line = false →
    Tidy after ∧ Kept target 1 (lineValue line) (lineValue after)

theorem refresh_line_refreshed {records : List Record} {after : List Char}
    (addresses : ∀ record ∈ records, Unbroken (record.address.getD "").toList)
    (kind : isOwned generated line = true ∨ (isOwned generated line = false ∧ Tidy line))
    (done : refreshLine records line = .ok after) :
    Refreshed generated (Target records) line after := by
  rcases kind with held | ⟨plain, tidy⟩
  · obtain ⟨directive, -, record⟩ := owned_iff.mp held
    obtain rfl := refresh_record_line record done
    refine ⟨reworded_refl after, rfl, fun plain => ?_⟩
    rw [held] at plain
    cases plain
  · obtain ⟨reworded, tidyAfter, kept, none⟩ := refresh_tidy_line tidy addresses done
    refine ⟨reworded, ?_, fun _ => ⟨tidyAfter, kept⟩⟩
    cases record : unwrapAuthoritativeLine line with
    | none => exact none record
    | some directive => rw [refresh_record_line record done, record]

theorem refreshed_owned {target : List Char → Prop} {after : List Char}
    (refreshed : Refreshed generated target line after) :
    isOwned generated after = isOwned generated line := by
  unfold isOwned
  rw [refreshed.record]

theorem refreshed_directives {target : List Char → Prop} {after : List (List Char)}
    (refreshed : List.Forall₂ (Refreshed generated target) lines after) :
    directivesOf after = directivesOf lines := by
  induction refreshed with
  | nil => rfl
  | cons first _ induction =>
    rw [directivesOf, directivesOf, List.filterMap_cons, List.filterMap_cons, first.record]
    rw [directivesOf, directivesOf] at induction
    rw [induction]

theorem refreshed_others {target : List Char → Prop} {after : List (List Char)}
    (refreshed : List.Forall₂ (Refreshed generated target) lines after) :
    List.Forall₂ (Kept target 1) ((otherLines generated lines).map lineValue)
        ((otherLines generated after).map lineValue) ∧
      ∀ line ∈ otherLines generated after, Tidy line := by
  induction refreshed with
  | nil => exact ⟨List.Forall₂.nil, fun line inside => absurd inside List.not_mem_nil⟩
  | @cons line out lines after first _ induction =>
    have same := refreshed_owned first
    unfold otherLines at induction ⊢
    rw [List.filter_cons, List.filter_cons, same]
    cases plain : isOwned generated line with
    | true => exact induction
    | false =>
      obtain ⟨tidy, kept⟩ := first.kept plain
      refine ⟨List.Forall₂.cons kept induction.1, fun other inside => ?_⟩
      rcases List.mem_cons.mp inside with rfl | later
      · exact tidy
      · exact induction.2 other later

end Reconciling

/-! ### One step -/

section Steps

variable (lower : List Char → List Char)

def generatedBy (previous : List Record) (steps : List Desired) : List (List Char) :=
  recordDirectiveCounts lower previous ++
    steps.flatMap fun desired => recordDirectiveCounts lower desired.records

/-- The configuration holds each generated directive as often as the records ask for, and
the lines of the operator are tidy. -/
structure Settled (generated : List (List Char)) (records : List Record) (config : List Char) :
    Prop where
  counts : ∀ directive ∈ generated, (directives config).count directive =
    (recordDirectiveCounts lower records).count directive
  tidy : ∀ line ∈ otherLines generated (keepLines config), Tidy line

variable {lower} {generated : List (List Char)}

variable {config : List Char} {previous : List Record}

theorem changed_step {next desiredConfig : List Char} {records : List Record}
    (ours : ∀ directive ∈ recordDirectiveCounts lower previous, directive ∈ generated)
    (wanted : ∀ directive ∈ recordDirectiveCounts lower records, directive ∈ generated)
    (unbroken : ∀ directive ∈ generated, Unbroken directive)
    (addresses : ∀ record ∈ records, Unbroken (record.address.getD "").toList)
    (rendered : ∀ directive, (recordDirectiveCounts lower records).count directive ≤ (directives
      desiredConfig).count directive) (settled : Settled lower generated previous config)
    (differ : (recordDirectiveCounts lower previous).isPerm (recordDirectiveCounts lower records) =
      false) (done : projectGeneratedDns lower config desiredConfig previous records = .ok next) :
    Settled lower generated records next ∧
      List.Forall₂ (Kept (Target records) 1) (operatorValues generated config)
        (operatorValues generated next) ∧
      next ≠ config := by
  unfold projectGeneratedDns at done
  simp only [differ, Bool.false_eq_true, if_false] at done
  obtain ⟨lines, text, merged⟩ := @reconciled_merged _ config desiredConfig _ _ ours wanted
    unbroken settled.counts settled.tidy rendered
  have apart : ∃ directive ∈ generated,
      (recordDirectiveCounts lower records).count directive ≠
        (directives config).count directive := by
    by_contra equal
    push Not at equal
    have same : (recordDirectiveCounts lower previous).Perm
        (recordDirectiveCounts lower records) := by
      refine List.perm_iff_count.mpr fun directive => ?_
      by_cases among : directive ∈ generated
      · rw [← settled.counts directive among, equal directive among]
      · rw [List.count_eq_zero_of_not_mem fun inside => among (ours directive inside),
          List.count_eq_zero_of_not_mem fun inside => among (wanted directive inside)]
    rw [List.isPerm_iff.mpr same] at differ
    cases differ
  obtain ⟨directive, among, unequal⟩ := apart
  have read : keepLines (reconciled config desiredConfig (recordDirectiveCounts lower previous)
      (recordDirectiveCounts lower records)) = lines := by
    rw [← text]
    exact keep_lines_of_lines merged.separate
  have changed : reconciled config desiredConfig (recordDirectiveCounts lower previous)
      (recordDirectiveCounts lower records) ≠ config := by
    intro same
    rw [same] at read
    refine unequal ?_
    rw [directives, read, merged.counts directive among]
  unfold refreshAuthority at done
  rw [if_neg changed, read] at done
  obtain ⟨after, mapped, done⟩ := bind_ok_iff.mp done
  cases done
  have refreshed : List.Forall₂ (Refreshed generated (Target records)) lines after := by
    have pairs := map_m_forall mapped
    refine List.forall₂_iff_get.mpr ⟨pairs.length_eq, fun index first second => ?_⟩
    have here := (List.forall₂_iff_get.mp pairs).2 index first second
    exact refresh_line_refreshed addresses (merged.kinds _ (List.get_mem _ _)) here
  have separate : Lines after :=
    reworded_lines merged.separate (refreshed.imp fun _ _ one => one.reworded)
  have again : keepLines after.flatten = after := keep_lines_of_lines separate
  obtain ⟨kept, tidy⟩ := refreshed_others refreshed
  have counts : ∀ directive ∈ generated, (directives after.flatten).count directive =
      (recordDirectiveCounts lower records).count directive := by
    intro other inside
    rw [directives, again, refreshed_directives refreshed, merged.counts other inside]
  refine ⟨⟨counts, ?_⟩, ?_, ?_⟩
  · rw [again]
    exact tidy
  · rw [operatorValues, operatorValues, again, ← merged.values]
    exact kept
  · intro same
    have found := counts directive among
    rw [same] at found
    exact unequal found.symm

/-! ### Sequences -/

variable (lower) in
/-- How many steps ask for other generated directives than the step before. -/
def changes (previous : List Record) : List Desired → Nat
  | [] => 0
  | desired :: rest =>
    (if (recordDirectiveCounts lower previous).isPerm
      (recordDirectiveCounts lower desired.records) then 0 else 1) +
        changes desired.records rest

theorem changes_last (previous : List Record) (steps : List Desired) (desired : Desired) :
    changes lower previous (steps ++ [desired]) = changes lower previous steps +
      if (recordDirectiveCounts lower (lastRecords previous steps)).isPerm
        (recordDirectiveCounts lower desired.records) then 0 else 1 := by
  induction steps generalizing previous with
  | nil =>
    rw [List.nil_append, changes, changes, changes, lastRecords, Nat.add_zero, Nat.zero_add]
  | cons first rest induction =>
    rw [List.cons_append, changes, induction, changes, lastRecords, Nat.add_assoc]

variable (lower) in
/-- What a sequence of projections starts from: the configuration holds what the previous
records ask for, the lines of the operator are tidy, the texts of records stay on one line,
and each desired configuration renders the directives of its records. -/
structure Projectable (config : List Char) (previous : List Record) (steps : List Desired) :
    Prop where
  settled : Settled lower (generatedBy lower previous steps) previous config
  unbroken : ∀ directive ∈ generatedBy lower previous steps, Unbroken directive
  addresses : ∀ desired ∈ steps, ∀ record ∈ desired.records,
    Unbroken (record.address.getD "").toList
  rendered : ∀ desired ∈ steps, ∀ directive,
    (recordDirectiveCounts lower desired.records).count directive ≤
      (directives desired.config).count directive

theorem kept_all_again {target : List Char → Prop} {count : Nat}
    {before middle after : List (List Char)} (first : List.Forall₂ (Kept target count) before middle)
    (second : List.Forall₂ (Kept target 1) middle after) :
    List.Forall₂ (Kept target (count + 1)) before after := by
  induction first generalizing after with
  | nil =>
    cases second
    exact List.Forall₂.nil
  | cons one _ induction =>
    cases second with
    | cons again rest => exact List.Forall₂.cons (kept_again one again) (induction rest)

theorem target_mono {records more : List Record} (subset : ∀ record ∈ records, record ∈ more)
    (field : List Char) (target : Target records field) : Target more field := by
  obtain ⟨record, inside, rest⟩ := target
  exact ⟨record, subset record inside, rest⟩

theorem step_kept {next : List Char} {desired : Desired} {all : List Record}
    (ours : ∀ directive ∈ recordDirectiveCounts lower previous, directive ∈ generated)
    (wanted : ∀ directive ∈ recordDirectiveCounts lower desired.records, directive ∈ generated)
    (unbroken : ∀ directive ∈ generated, Unbroken directive)
    (addresses : ∀ record ∈ desired.records, Unbroken (record.address.getD "").toList)
    (rendered : ∀ directive, (recordDirectiveCounts lower desired.records).count directive ≤
      (directives desired.config).count directive)
    (among : ∀ record ∈ desired.records, record ∈ all)
    (settled : Settled lower generated previous config)
    (done : projectGeneratedDns lower config desired.config previous desired.records = .ok next) :
    Settled lower generated desired.records next ∧
      (((recordDirectiveCounts lower previous).isPerm
          (recordDirectiveCounts lower desired.records) = true ∧ next = config) ∨
        ((recordDirectiveCounts lower previous).isPerm
          (recordDirectiveCounts lower desired.records) = false ∧ next ≠ config ∧
            List.Forall₂ (Kept (Target all) 1) (operatorValues generated config)
              (operatorValues generated next))) := by
  cases same : (recordDirectiveCounts lower previous).isPerm
      (recordDirectiveCounts lower desired.records) with
  | true =>
    unfold projectGeneratedDns at done
    simp only [same, if_true] at done
    cases done
    refine ⟨⟨fun directive inside => ?_, settled.tidy⟩, .inl ⟨rfl, rfl⟩⟩
    rw [settled.counts directive inside]
    exact List.perm_iff_count.mp (List.isPerm_iff.mp same) directive
  | false =>
    obtain ⟨after, kept, changed⟩ := changed_step ours wanted unbroken addresses rendered settled
      same done
    exact ⟨after, .inr ⟨rfl, changed, kept.imp fun _ _ one =>
      kept_mono one (target_mono among)⟩⟩

theorem run_kept {initial : List (List Char)} {all : List Record} {count : Nat} {final : List Char}
    {steps : List Desired}
    (ours : ∀ directive ∈ recordDirectiveCounts lower previous, directive ∈ generated)
    (wanted : ∀ desired ∈ steps, ∀ directive ∈ recordDirectiveCounts lower desired.records,
      directive ∈ generated) (unbroken : ∀ directive ∈ generated, Unbroken directive)
    (addresses : ∀ desired ∈ steps, ∀ record ∈ desired.records, Unbroken (record.address.getD
      "").toList) (rendered : ∀ desired ∈ steps, ∀ directive, (recordDirectiveCounts lower
      desired.records).count directive ≤ (directives desired.config).count directive)
    (among : ∀ desired ∈ steps, ∀ record ∈ desired.records, record ∈ all)
    (settled : Settled lower generated previous config)
    (kept : List.Forall₂ (Kept (Target all) count) initial (operatorValues generated config))
    (ran : projectAll lower config previous steps = .ok final) :
    Settled lower generated (lastRecords previous steps) final ∧
      List.Forall₂ (Kept (Target all) (count + changes lower previous steps)) initial
        (operatorValues generated final) ∧
      ∀ directive ∈ recordDirectiveCounts lower (lastRecords previous steps),
        directive ∈ generated := by
  induction steps generalizing config previous count with
  | nil =>
    cases ran
    exact ⟨settled, kept, ours⟩
  | cons desired rest induction =>
    obtain ⟨next, first, ran⟩ := bind_ok_iff.mp ran
    have here : desired ∈ desired :: rest := List.mem_cons_self
    obtain ⟨after, outcome⟩ := step_kept ours (wanted desired here) unbroken
      (addresses desired here) (rendered desired here) (among desired here) settled first
    have later {count : Nat} (kept : List.Forall₂ (Kept (Target all) count) initial
        (operatorValues generated next)) := induction (wanted desired here)
      (fun other inside => wanted other (List.mem_cons_of_mem _ inside))
      (fun other inside => addresses other (List.mem_cons_of_mem _ inside))
      (fun other inside => rendered other (List.mem_cons_of_mem _ inside))
      (fun other inside => among other (List.mem_cons_of_mem _ inside)) after kept ran
    rcases outcome with ⟨same, unchanged⟩ | ⟨differ, -, changed⟩
    · rw [changes, if_pos same, Nat.zero_add]
      refine later ?_
      rw [unchanged]
      exact kept
    · rw [changes, if_neg (Bool.eq_false_iff.mp differ), ← Nat.add_assoc]
      exact later (kept_all_again kept changed)

/-- After every step of a sequence the generated directives are those of its records, and
the lines of the operator are the initial ones, with networks behind zones and with serials
moved on once for each step that asks for other directives. A step that asks for the same
ones changes nothing. -/
theorem projection_touches_generated_only (lower : List Char → List Char) (config : List Char)
    (previous : List Record) (steps : List Desired) (desired : Desired)
    (assumed : Projectable lower config previous (steps ++ [desired])) (middle last : List Char)
    (ran : projectAll lower config previous steps = .ok middle)
    (stepped : projectGeneratedDns lower middle desired.config (lastRecords previous steps)
      desired.records = .ok last) :
    (∀ directive ∈ generatedBy lower previous (steps ++ [desired]),
        (directives last).count directive =
          (recordDirectiveCounts lower desired.records).count directive) ∧
      List.Forall₂ (Kept (Target ((steps ++ [desired]).flatMap Desired.records))
          (changes lower previous (steps ++ [desired])))
        (operatorValues (generatedBy lower previous (steps ++ [desired])) config)
        (operatorValues (generatedBy lower previous (steps ++ [desired])) last) ∧
      (((recordDirectiveCounts lower (lastRecords previous steps)).Perm
          (recordDirectiveCounts lower desired.records) ∧ last = middle) ∨
        (¬(recordDirectiveCounts lower (lastRecords previous steps)).Perm
          (recordDirectiveCounts lower desired.records) ∧ last ≠ middle ∧
            List.Forall₂ (Kept (Target ((steps ++ [desired]).flatMap Desired.records)) 1)
              (operatorValues (generatedBy lower previous (steps ++ [desired])) middle)
              (operatorValues (generatedBy lower previous (steps ++ [desired])) last))) := by
  have here : desired ∈ steps ++ [desired] := by simp
  have before : ∀ other ∈ steps, other ∈ steps ++ [desired] := fun other inside =>
    List.mem_append_left _ inside
  have ours : ∀ directive ∈ recordDirectiveCounts lower previous,
      directive ∈ generatedBy lower previous (steps ++ [desired]) :=
    fun directive inside => List.mem_append_left _ inside
  have wanted : ∀ other ∈ steps ++ [desired], ∀ directive ∈
      recordDirectiveCounts lower other.records,
        directive ∈ generatedBy lower previous (steps ++ [desired]) :=
    fun other among directive inside =>
      List.mem_append_right _ (List.mem_flatMap.mpr ⟨other, among, inside⟩)
  have among : ∀ other ∈ steps ++ [desired], ∀ record ∈ other.records,
      record ∈ (steps ++ [desired]).flatMap Desired.records :=
    fun other member record inside => List.mem_flatMap.mpr ⟨other, member, inside⟩
  have start : List.Forall₂ (Kept (Target ((steps ++ [desired]).flatMap Desired.records)) 0)
      (operatorValues (generatedBy lower previous (steps ++ [desired])) config)
      (operatorValues (generatedBy lower previous (steps ++ [desired])) config) :=
    List.forall₂_same.mpr fun value _ => rfl
  obtain ⟨settled, kept, lastOurs⟩ := run_kept ours
    (fun other inside => wanted other (before other inside)) assumed.unbroken
    (fun other inside => assumed.addresses other (before other inside))
    (fun other inside => assumed.rendered other (before other inside))
    (fun other inside => among other (before other inside)) assumed.settled start ran
  obtain ⟨after, outcome⟩ := step_kept lastOurs (wanted desired here) assumed.unbroken
    (assumed.addresses desired here) (assumed.rendered desired here) (among desired here)
    settled stepped
  rw [Nat.zero_add] at kept
  refine ⟨after.counts, ?_, ?_⟩
  · rw [changes_last]
    rcases outcome with ⟨same, unchanged⟩ | ⟨differ, -, changed⟩
    · rw [if_pos same, unchanged]
      exact kept
    · rw [if_neg (Bool.eq_false_iff.mp differ)]
      exact kept_all_again kept changed
  · rcases outcome with ⟨same, unchanged⟩ | ⟨differ, changed, values⟩
    · exact .inl ⟨List.isPerm_iff.mp same, unchanged⟩
    · refine .inr ⟨fun perm => ?_, changed, values⟩
      rw [List.isPerm_iff.mpr perm] at differ
      cases differ

end Steps

/-! ### Samples -/

def sampleRecord (address : String) : Record :=
  ⟨"Created from VCF private registry endpoint.", "registry.lab.test", "A", some address, "false"⟩

def sampleDesired (address : String) : Desired :=
  ⟨("# atlaso-authoritative-config: host-record=registry.lab.test," ++ address ++ "\n").toList,
    [sampleRecord address]⟩

def sampleConfig : List Char :=
  ("auth-soa=42,admin,3600\nauth-zone=lab.test,192.0.2.0/24\n" ++
    "host-record=registry.lab.test,192.0.2.4\nhost-record=op.lab.test,10.0.0.1").toList

def sampleMoved : List Char :=
  ("auth-soa=43,admin,3600\nauth-zone=lab.test,192.0.2.0/24,10.9.9.9/32\n" ++
    "host-record=op.lab.test,10.0.0.1\n" ++
      "# atlaso-authoritative-config: host-record=registry.lab.test,10.9.9.9\n").toList

theorem sample_projectable :
    Projectable id sampleConfig [sampleRecord "192.0.2.4"] ([] ++ [sampleDesired "10.9.9.9"]) := by
  have rendered : recordDirectiveCounts id (sampleDesired "10.9.9.9").records =
      directives (sampleDesired "10.9.9.9").config := by
    decide +kernel
  refine ⟨⟨by decide +kernel, ?_⟩, ?_, ?_, ?_⟩
  · show ∀ line ∈ _, lineEnding line ∈ [[], ['\n'], ['\r', '\n']]
    decide +kernel
  · have unbroken : ∀ directive ∈ generatedBy id [sampleRecord "192.0.2.4"]
        ([] ++ [sampleDesired "10.9.9.9"]), directive.all (fun c => isBoundary c = false) = true := by
      decide +kernel
    exact fun directive inside => List.all_iff_forall_prop.mp (unbroken directive inside)
  · have unbroken : ∀ desired ∈ [sampleDesired "10.9.9.9"], ∀ record ∈ desired.records,
        (record.address.getD "").toList.all (fun c => isBoundary c = false) = true := by
      decide +kernel
    exact fun desired inside record listed =>
      List.all_iff_forall_prop.mp (unbroken desired inside record listed)
  · intro desired inside directive
    rw [List.nil_append, List.mem_singleton] at inside
    rw [inside, rendered]

theorem sample_projection : ∃ last,
    projectGeneratedDns id sampleConfig (sampleDesired "10.9.9.9").config
      [sampleRecord "192.0.2.4"] (sampleDesired "10.9.9.9").records = .ok last ∧
    (directives last).count "host-record=registry.lab.test,10.9.9.9".toList = 1 ∧
      (directives last).count "host-record=registry.lab.test,192.0.2.4".toList = 0 := by
  have stepped : projectGeneratedDns id sampleConfig (sampleDesired "10.9.9.9").config
      [sampleRecord "192.0.2.4"] (sampleDesired "10.9.9.9").records = .ok sampleMoved := by
    decide +kernel
  have projected := projection_touches_generated_only id sampleConfig [sampleRecord "192.0.2.4"] []
    (sampleDesired "10.9.9.9") sample_projectable sampleConfig sampleMoved rfl stepped
  refine ⟨sampleMoved, stepped, ?_, ?_⟩
  · rw [projected.1 _ (by decide +kernel)]
    decide +kernel
  · rw [projected.1 _ (by decide +kernel)]
    decide +kernel

/-- A step that asks for what the step before asked for adds no directive that is missing,
a lone carriage return swallows the blank line behind a record that goes, a serial without
a comma stays as it is, and a line that ends in a form feed gets a blank line behind it. -/
theorem projection_exceptions :
    (projectGeneratedDns id [] (sampleDesired "10.9.9.9").config [sampleRecord "10.9.9.9"]
        [sampleRecord "10.9.9.9"] = .ok [] ∧
      (directives []).count "host-record=registry.lab.test,10.9.9.9".toList = 0 ∧
      (recordDirectiveCounts id [sampleRecord "10.9.9.9"]).count
        "host-record=registry.lab.test,10.9.9.9".toList = 1) ∧
    (∃ last, projectGeneratedDns id
        "foo\rhost-record=registry.lab.test,10.9.9.9\n\nbar\n".toList [] [sampleRecord "10.9.9.9"] [] =
          .ok last ∧ (keepLines last).map lineValue = ["foo".toList, "bar".toList]) ∧
    projectGeneratedDns id "auth-soa=5\n".toList (sampleDesired "10.9.9.9").config []
        [sampleRecord "10.9.9.9"] =
      .ok ("auth-soa=5\n".toList ++ (sampleDesired "10.9.9.9").config) ∧
    projectGeneratedDns id "foo\x0c".toList (sampleDesired "10.9.9.9").config []
        [sampleRecord "10.9.9.9"] =
      .ok ("foo\x0c\n".toList ++ (sampleDesired "10.9.9.9").config) := by
  refine ⟨by decide +kernel, ⟨"foo\r\nbar\n".toList, by decide +kernel, by decide +kernel⟩,
    by decide +kernel, by decide +kernel⟩

end Atlaso.Dns.ProjectionRuns
