import Atlaso.Library.LineText
import Mathlib.Data.List.TakeWhile

/-!
Text as lines that keep their endings, and which lists of lines are the lines of the
text they make together.
-/

namespace Atlaso.Library.KeptLines

open LineText

/-- The lines from here on, `current` being what the open line has so far. -/
def splitKeeping (current : List Char) : List Char → List (List Char)
  | [] => if current.isEmpty then [] else [current]
  | '\r' :: '\n' :: rest => (current ++ ['\r', '\n']) :: splitKeeping [] rest
  | c :: rest =>
    if isBoundary c then (current ++ [c]) :: splitKeeping [] rest
    else splitKeeping (current ++ [c]) rest

/-- `text.splitlines(keepends=True)`. -/
def keepLines (text : List Char) : List (List Char) := splitKeeping [] text

/-! ### Lines and their endings -/

def Unbroken (text : List Char) : Prop := ∀ c ∈ text, isBoundary c = false

def IsEnding (ending : List Char) : Prop :=
  ending = ['\r', '\n'] ∨ ∃ c, isBoundary c = true ∧ ending = [c]

def lineBody (line : List Char) : List Char := line.takeWhile fun c => !isBoundary c

def lineEnding (line : List Char) : List Char := line.dropWhile fun c => !isBoundary c

/-- Lines that stay apart when they are put together: each has an ending, the last one
may do without, and no lone carriage return meets a newline. -/
inductive Lines : List (List Char) → Prop
  | nil : Lines []
  | last {body : List Char} (text : body ≠ []) (unbroken : Unbroken body) : Lines [body]
  | cons {body ending : List Char} {rest : List (List Char)} (unbroken : Unbroken body)
      (ends : IsEnding ending) (apart : ending = ['\r'] → rest.flatten.head? ≠ some '\n')
      (later : Lines rest) : Lines ((body ++ ending) :: rest)

variable {left right ending body : List Char} {lines : List (List Char)}

theorem unbroken_append (first : Unbroken left) (second : Unbroken right) :
    Unbroken (left ++ right) := by
  intro c inside
  rcases List.mem_append.mp inside with before | after
  · exact first c before
  · exact second c after

theorem unbroken_left (whole : Unbroken (left ++ right)) :
    Unbroken left := fun c inside => whole c (List.mem_append_left right inside)

theorem unbroken_right (whole : Unbroken (left ++ right)) :
    Unbroken right := fun c inside => whole c (List.mem_append_right left inside)

theorem body_ending (line : List Char) : lineBody line ++ lineEnding line = line :=
  List.takeWhile_append_dropWhile

theorem body_unbroken (line : List Char) : Unbroken (lineBody line) := by
  intro c inside
  simpa using List.mem_takeWhile_imp inside

theorem ending_nonempty (ends : IsEnding ending) : ending ≠ [] := by
  rcases ends with rfl | ⟨c, _, rfl⟩ <;> exact List.cons_ne_nil _ _

theorem body_of_parts (unbroken : Unbroken body) (ends : ending = [] ∨ IsEnding ending) :
    lineBody (body ++ ending) = body ∧ lineEnding (body ++ ending) = ending := by
  have plain : ∀ c ∈ body, (!isBoundary c) = true := by
    intro c inside
    rw [unbroken c inside]
    rfl
  unfold lineBody lineEnding
  rw [List.takeWhile_append_of_pos plain, List.dropWhile_append_of_pos plain]
  rcases ends with rfl | rfl | ⟨c, boundary, rfl⟩
  · exact ⟨List.append_nil body, rfl⟩
  · exact ⟨List.append_nil body, rfl⟩
  · simp [boundary]

theorem lines_nonempty (whole : Lines lines) :
    ∀ line ∈ lines, line ≠ [] := by
  induction whole with
  | nil => exact fun line inside => absurd inside (List.not_mem_nil)
  | last text unbroken =>
    intro line inside
    rw [List.mem_singleton.mp inside]
    exact text
  | cons unbroken ends apart later induction =>
    intro line inside
    rcases List.mem_cons.mp inside with rfl | rest
    · exact fun empty => ending_nonempty ends (List.append_eq_nil_iff.mp empty).2
    · exact induction line rest

/-! ### The lines of a text -/

theorem split_keeping_flatten (current text : List Char) :
    (splitKeeping current text).flatten = current ++ text := by
  fun_induction splitKeeping current text <;> simp_all

theorem split_keeping_lines (current text : List Char) (unbroken : Unbroken current) :
    Lines (splitKeeping current text) := by
  fun_induction splitKeeping current text with
  | case1 current empty => exact Lines.nil
  | case2 current nonempty =>
    exact Lines.last (fun empty => nonempty (List.isEmpty_iff.mpr empty)) unbroken
  | case3 current rest induction =>
    exact Lines.cons unbroken (.inl rfl) (fun equal => absurd equal (by decide))
      (induction fun c inside => absurd inside List.not_mem_nil)
  | case4 current c rest other boundary induction =>
    refine Lines.cons unbroken (.inr ⟨c, boundary, rfl⟩) ?_
      (induction fun c inside => absurd inside List.not_mem_nil)
    intro carriage next
    rw [split_keeping_flatten, List.nil_append] at next
    obtain ⟨tail, shape⟩ := List.head?_eq_some_iff.mp next
    exact other tail (List.cons.inj carriage).1 shape
  | case5 current c rest other plain induction =>
    refine induction (unbroken_append unbroken fun d inside => ?_)
    rw [List.mem_singleton.mp inside]
    exact Bool.eq_false_iff.mpr plain

theorem keep_lines_lines (text : List Char) : Lines (keepLines text) :=
  split_keeping_lines [] text fun _ inside => absurd inside List.not_mem_nil

theorem split_keeping_plain (c : Char) (current rest : List Char)
    (other : c = '\r' → rest.head? ≠ some '\n') :
    splitKeeping current (c :: rest) =
      if isBoundary c then (current ++ [c]) :: splitKeeping [] rest
      else splitKeeping (current ++ [c]) rest := by
  rw [splitKeeping.eq_3]
  rintro tail rfl rfl
  exact other rfl rfl

theorem split_keeping_body (current body rest : List Char) (unbroken : Unbroken body) :
    splitKeeping current (body ++ rest) = splitKeeping (current ++ body) rest := by
  induction body generalizing current with
  | nil => rw [List.nil_append, List.append_nil]
  | cons c body induction =>
    have plain := unbroken c List.mem_cons_self
    have other : c = '\r' → (body ++ rest).head? ≠ some '\n' := by
      rintro rfl
      exact absurd plain (by decide)
    rw [List.cons_append, split_keeping_plain c current (body ++ rest) other, plain,
      if_neg Bool.false_ne_true,
      induction _ fun d inside => unbroken d (List.mem_cons_of_mem c inside),
      List.append_assoc, List.singleton_append]

theorem split_keeping_ending (current ending rest : List Char) (ends : IsEnding ending)
    (apart : ending = ['\r'] → rest.head? ≠ some '\n') :
    splitKeeping current (ending ++ rest) = (current ++ ending) :: splitKeeping [] rest := by
  rcases ends with rfl | ⟨c, boundary, rfl⟩
  · rfl
  · have other : c = '\r' → rest.head? ≠ some '\n' := fun carriage => apart (by rw [carriage])
    rw [List.singleton_append, split_keeping_plain c current rest other, if_pos boundary]

/-- Lines that stay apart are read back from the text they make. -/
theorem keep_lines_of_lines (whole : Lines lines) :
    keepLines lines.flatten = lines := by
  unfold keepLines
  induction whole with
  | nil => rfl
  | @last body text unbroken =>
    have read := split_keeping_body [] body [] unbroken
    rw [List.append_nil, List.nil_append] at read
    rw [List.flatten_cons, List.flatten_nil, List.append_nil, read, splitKeeping,
      if_neg fun empty => text (List.isEmpty_iff.mp empty)]
  | cons unbroken ends apart later induction =>
    rw [List.flatten_cons, List.append_assoc, split_keeping_body _ _ _ unbroken,
      split_keeping_ending _ _ _ ends apart, induction, List.nil_append]

/-! ### Taking lines out, putting lines behind, changing them -/

theorem head_flatten {c : Char} (nonempty : ∀ line ∈ lines, line ≠ [])
    (first : lines.flatten.head? = some c) :
    ∃ line ∈ lines, line.head? = some c := by
  cases lines with
  | nil => exact absurd first (by simp)
  | cons line lines =>
    refine ⟨line, List.mem_cons_self, ?_⟩
    rw [List.flatten_cons,
      List.head?_append_of_ne_nil _ (nonempty line List.mem_cons_self)] at first
    exact first

theorem ending_last (carriage : ending = ['\r']) :
    (body ++ ending).getLast? = some '\r' := by
  rw [carriage, List.getLast?_concat]

/-- Lines may go when none that stays ends in a lone carriage return, or none that stays
begins with a newline. -/
theorem lines_sublist {kept : List (List Char)} (whole : Lines lines) (part : kept.Sublist lines)
    (apart : (∀ line ∈ kept, line.getLast? ≠ some '\r') ∨ ∀ line ∈ kept, line.head? ≠ some '\n') :
    Lines kept := by
  induction whole generalizing kept with
  | nil => rw [List.sublist_nil.mp part]; exact Lines.nil
  | @last body text unbroken =>
    rcases List.sublist_singleton.mp part with rfl | rfl
    · exact Lines.nil
    · exact Lines.last text unbroken
  | @cons body ending rest unbroken ends _ later induction =>
    rcases List.sublist_cons_iff.mp part with skipped | ⟨others, rfl, inside⟩
    · exact induction skipped apart
    · have staying : Lines others := by
        refine induction inside ?_
        rcases apart with lone | first
        · exact .inl fun line among => lone line (List.mem_cons_of_mem _ among)
        · exact .inr fun line among => first line (List.mem_cons_of_mem _ among)
      refine Lines.cons unbroken ends (fun carriage next => ?_) staying
      rcases apart with lone | first
      · exact lone _ List.mem_cons_self (ending_last carriage)
      · obtain ⟨line, among, head⟩ := head_flatten (lines_nonempty staying) next
        exact first line (List.mem_cons_of_mem _ among) head

theorem unbroken_last (unbroken : Unbroken body) :
    body.getLast? ≠ some '\n' := by
  intro last
  have boundary := unbroken '\n' (List.mem_of_getLast? last)
  exact absurd boundary (by decide)

theorem lines_append {front back : List (List Char)} (first : Lines front)
    (closed : ∀ line ∈ front, line.getLast? = some '\n') (second : Lines back) :
    Lines (front ++ back) := by
  induction first with
  | nil => exact second
  | last text unbroken =>
    exact absurd (closed _ List.mem_cons_self) (unbroken_last unbroken)
  | cons unbroken ends apart later induction =>
    refine Lines.cons unbroken ends (fun carriage => ?_)
      (induction fun line inside => closed line (List.mem_cons_of_mem _ inside))
    have last := closed _ List.mem_cons_self
    rw [ending_last carriage] at last
    exact absurd last (by decide)

def Reworded (before after : List Char) : Prop :=
  ∃ body, Unbroken body ∧ body.head? = (lineBody before).head? ∧
    after = body ++ lineEnding before

theorem reworded_refl (line : List Char) : Reworded line line :=
  ⟨lineBody line, body_unbroken line, rfl, (body_ending line).symm⟩

theorem reworded_head {before after : List Char} (same : Reworded before after) :
    after.head? = before.head? := by
  obtain ⟨body, _, first, rfl⟩ := same
  rw [List.head?_append, first, ← List.head?_append, body_ending]

theorem reworded_lines {before after : List (List Char)} (whole : Lines before)
    (same : List.Forall₂ Reworded before after) : Lines after := by
  induction whole generalizing after with
  | nil => rw [List.forall₂_nil_left_iff.mp same]; exact Lines.nil
  | @last body text unbroken =>
    cases same with
    | cons first rest =>
      cases rest
      obtain ⟨other, plain, head, rfl⟩ := first
      have parts := body_of_parts unbroken (.inl rfl)
      rw [List.append_nil] at parts
      rw [parts.2, List.append_nil]
      rw [parts.1] at head
      refine Lines.last (fun empty => ?_) plain
      rw [empty] at head
      exact text (List.head?_eq_none_iff.mp head.symm)
  | @cons body ending rest unbroken ends apart later induction =>
    cases same with
    | @cons _ line _ lines first others =>
      obtain ⟨other, plain, head, rfl⟩ := first
      have staying := induction others
      rw [(body_of_parts unbroken (.inr ends)).2]
      refine Lines.cons plain ends (fun carriage next => ?_) staying
      have heads : lines.flatten.head? = rest.flatten.head? := by
        have nonempty := lines_nonempty later
        cases others with
        | nil => rfl
        | @cons front back _ _ one _ =>
          rw [List.flatten_cons, List.flatten_cons,
            List.head?_append_of_ne_nil _ (lines_nonempty staying _ List.mem_cons_self),
            List.head?_append_of_ne_nil _ (nonempty _ List.mem_cons_self)]
          exact reworded_head one
      exact apart carriage (heads ▸ next)

end Atlaso.Library.KeptLines
