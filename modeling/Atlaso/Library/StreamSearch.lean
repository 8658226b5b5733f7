import Mathlib.Data.List.Infix

/-!
The leftmost match in a stream that is read in fragments. What is carried from one fragment to
the next is the longest suffix that can still become a match: with it, the search goes on as if
the stream had been read at once.
-/

namespace Atlaso.Library.StreamSearch

universe u v

section Suffixes

variable {Item : Type u}

def longestSuffix (kind : List Item → Bool) : List Item → List Item
  | [] => []
  | head :: tail => if kind (head :: tail) then head :: tail else longestSuffix kind tail

def settledFront (kind : List Item → Bool) (data : List Item) : List Item :=
  data.take (data.length - (longestSuffix kind data).length)

variable {kind : List Item → Bool}

theorem longest_suffix_suffix (data : List Item) : longestSuffix kind data <:+ data := by
  induction data with
  | nil => exact List.suffix_rfl
  | cons head tail induction =>
    unfold longestSuffix
    by_cases whole : kind (head :: tail) = true
    · rw [if_pos whole]
    · rw [if_neg whole]
      exact induction.trans (List.suffix_cons head tail)

theorem longest_suffix_kind (data : List Item) :
    longestSuffix kind data = [] ∨ kind (longestSuffix kind data) = true := by
  induction data with
  | nil => exact .inl rfl
  | cons head tail induction =>
    unfold longestSuffix
    by_cases whole : kind (head :: tail) = true
    · rw [if_pos whole]
      exact .inr whole
    · rw [if_neg whole]
      exact induction

theorem suffix_longest_suffix {part data : List Item} (suffix : part <:+ data)
    (listed : part = [] ∨ kind part = true) : part <:+ longestSuffix kind data := by
  induction data with
  | nil => exact suffix
  | cons head tail induction =>
    unfold longestSuffix
    by_cases whole : kind (head :: tail) = true
    · rw [if_pos whole]
      exact suffix
    · rw [if_neg whole]
      rcases List.suffix_cons_iff.mp suffix with same | inTail
      · rcases listed with empty | kept
        · exact empty ▸ List.nil_suffix
        · exact absurd (same ▸ kept) whole
      · exact induction inTail

theorem settled_front_append (data : List Item) :
    settledFront kind data ++ longestSuffix kind data = data :=
  List.suffix_iff_eq_append.mp (longest_suffix_suffix data)

theorem suffix_antisymm {left right : List Item} (leftRight : left <:+ right)
    (rightLeft : right <:+ left) : left = right :=
  leftRight.eq_of_length_le rightLeft.length_le

theorem suffix_append_cases {part front back : List Item} (suffix : part <:+ front ++ back) :
    part <:+ back ∨ ∃ start, part = start ++ back ∧ start <:+ front := by
  obtain ⟨before, same⟩ := suffix
  rcases List.append_eq_append_iff.mp same with ⟨middle, whole, rest⟩ | ⟨middle, whole, rest⟩
  · exact .inr ⟨middle, rest, ⟨before, whole.symm⟩⟩
  · exact .inl ⟨middle, rest.symm⟩

/-- When the kind holds every shorter beginning of what it holds, the longest suffix of a
stream depends on what was read before only through the longest suffix of that. -/
theorem longest_suffix_append
    (closed : ∀ start rest, kind (start ++ rest) = true → start = [] ∨ kind start = true)
    (first second : List Item) :
    longestSuffix kind (first ++ second) =
      longestSuffix kind (longestSuffix kind first ++ second) := by
  have shorter : longestSuffix kind first ++ second <:+ first ++ second :=
    List.suffix_append_self_iff.mpr (longest_suffix_suffix first)
  refine suffix_antisymm (suffix_longest_suffix ?_ (longest_suffix_kind _))
    (suffix_longest_suffix ((longest_suffix_suffix _).trans shorter) (longest_suffix_kind _))
  rcases suffix_append_cases (longest_suffix_suffix (first ++ second)) with
    inSecond | ⟨start, whole, inFirst⟩
  · exact inSecond.trans (List.suffix_append _ _)
  · rw [whole]
    refine List.suffix_append_self_iff.mpr (suffix_longest_suffix inFirst ?_)
    rcases longest_suffix_kind (first ++ second) with empty | kept
    · rw [whole] at empty
      exact .inl (List.append_eq_nil_iff.mp empty).1
    · rw [whole] at kept
      exact closed start second kept

theorem settled_front_append_more
    (closed : ∀ start rest, kind (start ++ rest) = true → start = [] ∨ kind start = true)
    (first second : List Item) :
    settledFront kind (first ++ second) =
      settledFront kind first ++ settledFront kind (longestSuffix kind first ++ second) := by
  have whole := @settled_front_append Item kind (first ++ second)
  have rest := @settled_front_append Item kind (longestSuffix kind first ++ second)
  have start := @settled_front_append Item kind first
  rw [longest_suffix_append closed] at whole
  refine List.append_cancel_right (whole.trans ?_)
  rw [List.append_assoc, rest, ← List.append_assoc, start]

/-- A token ends the stream exactly when it ends what is carried and read since, if the
carried suffixes are its beginnings. -/
theorem token_suffix_iff {token taken : List Item} (some : taken ≠ [])
    (beginnings : ∀ start rest, start ++ rest = token → rest ≠ [] →
      start = [] ∨ kind start = true) (data : List Item) :
    token <:+ data ++ taken ↔ token <:+ longestSuffix kind data ++ taken := by
  constructor
  · intro suffix
    rcases suffix_append_cases suffix with inTaken | ⟨start, whole, inData⟩
    · exact inTaken.trans (List.suffix_append _ _)
    · rw [whole]
      exact List.suffix_append_self_iff.mpr
        (suffix_longest_suffix inData (beginnings start taken whole.symm some))
  · intro suffix
    exact suffix.trans (List.suffix_append_self_iff.mpr (longest_suffix_suffix data))

theorem find_longest_suffix [BEq Item] [LawfulBEq Item] {parts : List (List Item)}
    (sorted : parts.Pairwise fun left right => right.length ≤ left.length)
    (member : ∀ part, kind part = true ↔ part ∈ parts) (data : List Item) :
    (parts.find? fun part => part.isSuffixOf data).getD [] = longestSuffix kind data := by
  cases found : parts.find? fun part => part.isSuffixOf data with
  | none =>
    rcases @longest_suffix_kind Item kind data with empty | kept
    · exact empty.symm
    · have missing := List.find?_eq_none.mp found _ ((member _).mp kept)
      rw [List.isSuffixOf_iff_suffix] at missing
      exact absurd (longest_suffix_suffix data) missing
  | some part =>
    obtain ⟨isSuffix, before, after, split, earlier⟩ := List.find?_eq_some_iff_append.mp found
    rw [List.isSuffixOf_iff_suffix] at isSuffix
    have listed : part ∈ parts := split ▸ List.mem_append_right _ List.mem_cons_self
    have inLongest := suffix_longest_suffix isSuffix (.inr ((member part).mpr listed))
    refine inLongest.eq_of_length_le ?_
    rcases @longest_suffix_kind Item kind data with empty | kept
    · rw [empty]
      exact Nat.zero_le _
    · have inParts := (member _).mp kept
      rw [split] at inParts sorted
      rcases List.mem_append.mp inParts with inBefore | inAfter
      · have excluded := earlier _ inBefore
        rw [Bool.not_eq_true', ← Bool.not_eq_true, List.isSuffixOf_iff_suffix] at excluded
        exact absurd (longest_suffix_suffix data) excluded
      · rcases List.mem_cons.mp inAfter with same | later
        · exact same ▸ Nat.le_refl _
        · exact List.rel_of_pairwise_cons (List.pairwise_append.mp sorted).2.1 later

end Suffixes

section Matches

variable {Item : Type u} {Found : Type v}

/-- The leftmost place where something matches: what stands before it, what has matched and
what stands behind. -/
def search (matchAt : List Item → Option (Found × List Item)) :
    List Item → Option (List Item × Found × List Item)
  | [] => none
  | head :: tail =>
    match matchAt (head :: tail) with
    | some (found, rest) => some ([], found, rest)
    | none => (search matchAt tail).map fun result => (head :: result.1, result.2)

/-- A match stays when more is read, and one that takes more to be seen is carried. Nothing
matches inside what is carried. -/
structure Resumes (matchAt : List Item → Option (Found × List Item))
    (kind : List Item → Bool) : Prop where
  extends_match : ∀ {data found rest}, matchAt data = some (found, rest) →
    ∀ more, matchAt (data ++ more) = some (found, rest ++ more)
  partial_match : ∀ {data more found rest}, data ≠ [] → matchAt data = none →
    matchAt (data ++ more) = some (found, rest) →
    kind data = true ∧ ∃ taken, taken ≠ [] ∧ more = taken ++ rest
  quiet : ∀ {data}, kind data = true → search matchAt data = none

variable {matchAt : List Item → Option (Found × List Item)} {kind : List Item → Bool}

variable {rest data before : List Item} {found : Found}

variable {head : Item} {tail : List Item}

theorem search_cons_some (here : matchAt (head :: tail) = some (found, rest)) :
    search matchAt (head :: tail) = some ([], found, rest) := by
  rw [search, here]

theorem search_cons_none (here : matchAt (head :: tail) = none) :
    search matchAt (head :: tail) =
      (search matchAt tail).map fun result => (head :: result.1, result.2) := by
  rw [search, here]

theorem search_append_some (resumes : Resumes matchAt kind)
    (done : search matchAt data = some (before, found, rest)) (more : List Item) :
    search matchAt (data ++ more) = some (before, found, rest ++ more) := by
  induction data generalizing before with
  | nil => exact absurd done nofun
  | cons head tail induction =>
    cases here : matchAt (head :: tail) with
    | some result =>
      rw [search_cons_some here] at done
      cases done
      exact search_cons_some (resumes.extends_match here more)
    | none =>
      have whole := done
      rw [search_cons_none here] at done
      obtain ⟨⟨beforeTail, result⟩, inTail, same⟩ := Option.map_eq_some_iff.mp done
      cases same
      cases now : matchAt (head :: (tail ++ more)) with
      | some result =>
        have carried := resumes.partial_match (List.cons_ne_nil head tail) here now
        rw [resumes.quiet carried.1] at whole
        exact absurd whole nofun
      | none =>
        rw [List.cons_append, search_cons_none now, induction inTail]
        rfl

theorem search_append_none (resumes : Resumes matchAt kind) (nothing : search matchAt data = none)
    (more : List Item) :
    search matchAt (data ++ more) =
      (search matchAt (longestSuffix kind data ++ more)).map fun result =>
        (settledFront kind data ++ result.1, result.2) := by
  induction data with
  | nil =>
    change _ = Option.map (fun result => ([] ++ result.1, result.2)) (search matchAt ([] ++ more))
    simp
  | cons head tail induction =>
    by_cases whole : kind (head :: tail) = true
    · have carried : longestSuffix kind (head :: tail) = head :: tail := by
        rw [longestSuffix, if_pos whole]
      have front : settledFront kind (head :: tail) = [] := by
        rw [settledFront, carried, Nat.sub_self, List.take_zero]
      rw [carried, front]
      simp
    · have carried : longestSuffix kind (head :: tail) = longestSuffix kind tail := by
        rw [longestSuffix, if_neg whole]
      have front : settledFront kind (head :: tail) = head :: settledFront kind tail := by
        have shorter := (@longest_suffix_suffix Item kind tail).length_le
        rw [settledFront, settledFront, carried, List.length_cons,
          Nat.succ_sub shorter, List.take_succ_cons]
      cases here : matchAt (head :: tail) with
      | some result =>
        rw [search_cons_some here] at nothing
        exact absurd nothing nofun
      | none =>
        rw [search_cons_none here, Option.map_eq_none_iff] at nothing
        cases now : matchAt (head :: (tail ++ more)) with
        | some result =>
          have carriedWhole := resumes.partial_match (List.cons_ne_nil head tail) here now
          exact absurd carriedWhole.1 whole
        | none =>
          rw [List.cons_append, search_cons_none now, induction nothing, carried, front,
            Option.map_map]
          rfl

theorem search_rest (takes : ∀ {data found rest}, matchAt data = some (found, rest) → ∃ taken, taken
      ≠ [] ∧ data = taken ++ rest) (done : search matchAt data = some (before, found, rest)) :
    ∃ taken, taken ≠ [] ∧ data = taken ++ rest := by
  induction data generalizing before with
  | nil => exact absurd done nofun
  | cons head tail induction =>
    cases here : matchAt (head :: tail) with
    | some result =>
      rw [search_cons_some here] at done
      cases done
      exact takes here
    | none =>
      rw [search_cons_none here] at done
      obtain ⟨⟨beforeTail, result⟩, inTail, same⟩ := Option.map_eq_some_iff.mp done
      cases same
      obtain ⟨taken, -, split⟩ := induction inTail
      exact ⟨head :: taken, List.cons_ne_nil _ _, congrArg (List.cons head) split⟩

theorem search_append_rest (resumes : Resumes matchAt kind) (takes : ∀ {data found rest}, matchAt
      data = some (found, rest) → ∃ taken, taken ≠ [] ∧ data = taken ++ rest) {more : List Item}
    (nothing : search matchAt data = none)
    (done : search matchAt (data ++ more) = some (before, found, rest)) :
    ∃ taken, taken ≠ [] ∧ more = taken ++ rest := by
  induction data generalizing before with
  | nil => exact search_rest takes done
  | cons head tail induction =>
    cases here : matchAt (head :: tail) with
    | some result =>
      rw [search_cons_some here] at nothing
      exact absurd nothing nofun
    | none =>
      rw [search_cons_none here, Option.map_eq_none_iff] at nothing
      rw [List.cons_append] at done
      cases now : matchAt (head :: (tail ++ more)) with
      | some result =>
        rw [search_cons_some now] at done
        cases done
        exact (resumes.partial_match (List.cons_ne_nil head tail) here now).2
      | none =>
        rw [search_cons_none now] at done
        obtain ⟨⟨beforeTail, result⟩, inTail, same⟩ := Option.map_eq_some_iff.mp done
        cases same
        exact induction nothing inTail

end Matches

end Atlaso.Library.StreamSearch
