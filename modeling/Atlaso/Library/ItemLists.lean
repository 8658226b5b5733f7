import Atlaso.Library.TextFields
import Mathlib.Data.List.TakeWhile

/-!
Text fields that list items: the items stand between commas and line breaks, white space around
them does not count, and neither does their case.

`Lowering` is what these readers rely on in `str.lower`: it works on the words of a text, the
runs of characters between white space and commas, it gives a word a word, and it does to ASCII
text what one expects.
-/

namespace Atlaso.Library.ItemLists

open TextFields

theorem split_induction {Item : Type} (kind : Item → Bool) {holds : List Item → Prop}
    (whole : ∀ text, (∀ c ∈ text, kind c = false) → holds text)
    (join : ∀ left c right, kind c = true → holds left → holds right → holds (left ++ c :: right))
    (text : List Item) : holds text := by
  induction size : text.length using Nat.strong_induction_on generalizing text with
  | _ size induction =>
    by_cases plain : ∀ c ∈ text, kind c = false
    · exact whole text plain
    · push Not at plain
      obtain ⟨c, inside, found⟩ := plain
      obtain ⟨left, right, rfl⟩ := List.append_of_mem inside
      simp only [List.length_append, List.length_cons] at size
      exact join left c right (by simpa using found) (induction _ (by omega) left rfl)
        (induction _ (by omega) right rfl)

/-! ### White space around a text -/

variable {front item : List Char} {c : Char}

theorem drop_spaces {text : List Char} (blank : ∀ c ∈ front, isWhitespace c = true) :
    (front ++ text).dropWhile isWhitespace = text.dropWhile isWhitespace := by
  induction front with
  | nil => rfl
  | cons c front induction =>
    rw [List.cons_append, List.dropWhile_cons_of_pos (blank c List.mem_cons_self)]
    exact induction fun d inside => blank d (List.mem_cons_of_mem _ inside)

theorem drop_no_spaces {text : List Char} (starts : ∀ c ∈ text.head?, isWhitespace c = false) :
    text.dropWhile isWhitespace = text := by
  cases text with
  | nil => rfl
  | cons c rest => exact List.dropWhile_cons_of_neg (by simp [starts c rfl])

theorem strip_between {core back : List Char} (before : ∀ c ∈ front, isWhitespace c = true)
    (after : ∀ c ∈ back, isWhitespace c = true) (starts : ∀ c ∈ core.head?, isWhitespace c = false)
    (ends : ∀ c ∈ core.getLast?, isWhitespace c = false) :
    strip (front ++ core ++ back) = core := by
  rw [strip, List.append_assoc, drop_spaces before]
  cases core with
  | nil =>
    have blank : back.dropWhile isWhitespace = [] := List.dropWhile_eq_nil_iff.mpr after
    rw [List.nil_append, blank]
    rfl
  | cons c rest =>
    have head : ∀ d ∈ ((c :: rest) ++ back).head?, isWhitespace d = false := starts
    have trailing : ∀ d ∈ back.reverse, isWhitespace d = true := by
      intro d inside
      exact after d (List.mem_reverse.mp inside)
    have last : ∀ d ∈ (c :: rest).reverse.head?, isWhitespace d = false := by
      rwa [List.head?_reverse]
    rw [drop_no_spaces head, List.reverse_append, drop_spaces trailing, drop_no_spaces last,
      List.reverse_reverse]

theorem drop_while_head (text : List Char) :
    ∀ c ∈ (text.dropWhile isWhitespace).head?, isWhitespace c = false := by
  induction text with
  | nil => simp
  | cons c rest induction =>
    by_cases blank : isWhitespace c = true
    · rwa [List.dropWhile_cons_of_pos blank]
    · rw [List.dropWhile_cons_of_neg blank]
      intro d same
      obtain rfl := Option.some.inj same
      simpa using blank

/-- A text is its stripped form with white space around it. -/
theorem strip_parts (text : List Char) :
    ∃ front back, text = front ++ strip text ++ back ∧
      (∀ c ∈ front, isWhitespace c = true) ∧ (∀ c ∈ back, isWhitespace c = true) ∧
      (∀ c ∈ (strip text).head?, isWhitespace c = false) ∧
      ∀ c ∈ (strip text).getLast?, isWhitespace c = false := by
  have front := List.takeWhile_append_dropWhile (p := isWhitespace) (l := text)
  set tail := text.dropWhile isWhitespace with tailIs
  have back := List.takeWhile_append_dropWhile (p := isWhitespace) (l := tail.reverse)
  have core : tail = strip text ++ (tail.reverse.takeWhile isWhitespace).reverse := by
    rw [strip, ← List.reverse_append, ← tailIs, back, List.reverse_reverse]
  refine ⟨text.takeWhile isWhitespace, (tail.reverse.takeWhile isWhitespace).reverse, ?_, ?_, ?_,
    ?_, ?_⟩
  · rw [List.append_assoc, ← core, front]
  · exact fun c inside => List.mem_takeWhile_imp inside
  · exact fun c inside => List.mem_takeWhile_imp (List.mem_reverse.mp inside)
  · intro c inside
    have starts := drop_while_head text
    rw [← tailIs, core] at starts
    cases stripped : strip text with
    | nil => rw [stripped] at inside; cases inside
    | cons d rest =>
      rw [stripped] at inside starts
      exact starts c inside
  · intro c inside
    rw [strip, List.getLast?_reverse] at inside
    exact drop_while_head _ c inside

theorem strip_strip (text : List Char) : strip (strip text) = strip text := by
  obtain ⟨_, _, _, _, _, starts, ends⟩ := strip_parts text
  have same := @strip_between [] _ [] (by simp) (by simp) starts ends
  simpa using same

theorem strip_subset (text : List Char) : strip text ⊆ text := by
  obtain ⟨front, back, parts, _⟩ := strip_parts text
  intro c inside
  rw [parts]
  simp [inside]

/-! ### Items -/

/-- A comma or a line break. -/
def isSeparator (c : Char) : Bool := c = ',' || c = '\n'

def splitItems (text : List Char) : List (List Char) :=
  ((text.splitOnP isSeparator).map strip).filter fun item => item ≠ []

def joinItems (items : List (List Char)) : List Char := List.intercalate ['\n'] items

theorem split_items_append (left right : List Char) (separates : isSeparator c = true) :
    splitItems (left ++ c :: right) = splitItems left ++ splitItems right := by
  rw [splitItems, List.splitOnP_append_cons left right separates, List.map_append,
    List.filter_append]
  rfl

theorem split_items_whole {text : List Char} (whole : ∀ c ∈ text, isSeparator c = false) :
    splitItems text = if strip text = [] then [] else [strip text] := by
  rw [splitItems, List.splitOnP_eq_singleton whole]
  by_cases blank : strip text = []
  · simp [blank]
  · simp [blank]

/-- An item is not blank, is stripped, and is not taken apart again. -/
theorem split_items_members (text : List Char) :
    ∀ item ∈ splitItems text, item ≠ [] ∧ strip item = item ∧ item ⊆ text ∧
      ∀ c ∈ item, isSeparator c = false := by
  induction text using split_induction isSeparator with
  | whole text whole =>
    intro item inside
    rw [split_items_whole whole] at inside
    split at inside
    · cases inside
    · next unblank =>
        obtain rfl := List.mem_singleton.mp inside
        exact ⟨unblank, strip_strip text, strip_subset text,
          fun c present => whole c (strip_subset text present)⟩
  | join left c right separates inLeft inRight =>
    intro item inside
    rw [split_items_append left right separates] at inside
    rcases List.mem_append.mp inside with first | second
    · obtain ⟨unblank, stripped, subset, plain⟩ := inLeft item first
      exact ⟨unblank, stripped, fun d present => List.mem_append_left _ (subset present), plain⟩
    · obtain ⟨unblank, stripped, subset, plain⟩ := inRight item second
      exact ⟨unblank, stripped,
        fun d present => List.mem_append_right _ (List.mem_cons_of_mem _ (subset present)), plain⟩

theorem split_items_item (unblank : item ≠ []) (stripped : strip item = item)
    (plain : ∀ c ∈ item, isSeparator c = false) : splitItems item = [item] := by
  rw [split_items_whole plain, stripped, if_neg unblank]

theorem split_items_join (items : List (List Char)) :
    splitItems (joinItems items) = items.flatMap splitItems := by
  induction items with
  | nil => rfl
  | cons item items induction =>
    cases items with
    | nil => simp [joinItems]
    | cons next items =>
      have joined : joinItems (item :: next :: items) =
          item ++ '\n' :: joinItems (next :: items) := rfl
      rw [joined, split_items_append _ _ (by decide), induction]
      rfl

variable {items : List (List Char)}

theorem split_items_join_items (split : ∀ item ∈ items, splitItems item = [item]) :
    splitItems (joinItems items) = items := by
  rw [split_items_join]
  induction items with
  | nil => rfl
  | cons item items induction =>
    rw [List.flatMap_cons, split item List.mem_cons_self,
      induction fun other inside => split other (List.mem_cons_of_mem _ inside)]
    rfl

theorem join_items_single (item : List Char) : joinItems [item] = item := by simp [joinItems]

theorem join_items_next (item next : List Char) (items : List (List Char)) :
    joinItems (item :: next :: items) = item ++ '\n' :: joinItems (next :: items) := rfl

theorem join_items_cons (item : List Char) (items : List (List Char)) :
    joinItems (item :: items) = item ∨
      ∃ rest, joinItems (item :: items) = item ++ '\n' :: rest := by
  cases items with
  | nil => exact .inl (join_items_single item)
  | cons next items => exact .inr ⟨_, rfl⟩

theorem join_items_head (unblank : item ≠ []) (items : List (List Char)) :
    (joinItems (item :: items)).head? = item.head? := by
  obtain ⟨c, more, rfl⟩ := List.exists_cons_of_ne_nil unblank
  rcases join_items_cons (c :: more) items with same | ⟨rest, same⟩ <;> rw [same] <;> rfl

theorem strip_head {text : List Char} (stripped : strip text = text) :
    ∀ c ∈ text.head?, isWhitespace c = false := by
  obtain ⟨_, _, _, _, _, starts, _⟩ := strip_parts text
  rwa [stripped] at starts

theorem strip_last {text : List Char} (stripped : strip text = text) :
    ∀ c ∈ text.getLast?, isWhitespace c = false := by
  obtain ⟨_, _, _, _, _, _, ends⟩ := strip_parts text
  rwa [stripped] at ends

theorem join_items_last (filled : items ≠ [])
    (trimmed : ∀ item ∈ items, item ≠ [] ∧ strip item = item) :
    joinItems items ≠ [] ∧ ∀ c ∈ (joinItems items).getLast?, isWhitespace c = false := by
  induction items with
  | nil => exact absurd rfl filled
  | cons item items induction =>
    obtain ⟨unblank, stripped⟩ := trimmed item List.mem_cons_self
    cases items with
    | nil =>
      rw [join_items_single]
      exact ⟨unblank, strip_last stripped⟩
    | cons next items =>
      obtain ⟨some, ends⟩ := induction (by simp)
        fun other inside => trimmed other (List.mem_cons_of_mem _ inside)
      rw [join_items_next]
      refine ⟨by simp, ?_⟩
      obtain ⟨c, rest, shape⟩ := List.exists_cons_of_ne_nil some
      rw [shape] at ends ⊢
      rwa [List.getLast?_append_cons, List.getLast?_cons_cons]

theorem strip_join (trimmed : ∀ item ∈ items, item ≠ [] ∧ strip item = item) :
    strip (joinItems items) = joinItems items := by
  cases items with
  | nil => rfl
  | cons item items =>
    obtain ⟨unblank, stripped⟩ := trimmed item List.mem_cons_self
    have starts : ∀ c ∈ (joinItems (item :: items)).head?, isWhitespace c = false := by
      rw [join_items_head unblank]
      exact strip_head stripped
    have whole := @strip_between [] _ [] (by simp) (by simp) starts
      (join_items_last (by simp) trimmed).2
    simpa using whole

/-! ### Case -/

/-- White space and commas, which stand between words. -/
def isApart (c : Char) : Bool := isWhitespace c || c = ','

/-- What is relied on in `str.lower`. -/
structure Lowering where
  lower : List Char → List Char
  ascii : ∀ text, (∀ c ∈ text, c.toNat < 128) → lower text = text.map Char.toLower
  leading : ∀ text rest, (∀ c ∈ text, c.toNat < 128) →
    text.map Char.toLower <+: lower (text ++ rest)
  apart : ∀ left c right, isApart c = true → lower (left ++ c :: right) = lower left ++ c :: lower right
  word : ∀ text, text ≠ [] → (∀ c ∈ text, isApart c = false) →
    lower text ≠ [] ∧ ∀ c ∈ lower text, isApart c = false
  idempotent : ∀ text, lower (lower text) = lower text

theorem separator_apart (separates : isSeparator c = true) : isApart c = true := by
  simp only [isSeparator, Bool.or_eq_true, decide_eq_true_eq] at separates
  rcases separates with rfl | rfl <;> decide

section Lowering

variable (lowering : Lowering)

theorem lower_nil : lowering.lower [] = [] := lowering.ascii [] (by simp)

theorem lower_unblank (text : List Char) : text ≠ [] → lowering.lower text ≠ [] := by
  induction text using split_induction isApart with
  | whole text plain => exact fun unblank => (lowering.word text unblank plain).1
  | join left a right apart _ _ =>
    intro _
    rw [lowering.apart left a right apart]
    simp

/-- Lowering adds no characters between words. -/
theorem lower_members (text : List Char) :
    ∀ c ∈ lowering.lower text, isApart c = true → c ∈ text := by
  induction text using split_induction isApart with
  | whole text plain =>
    intro c inside found
    by_cases empty : text = []
    · subst empty
      rw [lower_nil] at inside
      cases inside
    · have plainLower := (lowering.word text empty plain).2 c inside
      rw [found] at plainLower
      cases plainLower
  | join left a right apart inLeft inRight =>
    intro c inside found
    rw [lowering.apart left a right apart] at inside
    rcases List.mem_append.mp inside with first | later
    · exact List.mem_append_left _ (inLeft c first found)
    · rcases List.mem_cons.mp later with rfl | second
      · exact List.mem_append_right _ List.mem_cons_self
      · exact List.mem_append_right _ (List.mem_cons_of_mem _ (inRight c second found))

theorem not_apart_not_space {c : Char} (plain : isApart c = false) : isWhitespace c = false :=
  (Bool.or_eq_false_iff.mp plain).1

/-- A text that does not start with white space does not start with it in lower case. -/
theorem lower_head (text : List Char) : text ≠ [] →
    (∀ c ∈ text.head?, isWhitespace c = false) →
    ∀ c ∈ (lowering.lower text).head?, isWhitespace c = false := by
  induction text using split_induction isApart with
  | whole text plain =>
    intro unblank _ c inside
    obtain ⟨_, plainLower⟩ := lowering.word text unblank plain
    exact not_apart_not_space (plainLower c (List.mem_of_mem_head? inside))
  | join left a right apart inLeft _ =>
    intro _ starts
    rw [lowering.apart left a right apart]
    by_cases empty : left = []
    · subst empty
      rw [lower_nil]
      exact starts
    · have leftStarts : ∀ c ∈ left.head?, isWhitespace c = false := by
        cases left with
        | nil => exact absurd rfl empty
        | cons c rest => exact starts
      have head := inLeft empty leftStarts
      obtain ⟨c, rest, lowered⟩ := List.exists_cons_of_ne_nil (lower_unblank lowering left empty)
      rw [lowered] at head ⊢
      exact head

theorem lower_last (text : List Char) : text ≠ [] →
    (∀ c ∈ text.getLast?, isWhitespace c = false) →
    ∀ c ∈ (lowering.lower text).getLast?, isWhitespace c = false := by
  induction text using split_induction isApart with
  | whole text plain =>
    intro unblank _ c inside
    obtain ⟨_, plainLower⟩ := lowering.word text unblank plain
    exact not_apart_not_space (plainLower c (List.mem_of_getLast? inside))
  | join left a right apart _ inRight =>
    intro _ ends
    rw [lowering.apart left a right apart]
    by_cases empty : right = []
    · subst empty
      rw [lower_nil]
      simpa using ends
    · rw [List.getLast?_append_cons] at ends ⊢
      obtain ⟨c, rest, shape⟩ := List.exists_cons_of_ne_nil empty
      have rightEnds : ∀ c ∈ right.getLast?, isWhitespace c = false := by
        rw [shape] at ends ⊢
        rwa [List.getLast?_cons_cons] at ends
      obtain ⟨d, more, lowered⟩ := List.exists_cons_of_ne_nil (lower_unblank lowering right empty)
      have last := inRight empty rightEnds
      rw [lowered] at last ⊢
      rwa [List.getLast?_cons_cons]

theorem lower_spaces_before {front : List Char} (blank : ∀ c ∈ front, isWhitespace c = true)
    (text : List Char) : lowering.lower (front ++ text) = front ++ lowering.lower text := by
  induction front with
  | nil => rfl
  | cons c front induction =>
    have apart : isApart c = true := by
      rw [isApart, blank c List.mem_cons_self]
      rfl
    have first := lowering.apart [] c (front ++ text) apart
    rw [lower_nil] at first
    rw [List.cons_append]
    rw [List.nil_append, List.nil_append] at first
    rw [first, induction fun d inside => blank d (List.mem_cons_of_mem _ inside)]
    rfl

theorem lower_spaces_after {back : List Char} (blank : ∀ c ∈ back, isWhitespace c = true)
    (text : List Char) : lowering.lower (text ++ back) = lowering.lower text ++ back := by
  cases back with
  | nil => rw [List.append_nil, List.append_nil]
  | cons c back =>
    have apart : isApart c = true := by
      rw [isApart, blank c List.mem_cons_self]
      rfl
    have rest := lower_spaces_before lowering
      (fun d inside => blank d (List.mem_cons_of_mem c inside)) []
    rw [List.append_nil, lower_nil, List.append_nil] at rest
    rw [lowering.apart text c back apart, rest]

theorem lower_strip (text : List Char) :
    strip (lowering.lower text) = lowering.lower (strip text) := by
  obtain ⟨front, back, parts, before, after, starts, ends⟩ := strip_parts text
  have lowered : lowering.lower text = front ++ lowering.lower (strip text) ++ back := by
    conv_lhs => rw [parts]
    rw [lower_spaces_after lowering after, lower_spaces_before lowering before]
  rw [lowered]
  by_cases blank : strip text = []
  · rw [blank, lower_nil]
    exact strip_between before after (by simp) (by simp)
  · exact strip_between before after (lower_head lowering _ blank starts)
      (lower_last lowering _ blank ends)

theorem split_items_lower (text : List Char) :
    splitItems (lowering.lower text) = (splitItems text).map lowering.lower := by
  induction text using split_induction isSeparator with
  | whole text whole =>
    have wholeLower : ∀ c ∈ lowering.lower text, isSeparator c = false := by
      intro c inside
      by_contra separates
      rw [Bool.not_eq_false] at separates
      have present := lower_members lowering text c inside (separator_apart separates)
      rw [whole c present] at separates
      cases separates
    rw [split_items_whole whole, split_items_whole wholeLower, lower_strip]
    by_cases blank : strip text = []
    · rw [if_pos blank, blank, lower_nil, if_pos rfl]
      rfl
    · rw [if_neg blank, if_neg (lower_unblank lowering _ blank)]
      rfl
  | join left c right separates inLeft inRight =>
    rw [lowering.apart left c right (separator_apart separates),
      split_items_append _ _ separates, split_items_append _ _ separates, inLeft, inRight,
      List.map_append]

end Lowering

/-! ### ASCII text -/

theorem to_lower_large {c : Char} (large : 128 ≤ c.toNat) : c.toLower = c := by
  delta Char.toLower
  rw [dif_neg]
  rintro ⟨_, upper⟩
  have bound : c.toNat ≤ 90 := upper
  omega

theorem to_lower_cases {holds : Char → Char → Prop} (same : ∀ c, holds c c)
    (small : ∀ value < 128, holds (Char.ofNat value) (Char.ofNat value).toLower) (c : Char) :
    holds c c.toLower := by
  by_cases large : 128 ≤ c.toNat
  · rw [to_lower_large large]
    exact same c
  · have checked := small c.toNat (by omega)
    rwa [Char.ofNat_toNat] at checked

theorem to_lower_apart (c : Char) : isApart c.toLower = isApart c :=
  @to_lower_cases (fun c lowered => isApart lowered = isApart c) (fun _ => rfl)
    (by decide) c

theorem to_lower_fixed (c : Char) : isApart c = true → c.toLower = c :=
  @to_lower_cases (fun c lowered => isApart c = true → lowered = c) (fun _ _ => rfl)
    (by decide) c

theorem to_lower_again (c : Char) : c.toLower.toLower = c.toLower := by
  by_cases large : 128 ≤ c.toNat
  · rw [to_lower_large large, to_lower_large large]
  · have checked : ∀ value < 128,
        (Char.ofNat value).toLower.toLower = (Char.ofNat value).toLower := by decide +kernel
    have found := checked c.toNat (by omega)
    rwa [Char.ofNat_toNat] at found

def asciiLowering : Lowering where
  lower := List.map Char.toLower
  ascii := fun _ _ => rfl
  leading := by
    intro text rest _
    rw [List.map_append]
    exact List.prefix_append _ _
  apart := by
    intro left c right apart
    rw [List.map_append, List.map_cons, to_lower_fixed c apart]
  word := by
    intro text unblank plain
    refine ⟨by simpa using unblank, ?_⟩
    intro c inside
    obtain ⟨d, member, rfl⟩ := List.mem_map.mp inside
    rw [to_lower_apart]
    exact plain d member
  idempotent := by
    intro text
    rw [List.map_map]
    apply List.map_congr_left
    exact fun c _ => to_lower_again c

end Atlaso.Library.ItemLists
