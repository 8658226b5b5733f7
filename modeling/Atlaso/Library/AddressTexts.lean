import Atlaso.Library.IpAddress
import Mathlib.Data.List.GetD
import Mathlib.Data.List.Nodup
import Mathlib.Data.List.TakeWhile

/-!
The canonical text of an address is read back as that address.

The text of an IPv6 address leaves out its first longest run of zeros, if that has two hextets at
least. The reader fills the gap with as many zeros as are missing.
-/

namespace Atlaso.Library.AddressTexts

open IpAddress Numerals

/-! ### Digits -/

variable {base : Nat} {separator : Char} {high low : List Nat}

theorem digits_members (large : 1 < base) (value : Nat) :
    ∀ c ∈ Nat.toDigits base value, ∃ digit < base, c = Nat.digitChar digit := by
  induction value using Nat.strong_induction_on with
  | h value induction =>
    intro c inside
    rw [Nat.toDigits_eq_if large] at inside
    split at inside
    · next single => exact ⟨value, single, List.mem_singleton.mp inside⟩
    · next longer =>
        rcases List.mem_append.mp inside with earlier | last
        · exact induction (value / base) (Nat.div_lt_self (by omega) large) c earlier
        · exact ⟨value % base, Nat.mod_lt _ (by omega), List.mem_singleton.mp last⟩

theorem numeral_value_digits (large : 1 < base) (small : base ≤ 16) (value : Nat) :
    numeralValue base 0 (Nat.toDigits base value) = some value := by
  induction value using Nat.strong_induction_on with
  | h value induction =>
    rw [Nat.toDigits_eq_if large]
    split
    · next single =>
        simp [numeralValue, digit_value_digit_char base small value single]
    · next longer =>
        have last := digit_value_digit_char base small (value % base) (Nat.mod_lt _ (by omega))
        rw [numeral_value_append, induction _ (Nat.div_lt_self (by omega) large)]
        simp only [Option.bind_some, numeralValue, last, Option.bind_eq_bind, Option.some.injEq]
        rw [Nat.mul_comm]
        exact Nat.div_add_mod _ _

theorem hex_digits_plain (value : Nat) :
    ∀ c ∈ Nat.toDigits 16 value, c ≠ ':' ∧ c ≠ '.' ∧ c.toLower = c := by
  have checked : ∀ digit < 16, Nat.digitChar digit ≠ ':' ∧ Nat.digitChar digit ≠ '.' ∧
      (Nat.digitChar digit).toLower = Nat.digitChar digit := by decide
  intro c inside
  obtain ⟨digit, bound, rfl⟩ := digits_members (by decide) value c inside
  exact checked digit bound

theorem parse_hextet_digits {value : Nat} (fits : value < 65536) :
    parseHextet (Nat.toDigits 16 value) = some value := by
  have short : (Nat.toDigits 16 value).length ≤ 4 :=
    (Nat.length_toDigits_le_iff (by decide) (by decide)).mpr fits
  have lower : (Nat.toDigits 16 value).map Char.toLower = Nat.toDigits 16 value := by
    calc (Nat.toDigits 16 value).map Char.toLower = (Nat.toDigits 16 value).map id :=
          List.map_congr_left fun c inside => (hex_digits_plain value c inside).2.2
      _ = Nat.toDigits 16 value := List.map_id _
  rw [parseHextet, lower, numeral_value_digits (by decide) (by decide)]
  simp [short]

variable {values : List Nat}

theorem map_parse_hextet (fits : ∀ value ∈ values, value < 65536) :
    (values.map (Nat.toDigits 16)).mapM parseHextet = some values := by
  induction values with
  | nil => rfl
  | cons value values induction =>
    rw [List.map_cons, List.mapM_cons, parse_hextet_digits (fits value List.mem_cons_self),
      induction fun other inside => fits other (List.mem_cons_of_mem _ inside)]
    rfl

/-! ### Splitting -/

theorem split_on_whole {text : List Char} (whole : separator ∉ text) :
    splitOn separator text = [text] := by
  induction text with
  | nil => rfl
  | cons c rest induction =>
    rw [List.mem_cons, not_or] at whole
    rw [splitOn, if_neg (Ne.symm whole.1), induction whole.2]

theorem split_on_append {front : List Char} (whole : separator ∉ front) (rest : List Char) :
    splitOn separator (front ++ separator :: rest) = front :: splitOn separator rest := by
  induction front with
  | nil => rw [List.nil_append, splitOn, if_pos rfl]
  | cons c front induction =>
    rw [List.mem_cons, not_or] at whole
    rw [List.cons_append, splitOn, if_neg (Ne.symm whole.1), induction whole.2]

/-! ### IPv4 -/

theorem parse_octet_digits : ∀ value < 256, parseOctet (Nat.toDigits 10 value) = some value := by
  decide +kernel

theorem octet_undotted (value : Nat) : '.' ∉ Nat.toDigits 10 value := by
  intro inside
  have digit := Nat.isDigit_of_mem_toDigits (by decide) (by decide) inside
  revert digit
  decide

theorem octet_uncolonned (value : Nat) : ':' ∉ Nat.toDigits 10 value := by
  intro inside
  have digit := Nat.isDigit_of_mem_toDigits (by decide) (by decide) inside
  revert digit
  decide

theorem split_dotted (value : Nat) : splitOn '.' (dotted value) =
    [Nat.toDigits 10 (value / 2 ^ 24 % 256), Nat.toDigits 10 (value / 2 ^ 16 % 256),
      Nat.toDigits 10 (value / 2 ^ 8 % 256), Nat.toDigits 10 (value % 256)] := by
  rw [dotted, split_on_append (octet_undotted _), split_on_append (octet_undotted _),
    split_on_append (octet_undotted _), split_on_whole (octet_undotted _)]

theorem parse_dotted {value : Nat} (fits : value < 2 ^ 32) :
    parseV4 (dotted value) = some (BitVec.ofNat 32 value) := by
  have octet : ∀ part, parseOctet (Nat.toDigits 10 (part % 256)) = some (part % 256) :=
    fun part => parse_octet_digits _ (Nat.mod_lt _ (by decide))
  have whole : ((value / 2 ^ 24 % 256 * 256 + value / 2 ^ 16 % 256) * 256 +
      value / 2 ^ 8 % 256) * 256 + value % 256 = value := by
    omega
  rw [parseV4, split_dotted]
  simp only [octet, Option.bind_eq_bind, Option.bind_some, whole]

theorem dotted_uncolonned (value : Nat) : ':' ∉ dotted value := by
  simp [dotted, octet_uncolonned]

/-! ### Hextets -/

theorem hextets_bound (value : Nat) : ∀ part ∈ hextets value, part < 65536 := by
  intro part inside
  obtain ⟨index, _, rfl⟩ := List.mem_map.mp inside
  exact Nat.mod_lt _ (by decide)

theorem join_hextets_hextets {value : Nat} (fits : value < 2 ^ 128) :
    joinHextets (hextets value) = value := by
  have shape : hextets value = [value / 65536 ^ 7 % 65536, value / 65536 ^ 6 % 65536,
      value / 65536 ^ 5 % 65536, value / 65536 ^ 4 % 65536, value / 65536 ^ 3 % 65536,
      value / 65536 ^ 2 % 65536, value / 65536 ^ 1 % 65536, value / 65536 ^ 0 % 65536] := rfl
  rw [shape, joinHextets]
  simp only [List.foldl_cons, List.foldl_nil]
  omega

/-! ### Parts between colons -/

/-- What the split at colons makes of joined hextets. -/
def parts (values : List Nat) : List (List Char) :=
  if values = [] then [[]] else values.map (Nat.toDigits 16)

theorem digits_uncolonned (value : Nat) : ':' ∉ Nat.toDigits 16 value :=
  fun inside => (hex_digits_plain value ':' inside).1 rfl

theorem split_join_colons (values : List Nat) : splitOn ':' (joinColons values) = parts values := by
  induction values with
  | nil => rfl
  | cons first rest induction =>
    cases rest with
    | nil => exact split_on_whole (digits_uncolonned first)
    | cons second rest =>
      rw [joinColons, split_on_append (digits_uncolonned first), induction]
      rfl

theorem split_join_colons_append (values : List Nat) (rest : List Char) :
    splitOn ':' (joinColons values ++ ':' :: rest) = parts values ++ splitOn ':' rest := by
  induction values with
  | nil => rw [joinColons, List.nil_append, splitOn, if_pos rfl]; rfl
  | cons first others induction =>
    cases others with
    | nil => exact split_on_append (digits_uncolonned first) rest
    | cons second others =>
      rw [joinColons, List.append_assoc, List.cons_append,
        split_on_append (digits_uncolonned first), induction]
      rfl

theorem join_colons_undotted (values : List Nat) : '.' ∉ joinColons values := by
  have digits : ∀ value, '.' ∉ Nat.toDigits 16 value :=
    fun value inside => (hex_digits_plain value '.' inside).2.1 rfl
  induction values with
  | nil => exact List.not_mem_nil
  | cons first rest induction =>
    cases rest with
    | nil => exact digits first
    | cons second rest =>
      rw [joinColons, List.mem_append, List.mem_cons]
      rintro (inside | colon | later)
      · exact digits first inside
      · revert colon
        decide
      · exact induction later

theorem join_colons_length (fits : ∀ value ∈ values, value < 65536) :
    (joinColons values).length ≤ 5 * values.length := by
  have short : ∀ value < 65536, (Nat.toDigits 16 value).length ≤ 4 :=
    fun value bound => (Nat.length_toDigits_le_iff (by decide) (by decide)).mpr bound
  induction values with
  | nil => exact Nat.zero_le _
  | cons first rest induction =>
    have front := short first (fits first List.mem_cons_self)
    cases rest with
    | nil => exact front.trans (Nat.le_succ 4)
    | cons second rest =>
      have later := induction fun value inside => fits value (List.mem_cons_of_mem _ inside)
      rw [joinColons, List.length_append, List.length_cons]
      rw [List.length_cons] at later ⊢
      rw [List.length_cons]
      omega

theorem parts_length (values : List Nat) : (parts values).length = max 1 values.length := by
  cases values with
  | nil => rfl
  | cons first rest => simp [parts]

theorem parts_filled (filled : values ≠ []) : [] ∉ parts values := by
  rw [parts, if_neg filled]
  intro inside
  obtain ⟨value, _, empty⟩ := List.mem_map.mp inside
  exact Nat.toDigits_ne_nil empty

theorem parts_undotted (values : List Nat) : ∀ part ∈ parts values, '.' ∉ part := by
  intro part inside dot
  unfold parts at inside
  split at inside
  · rw [List.mem_singleton.mp inside] at dot
    cases dot
  · obtain ⟨value, _, rfl⟩ := List.mem_map.mp inside
    exact (hex_digits_plain value '.' dot).2.1 rfl

/-! ### Halves -/

theorem filter_range_single {count place : Nat} {kept : Nat → Bool} (inside : place < count)
    (single : ∀ index < count, kept index = true ↔ index = place) :
    (List.range count).filter kept = [place] := by
  have same : (List.range count).filter kept = (List.range count).filter (· = place) := by
    apply List.filter_congr
    intro index member
    have found := single index (List.mem_range.mp member)
    rw [Bool.eq_iff_iff, found, decide_eq_true_eq]
  rw [same, List.filter_eq, List.count_eq_one_of_mem List.nodup_range (List.mem_range.mpr inside)]
  rfl

theorem empty_inside_gap (high low : List Nat) :
    emptyInside (parts high ++ [] :: parts low) = [(parts high).length] := by
  have before := parts_length high
  have after := parts_length low
  apply filter_range_single
  · simp
  · intro index bound
    rw [List.length_append, List.length_cons] at bound
    rw [decide_eq_true_eq, List.length_append, List.length_cons]
    rcases lt_trichotomy index (parts high).length with earlier | same | later
    · refine iff_of_false ?_ (Nat.ne_of_lt earlier)
      rintro ⟨positive, _, empty⟩
      have filled : high ≠ [] := by
        rintro rfl
        have single : (parts []).length = 1 := rfl
        omega
      rw [List.getD_append _ _ _ _ earlier, List.getD_eq_getElem _ _ earlier,
        List.isEmpty_iff] at empty
      exact parts_filled filled (empty ▸ List.getElem_mem earlier)
    · subst same
      refine iff_of_true ⟨by omega, by omega, ?_⟩ rfl
      simp
    · refine iff_of_false ?_ (Nat.ne_of_gt later)
      rintro ⟨_, within, empty⟩
      have filled : low ≠ [] := by
        rintro rfl
        have single : (parts []).length = 1 := rfl
        omega
      obtain ⟨offset, rfl⟩ := Nat.exists_eq_add_of_lt later
      have inside : offset < (parts low).length := by omega
      rw [List.getD_append_right _ _ _ _ (by omega)] at empty
      have place : (parts high).length + offset + 1 - (parts high).length = offset + 1 := by omega
      rw [place, List.getD_cons_succ, List.getD_eq_getElem _ _ inside, List.isEmpty_iff] at empty
      exact parts_filled filled (empty ▸ List.getElem_mem inside)

theorem parts_head (values : List Nat) (rest : List (List Char)) :
    (parts values ++ rest).head? = some [] ↔ values = [] := by
  cases values with
  | nil => exact iff_of_true rfl rfl
  | cons first others =>
    refine iff_of_false ?_ (List.cons_ne_nil _ _)
    intro head
    exact Nat.toDigits_ne_nil (Option.some.inj head)

theorem parts_last (front : List (List Char)) (values : List Nat) :
    (front ++ [] :: parts values).getLast? = some [] ↔ values = [] := by
  rcases List.eq_nil_or_concat' values with rfl | ⟨others, last, rfl⟩
  · have shape : front ++ [] :: parts [] = (front ++ [[]]) ++ [[]] := by simp [parts]
    rw [shape, List.getLast?_concat]
    exact iff_of_true rfl rfl
  · have shape : front ++ [] :: parts (others ++ [last]) =
        (front ++ [] :: others.map (Nat.toDigits 16)) ++ [Nat.toDigits 16 last] := by
      simp [parts]
    rw [shape, List.getLast?_concat]
    refine iff_of_false ?_ (by simp)
    intro empty
    exact Nat.toDigits_ne_nil (Option.some.inj empty)

/-- The run that was left out is found between the two halves. -/
theorem hextet_halves_gap (short : high.length + low.length ≤ 7) :
    hextetHalves (parts high ++ [] :: parts low) =
      some (high.map (Nat.toDigits 16), low.map (Nat.toDigits 16)) := by
  have first : (if (parts high ++ [] :: parts low).head? = some [] then
      (List.take (parts high).length (parts high ++ [] :: parts low)).drop 1
      else List.take (parts high).length (parts high ++ [] :: parts low)) =
        high.map (Nat.toDigits 16) := by
    rw [List.take_left]
    by_cases empty : high = []
    · rw [if_pos ((parts_head high _).mpr empty), empty]
      rfl
    · rw [if_neg (fun head => empty ((parts_head high _).mp head)), parts, if_neg empty]
  have dropped : List.drop ((parts high).length + 1) (parts high ++ [] :: parts low) = parts low := by
    rw [List.drop_append, List.drop_eq_nil_of_le (by omega), Nat.add_sub_cancel_left]
    rfl
  have second : (if (parts high ++ [] :: parts low).getLast? = some [] then
      (List.drop ((parts high).length + 1) (parts high ++ [] :: parts low)).dropLast
      else List.drop ((parts high).length + 1) (parts high ++ [] :: parts low)) =
        low.map (Nat.toDigits 16) := by
    rw [dropped]
    by_cases empty : low = []
    · rw [if_pos ((parts_last _ low).mpr empty), empty]
      rfl
    · rw [if_neg (fun last => empty ((parts_last _ low).mp last)), parts, if_neg empty]
  rw [hextetHalves, empty_inside_gap]
  simp only [first, second]
  rw [if_neg]
  rintro (⟨head, filled⟩ | ⟨last, filled⟩ | long)
  · rw [(parts_head high _).mp head] at filled
    exact filled rfl
  · rw [(parts_last _ low).mp last] at filled
    exact filled rfl
  · rw [List.length_map, List.length_map] at long
    omega

theorem empty_inside_whole (filled : values ≠ []) :
    emptyInside (parts values) = [] := by
  apply List.filter_eq_nil_iff.mpr
  intro index member
  rw [decide_eq_true_eq]
  rintro ⟨_, within, empty⟩
  have inside : index < (parts values).length := by omega
  rw [List.getD_eq_getElem _ _ inside, List.isEmpty_iff] at empty
  exact parts_filled filled (empty ▸ List.getElem_mem inside)

/-! ### IPv6 -/

theorem hextet_parts_undotted {text : List Char} {found : List (List Char)}
    (split : splitOn ':' text = found) (long : 3 ≤ found.length) (short : text.length ≤ 45)
    (undotted : ∀ part ∈ found, '.' ∉ part) : hextetParts text = some found := by
  have filled : found ≠ [] := by
    rintro rfl
    exact absurd long (by decide)
  rw [hextetParts, split, if_neg (by omega), List.getLast?_eq_some_getLast filled]
  simp only
  rw [if_neg (undotted _ (List.getLast_mem filled))]

theorem parse_whole (size : values.length = 8) (fits : ∀ value ∈ values, value < 65536) :
    parseV6 (joinColons values) = some (BitVec.ofNat 128 (joinHextets values)) := by
  have filled : values ≠ [] := by
    rintro rfl
    cases size
  have lengths := parts_length values
  have text := join_colons_length fits
  have read : hextetParts (joinColons values) = some (parts values) :=
    hextet_parts_undotted (split_join_colons values) (by omega) (by omega) (parts_undotted values)
  have halves : hextetHalves (parts values) = some (values.map (Nat.toDigits 16), []) := by
    rw [hextetHalves, empty_inside_whole filled]
    simp only
    rw [if_pos (by omega), parts, if_neg filled]
  rw [parseV6, read]
  simp only [Option.bind_eq_bind, Option.bind_some]
  rw [if_neg (by omega), halves]
  simp [map_parse_hextet fits, size]

theorem parse_gap (short : high.length + low.length ≤ 7) (highFits : ∀ value ∈ high, value < 65536)
    (lowFits : ∀ value ∈ low, value < 65536) :
    parseV6 (joinColons high ++ ':' :: ':' :: joinColons low) =
      some (BitVec.ofNat 128 (joinHextets (high ++
        List.replicate (8 - (high.length + low.length)) 0 ++ low))) := by
  have split : splitOn ':' (joinColons high ++ ':' :: ':' :: joinColons low) =
      parts high ++ [] :: parts low := by
    rw [split_join_colons_append, splitOn, if_pos rfl, split_join_colons]
  have highLengths := parts_length high
  have lowLengths := parts_length low
  have highText := join_colons_length highFits
  have lowText := join_colons_length lowFits
  have read : hextetParts (joinColons high ++ ':' :: ':' :: joinColons low) =
      some (parts high ++ [] :: parts low) := by
    apply hextet_parts_undotted split
    · rw [List.length_append, List.length_cons]
      omega
    · rw [List.length_append, List.length_cons, List.length_cons]
      omega
    · intro part inside
      rcases List.mem_append.mp inside with before | after
      · exact parts_undotted high part before
      · rcases List.mem_cons.mp after with rfl | later
        · exact List.not_mem_nil
        · exact parts_undotted low part later
  have nine : ¬9 < (parts high ++ [] :: parts low).length := by
    rw [List.length_append, List.length_cons]
    omega
  rw [parseV6, read]
  simp only [Option.bind_eq_bind, Option.bind_some]
  rw [if_neg nine, hextet_halves_gap short]
  simp [map_parse_hextet highFits, map_parse_hextet lowFits]

/-! ### The longest run -/

theorem longest_zeros_run (values : List Nat) : (longestZeros values).2 =
    ((values.drop (longestZeros values).1).takeWhile (· = 0)).length ∨ (longestZeros values).2 = 0 := by
  unfold longestZeros
  apply List.foldlRecOn (motive := fun best : Nat × Nat =>
    best.2 = ((values.drop best.1).takeWhile (· = 0)).length ∨ best.2 = 0)
  · exact .inr rfl
  · intro best known start _
    dsimp only
    split
    · exact .inl rfl
    · exact known

theorem take_zeros (values : List Nat) : values.takeWhile (· = 0) =
    List.replicate (values.takeWhile (· = 0)).length 0 := by
  apply List.eq_replicate_of_mem
  intro value inside
  simpa using List.mem_takeWhile_imp inside

/-- The hextets are those before the run, zeros, and those after it. -/
theorem longest_zeros_split (long : 1 < (longestZeros values).2) :
    values.take (longestZeros values).1 ++ List.replicate (longestZeros values).2 0 ++
      values.drop ((longestZeros values).1 + (longestZeros values).2) = values := by
  rcases longest_zeros_run values with run | none
  · set start := (longestZeros values).1
    set count := (longestZeros values).2
    have zeros := take_zeros (values.drop start)
    rw [← run] at zeros
    have rest : (values.drop start).drop count = (values.drop start).dropWhile (· = 0) := by
      conv_lhs => rw [← @List.takeWhile_append_dropWhile _ (· = 0) (values.drop start), run]
      rw [List.drop_left]
    calc values.take start ++ List.replicate count 0 ++ values.drop (start + count)
        = values.take start ++ (List.replicate count 0 ++ (values.drop start).drop count) := by
          rw [List.drop_drop, List.append_assoc]
      _ = values.take start ++ values.drop start := by
          rw [rest, ← zeros, List.takeWhile_append_dropWhile]
      _ = values := List.take_append_drop _ _
  · omega

theorem parse_compressed {value : Nat} (fits : value < 2 ^ 128) :
    parseV6 (compressed value) = some (BitVec.ofNat 128 value) := by
  have size : (hextets value).length = 8 := rfl
  have bound := hextets_bound value
  rw [compressed]
  simp only
  split
  · rw [parse_whole size bound, join_hextets_hextets fits]
  · next long =>
      have split := longest_zeros_split (Nat.lt_of_not_le long)
      set start := (longestZeros (hextets value)).1
      set count := (longestZeros (hextets value)).2
      have lengths := congrArg List.length split
      rw [List.length_append, List.length_append, List.length_replicate, size] at lengths
      rw [parse_gap (by omega) (fun part inside => bound part (List.mem_of_mem_take inside))
        fun part inside => bound part (List.mem_of_mem_drop inside)]
      have gap : 8 - (((hextets value).take start).length +
          ((hextets value).drop (start + count)).length) = count := by omega
      rw [gap, split, join_hextets_hextets fits]

theorem compressed_undotted (value : Nat) : '.' ∉ compressed value := by
  rw [compressed]
  simp only
  split
  · exact join_colons_undotted _
  · simp [join_colons_undotted]

theorem dotted_has_dot (value : Nat) : '.' ∈ dotted value := by simp [dotted]

theorem dotted_length {value : Nat} : (dotted value).length ≤ 15 := by
  have short : ∀ part, (Nat.toDigits 10 (part % 256)).length ≤ 3 := fun part =>
    (Nat.length_toDigits_le_iff (by decide) (by decide)).mpr
      (lt_trans (Nat.mod_lt _ (by decide)) (by decide))
  have first := short (value / 2 ^ 24)
  have second := short (value / 2 ^ 16)
  have third := short (value / 2 ^ 8)
  have fourth := short value
  simp only [dotted, List.length_append, List.length_cons]
  omega

theorem split_mapped (value : Nat) : splitOn ':' ("::ffff:".toList ++ dotted value) =
    [[], [], "ffff".toList, dotted value] := by
  have shape : "::ffff:".toList ++ dotted value =
      ':' :: ':' :: ("ffff".toList ++ ':' :: dotted value) := rfl
  rw [shape, splitOn, if_pos rfl, splitOn, if_pos rfl, split_on_append (by decide),
    split_on_whole (dotted_uncolonned value)]

/-- The dotted part stands for two hextets. -/
theorem parse_mapped {value : Nat} (fits : value < 2 ^ 32) :
    parseV6 ("::ffff:".toList ++ dotted value) =
      some (BitVec.ofNat 128 (0xffff * 2 ^ 32 + value)) := by
  have size := @dotted_length value
  have low : value % 65536 < 65536 := Nat.mod_lt _ (by decide)
  have high : value / 65536 < 65536 := by omega
  have read : hextetParts ("::ffff:".toList ++ dotted value) =
      some [[], [], "ffff".toList, Nat.toDigits 16 (value / 65536),
        Nat.toDigits 16 (value % 65536)] := by
    have short : ¬([[], [], "ffff".toList, dotted value].length < 3 ∨ 45 < ("::ffff:".toList ++ dotted value).length) := by
      simp
      omega
    rw [hextetParts, split_mapped, if_neg short]
    simp only [List.getLast?_cons_cons, List.getLast?_singleton, List.dropLast_cons_cons,
      List.dropLast_singleton]
    rw [if_pos (dotted_has_dot value), parse_dotted fits]
    simp only [BitVec.toNat_ofNat, Nat.mod_eq_of_lt fits, List.cons_append, List.nil_append]
  have filled : ∀ part, Nat.toDigits 16 part ≠ [] := fun part => Nat.toDigits_ne_nil
  have halves : hextetHalves [[], [], "ffff".toList, Nat.toDigits 16 (value / 65536),
      Nat.toDigits 16 (value % 65536)] = some ([], ["ffff".toList,
        Nat.toDigits 16 (value / 65536), Nat.toDigits 16 (value % 65536)]) := by
    have gap := @hextet_halves_gap [] [0xffff, value / 65536, value % 65536] (by simp)
    exact gap
  have texts : ["ffff".toList, Nat.toDigits 16 (value / 65536),
      Nat.toDigits 16 (value % 65536)].mapM parseHextet =
        some [0xffff, value / 65536, value % 65536] := by
    apply @map_parse_hextet [0xffff, value / 65536, value % 65536]
    simp [low, high]
  have joined : joinHextets ([] ++ List.replicate (8 - (0 + 3)) 0 ++
      [0xffff, value / 65536, value % 65536]) = 0xffff * 2 ^ 32 + value := by
    simp [joinHextets, List.replicate]
    omega
  rw [parseV6, read]
  simp only [Option.bind_eq_bind, Option.bind_some]
  rw [if_neg (by simp), halves]
  simp only [Option.bind_some, texts, List.mapM_nil, Option.pure_def, List.length_nil,
    List.length_cons]
  rw [joined]

/-! ### Both families -/

theorem parse_v4_compressed (value : Nat) : parseV4 (compressed value) = none := by
  rw [parseV4, split_on_whole (compressed_undotted value)]

theorem parse_v4_mapped (value : Nat) : parseV4 ("::ffff:".toList ++ dotted value) = none := by
  have split : splitOn '.' ("::ffff:".toList ++ dotted value) =
      ("::ffff:".toList ++ Nat.toDigits 10 (value / 2 ^ 24 % 256)) ::
        [Nat.toDigits 10 (value / 2 ^ 16 % 256), Nat.toDigits 10 (value / 2 ^ 8 % 256),
          Nat.toDigits 10 (value % 256)] := by
    rw [dotted, ← List.append_assoc, split_on_append (by simp [octet_undotted]),
      split_on_append (octet_undotted _), split_on_append (octet_undotted _),
      split_on_whole (octet_undotted _)]
  have refused : parseOctet ("::ffff:".toList ++ Nat.toDigits 10 (value / 2 ^ 24 % 256)) = none := by
    rw [parseOctet, if_pos (.inr (.inl (by simp)))]
  rw [parseV4, split]
  simp only [refused, Option.bind_eq_bind, Option.bind_none]

theorem ip_address_text (address : Address) : ipAddress address.text = some address := by
  cases address with
  | v4 value =>
    rw [Address.text, ipAddress, String.toList_ofList, parse_dotted value.isLt]
    simp
  | v6 value =>
    rw [Address.text]
    cases shape : mappedV4 value with
    | none =>
      simp only
      rw [ipAddress, String.toList_ofList, parse_v4_compressed, parse_compressed value.isLt]
      simp
    | some mapped =>
      have inside : value.toNat / 2 ^ 32 = 0xffff ∧ BitVec.ofNat 32 value.toNat = mapped := by
        unfold mappedV4 at shape
        split at shape
        · next found => exact ⟨found, Option.some.inj shape⟩
        · cases shape
      obtain ⟨front, rfl⟩ := inside
      have whole : 0xffff * 2 ^ 32 + (BitVec.ofNat 32 value.toNat).toNat = value.toNat := by
        rw [BitVec.toNat_ofNat]
        omega
      simp only
      rw [ipAddress, String.toList_ofList, parse_v4_mapped, parse_mapped (BitVec.isLt _), whole]
      simp

theorem address_text_unscoped (address : Address) : '%' ∉ address.text.toList := by
  have digits : ∀ value, '%' ∉ Nat.toDigits 10 value := by
    intro value inside
    have digit := Nat.isDigit_of_mem_toDigits (by decide) (by decide) inside
    revert digit
    decide
  have dots : ∀ value, '%' ∉ dotted value := fun value => by simp [dotted, digits]
  have hexadecimal : ∀ value, '%' ∉ Nat.toDigits 16 value := by
    intro value inside
    have checked : ∀ digit < 16, Nat.digitChar digit ≠ '%' := by decide
    obtain ⟨digit, bound, same⟩ := digits_members (by decide) value '%' inside
    exact checked digit bound same.symm
  have colons : ∀ values, '%' ∉ joinColons values := by
    intro values
    induction values with
    | nil => exact List.not_mem_nil
    | cons first rest induction =>
      cases rest with
      | nil => exact hexadecimal first
      | cons second rest =>
        rw [joinColons]
        simp [hexadecimal, induction]
  cases address with
  | v4 value =>
    rw [Address.text, String.toList_ofList]
    exact dots value.toNat
  | v6 value =>
    rw [Address.text]
    cases mappedV4 value with
    | none =>
      simp only [String.toList_ofList, compressed]
      split
      · exact colons _
      · simp [colons]
    | some mapped =>
      simp only [String.toList_ofList, List.mem_append, not_or]
      exact ⟨by decide, dots mapped.toNat⟩

end Atlaso.Library.AddressTexts
