import Atlaso.Dns.GeneratedProjection
import Atlaso.Library.Outcomes
import Mathlib.Data.Bool.AllAny

/-!
What a refreshed authority does to one line: a serial moves on, networks join a zone, and
everything else stays as it is.
-/

namespace Atlaso.Dns.AuthorityLines

open Library TextFields IpAddress KeptLines LineText Outcomes
open GeneratedProjection

/-! ### Decimal numerals -/

variable {c : Char} {line directive refreshed before : List Char} {count : Nat}

theorem digit_bounds (digit : c.isDigit = true) : 48 ≤ c.toNat ∧ c.toNat ≤ 57 := by
  simp only [Char.isDigit, ge_iff_le, Bool.and_eq_true, decide_eq_true_eq] at digit
  exact ⟨digit.1, digit.2⟩

theorem digit_values : ∀ code < 58, 48 ≤ code →
    decimalValue (Char.ofNat code) = some (code - 48) ∧
      isWhitespace (Char.ofNat code) = false := by
  decide

theorem decimal_value_digit (digit : c.isDigit = true) :
    decimalValue c = some (c.toNat - 48) := by
  obtain ⟨low, high⟩ := digit_bounds digit
  have read := (digit_values c.toNat (by omega) low).1
  rwa [Char.ofNat_toNat] at read

theorem digit_not_space (digit : c.isDigit = true) : isWhitespace c = false := by
  obtain ⟨low, high⟩ := digit_bounds digit
  have plain := (digit_values c.toNat (by omega) low).2
  rwa [Char.ofNat_toNat] at plain

theorem read_decimals_digits {text : List Char} (some : text ≠ [])
    (digits : ∀ c ∈ text, c.isDigit = true) :
    readDecimals text = .some (text.map fun c => c.toNat - 48) := by
  induction text with
  | nil => exact absurd rfl some
  | cons c rest induction =>
    have first := decimal_value_digit (digits c List.mem_cons_self)
    cases rest with
    | nil =>
      rw [readDecimals, first]
      rfl
    | cons next more =>
      have second := digits next (List.mem_cons_of_mem _ List.mem_cons_self)
      have plain : next ≠ '_' := by
        rintro rfl
        exact absurd second (by decide)
      have later := induction (List.cons_ne_nil _ _)
        fun d inside => digits d (List.mem_cons_of_mem _ inside)
      rw [readDecimals.eq_4 c (next :: more) (fun empty => List.cons_ne_nil _ _ empty)
        (by rintro tail equal; exact plain (List.cons.inj equal).1), first, later]
      rfl

theorem digits_value (text : List Char) (start : Nat) :
    ((text.map fun c => c.toNat - 48).flatMap fun (digit : Nat) => [(digit : Int)]).foldl
      (fun value digit => value * 10 + digit) (start : Int) =
        (Nat.ofDigitChars 10 text start : Int) := by
  induction text generalizing start with
  | nil => rfl
  | cons c text induction =>
    rw [List.map_cons, List.flatMap_cons, List.singleton_append, List.foldl_cons,
      Nat.ofDigitChars_cons, ← induction]
    congr 1
    push_cast
    ring_nf

theorem to_digits_digits (value : Nat) : ∀ c ∈ Nat.toDigits 10 value, c.isDigit = true :=
  fun _ inside => Nat.isDigit_of_mem_toDigits (by decide) (by decide) inside

theorem int_of_digits (value : Nat) (small : value < 2 ^ 32) :
    intOfText (Nat.toDigits 10 value) = some (value : Int) := by
  have digits := to_digits_digits value
  have some : Nat.toDigits 10 value ≠ [] := Nat.toDigits_ne_nil
  have short : (Nat.toDigits 10 value).length ≤ 10 :=
    (Nat.length_toDigits_le_iff (by decide) (by decide)).mpr (by omega)
  have stripped := strip_plain fun c inside => digit_not_space (digits c inside)
  have read := read_decimals_digits some digits
  have parsed := Nat.ofDigitChars_ten_toDigits (n := value)
  have folded := digits_value (Nat.toDigits 10 value) 0
  rw [parsed] at folded
  obtain ⟨head, tail, shape⟩ := List.exists_cons_of_ne_nil some
  have digit := digits head (by rw [shape]; exact List.mem_cons_self)
  have minus : head ≠ '-' := by rintro rfl; exact absurd digit (by decide)
  have plus : head ≠ '+' := by rintro rfl; exact absurd digit (by decide)
  rw [intOfText, stripped]
  rw [shape] at read short folded ⊢
  have wide : ¬4300 < ((head :: tail).map fun c => c.toNat - 48).length := by
    rw [List.length_map]
    omega
  split
  rename_i negative numeral signed
  have positive : (false, head :: tail) = (negative, numeral) := by
    rw [← signed]
    split
    · rename_i equal
      exact absurd (List.cons.inj equal).1 minus
    · rename_i equal
      exact absurd (List.cons.inj equal).1 plus
    · rfl
  obtain ⟨rfl, rfl⟩ := Prod.mk.inj positive
  rw [read, Option.bind_eq_bind, Option.bind_some, if_neg wide]
  simpa using folded

/-! ### Fields -/

variable {separator : Char} {body ending zone : List Char}

theorem partition_found {front : List Char} (rest : List Char) (absent : separator ∉ front) :
    partition separator (front ++ separator :: rest) = (front, some rest) := by
  have plain : ∀ c ∈ front, decide (c ≠ separator) = true := by
    intro c inside
    exact decide_eq_true fun equal => absent (equal ▸ inside)
  rw [partition, List.dropWhile_append_of_pos plain, List.takeWhile_append_of_pos plain]
  simp

theorem after_equals {name : List Char} (rest : List Char) (absent : '=' ∉ name) :
    afterEquals (name ++ '=' :: rest) = rest := by
  rw [afterEquals, partition_found rest absent]
  rfl

theorem split_at_nonempty (separator : Char) (text : List Char) :
    splitAt separator text ≠ [] := by
  cases text with
  | nil => exact List.cons_ne_nil _ _
  | cons c rest =>
    unfold splitAt
    split
    · exact List.cons_ne_nil _ _
    · split <;> exact List.cons_ne_nil _ _

theorem join_split (text : List Char) : joinCommas (splitAt ',' text) = text := by
  induction text with
  | nil => rfl
  | cons c rest induction =>
    obtain ⟨first, others, shape⟩ :=
      List.exists_cons_of_ne_nil (split_at_nonempty ',' rest)
    rw [shape] at induction
    unfold splitAt
    by_cases comma : c = ','
    · rw [if_pos comma, shape, joinCommas, List.nil_append, induction, comma]
    · rw [if_neg comma, shape]
      cases others with
      | nil => exact congrArg (c :: ·) induction
      | cons next more => exact congrArg (c :: ·) induction

theorem join_append {fields : List (List Char)} (some : fields ≠ []) (added : List (List Char)) :
    joinCommas (fields ++ added) =
      joinCommas fields ++ added.flatMap fun field => ',' :: field := by
  have single : ∀ field : List Char, joinCommas (field :: added) =
      field ++ added.flatMap fun field => ',' :: field := by
    intro field
    induction added generalizing field with
    | nil => exact (List.append_nil field).symm
    | cons next more induction => rw [joinCommas, induction next, List.flatMap_cons,
        List.cons_append]
  induction fields with
  | nil => exact absurd rfl some
  | cons field rest induction =>
    cases rest with
    | nil => exact single field
    | cons next more =>
      rw [List.cons_append, List.cons_append, joinCommas, joinCommas, ← List.cons_append,
        induction (List.cons_ne_nil _ _), List.append_assoc, List.cons_append]

/-! ### Texts without a line boundary -/

theorem digit_char_unbroken : ∀ digit < 16, isBoundary (Nat.digitChar digit) = false := by
  decide

theorem to_digits_unbroken (base value : Nat) (positive : 0 < base) (small : base ≤ 16) :
    Unbroken (Nat.toDigits base value) := by
  have core : ∀ (fuel value : Nat) (tail : List Char), Unbroken tail →
      Unbroken (Nat.toDigitsCore base fuel value tail) := by
    intro fuel
    induction fuel with
    | zero => exact fun value tail plain => plain
    | succ fuel induction =>
      intro value tail plain
      have bound : value % base < 16 := lt_of_lt_of_le (Nat.mod_lt value positive) small
      have longer : Unbroken (Nat.digitChar (value % base) :: tail) := by
        intro c inside
        rcases List.mem_cons.mp inside with rfl | later
        · exact digit_char_unbroken _ bound
        · exact plain c later
      rw [Nat.toDigitsCore]
      split
      · exact longer
      · exact induction _ _ longer
  exact core _ value [] fun c inside => absurd inside List.not_mem_nil

theorem unbroken_cons {text : List Char} (plain : isBoundary c = false) (rest : Unbroken text) :
    Unbroken (c :: text) := by
  intro d inside
  rcases List.mem_cons.mp inside with rfl | later
  · exact plain
  · exact rest d later

theorem dotted_unbroken (value : Nat) : Unbroken (dotted value) := by
  have digits := fun part => to_digits_unbroken 10 part (by decide) (by decide)
  exact unbroken_append (digits _) (unbroken_cons (by decide) (unbroken_append (digits _)
    (unbroken_cons (by decide) (unbroken_append (digits _) (unbroken_cons (by decide)
      (digits _))))))

theorem join_colons_unbroken (values : List Nat) : Unbroken (joinColons values) := by
  induction values with
  | nil => exact fun c inside => absurd inside List.not_mem_nil
  | cons first rest induction =>
    cases rest with
    | nil => exact to_digits_unbroken 16 first (by decide) (by decide)
    | cons second more =>
      exact unbroken_append (to_digits_unbroken 16 first (by decide) (by decide))
        (unbroken_cons (by decide) induction)

theorem address_text_unbroken (address : Address) : Unbroken address.text.toList := by
  cases address with
  | v4 value =>
    rw [Address.text, String.toList_ofList]
    exact dotted_unbroken value.toNat
  | v6 value =>
    rw [Address.text]
    split
    · rw [String.toList_ofList]
      have mapped : ∀ c ∈ "::ffff:".toList, isBoundary c = false :=
        List.all_iff_forall_prop.mp (by decide)
      exact unbroken_append mapped (dotted_unbroken _)
    · rw [String.toList_ofList, compressed]
      split
      split
      · exact join_colons_unbroken _
      · exact unbroken_append (join_colons_unbroken _)
          (unbroken_cons (by decide) (unbroken_cons (by decide) (join_colons_unbroken _)))

theorem partition_rest_subset {text rest : List Char}
    (found : (partition separator text).2 = some rest) : ∀ c ∈ rest, c ∈ text := by
  intro c inside
  unfold partition at found
  split at found
  · cases found
  · rename_i first later shape
    cases found
    have tail : c ∈ text.dropWhile (· ≠ separator) := by
      rw [shape]
      exact List.mem_cons_of_mem _ inside
    exact (List.dropWhile_sublist _).subset tail

theorem network_text_unbroken {text : List Char} {located : ScopedAddress}
    (unbroken : Unbroken text) (read : readAddress text = some located) :
    Unbroken (networkText located) := by
  have behind : Unbroken (scopeText located.scope) := by
    unfold readAddress at read
    split at read
    · cases read
      exact fun c inside => absurd inside List.not_mem_nil
    · split at read
      · cases read
      · obtain ⟨value, _, rfl⟩ := Option.map_eq_some_iff.mp read
        show Unbroken (scopeText (partition '%' text).2)
        cases found : (partition '%' text).2 with
        | none => exact fun c inside => absurd inside List.not_mem_nil
        | some scope =>
          exact unbroken_cons (by decide) fun c inside =>
            unbroken c (partition_rest_subset found c inside)
  exact unbroken_append (unbroken_append (address_text_unbroken _) behind)
    (unbroken_cons (by decide) (to_digits_unbroken 10 _ (by decide) (by decide)))

/-! ### Values and wrappers -/

theorem prefix_head {start text : List Char} (begins : (c :: start).isPrefixOf text = true) :
    text.head? = some c := by
  obtain ⟨rest, rfl⟩ := List.isPrefixOf_iff_prefix.mp begins
  rfl

theorem line_value_parts (unbroken : Unbroken body) (newlines : ∀ c ∈ ending, c = '\r' ∨ c = '\n') :
    lineValue (body ++ ending) = body := by
  have dropped : ∀ c ∈ ending.reverse,
      (decide (c = '\r') || decide (c = '\n')) = true := by
    intro c inside
    rw [Bool.or_eq_true, decide_eq_true_eq, decide_eq_true_eq]
    exact newlines c (List.mem_reverse.mp inside)
  have staying : body.reverse.dropWhile (fun c => decide (c = '\r') || decide (c = '\n')) =
      body.reverse := by
    refine List.dropWhile_eq_self_iff.mpr fun bound => ?_
    have plain := unbroken _ (List.mem_reverse.mp (List.getElem_mem bound))
    rw [Bool.or_eq_true, decide_eq_true_eq, decide_eq_true_eq]
    rintro (carriage | newline)
    · rw [carriage] at plain
      exact absurd plain (by decide)
    · rw [newline] at plain
      exact absurd plain (by decide)
  rw [lineValue, List.rdropWhile, List.reverse_append, List.dropWhile_append_of_pos dropped,
    staying, List.reverse_reverse]

theorem line_value_ending (line : List Char) :
    ∃ ending, line = lineValue line ++ ending ∧ ∀ c ∈ ending, c = '\r' ∨ c = '\n' := by
  refine ⟨(line.reverse.takeWhile fun c => decide (c = '\r') || decide (c = '\n')).reverse,
    ?_, ?_⟩
  · rw [lineValue, List.rdropWhile, ← List.reverse_append, List.takeWhile_append_dropWhile,
      List.reverse_reverse]
  · intro c inside
    have newline := List.mem_takeWhile_imp (List.mem_reverse.mp inside)
    rwa [Bool.or_eq_true, decide_eq_true_eq, decide_eq_true_eq] at newline

/-- A line closed by a newline, by a carriage return and a newline, or not at all. -/
def Tidy (line : List Char) : Prop := lineEnding line ∈ [[], ['\n'], ['\r', '\n']]

theorem tidy_ending (tidy : Tidy line) :
    ∀ c ∈ lineEnding line, c = '\r' ∨ c = '\n' := by
  intro c inside
  rcases List.mem_cons.mp tidy with none | tidy
  · rw [none] at inside
    exact absurd inside List.not_mem_nil
  · rcases List.mem_cons.mp tidy with newline | tidy
    · rw [newline] at inside
      exact .inr (List.mem_singleton.mp inside)
    · rw [List.mem_singleton.mp tidy] at inside
      simpa using inside

theorem tidy_value (tidy : Tidy line) : lineValue line = lineBody line := by
  have read := line_value_parts (body_unbroken line) (tidy_ending tidy)
  rwa [body_ending] at read

theorem tidy_of_parts (unbroken : Unbroken body) (ends : ending ∈ [[], ['\n'], ['\r', '\n']]) :
    Tidy (body ++ ending) := by
  have shape : ending = [] ∨ IsEnding ending := by
    rcases List.mem_cons.mp ends with none | ends
    · exact .inl none
    · rcases List.mem_cons.mp ends with newline | ends
      · exact .inr (.inr ⟨'\n', rfl, newline⟩)
      · exact .inr (.inl (List.mem_singleton.mp ends))
  rw [Tidy, (body_of_parts unbroken shape).2]
  exact ends

theorem split_authoritative_append (value : List Char) :
    (splitAuthoritative value).1 ++ (splitAuthoritative value).2 = value := by
  unfold splitAuthoritative
  by_cases wrapped : authoritativePrefix.isPrefixOf value = true
  · rw [if_pos wrapped]
    obtain ⟨rest, rfl⟩ := List.isPrefixOf_iff_prefix.mp wrapped
    rw [List.drop_left]
  · rw [if_neg wrapped, List.nil_append]

/-- Another directive behind the same wrapper is read back, unless it looks like a comment. -/
theorem split_authoritative_other (value : List Char) (plain : directive.head? ≠ some '#') :
    splitAuthoritative ((splitAuthoritative value).1 ++ directive) =
      ((splitAuthoritative value).1, directive) := by
  by_cases wrapped : authoritativePrefix.isPrefixOf value = true
  · have first : (splitAuthoritative value).1 = authoritativePrefix := by
      rw [splitAuthoritative, if_pos wrapped]
    have again : authoritativePrefix.isPrefixOf (authoritativePrefix ++ directive) = true :=
      List.isPrefixOf_iff_prefix.mpr (List.prefix_append _ _)
    rw [first, splitAuthoritative, if_pos again, List.drop_left]
  · have first : (splitAuthoritative value).1 = [] := by
      rw [splitAuthoritative, if_neg wrapped]
    have bare : ¬authoritativePrefix.isPrefixOf directive = true :=
      fun begins => plain (prefix_head begins)
    rw [first, List.nil_append, splitAuthoritative, if_neg bare]

/-! ### Serials -/

theorem soa_shape {serial remainder : List Char}
    (fields : soaFields directive = some (serial, remainder)) :
    directive.head? = some 'a' ∧ (∀ c ∈ remainder, c ∈ directive) := by
  unfold soaFields at fields
  split at fields
  · rename_i begins
    refine ⟨prefix_head begins, ?_⟩
    split at fields
    · rename_i front rest shape
      split at fields
      · cases fields
        intro c inside
        have middle := partition_rest_subset (congrArg Prod.snd shape) c inside
        unfold afterEquals at middle
        cases found : (partition '=' directive).2 with
        | none =>
          rw [found] at middle
          exact absurd middle List.not_mem_nil
        | some rest =>
          rw [found] at middle
          exact partition_rest_subset found c middle
      · cases fields
    · cases fields
  · cases fields

theorem starts_append (start rest : List Char) : start.isPrefixOf (start ++ rest) = true :=
  List.isPrefixOf_iff_prefix.mpr (List.prefix_append start rest)

theorem soa_directive_append (serial : Nat) (remainder : List Char) :
    soaDirective serial remainder =
      "auth-soa=".toList ++ (Nat.toDigits 10 serial ++ ',' :: remainder) :=
  List.append_assoc _ _ _

theorem soa_fields_directive (serial : Nat) (remainder : List Char) :
    soaFields (soaDirective serial remainder) = some (Nat.toDigits 10 serial, remainder) := by
  have digits := to_digits_digits serial
  have begins : "auth-soa=".toList.isPrefixOf (soaDirective serial remainder) = true := by
    rw [soa_directive_append]
    exact starts_append _ _
  have behind : afterEquals (soaDirective serial remainder) =
      Nat.toDigits 10 serial ++ ',' :: remainder := by
    have named : "auth-soa=".toList = "auth-soa".toList ++ ['='] := by decide
    rw [soa_directive_append, named, List.append_assoc]
    exact after_equals _ (by decide)
  have comma : ',' ∉ Nat.toDigits 10 serial := fun inside =>
    absurd (digits ',' inside) (by decide)
  have decimal : isDecimal (Nat.toDigits 10 serial) = true := by
    rw [isDecimal, Bool.and_eq_true]
    refine ⟨?_, List.all_eq_true.mpr fun c inside => ?_⟩
    · rw [Bool.not_eq_true', List.isEmpty_eq_false_iff]
      exact Nat.toDigits_ne_nil
    · rw [decimal_value_digit (digits c inside)]
      rfl
  rw [soaFields, if_pos begins, behind, partition_found remainder comma]
  exact if_pos decimal

/-- A directive after its serial has moved on by `count`. -/
def advanceDirective (count : Nat) (directive : List Char) : List Char :=
  match soaFields directive with
  | none => directive
  | some (serial, remainder) =>
    match intOfText serial with
    | none => directive
    | some value => soaDirective ((value + count) % 2 ^ 32).toNat remainder

theorem refresh_soa (done : refreshSoa directive = .ok refreshed) :
    refreshed = advanceDirective 1 directive := by
  unfold refreshSoa at done
  unfold advanceDirective
  cases fields : soaFields directive with
  | none =>
    rw [fields] at done
    exact (Except.ok.inj done).symm
  | some pair =>
    obtain ⟨serial, remainder⟩ := pair
    simp only [fields] at done ⊢
    cases read : intOfText serial with
    | none =>
      rw [read] at done
      cases done
    | some value =>
      rw [read] at done
      exact (Except.ok.inj done).symm

theorem advance_again (count : Nat) (directive : List Char) :
    advanceDirective 1 (advanceDirective (count + 1) directive) =
      advanceDirective (count + 2) directive := by
  cases fields : soaFields directive with
  | none => simp only [advanceDirective, fields]
  | some pair =>
    obtain ⟨serial, remainder⟩ := pair
    cases read : intOfText serial with
    | none => simp only [advanceDirective, fields, read]
    | some value =>
      have small : ((value + (count + 1 : Nat)) % 2 ^ 32).toNat < 2 ^ 32 := by omega
      have numeral := int_of_digits _ small
      simp only [advanceDirective, fields, read, soa_fields_directive, numeral]
      congr 1
      omega

theorem advance_head (count : Nat) (directive : List Char) :
    (advanceDirective count directive).head? = directive.head? := by
  unfold advanceDirective
  cases fields : soaFields directive with
  | none => rfl
  | some pair =>
    obtain ⟨serial, remainder⟩ := pair
    dsimp only
    cases intOfText serial with
    | none => rfl
    | some value => exact (soa_shape fields).1.symm

theorem advance_unbroken (unbroken : Unbroken directive) :
    Unbroken (advanceDirective count directive) := by
  unfold advanceDirective
  cases fields : soaFields directive with
  | none => exact unbroken
  | some pair =>
    obtain ⟨serial, remainder⟩ := pair
    dsimp only
    cases intOfText serial with
    | none => exact unbroken
    | some value =>
      have front : ∀ c ∈ "auth-soa=".toList, isBoundary c = false :=
        List.all_iff_forall_prop.mp (by decide)
      have digits := to_digits_unbroken 10 ((value + count) % 2 ^ 32).toNat
        (by decide) (by decide)
      exact unbroken_append (unbroken_append front digits)
        (unbroken_cons (by decide) fun c inside => unbroken c ((soa_shape fields).2 c inside))

/-! ### Zones -/

def Target (records : List Record) (field : List Char) : Prop :=
  ∃ record ∈ records, (record.recordType = "A" ∨ record.recordType = "AAAA") ∧
    ∃ text located, record.address = some text ∧ readAddress text.toList = some located ∧
      field = networkText located

theorem add_target_fields {state after : List Library.IpNetwork.Network × List (List Char)}
    {record : Record} (added : addTarget zone state record = .ok after) :
    after.2 = state.2 ∨ ∃ field, after.2 = state.2 ++ [field] ∧ Target [record] field := by
  unfold addTarget at added
  simp only at added
  split_ifs at added with other foreign
  · cases added
    exact .inl rfl
  · cases added
    exact .inl rfl
  · split at added
    · cases added
    · rename_i text known
      split at added
      · cases added
      · rename_i located read
        split_ifs at added
        · cases added
          exact .inl rfl
        · cases added
          refine .inr ⟨networkText located, rfl, record, List.mem_singleton_self _, ?_, text,
            located, known, read, rfl⟩
          by_contra neither
          rw [not_or] at neither
          exact other neither

theorem fold_targets {records : List Record}
    {state after : List Library.IpNetwork.Network × List (List Char)}
    (folded : records.foldlM (addTarget zone) state = .ok after) :
    ∃ added, after.2 = state.2 ++ added ∧ ∀ field ∈ added, Target records field := by
  induction records generalizing state with
  | nil =>
    cases folded
    exact ⟨[], (List.append_nil _).symm, fun field inside => absurd inside List.not_mem_nil⟩
  | cons record records induction =>
    rw [List.foldlM_cons] at folded
    obtain ⟨middle, first, folded⟩ := bind_ok_iff.mp folded
    obtain ⟨later, shape, targets⟩ := induction folded
    have wider : ∀ field ∈ later, Target (record :: records) field := by
      intro field inside
      obtain ⟨other, member, rest⟩ := targets field inside
      exact ⟨other, List.mem_cons_of_mem _ member, rest⟩
    rcases add_target_fields first with same | ⟨field, more, here⟩
    · exact ⟨later, by rw [shape, same], wider⟩
    · refine ⟨field :: later, by rw [shape, more, List.append_assoc]; rfl, ?_⟩
      intro other inside
      rcases List.mem_cons.mp inside with rfl | behind
      · obtain ⟨owner, member, rest⟩ := here
        rw [List.mem_singleton.mp member] at rest
        exact ⟨record, List.mem_cons_self, rest⟩
      · exact wider other behind

theorem refresh_zone {records : List Record} (zone : isZone directive = true)
    (done : refreshZone records directive = .ok refreshed) :
    ∃ added : List (List Char), (∀ field ∈ added, Target records field) ∧
      refreshed = directive ++ added.flatMap fun field => ',' :: field := by
  obtain ⟨rest, rfl⟩ := List.isPrefixOf_iff_prefix.mp zone
  have named : "auth-zone=".toList = "auth-zone".toList ++ ['='] := by decide
  have behind : afterEquals ("auth-zone=".toList ++ rest) = rest := by
    rw [named, List.append_assoc]
    exact after_equals _ (by decide)
  obtain ⟨networks, -, done⟩ := bind_ok_iff.mp done
  obtain ⟨state, folded, done⟩ := bind_ok_iff.mp done
  cases done
  obtain ⟨added, shape, targets⟩ := fold_targets folded
  refine ⟨added, targets, ?_⟩
  rw [List.nil_append] at shape
  rw [shape, behind, join_append (split_at_nonempty ',' rest), join_split, List.append_assoc]

/-! ### What stays of a line -/

/-- The value of a line after its serial has moved on by `count`. -/
def advance (count : Nat) (value : List Char) : List Char :=
  (splitAuthoritative value).1 ++ advanceDirective count (splitAuthoritative value).2

def isZoneValue (value : List Char) : Bool := isZone (splitAuthoritative value).2

/-- What the value of a line is after `count` refreshes: a zone has new networks behind it,
and every other value has its serial moved on. -/
def Kept (target : List Char → Prop) : Nat → List Char → List Char → Prop
  | 0, before, after => after = before
  | count + 1, before, after =>
    if isZoneValue before = true then
      ∃ added : List (List Char), (∀ field ∈ added, target field) ∧
        after = before ++ added.flatMap fun field => ',' :: field
    else after = advance (count + 1) before

theorem zone_head (zone : isZone directive = true) :
    directive.head? = some 'a' := prefix_head zone

theorem split_append {value : List Char} (zone : isZoneValue value = true) (rest : List Char) :
    splitAuthoritative (value ++ rest) =
      ((splitAuthoritative value).1, (splitAuthoritative value).2 ++ rest) := by
  have plain : ((splitAuthoritative value).2 ++ rest).head? ≠ some '#' := by
    rw [List.head?_append, zone_head zone]
    exact fun same => absurd (Option.some.inj same) (by decide)
  have whole := split_authoritative_other value plain
  rwa [← List.append_assoc, split_authoritative_append] at whole

theorem zone_value_append {value : List Char} (zone : isZoneValue value = true)
    (rest : List Char) : isZoneValue (value ++ rest) = true := by
  rw [isZoneValue, split_append zone]
  obtain ⟨tail, shape⟩ := List.isPrefixOf_iff_prefix.mp zone
  refine List.isPrefixOf_iff_prefix.mpr ⟨tail ++ rest, ?_⟩
  rw [← List.append_assoc, shape]

theorem split_advance (count : Nat) (value : List Char) :
    splitAuthoritative (advance count value) =
      ((splitAuthoritative value).1, advanceDirective count (splitAuthoritative value).2) := by
  unfold advance
  by_cases comment : (splitAuthoritative value).2.head? = some '#'
  · have same : advanceDirective count (splitAuthoritative value).2 =
        (splitAuthoritative value).2 := by
      unfold advanceDirective
      cases fields : soaFields (splitAuthoritative value).2 with
      | none => rfl
      | some pair =>
        rw [(soa_shape fields).1] at comment
        cases comment
    rw [same, split_authoritative_append]
  · exact split_authoritative_other value (by rwa [advance_head])

theorem advance_not_zone {value : List Char} (plain : isZoneValue value = false) :
    isZoneValue (advance count value) = false := by
  rw [isZoneValue, split_advance]
  unfold advanceDirective
  cases fields : soaFields (splitAuthoritative value).2 with
  | none => exact plain
  | some pair =>
    obtain ⟨serial, remainder⟩ := pair
    dsimp only
    cases intOfText serial with
    | none => exact plain
    | some number =>
      refine Bool.eq_false_iff.mpr fun zone => ?_
      obtain ⟨tail, shape⟩ := List.isPrefixOf_iff_prefix.mp zone
      dsimp only at shape
      rw [soa_directive_append] at shape
      have sixth := congrArg (fun text : List Char => text[5]?) shape
      simp at sixth

theorem kept_zone {target : List Char → Prop} {after : List Char}
    (zone : isZoneValue before = true) : Kept target (count + 1) before after ↔
      ∃ added : List (List Char), (∀ field ∈ added, target field) ∧
        after = before ++ added.flatMap fun field => ',' :: field := by
  simp only [Kept, if_pos zone]

theorem kept_other {target : List Char → Prop} {after : List Char}
    (plain : ¬isZoneValue before = true) : Kept target (count + 1) before after ↔
      after = advance (count + 1) before := by
  simp only [Kept, if_neg plain]

theorem kept_again {target : List Char → Prop} {middle after : List Char}
    (first : Kept target count before middle) (second : Kept target 1 middle after) :
    Kept target (count + 1) before after := by
  cases count with
  | zero =>
    have same : middle = before := first
    rwa [same] at second
  | succ count =>
    by_cases zone : isZoneValue before = true
    · obtain ⟨added, targets, rfl⟩ := (kept_zone zone).mp first
      obtain ⟨more, others, rfl⟩ := (kept_zone (zone_value_append zone _)).mp second
      refine (kept_zone zone).mpr ⟨added ++ more, fun field inside => ?_, ?_⟩
      · rcases List.mem_append.mp inside with here | there
        · exact targets field here
        · exact others field there
      · rw [List.flatMap_append, List.append_assoc]
    · have advanced := (kept_other zone).mp first
      have still := @advance_not_zone (count + 1) _ (Bool.eq_false_iff.mpr zone)
      rw [← advanced] at still
      have again := (kept_other (Bool.eq_false_iff.mp still)).mp second
      refine (kept_other zone).mpr ?_
      rw [again, advanced, advance, split_advance, advance_again, advance]

theorem kept_mono {target wider : List Char → Prop} {after : List Char}
    (kept : Kept target count before after) (more : ∀ field, target field → wider field) :
    Kept wider count before after := by
  cases count with
  | zero =>
    have same : after = before := kept
    exact same
  | succ count =>
    by_cases zone : isZoneValue before = true
    · obtain ⟨added, targets, shape⟩ := (kept_zone zone).mp kept
      exact (kept_zone zone).mpr
        ⟨added, fun field inside => more field (targets field inside), shape⟩
    · exact (kept_other zone).mpr ((kept_other zone).mp kept)

/-! ### Refreshed lines -/

theorem record_directive_head
    (record : (recordDirectivePrefixes.any fun start => start.isPrefixOf directive) = true) :
    directive ≠ [] ∧ directive.head? ≠ some 'a' ∧ directive.head? ≠ some '#' := by
  obtain ⟨start, inside, begins⟩ := List.any_eq_true.mp record
  obtain ⟨rest, rfl⟩ := List.isPrefixOf_iff_prefix.mp begins
  have heads : ∀ start ∈ recordDirectivePrefixes, start ≠ [] ∧ start.head? ≠ some 'a' ∧
      start.head? ≠ some '#' := by decide
  obtain ⟨some, first, second⟩ := heads start inside
  refine ⟨fun empty => some (List.append_eq_nil_iff.mp empty).1, ?_, ?_⟩
  · rwa [List.head?_append_of_ne_nil _ some]
  · rwa [List.head?_append_of_ne_nil _ some]

theorem line_value_drop (line : List Char) :
    lineValue line ++ line.drop (lineValue line).length = line := by
  obtain ⟨ending, whole, -⟩ := line_value_ending line
  exact List.prefix_iff_eq_append.mp ⟨ending, whole.symm⟩

theorem refresh_line_ok {records : List Record} {after : List Char}
    (done : refreshLine records line = .ok after) :
    ∃ refreshed, refreshDirective records (splitAuthoritative (lineValue line)).2 =
        .ok refreshed ∧
      after = (splitAuthoritative (lineValue line)).1 ++ refreshed ++
        line.drop (lineValue line).length := by
  obtain ⟨refreshed, changed, result⟩ := bind_ok_iff.mp done
  exact ⟨refreshed, changed, (Except.ok.inj result).symm⟩

/-- A directive that is refreshed keeps its first character; it is a zone with networks
behind it, or has its serial moved on by one. -/
theorem refresh_directive {records : List Record}
    (done : refreshDirective records directive = .ok refreshed) :
    (isZone directive = true ∧ ∃ added : List (List Char),
        (∀ field ∈ added, Target records field) ∧
          refreshed = directive ++ added.flatMap fun field => ',' :: field) ∨
      (isZone directive = false ∧ refreshed = advanceDirective 1 directive) := by
  unfold refreshDirective at done
  by_cases zone : isZone directive = true
  · rw [if_pos zone] at done
    exact .inl ⟨zone, refresh_zone zone done⟩
  · rw [if_neg zone] at done
    exact .inr ⟨Bool.eq_false_iff.mpr zone, refresh_soa done⟩

theorem advance_other (other : directive.head? ≠ some 'a') :
    advanceDirective count directive = directive := by
  unfold advanceDirective
  cases fields : soaFields directive with
  | none => rfl
  | some pair => exact absurd (soa_shape fields).1 other

theorem refresh_record_line {records : List Record} {after : List Char}
    (record : unwrapAuthoritativeLine line = some directive)
    (done : refreshLine records line = .ok after) : after = line := by
  have starts : (recordDirectivePrefixes.any fun start =>
      start.isPrefixOf (splitAuthoritative (lineValue line)).2) = true := by
    unfold unwrapAuthoritativeLine at record
    simp only at record
    split_ifs at record with starts
    exact starts
  obtain ⟨-, other, -⟩ := record_directive_head starts
  obtain ⟨refreshed, changed, rfl⟩ := refresh_line_ok done
  have same : refreshed = (splitAuthoritative (lineValue line)).2 := by
    rcases refresh_directive changed with ⟨zone, -⟩ | ⟨-, advanced⟩
    · exact absurd (zone_head zone) other
    · rw [advanced, advance_other other]
  rw [same, split_authoritative_append, line_value_drop]

theorem targets_unbroken {records : List Record}
    (addresses : ∀ record ∈ records, Unbroken (record.address.getD "").toList)
    {added : List (List Char)} (targets : ∀ field ∈ added, Target records field) :
    Unbroken (added.flatMap fun field => ',' :: field) := by
  intro c inside
  obtain ⟨field, member, among⟩ := List.mem_flatMap.mp inside
  obtain ⟨record, belongs, -, text, located, known, read, rfl⟩ := targets field member
  have unbroken := addresses record belongs
  rw [known] at unbroken
  rcases List.mem_cons.mp among with rfl | later
  · decide
  · exact network_text_unbroken unbroken read c later

theorem unwrap_of_head (head : (splitAuthoritative (lineValue line)).2.head? = some 'a') :
    unwrapAuthoritativeLine line = none := by
  unfold unwrapAuthoritativeLine
  simp only
  refine if_neg fun record => ?_
  exact (record_directive_head record).2.1 head

theorem refresh_tidy_line {records : List Record} {after : List Char} (tidy : Tidy line)
    (addresses : ∀ record ∈ records, Unbroken (record.address.getD "").toList)
    (done : refreshLine records line = .ok after) :
    Reworded line after ∧ Tidy after ∧
      Kept (Target records) 1 (lineValue line) (lineValue after) ∧
        (unwrapAuthoritativeLine line = none → unwrapAuthoritativeLine after = none) := by
  have value := tidy_value tidy
  have unbroken := body_unbroken line
  have rest : line.drop (lineValue line).length = lineEnding line := by
    have whole := (line_value_drop line).trans (body_ending line).symm
    rw [value] at whole ⊢
    exact List.append_cancel_left whole
  obtain ⟨refreshed, changed, shape⟩ := refresh_line_ok done
  rw [rest] at shape
  have parts := split_authoritative_append (lineValue line)
  rw [← value, ← parts] at unbroken
  have wrapper := unbroken_left unbroken
  have directive := unbroken_right unbroken
  have head : refreshed.head? = (splitAuthoritative (lineValue line)).2.head? := by
    rcases refresh_directive changed with ⟨zone, added, -, rfl⟩ | ⟨-, rfl⟩
    · rw [List.head?_append, zone_head zone]
      rfl
    · exact advance_head 1 _
  have clean : Unbroken refreshed := by
    rcases refresh_directive changed with ⟨zone, added, targets, rfl⟩ | ⟨-, rfl⟩
    · exact unbroken_append directive (targets_unbroken addresses targets)
    · exact advance_unbroken directive
  have body : Unbroken ((splitAuthoritative (lineValue line)).1 ++ refreshed) :=
    unbroken_append wrapper clean
  have valueAfter : lineValue after = (splitAuthoritative (lineValue line)).1 ++ refreshed := by
    rw [shape]
    exact line_value_parts body (tidy_ending tidy)
  refine ⟨⟨_, body, ?_, shape⟩, ?_, ?_, ?_⟩
  · rw [List.head?_append, head, ← List.head?_append, parts, value]
  · rw [shape]
    exact tidy_of_parts body tidy
  · rw [valueAfter]
    rcases refresh_directive changed with ⟨zone, added, targets, rfl⟩ | ⟨other, rfl⟩
    · refine (kept_zone zone).mpr ⟨added, targets, ?_⟩
      rw [← List.append_assoc, parts]
    · exact (kept_other (Bool.eq_false_iff.mp other)).mpr rfl
  · intro plain
    by_cases authority : (splitAuthoritative (lineValue line)).2.head? = some 'a'
    · refine unwrap_of_head ?_
      have other : refreshed.head? ≠ some '#' := by
        rw [head, authority]
        exact fun same => absurd (Option.some.inj same) (by decide)
      rw [valueAfter, split_authoritative_other _ other]
      exact head.trans authority
    · have same : refreshed = (splitAuthoritative (lineValue line)).2 := by
        rcases refresh_directive changed with ⟨zone, -⟩ | ⟨-, advanced⟩
        · exact absurd (zone_head zone) authority
        · rw [advanced, advance_other authority]
      have unchanged : lineValue after = lineValue line := by
        rw [valueAfter, same, parts]
      unfold unwrapAuthoritativeLine at plain ⊢
      rw [unchanged]
      exact plain

end Atlaso.Dns.AuthorityLines
