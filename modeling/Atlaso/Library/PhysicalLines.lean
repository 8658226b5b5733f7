import Atlaso.Library.LineText
import Mathlib.Data.List.DropRight

/-!
The physical lines of a byte stream, each with its newline, and what is left of a line
when it is read as text: how long the text can be, and when Python sees it as one line.
-/

namespace Atlaso.Library.PhysicalLines

open LineText

/-! ### Lines of bytes -/

/-- Everything up to the first newline, with it. -/
def physicalLine : List UInt8 → List UInt8
  | [] => []
  | byte :: rest => if byte = 10 then [byte] else byte :: physicalLine rest

def physicalLines : List UInt8 → List (List UInt8)
  | [] => []
  | byte :: rest =>
    if byte = 10 then [byte] :: physicalLines rest
    else match physicalLines rest with
      | [] => [[byte]]
      | line :: lines => (byte :: line) :: lines

/-- `stream.readline(limit)` before the bytes `rest`. -/
def readline (limit : Nat) (rest : List UInt8) : List UInt8 := (physicalLine rest).take limit

theorem physical_line_drop (data : List UInt8) :
    physicalLine data ++ data.drop (physicalLine data).length = data := by
  induction data with
  | nil => rfl
  | cons byte rest induction =>
    by_cases newline : byte = 10
    · simp [physicalLine, newline]
    · simpa [physicalLine, newline] using induction

variable {data : List UInt8} {lead : UInt8}

theorem physical_line_nonempty (some : data ≠ []) :
    0 < (physicalLine data).length := by
  cases data with
  | nil => exact absurd rfl some
  | cons byte rest =>
    simp only [physicalLine]
    split_ifs <;> simp

theorem physical_lines_cons (some : data ≠ []) :
    physicalLines data =
      physicalLine data :: physicalLines (data.drop (physicalLine data).length) := by
  induction data with
  | nil => exact absurd rfl some
  | cons byte rest induction =>
    by_cases newline : byte = 10
    · simp [physicalLines, physicalLine, newline]
    · simp only [physicalLines, physicalLine, newline, if_false, List.length_cons,
        List.drop_succ_cons]
      cases rest with
      | nil => rfl
      | cons next more => simp only [induction (List.cons_ne_nil _ _)]

theorem physical_lines_flatten (data : List UInt8) : (physicalLines data).flatten = data := by
  induction data with
  | nil => rfl
  | cons byte rest induction =>
    simp only [physicalLines]
    split_ifs with newline
    · simp [induction]
    · cases lines : physicalLines rest with
      | nil => simpa [lines] using induction
      | cons line later =>
        rw [lines] at induction
        simpa using induction

theorem physical_line_newline (data : List UInt8) :
    10 ∉ (physicalLine data).dropLast := by
  induction data with
  | nil => simp [physicalLine]
  | cons byte rest induction =>
    by_cases newline : byte = 10
    · simp [physicalLine, newline]
    · simp only [physicalLine, newline, if_false]
      cases line : physicalLine rest with
      | nil => simp
      | cons next more =>
        rw [line] at induction
        rw [List.dropLast_cons_cons]
        simp only [List.mem_cons, not_or]
        exact ⟨fun same => newline same.symm, induction⟩

theorem readline_length (limit : Nat) (rest : List UInt8) :
    (readline limit rest).length = min limit (physicalLine rest).length := List.length_take

variable {rest : List UInt8} {low high bits count : Nat}

theorem readline_whole {limit : Nat} (within : (readline (limit + 1) rest).length ≤ limit) :
    readline (limit + 1) rest = physicalLine rest := by
  rw [readline_length] at within
  exact List.take_of_length_le (by omega)

/-! ### Lines as text -/

theorem split_from_length (current text : List Char) :
    (splitFrom current text).flatten.length + (text.filter isBoundary).length =
      current.length + text.length := by
  fun_induction splitFrom current text with
  | case1 current empty => simp_all
  | case2 current open_ => simp
  | case3 current rest induction =>
    have carriage : isBoundary '\r' = true := by decide
    have newline : isBoundary '\n' = true := by decide
    simp only [List.flatten_cons, List.length_append, List.filter_cons_of_pos carriage,
      List.filter_cons_of_pos newline, List.length_cons, List.length_nil] at induction ⊢
    omega
  | case4 current c rest other boundary induction =>
    simp only [List.flatten_cons, List.length_append, List.filter_cons_of_pos boundary,
      List.length_cons, List.length_nil] at induction ⊢
    omega
  | case5 current c rest other inner induction =>
    simp only [List.filter_cons_of_neg inner, List.length_append, List.length_cons,
      List.length_nil] at induction ⊢
    omega

theorem split_from_unbroken (current text : List Char)
    (unbroken : ∀ c ∈ text, isBoundary c = false) (some : current ++ text ≠ []) :
    splitFrom current text = [current ++ text] := by
  induction text generalizing current with
  | nil =>
    rw [List.append_nil] at some ⊢
    simp [splitFrom, some]
  | cons c text induction =>
    have inner : isBoundary c = false := unbroken c List.mem_cons_self
    have notCarriage : c ≠ '\r' := by
      rintro rfl
      exact absurd inner (by decide)
    have later := induction (current ++ [c])
      (fun other inside => unbroken other (List.mem_cons_of_mem c inside)) (by simp)
    rw [List.append_assoc, List.singleton_append] at later
    rw [splitFrom.eq_def]
    split
    · rename_i impossible
      exact absurd impossible (List.cons_ne_nil _ _)
    · rename_i same
      exact absurd (List.cons.inj same).1 notCarriage
    · rename_i other rest _ same
      obtain ⟨rfl, rfl⟩ := List.cons.inj same
      rw [if_neg (by rw [inner]; decide), later]

/-- A text is one line exactly when nothing in it ends a line. -/
theorem splitlines_single (text : String) :
    (text = "" ∨ splitlines text = [text]) ↔ ∀ c ∈ text.toList, isBoundary c = false := by
  constructor
  · rintro (rfl | single)
    · simp
    · have length := split_from_length [] text.toList
      have same : splitFrom [] text.toList = [text.toList] := by
        have images := congrArg (List.map String.toList) single
        simpa [splitlines, List.map_map, Function.comp_def] using images
      rw [same] at length
      simp only [List.flatten_cons, List.flatten_nil, List.append_nil, List.length_nil,
        Nat.zero_add] at length
      have none : (text.toList.filter isBoundary).length = 0 := by omega
      intro c inside
      have absent := List.filter_eq_nil_iff.mp (List.length_eq_zero_iff.mp none) c inside
      simpa using absent
  · intro unbroken
    by_cases empty : text = ""
    · exact .inl empty
    · right
      have some : [] ++ text.toList ≠ [] := by
        intro nothing
        exact empty (String.toList_eq_nil_iff.mp nothing)
      rw [splitlines, split_from_unbroken [] text.toList unbroken some]
      simp

/-! ### The size of decoded lines -/

theorem continuation_shorter {after : List UInt8} {code : Nat}
    (found : continuation low high bits count rest = .read code after) :
    after.length + count = rest.length := by
  induction count generalizing low high bits rest with
  | zero =>
    simp only [continuation, Sequence.read.injEq] at found
    rw [found.2]
    rfl
  | succ count induction =>
    cases rest with
    | nil => simp [continuation] at found
    | cons byte rest =>
      simp only [continuation] at found
      split_ifs at found with inside
      have := induction found
      simp only [List.length_cons]
      omega

theorem continuation_replaced {after : List UInt8}
    (found : continuation low high bits count rest = .replaced after) :
    after.length ≤ rest.length := by
  induction count generalizing low high bits rest with
  | zero => simp [continuation] at found
  | succ count induction =>
    cases rest with
    | nil => simp [continuation] at found
    | cons byte rest =>
      simp only [continuation] at found
      split_ifs at found with inside
      · have := induction found
        simp only [List.length_cons]
        omega
      · rw [← Sequence.replaced.inj found]

theorem lead_byte_asks {lead : Nat} (known : leadByte lead = some (count, low, high, bits)) :
    1 ≤ count := by
  simp only [leadByte] at known
  split_ifs at known <;>
    (obtain ⟨rfl, -⟩ := Prod.mk.inj (Option.some.inj known); decide)

theorem first_sequence_size {after : List UInt8} {code : Nat}
    (found : firstSequence lead rest = .read code after) :
    (Char.ofNat code).utf8Size + 3 * after.length ≤ 3 * (rest.length + 1) := by
  simp only [firstSequence] at found
  split at found
  · rename_i ascii
    obtain ⟨rfl, rfl⟩ := Sequence.read.inj found
    have small : ∀ value < 0x80, (Char.ofNat value).utf8Size = 1 := by decide
    rw [small lead.toNat ascii]
    omega
  · split at found
    · simp at found
    · rename_i count low high bits known
      have asks := lead_byte_asks known
      have shorter := continuation_shorter found
      have most := Char.utf8Size_le_four (Char.ofNat code)
      omega

theorem first_sequence_replaced {after : List UInt8}
    (found : firstSequence lead rest = .replaced after) : after.length ≤ rest.length := by
  simp only [firstSequence] at found
  split at found
  · simp at found
  · split at found
    · rw [← Sequence.replaced.inj found]
    · exact continuation_replaced found

def textSize (text : List Char) : Nat := (text.map Char.utf8Size).sum

theorem decode_from_size (final : Bool) (fuel : Nat) (data : List UInt8) :
    textSize (decodeFrom final fuel data).1 ≤ 3 * data.length := by
  induction fuel generalizing data with
  | zero => simp [decodeFrom, textSize]
  | succ fuel induction =>
    cases data with
    | nil => simp [decodeFrom, textSize]
    | cons lead rest =>
      simp only [decodeFrom, List.length_cons]
      cases found : firstSequence lead rest with
      | read code after =>
        have head := first_sequence_size found
        have tail := induction after
        simp only [textSize, List.map_cons, List.sum_cons] at tail ⊢
        omega
      | replaced after =>
        have head := first_sequence_replaced found
        have tail := induction after
        have three : ('\uFFFD').utf8Size = 3 := by decide
        simp only [textSize, List.map_cons, List.sum_cons, three] at tail ⊢
        omega
      | incomplete =>
        have three : ('\uFFFD').utf8Size = 3 := by decide
        split_ifs
        · simp only [textSize, List.map_cons, List.map_nil, List.sum_cons, List.sum_nil,
            three]
          omega
        · simp [textSize]

theorem text_size_string (text : List Char) :
    (String.ofList text).utf8ByteSize = textSize text := by
  induction text with
  | nil => rfl
  | cons c text induction =>
    rw [String.ofList_cons, String.utf8ByteSize_append, String.utf8ByteSize_singleton, induction]
    rfl

/-- A replacement character takes three bytes and stands for at least one. -/
theorem decode_replacing_size (final : Bool) (data : List UInt8) :
    (decodeReplacing final data).1.utf8ByteSize ≤ 3 * data.length := by
  simp only [decodeReplacing, text_size_string]
  exact decode_from_size final data.length data

/-- `str.rstrip("\r\n")`. -/
def rstripNewlines (text : String) : String :=
  String.ofList (text.toList.rdropWhile fun c => decide (c = '\r') || decide (c = '\n'))

theorem rstrip_newlines_size (text : String) :
    (rstripNewlines text).utf8ByteSize ≤ text.utf8ByteSize := by
  have split := List.rdropWhile_prefix (fun c => decide (c = '\r') || decide (c = '\n'))
    (l := text.toList)
  obtain ⟨rest, whole⟩ := split
  have sizes := text_size_string text.toList
  rw [String.ofList_toList] at sizes
  have parts := congrArg textSize whole
  simp only [textSize, List.map_append, List.sum_append] at parts
  rw [rstripNewlines, text_size_string, sizes]
  simp only [textSize]
  omega

end Atlaso.Library.PhysicalLines
