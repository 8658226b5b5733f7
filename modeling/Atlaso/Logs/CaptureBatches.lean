import Atlaso.Logs.NginxCapture
import Atlaso.Logs.RunIntegrity

/-!
The batches that `capture_generation` cuts a file into: whole physical lines in file order,
within the bounds of `append`, or one line over the bound.

The store takes such a batch unless one of its lines holds a character at which Python
splits lines, or takes more bytes as text than it may.
-/

namespace Atlaso.Logs.CaptureBatches

open Library LineText PhysicalLines Outcomes ProducerStore CaptureRuns RunIntegrity
open NginxCapture

/-! ### The lines of a batch -/

structure Reads (room used : Nat) (rest : List UInt8) (lines : List (List UInt8)) : Prop where
  split : physicalLines rest = lines ++ physicalLines (rest.drop lines.flatten.length)
  short : ∀ line ∈ lines, line.length ≤ LINE_INPUT_BYTES
  room : lines.length ≤ room
  bytes : lines = [] ∨ used + lines.flatten.length < BATCH_INPUT_BYTES + LINE_INPUT_BYTES

theorem read_lines_reads (room used : Nat) (rest : List UInt8) :
    ∃ lines, readLines room used rest = (lines.map lineText, lines.flatten.length) ∧
      Reads room used rest lines := by
  induction room generalizing used rest with
  | zero => exact ⟨[], rfl, ⟨by simp, by simp, by simp, .inl rfl⟩⟩
  | succ room induction =>
    have stopped : Reads (room + 1) used rest [] := ⟨by simp, by simp, by simp, .inl rfl⟩
    simp only [readLines]
    split_ifs with within exceeds
    · exact ⟨[], rfl, stopped⟩
    · simp only [Bool.or_eq_true, List.isEmpty_iff, decide_eq_true_eq, not_or] at exceeds
      obtain ⟨raw, whole⟩ : ∃ raw, raw = readline (LINE_INPUT_BYTES + 1) rest := ⟨_, rfl⟩
      rw [← whole] at exceeds ⊢
      have line : raw = physicalLine rest := by
        rw [whole] at exceeds ⊢
        exact readline_whole (by omega)
      have some : rest ≠ [] := by
        rintro rfl
        exact exceeds.1 line
      obtain ⟨lines, read, reads⟩ := induction (used + raw.length) (rest.drop raw.length)
      refine ⟨raw :: lines, ?_, ⟨?_, ?_, ?_, ?_⟩⟩
      · simp [read]
      · rw [List.flatten_cons, List.length_append, ← List.drop_drop, List.cons_append,
          ← reads.split, physical_lines_cons some, line]
      · intro other inside
        rcases List.mem_cons.mp inside with rfl | later
        · omega
        · exact reads.short other later
      · simpa using reads.room
      · right
        rw [List.flatten_cons, List.length_append]
        rcases reads.bytes with rfl | more
        · simp only [List.flatten_nil, List.length_nil]
          omega
        · omega
    · exact ⟨[], rfl, stopped⟩

theorem read_lines_nonempty {room used : Nat} {rest : List UInt8} (space : 0 < room)
    (within : used < BATCH_INPUT_BYTES) (some : rest ≠ [])
    (short : (readline (LINE_INPUT_BYTES + 1) rest).length ≤ LINE_INPUT_BYTES) :
    (readLines room used rest).1 ≠ [] := by
  obtain ⟨less, rfl⟩ : ∃ less, room = less + 1 := ⟨room - 1, by omega⟩
  have line := readline_whole short
  have positive := physical_line_nonempty some
  simp only [readLines, if_pos within]
  rw [if_neg]
  · simp
  · simp only [Bool.or_eq_true, List.isEmpty_iff, decide_eq_true_eq, not_or, Nat.not_lt]
    refine ⟨?_, short⟩
    rw [line]
    exact List.length_pos_iff.mp positive

/-! ### Lines over the bound -/

/-- What is left of a line behind its first bytes. -/
theorem physical_line_rest (data : List UInt8) {count : Nat}
    (within : count ≤ (physicalLine data).length) :
    (if ((physicalLine data).take count).getLast? = some 10 then 0
      else (physicalLine (data.drop count)).length) = (physicalLine data).length - count := by
  induction data generalizing count with
  | nil => simp [physicalLine]
  | cons byte rest induction =>
    cases count with
    | zero => simp
    | succ count =>
      by_cases newline : byte = 10
      · have none : count = 0 := by
          simp only [physicalLine, newline, if_true, List.length_cons, List.length_nil]
            at within
          omega
        simp [physicalLine, newline, none]
      · simp only [physicalLine, newline, if_false, List.length_cons,
          Nat.add_le_add_iff_right, List.take_succ_cons, List.drop_succ_cons] at within ⊢
        cases count with
        | zero =>
          rw [if_neg]
          · simp
          · simpa using newline
        | succ count =>
          have front : (physicalLine rest).take (count + 1) ≠ [] := by
            intro empty
            have := congrArg List.length empty
            simp only [List.length_take, List.length_nil] at this
            omega
          have last : (byte :: (physicalLine rest).take (count + 1)).getLast? =
              ((physicalLine rest).take (count + 1)).getLast? := by
            obtain ⟨head, tail, same⟩ := List.exists_cons_of_ne_nil front
            rw [same, List.getLast?_cons_cons]
          rw [last, induction within]
          omega

theorem skip_record_rest (fuel : Nat) (raw rest : List UInt8) (enough : rest.length ≤ fuel) :
    skipRecord fuel raw rest =
      if raw.getLast? = some 10 then 0 else (physicalLine rest).length := by
  induction fuel generalizing raw rest with
  | zero =>
    have empty : rest = [] := List.length_eq_zero_iff.mp (by omega)
    simp [skipRecord, empty, physicalLine]
  | succ fuel induction =>
    simp only [skipRecord]
    split_ifs with ended nothing
    · rfl
    · have none : physicalLine rest = [] := by
        have size := congrArg List.length (List.isEmpty_iff.mp nothing)
        rw [readline_length] at size
        simp only [LINE_INPUT_BYTES, List.length_nil] at size
        exact List.length_eq_zero_iff.mp (by omega)
      simp [none]
    · have size := readline_length LINE_INPUT_BYTES rest
      have positive : 0 < (readline LINE_INPUT_BYTES rest).length :=
        List.length_pos_iff.mpr (List.isEmpty_iff.not.mp nothing)
      have shorter : (rest.drop (readline LINE_INPUT_BYTES rest).length).length ≤ fuel := by
        rw [List.length_drop]
        omega
      have within : (readline LINE_INPUT_BYTES rest).length ≤ (physicalLine rest).length := by
        omega
      have front : readline LINE_INPUT_BYTES rest =
          (physicalLine rest).take (readline LINE_INPUT_BYTES rest).length := by
        rw [size, readline]
        rcases Nat.le_total LINE_INPUT_BYTES (physicalLine rest).length with long | fits
        · rw [Nat.min_eq_left long]
        · rw [Nat.min_eq_right fits, List.take_of_length_le fits, List.take_length]
      rw [induction _ _ shorter]
      have left := physical_line_rest rest within
      rw [← front] at left
      omega

/-! ### Batches -/

def batchContent (rest : List UInt8) : FileBatch → Content
  | .lines lines _ => .lines lines
  | .oversized size => .physicalRecord (rest.take size)

/-- The physical lines of a file against the batches they were handed over in: each line
once and in order, the lines within the bound as texts. -/
inductive Transcribes : List (List UInt8) → List Content → Prop where
  | none : Transcribes [] []
  | lines (done lines : List (List UInt8)) (contents : List Content)
      (before : Transcribes done contents) (some : lines ≠ [])
      (short : ∀ line ∈ lines, line.length ≤ LINE_INPUT_BYTES) :
      Transcribes (done ++ lines) (contents ++ [.lines (lines.map lineText)])
  | record (done : List (List UInt8)) (line : List UInt8) (contents : List Content)
      (before : Transcribes done contents) (long : LINE_INPUT_BYTES < line.length) :
      Transcribes (done ++ [line]) (contents ++ [.physicalRecord line])

structure Cuts (rest : List UInt8) (batch : FileBatch) (lines : List (List UInt8)) : Prop where
  split : physicalLines rest = lines ++ physicalLines (rest.drop batch.size)
  size : lines.flatten.length = batch.size
  positive : 0 < batch.size
  content : (∃ size, batch = .lines (lines.map lineText) size ∧ lines ≠ [] ∧ lines.length ≤ 500 ∧
      (∀ line ∈ lines, line.length ≤ LINE_INPUT_BYTES) ∧
      lines.flatten.length < BATCH_INPUT_BYTES + LINE_INPUT_BYTES) ∨
    ∃ line size, batch = .oversized size ∧ lines = [line] ∧ rest.take size = line ∧
      LINE_INPUT_BYTES < line.length ∧ 10 ∉ line.dropLast

theorem read_batch_cuts {rest : List UInt8} (some : rest ≠ []) :
    ∃ lines, Cuts rest (readBatch rest) lines := by
  simp only [readBatch]
  split_ifs with long
  · have size := readline_length (LINE_INPUT_BYTES + 1) rest
    have within : (readline (LINE_INPUT_BYTES + 1) rest).length ≤ (physicalLine rest).length := by
      omega
    have front : readline (LINE_INPUT_BYTES + 1) rest =
        (physicalLine rest).take (readline (LINE_INPUT_BYTES + 1) rest).length := by
      rw [size, readline, Nat.min_eq_left (by omega)]
    have left := physical_line_rest rest within
    rw [← front] at left
    have whole : (readline (LINE_INPUT_BYTES + 1) rest).length +
        skipRecord rest.length (readline (LINE_INPUT_BYTES + 1) rest)
          (rest.drop (readline (LINE_INPUT_BYTES + 1) rest).length) =
        (physicalLine rest).length := by
      rw [skip_record_rest _ _ _ (by rw [List.length_drop]; omega), left]
      omega
    have taken : rest.take (physicalLine rest).length = physicalLine rest := by
      have parts := congrArg (List.take (physicalLine rest).length) (physical_line_drop rest)
      rw [List.take_left] at parts
      exact parts.symm
    refine ⟨[physicalLine rest], ?_, ?_, ?_, .inr ⟨physicalLine rest, _, rfl, rfl, ?_, ?_,
      physical_line_newline rest⟩⟩
    · simp only [FileBatch.size, whole, List.singleton_append]
      exact physical_lines_cons some
    · simp [FileBatch.size, whole]
    · simp only [FileBatch.size, whole]
      exact physical_line_nonempty some
    · rw [whole, taken]
    · omega
  · obtain ⟨lines, read, reads⟩ := read_lines_reads 500 0 rest
    have nonempty := @read_lines_nonempty 500 0 rest (by decide) (by decide) some (by omega)
    rw [read] at nonempty
    have some' : lines ≠ [] := fun empty => nonempty (by rw [empty]; rfl)
    rw [read]
    refine ⟨lines, reads.split, rfl, ?_, .inl ⟨_, rfl, some', reads.room, reads.short, ?_⟩⟩
    · rw [FileBatch.size]
      have positive := physical_lines_cons some
      rw [reads.split] at positive
      obtain ⟨head, tail, rfl⟩ := List.exists_cons_of_ne_nil some'
      rw [List.cons_append] at positive
      have first := (List.cons.inj positive).1
      have length := physical_line_nonempty some
      rw [List.flatten_cons, List.length_append, first]
      omega
    · rcases reads.bytes with empty | bytes
      · exact absurd empty some'
      · omega

/-! ### What the store takes -/

/-- A line that its batch does not stop at: it is over the bound and stands alone, or it
reads as one line of at most 64 KiB of text. -/
def Acceptable (line : List UInt8) : Prop :=
  line.length ≤ LINE_INPUT_BYTES →
    (∀ c ∈ (lineText line).toList, isBoundary c = false) ∧ lineSize (lineText line) ≤ 65536

instance (line : List UInt8) : Decidable (Acceptable line) :=
  decidable_of_iff (line.length ≤ LINE_INPUT_BYTES →
    (lineText line).toList.all (fun c => !isBoundary c) = true ∧ lineSize (lineText line) ≤ 65536)
    (by simp [Acceptable])

/-- Every line of the file can be captured. -/
def Capturable (content : List UInt8) : Prop := ∀ line ∈ physicalLines content, Acceptable line

instance (content : List UInt8) : Decidable (Capturable content) :=
  inferInstanceAs (Decidable (∀ line ∈ physicalLines content, Acceptable line))

theorem is_complete_iff (line : String) :
    isComplete line = true ↔ ∀ c ∈ line.toList, isBoundary c = false := by
  rw [← splitlines_single]
  simp [isComplete]

theorem line_text_size (line : List UInt8) : lineSize (lineText line) ≤ 3 * line.length :=
  Nat.le_trans (rstrip_newlines_size _) (decode_replacing_size true line)

theorem line_sizes (lines : List (List UInt8)) :
    ((lines.map lineText).map fun line => lineSize line + 1).sum ≤
      3 * lines.flatten.length + lines.length := by
  induction lines with
  | nil => simp
  | cons line lines induction =>
    have size := line_text_size line
    simp only [List.map_cons, List.sum_cons, List.flatten_cons, List.length_append,
      List.length_cons]
    omega

/-- The bounds on a batch's raw bytes keep its text within the budget of the store, so the
checks of `append` come down to those of each line. -/
theorem check_lines_iff {source : String} {lines : List (List UInt8)} {revision : Int}
    (writer : (WRITERS source).contains "service" = true) (positive : 1 ≤ revision)
    (nonempty : lines ≠ []) (room : lines.length ≤ 500)
    (short : ∀ line ∈ lines, line.length ≤ LINE_INPUT_BYTES)
    (bytes : lines.flatten.length < BATCH_INPUT_BYTES + LINE_INPUT_BYTES) :
    checkLines source (lines.map lineText) (some "service") (some revision) false = .ok () ↔
      ∀ line ∈ lines, Acceptable line := by
  have budget : ¬BATCH_BYTES < ((lines.map lineText).map fun line => lineSize line + 1).sum := by
    have sizes := line_sizes lines
    simp only [BATCH_BYTES, BATCH_INPUT_BYTES, LINE_INPUT_BYTES] at bytes ⊢
    omega
  have known : (WRITERS source).contains "service" && decide (1 ≤ revision) := by
    rw [writer, decide_eq_true positive]
    rfl
  have each : ((lines.map lineText).any fun line =>
      !isComplete line || (!false && decide (65536 < lineSize line))) = false ↔
        ∀ line ∈ lines, Acceptable line := by
    rw [List.any_eq_false]
    simp only [List.mem_map, forall_exists_index, and_imp, forall_apply_eq_imp_iff₂,
      Bool.or_eq_true, Bool.not_eq_true', Bool.not_false, Bool.true_and, decide_eq_true_eq,
      not_or, Bool.not_eq_false, Nat.not_lt, is_complete_iff]
    refine forall₂_congr fun line inside => ?_
    exact ⟨fun accepted _ => accepted, fun accepted => accepted (short line inside)⟩
  have other : (lines.map lineText).isEmpty = false ∧
      (!false && decide (500 < (lines.map lineText).length)) = false := by
    simp [nonempty, room]
  rw [← each, checkLines, other.1, other.2, Bool.false_or, Bool.false_or]
  cases ((lines.map lineText).any fun line =>
      !isComplete line || (!false && decide (65536 < lineSize line))) with
  | true => simp
  | false =>
    simp only [Bool.false_eq_true, if_false, decide_eq_false budget, Bool.and_false, known,
      if_true]

theorem last_of_newline {chunk : List UInt8} (inside : 10 ∈ chunk) (within : 10 ∉ chunk.dropLast) :
    chunk.getLast? = some 10 := by
  rcases List.eq_nil_or_concat chunk with rfl | ⟨front, last, rfl⟩
  · simp at inside
  · rw [List.concat_eq_append] at inside within ⊢
    rw [List.dropLast_concat] at within
    rcases List.mem_append.mp inside with early | final
    · exact absurd early within
    · simp [List.mem_singleton.mp final]

theorem record_chunks_bounded (fuel : Nat) (record : List UInt8) (enough : record.length ≤ fuel)
    (newline : 10 ∉ record.dropLast) :
    boundedChunks false (recordChunks fuel record) = true ∧
      (recordChunks fuel record).flatten = record := by
  induction fuel generalizing record with
  | zero =>
    have empty : record = [] := List.length_eq_zero_iff.mp (by omega)
    simp [recordChunks, boundedChunks, empty]
  | succ fuel induction =>
    simp only [recordChunks]
    split_ifs with nothing
    · simp [boundedChunks, List.isEmpty_iff.mp nothing]
    · have nonempty : record ≠ [] := List.isEmpty_iff.not.mp nothing
      have positive := List.length_pos_iff.mpr nonempty
      obtain ⟨chunk, taken⟩ : ∃ chunk, chunk = record.take LINE_INPUT_BYTES := ⟨_, rfl⟩
      obtain ⟨rest, left⟩ : ∃ rest, rest = record.drop LINE_INPUT_BYTES := ⟨_, rfl⟩
      have whole : record = chunk ++ rest := by
        rw [taken, left, List.take_append_drop]
      have sizes : chunk.length ≤ 65536 ∧ 0 < chunk.length ∧ rest.length ≤ fuel := by
        rw [taken, left, List.length_take, List.length_drop]
        simp only [LINE_INPUT_BYTES]
        omega
      have some' : chunk ≠ [] := List.length_pos_iff.mp sizes.2.1
      have parts : (10 ∉ chunk.dropLast) ∧ (10 ∉ rest.dropLast) ∧ (10 ∈ chunk → rest = []) := by
        by_cases last : rest = []
        · rw [whole, last, List.append_nil] at newline
          exact ⟨newline, by simp [last], fun _ => last⟩
        · rw [whole, List.dropLast_append_of_ne_nil last, List.mem_append, not_or] at newline
          exact ⟨fun inside => newline.1 ((List.dropLast_sublist chunk).subset inside), newline.2,
            fun inside => absurd inside newline.1⟩
      have later := induction rest sizes.2.2 parts.2.1
      rw [← taken, ← left]
      refine ⟨?_, ?_⟩
      · by_cases inside : 10 ∈ chunk
        · have none : recordChunks fuel rest = [] := by
            rw [parts.2.2 inside]
            cases fuel <;> simp [recordChunks]
          have ends := last_of_newline inside parts.1
          simp [boundedChunks, none, some', sizes.1, ends, parts.1]
        · simp [boundedChunks, some', sizes.1, inside, later.1]
      · rw [List.flatten_cons, later.2, whole]

end Atlaso.Logs.CaptureBatches
