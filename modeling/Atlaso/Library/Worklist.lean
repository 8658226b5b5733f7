import Mathlib.Data.Finset.Card
import Mathlib.Data.Finset.SDiff
import Mathlib.Logic.Relation

/-!
Reachable items by a work list: the last item is taken from the list, and its neighbours
that were not seen before are marked and appended.
-/

namespace Atlaso.Library.Worklist

variable {Item : Type} [DecidableEq Item]

def discover : List Item → List Item × List Item → List Item × List Item
  | [], state => state
  | item :: items, (seen, pending) =>
    if item ∈ seen then discover items (seen, pending)
    else discover items (seen ++ [item], pending ++ [item])

def spread (next : Item → List Item) : Nat → List Item → List Item → List Item
  | 0, seen, _ => seen
  | fuel + 1, seen, pending =>
    match pending.getLast? with
    | none => seen
    | some current =>
      let found := discover (next current) (seen, pending.dropLast)
      spread next fuel found.1 found.2

def Reached (next : Item → List Item) (seeds : List Item) (item : Item) : Prop :=
  ∃ seed ∈ seeds, Relation.ReflTransGen (fun first second => second ∈ next first) seed item

theorem discover_spec (items seen pending : List Item) :
    ∃ fresh, discover items (seen, pending) = (seen ++ fresh, pending ++ fresh) ∧ fresh.Nodup ∧
      (∀ item ∈ fresh, item ∈ items ∧ item ∉ seen) ∧
      ∀ item ∈ items, item ∈ seen ++ fresh := by
  induction items generalizing seen pending with
  | nil => exact ⟨[], by simp [discover], by simp, by simp, by simp⟩
  | cons item items induction =>
    by_cases known : item ∈ seen
    · obtain ⟨fresh, result, distinct, new, covered⟩ := induction seen pending
      refine ⟨fresh, by rw [discover, if_pos known, result], distinct, ?_, ?_⟩
      · intro other inside
        exact ⟨List.mem_cons_of_mem _ (new other inside).1, (new other inside).2⟩
      · intro other inside
        rcases List.mem_cons.mp inside with rfl | inside
        · exact List.mem_append_left _ known
        · exact covered other inside
    · obtain ⟨fresh, result, distinct, new, covered⟩ :=
        induction (seen ++ [item]) (pending ++ [item])
      have apart : item ∉ fresh := by
        intro inside
        exact (new item inside).2 (by simp)
      refine ⟨item :: fresh, ?_, List.nodup_cons.mpr ⟨apart, distinct⟩, ?_, ?_⟩
      · rw [discover, if_neg known, result]
        simp
      · intro other inside
        rcases List.mem_cons.mp inside with rfl | inside
        · exact ⟨List.mem_cons_self, known⟩
        · have unseen := (new other inside).2
          simp only [List.mem_append, not_or] at unseen
          exact ⟨List.mem_cons_of_mem _ (new other inside).1, unseen.1⟩
      · intro other inside
        rcases List.mem_cons.mp inside with rfl | inside
        · simp
        · simpa using covered other inside

structure Progress (next : Item → List Item) (seeds seen pending : List Item) : Prop where
  sound : ∀ item ∈ seen, Reached next seeds item
  marked : ∀ item ∈ pending, item ∈ seen
  started : ∀ seed ∈ seeds, seed ∈ seen
  finished : ∀ item ∈ seen, item ∈ pending ∨ ∀ other ∈ next item, other ∈ seen

section Spreading

variable {next : Item → List Item} {seeds seen pending : List Item}

omit [DecidableEq Item] in
theorem progress_start : Progress next seeds seeds seeds :=
  ⟨fun item inside => ⟨item, inside, .refl⟩, fun _ inside => inside, fun _ inside => inside,
    fun _ inside => .inl inside⟩

omit [DecidableEq Item] in
theorem progress_step {current : Item} {fresh : List Item}
    (progress : Progress next seeds seen (pending ++ [current]))
    (new : ∀ item ∈ fresh, item ∈ next current ∧ item ∉ seen)
    (covered : ∀ item ∈ next current, item ∈ seen ++ fresh) :
    Progress next seeds (seen ++ fresh) (pending ++ fresh) := by
  refine ⟨?_, ?_, fun seed inside => List.mem_append_left _ (progress.started seed inside), ?_⟩
  · intro item inside
    rcases List.mem_append.mp inside with inside | inside
    · exact progress.sound item inside
    · obtain ⟨seed, start, path⟩ :=
        progress.sound current (progress.marked current (by simp))
      exact ⟨seed, start, path.tail (new item inside).1⟩
  · intro item inside
    rcases List.mem_append.mp inside with inside | inside
    · exact List.mem_append_left _ (progress.marked item (by simp [inside]))
    · exact List.mem_append_right _ inside
  · intro item inside
    rcases List.mem_append.mp inside with inside | inside
    · rcases progress.finished item inside with waiting | done
      · rcases List.mem_append.mp waiting with waiting | last
        · exact .inl (List.mem_append_left _ waiting)
        · obtain rfl := List.mem_singleton.mp last
          exact .inr covered
      · exact .inr fun other edge => List.mem_append_left _ (done other edge)
    · exact .inl (List.mem_append_right _ inside)

omit [DecidableEq Item] in
theorem progress_reached (progress : Progress next seeds seen []) {item : Item} :
    item ∈ seen ↔ Reached next seeds item := by
  refine ⟨progress.sound item, ?_⟩
  rintro ⟨seed, start, path⟩
  induction path with
  | refl => exact progress.started seed start
  | tail path edge induction =>
    rcases progress.finished _ induction with impossible | done
    · simp at impossible
    · exact done _ edge

/-- Enough rounds reach everything: each round takes one item from the list and each item
is put on it once. -/
theorem mem_spread {fuel : Nat} {items : Finset Item}
    (bounded : ∀ item, ∀ other ∈ next item, other ∈ items)
    (enough : pending.length + (items \ seen.toFinset).card ≤ fuel)
    (progress : Progress next seeds seen pending) {item : Item} :
    item ∈ spread next fuel seen pending ↔ Reached next seeds item := by
  induction fuel generalizing seen pending with
  | zero =>
    have empty : pending = [] := List.length_eq_zero_iff.mp (by omega)
    subst empty
    exact progress_reached progress
  | succ fuel induction =>
    rcases List.eq_nil_or_concat pending with rfl | ⟨rest, current, rfl⟩
    · exact progress_reached progress
    · rw [List.concat_eq_append] at progress enough ⊢
      obtain ⟨fresh, result, distinct, new, covered⟩ := discover_spec (next current) seen rest
      have shrinks : (items \ (seen ++ fresh).toFinset).card + fresh.length =
          (items \ seen.toFinset).card := by
        have part : fresh.toFinset ⊆ items \ seen.toFinset := by
          intro other inside
          have found := new other (List.mem_toFinset.mp inside)
          simp [bounded current other found.1, found.2]
        have rest : items \ (seen ++ fresh).toFinset =
            (items \ seen.toFinset) \ fresh.toFinset := by
          rw [List.toFinset_append, sdiff_sdiff_left, Finset.sup_eq_union]
        rw [rest, ← List.toFinset_card_of_nodup distinct]
        exact Finset.card_sdiff_add_card_eq_card part
      have step : spread next (fuel + 1) seen (rest ++ [current]) =
          spread next fuel (seen ++ fresh) (rest ++ fresh) := by
        rw [spread]
        simp [result]
      rw [step]
      refine induction ?_ (progress_step progress new covered)
      simp only [List.length_append, List.length_cons, List.length_nil] at enough ⊢
      omega

end Spreading

end Atlaso.Library.Worklist
