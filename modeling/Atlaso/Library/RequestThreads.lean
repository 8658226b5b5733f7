import Mathlib.Data.List.Nodup
import Mathlib.Data.Set.BooleanAlgebra
import Mathlib.Data.Set.Disjoint
import Mathlib.Logic.Function.Basic
import Mathlib.Logic.Relation
import Mathlib.Order.CompletePartialOrder

/-!
Any number of requests that run at once on one world, and restarts that stop them all.

A program is a tree of atomic steps; each step sees the world it changes. A thread may own
permits: a permit is issued once, by the step of one thread, and spent at most once. The
rule of the library is that when every thread keeps to a guarantee that the others rely on,
and spends only permits it owns, then in every interleaving no permit is spent twice.
-/

namespace Atlaso.Library.RequestThreads

inductive Program (World Error Result : Type) where
  | done (result : Result)
  | fail (error : Error)
  | atomic (effect : World → World) (next : World → Program World Error Result)

namespace Program

variable {World Error Result Next : Type}

protected def bind (program : Program World Error Result)
    (next : Result → Program World Error Next) : Program World Error Next :=
  match program with
  | .done result => next result
  | .fail error => .fail error
  | .atomic effect after => .atomic effect fun world => (after world).bind next

instance : Monad (Program World Error) where
  pure := .done
  bind := Program.bind

/-- A `try` block: its failure is a result. -/
def attempt : Program World Error Result → Program World Error (Except Error Result)
  | .done result => .done (.ok result)
  | .fail error => .done (.error error)
  | .atomic effect next => .atomic effect fun world => (next world).attempt

def observe (read : World → Except Error Result) : Program World Error Result :=
  .atomic id fun world =>
    match read world with
    | .ok result => .done result
    | .error error => .fail error

/-- A transaction: it commits and has a result, or it rolls back. -/
def transact (transaction : World → Except Error (World × Result)) :
    Program World Error Result :=
  .atomic
    (fun world =>
      match transaction world with
      | .ok committed => committed.1
      | .error _ => world)
    fun world =>
      match transaction world with
      | .ok committed => .done committed.2
      | .error error => .fail error

def ReadOnly : Program World Error Result → Prop
  | .done _ => True
  | .fail _ => True
  | .atomic effect next => effect = id ∧ ∀ world, (next world).ReadOnly

theorem read_only_observe (read : World → Except Error Result) : (observe read).ReadOnly := by
  refine ⟨rfl, fun world => ?_⟩
  dsimp only
  cases read world <;> trivial

variable {program : Program World Error Result} {next : Result → Program World Error Next}

theorem read_only_bind (first : program.ReadOnly) (second : ∀ result, (next result).ReadOnly) :
    (program >>= next).ReadOnly := by
  induction program with
  | done result => exact second result
  | fail error => trivial
  | atomic effect after induction =>
    exact ⟨first.1, fun world => induction world (first.2 world)⟩

/-- The run without other threads. -/
def run : Program World Error Result → World → Except Error Result × World
  | .done result, world => (.ok result, world)
  | .fail error, world => (.error error, world)
  | .atomic effect next, world => (next world).run (effect world)

@[simp] theorem run_done (result : Result) (world : World) :
    (Program.done result : Program World Error Result).run world = (.ok result, world) := rfl

@[simp] theorem run_fail (error : Error) (world : World) :
    (Program.fail error : Program World Error Result).run world = (.error error, world) := rfl

@[simp] theorem run_pure (result : Result) (world : World) :
    (pure result : Program World Error Result).run world = (.ok result, world) := rfl

@[simp] theorem run_atomic (effect : World → World)
    (next : World → Program World Error Result) (world : World) :
    (Program.atomic effect next).run world = (next world).run (effect world) := rfl

theorem run_bind (program : Program World Error Result)
    (next : Result → Program World Error Next) (world : World) :
    (program >>= next).run world =
      match program.run world with
      | (.ok result, later) => (next result).run later
      | (.error error, later) => (.error error, later) := by
  induction program generalizing world with
  | done result => rfl
  | fail error => rfl
  | atomic effect after induction => exact induction world (effect world)

theorem run_bind_ok {world later : World} {result : Result}
    (ran : program.run world = (.ok result, later)) :
    (program >>= next).run world = (next result).run later := by
  rw [run_bind, ran]

theorem run_bind_ok_iff {world later : World} {result : Next} :
    (program >>= next).run world = (.ok result, later) ↔
      ∃ first middle, program.run world = (.ok first, middle) ∧
        (next first).run middle = (.ok result, later) := by
  rw [run_bind]
  constructor
  · intro ran
    rcases outcome : program.run world with ⟨error | first, middle⟩
    · rw [outcome] at ran
      cases ran
    · rw [outcome] at ran
      exact ⟨first, middle, rfl, ran⟩
  · rintro ⟨first, middle, ran, more⟩
    rw [ran]
    exact more

theorem run_observe_ok_iff {read : World → Except Error Result} {world later : World}
    {result : Result} :
    (observe read).run world = (.ok result, later) ↔
      read world = .ok result ∧ later = world := by
  rw [observe, run_atomic]
  cases read world with
  | ok found => simp [eq_comm]
  | error error => simp

/-- The first steps of a run without other threads. -/
def advance : Nat → Program World Error Result → World → Program World Error Result × World
  | steps + 1, .atomic effect next, world => (next world).advance steps (effect world)
  | _, program, world => (program, world)

theorem run_transact (transaction : World → Except Error (World × Result)) (world : World) :
    (transact transaction).run world =
      match transaction world with
      | .ok committed => (.ok committed.2, committed.1)
      | .error error => (.error error, world) := by
  rw [transact, run_atomic]
  cases transaction world <;> rfl

end Program

/-- What threads may rely on, what each of them guarantees, and the permits that a world
has issued and those it has spent. `owned` are the permits of the thread. -/
structure Discipline (World Token : Type) where
  rely : (owned : Set Token) → World → World → Prop
  guarantee : (owned : Set Token) → World → World → Prop
  issued : World → Set Token
  spent : World → List Token

namespace Discipline

variable {World Token Error Result Next : Type} (rules : Discipline World Token)

/-- A step spends permits that the thread owns, each once. -/
def Fair (owned : Set Token) (before after : World) : Prop :=
  rules.issued before ⊆ rules.issued after ∧
    ∃ uses : List Token, rules.spent after = uses ++ rules.spent before ∧ uses.Nodup ∧
      ∀ token ∈ uses, token ∈ owned

/-- What the thread owns after its step: the permits that the step issued are its own. -/
def kept (owned : Set Token) (before after : World) : Set Token :=
  { token | (token ∈ owned ∨ token ∈ rules.issued after ∧ token ∉ rules.issued before) ∧
    (token ∈ rules.spent after → token ∈ rules.spent before) }

def Proceeds (post : Set Token → Result → World → Prop)
    (failed : Set Token → Error → World → Prop) :
    Set Token → Program World Error Result → World → Prop
  | owned, .done result, world => ∀ later, rules.rely owned world later → post owned result later
  | owned, .fail error, world => ∀ later, rules.rely owned world later → failed owned error later
  | owned, .atomic effect next, world => ∀ later, rules.rely owned world later →
      rules.guarantee owned later (effect later) ∧ rules.Fair owned later (effect later) ∧
        Proceeds post failed (rules.kept owned later (effect later)) (next later) (effect later)

variable {rules} {post : Set Token → Result → World → Prop}
  {failed : Set Token → Error → World → Prop} {owned : Set Token} {world later : World}

theorem fair_same (owned : Set Token) (world : World) : rules.Fair owned world world :=
  ⟨subset_rfl, [], rfl, List.nodup_nil, fun _ used => absurd used List.not_mem_nil⟩

theorem fair_unspent {after : World} (wider : rules.issued world ⊆ rules.issued after)
    (unspent : rules.spent after = rules.spent world) : rules.Fair owned world after :=
  ⟨wider, [], unspent, List.nodup_nil, fun _ used => absurd used List.not_mem_nil⟩

theorem kept_same (owned : Set Token) (world : World) : rules.kept owned world world = owned := by
  ext token
  refine ⟨fun held => ?_, fun held => ⟨.inl held, id⟩⟩
  rcases held.1 with had | ⟨fresh, stale⟩
  · exact had
  · exact absurd fresh stale

/-- A thread keeps the permits that its step does not spend. -/
theorem mem_kept {after : World} {token : Token} (held : token ∈ owned)
    (unspent : rules.spent after = rules.spent world) : token ∈ rules.kept owned world after :=
  ⟨.inl held, fun used => unspent ▸ used⟩

theorem issued_kept {after : World} {token : Token} (fresh : token ∈ rules.issued after)
    (stale : token ∉ rules.issued world) (unspent : rules.spent after = rules.spent world) :
    token ∈ rules.kept owned world after :=
  ⟨.inr ⟨fresh, stale⟩, fun used => unspent ▸ used⟩

variable {program : Program World Error Result}

/-- What the others do before the next step is part of what they may do. -/
theorem proceeds_later (trans : ∀ first second third, rules.rely owned first second → rules.rely
      owned second third → rules.rely owned first third)
    (proceeds : rules.Proceeds post failed owned program world)
    (changed : rules.rely owned world later) :
    rules.Proceeds post failed owned program later := by
  cases program with
  | done result => exact fun last more => proceeds last (trans _ _ _ changed more)
  | fail error => exact fun last more => proceeds last (trans _ _ _ changed more)
  | atomic effect next => exact fun last more => proceeds last (trans _ _ _ changed more)

theorem proceeds_settled (proceeds : ∀ later, rules.rely owned world later → rules.rely owned later
      later ∧ rules.Proceeds post failed owned program later) :
    rules.Proceeds post failed owned program world := by
  cases program with
  | done result =>
    exact fun later changed => (proceeds later changed).2 later (proceeds later changed).1
  | fail error =>
    exact fun later changed => (proceeds later changed).2 later (proceeds later changed).1
  | atomic effect next =>
    exact fun later changed => (proceeds later changed).2 later (proceeds later changed).1

theorem proceeds_weaken {after : Set Token → Result → World → Prop}
    {failing : Set Token → Error → World → Prop}
    (proceeds : rules.Proceeds post failed owned program world)
    (weaker : ∀ owned result world, post owned result world → after owned result world)
    (spoiled : ∀ owned error world, failed owned error world → failing owned error world) :
    rules.Proceeds after failing owned program world := by
  induction program generalizing owned world with
  | done result => exact fun later changed => weaker owned result later (proceeds later changed)
  | fail error => exact fun later changed => spoiled owned error later (proceeds later changed)
  | atomic effect next induction =>
    intro later changed
    obtain ⟨allowed, fair, rest⟩ := proceeds later changed
    exact ⟨allowed, fair, induction later rest⟩

section

variable
  (settles : ∀ first second, rules.rely owned first second → rules.guarantee owned second second)
include settles

theorem proceeds_observe {read : World → Except Error Result}
    (found : ∀ later result, rules.rely owned world later → read later = .ok result → ∀ last,
      rules.rely owned later last → post owned result last)
    (refused : ∀ later error, rules.rely owned world later → read later = .error error → ∀ last,
      rules.rely owned later last → failed owned error last) :
    rules.Proceeds post failed owned (Program.observe read) world := by
  intro later changed
  refine ⟨settles _ _ changed, fair_same owned later, ?_⟩
  rw [id, kept_same]
  dsimp only
  cases outcome : read later with
  | ok result => exact found later result changed outcome
  | error error => exact refused later error changed outcome

theorem proceeds_read_only {holds : World → Prop}
    (stable : ∀ first second, rules.rely owned first second → holds first → holds second)
    (readOnly : program.ReadOnly) (now : holds world) :
    rules.Proceeds (fun kept _ later => kept = owned ∧ holds later)
      (fun kept _ later => kept = owned ∧ holds later) owned program world := by
  induction program generalizing world with
  | done result => exact fun later changed => ⟨rfl, stable _ _ changed now⟩
  | fail error => exact fun later changed => ⟨rfl, stable _ _ changed now⟩
  | atomic effect next induction =>
    intro later changed
    rw [readOnly.1, id]
    refine ⟨settles _ _ changed, fair_same owned later, ?_⟩
    rw [kept_same]
    exact induction later (readOnly.2 later) (stable _ _ changed now)

theorem proceeds_transact {transaction : World → Except Error (World × Result)}
    (committed : ∀ later final result, rules.rely owned world later → transaction later = .ok
      (final, result) → rules.guarantee owned later final ∧ rules.Fair owned later final ∧ ∀ last,
      rules.rely (rules.kept owned later final) final last → post (rules.kept owned later final)
      result last)
    (refused : ∀ later error, rules.rely owned world later → transaction later = .error error → ∀
      last, rules.rely owned later last → failed owned error last) :
    rules.Proceeds post failed owned (Program.transact transaction) world := by
  intro later changed
  dsimp only
  cases outcome : transaction later with
  | ok done => exact committed later done.1 done.2 changed outcome
  | error error =>
    refine ⟨settles _ _ changed, fair_same owned later, ?_⟩
    rw [kept_same]
    exact refused later error changed outcome

end

theorem proceeds_bind {after : Set Token → Next → World → Prop}
    {next : Result → Program World Error Next}
    (settles : ∀ owned first second, rules.rely owned first second → rules.rely owned second second)
    (proceeds : rules.Proceeds (fun owned result world => rules.Proceeds after failed owned (next
      result) world) failed owned program world) :
    rules.Proceeds after failed owned (program >>= next) world := by
  induction program generalizing owned world with
  | done result =>
    refine proceeds_settled fun later changed => ?_
    exact ⟨settles owned world later changed, proceeds later changed⟩
  | fail error => exact proceeds
  | atomic effect after induction =>
    intro later changed
    obtain ⟨allowed, fair, rest⟩ := proceeds later changed
    exact ⟨allowed, fair, induction later rest⟩

theorem proceeds_attempt {ends : Set Token → Except Error Result → World → Prop}
    {never : Set Token → Error → World → Prop} (proceeds : rules.Proceeds (fun owned result => ends
      owned (.ok result)) (fun owned error => ends owned (.error error)) owned program world) :
    rules.Proceeds ends never owned program.attempt world := by
  induction program generalizing owned world with
  | done result => exact proceeds
  | fail error => exact proceeds
  | atomic effect next induction =>
    intro later changed
    obtain ⟨allowed, fair, rest⟩ := proceeds later changed
    exact ⟨allowed, fair, induction later rest⟩

end Discipline

structure Pool (World Error : Type) where
  world : World
  threads : Nat → Option (Program World Error Unit)

section Pools

variable {World Error Token : Type}

inductive Step (requests : Program World Error Unit → Prop)
    (outside restart : World → World → Prop) : Pool World Error → Pool World Error → Prop
  | start {pool : Pool World Error} (thread : Nat) (program : Program World Error Unit)
      (admitted : requests program) (idle : pool.threads thread = none) :
      Step requests outside restart pool
        { pool with threads := Function.update pool.threads thread (some program) }
  | run {pool : Pool World Error} (thread : Nat) (effect : World → World)
      (next : World → Program World Error Unit)
      (due : pool.threads thread = some (.atomic effect next)) :
      Step requests outside restart pool
        ⟨effect pool.world, Function.update pool.threads thread (some (next pool.world))⟩
  | outside {pool : Pool World Error} {later : World} (changed : outside pool.world later) :
      Step requests outside restart pool { pool with world := later }
  | restart {pool : Pool World Error} {later : World} (changed : restart pool.world later) :
      Step requests outside restart pool ⟨later, fun _ => none⟩

def Reachable (requests : Program World Error Unit → Prop)
    (outside restart : World → World → Prop) (initial : World) : Pool World Error → Prop :=
  Relation.ReflTransGen (Step requests outside restart) ⟨initial, fun _ => none⟩

variable (rules : Discipline World Token) (holds : World → Prop)

structure Settled (pool : Pool World Error) (owners : Nat → Set Token) : Prop where
  holds : holds pool.world
  proceeds : ∀ thread program, pool.threads thread = some program →
    rules.Proceeds (fun _ _ _ => True) (fun _ _ _ => True) (owners thread) program pool.world
  idle : ∀ thread, pool.threads thread = none → owners thread = ∅
  apart : ∀ first second, first ≠ second → Disjoint (owners first) (owners second)
  known : ∀ thread, owners thread ⊆ rules.issued pool.world
  unspent : ∀ thread, ∀ token ∈ rules.spent pool.world, token ∉ owners thread
  once : (rules.spent pool.world).Nodup
  paid : ∀ token ∈ rules.spent pool.world, token ∈ rules.issued pool.world

/-- What the parts of a system have to show for the rule of permits. -/
structure Sound (requests : Program World Error Unit → Prop)
    (outside restart : World → World → Prop) : Prop where
  trans : ∀ owned first second third, rules.rely owned first second →
    rules.rely owned second third → rules.rely owned first third
  starts : ∀ world program, holds world → requests program →
    rules.Proceeds (fun _ _ _ => True) (fun _ _ _ => True) ∅ program world
  steps : ∀ owned before after, holds before → rules.guarantee owned before after →
    holds after ∧ ∀ others, Disjoint owned others → others ⊆ rules.issued before →
      rules.rely others before after
  refl : ∀ owned world, holds world → rules.rely owned world world
  outside : ∀ before after, holds before → outside before after → holds after ∧
    rules.issued before ⊆ rules.issued after ∧ rules.spent after = rules.spent before ∧
      ∀ owned, rules.rely owned before after
  restart : ∀ before after, holds before → restart before after → holds after ∧
    rules.issued before ⊆ rules.issued after ∧ rules.spent after = rules.spent before

variable {rules holds} {requests : Program World Error Unit → Prop}
  {outside restart : World → World → Prop}

variable {pool : Pool World Error} {thread : Nat}

section

variable (sound : Sound rules holds requests outside restart)
include sound

theorem settled_start {owners : Nat → Set Token} (settled : Settled rules holds pool owners)
    {program : Program World Error Unit} (admitted : requests program)
    (idle : pool.threads thread = none) :
    Settled rules holds
      { pool with threads := Function.update pool.threads thread (some program) } owners := by
  refine ⟨settled.holds, ?_, ?_, settled.apart, settled.known, settled.unspent, settled.once,
    settled.paid⟩
  · intro other current due
    dsimp only at due ⊢
    by_cases same : other = thread
    · subst same
      rw [Function.update_self] at due
      cases due
      rw [settled.idle _ idle]
      exact sound.starts _ _ settled.holds admitted
    · rw [Function.update_of_ne same] at due
      exact settled.proceeds other current due
  · intro other empty
    dsimp only at empty
    by_cases same : other = thread
    · subst same
      exact settled.idle _ idle
    · rw [Function.update_of_ne same] at empty
      exact settled.idle other empty

theorem settled_run {owners : Nat → Set Token} (settled : Settled rules holds pool owners)
    {effect : World → World} {next : World → Program World Error Unit}
    (due : pool.threads thread = some (.atomic effect next)) :
    Settled rules holds
      ⟨effect pool.world, Function.update pool.threads thread (some (next pool.world))⟩
      (Function.update owners thread
        (rules.kept (owners thread) pool.world (effect pool.world))) := by
  obtain ⟨allowed, ⟨wider, uses, paid, usedOnce, own⟩, rest⟩ :=
    settled.proceeds thread _ due pool.world (sound.refl _ _ settled.holds)
  obtain ⟨still, others⟩ := sound.steps _ _ _ settled.holds allowed
  have otherApart : ∀ other, other ≠ thread → Disjoint
      (rules.kept (owners thread) pool.world (effect pool.world)) (owners other) := by
    intro other differs
    rw [Set.disjoint_left]
    intro token mine theirs
    rcases mine.1 with had | ⟨-, fresh⟩
    · exact Set.disjoint_left.mp (settled.apart thread other (Ne.symm differs)) had theirs
    · exact fresh (settled.known other theirs)
  refine ⟨still, ?_, ?_, ?_, ?_, ?_, ?_, ?_⟩
  · intro other current found
    dsimp only at found ⊢
    by_cases same : other = thread
    · subst same
      rw [Function.update_self] at found ⊢
      cases found
      exact rest
    · rw [Function.update_of_ne same] at found ⊢
      exact Discipline.proceeds_later (sound.trans _) (settled.proceeds other current found)
        (others _ (settled.apart thread other (Ne.symm same)) (settled.known other))
  · intro other empty
    dsimp only at empty
    by_cases same : other = thread
    · subst same
      rw [Function.update_self] at empty
      cases empty
    · rw [Function.update_of_ne same] at empty ⊢
      exact settled.idle other empty
  · intro first second differ
    by_cases mine : first = thread
    · subst mine
      rw [Function.update_self, Function.update_of_ne (Ne.symm differ)]
      exact otherApart second (Ne.symm differ)
    · rw [Function.update_of_ne mine]
      by_cases yours : second = thread
      · subst yours
        rw [Function.update_self]
        exact (otherApart first mine).symm
      · rw [Function.update_of_ne yours]
        exact settled.apart first second differ
  · intro other token held
    by_cases same : other = thread
    · subst same
      rw [Function.update_self] at held
      rcases held.1 with had | ⟨fresh, -⟩
      · exact wider (settled.known _ had)
      · exact fresh
    · rw [Function.update_of_ne same] at held
      exact wider (settled.known other held)
  · intro other token used held
    by_cases same : other = thread
    · subst same
      rw [Function.update_self] at held
      have before := held.2 used
      rcases held.1 with had | ⟨-, fresh⟩
      · exact settled.unspent _ token before had
      · exact fresh (settled.paid token before)
    · rw [Function.update_of_ne same] at held
      rw [show rules.spent (effect pool.world) = _ from paid] at used
      rcases List.mem_append.mp used with now | before
      · exact Set.disjoint_left.mp (settled.apart thread other (Ne.symm same)) (own token now)
          held
      · exact settled.unspent other token before held
  · rw [show rules.spent (effect pool.world) = _ from paid]
    refine List.Nodup.append usedOnce settled.once ?_
    intro token now before
    exact settled.unspent thread token before (own token now)
  · intro token used
    rw [show rules.spent (effect pool.world) = _ from paid] at used
    rcases List.mem_append.mp used with now | before
    · exact wider (settled.known thread (own token now))
    · exact wider (settled.paid token before)

theorem settled_step {before after : Pool World Error} {owners : Nat → Set Token}
    (settled : Settled rules holds before owners)
    (step : Step requests outside restart before after) :
    ∃ owners, Settled rules holds after owners := by
  cases step with
  | start thread program admitted idle => exact ⟨owners, settled_start sound settled admitted idle⟩
  | run thread effect next due => exact ⟨_, settled_run sound settled due⟩
  | outside changed =>
    obtain ⟨still, wider, spent, relied⟩ := sound.outside _ _ settled.holds changed
    refine ⟨owners, still, ?_, settled.idle, settled.apart, ?_, ?_, ?_, ?_⟩
    · exact fun thread program due => Discipline.proceeds_later (sound.trans _)
        (settled.proceeds thread program due) (relied _)
    · exact fun thread => (settled.known thread).trans wider
    · rw [show rules.spent _ = _ from spent]
      exact settled.unspent
    · rw [show rules.spent _ = _ from spent]
      exact settled.once
    · rw [show rules.spent _ = _ from spent]
      exact fun token used => wider (settled.paid token used)
  | restart changed =>
    obtain ⟨still, wider, spent⟩ := sound.restart _ _ settled.holds changed
    refine ⟨fun _ => ∅, still, ?_, fun _ _ => rfl, fun _ _ _ => Set.disjoint_empty _,
      fun _ => Set.empty_subset _, fun _ _ _ => Set.notMem_empty _, ?_, ?_⟩
    · intro thread program due
      cases due
    · rw [show rules.spent _ = _ from spent]
      exact settled.once
    · rw [show rules.spent _ = _ from spent]
      exact fun token used => wider (settled.paid token used)

theorem reachable_settled {initial : World} (begins : holds initial)
    (unspent : rules.spent initial = [])
    (reached : Reachable requests outside restart initial pool) :
    ∃ owners, Settled rules holds pool owners := by
  induction reached with
  | refl =>
    refine ⟨fun _ => ∅, begins, ?_, fun _ _ => rfl, fun _ _ _ => Set.disjoint_empty _,
      fun _ => Set.empty_subset _, fun _ _ _ => Set.notMem_empty _, ?_, ?_⟩
    · intro thread program due
      cases due
    · rw [show rules.spent _ = _ from unspent]
      exact List.nodup_nil
    · rw [show rules.spent _ = _ from unspent]
      exact fun token used => absurd used List.not_mem_nil
  | tail _ step induction =>
    obtain ⟨owners, settled⟩ := induction
    exact settled_step sound settled step

end

theorem reachable_advance {initial : World}
    (reached : Reachable requests outside restart initial pool) (steps : Nat)
    (program : Program World Error Unit) (due : pool.threads thread = some program) :
    Reachable requests outside restart initial
      ⟨(program.advance steps pool.world).2,
        Function.update pool.threads thread (some (program.advance steps pool.world).1)⟩ := by
  induction steps generalizing pool program with
  | zero =>
    have same : Function.update pool.threads thread (some program) = pool.threads :=
      due ▸ Function.update_eq_self thread pool.threads
    cases program <;> exact same.symm ▸ reached
  | succ steps induction =>
    cases program with
    | done result =>
      have same : Function.update pool.threads thread (some (.done result)) = pool.threads :=
        due ▸ Function.update_eq_self thread pool.threads
      exact same.symm ▸ reached
    | fail error =>
      have same : Function.update pool.threads thread (some (.fail error)) = pool.threads :=
        due ▸ Function.update_eq_self thread pool.threads
      exact same.symm ▸ reached
    | atomic effect next =>
      have moved := induction (reached.tail (.run thread effect next due)) (next pool.world)
        (Function.update_self ..)
      rw [Function.update_idem] at moved
      exact moved

theorem reachable_start {initial : World}
    (reached : Reachable requests outside restart initial pool) (steps : Nat)
    {program : Program World Error Unit} (admitted : requests program)
    (idle : pool.threads thread = none) :
    Reachable requests outside restart initial
      ⟨(program.advance steps pool.world).2,
        Function.update pool.threads thread (some (program.advance steps pool.world).1)⟩ := by
  have moved := reachable_advance (reached.tail (.start thread program admitted idle)) steps
    program (Function.update_self ..)
  rw [Function.update_idem] at moved
  exact moved

end Pools

end Atlaso.Library.RequestThreads
