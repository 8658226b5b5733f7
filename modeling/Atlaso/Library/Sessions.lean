import Mathlib.Tactic.Common

/-!
Database sessions: work on a copy of what is saved, until it is committed or rolled back.

Work that raises keeps the changes it made so far in the session. A transaction rolls them back.
-/

namespace Atlaso.Library.Sessions

structure Session (Store : Type) where
  (saved working : Store)

def Session.opened {Store : Type} (store : Store) : Session Store := ⟨store, store⟩

def Session.rollback {Store : Type} (session : Session Store) : Session Store :=
  .opened session.saved

def Session.commit {Store : Type} (session : Session Store) : Session Store :=
  .opened session.working

abbrev Work (Store Failure Value : Type) :=
  Session Store → Except Failure Value × Session Store

namespace Work

variable {Store Failure Value Next : Type}

def give (value : Value) : Work Store Failure Value := fun session => (.ok value, session)

def raise (failure : Failure) : Work Store Failure Value := fun session => (.error failure, session)

def andThen (first : Work Store Failure Value) (next : Value → Work Store Failure Next) :
    Work Store Failure Next := fun session =>
  match first session with
  | (.ok value, after) => next value after
  | (.error failure, after) => (.error failure, after)

instance : Monad (Work Store Failure) where
  pure := give
  bind := andThen

/-- The rows as the session sees them. -/
def read : Work Store Failure Store := fun session => (.ok session.working, session)

def change (edit : Store → Store) : Work Store Failure Unit := fun session =>
  (.ok (), { session with working := edit session.working })

def mayRaise : Option Failure → Work Store Failure Unit
  | none => give ()
  | some failure => raise failure

def ofOption (failure : Failure) : Option Value → Work Store Failure Value
  | none => raise failure
  | some value => give value

/-- `try: ... except: rollback; raise`, where `translate` is what is raised instead. -/
def guarded (translate : Failure → Failure) (work : Work Store Failure Value) :
    Work Store Failure Value := fun session =>
  match work session with
  | (.ok value, after) => (.ok value, after)
  | (.error failure, after) => (.error (translate failure), after.rollback)

def commit (fault : Option Failure) : Work Store Failure Unit := fun session =>
  match fault with
  | none => (.ok (), session.commit)
  | some failure => (.error failure, session)

/-! ### Work that does not commit -/

def Kept (work : Work Store Failure Value) : Prop := ∀ session, (work session).2.saved = session.saved

theorem kept_pure (value : Value) : Kept (pure value : Work Store Failure Value) := fun _ => rfl

theorem kept_raise (failure : Failure) : Kept (raise failure : Work Store Failure Value) :=
  fun _ => rfl

theorem kept_read : Kept (read : Work Store Failure Store) := fun _ => rfl

theorem kept_change (edit : Store → Store) : Kept (change edit : Work Store Failure Unit) :=
  fun _ => rfl

theorem kept_may_raise (fault : Option Failure) : Kept (mayRaise fault : Work Store Failure Unit) := by
  cases fault <;> exact fun _ => rfl

theorem kept_of_option (failure : Failure) (value : Option Value) :
    Kept (ofOption failure value : Work Store Failure Value) := by
  cases value <;> exact fun _ => rfl

variable {next : Value → Work Store Failure Next} {result : Value} {work : Work Store Failure Value}

variable {first : Work Store Failure Value} {failure : Failure}

theorem kept_bind (before : Kept first) (after : ∀ value, Kept (next value)) :
    Kept (first >>= next) := by
  intro session
  have start := before session
  change (andThen first next session).2.saved = session.saved
  rw [andThen]
  rcases same : first session with ⟨failure | value, middle⟩
  · rwa [same] at start
  · rw [same] at start
    exact (after value middle).trans start

/-! ### Success -/

theorem bind_ok {session after : Session Store} {result : Next}
    (returned : (first >>= next) session = (.ok result, after)) :
    ∃ value middle, first session = (.ok value, middle) ∧ next value middle = (.ok result, after) := by
  change andThen first next session = _ at returned
  rw [andThen] at returned
  rcases same : first session with ⟨failure | value, middle⟩
  · rw [same] at returned
    cases returned
  · rw [same] at returned
    exact ⟨value, middle, rfl, returned⟩

theorem read_ok {session after : Session Store} {store : Store}
    (returned : (read : Work Store Failure Store) session = (.ok store, after)) :
    store = session.working ∧ after = session := by
  cases returned
  exact ⟨rfl, rfl⟩

theorem change_ok {edit : Store → Store} {session after : Session Store} {value : Unit}
    (returned : (change edit : Work Store Failure Unit) session = (.ok value, after)) :
    after = ⟨session.saved, edit session.working⟩ := by
  cases returned
  rfl

theorem pure_ok {session after : Session Store} {value : Value}
    (returned : (pure value : Work Store Failure Value) session = (.ok result, after)) :
    result = value ∧ after = session := by
  cases returned
  exact ⟨rfl, rfl⟩

theorem raise_ok {session after : Session Store}
    (returned : (raise failure : Work Store Failure Value) session = (.ok result, after)) :
    False := by
  cases returned

theorem may_raise_ok {fault : Option Failure} {session after : Session Store} {value : Unit}
    (returned : mayRaise fault session = (.ok value, after)) : fault = none ∧ after = session := by
  cases fault with
  | none =>
    cases returned
    exact ⟨rfl, rfl⟩
  | some failure => cases returned

theorem of_option_ok {value : Option Value} {session after : Session Store}
    (returned : ofOption failure value session = (.ok result, after)) :
    value = some result ∧ after = session := by
  cases value with
  | none => cases returned
  | some value =>
    cases returned
    exact ⟨rfl, rfl⟩

/-! ### Transactions -/

/-- Work that either fails and leaves a session without changes as it was, or commits a store that
keeps a promise. -/
def Atomic (promise : Store → Store → Prop) (work : Work Store Failure Value) : Prop := ∀ store,
  (∃ failure, work (.opened store) = (.error failure, .opened store)) ∨
  ∃ value next, work (.opened store) = (.ok value, .opened next) ∧ promise store next

variable {promise : Store → Store → Prop}

theorem atomic_may_raise (atomic : Atomic promise work) (fault : Option Failure) :
    Atomic promise (mayRaise fault >>= fun _ => work) := by
  cases fault with
  | none => exact atomic
  | some failure => exact fun _ => .inl ⟨failure, rfl⟩

theorem atomic_read {next : Store → Work Store Failure Value}
    (atomic : ∀ store, Atomic promise (next store)) : Atomic promise (read >>= next) :=
  fun store => atomic store store

theorem atomic_of_option (failure : Failure) (value : Option Value)
    (atomic : ∀ value, Atomic promise (next value)) :
    Atomic promise (ofOption failure value >>= next) := by
  cases value with
  | none => exact fun _ => .inl ⟨failure, rfl⟩
  | some value => exact atomic value

theorem atomic_return (atomic : Atomic promise work) (result : Next) :
    Atomic promise (work >>= fun _ => pure result) := by
  intro store
  change (∃ failure, andThen work (fun _ => give result) _ = _) ∨ ∃ value next,
    andThen work (fun _ => give result) _ = _ ∧ _
  rcases atomic store with ⟨failure, failed⟩ | ⟨value, next, returned, kept⟩
  · rw [andThen, failed]
    exact .inl ⟨failure, rfl⟩
  · rw [andThen, returned]
    exact .inr ⟨result, next, rfl, kept⟩

theorem atomic_guarded (atomic : Atomic promise work) (translate : Failure → Failure) :
    Atomic promise (guarded translate work) := by
  intro store
  rw [guarded]
  rcases atomic store with ⟨failure, failed⟩ | ⟨value, next, returned, kept⟩
  · rw [failed]
    exact .inl ⟨translate failure, rfl⟩
  · rw [returned]
    exact .inr ⟨value, next, rfl, kept⟩

theorem atomic_commit {body : Work Store Failure Value} (kept : Kept body)
    (keeps : ∀ store value after, body (.opened store) = (.ok value, after) →
      promise store after.working)
    (translate : Failure → Failure) (fault : Option Failure) :
    Atomic promise (guarded translate
      (body >>= fun value => commit fault >>= fun _ => pure value)) := by
  intro store
  have start := kept (.opened store)
  have unfolded : (body >>= fun value => commit fault >>= fun _ => pure value) (.opened store) =
      andThen body (fun value => andThen (commit fault) fun _ => give value) (.opened store) := rfl
  rw [guarded, unfolded, andThen]
  rcases same : body (.opened store) with ⟨failure | value, after⟩
  · rw [same] at start
    exact .inl ⟨translate failure, Prod.ext rfl (congrArg Session.opened start)⟩
  · rw [same] at start
    cases fault with
    | none => exact .inr ⟨value, after.working, rfl, keeps store value after same⟩
    | some failure => exact .inl ⟨translate failure, Prod.ext rfl (congrArg Session.opened start)⟩

end Work

end Atlaso.Library.Sessions
