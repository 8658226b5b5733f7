import Mathlib.Data.List.Basic

/-!
Simp rules for computations that return a value or an error.

`Except` is used through its monad notation everywhere else; these rules take a `do`
block apart one bind at a time.
-/

namespace Atlaso.Library.Outcomes

universe u v

variable {Error : Type u} {Value Next : Type v}

@[simp] theorem ok_bind (value : Value) (next : Value → Except Error Next) :
    (Except.ok value >>= next) = next value := rfl

@[simp] theorem error_bind (raised : Error) (next : Value → Except Error Next) :
    ((Except.error raised : Except Error Value) >>= next) = .error raised := rfl

@[simp] theorem pure_is_ok (value : Value) : (pure value : Except Error Value) = .ok value := rfl

@[simp] theorem throw_is_error (raised : Error) :
    (throw raised : Except Error Value) = .error raised := rfl

theorem bind_ok_iff {first : Except Error Value} {next : Value → Except Error Next}
    {result : Next} :
    (first >>= next) = .ok result ↔ ∃ value, first = .ok value ∧ next value = .ok result := by
  cases first with
  | error raised => simp
  | ok value => simp

end Atlaso.Library.Outcomes
