import Atlaso.Library.Numerals
import Atlaso.Library.RecencyMap
import Atlaso.Oidc.Records
import Mathlib.Data.Rat.Defs
import Mathlib.Algebra.Order.Ring.Rat
import Mathlib.Data.Finset.Card
import Mathlib.Tactic.Linarith

/-!
Throttling of the sign-in form: the buckets of failed sign-ins, one for each client, source,
organization and username.

A bucket holds the times of the failures in the last minute. The buckets form a queue, and a
failure drops those at its front while there are too many. A sign-in that is checked opens a
bucket but drops none, and does not move a bucket that is already there unless it is refused.

Times are seconds of the monotonic clock. `str.casefold` is a parameter.
-/

namespace Atlaso.Oidc.LoginThrottle

open Library TextFields Dictionary Numerals RecencyMap Records

def OIDC_LOGIN_ATTEMPTS : Nat := 5

def OIDC_LOGIN_WINDOW_SECONDS : ℚ := 60

def OIDC_LOGIN_BUCKET_LIMIT : Nat := 4096

/-- The characters of `token_urlsafe`. -/
def isUrlSafe (c : Char) : Bool := c.isAlphanum || c = '-' || c = '_'

/-- A public client id. A field separator cannot occur in it. -/
structure ClientId where
  text : List Char
  plain : ':' ∉ text
  deriving DecidableEq

def generateClientId (token : List Char) (drawn : ∀ c ∈ token, isUrlSafe c = true) : ClientId where
  text := "lf_oidc_".toList ++ token
  plain := by
    intro inside
    rcases List.mem_append.mp inside with fixed | random
    · exact absurd fixed (by decide)
    · exact absurd (drawn ':' random) (by decide)

def sourceName : Source → List Char
  | .localSource => "local".toList
  | .managedLdap => "managed_ldap".toList

/-- What a bucket is for: a client, a source, an organization and a normalised username. -/
structure LoginKey where
  clientId : ClientId
  source : Source
  organization : Nat
  username : List Char
  deriving DecidableEq

/-- `_login_bucket_key` of what it was given. -/
def LoginKey.bucketKey (key : LoginKey) : List Char :=
  key.clientId.text ++ ':' :: (sourceName key.source ++ ':' ::
    (Nat.toDigits 10 key.organization ++ ':' :: key.username))

abbrev Buckets := List (List Char × List ℚ)

/-- `while attempts and attempts[0] <= now - OIDC_LOGIN_WINDOW_SECONDS: attempts.popleft()` -/
def expire (now : ℚ) (attempts : List ℚ) : List ℚ :=
  attempts.dropWhile fun moment => moment ≤ now - OIDC_LOGIN_WINDOW_SECONDS

def attemptsOf (key : List Char) (buckets : Buckets) : List ℚ := (getItem key buckets).getD []

/-- `_login_throttled` at the time `now`, and the buckets it leaves. -/
def loginThrottled (now : ℚ) (key : List Char) (buckets : Buckets) : Bool × Buckets :=
  let opened := setDefault key [] buckets
  let attempts := expire now (attemptsOf key opened)
  let pruned := setItem key attempts opened
  if OIDC_LOGIN_ATTEMPTS ≤ attempts.length then (true, moveToEnd key pruned) else (false, pruned)

/-- `_record_login_failure` at the time `now`. -/
def recordLoginFailure (now : ℚ) (key : List Char) (buckets : Buckets) : Buckets :=
  let opened := setDefault key [] buckets
  let attempts := expire now (attemptsOf key opened)
  shrink OIDC_LOGIN_BUCKET_LIMIT (moveToEnd key (setItem key (attempts ++ [now]) opened))

/-- A sign-in form, with the clock at its check for throttling and after its credentials were
looked at, and whether those were right. Nothing else runs in between. -/
structure LoginAttempt where
  clientId : ClientId
  source : Source
  organizationId : Option Nat
  username : List Char
  (checkedAt verifiedAt : ℚ)
  verified : Bool
  forward : checkedAt ≤ verifiedAt
  deriving DecidableEq

def LoginAttempt.key (casefold : List Char → List Char) (attempt : LoginAttempt) : LoginKey where
  clientId := attempt.clientId
  source := attempt.source
  organization := attempt.organizationId.getD 0
  username := casefold (strip attempt.username)

inductive SignIn where
  /-- Status 429. -/
  | limited
  /-- Status 401, after the failure was recorded. -/
  | invalid | signedIn
  deriving DecidableEq, Repr

def authorizePost (casefold : List Char → List Char) (buckets : Buckets) (attempt : LoginAttempt) :
    SignIn × Buckets :=
  let key := (attempt.key casefold).bucketKey
  match loginThrottled attempt.checkedAt key buckets with
  | (true, moved) => (.limited, moved)
  | (false, pruned) =>
    if attempt.verified then (.signedIn, pruned)
    else (.invalid, recordLoginFailure attempt.verifiedAt key pruned)

/-! ### Bucket keys -/

theorem field_injective {separator : Char} {left right leftRest rightRest : List Char}
    (leftPlain : separator ∉ left) (rightPlain : separator ∉ right)
    (same : left ++ separator :: leftRest = right ++ separator :: rightRest) :
    left = right ∧ leftRest = rightRest := by
  induction left generalizing right with
  | nil =>
    cases right with
    | nil => exact ⟨rfl, List.tail_eq_of_cons_eq same⟩
    | cons c right =>
      have head := List.head_eq_of_cons_eq same
      exact absurd (head ▸ List.mem_cons_self) rightPlain
  | cons c left induction =>
    cases right with
    | nil =>
      have head := List.head_eq_of_cons_eq same
      exact absurd (head ▸ List.mem_cons_self) leftPlain
    | cons d right =>
      have head := List.head_eq_of_cons_eq same
      have tail := List.tail_eq_of_cons_eq same
      obtain ⟨fields, rests⟩ := induction (fun inside => leftPlain (List.mem_cons_of_mem _ inside))
        (fun inside => rightPlain (List.mem_cons_of_mem _ inside)) tail
      exact ⟨by rw [head, fields], rests⟩

theorem source_name_plain (source : Source) : ':' ∉ sourceName source := by
  cases source <;> decide

theorem source_name_injective : Function.Injective sourceName := by
  intro left right same
  cases left <;> cases right <;> first | rfl | exact absurd same (by decide)

theorem digits_plain (value : Nat) : ':' ∉ Nat.toDigits 10 value := by
  intro inside
  exact absurd (Nat.isDigit_of_mem_toDigits (by decide) (by decide) inside) (by decide)

/-- Two sign-ins share a bucket when all four of their fields agree, and only then. -/
theorem bucket_key_injective : Function.Injective LoginKey.bucketKey := by
  intro left right same
  obtain ⟨client, same⟩ := field_injective left.clientId.plain right.clientId.plain same
  obtain ⟨source, same⟩ :=
    field_injective (source_name_plain left.source) (source_name_plain right.source) same
  obtain ⟨organization, username⟩ :=
    field_injective (digits_plain left.organization) (digits_plain right.organization) same
  obtain ⟨⟨_, _⟩, _, _, _⟩ := left
  obtain ⟨⟨_, _⟩, _, _, _⟩ := right
  obtain rfl := source_name_injective source
  obtain rfl := digits_injective organization
  dsimp only at client username
  subst client username
  rfl

/-! ### A bucket after each of the two functions -/

/-- What is left of failures in their order is those of the last minute. -/
theorem expire_append {now : ℚ} {attempts : List ℚ} (sorted : attempts.Pairwise (· ≤ ·)) :
    ∃ old, attempts = old ++ expire now attempts ∧
      (∀ moment ∈ old, moment + OIDC_LOGIN_WINDOW_SECONDS ≤ now) ∧
      ∀ moment ∈ expire now attempts, now < moment + OIDC_LOGIN_WINDOW_SECONDS := by
  induction attempts with
  | nil => exact ⟨[], rfl, by simp, by simp [expire]⟩
  | cons first attempts induction =>
    obtain ⟨least, sorted⟩ := List.pairwise_cons.mp sorted
    by_cases gone : first ≤ now - OIDC_LOGIN_WINDOW_SECONDS
    · obtain ⟨old, split, before, live⟩ := induction sorted
      have pruned : expire now (first :: attempts) = expire now attempts := by
        rw [expire, List.dropWhile_cons_of_pos (by simpa using gone), ← expire]
      refine ⟨first :: old, by rw [pruned, List.cons_append, ← split], ?_, pruned ▸ live⟩
      intro moment inside
      rcases List.mem_cons.mp inside with same | later
      · linarith [same ▸ gone]
      · exact before moment later
    · have kept : expire now (first :: attempts) = first :: attempts := by
        rw [expire, List.dropWhile_cons_of_neg (by simpa using gone)]
      refine ⟨[], by rw [kept, List.nil_append], by simp, ?_⟩
      intro moment inside
      rw [kept] at inside
      rcases List.mem_cons.mp inside with same | later
      · linarith [same ▸ not_le.mp gone]
      · linarith [least moment later, not_le.mp gone]

theorem attempts_of_set_default (key other : List Char) (buckets : Buckets) :
    attemptsOf other (setDefault key [] buckets) = attemptsOf other buckets := by
  rw [attemptsOf, get_item_set_default]
  by_cases same : other = key
  · rw [if_pos same, same]
    rfl
  · rw [if_neg same]
    rfl

theorem attempts_of_set_item (key other : List Char) (attempts : List ℚ) (buckets : Buckets) :
    attemptsOf other (setItem key attempts buckets) =
      if other = key then attempts else attemptsOf other buckets := by
  rw [attemptsOf, get_item_set_item]
  by_cases same : other = key
  · rw [if_pos same, if_pos same]
    rfl
  · rw [if_neg same, if_neg same]
    rfl

theorem attempts_of_move_to_end (key other : List Char) (buckets : Buckets) :
    attemptsOf other (moveToEnd key buckets) = attemptsOf other buckets := by
  rw [attemptsOf, get_item_move_to_end]
  rfl

theorem login_throttled_limited (now : ℚ) (key : List Char) (buckets : Buckets) :
    (loginThrottled now key buckets).1 = true ↔
      OIDC_LOGIN_ATTEMPTS ≤ (expire now (attemptsOf key buckets)).length := by
  rw [loginThrottled, attempts_of_set_default]
  by_cases many : OIDC_LOGIN_ATTEMPTS ≤ (expire now (attemptsOf key buckets)).length
  · rw [if_pos many]
    exact iff_of_true rfl many
  · rw [if_neg many]
    exact iff_of_false Bool.false_ne_true many

theorem record_login_failure_length (now : ℚ) (key : List Char) (buckets : Buckets) :
    (recordLoginFailure now key buckets).length ≤ OIDC_LOGIN_BUCKET_LIMIT :=
  shrink_length _ _

end Atlaso.Oidc.LoginThrottle
