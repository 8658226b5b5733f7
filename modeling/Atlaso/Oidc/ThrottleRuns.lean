import Atlaso.Oidc.LoginThrottle
import Mathlib.Data.Finset.Image

/-!
Runs of sign-ins: how many failures a key can have in a minute, who is refused, and how many
buckets there are.

The buckets stand in the order in which they were last tried. A failure of the last minute is
lost only when as many other keys as there may be buckets were tried since.
-/

namespace Atlaso.Oidc.ThrottleRuns

open Library Dictionary RecencyMap Records LoginThrottle

structure History where
  log : List (LoginAttempt × SignIn)
  buckets : Buckets

section Runs

variable (casefold : List Char → List Char)

def serve (history : History) (attempt : LoginAttempt) : History where
  log := history.log ++ [(attempt, (authorizePost casefold history.buckets attempt).1)]
  buckets := (authorizePost casefold history.buckets attempt).2

/-- The sign-ins of a process, which starts without buckets. -/
def run (attempts : List LoginAttempt) : History := attempts.foldl (serve casefold) ⟨[], []⟩

/-- Each sign-in begins when the one before is done with. -/
def InOrder (attempts : List LoginAttempt) : Prop :=
  attempts.Pairwise fun earlier later => earlier.verifiedAt ≤ later.checkedAt

def within (moment time : ℚ) : Bool := moment - OIDC_LOGIN_WINDOW_SECONDS < time && time ≤ moment

def keysTried (moment : ℚ) (attempts : List LoginAttempt) : Finset LoginKey :=
  ((attempts.filter fun attempt => within moment attempt.checkedAt).map
    (LoginAttempt.key casefold)).toFinset

/-- When the credential checks of a key failed. -/
def failures (key : LoginKey) (log : List (LoginAttempt × SignIn)) : List ℚ :=
  (log.filter fun entry => entry.1.key casefold = key ∧ entry.2 = .invalid).map
    fun entry => entry.1.verifiedAt

def failuresWithin (key : LoginKey) (moment : ℚ) (log : List (LoginAttempt × SignIn)) : List ℚ :=
  (failures casefold key log).filter (within moment)

theorem run_snoc (attempts : List LoginAttempt) (attempt : LoginAttempt) :
    run casefold (attempts ++ [attempt]) = serve casefold (run casefold attempts) attempt := by
  rw [run, List.foldl_append]
  rfl

theorem keys_tried_subset {fewer more : List LoginAttempt} (subset : fewer ⊆ more) (moment : ℚ) :
    keysTried casefold moment fewer ⊆ keysTried casefold moment more := by
  intro key inside
  simp only [keysTried, List.mem_toFinset, List.mem_map, List.mem_filter] at inside ⊢
  obtain ⟨attempt, ⟨member, recent⟩, same⟩ := inside
  exact ⟨attempt, ⟨subset member, recent⟩, same⟩

theorem keys_tried_length (moment : ℚ) (attempts : List LoginAttempt) :
    (keysTried casefold moment attempts).card ≤ attempts.length := by
  apply (List.toFinset_card_le _).trans
  rw [List.length_map]
  exact List.length_filter_le _ attempts

end Runs

/-! ### What the buckets hold -/

section Invariant

variable {casefold : List Char → List Char}

/-- When the credential checks failed that are counted in one bucket. -/
def bucketFailures (casefold : List Char → List Char) (log : List (LoginAttempt × SignIn))
    (key : List Char) : List ℚ :=
  (log.filter fun entry => (entry.1.key casefold).bucketKey = key ∧ entry.2 = .invalid).map
    fun entry => entry.1.verifiedAt

theorem failures_of_bucket (key : LoginKey) (log : List (LoginAttempt × SignIn)) :
    failures casefold key log = bucketFailures casefold log key.bucketKey := by
  rw [failures, bucketFailures]
  congr 1
  apply List.filter_congr
  intro entry _
  simp only [bucket_key_injective.eq_iff]

theorem bucket_failures_snoc (log : List (LoginAttempt × SignIn)) (entry : LoginAttempt × SignIn)
    (key : List Char) :
    bucketFailures casefold (log ++ [entry]) key = bucketFailures casefold log key ++
      if (entry.1.key casefold).bucketKey = key ∧ entry.2 = .invalid then [entry.1.verifiedAt]
      else [] := by
  rw [bucketFailures, List.filter_append, List.map_append, ← bucketFailures]
  by_cases counted : (entry.1.key casefold).bucketKey = key ∧ entry.2 = .invalid
  · rw [if_pos counted, List.filter_cons_of_pos (by simpa using counted)]
    rfl
  · rw [if_neg counted, List.filter_cons_of_neg (by simpa using counted)]
    rfl

def TriedSince (casefold : List Char → List Char) (tried : List LoginAttempt)
    (entry : List Char × List ℚ) (later : List Char) : Prop :=
  ∀ moment ∈ entry.2, ∃ attempt ∈ tried,
    (attempt.key casefold).bucketKey = later ∧ moment ≤ attempt.checkedAt

/-- The buckets at a time, after some sign-ins and the failures they had. A failure that is in
no bucket is a minute old. -/
structure Throttle (casefold : List Char → List Char) (tried : List LoginAttempt)
    (failed : List Char → List ℚ) (clock : ℚ) (buckets : Buckets) : Prop where
  distinct : (buckets.map Prod.fst).Nodup
  ordered : Ordered (TriedSince casefold tried) buckets
  triedPast : ∀ attempt ∈ tried, attempt.checkedAt ≤ clock
  failedPast : ∀ key, ∀ moment ∈ failed key, moment ≤ clock
  sorted : ∀ key, (failed key).Pairwise (· ≤ ·)
  kept : ∀ key, ∃ old, failed key = old ++ attemptsOf key buckets ∧
    ∀ moment ∈ old, moment + OIDC_LOGIN_WINDOW_SECONDS ≤ clock

variable {tried : List LoginAttempt} {failed : List Char → List ℚ} {clock : ℚ} {buckets : Buckets}

theorem Throttle.start (clock : ℚ) : Throttle casefold [] (fun _ => []) clock [] where
  distinct := List.nodup_nil
  ordered := List.Pairwise.nil
  triedPast := by simp
  failedPast := by simp
  sorted := fun _ => List.Pairwise.nil
  kept := fun _ => ⟨[], rfl, by simp⟩

section

variable (holds : Throttle casefold tried failed clock buckets)
include holds

theorem Throttle.attempts_failed (key : List Char) : attemptsOf key buckets <:+ failed key := by
  obtain ⟨old, split, _⟩ := holds.kept key
  exact ⟨old, split.symm⟩

theorem Throttle.attempts_sorted (key : List Char) : (attemptsOf key buckets).Pairwise (· ≤ ·) :=
  (holds.sorted key).sublist (holds.attempts_failed key).sublist

theorem Throttle.attempts_past {entry : List Char × List ℚ} (inside : entry ∈ buckets) :
    ∀ moment ∈ entry.2, moment ≤ clock := by
  intro moment member
  have found : attemptsOf entry.1 buckets = entry.2 := by
    rw [attemptsOf, (get_item_iff holds.distinct).mpr inside]
    rfl
  apply holds.failedPast entry.1
  exact (holds.attempts_failed entry.1).subset (found ▸ member)

theorem Throttle.live {now : ℚ} (later : clock ≤ now) (key : List Char) :
    ∃ old, failed key = old ++ expire now (attemptsOf key buckets) ∧
      (∀ moment ∈ old, moment + OIDC_LOGIN_WINDOW_SECONDS ≤ now) ∧
      ∀ moment ∈ expire now (attemptsOf key buckets),
        now < moment + OIDC_LOGIN_WINDOW_SECONDS := by
  obtain ⟨lost, split, before⟩ := holds.kept key
  obtain ⟨expired, parts, gone, live⟩ := @expire_append now _ (holds.attempts_sorted key)
  refine ⟨lost ++ expired, ?_, ?_, live⟩
  · rw [List.append_assoc, ← parts, ← split]
  · intro moment inside
    rcases List.mem_append.mp inside with dropped | pruned
    · exact (before moment dropped).trans later
    · exact gone moment pruned

end

theorem tried_since_more {entry : List Char × List ℚ} {key : List Char} (attempt : LoginAttempt)
    (since : TriedSince casefold tried entry key) :
    TriedSince casefold (tried ++ [attempt]) entry key := by
  intro moment inside
  obtain ⟨other, member, same, after⟩ := since moment inside
  exact ⟨other, List.mem_append_left _ member, same, after⟩

theorem Throttle.later (holds : Throttle casefold tried failed clock buckets) {now : ℚ}
    (later : clock ≤ now) : Throttle casefold tried failed now buckets :=
  { holds with
    triedPast := fun attempt inside => (holds.triedPast attempt inside).trans later
    failedPast := fun key moment inside => (holds.failedPast key moment inside).trans later
    kept := by
      intro key
      obtain ⟨old, split, before⟩ := holds.kept key
      exact ⟨old, split, fun moment inside => (before moment inside).trans later⟩ }

theorem Throttle.tries (holds : Throttle casefold tried failed clock buckets)
    (attempt : LoginAttempt) (later : clock ≤ attempt.checkedAt) :
    Throttle casefold (tried ++ [attempt]) failed attempt.checkedAt buckets :=
  { holds.later later with
    ordered := holds.ordered.mono fun _ _ _ since => tried_since_more attempt since
    triedPast := by
      intro other inside
      rcases List.mem_append.mp inside with before | now
      · exact (holds.triedPast other before).trans later
      · rw [List.mem_singleton.mp now] }

section Touch

variable {attempt : LoginAttempt}

theorem Throttle.last (holds : Throttle casefold tried failed attempt.checkedAt buckets)
    (trying : attempt ∈ tried) {entry : List Char × List ℚ} (inside : entry ∈ buckets) :
    TriedSince casefold tried entry (attempt.key casefold).bucketKey := by
  intro moment member
  exact ⟨attempt, trying, rfl, holds.attempts_past inside moment member⟩

section

variable (holds : Throttle casefold tried failed attempt.checkedAt buckets)
include holds

theorem Throttle.opens (trying : attempt ∈ tried) :
    Throttle casefold tried failed attempt.checkedAt
      (setDefault (attempt.key casefold).bucketKey [] buckets) :=
  { holds with
    distinct := set_default_distinct _ _ holds.distinct
    ordered := holds.ordered.set_default _ _ fun _ inside => holds.last trying inside
    kept := by
      intro key
      rw [attempts_of_set_default]
      exact holds.kept key }

theorem Throttle.prunes {key : List Char} {attempts : List ℚ}
    (present : getItem key buckets = some attempts) :
    Throttle casefold tried failed attempt.checkedAt
      (setItem key (expire attempt.checkedAt (attemptsOf key buckets)) buckets) :=
  { holds with
    distinct := set_item_distinct _ _ holds.distinct
    ordered := by
      apply holds.ordered.set_item present
      intro other since moment inside
      rw [attemptsOf, present] at inside
      exact since moment ((List.dropWhile_suffix _).subset inside)
    kept := by
      intro other
      rw [attempts_of_set_item]
      by_cases same : other = key
      · rw [if_pos same, same]
        obtain ⟨old, split, before, _⟩ := holds.live le_rfl key
        exact ⟨old, split, before⟩
      · rw [if_neg same]
        exact holds.kept other }

theorem Throttle.moves (trying : attempt ∈ tried) :
    Throttle casefold tried failed attempt.checkedAt
      (moveToEnd (attempt.key casefold).bucketKey buckets) :=
  { holds with
    distinct := move_to_end_distinct _ holds.distinct
    ordered := holds.ordered.move_to_end _ fun _ inside => holds.last trying inside
    kept := by
      intro key
      rw [attempts_of_move_to_end]
      exact holds.kept key }

theorem Throttle.throttled (trying : attempt ∈ tried) :
    Throttle casefold tried failed attempt.checkedAt
      (loginThrottled attempt.checkedAt (attempt.key casefold).bucketKey buckets).2 := by
  have opened := holds.opens trying
  have present := get_item_set_default (attempt.key casefold).bucketKey
    (attempt.key casefold).bucketKey [] buckets
  rw [if_pos rfl] at present
  have pruned := opened.prunes present
  rw [loginThrottled]
  split
  · exact pruned.moves trying
  · exact pruned

end

/-- Fewer keys were tried in the last minute than there may be buckets, so a bucket that is
dropped holds no failure of that minute. -/
theorem dropped_expired {now : ℚ} {entry : List Char × List ℚ}
    (distinct : (buckets.map Prod.fst).Nodup)
    (ordered : Ordered (TriedSince casefold tried) buckets)
    (past : ∀ attempt ∈ tried, attempt.checkedAt ≤ now)
    (few : (keysTried casefold now tried).card < OIDC_LOGIN_BUCKET_LIMIT)
    (inside : entry ∈ buckets) (dropped : entry ∉ shrink OIDC_LOGIN_BUCKET_LIMIT buckets) :
    ∀ moment ∈ entry.2, moment + OIDC_LOGIN_WINDOW_SECONDS ≤ now := by
  intro moment member
  by_contra live
  obtain ⟨keys, once, many, since⟩ := dropped_followed ordered distinct inside dropped
  have tries : keys.toFinset ⊆ (keysTried casefold now tried).image LoginKey.bucketKey := by
    intro key present
    obtain ⟨attempt, trying, same, after⟩ := since key (List.mem_toFinset.mp present) moment member
    refine Finset.mem_image.mpr ⟨attempt.key casefold, ?_, same⟩
    simp only [keysTried, List.mem_toFinset, List.mem_map, List.mem_filter]
    refine ⟨attempt, ⟨trying, ?_⟩, rfl⟩
    have recent : now - OIDC_LOGIN_WINDOW_SECONDS < attempt.checkedAt := by
      linarith [not_le.mp live]
    rw [within, decide_eq_true recent, decide_eq_true (past attempt trying)]
    rfl
  have counted : keys.length ≤ (keysTried casefold now tried).card := by
    calc keys.length = keys.toFinset.card := (List.toFinset_card_of_nodup once).symm
      _ ≤ ((keysTried casefold now tried).image LoginKey.bucketKey).card :=
          Finset.card_le_card tries
      _ ≤ (keysTried casefold now tried).card := Finset.card_image_le
  exact absurd (many.trans counted) (not_le.mpr few)

variable {failedNow : List Char → List ℚ}

theorem Throttle.records (holds : Throttle casefold tried failed attempt.checkedAt buckets)
    (trying : attempt ∈ tried)
    (few : (keysTried casefold attempt.verifiedAt tried).card < OIDC_LOGIN_BUCKET_LIMIT)
    (recorded : ∀ key, failedNow key = failed key ++ if key = (attempt.key casefold).bucketKey then
      [attempt.verifiedAt] else []) :
    Throttle casefold tried failedNow attempt.verifiedAt
      (recordLoginFailure attempt.verifiedAt (attempt.key casefold).bucketKey buckets) := by
  have opened := holds.opens trying
  set key := (attempt.key casefold).bucketKey with keyOf
  set attempts := expire attempt.verifiedAt (attemptsOf key (setDefault key [] buckets)) ++
    [attempt.verifiedAt] with attemptsIs
  have moved := move_to_end_set_item key attempts (setDefault key [] buckets)
  have distinct : ((moveToEnd key (setItem key attempts
      (setDefault key [] buckets))).map Prod.fst).Nodup :=
    move_to_end_distinct _ (set_item_distinct _ _ opened.distinct)
  have ordered : Ordered (TriedSince casefold tried)
      (moveToEnd key (setItem key attempts (setDefault key [] buckets))) := by
    rw [moved]
    apply Ordered.append_last (List.Pairwise.filter _ opened.ordered)
    exact fun entry inside => opened.last trying (List.mem_of_mem_filter inside)
  have past : ∀ other ∈ tried, other.checkedAt ≤ attempt.verifiedAt := fun other inside =>
    (holds.triedPast other inside).trans attempt.forward
  have before : ∀ other, ∃ old, failedNow other = old ++ attemptsOf other
      (moveToEnd key (setItem key attempts (setDefault key [] buckets))) ∧
      ∀ moment ∈ old, moment + OIDC_LOGIN_WINDOW_SECONDS ≤ attempt.verifiedAt := by
    intro other
    rw [attempts_of_move_to_end, attempts_of_set_item, recorded other]
    by_cases same : other = key
    · rw [if_pos same, if_pos same, same]
      obtain ⟨old, split, gone, _⟩ := opened.live attempt.forward key
      exact ⟨old, by rw [split, attemptsIs, List.append_assoc], gone⟩
    · rw [if_neg same, if_neg same, List.append_nil]
      obtain ⟨old, split, gone⟩ := opened.kept other
      exact ⟨old, split, fun moment inside => (gone moment inside).trans attempt.forward⟩
  exact {
    distinct := shrink_distinct _ distinct
    ordered := ordered.shrink _
    triedPast := past
    failedPast := by
      intro other moment inside
      rw [recorded other] at inside
      rcases List.mem_append.mp inside with earlier | new
      · exact (holds.failedPast other moment earlier).trans attempt.forward
      · split at new
        · rw [List.mem_singleton.mp new]
        · cases new
    sorted := by
      intro other
      rw [recorded other]
      apply List.pairwise_append.mpr
      refine ⟨holds.sorted other, by split <;> simp, ?_⟩
      intro moment earlier new inside
      split at inside
      · rw [List.mem_singleton.mp inside]
        exact (holds.failedPast other moment earlier).trans attempt.forward
      · cases inside
    kept := by
      intro other
      obtain ⟨old, split, gone⟩ := before other
      rcases get_item_shrink OIDC_LOGIN_BUCKET_LIMIT distinct other with same | lost
      · refine ⟨old, ?_, gone⟩
        rw [recordLoginFailure, attemptsOf, same]
        exact split
      · obtain ⟨empty, value, inside, dropped⟩ := lost
        have expired := dropped_expired distinct ordered past few inside dropped
        refine ⟨old ++ value, ?_, ?_⟩
        · rw [recordLoginFailure, attemptsOf, empty, split, attemptsOf,
            (get_item_iff distinct).mpr inside]
          exact (List.append_nil _).symm
        · intro moment member
          rcases List.mem_append.mp member with before | now
          · exact gone moment before
          · exact expired moment now }

theorem Throttle.serves (holds : Throttle casefold tried failed attempt.checkedAt buckets)
    (trying : attempt ∈ tried)
    (few : (keysTried casefold attempt.verifiedAt tried).card < OIDC_LOGIN_BUCKET_LIMIT)
    (recorded : ∀ key, failedNow key = failed key ++ if (attempt.key casefold).bucketKey = key ∧
      (authorizePost casefold buckets attempt).1 = .invalid then [attempt.verifiedAt] else []) :
    Throttle casefold tried failedNow attempt.verifiedAt
      (authorizePost casefold buckets attempt).2 := by
  have throttled := holds.throttled trying
  rw [authorizePost] at recorded ⊢
  have unrecorded : ∀ {answer : SignIn}, answer ≠ .invalid →
      (∀ key, failedNow key = failed key ++
        if (attempt.key casefold).bucketKey = key ∧ answer = .invalid then [attempt.verifiedAt]
        else []) → failedNow = failed := by
    intro answer other same
    funext key
    rw [same key, if_neg (fun counted => other counted.2), List.append_nil]
  generalize loginThrottled attempt.checkedAt (attempt.key casefold).bucketKey buckets = checked
    at throttled recorded ⊢
  obtain ⟨refused, left⟩ := checked
  cases refused with
  | true =>
    rw [@unrecorded .limited (by decide) recorded]
    exact throttled.later attempt.forward
  | false =>
    dsimp only at recorded ⊢
    by_cases verified : attempt.verified = true
    · simp only [if_pos verified] at recorded ⊢
      rw [@unrecorded .signedIn (by decide) recorded]
      exact throttled.later attempt.forward
    · simp only [if_neg verified, and_true] at recorded ⊢
      apply throttled.records trying few
      intro key
      rw [recorded key]
      simp only [eq_comm]

end Touch

/-! ### Every run -/

theorem run_throttle {attempts : List LoginAttempt} (inOrder : InOrder attempts)
    (few : ∀ moment, (keysTried casefold moment attempts).card < OIDC_LOGIN_BUCKET_LIMIT)
    (clock : ℚ) (past : ∀ attempt ∈ attempts, attempt.verifiedAt ≤ clock) :
    Throttle casefold attempts (bucketFailures casefold (run casefold attempts).log) clock
      (run casefold attempts).buckets := by
  induction attempts using List.reverseRecOn generalizing clock with
  | nil => exact Throttle.start clock
  | append_singleton attempts attempt induction =>
    obtain ⟨inOrder, _, last⟩ := List.pairwise_append.mp inOrder
    have fewer : ∀ moment,
        (keysTried casefold moment attempts).card < OIDC_LOGIN_BUCKET_LIMIT := fun moment =>
      (Finset.card_le_card (keys_tried_subset casefold
        (List.subset_append_left attempts [attempt]) moment)).trans_lt (few moment)
    have before := induction inOrder fewer attempt.checkedAt
      fun earlier inside => last earlier inside attempt (List.mem_singleton_self attempt)
    have tried := before.tries attempt le_rfl
    rw [run_snoc]
    have served := tried.serves (List.mem_append_right _ (List.mem_singleton_self attempt))
      (few attempt.verifiedAt) (bucket_failures_snoc _ (attempt, _))
    exact served.later (past attempt (List.mem_append_right _ (List.mem_singleton_self attempt)))

theorem failures_within_bucket {log : List (LoginAttempt × SignIn)} {now : ℚ}
    (holds : Throttle casefold tried (bucketFailures casefold log) now buckets) (key : LoginKey) :
    failuresWithin casefold key now log = expire now (attemptsOf key.bucketKey buckets) := by
  obtain ⟨old, split, before, live⟩ := holds.live le_rfl key.bucketKey
  have recent : ∀ moment ∈ expire now (attemptsOf key.bucketKey buckets), moment ≤ now := by
    intro moment inside
    apply holds.failedPast key.bucketKey
    rw [split]
    exact List.mem_append_right _ inside
  rw [failuresWithin, failures_of_bucket, split, List.filter_append]
  have none : old.filter (within now) = [] := by
    apply List.filter_eq_nil_iff.mpr
    intro moment inside
    simp only [within, Bool.and_eq_true, decide_eq_true_eq, not_and]
    intro inWindow
    linarith [before moment inside]
  have all : (expire now (attemptsOf key.bucketKey buckets)).filter (within now) =
      expire now (attemptsOf key.bucketKey buckets) := by
    apply List.filter_eq_self.mpr
    intro moment inside
    have inWindow : now - OIDC_LOGIN_WINDOW_SECONDS < moment := by linarith [live moment inside]
    rw [within, decide_eq_true inWindow, decide_eq_true (recent moment inside)]
    rfl
  rw [none, all, List.nil_append]

theorem authorize_post_limited (buckets : Buckets) (attempt : LoginAttempt) :
    (authorizePost casefold buckets attempt).1 = .limited ↔
      OIDC_LOGIN_ATTEMPTS ≤ (expire attempt.checkedAt
        (attemptsOf (attempt.key casefold).bucketKey buckets)).length := by
  rw [← login_throttled_limited, authorizePost]
  generalize loginThrottled attempt.checkedAt (attempt.key casefold).bucketKey buckets = checked
  obtain ⟨refused, left⟩ := checked
  cases refused with
  | true => exact iff_of_true rfl rfl
  | false =>
    dsimp only
    split <;> simp

theorem authorize_post_invalid {attempt : LoginAttempt}
    (failed : (authorizePost casefold buckets attempt).1 = .invalid) :
    (authorizePost casefold buckets attempt).2.length ≤ OIDC_LOGIN_BUCKET_LIMIT := by
  rw [authorizePost] at failed ⊢
  generalize loginThrottled attempt.checkedAt (attempt.key casefold).bucketKey buckets = checked
    at failed ⊢
  obtain ⟨refused, left⟩ := checked
  cases refused with
  | true => cases failed
  | false =>
    dsimp only at failed ⊢
    by_cases verified : attempt.verified = true
    · rw [if_pos verified] at failed
      cases failed
    · rw [if_neg verified]
      exact record_login_failure_length _ _ _

theorem run_before {before after : List LoginAttempt} {attempt : LoginAttempt}
    (inOrder : InOrder (before ++ attempt :: after))
    (few : ∀ moment, (keysTried casefold moment (before ++ attempt :: after)).card <
      OIDC_LOGIN_BUCKET_LIMIT) :
    Throttle casefold before (bucketFailures casefold (run casefold before).log)
      attempt.checkedAt (run casefold before).buckets := by
  obtain ⟨earlier, _, last⟩ := List.pairwise_append.mp inOrder
  apply run_throttle earlier
  · intro moment
    exact (Finset.card_le_card (keys_tried_subset casefold
      (List.subset_append_left before (attempt :: after)) moment)).trans_lt (few moment)
  · exact fun other inside => last other inside attempt List.mem_cons_self

theorem few_failures {attempts : List LoginAttempt} (inOrder : InOrder attempts)
    (few : ∀ moment, (keysTried casefold moment attempts).card < OIDC_LOGIN_BUCKET_LIMIT)
    (key : LoginKey) (moment : ℚ) :
    (failuresWithin casefold key moment (run casefold attempts).log).length ≤
      OIDC_LOGIN_ATTEMPTS := by
  induction attempts using List.reverseRecOn with
  | nil => exact Nat.zero_le _
  | append_singleton attempts attempt induction =>
    have holds := run_before inOrder few
    have earlier := induction (List.pairwise_append.mp inOrder).1 fun moment =>
      (Finset.card_le_card (keys_tried_subset casefold
        (List.subset_append_left attempts [attempt]) moment)).trans_lt (few moment)
    rw [failuresWithin, failures_of_bucket, run_snoc, serve, bucket_failures_snoc,
      List.filter_append, ← failures_of_bucket, ← failuresWithin]
    split
    · next counted =>
        obtain ⟨same, failed⟩ := counted
        by_cases inWindow : within moment attempt.verifiedAt = true
        · have fewLeft : ¬OIDC_LOGIN_ATTEMPTS ≤ (failuresWithin casefold key attempt.checkedAt
              (run casefold attempts).log).length := by
            intro many
            rw [failures_within_bucket holds, ← same] at many
            have refused := (authorize_post_limited _ attempt).mpr many
            rw [refused] at failed
            cases failed
          have shorter : (failuresWithin casefold key moment (run casefold attempts).log).length ≤
              (failuresWithin casefold key attempt.checkedAt
                (run casefold attempts).log).length := by
            rw [failuresWithin, failuresWithin, ← List.countP_eq_length_filter,
              ← List.countP_eq_length_filter, failures_of_bucket]
            apply List.countP_mono_left
            intro time inside recent
            simp only [within, Bool.and_eq_true, decide_eq_true_eq] at inWindow recent ⊢
            have forward := attempt.forward
            exact ⟨by linarith, holds.failedPast _ time inside⟩
          rw [List.filter_cons_of_pos inWindow, List.length_append]
          simp only [List.filter_nil, List.length_singleton]
          omega
        · rw [List.filter_cons_of_neg inWindow]
          simpa using earlier
    · simpa using earlier

end Invariant

/-- When fewer keys than there may be buckets are tried in any minute, no key has more than five
failed credential checks in a minute, a key with fewer than five in the last minute is not
refused, and no recorded failure leaves more buckets than there may be. -/
theorem login_throttle_bound (casefold : List Char → List Char) (attempts : List LoginAttempt)
    (inOrder : InOrder attempts)
    (few : ∀ moment, (keysTried casefold moment attempts).card < OIDC_LOGIN_BUCKET_LIMIT) :
    (∀ key moment, (failuresWithin casefold key moment (run casefold attempts).log).length ≤
      OIDC_LOGIN_ATTEMPTS) ∧
    ∀ before attempt after, attempts = before ++ attempt :: after →
      ((failuresWithin casefold (attempt.key casefold) attempt.checkedAt
          (run casefold before).log).length < OIDC_LOGIN_ATTEMPTS →
        (authorizePost casefold (run casefold before).buckets attempt).1 ≠ .limited) ∧
      ((authorizePost casefold (run casefold before).buckets attempt).1 = .invalid →
        (run casefold (before ++ [attempt])).buckets.length ≤ OIDC_LOGIN_BUCKET_LIMIT) := by
  refine ⟨few_failures inOrder few, ?_⟩
  rintro before attempt after rfl
  constructor
  · intro fewFailures refused
    rw [failures_within_bucket (run_before inOrder few)] at fewFailures
    exact absurd ((authorize_post_limited _ attempt).mp refused) (not_le.mpr fewFailures)
  · intro failed
    rw [run_snoc, serve]
    exact authorize_post_invalid failed

def sampleAttempts : List LoginAttempt :=
  [0, 1, 2, 3, 4, 5, 61].map fun second : Nat => {
    clientId := generateClientId "k3".toList (List.all_eq_true.mp (by decide))
    source := .managedLdap
    organizationId := some 2
    username := if second % 2 = 0 then "bob".toList else " Bob".toList
    checkedAt := second
    verifiedAt := second
    verified := 5 ≤ second
    forward := le_rfl }

theorem sample_login_throttle :
    let casefold := List.map Char.toLower
    (run casefold sampleAttempts).log.map Prod.snd =
      [.invalid, .invalid, .invalid, .invalid, .invalid, .limited, .signedIn] ∧
    ∀ key moment, (failuresWithin casefold key moment (run casefold sampleAttempts).log).length ≤
      OIDC_LOGIN_ATTEMPTS :=
  ⟨by decide +kernel, (login_throttle_bound _ sampleAttempts (by unfold InOrder; decide +kernel) fun moment =>
    (keys_tried_length _ moment sampleAttempts).trans_lt (by decide)).1⟩

end Atlaso.Oidc.ThrottleRuns
