import Atlaso.NetworkBoot.ClaimBinding

/-!
Every statement keeps the claims, their authorizations and their Kickstarts tied together.

A statement that only reads changes what one actor knows. A commit applies the writes of
its actor to rows that nobody else could change, and records one event.
-/

namespace Atlaso.NetworkBoot.ClaimSteps

open AppliedBoot BootClaims ClaimBinding Library.Outcomes

variable {platform : Platform} {drawn : List Drawn} {history : List Event}
variable {claims : List Capability}

/-! ### The claim table at a commit -/

theorem attempts_sublist (writes : List Write) (claims : List Capability) :
    ((claims.filterMap (rowAfter writes)).map Capability.attemptId).Sublist
      (claims.map Capability.attemptId) := by
  induction claims with
  | nil => simp
  | cons row rest induction =>
    cases after : rowAfter writes row with
    | none =>
      rw [List.filterMap_cons_none after]
      exact induction.cons _
    | some next =>
      rw [List.filterMap_cons_some after, List.map_cons, List.map_cons, row_after_attempt after]
      exact induction.cons_cons _

theorem same_draw {first second : Drawn}
    (once : (drawn.map fun drawn => drawn.row.attemptId).Nodup) (left : first ∈ drawn)
    (right : second ∈ drawn) (same : first.row.attemptId = second.row.attemptId) :
    first = second :=
  List.inj_on_of_nodup_map once left right same

theorem token_same (origin : Drawn) {row : Capability} (same : SameClaim row origin.row)
    (claim : String) : esxiKickstartToken platform row claim =
      esxiKickstartToken platform origin.row claim := by
  rw [esxiKickstartToken, esxiKickstartToken, same.attemptId, same.macAddress,
    same.kickstartRevision, same.listenerOrigin]

variable {next : Capability} {origin : Drawn} {writes : List Write}

theorem known_tidy (once : (drawn.map fun drawn => drawn.row.attemptId).Nodup) {write : Write}
    {row : Capability} (tidy : Tidy platform drawn write) (known : Known platform drawn history row)
    (after : onRow row write = some next) :
    Known platform drawn history next := by
  obtain ⟨origin, inside, follows⟩ := known
  cases on_row_becomes after with
  | keep write => exact ⟨origin, inside, follows⟩
  | consume now =>
    exact ⟨origin, inside, follows.created, ⟨follows.same.attemptId, follows.same.hostId,
      follows.same.claimHash, follows.same.bootCodeHash, follows.same.macAddress,
      follows.same.kickstartId, follows.same.kickstartRevision, follows.same.listenerOrigin⟩,
      follows.policy, follows.admitted, follows.token⟩
  | authorize requestedBy now => cases tidy
  | prepare tokenHash =>
    refine ⟨origin, inside, follows.created, ⟨follows.same.attemptId, follows.same.hostId,
      follows.same.claimHash, follows.same.bootCodeHash, follows.same.macAddress,
      follows.same.kickstartId, follows.same.kickstartRevision, follows.same.listenerOrigin⟩,
      follows.policy, follows.admitted, ?_⟩
    intro hash written
    generalize target : row.attemptId = attemptId at tidy
    cases tidy with
    | prepare other present =>
      have identical : other = origin :=
        same_draw once present inside (target.symm.trans follows.same.attemptId)
      rw [← identical]
      exact (Option.some.inj written).symm

theorem known_authorize (once : (drawn.map fun drawn => drawn.row.attemptId).Nodup)
    {requestedBy : String} {now : Time} {row : Capability} (inside : origin ∈ drawn)
    (pending : origin.row.authorizedAt = none) (admitted : Admitted history origin now)
    (known : Known platform drawn history row)
    (after : onRow row (.authorize origin.row.attemptId requestedBy now) = some next) :
    Known platform drawn history next := by
  generalize target : origin.row.attemptId = attemptId at after
  obtain ⟨other, present, follows⟩ := known
  cases on_row_becomes after with
  | keep => exact ⟨other, present, follows⟩
  | authorize =>
    have identical : origin = other :=
      same_draw once inside present (target.trans follows.same.attemptId)
    subst identical
    refine ⟨origin, present, follows.created, ⟨follows.same.attemptId, follows.same.hostId,
      follows.same.claimHash, follows.same.bootCodeHash, follows.same.macAddress,
      follows.same.kickstartId, follows.same.kickstartRevision, follows.same.listenerOrigin⟩,
      ?_, ?_, follows.token⟩
    · intro time authorized
      rw [pending] at authorized
      cases authorized
    · intro time authorized
      cases authorized
      exact ⟨rfl, admitted⟩

theorem table_writes (event : Option Event) (table : Table platform drawn history claims)
    (plain : ∀ write ∈ writes, isInsert write = false) (keeps : ∀ write ∈ writes, ∀ row next, Known
      platform drawn (event.toList ++ history) row → onRow row write = some next → Known platform
      drawn (event.toList ++ history) next) (marks : ∀ row ∈ claims, ∀ next, rowAfter writes row =
      some next → ∀ hostId entered time, event = some (.authorized hostId row.attemptId entered
      time) → next.authorizedAt ≠ none) (spends : ∀ row ∈ claims, ∀ next, rowAfter writes row = some
      next → event.bind consumedAttempt = some row.attemptId → next.consumedAt ≠ none) :
    Table platform drawn (event.toList ++ history) (applyAll claims writes) := by
  rw [apply_all_rows plain]
  refine ⟨table.once.sublist (attempts_sublist writes claims), ?_, ?_, ?_⟩
  · intro next inside
    obtain ⟨row, present, after⟩ := List.mem_filterMap.mp inside
    have known := known_mono (table.known row present) (List.Subset.refl _)
      (List.subset_append_right event.toList history)
    exact row_after_keeps (Known platform drawn (event.toList ++ history)) keeps known after
  · intro next inside hostId entered time happened
    obtain ⟨row, present, after⟩ := List.mem_filterMap.mp inside
    rw [row_after_attempt after] at happened
    rcases List.mem_append.mp happened with new | old
    · exact marks row present next after hostId entered time (Option.mem_toList.mp new)
    · exact row_after_authorized (table.marked row present hostId entered time old) after
  · intro next inside consumed
    obtain ⟨row, present, after⟩ := List.mem_filterMap.mp inside
    rw [row_after_attempt after, List.filterMap_append, List.mem_append] at consumed
    rcases consumed with new | old
    · refine spends row present next after ?_
      obtain ⟨happened, inside, named⟩ := List.mem_filterMap.mp new
      exact Option.bind_eq_some_iff.mpr ⟨happened, Option.mem_toList.mp inside, named⟩
    · exact row_after_consumed (table.spent row present old) after

theorem table_insert (table : Table platform drawn history claims)
    (lawful : Lawful platform history) (inside : origin ∈ drawn) (well : WellDrawn platform origin)
    (new : origin.row.attemptId ∉ history.filterMap createdAttempt) :
    Table platform drawn (.created origin.row origin.claim origin.bootCode :: history)
      (claims ++ [origin.row]) := by
  have absent : ∀ row ∈ claims, row.attemptId ≠ origin.row.attemptId := by
    intro row present same
    obtain ⟨other, -, follows⟩ := table.known row present
    exact new (List.mem_filterMap.mpr ⟨_, follows.created,
      congrArg some (follows.same.attemptId.symm.trans same)⟩)
  have later : history ⊆ .created origin.row origin.claim origin.bootCode :: history :=
    List.subset_cons_self _ _
  refine ⟨?_, ?_, ?_, ?_⟩
  · rw [List.map_append, List.nodup_append]
    refine ⟨table.once, List.nodup_singleton _, ?_⟩
    intro attemptId present other single
    obtain ⟨row, rowInside, rfl⟩ := List.mem_map.mp present
    rw [List.map_singleton, List.mem_singleton] at single
    rw [single]
    exact absent row rowInside
  · intro row present
    rcases List.mem_append.mp present with old | added
    · exact known_mono (table.known row old) (List.Subset.refl _) later
    · obtain rfl := List.mem_singleton.mp added
      refine ⟨origin, inside, List.mem_cons_self, ⟨rfl, rfl, rfl, rfl, rfl, rfl, rfl, rfl⟩, ?_, ?_, ?_⟩
      · exact fun time authorized => ⟨(well.policy time authorized).1, authorized⟩
      · exact fun time authorized => ⟨(well.policy time authorized).2, .inl authorized⟩
      · intro hash written
        rw [well.tokenHash] at written
        cases written
  · intro row present hostId entered time happened
    have old : .authorized hostId row.attemptId entered time ∈ history := by
      simpa using happened
    rcases List.mem_append.mp present with before | added
    · exact table.marked row before hostId entered time old
    · obtain rfl := List.mem_singleton.mp added
      exact absurd (justified_created lawful old (.inr ⟨hostId, entered, time, rfl⟩)) new
  · intro row present consumed
    have old : row.attemptId ∈ history.filterMap consumedAttempt := by
      simpa [consumedAttempt] using consumed
    rcases List.mem_append.mp present with before | added
    · exact table.spent row before old
    · obtain rfl := List.mem_singleton.mp added
      obtain ⟨event, happened, named⟩ := List.mem_filterMap.mp old
      exact absurd (justified_created lawful happened (.inl named)) new

theorem tidy_plain {write : Write} (tidy : Tidy platform drawn write) : isInsert write = false := by
  cases tidy <;> rfl

theorem table_tidy (once : (drawn.map fun drawn => drawn.row.attemptId).Nodup)
    (table : Table platform drawn history claims)
    (simple : ∀ write ∈ writes, Tidy platform drawn write) :
    Table platform drawn history (applyAll claims writes) :=
  table_writes none table (fun write inside => tidy_plain (simple write inside))
    (fun write inside _ _ known after => known_tidy once (simple write inside) known after)
    (fun _ _ _ _ _ _ _ happened => by cases happened) (fun _ _ _ _ consumed => by cases consumed)

section Authorizations

variable {request : AuthorizationRequest} {doomed others : List String} {attemptId : String}
variable {now : Time}

theorem mem_authorization_writes (platform : Platform) (drawn : List Drawn) {write : Write}
    (inside : write ∈ authorizationWrites request doomed others attemptId now) :
    Tidy platform drawn write ∨ write = .authorize attemptId request.requestedBy now := by
  simp only [authorizationWrites, List.mem_append, List.mem_map] at inside
  rcases inside with (⟨other, -, rfl⟩ | authorizes) | ⟨other, -, rfl⟩
  · exact .inl (.consume other now)
  · split_ifs at authorizes
    · simp at authorizes
    · exact .inr (List.mem_singleton.mp authorizes)
  · exact .inl (.delete other)

theorem row_after_authorization {row next : Capability} (same : row.attemptId = attemptId)
    (after : rowAfter (authorizationWrites request doomed others attemptId now) row = some next) :
    next.authorizedAt ≠ none := by
  rw [authorizationWrites, row_after_append, row_after_append] at after
  obtain ⟨middle, early, deletes⟩ := Option.bind_eq_some_iff.mp after
  obtain ⟨first, consumes, authorizes⟩ := Option.bind_eq_some_iff.mp early
  have firstSame := (row_after_attempt consumes).trans same
  by_cases condemned : attemptId ∈ doomed
  · exfalso
    have middleSame := (row_after_attempt authorizes).trans firstSame
    obtain ⟨before, behind, shape⟩ := List.append_of_mem condemned
    rw [shape, List.map_append, row_after_append] at deletes
    obtain ⟨last, earlier, final⟩ := Option.bind_eq_some_iff.mp deletes
    have lastSame := (row_after_attempt earlier).trans middleSame
    simp [rowAfter, onRow, lastSame] at final
  · rw [if_neg condemned] at authorizes
    refine row_after_authorized ?_ deletes
    simp only [rowAfter, onRow, firstSame, if_true, Option.bind_some, Option.some.injEq]
      at authorizes
    simp [← authorizes]

theorem table_authorize {origin : Drawn} {hostId : Int} {entered : String}
    (once : (drawn.map fun drawn => drawn.row.attemptId).Nodup)
    (table : Table platform drawn history claims) (inside : origin ∈ drawn)
    (pending : origin.row.authorizedAt = none) (host : origin.row.hostId = hostId)
    (code : normalizeEsxiBootCode entered = some origin.bootCode) :
    Table platform drawn (.authorized hostId origin.row.attemptId entered now :: history)
      (applyAll claims (authorizationWrites request doomed others origin.row.attemptId now)) := by
  have admitted : Admitted (.authorized hostId origin.row.attemptId entered now :: history)
      origin now := .inr ⟨entered, host ▸ List.mem_cons_self, code⟩
  refine table_writes (some (.authorized hostId origin.row.attemptId entered now)) table ?_ ?_ ?_ ?_
  · intro write chosen
    rcases mem_authorization_writes platform drawn chosen with tidy | rfl
    · exact tidy_plain tidy
    · rfl
  · intro write chosen row next known after
    rcases mem_authorization_writes platform drawn chosen with tidy | rfl
    · exact known_tidy once tidy known after
    · exact known_authorize once inside pending admitted known after
  · intro row present next after other code' time happened
    have same : origin.row.attemptId = row.attemptId := by
      simp only [Option.some.injEq, Event.authorized.injEq] at happened
      exact happened.2.1
    exact row_after_authorization same.symm after
  · intro row present next after consumed
    cases consumed

end Authorizations

/-! ### Steps of one actor -/

variable {system : System} {actor : Actor}

theorem become_activity (system : System) (actor other : Actor) (activity : Activity) :
    (system.become actor activity).activity other =
      if other = actor then activity else system.activity other := by
  simp [System.become, Function.update_apply]

theorem flushed_unstaged {activity : Activity} (unstaged : isStaged activity = false) :
    Flushed platform claims activity := by
  cases activity with
  | staged writes event rendered => cases unstaged
  | _ => trivial

section

variable (sound : Sound platform system)
include sound

/-- Nobody has flushed while nobody writes. -/
theorem unstaged_of_free (free : system.writer = none) (actor : Actor) :
    isStaged (system.activity actor) = false := by
  by_contra staged
  have held := sound.lock actor (by simpa using staged)
  rw [free] at held
  cases held

/-- Only the transaction that writes has flushed. -/
theorem unstaged_others (staged : isStaged (system.activity actor) = true) {other : Actor}
    (different : other ≠ actor) :
    isStaged (system.activity other) = false := by
  by_contra flushed
  have first := sound.lock actor staged
  have second := sound.lock other (by simpa using flushed)
  rw [first] at second
  exact different (Option.some.inj second).symm

/-- A statement that only reads. -/
theorem sound_become {activity : Activity} (unstaged : isStaged activity = false)
    (fits : Fits platform system.drawn system.history actor activity)
    (inserts : ∀ attemptId, inserting activity = some attemptId → ∀ other, other ≠ actor → inserting
      (system.activity other) ≠ some attemptId) :
    Sound platform (system.become actor activity) where
  drawnOnce := sound.drawnOnce
  drawn := sound.drawn
  table := sound.table
  lawful := sound.lawful
  lock := by
    intro other staged
    rw [become_activity] at staged
    split_ifs at staged with same
    · rw [unstaged] at staged
      cases staged
    · exact sound.lock other staged
  flushed := by
    intro other
    rw [become_activity]
    split_ifs with same
    · exact flushed_unstaged unstaged
    · exact sound.flushed other
  fits := by
    intro other
    rw [become_activity]
    split_ifs with same
    · exact same ▸ fits
    · exact sound.fits other
  inserts := by
    intro first second attemptId one two
    rw [become_activity] at one two
    split_ifs at one two with firstSame secondSame secondSame
    · rw [firstSame, secondSame]
    · exact absurd two (inserts attemptId one second secondSame)
    · exact absurd one (inserts attemptId two first firstSame)
    · exact sound.inserts first second attemptId one two
  recorded := sound.recorded

/-- A session that ends without a commit. -/
theorem sound_rollback :
    Sound platform (system.rollback actor) where
  drawnOnce := sound.drawnOnce
  drawn := sound.drawn
  table := sound.table
  lawful := sound.lawful
  lock := by
    intro other staged
    change isStaged ((system.become actor .idle).activity other) = true at staged
    rw [become_activity] at staged
    split_ifs at staged with same
    · cases staged
    · have held := sound.lock other staged
      change (if system.writer = some actor then none else system.writer) = some other
      rw [held, if_neg fun equal => same (Option.some.inj equal)]
  flushed := by
    intro other
    change Flushed platform system.claims ((system.become actor .idle).activity other)
    rw [become_activity]
    split_ifs with same
    · trivial
    · exact sound.flushed other
  fits := by
    intro other
    change Fits platform system.drawn system.history other
      ((system.become actor .idle).activity other)
    rw [become_activity]
    split_ifs with same
    · trivial
    · exact sound.fits other
  inserts := by
    intro first second attemptId one two
    change inserting ((system.become actor .idle).activity first) = some attemptId at one
    change inserting ((system.become actor .idle).activity second) = some attemptId at two
    rw [become_activity] at one two
    split_ifs at one two with firstSame secondSame secondSame
    · cases one
    · cases one
    · cases two
    · exact sound.inserts first second attemptId one two
  recorded := sound.recorded

variable {writes : List Write} {event : Option Event}

theorem sound_finish (plan : Plan platform system.drawn system.history writes event)
    (plain : ∀ write ∈ writes, isInsert write = false) :
    Sound platform (system.finish actor writes event) := by
  rw [System.finish]
  split_ifs
  · exact sound_become sound rfl trivial (by simp [inserting])
  · refine sound_become sound rfl plan ?_
    intro attemptId inserts
    cases writes with
    | nil => cases inserts
    | cons write rest =>
      cases write with
      | insert row => cases plain _ List.mem_cons_self
      | delete other => cases inserts
      | consume other now => cases inserts
      | authorize other requestedBy now => cases inserts
      | prepare other hash => cases inserts

theorem sound_stage {rendered : Option String} (free : system.writer = none)
    (fits : Fits platform system.drawn system.history actor (.staged writes event rendered))
    (flushed : Flushed platform system.claims (.staged writes event rendered))
    (inserts : ∀ attemptId, inserting (.staged writes event rendered) = some attemptId → inserting
      (system.activity actor) = some attemptId) :
    Sound platform { system.become actor (.staged writes event rendered) with
      writer := some actor } where
  drawnOnce := sound.drawnOnce
  drawn := sound.drawn
  table := sound.table
  lawful := sound.lawful
  lock := by
    intro other staged
    change isStaged ((system.become actor _).activity other) = true at staged
    rw [become_activity] at staged
    split_ifs at staged with same
    · exact congrArg some same.symm
    · rw [unstaged_of_free sound free other] at staged
      cases staged
  flushed := by
    intro other
    change Flushed platform system.claims ((system.become actor _).activity other)
    rw [become_activity]
    split_ifs with same
    · exact flushed
    · exact sound.flushed other
  fits := by
    intro other
    change Fits platform system.drawn system.history other ((system.become actor _).activity other)
    rw [become_activity]
    split_ifs with same
    · exact same ▸ fits
    · exact sound.fits other
  inserts := by
    intro first second attemptId one two
    change inserting ((system.become actor _).activity first) = some attemptId at one
    change inserting ((system.become actor _).activity second) = some attemptId at two
    rw [become_activity] at one two
    split_ifs at one two with firstSame secondSame secondSame
    · rw [firstSame, secondSame]
    · exact firstSame ▸ sound.inserts actor second attemptId (inserts attemptId one) two
    · exact secondSame ▸ sound.inserts first actor attemptId one (inserts attemptId two)
    · exact sound.inserts first second attemptId one two
  recorded := sound.recorded

/-- Changes from outside the requests, while nobody writes. -/
theorem sound_outside {hosts : Int → Option EsxiPxeHost} {applied : Option Manifest}
    {kept : List Capability} (fewer : kept.Sublist system.claims)
    (free : kept = system.claims ∨ system.writer = none) :
    Sound platform { system with hosts := hosts, applied := applied, claims := kept } where
  drawnOnce := sound.drawnOnce
  drawn := sound.drawn
  table :=
    { once := sound.table.once.sublist (fewer.map Capability.attemptId)
      known := fun row inside => sound.table.known row (fewer.subset inside)
      marked := fun row inside => sound.table.marked row (fewer.subset inside)
      spent := fun row inside => sound.table.spent row (fewer.subset inside) }
  lawful := sound.lawful
  lock := sound.lock
  flushed := by
    intro actor
    rcases free with rfl | free
    · exact sound.flushed actor
    · exact flushed_unstaged (unstaged_of_free sound free actor)
  fits := sound.fits
  inserts := sound.inserts
  recorded := sound.recorded

end

end Atlaso.NetworkBoot.ClaimSteps
