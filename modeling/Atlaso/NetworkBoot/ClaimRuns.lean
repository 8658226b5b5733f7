import Atlaso.NetworkBoot.ClaimSteps

/-!
Runs of the ESXi boot service.

What a commit records is justified by what its transaction found at the flush, since the
rows have not changed since. From the empty claim table every run is therefore sound,
whatever the order of its statements.
-/

namespace Atlaso.NetworkBoot.ClaimRuns

open AppliedBoot BootClaims ClaimBinding ClaimSteps Library.Outcomes

variable {platform : Platform} {system next : System} {actor : Actor}

/-! ### Commits -/

variable {request : FetchRequest} {context : Context} {now : Time} {manifest : Manifest}
  {event : Option Event} {history : List Event} {activity : Activity} {writes : List Write}
  {attemptId origin : String}

/-- What the check on the applied state lets pass. -/
theorem servable_ok {row : Capability} (served : servable platform request row context = .ok true) :
    ¬(row.requestedBy = bootPolicy ∧ context.boot.required = true) ∧
      normalizePxeMac context.host.macAddress = request.macKey ∧
        platform.lower context.kickstart.contentHash = request.kickstartRevision ∧
          ∃ listener, artifactListenerOrigin platform context.artifact = .ok listener ∧
            platform.lower listener = normalizedOrigin platform request.requestOrigin ∧
              context.kickstart.id.getD 0 = row.kickstartId := by
  rw [servable] at served
  by_cases required : row.requestedBy = bootPolicy ∧ context.boot.required = true
  · rw [if_pos required] at served
    cases served
  · rw [if_neg required] at served
    by_cases keys : normalizePxeMac context.host.macAddress ≠ request.macKey ∨
        platform.lower context.kickstart.contentHash ≠ request.kickstartRevision
    · rw [if_pos keys] at served
      cases served
    · rw [if_neg keys] at served
      obtain ⟨listener, split, agrees⟩ := bind_ok_iff.mp served
      simp only [Except.ok.injEq, Bool.and_eq_true, decide_eq_true_eq] at agrees
      simp only [not_or, not_not] at keys
      exact ⟨required, keys.1, keys.2, listener, split, agrees⟩

theorem passed_bindings {row : Capability} {origin : Drawn}
    (passed : Passed platform request row now context manifest) (same : SameClaim row origin.row)
    (well : WellDrawn platform origin) :
    normalizeMac context.host.macAddress = .ok origin.row.macAddress ∧
      context.kickstart.id = some origin.row.kickstartId ∧
        platform.lower context.kickstart.contentHash = origin.row.kickstartRevision ∧
          ∃ listener, artifactListenerOrigin platform context.artifact = .ok listener ∧
            platform.lower listener = platform.lower origin.row.listenerOrigin := by
  have answered := passed.answers
  simp only [answers, Bool.and_eq_true, decide_eq_true_eq] at answered
  obtain ⟨⟨⟨-, rowKey⟩, rowRevision⟩, rowOrigin⟩ := answered
  obtain ⟨-, key, revision, listener, split, agrees, number⟩ := servable_ok passed.servable
  obtain ⟨mac, normalized⟩ := passed.describes.mac
  refine ⟨?_, ?_, ?_, listener, split, ?_⟩
  · obtain ⟨value, drawnMac⟩ := well.macAddress
    have usable : normalizePxeMac origin.row.macAddress ≠ "" := by
      rw [← same.macAddress, rowKey]
      intro blank
      have shape := passed.key
      rw [blank] at shape
      exact absurd shape (by decide)
    have equal : normalizePxeMac origin.row.macAddress = normalizePxeMac mac := by
      rw [← same.macAddress, rowKey, normalize_pxe_mac_normalized normalized, key]
    rw [normalized, ← normalize_pxe_mac_injective drawnMac normalized equal usable]
  · obtain ⟨kickstartId, numbered⟩ := Option.isSome_iff_exists.mp passed.describes.numbered
    rw [numbered] at number ⊢
    rw [← same.kickstartId, ← number]
    rfl
  · rw [revision, ← rowRevision, same.kickstartRevision]
  · rw [agrees, ← same.listenerOrigin, rowOrigin]

structure Consumes (platform : Platform) (system : System) (request : FetchRequest)
    (row current : Capability) (now : Time) (origin : Drawn) : Prop where
  present : current ∈ system.claims
  inside : origin ∈ system.drawn
  read : Follows platform system.history origin row
  follows : Follows platform system.history origin current
  token : current.tokenHash = some (platform.sha256 request.token)
  authorized : current.authorizedAt ≠ none
  unconsumed : current.consumedAt = none
  unexpired : now < current.expiresAt

/-- It is the row that was read, and it was authorized already. -/
theorem consumption_current {row : Capability} (sound : Sound platform system)
    (known : Known platform system.drawn system.history row)
    (passed : Passed platform request row now context manifest)
    (live : system.claims.any (consumable platform request row.attemptId now) = true) :
    ∃ current origin, Consumes platform system request row current now origin := by
  obtain ⟨current, present, matching⟩ := List.any_eq_true.mp live
  simp only [consumable, Bool.and_eq_true, decide_eq_true_eq] at matching
  obtain ⟨⟨⟨attempt, token⟩, unconsumed⟩, unexpired⟩ := matching
  obtain ⟨origin, inside, follows⟩ := known
  obtain ⟨other, otherInside, currentFollows⟩ := sound.table.known current present
  have identical : other = origin := same_draw sound.drawnOnce otherInside inside
    (currentFollows.same.attemptId.symm.trans (attempt.trans follows.same.attemptId))
  subst identical
  have answered := passed.answers
  simp only [answers, Bool.and_eq_true, decide_eq_true_eq] at answered
  have authorized : current.authorizedAt ≠ none := by
    obtain ⟨time, read⟩ := Option.ne_none_iff_exists'.mp answered.1.1.1.1.2
    rcases (follows.admitted time read).2 with policy | ⟨entered, happened, -⟩
    · rw [(currentFollows.policy time policy).2]
      exact Option.some_ne_none time
    · rw [← currentFollows.same.attemptId] at happened
      exact sound.table.marked current present _ entered time happened
  exact ⟨current, other, present, inside, follows, currentFollows, token, authorized, unconsumed,
    unexpired⟩

theorem consumption_legitimate {row : Capability}
    (collisionFree : Function.Injective platform.sha256) (sound : Sound platform system)
    (known : Known platform system.drawn system.history row)
    (passed : Passed platform request row now context manifest)
    (live : system.claims.any (consumable platform request row.attemptId now) = true) :
    ∃ drawn, Legitimate platform system.history row request context manifest now drawn := by
  obtain ⟨current, origin, consumes⟩ := consumption_current sound known passed live
  obtain ⟨present, inside, follows, currentFollows, token, authorized, unconsumed, unexpired⟩ :=
    consumes
  have well := sound.drawn origin inside
  have attempt : current.attemptId = row.attemptId :=
    currentFollows.same.attemptId.trans follows.same.attemptId.symm
  obtain ⟨time, since⟩ := Option.ne_none_iff_exists'.mp authorized
  obtain ⟨expires, admitted⟩ := currentFollows.admitted time since
  obtain ⟨mac, kickstart, revision, listener⟩ := passed_bindings passed follows.same well
  refine ⟨origin, ?_⟩
  exact {
    created := follows.created
    attempt := follows.same.attemptId
    once := fun spent => sound.table.spent current present (attempt ▸ spent) unconsumed
    token := collisionFree (currentFollows.token _ token)
    admitted := ⟨time, admitted, expires ▸ unexpired⟩
    policy := by
      intro drawnAuthorized
      obtain ⟨created, policy⟩ := Option.ne_none_iff_exists'.mp drawnAuthorized
      refine ⟨(well.policy created policy).1, ?_⟩
      have optional := not_and.mp (servable_ok passed.servable).1 (follows.policy created policy).1
      rw [← passed.describes.boot]
      simpa using optional
    describes := follows.same.hostId ▸ passed.describes
    macAddress := mac
    kickstartId := kickstart
    revision := revision
    listener := listener }

theorem lawful_record (lawful : Lawful platform history)
    (justified : ∀ happened, event = some happened → Justified platform history happened) :
    Lawful platform (event.toList ++ history) := by
  cases event with
  | none => exact lawful
  | some happened => exact lawful_cons lawful (justified happened rfl)

theorem sound_record (event : Option Event) {kept : List Capability} {writer : Option Actor}
    (sound : Sound platform system)
    (table : Table platform system.drawn (event.toList ++ system.history) kept)
    (justified : ∀ happened, event = some happened → Justified platform system.history happened)
    (unstaged : isStaged activity = false) (quiet : inserting activity = none)
    (fits : Fits platform system.drawn (event.toList ++ system.history) actor activity)
    (others : ∀ other, other ≠ actor → isStaged (system.activity other) = false ∨ kept =
      system.claims ∧ writer = system.writer) (creates : ∀ other, other ≠ actor → ∀ attemptId,
      inserting (system.activity other) = some attemptId → attemptId ∉ event.toList.filterMap
      createdAttempt) (returns : ∀ other, other ≠ actor → ∀ attemptId, system.activity other =
      .rendering attemptId → attemptId ∉ event.toList.filterMap returnedAttempt)
    (recorded : ∀ row claim bootCode, event = some (.created row claim bootCode) → ⟨row, claim,
      bootCode⟩ ∈ system.drawn) :
    Sound platform { system.become actor activity with
      claims := kept, writer := writer, history := event.toList ++ system.history } where
  drawnOnce := sound.drawnOnce
  drawn := sound.drawn
  table := table
  lawful := lawful_record sound.lawful justified
  lock := by
    intro other staged
    change isStaged ((system.become actor activity).activity other) = true at staged
    rw [become_activity] at staged
    split_ifs at staged with same
    · rw [unstaged] at staged
      cases staged
    · rcases others other same with waiting | ⟨-, unchanged⟩
      · rw [waiting] at staged
        cases staged
      · exact unchanged.trans (sound.lock other staged)
  flushed := by
    intro other
    change Flushed platform kept ((system.become actor activity).activity other)
    rw [become_activity]
    split_ifs with same
    · exact flushed_unstaged unstaged
    · rcases others other same with waiting | ⟨unchanged, -⟩
      · exact flushed_unstaged waiting
      · exact unchanged ▸ sound.flushed other
  fits := by
    intro other
    change Fits platform system.drawn (event.toList ++ system.history) other
      ((system.become actor activity).activity other)
    rw [become_activity]
    split_ifs with same
    · exact same ▸ fits
    · exact fits_mono (sound.fits other) (List.Subset.refl _) (creates other same)
        (returns other same)
  inserts := by
    intro first second attemptId one two
    change inserting ((system.become actor activity).activity first) = some attemptId at one
    change inserting ((system.become actor activity).activity second) = some attemptId at two
    rw [become_activity] at one two
    split_ifs at one two with firstSame secondSame secondSame
    · rw [firstSame, secondSame]
    · rw [quiet] at one
      cases one
    · rw [quiet] at two
      cases two
    · exact sound.inserts first second attemptId one two
  recorded := by
    intro row claim bootCode happened
    rcases List.mem_append.mp happened with new | old
    · exact recorded row claim bootCode (Option.mem_toList.mp new)
    · exact sound.recorded row claim bootCode old

theorem sound_commit (sound : Sound platform system)
    (staged : system.activity actor = .staged writes event none) :
    Sound platform (system.install actor writes event .idle) := by
  have plan : Plan platform system.drawn system.history writes event := by
    have fits := sound.fits actor
    rw [staged] at fits
    exact fits
  have flushed : writes.all (Write.permitted system.claims) = true := by
    have holds := sound.flushed actor
    rw [staged] at holds
    exact holds.1
  have alone : ∀ other, other ≠ actor → isStaged (system.activity other) = false :=
    fun other different => unstaged_others sound (by rw [staged]; rfl) different
  cases plan with
  | tidy _ simple =>
    exact sound_record none sound
      (table_tidy sound.drawnOnce sound.table simple) (by simp) rfl rfl trivial
      (fun other different => .inl (alone other different)) (by simp) (by simp) (by simp)
  | create origin doomed inside new =>
    have inserted := table_insert sound.table sound.lawful inside (sound.drawn origin inside) new
    have deletes : ∀ write ∈ doomed.map Write.delete, Tidy platform system.drawn write := by
      intro write chosen
      obtain ⟨other, -, rfl⟩ := List.mem_map.mp chosen
      exact .delete other
    have kept : Table platform system.drawn
        (.created origin.row origin.claim origin.bootCode :: system.history)
        (applyAll (system.claims ++ [origin.row]) (doomed.map .delete)) :=
      table_tidy sound.drawnOnce inserted deletes
    refine sound_record (some (.created origin.row origin.claim origin.bootCode)) sound kept ?_ rfl rfl trivial (fun other different => .inl (alone other different)) ?_ ?_ ?_
    · rintro happened ⟨⟩
      exact ⟨new, sound.drawn origin inside⟩
    · intro other different attemptId inserts created
      obtain rfl : origin.row.attemptId = attemptId := by
        simpa [createdAttempt, eq_comm] using created
      exact different (sound.inserts other actor _ inserts (by rw [staged]; rfl))
    · intro other different attemptId rendering
      simp [returnedAttempt]
    · rintro row claim bootCode ⟨⟩
      exact inside
  | authorize origin request doomed others now inside created pending host entered =>
    refine sound_record
      (some (.authorized request.hostId origin.row.attemptId request.bootCode now)) sound
      (table_authorize sound.drawnOnce sound.table inside pending host entered) ?_ rfl rfl trivial
      (fun other different => .inl (alone other different)) ?_ ?_ ?_
    · rintro happened ⟨⟩
      exact ⟨origin, created, rfl, host, entered⟩
    · intro other different attemptId inserts
      simp [createdAttempt]
    · intro other different attemptId rendering
      simp [returnedAttempt]
    · rintro row claim bootCode ⟨⟩

theorem sound_consume (collisionFree : Function.Injective platform.sha256)
    (sound : Sound platform system)
    (staged : system.activity actor = .staged writes event (some attemptId)) :
    Sound platform (system.install actor writes event (.rendering attemptId)) := by
  have fits := sound.fits actor
  have flushed := sound.flushed actor
  rw [staged] at fits flushed
  obtain ⟨row, request, context, manifest, now, rfl, rfl, rfl, known, passed⟩ := fits
  have live := flushed.2 actor row request context manifest now rfl
  obtain ⟨current, present, matching⟩ := List.any_eq_true.mp live
  simp only [consumable, Bool.and_eq_true, decide_eq_true_eq] at matching
  obtain ⟨⟨⟨attempt, -⟩, unconsumed⟩, -⟩ := matching
  have unspent : row.attemptId ∉ system.history.filterMap consumedAttempt :=
    fun spent => sound.table.spent current present (attempt ▸ spent) unconsumed
  have table : Table platform system.drawn
      (.consumed actor row request context manifest now :: system.history)
      (applyAll system.claims [.consume row.attemptId now]) := by
    refine table_writes (some (.consumed actor row request context manifest now)) sound.table
      (by simp [isInsert]) ?_ ?_ ?_
    · intro write chosen other next holds after
      obtain rfl := List.mem_singleton.mp chosen
      exact known_tidy sound.drawnOnce (.consume row.attemptId now) holds after
    · rintro other inside next after hostId entered time ⟨⟩
    · intro other inside next after consumed
      have same : row.attemptId = other.attemptId := Option.some.inj consumed
      exact row_after_ended (by simp [Write.ended, same]) after
  refine sound_record (some (.consumed actor row request context manifest now)) sound table ?_ rfl
    rfl ?_ ?_ ?_ ?_ ?_
  · rintro happened ⟨⟩
    exact consumption_legitimate collisionFree sound known passed live
  · refine ⟨⟨row, request, context, manifest, now, rfl, List.mem_cons_self⟩, ?_⟩
    intro returned
    refine unspent (returned_consumed sound.lawful ?_)
    simpa [returnedAttempt] using returned
  · exact fun other different => .inl (unstaged_others sound (by rw [staged]; rfl) different)
  · intro other different attemptId inserts
    simp [createdAttempt]
  · intro other different attemptId rendering
    simp [returnedAttempt]
  · rintro row claim bootCode ⟨⟩

/-- A Kickstart is returned by the request that consumed its claim. -/
theorem sound_respond {content : String} (sound : Sound platform system)
    (rendering : system.activity actor = .rendering attemptId) :
    Sound platform { system.become actor .idle with
      history := .returned actor attemptId content :: system.history } := by
  have fits := sound.fits actor
  rw [rendering] at fits
  obtain ⟨⟨row, request, context, manifest, now, attempt, consumed⟩, unreturned⟩ := fits
  have table : Table platform system.drawn
      (.returned actor attemptId content :: system.history) (applyAll system.claims []) :=
    table_writes (some (.returned actor attemptId content)) sound.table (by simp) (by simp)
      (by rintro _ _ _ _ _ _ _ ⟨⟩) (by rintro _ _ _ _ ⟨⟩)
  refine sound_record (some (.returned actor attemptId content)) sound table ?_ rfl rfl trivial
    (fun _ _ => .inr ⟨rfl, rfl⟩) ?_ ?_ ?_
  · rintro happened ⟨⟩
    exact ⟨⟨row, request, context, manifest, now, attempt, consumed⟩, unreturned⟩
  · intro other different inserted inserts
    simp [createdAttempt]
  · intro other different rendered drawing returned
    obtain rfl : attemptId = rendered := by
      simpa [returnedAttempt, eq_comm] using returned
    have own := sound.fits other
    rw [drawing] at own
    obtain ⟨⟨row', request', context', manifest', now', same, consumed'⟩, -⟩ := own
    exact different (consumed_once sound.lawful consumed' consumed (same.trans attempt.symm))
  · rintro row claim bootCode ⟨⟩

/-! ### The other statements -/

theorem read_sound (sound : Sound platform system) (unstaged : isStaged activity = false)
    (quiet : inserting activity = none)
    (fits : Fits platform system.drawn system.history actor activity) :
    Sound platform (system.become actor activity) :=
  sound_become sound unstaged fits (by simp [quiet])

/-- A session that only deletes and consumes rows. -/
theorem discard_sound (sound : Sound platform system)
    (simple : ∀ write ∈ writes, Tidy platform system.drawn write) :
    Sound platform (system.finish actor writes none) :=
  sound_finish sound (.tidy writes simple) fun write inside => tidy_plain (simple write inside)

theorem consume_tidy (drawn : List Drawn) (attemptId : String) (now : Time) :
    ∀ write ∈ [Write.consume attemptId now], Tidy platform drawn write := by
  intro write inside
  obtain rfl := List.mem_singleton.mp inside
  exact .consume attemptId now

variable {hostId : Int} {applied : Option Manifest} {current : Option EsxiPxeHost} {draft : Draft}
  {drawn : List Drawn}

theorem menu_sound (sound : Sound platform system)
    (happens : stepMenu system actor hostId origin now = some next) : Sound platform next := by
  unfold stepMenu at happens
  split at happens
  · cases happens
    exact read_sound sound rfl rfl trivial
  · cases happens

theorem clean_up_sound (sound : Sound platform system)
    (happens : stepCleanUp system actor now = some next) : Sound platform next := by
  unfold stepCleanUp at happens
  split at happens
  · cases happens
    exact read_sound sound rfl rfl trivial
  · cases happens
    exact read_sound sound rfl rfl trivial
  · cases happens

theorem read_manifest_sound (sound : Sound platform system)
    (happens : stepReadManifest platform system actor = some next) : Sound platform next := by
  have fits := sound.fits actor
  unfold stepReadManifest at happens
  split at happens <;> rename_i activity <;> try rw [activity] at fits
  · cases happens
    exact read_sound sound rfl rfl trivial
  · split at happens
    · cases happens
      exact read_sound sound rfl rfl fits
    · cases happens
      exact sound_rollback sound
  · cases happens
    exact read_sound sound rfl rfl fits
  · cases happens
    exact read_sound sound rfl rfl fits
  · cases happens

theorem draft_claim_mac (drafted : draftClaim platform hostId origin applied current = .ok draft) :
    ∃ value, normalizeMac value = .ok draft.macAddress := by
  unfold draftClaim at drafted
  obtain ⟨context, -, drafted⟩ := bind_ok_iff.mp drafted
  obtain ⟨listener, -, drafted⟩ := bind_ok_iff.mp drafted
  split_ifs at drafted
  obtain ⟨mac, normalized, drafted⟩ := bind_ok_iff.mp drafted
  cases drafted
  exact ⟨_, normalized⟩

theorem check_fetch_passed {row : Capability} (key : isMacKey request.macKey = true)
    (answered : answers platform request row now = true)
    (checked : checkFetch platform request row applied current = .ok (context, manifest)) :
    Passed platform request row now context manifest := by
  unfold checkFetch at checked
  split at checked
  · rename_i found
    split at checked
    · rename_i served
      cases checked
      obtain ⟨other, same, describes⟩ := context_describes found
      cases same
      exact ⟨key, answered, served, describes⟩
    · cases checked
  · cases checked

theorem read_host_sound (sound : Sound platform system)
    (happens : stepReadHost platform system actor = some next) : Sound platform next := by
  have fits := sound.fits actor
  unfold stepReadHost at happens
  split at happens
  · split at happens
    · rename_i drafted
      cases happens
      exact read_sound sound rfl rfl (draft_claim_mac drafted)
    · cases happens
      refine discard_sound sound fun write inside => ?_
      obtain ⟨attemptId, -, rfl⟩ := List.mem_map.mp inside
      exact .delete attemptId
  · rename_i activity
    rw [activity] at fits
    split at happens
    · rename_i checked
      cases happens
      exact read_sound sound rfl rfl ⟨fits.1, check_fetch_passed fits.2.1 fits.2.2 checked⟩
    · cases happens
      exact discard_sound sound (consume_tidy _ _ _)
  · cases happens

theorem authorization_sound {request : AuthorizationRequest} (sound : Sound platform system)
    (happens : stepAuthorization system actor request = some next) : Sound platform next := by
  unfold stepAuthorization at happens
  split at happens
  · split at happens
    · split_ifs at happens
      · cases happens
        exact read_sound sound rfl rfl trivial
      · cases happens
        exact sound
    · cases happens
      exact sound
  · cases happens

theorem selected {filter : Capability → Bool} {claims : List Capability} {row : Capability}
    (only : claims.filter filter = [row]) : row ∈ claims ∧ filter row = true :=
  List.mem_filter.mp (only ▸ List.mem_singleton_self row)

theorem select_claim_sound (sound : Sound platform system)
    (happens : stepSelectClaim platform system actor now = some next) : Sound platform next := by
  unfold stepSelectClaim at happens
  split at happens
  · split at happens
    · cases happens
      exact sound_rollback sound
    · rename_i bootCode entered
      split at happens
      · rename_i row only
        cases happens
        obtain ⟨present, pending⟩ := selected only
        simp only [isPending, Bool.and_eq_true, decide_eq_true_eq] at pending
        obtain ⟨⟨⟨⟨host, code⟩, unauthorized⟩, -⟩, -⟩ := pending
        exact read_sound sound rfl rfl
          ⟨sound.table.known row present, host, unauthorized, bootCode, entered, code⟩
      · cases happens
        exact sound_rollback sound
  · cases happens

theorem select_others_sound (collisionFree : Function.Injective platform.sha256)
    (sound : Sound platform system) (happens : stepSelectOthers system actor = some next) :
    Sound platform next := by
  have fits := sound.fits actor
  unfold stepSelectOthers at happens
  split at happens
  · rename_i activity
    rw [activity] at fits
    cases happens
    obtain ⟨⟨origin, inside, follows⟩, host, pending, bootCode, entered, hashed⟩ := fits
    have code : bootCode = origin.bootCode := by
      refine collisionFree ?_
      rw [← hashed, follows.same.bootCodeHash, (sound.drawn origin inside).bootCodeHash]
    have unadmitted : origin.row.authorizedAt = none := by
      by_contra policy
      obtain ⟨time, created⟩ := Option.ne_none_iff_exists'.mp policy
      rw [(follows.policy time created).2] at pending
      cases pending
    rw [follows.same.attemptId]
    refine sound_finish sound (.authorize origin _ _ _ _ inside follows.created unadmitted
      (follows.same.hostId.symm.trans host) (entered.trans (congrArg some code))) ?_
    intro write chosen
    rcases mem_authorization_writes platform system.drawn chosen with tidy | rfl
    · exact tidy_plain tidy
    · rfl
  · cases happens

theorem poll_sound {claim : String} (sound : Sound platform system)
    (happens : stepPoll platform system actor claim origin now = some next) :
    Sound platform next := by
  unfold stepPoll at happens
  split at happens
  · split_ifs at happens
    · cases happens
      exact sound
    · split at happens
      · rename_i row only
        obtain ⟨present, hashed⟩ := selected only
        split_ifs at happens
        · cases happens
          exact sound
        · cases happens
          exact discard_sound sound (consume_tidy _ _ _)
        · cases happens
          exact sound
        · cases happens
          exact read_sound sound rfl rfl ⟨sound.table.known row present, by simpa using hashed⟩
      · cases happens
        exact sound
  · cases happens

theorem prepare_sound {preparation : Preparation}
    (collisionFree : Function.Injective platform.sha256) (sound : Sound platform system)
    (happens : stepPrepare platform system actor preparation = some next) :
    Sound platform next := by
  have fits := sound.fits actor
  unfold stepPrepare at happens
  split at happens
  · rename_i claim row now applied activity
    rw [activity] at fits
    obtain ⟨⟨origin, inside, follows⟩, hashed⟩ := fits
    have same : claim = origin.claim := by
      refine collisionFree ?_
      rw [← hashed, follows.same.claimHash, (sound.drawn origin inside).claimHash]
    have token : Tidy platform system.drawn (.prepare row.attemptId
        (platform.sha256 (esxiKickstartToken platform row claim))) := by
      rw [token_same origin follows.same, same, follows.same.attemptId]
      exact .prepare origin inside
    simp only at happens
    split at happens
    · cases happens
      exact discard_sound sound (by simpa using token)
    · cases happens
      refine discard_sound sound fun write chosen => ?_
      rcases List.mem_cons.mp chosen with rfl | last
      · exact token
      · exact consume_tidy _ _ _ write last
    · cases happens
      exact discard_sound sound (consume_tidy _ _ _)
  · cases happens

theorem fetch_sound (sound : Sound platform system)
    (happens : stepFetch platform system actor request now = some next) :
    Sound platform next := by
  unfold stepFetch at happens
  split at happens
  · split_ifs at happens with shape
    · cases happens
      exact sound
    · split at happens
      · rename_i row only
        obtain ⟨present, -⟩ := selected only
        split_ifs at happens with answered unconsumed
        · cases happens
          have key : isMacKey request.macKey = true := by
            simp only [Bool.not_eq_false, Bool.and_eq_true] at shape
            exact shape.1.1
          exact read_sound sound rfl rfl ⟨sound.table.known row present, key, answered⟩
        · cases happens
          exact discard_sound sound (consume_tidy _ _ _)
        · cases happens
          exact sound
      · cases happens
        exact sound
  · cases happens

theorem update_consumed_sound (sound : Sound platform system)
    (happens : stepUpdateConsumed platform system actor = some next) : Sound platform next := by
  have fits := sound.fits actor
  unfold stepUpdateConsumed at happens
  split at happens
  · rename_i request row now context manifest activity free
    rw [activity] at fits
    split_ifs at happens with live
    · cases happens
      refine sound_stage sound free
        ⟨row, request, context, manifest, now, rfl, rfl, rfl, fits.1, fits.2⟩ ⟨?_, ?_⟩ ?_
      · obtain ⟨current, present, matching⟩ := List.any_eq_true.mp live
        simp only [consumable, Bool.and_eq_true, decide_eq_true_eq] at matching
        simpa [Write.permitted] using ⟨current, present, matching.1.1.1⟩
      · rintro other row' request' context' manifest' now' ⟨⟩
        exact live
      · simp [inserting]
    · cases happens
      exact sound_rollback sound
  · cases happens

theorem plan_consumes (plan : Plan platform drawn history writes event) {other : Actor}
    {row : Capability} :
    event ≠ some (.consumed other row request context manifest now) := by
  cases plan <;> simp

theorem flush_sound (sound : Sound platform system)
    (happens : stepFlush system actor = some next) : Sound platform next := by
  have fits := sound.fits actor
  unfold stepFlush at happens
  split at happens
  · rename_i writes event activity free
    rw [activity] at fits
    split_ifs at happens with permitted
    · cases happens
      refine sound_stage sound free fits ⟨permitted, ?_⟩ ?_
      · intro other row request context manifest now consumed
        exact absurd consumed (plan_consumes fits)
      · intro attemptId inserts
        rw [activity]
        cases writes with
        | nil => cases inserts
        | cons write rest => cases write <;> exact inserts
    · cases happens
      exact sound_rollback sound
  · cases happens

theorem drafted_well_drawn {claim bootCode : String}
    (mac : ∃ value, normalizeMac value = .ok draft.macAddress) :
    WellDrawn platform
      ⟨draftedRow platform draft attemptId claim bootCode now, claim, bootCode⟩ where
  claimHash := rfl
  bootCodeHash := rfl
  tokenHash := rfl
  consumedAt := rfl
  macAddress := mac
  policy := by
    intro time authorized
    simp only [draftedRow] at authorized ⊢
    split_ifs at authorized ⊢
    obtain rfl := Option.some.inj authorized
    exact ⟨rfl, rfl⟩

theorem inserting_drawn (fits : Fits platform drawn history actor activity)
    (inserts : inserting activity = some attemptId) :
    ∃ origin ∈ drawn, origin.row.attemptId = attemptId := by
  have planned : ∀ {writes : List Write} {event : Option Event},
      Plan platform drawn history writes event →
        (∃ row rest, writes = .insert row :: rest ∧ row.attemptId = attemptId) →
          ∃ origin ∈ drawn, origin.row.attemptId = attemptId := by
    rintro writes event plan ⟨row, rest, rfl, attempt⟩
    generalize shape : Write.insert row :: rest = writes at plan
    cases plan with
    | tidy _ simple =>
      rw [← shape] at simple
      exact absurd (tidy_plain (simple _ List.mem_cons_self)) (by simp [isInsert])
    | create origin doomed inside new =>
      obtain ⟨same, -⟩ := List.cons.inj shape
      cases same
      exact ⟨origin, inside, attempt⟩
    | authorize origin request doomed others now inside created pending host entered =>
      have chosen : Write.insert row ∈
          authorizationWrites request doomed others origin.row.attemptId now :=
        shape ▸ List.mem_cons_self
      rcases mem_authorization_writes platform drawn chosen with tidy | same
      · cases tidy
      · cases same
  unfold inserting at inserts
  split at inserts
  · exact planned fits ⟨_, _, rfl, Option.some.inj inserts⟩
  · rename_i row rest event rendered
    cases rendered with
    | none => exact planned fits ⟨_, _, rfl, Option.some.inj inserts⟩
    | some rendered =>
      obtain ⟨row', request, context, manifest, now, wrote, -⟩ := fits
      cases wrote
  · cases inserts

/-- A draw is new, so nothing is known about it yet. -/
theorem sound_drawn {origin : Drawn} (sound : Sound platform system)
    (well : WellDrawn platform origin)
    (fresh : ∀ drawn ∈ system.drawn, drawn.row.attemptId ≠ origin.row.attemptId) :
    Sound platform { system with drawn := origin :: system.drawn } where
  drawnOnce := by
    refine List.nodup_cons.mpr ⟨?_, sound.drawnOnce⟩
    intro inside
    obtain ⟨drawn, present, same⟩ := List.mem_map.mp inside
    exact fresh drawn present same
  drawn := List.forall_mem_cons.mpr ⟨well, sound.drawn⟩
  table :=
    { sound.table with
      known := fun row inside => known_mono (sound.table.known row inside)
        (List.subset_cons_self _ _) (List.Subset.refl _) }
  lawful := sound.lawful
  lock := sound.lock
  flushed := sound.flushed
  fits := fun actor => @fits_mono _ _ _ _ [] _ _ (sound.fits actor) (List.subset_cons_self _ _)
    (by simp) (by simp)
  inserts := sound.inserts
  recorded := fun row claim bootCode happened =>
    List.mem_cons_of_mem _ (sound.recorded row claim bootCode happened)

theorem draw_sound {claim : String} {compactCode : List Char} (sound : Sound platform system)
    (happens : stepDraw platform system actor attemptId claim compactCode now = some next) :
    Sound platform next := by
  have fits := sound.fits actor
  unfold stepDraw at happens
  split at happens
  · rename_i draft doomed activity
    rw [activity] at fits
    split_ifs at happens with repeated
    cases happens
    have fresh : ∀ drawn ∈ system.drawn, drawn.row.attemptId ≠ attemptId := by
      intro drawn inside same
      exact repeated (List.any_eq_true.mpr ⟨drawn, inside, by simp [same]⟩)
    have unrecorded : attemptId ∉ system.history.filterMap createdAttempt := by
      intro created
      obtain ⟨event, happened, named⟩ := List.mem_filterMap.mp created
      cases event with
      | created row other bootCode =>
        exact fresh _ (sound.recorded row other bootCode happened) (Option.some.inj named)
      | authorized | consumed | returned => cases named
    have well : WellDrawn platform ⟨draftedRow platform draft attemptId claim
        (displayedCode compactCode) now, claim, displayedCode compactCode⟩ :=
      drafted_well_drawn fits
    refine sound_become (sound_drawn sound well fresh) rfl (.create _ doomed List.mem_cons_self unrecorded) ?_
    intro other inserts busy different same
    cases inserts
    obtain ⟨origin, inside, attempt⟩ := inserting_drawn (sound.fits busy) same
    exact fresh origin inside attempt
  · cases happens

theorem step_sound {action : Action} (collisionFree : Function.Injective platform.sha256)
    (sound : Sound platform system) (happens : step platform system action = some next) :
    Sound platform next := by
  cases action with
  | requestMenu actor hostId origin now => exact menu_sound sound happens
  | cleanUp actor now => exact clean_up_sound sound happens
  | readManifest actor => exact read_manifest_sound sound happens
  | readHost actor => exact read_host_sound sound happens
  | draw actor attemptId claim compactCode now => exact draw_sound sound happens
  | requestAuthorization actor request => exact authorization_sound sound happens
  | selectClaim actor now => exact select_claim_sound sound happens
  | selectOthers actor => exact select_others_sound collisionFree sound happens
  | poll actor claim origin now => exact poll_sound sound happens
  | prepare actor preparation => exact prepare_sound collisionFree sound happens
  | fetch actor request now => exact fetch_sound sound happens
  | updateConsumed actor => exact update_consumed_sound sound happens
  | flush actor => exact flush_sound sound happens
  | commit actor =>
    change stepCommit system actor = some next at happens
    unfold stepCommit at happens
    split at happens
    · rename_i staged
      cases happens
      exact sound_commit sound staged
    · rename_i staged
      cases happens
      exact sound_consume collisionFree sound staged
    · cases happens
  | respond actor content =>
    change stepRespond system actor content = some next at happens
    unfold stepRespond at happens
    split at happens
    · rename_i rendering
      cases happens
      exact sound_respond sound rendering
    · cases happens
      exact read_sound sound rfl rfl trivial
    · cases happens
  | crash actor =>
    cases happens
    exact sound_rollback sound
  | saveHost hostId host =>
    simp only [step] at happens
    split_ifs at happens with busy deleted
    · cases happens
      exact sound_outside sound List.filter_sublist (.inr (by simpa using busy))
    · cases happens
      exact sound_outside sound (List.Sublist.refl _) (.inl rfl)
  | publish applied =>
    cases happens
    exact sound_outside sound (List.Sublist.refl _) (.inl rfl)
  | clearClaims =>
    simp only [step] at happens
    split_ifs at happens with busy
    cases happens
    exact sound_outside sound (List.nil_sublist _) (.inr (by simpa using busy))

/-- A service without claims and requests. -/
def initial (hosts : Int → Option EsxiPxeHost) (applied : Option Manifest) : System where
  claims := []
  hosts := hosts
  applied := applied
  writer := none
  activity := fun _ => .idle
  drawn := []
  history := []

theorem initial_sound (hosts : Int → Option EsxiPxeHost) (applied : Option Manifest) :
    Sound platform (initial hosts applied) where
  drawnOnce := List.nodup_nil
  drawn := by simp [initial]
  table := ⟨List.nodup_nil, by simp [initial], by simp [initial], by simp [initial]⟩
  lawful := lawful_nil
  lock := by simp [initial, isStaged]
  flushed := fun _ => trivial
  fits := fun _ => trivial
  inserts := by simp [initial, inserting]
  recorded := by simp [initial]

theorem run_sound {actions : List Action} (collisionFree : Function.Injective platform.sha256)
    (sound : Sound platform system) (happens : runActions platform system actions = some next) :
    Sound platform next := by
  induction actions generalizing system with
  | nil =>
    cases happens
    exact sound
  | cons action rest induction =>
    obtain ⟨middle, first, later⟩ := Option.bind_eq_some_iff.mp happens
    exact induction (step_sound collisionFree sound first) later

end Atlaso.NetworkBoot.ClaimRuns
