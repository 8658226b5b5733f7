import Atlaso.Kmip.StoreHistories

/-!
A key from its creation on, over every run of operations and openings: its bytes and its
metadata never change, and its state goes from Pre-Active to Active at most once.
-/

namespace Atlaso.Kmip.KeyLifecycle

open CommitProtocol Exceptions Identifiers StoreDocuments StoreFiles StoreHistories StoreKeys
open StoreOpening StoreOperations StoreRuns Library Outcomes SortedTables

def Evolves (first later : StoredKey) : Prop :=
  later = first ∨ (first.state = "Pre-Active" ∧
    ∃ moment, later = { first with state := "Active", activatedAt := some moment })

def Dated (key : StoredKey) : Prop :=
  (key.state = "Pre-Active" ∧ key.activatedAt = none) ∨
    (key.state = "Active" ∧ key.activatedAt.isSome)

/-- What the store answers about a key under any text of its identifiers: `held` and
`material`, and an activation of an Active key leaves the rows as they are. -/
structure Served (crypto : Crypto) (store : Store) (held : StoredKey) (material : Bytes) :
    Prop where
  key : ∀ providerId keyId draws, validatedUuid providerId "provider_id" = .ok held.providerId →
    validatedUuid keyId "key_id" = .ok held.keyId →
      (store.call crypto (.getKey providerId keyId) draws).1 = .ok (.material held material)
  metadata : ∀ providerId keyId draws,
    validatedUuid providerId "provider_id" = .ok held.providerId →
      validatedUuid keyId "key_id" = .ok held.keyId →
        (store.call crypto (.getMetadata providerId keyId) draws).1 = .ok (.metadata held)
  activation : ∀ providerId keyId draws,
    validatedUuid providerId "provider_id" = .ok held.providerId →
      validatedUuid keyId "key_id" = .ok held.keyId → held.state = "Active" →
        (store.call crypto (.activate providerId keyId) draws).1 = .ok (.metadata held) ∧
          (store.call crypto (.activate providerId keyId) draws).2.disk.database =
            store.disk.database

/-! ### The row of a key -/

def Holds (crypto : Crypto) (kek : Bytes) (tables : Tables) (held : StoredKey)
    (material : Bytes) : Prop :=
  ∃ row ∈ tables.keys, decryptRow crypto kek row = .ok (held, material)

variable {crypto : Crypto} {kek : Bytes} {providerId : String}

theorem decrypt_row_key {row : WrappedRow} {held : StoredKey} {material : Bytes}
    (decrypted : decryptRow crypto kek row = .ok (held, material)) :
    row.key = toLex (held.providerId, held.keyId) := by
  obtain ⟨attributes, -, fields⟩ := row_metadata_fields (decrypt_row_fields decrypted).1
  rw [fields]
  rfl

theorem holds_kept {tables later : Tables} {held : StoredKey} {material : Bytes}
    (holds : Holds crypto kek tables held material) (kept : KeysKept crypto kek tables later) :
    ∃ next, Holds crypto kek later next material ∧ Evolves held next := by
  obtain ⟨row, member, decrypted⟩ := holds
  obtain ⟨other, inside, -, rfl | activated⟩ := kept row member
  · exact ⟨held, ⟨other, inside, decrypted⟩, .inl rfl⟩
  · obtain ⟨metadata, bytes, moment, before, preActive, after⟩ := activated
    rw [decrypted] at before
    cases before
    exact ⟨_, ⟨other, inside, after⟩, .inr ⟨preActive, moment, rfl⟩⟩

theorem evolves_dated {first later : StoredKey} (dated : Dated first)
    (evolves : Evolves first later) : Dated later := by
  rcases evolves with rfl | ⟨-, moment, rfl⟩
  · exact dated
  · exact .inr ⟨rfl, rfl⟩

theorem holds_read_plan {tables : Tables} {held : StoredKey} {material : Bytes}
    (holds : Holds crypto kek tables held material) {keyId : String}
    (provider : validatedUuid providerId "provider_id" = .ok held.providerId)
    (key : validatedUuid keyId "key_id" = .ok held.keyId) :
    readPlan crypto kek tables providerId keyId = .ok (held, material) := by
  obtain ⟨row, member, decrypted⟩ := holds
  have found := (find_row_some_iff tables.keysSorted).mpr ⟨member, decrypt_row_key decrypted⟩
  simp only [readPlan, findKeyRow, provider, key, ok_bind, found, orRaise, decrypted]

variable {site : Installation} {store : Store} {generation : Nat} {draws : Draws}
  {attributes : List (String × String)}

theorem holds_served (authentic : site.crypto.Authentic) (hash : site.crypto.CollisionFree)
    {tables : Tables} (ready : Ready site store.session store.disk tables generation)
    {held : StoredKey} {material : Bytes}
    (holds : Holds site.crypto site.kek tables held material) :
    Served site.crypto store held material := by
  refine ⟨?_, ?_, ?_⟩
  · intro providerId keyId draws provider key
    rw [call_answers authentic hash ready]
    simp only [Operation.plan, holds_read_plan holds provider key, ok_bind, pure_is_ok]
    rfl
  · intro providerId keyId draws provider key
    rw [call_answers authentic hash ready]
    simp only [Operation.plan, holds_read_plan holds provider key, ok_bind, pure_is_ok]
    rfl
  · intro providerId keyId draws provider key active
    have planned : (Operation.activate providerId keyId).plan site.crypto site.kek draws tables =
        .ok ⟨.metadata held, none⟩ := by
      simp only [Operation.plan, holds_read_plan holds provider key, ok_bind, activationPlan,
        if_pos active]
    refine ⟨?_, ?_⟩
    · rw [call_answers authentic hash ready]
      rw [planned]
      rfl
    · obtain ⟨later, number, readyLater, ⟨rfl, -⟩ | ⟨answer, other⟩⟩ :=
        call_ready authentic hash ready (.activate providerId keyId) draws
      · obtain ⟨_, before⟩ := ready.recoverable
        obtain ⟨_, after⟩ := readyLater.recoverable
        rw [after.database, before.database]
      · rw [planned] at other
        cases other

/-! ### Creation -/

theorem create_holds (authentic : crypto.Authentic) {tables : Tables} {name : Option String}
    {plan : Plan} (planned : (Operation.create providerId name attributes).plan crypto kek draws
      tables = .ok plan) : ∃ metadata inserted, plan = ⟨.metadata metadata, some inserted⟩ ∧
        Holds crypto kek inserted metadata draws.material.bytes ∧
          metadata.state = "Pre-Active" ∧ metadata.activatedAt = none ∧
            validatedUuid metadata.providerId "provider_id" = .ok metadata.providerId ∧
              validatedUuid metadata.keyId "key_id" = .ok metadata.keyId := by
  simp only [Operation.plan, createPlan, bind_ok_iff] at planned
  obtain ⟨provider, validated, normalized, checked, _, -, inserted, insertion, result⟩ := planned
  refine ⟨_, inserted, (Except.ok.inj result).symm, ?_, rfl, rfl,
    validated_uuid_again validated _, validated_uuid_text _ _⟩
  obtain ⟨-, -, -, keys⟩ := insert_key_ok insertion
  refine ⟨_, by rw [keys]; exact mem_insert_row.mpr (.inl rfl), ?_⟩
  exact decrypt_row_of authentic
    ⟨validated_custom_attributes_sound checked, draws.material.length, rfl⟩

theorem created_holds (authentic : site.crypto.Authentic) (hash : site.crypto.CollisionFree)
    {tables : Tables} (ready : Ready site store.session store.disk tables generation)
    {name : Option String} {metadata : StoredKey}
    (created : (store.call site.crypto (.create providerId name attributes) draws).1 = .ok
      (.metadata metadata)) : ∃ later number,
      Ready site (store.call site.crypto (.create providerId name attributes) draws).2.session
        (store.call site.crypto (.create providerId name attributes) draws).2.disk later number ∧
        Holds site.crypto site.kek later metadata draws.material.bytes ∧
          metadata.state = "Pre-Active" ∧ metadata.activatedAt = none ∧
            validatedUuid metadata.providerId "provider_id" = .ok metadata.providerId ∧
              validatedUuid metadata.keyId "key_id" = .ok metadata.keyId := by
  have answered := call_answers authentic hash ready (.create providerId name attributes) draws
  rw [created] at answered
  cases planned : (Operation.create providerId name attributes).plan site.crypto site.kek draws
      tables with
  | error raised =>
    rw [planned] at answered
    exact absurd answered (by simp [Except.map])
  | ok plan =>
    obtain ⟨other, inserted, rfl, holds, rest⟩ := create_holds authentic planned
    rw [planned] at answered
    have same : other = metadata := (Answer.metadata.inj (Except.ok.inj answered)).symm
    rw [same] at holds rest
    obtain ⟨later, number, readyLater, ⟨-, unplanned⟩ | ⟨answer, again⟩⟩ :=
      call_ready authentic hash ready (.create providerId name attributes) draws
    · exact absurd planned (unplanned _ _)
    · rw [planned] at again
      have sameRows : inserted = later :=
        Option.some.inj (congrArg Plan.mutation (Except.ok.inj again))
      rw [sameRows] at holds
      exact ⟨later, number, readyLater, holds, rest⟩

/-- Once a creation has returned metadata, every later state of every run serves the same
32 key bytes and the same metadata but for one activation, and so does every state after
that one. -/
theorem created_key_served {crypto : Crypto} (authentic : crypto.Authentic)
    (hash : crypto.CollisionFree) (bound : crypto.KeyBound) {secretsKey : String}
    {initial : Disk} {opened store later last : Store}
    (opens : Opens crypto secretsKey initial opened)
    (before : StoreRun crypto secretsKey opened store) {providerId : String}
    {name : Option String} {attributes : List (String × String)} {draws : Draws}
    {metadata : StoredKey}
    (created : (store.call crypto (.create providerId name attributes) draws).1 =
      .ok (.metadata metadata))
    (since : StoreRun crypto secretsKey
      (store.call crypto (.create providerId name attributes) draws).2 later)
    (after : StoreRun crypto secretsKey later last) :
    validatedUuid metadata.providerId "provider_id" = .ok metadata.providerId ∧
      validatedUuid metadata.keyId "key_id" = .ok metadata.keyId ∧
        draws.material.bytes.length = 32 ∧ metadata.state = "Pre-Active" ∧
          ∃ held final, Evolves metadata held ∧ Dated held ∧
            Served crypto later held draws.material.bytes ∧ Evolves held final ∧ Dated final ∧
              Served crypto last final draws.material.bytes := by
  obtain ⟨site, start, rfl, rfl, keyed, readyStart⟩ := opens_ready authentic hash opens
  obtain ⟨tables, generation, ready, -⟩ :=
    run_kept authentic hash bound keyed readyStart before
  obtain ⟨inserted, number, readyInserted, holds, preActive, undated, provider, key⟩ :=
    created_holds authentic hash ready created
  obtain ⟨rows, reached, readyLater, kept⟩ :=
    run_kept authentic hash bound keyed readyInserted since
  obtain ⟨held, holdsLater, evolved⟩ := holds_kept holds kept
  obtain ⟨lastRows, lastNumber, readyLast, keptLast⟩ :=
    run_kept authentic hash bound keyed readyLater after
  obtain ⟨final, holdsLast, evolvedLast⟩ := holds_kept holdsLater keptLast
  have dated := evolves_dated (.inl ⟨preActive, undated⟩) evolved
  exact ⟨provider, key, draws.material.length, preActive, held, final, evolved, dated,
    holds_served authentic hash readyLater holdsLater, evolvedLast,
    evolves_dated dated evolvedLast, holds_served authentic hash readyLast holdsLast⟩

/-- A key that is created in a new store, activated and served. -/
theorem sample_key_served : ∃ store held,
    Served sampleSite.crypto store held (List.replicate 32 5) ∧ Dated held ∧
      Evolves (newMetadata sampleKey sampleProvider none []) held := by
  let store : Store := ⟨sampleSession, sampleDisk⟩
  have opens : Opens sampleSite.crypto "secret" sampleDisk store :=
    ⟨sampleOpenDraws, sample_opens⟩
  have planned : ((Operation.create sampleProvider none []).plan sampleSite.crypto sampleSite.kek
      sampleKey Tables.initialised).map Plan.answer =
        .ok (.metadata (newMetadata sampleKey sampleProvider none [])) := by
    simp only [Operation.plan, createPlan, sampleProvider, validated_uuid_text, ok_bind]
    rfl
  have created : (store.call sampleSite.crypto (.create sampleProvider none []) sampleKey).1 =
      .ok (.metadata (newMetadata sampleKey sampleProvider none [])) :=
    (call_answers transparent_authentic transparent_collision_free sample_ready _
      sampleKey).trans planned
  obtain ⟨-, -, -, -, held, final, evolved, dated, served, -⟩ := created_key_served
    transparent_authentic transparent_collision_free transparent_key_bound opens .refl created
      (.single (.call _ (.activate sampleProvider sampleKey.keyId.text) sampleKey)) .refl
  exact ⟨_, held, served, dated, evolved⟩

end Atlaso.Kmip.KeyLifecycle
