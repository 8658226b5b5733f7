import Atlaso.Kmip.StoredRows

/-!
What `lifecycle_counts` tells operations about a store, against what Locate finds there.
-/

namespace Atlaso.Kmip.KeyCounts

open Library Dictionary Outcomes CommitProtocol Identifiers StoreDocuments StoreFiles StoreHistories
open StoreKeys StoreOperations StoredRows

def tally (provider : String) (rows : List WrappedRow) : LifecycleCounts where
  preActive := rows.countP (located provider (some "Pre-Active") none)
  active := rows.countP (located provider (some "Active") none)
  total := rows.countP (located provider none none)

structure Counted (providers : List String) (rows : List WrappedRow)
    (counts : List (String × LifecycleCounts)) (provider : String) : Prop where
  listed : provider ∈ counts.map Prod.fst ↔
    provider ∈ providers ∨ ∃ row ∈ rows, row.providerId = provider
  tallied : (getItem provider counts).getD ⟨0, 0, 0⟩ = tally provider rows

variable {crypto : Crypto} {kek : Bytes} {providers : List String}
  {counts after : List (String × LifecycleCounts)} {provider : String}

theorem count_row_counted {rows : List WrappedRow} {row : WrappedRow}
    (known : row.state = "Pre-Active" ∨ row.state = "Active")
    (counted : Counted providers rows counts provider)
    (step : countRow crypto kek counts row = .ok after) :
    Counted providers (rows ++ [row]) after provider := by
  obtain ⟨⟨metadata, material⟩, decrypted, result⟩ := bind_ok_iff.mp step
  cases result
  obtain ⟨attributes, -, rfl⟩ := row_metadata_fields (decrypt_row_fields decrypted).1
  obtain ⟨listed, tallied⟩ := counted
  constructor
  · rw [mem_keys_set_item, listed]
    simp only [List.mem_append, List.mem_singleton]
    constructor
    · rintro (same | inside | ⟨other, belongs, same⟩)
      · exact .inr ⟨row, .inr rfl, same.symm⟩
      · exact .inl inside
      · exact .inr ⟨other, .inl belongs, same⟩
    · rintro (inside | ⟨other, belongs | rfl, same⟩)
      · exact .inr (.inl inside)
      · exact .inr (.inr ⟨other, belongs, same⟩)
      · exact .inl same.symm
  · rw [get_item_set_item]
    split_ifs with same
    · subst same
      rw [Option.getD_some, tallied]
      rcases known with state | state <;>
        simp [tally, LifecycleCounts.add, located, List.countP_append, state]
    · rw [tallied]
      simp [tally, located, List.countP_append, Ne.symm same]

theorem count_rows_counted {rows : List WrappedRow} (written : ∀ row ∈ rows, Written row)
    (folded : rows.foldlM (countRow crypto kek)
      (ofPairs (providers.map fun provider => (provider, ⟨0, 0, 0⟩))) = .ok after) :
    Counted providers rows after provider := by
  induction rows using List.reverseRecOn generalizing after with
  | nil =>
    cases folded
    constructor
    · simp [mem_keys_of_pairs]
    · cases found : getItem provider (ofPairs (providers.map fun provider =>
          (provider, (⟨0, 0, 0⟩ : LifecycleCounts)))) with
      | none => rfl
      | some zeros =>
        obtain ⟨_, -, same⟩ := List.mem_map.mp (mem_of_pairs (mem_of_get_item found))
        rw [← (Prod.mk.inj same).2]
        rfl
  | append_singleton rows row induction =>
    rw [List.foldlM_append] at folded
    obtain ⟨middle, before, last⟩ := bind_ok_iff.mp folded
    obtain ⟨_, step, result⟩ := bind_ok_iff.mp last
    cases result
    exact count_row_counted (written row (by simp)).state
      (induction (fun other inside => written other (by simp [inside])) before) step

/-- A key that the service wrote is counted under one of the two states. -/
theorem tally_total {rows : List WrappedRow} (written : ∀ row ∈ rows, Written row)
    (provider : String) :
    (tally provider rows).total = (tally provider rows).preActive + (tally provider rows).active := by
  induction rows with
  | nil => rfl
  | cons row rows induction =>
    obtain ⟨known, others⟩ := List.forall_mem_cons.mp written
    have before := induction others
    simp only [tally, List.countP_cons] at before ⊢
    rcases known.state with state | state <;> simp [located, state, before]
    · omega
    · omega

/-- The counts of a store have exactly the requested providers and those with keys, each with
the keys that Locate finds of it: per state, and in total, which is the sum of the two. -/
theorem lifecycle_counts_exact (authentic : crypto.Authentic) (hash : crypto.CollisionFree)
    (bound : crypto.KeyBound) {secretsKey : String} {store : Store}
    (grown : Grown crypto secretsKey store) {providerIds : List String} {draws : Draws}
    (answered : (store.call crypto (.lifecycleCounts providerIds) draws).1 = .ok (.counts counts)) :
    ∃ (tables : Tables) (providers : List String), store.disk.database = some tables.database ∧
      providerIds.mapM (fun providerId => validatedUuid providerId "provider_id") = .ok providers ∧
        ∀ provider, (provider ∈ counts.map Prod.fst ↔
            provider ∈ providers ∨ ∃ row ∈ tables.keys, row.providerId = provider) ∧
          ∀ found, getItem provider counts = some found →
            found = tally provider tables.keys ∧ found.total = found.preActive + found.active := by
  obtain ⟨site, tables, generation, rfl, ready, written⟩ := grown_ready authentic hash bound grown
  obtain ⟨envelope, recoverable⟩ := ready.recoverable
  rw [call_answers authentic hash ready] at answered
  cases planned : (Operation.lifecycleCounts providerIds).plan site.crypto site.kek draws tables with
  | error raised =>
    rw [planned] at answered
    cases answered
  | ok plan =>
    rw [planned] at answered
    simp only [Operation.plan, bind_ok_iff] at planned
    obtain ⟨providers, validated, counted, folded, result⟩ := planned
    cases result
    cases answered
    refine ⟨tables, providers, recoverable.database, validated, fun provider => ?_⟩
    obtain ⟨listed, tallied⟩ := @count_rows_counted _ _ _ _ provider _ written folded
    refine ⟨listed, fun found read => ?_⟩
    rw [read, Option.getD_some] at tallied
    exact ⟨tallied, tallied ▸ tally_total written provider⟩

theorem sample_counted : ∃ (store : Store) (tables : Tables),
    store.disk.database = some tables.database ∧ tally sampleProvider tables.keys = ⟨1, 0, 1⟩ := by
  obtain ⟨store, tables, generation, grown, ready, keys⟩ := sample_grown
  have decrypted : decryptRow sampleSite.crypto sampleSite.kek sampleRow =
      .ok (newMetadata sampleKey sampleProvider none [], sampleKey.material.bytes) :=
    decrypt_row_of transparent_authentic
      ⟨validated_custom_attributes_sound (show validatedCustomAttributes [] = .ok [] from rfl),
        sampleKey.material.length, rfl⟩
  have validated : [sampleProvider].mapM (fun providerId => validatedUuid providerId "provider_id") =
      .ok [sampleProvider] := by
    rw [List.mapM_cons]
    exact bind_ok_iff.mpr ⟨sampleProvider, validated_uuid_text _ _, rfl⟩
  have counted : countKeys sampleSite.crypto sampleSite.kek [sampleProvider] tables =
      .ok [(sampleProvider, ⟨1, 0, 1⟩)] := by
    rw [countKeys, keys, List.foldlM_cons, countRow, decrypted]
    rfl
  have planned : (Operation.lifecycleCounts [sampleProvider]).plan sampleSite.crypto sampleSite.kek
      sampleKey tables = .ok ⟨.counts [(sampleProvider, ⟨1, 0, 1⟩)], none⟩ :=
    bind_ok_iff.mpr ⟨_, validated, bind_ok_iff.mpr ⟨_, counted, rfl⟩⟩
  have answered : (store.call sampleSite.crypto (.lifecycleCounts [sampleProvider]) sampleKey).1 =
      .ok (.counts [(sampleProvider, ⟨1, 0, 1⟩)]) := by
    rw [call_answers transparent_authentic transparent_collision_free ready, planned]
    rfl
  obtain ⟨found, providers, holds, -, counted⟩ := lifecycle_counts_exact transparent_authentic
    transparent_collision_free transparent_key_bound grown answered
  exact ⟨store, found, holds, ((counted sampleProvider).2 ⟨1, 0, 1⟩ rfl).1.symm⟩

end Atlaso.Kmip.KeyCounts
