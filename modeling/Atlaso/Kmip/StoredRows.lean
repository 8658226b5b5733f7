import Atlaso.Kmip.Instants
import Atlaso.Kmip.StoreHistories

/-!
What the rows of a key store hold in every run of the service: only the values that a creation
or an activation writes, with their instants as text.
-/

namespace Atlaso.Kmip.StoredRows

open Library Outcomes SortedTables Clock CommitProtocol Exceptions Instants StoreDocuments
open Identifiers StoreFiles StoreHistories StoreKeys StoreOpening StoreOperations

structure Written (row : WrappedRow) : Prop where
  algorithm : row.algorithm = "AES"
  keyLength : row.keyLength = 256
  state : row.state = "Pre-Active" ∨ row.state = "Active"
  created : ∃ reading, row.createdAt = isoformat reading
  activated : ∃ reading : Option Reading, row.activatedAt = reading.map isoformat

def RowsWritten (disk : Disk) : Prop :=
  ∀ tables : Tables, disk.database = some tables.database → ∀ row ∈ tables.keys, Written row

/-- The store is at the end of a run from an opening whose rows the service wrote: of a new
store, or of one that an earlier run has left. -/
def Grown (crypto : Crypto) (secretsKey : String) (store : Store) : Prop :=
  ∃ initial opened, Opens crypto secretsKey initial opened ∧ RowsWritten opened.disk ∧
    StoreRun crypto secretsKey opened store

variable {crypto : Crypto} {store : Store} {generation : Nat} {secretsKey : String}

theorem plan_written {kek : Bytes} {draws : Draws} {tables later : Tables} {operation : Operation}
    {answer : Answer} (written : ∀ row ∈ tables.keys, Written row)
    (planned : operation.plan crypto kek draws tables = .ok ⟨answer, some later⟩) :
    ∀ row ∈ later.keys, Written row := by
  cases operation with
  | create providerId name customAttributes =>
    simp only [Operation.plan, createPlan, bind_ok_iff] at planned
    obtain ⟨provider, -, attributes, -, _, -, inserted, insertion, result⟩ := planned
    cases result
    obtain ⟨-, -, -, keys⟩ := insert_key_ok insertion
    intro row inside
    rw [keys] at inside
    rcases mem_insert_row.mp inside with rfl | earlier
    · exact ⟨rfl, rfl, .inl rfl, ⟨draws.now, rfl⟩, ⟨none, rfl⟩⟩
    · exact written row earlier
  | activate providerId keyId =>
    simp only [Operation.plan, bind_ok_iff] at planned
    obtain ⟨⟨metadata, material⟩, -, activation⟩ := planned
    simp only [activationPlan] at activation
    split_ifs at activation
    · cases activation
    · cases activation
      intro row inside
      obtain ⟨before, member, rfl⟩ := List.mem_map.mp inside
      have kept := written before member
      split
      · exact ⟨kept.algorithm, kept.keyLength, .inr rfl, kept.created, ⟨some draws.now, rfl⟩⟩
      · exact kept
  | getKey providerId keyId =>
    obtain ⟨_, -, result⟩ := bind_ok_iff.mp planned
    cases result
  | getMetadata providerId keyId =>
    obtain ⟨_, -, result⟩ := bind_ok_iff.mp planned
    cases result
  | locate providerId state name limit =>
    simp only [Operation.plan, bind_ok_iff] at planned
    obtain ⟨_, -, _, -, _, -, _, -, result⟩ := planned
    cases result
  | lifecycleCounts providerIds =>
    simp only [Operation.plan, bind_ok_iff] at planned
    obtain ⟨_, -, _, -, result⟩ := planned
    cases result

variable {site : Installation}

theorem step_written (authentic : site.crypto.Authentic) (hash : site.crypto.CollisionFree)
    (bound : site.crypto.KeyBound) (keyed : site.Unlocks ∨ site.created) {next : Store}
    {tables : Tables} (ready : Ready site store.session store.disk tables generation)
    (written : ∀ row ∈ tables.keys, Written row)
    (step : StoreStep site.crypto site.secretsKey store next) : ∃ later number,
      Ready site next.session next.disk later number ∧ ∀ row ∈ later.keys, Written row := by
  cases step with
  | call operation draws =>
    obtain ⟨later, number, readyLater, ⟨rfl, -⟩ | ⟨answer, planned⟩⟩ :=
      call_ready authentic hash ready operation draws
    · exact ⟨later, number, readyLater, written⟩
    · exact ⟨later, number, readyLater, plan_written written planned⟩
  | reopen opens =>
    exact ⟨tables, generation, reopen_ready authentic hash bound keyed ready opens, written⟩

theorem run_written (authentic : site.crypto.Authentic) (hash : site.crypto.CollisionFree)
    (bound : site.crypto.KeyBound) (keyed : site.Unlocks ∨ site.created) {last : Store}
    {tables : Tables} (ready : Ready site store.session store.disk tables generation)
    (written : ∀ row ∈ tables.keys, Written row)
    (run : StoreRun site.crypto site.secretsKey store last) : ∃ later number,
      Ready site last.session last.disk later number ∧ ∀ row ∈ later.keys, Written row := by
  induction run with
  | refl => exact ⟨tables, generation, ready, written⟩
  | tail _ step induction =>
    obtain ⟨middle, number, readyMiddle, writtenMiddle⟩ := induction
    exact step_written authentic hash bound keyed readyMiddle writtenMiddle step

theorem grown_ready (authentic : crypto.Authentic) (hash : crypto.CollisionFree)
    (bound : crypto.KeyBound) (grown : Grown crypto secretsKey store) : ∃ site tables generation,
      site.crypto = crypto ∧ Ready site store.session store.disk tables generation ∧
        ∀ row ∈ tables.keys, Written row := by
  obtain ⟨initial, opened, opens, written, run⟩ := grown
  obtain ⟨site, start, rfl, rfl, keyed, ready⟩ := opens_ready authentic hash opens
  obtain ⟨envelope, recoverable⟩ := ready.recoverable
  obtain ⟨tables, generation, readyLater, writtenLater⟩ := run_written authentic hash bound keyed
    ready (written start recoverable.database) run
  exact ⟨site, tables, generation, rfl, readyLater, writtenLater⟩

/-! ### A store with one key -/

def sampleRow : WrappedRow :=
  wrappedRow sampleSite.crypto sampleSite.kek sampleKey
    (newMetadata sampleKey sampleProvider none [])

/-- A store that was opened without keys, after the creation of one. -/
theorem sample_grown : ∃ store tables generation, Grown sampleSite.crypto "secret" store ∧
    Ready sampleSite store.session store.disk tables generation ∧ tables.keys = [sampleRow] := by
  let opened : Store := ⟨sampleSession, sampleDisk⟩
  have opens : Opens sampleSite.crypto "secret" sampleDisk opened := ⟨sampleOpenDraws, sample_opens⟩
  have before : Ready sampleSite opened.session opened.disk Tables.initialised 0 := sample_ready
  have empty : RowsWritten sampleDisk := by
    intro tables holds row inside
    rw [← tables_database_injective (Option.some.inj holds)] at inside
    cases inside
  obtain ⟨inserted, insertion⟩ : ∃ inserted, Tables.initialised.insertKey sampleRow =
      .ok inserted := ⟨_, rfl⟩
  have planned : (Operation.create sampleProvider none []).plan sampleSite.crypto sampleSite.kek
      sampleKey Tables.initialised =
        .ok ⟨.metadata (newMetadata sampleKey sampleProvider none []), some inserted⟩ :=
    bind_ok_iff.mpr ⟨sampleProvider, validated_uuid_text _ _, bind_ok_iff.mpr ⟨[], rfl,
      bind_ok_iff.mpr ⟨(), rfl, bind_ok_iff.mpr ⟨inserted, insertion, rfl⟩⟩⟩⟩
  obtain ⟨tables, generation, ready, ⟨-, impossible⟩ | ⟨answer, plan⟩⟩ :=
    call_ready transparent_authentic transparent_collision_free before
      (.create sampleProvider none []) sampleKey
  · exact absurd planned (impossible _ _)
  · have same : inserted = tables :=
      Option.some.inj (congrArg Plan.mutation (Except.ok.inj (planned.symm.trans plan)))
    obtain ⟨-, -, -, keys⟩ := insert_key_ok insertion
    rw [same] at keys
    exact ⟨_, tables, generation, ⟨_, _, opens, empty, .single (.call _ _ _)⟩, ready, keys⟩

end Atlaso.Kmip.StoredRows
