import Atlaso.Kmip.CommitProtocol

/-!
An open store over a whole run of operations and openings, without faults: it is
consistent at every point, and no step loses or alters a key.
-/

namespace Atlaso.Kmip.StoreHistories

open CommitProtocol Exceptions StoreDocuments StoreFiles StoreKeys StoreOpening StoreOperations
open StoreRuns Library.Outcomes

/-- An open store: its attributes and the files. -/
structure Store where
  session : Session
  disk : Disk

def Store.call (crypto : Crypto) (store : Store) (operation : Operation) (draws : Draws) :
    Except Raised Answer × Store :=
  let ended := runStore (operation.perform crypto draws) store.session store.disk
  (ended.1, ⟨ended.2.1, ended.2.2⟩)

/-- The constructor, on the files of `disk`, yields the store. -/
def Opens (crypto : Crypto) (secretsKey : String) (disk : Disk) (store : Store) : Prop :=
  ∃ draws, runFiles (openStore crypto secretsKey false draws) disk =
    (.ok store.session, store.disk)

inductive StoreStep (crypto : Crypto) (secretsKey : String) : Store → Store → Prop
  | call (store : Store) (operation : Operation) (draws : Draws) :
      StoreStep crypto secretsKey store (store.call crypto operation draws).2
  | reopen {store next : Store} (opens : Opens crypto secretsKey store.disk next) :
      StoreStep crypto secretsKey store next

abbrev StoreRun (crypto : Crypto) (secretsKey : String) : Store → Store → Prop :=
  Relation.ReflTransGen (StoreStep crypto secretsKey)

/-! ### Openings -/

variable {disk : Disk} {store next : Store} {generation : Nat}

variable {crypto : Crypto} {secretsKey : String}

theorem create_ready (authentic : crypto.Authentic) (hash : crypto.CollisionFree)
    (kek : disk.kek = none) (opens : Opens crypto secretsKey disk store) :
    ∃ site tables, site.crypto = crypto ∧ site.secretsKey = secretsKey ∧ site.created ∧
      tables.keys = [] ∧
        Ready site store.session store.disk tables store.session.envelope.generation := by
  obtain ⟨draws, ran⟩ := opens
  have database : disk.database = none := by
    by_contra present
    have apart : disk.database.isSome ≠ disk.kek.isSome := by
      rw [kek, Option.isSome_iff_ne_none.mpr present]
      decide
    rw [run_open_apart crypto secretsKey draws disk apart] at ran
    cases ran
  rw [run_open_fresh crypto secretsKey draws disk kek database] at ran
  cases masters : masterKey crypto secretsKey with
  | error raised =>
    rw [masters] at ran
    cases ran
  | ok master =>
    simp only [masters, ok_bind] at ran
    cases custody : custodyMaster crypto master disk.custody with
    | error raised =>
      rw [custody] at ran
      cases ran
    | ok used =>
      simp only [custody, ok_bind, pure_is_ok] at ran
      let site : Installation :=
        ⟨crypto, secretsKey, disk.custody, master, draws.kek.bytes, true⟩
      have valid : (settledEnvelope draws.kek.bytes 0 "").Valid :=
        settled_envelope_valid draws.kek.length 0 ""
      have loaded : Loaded site
          ⟨master, draws.kek.bytes, settledEnvelope draws.kek.bytes 0 "", false⟩
          (createdDisk crypto master draws disk) Tables.empty :=
        ⟨rfl, rfl, rfl, rfl, rfl,
          ⟨_, rfl, read_envelope_written authentic master draws.createNonce _ valid⟩,
          fun _ => ⟨_, rfl⟩, rfl⟩
      obtain ⟨tables, inserted, versioned, ready⟩ :=
        initialize_ready authentic hash loaded ran
      have initialised : tables = Tables.initialised :=
        congrArg Prod.fst (Except.ok.inj versioned).symm
      exact ⟨site, tables, rfl, rfl, rfl, by rw [initialised]; rfl, ready⟩

theorem opens_ready (authentic : crypto.Authentic) (hash : crypto.CollisionFree)
    (opens : Opens crypto secretsKey disk store) :
    ∃ site tables, site.crypto = crypto ∧ site.secretsKey = secretsKey ∧
      (site.Unlocks ∨ site.created) ∧
        Ready site store.session store.disk tables store.session.envelope.generation := by
  cases kek : disk.kek with
  | none =>
    obtain ⟨site, tables, sameCrypto, sameKey, created, -, ready⟩ :=
      create_ready authentic hash kek opens
    exact ⟨site, tables, sameCrypto, sameKey, .inr created, ready⟩
  | some text =>
    obtain ⟨draws, ran⟩ := opens
    obtain ⟨site, tables, sameCrypto, sameKey, unlocks, ready⟩ :=
      open_ready authentic hash (by rw [kek]; rfl) ran
    exact ⟨site, tables, sameCrypto, sameKey, .inl unlocks, ready⟩

/-! ### Steps -/

variable {site : Installation}

theorem call_answers (authentic : site.crypto.Authentic) (hash : site.crypto.CollisionFree)
    {tables : Tables} (ready : Ready site store.session store.disk tables generation)
    (operation : Operation) (draws : Draws) : (store.call site.crypto operation draws).1 =
      (operation.plan site.crypto site.kek draws tables).map Plan.answer :=
  ready_answers authentic hash ready operation draws

/-- What a call leaves: the rows as they were, or the ones it planned. -/
theorem call_ready (authentic : site.crypto.Authentic) (hash : site.crypto.CollisionFree)
    {tables : Tables} (ready : Ready site store.session store.disk tables generation)
    (operation : Operation) (draws : Draws) : ∃ later number,
      Ready site (store.call site.crypto operation draws).2.session
        (store.call site.crypto operation draws).2.disk later number ∧
          ((later = tables ∧ ∀ answer mutated,
              operation.plan site.crypto site.kek draws tables ≠ .ok ⟨answer, some mutated⟩) ∨
            ∃ answer,
              operation.plan site.crypto site.kek draws tables = .ok ⟨answer, some later⟩) := by
  obtain ⟨after, disk, ended⟩ := run_perform authentic hash operation draws ready
  simp only [Store.call]
  cases planned : operation.plan site.crypto site.kek draws tables with
  | error raised =>
    rw [planned] at ended
    rw [ended.1]
    exact ⟨tables, generation, ended.2, .inl ⟨rfl, by simp⟩⟩
  | ok plan =>
    rw [planned] at ended
    obtain ⟨answer, _ | mutated⟩ := plan
    · rw [ended.1]
      exact ⟨tables, generation, ended.2, .inl ⟨rfl, by simp⟩⟩
    · rw [ended.1]
      exact ⟨mutated, generation + 1, ended.2, .inr ⟨answer, rfl⟩⟩

theorem created_unlocks (bound : site.crypto.KeyBound) {envelope : KekEnvelope} {tables : Tables}
    (recoverable : Recoverable site disk envelope tables generation) (created : site.created)
    (opens : Opens site.crypto site.secretsKey disk next) : site.Unlocks := by
  obtain ⟨draws, ran⟩ := opens
  obtain ⟨nonce, file⟩ := recoverable.written created
  rw [run_open_existing _ _ draws disk _ tables.database file recoverable.database] at ran
  cases loading : loadedKek site.crypto site.secretsKey disk.custody
      (envelopeText site.crypto site.master nonce envelope) with
  | error raised =>
    rw [loading] at ran
    cases ran
  | ok loaded =>
    obtain ⟨secretsMaster, secrets, custodyStep⟩ := bind_ok_iff.mp loading
    obtain ⟨master, custody, readStep⟩ := bind_ok_iff.mp custodyStep
    obtain ⟨_, read, -⟩ := bind_ok_iff.mp readStep
    have same : master = site.master := by
      by_contra different
      rw [read_envelope_other_key bound different] at read
      cases read
    rw [same, recoverable.custody] at custody
    exact bind_ok_iff.mpr ⟨secretsMaster, secrets, custody⟩

section

variable {tables : Tables} (authentic : site.crypto.Authentic) (hash : site.crypto.CollisionFree)
  (bound : site.crypto.KeyBound) (keyed : site.Unlocks ∨ site.created)
  (ready : Ready site store.session store.disk tables generation)
include authentic hash bound keyed ready

theorem reopen_ready (opens : Opens site.crypto site.secretsKey store.disk next) :
    Ready site next.session next.disk tables generation := by
  obtain ⟨envelope, recoverable⟩ := ready.recoverable
  have unlocks : site.Unlocks := by
    rcases keyed with unlocks | created
    · exact unlocks
    · exact created_unlocks bound recoverable created opens
  obtain ⟨draws, ran⟩ := opens
  obtain ⟨reopened, again, settled⟩ :=
    open_recoverable authentic hash unlocks recoverable draws
  rw [again] at ran
  simp only [Prod.mk.injEq, Except.ok.injEq] at ran
  obtain ⟨session, disk⟩ := ran
  rw [← session, ← disk]
  refine ⟨⟨_, settled⟩, rfl, rfl, rfl, recoverable_valid settled, rfl, settled.initialised,
    settled.settles⟩

theorem step_kept (step : StoreStep site.crypto site.secretsKey store next) : ∃ later number,
      Ready site next.session next.disk later number ∧
        KeysKept site.crypto site.kek tables later := by
  cases step with
  | call operation draws =>
    obtain ⟨later, number, readyLater, ⟨rfl, -⟩ | ⟨answer, planned⟩⟩ :=
      call_ready authentic hash ready operation draws
    · exact ⟨later, number, readyLater, keys_kept_refl _ _ _⟩
    · exact ⟨later, number, readyLater, (plan_extends authentic planned).kept⟩
  | reopen opens =>
    exact ⟨tables, generation, reopen_ready authentic hash bound keyed ready opens,
      keys_kept_refl _ _ _⟩

theorem run_kept {last : Store} (run : StoreRun site.crypto site.secretsKey store last) :
    ∃ later number,
      Ready site last.session last.disk later number ∧
        KeysKept site.crypto site.kek tables later := by
  induction run with
  | refl => exact ⟨tables, generation, ready, keys_kept_refl _ _ _⟩
  | tail _ step induction =>
    obtain ⟨middle, number, readyMiddle, kept⟩ := induction
    obtain ⟨later, last, readyLater, keptLater⟩ :=
      step_kept authentic hash bound keyed readyMiddle step
    exact ⟨later, last, readyLater, keys_kept_trans kept keptLater⟩

end

end Atlaso.Kmip.StoreHistories
