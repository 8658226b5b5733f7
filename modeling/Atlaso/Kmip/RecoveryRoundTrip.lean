import Atlaso.Kmip.CommitProtocol
import Atlaso.Kmip.RecoveryDocuments
import Atlaso.Library.JsonSize

/-!
The recovery round trip: the archive of a settled store opens to the captured snapshot,
and the candidate that is built from it is the same store under another secrets key.

A settled store and its candidate hold one vault: the master key, the KEK, and the rows
with the generation that the envelope gives them. Only the custody file differs.
-/

namespace Atlaso.Kmip.RecoveryRoundTrip

open CommitProtocol Exceptions Identifiers Recovery RecoveryDocuments StoreDocuments StoreFiles
open StoreKeys StoreOpening StoreOperations StoreRuns Library Base64 ByteWords
open Dictionary JsonOrder JsonSize JsonText Numerals
open Outcomes SortedTables

/-- AES-GCM opens what it sealed and adds a tag of 16 bytes; SHA-256 gives 32 bytes. -/
structure Lawful (services : Services) : Prop where
  authentic : services.crypto.Authentic
  sealedLength : ∀ key nonce plaintext aad,
    (services.crypto.encrypt key nonce plaintext aad).length = plaintext.length + 16
  openedLength : ∀ {key nonce ciphertext aad plaintext : Bytes},
    services.crypto.decrypt key nonce ciphertext aad = some plaintext →
      plaintext.length + 16 = ciphertext.length
  digestLength : ∀ data, (services.crypto.sha256 data).length = 32

/-- A passphrase of 12 to 1,024 UTF-8 bytes. -/
def Admissible (passphrase : String) : Prop :=
  12 ≤ (utf8Encode passphrase).length ∧ (utf8Encode passphrase).length ≤ 1024

variable {services : Services}

/-! ### Archives -/

theorem magic_length : magic.length = 22 := by
  decide +kernel

theorem derive_admissible {passphrase : String} (admissible : Admissible passphrase)
    (salt : Bytes) :
    derive services passphrase salt = .ok (services.scrypt (utf8Encode passphrase) salt) := by
  rw [derive, if_neg]
  obtain ⟨least, most⟩ := admissible
  omega

theorem decrypt_encrypt (lawful : Lawful services) {snapshot : Json} (plain : Plain snapshot)
    (readable : readSnapshot services (sortKeys snapshot) = .ok (sortKeys snapshot))
    (fits : (utf8Encode (dumps snapshot)).length ≤ maxArchiveBytes - 128) {passphrase : String}
    (admissible : Admissible passphrase) (draws : ArchiveDraws) :
    ∃ archive, encrypt services draws snapshot passphrase = .ok archive ∧
      decrypt services archive passphrase = .ok (sortKeys snapshot) := by
  have derived := @derive_admissible services passphrase admissible draws.salt
  generalize services.scrypt (utf8Encode passphrase) draws.salt = key at derived
  obtain ⟨ciphertext, encrypted⟩ : ∃ ciphertext, services.crypto.encrypt key draws.nonce
    (utf8Encode (dumps snapshot)) archiveAad = ciphertext := ⟨_, rfl⟩
  have sealedSize := lawful.sealedLength key draws.nonce (utf8Encode (dumps snapshot)) archiveAad
  have opened := lawful.authentic.decrypt_encrypt key draws.nonce (utf8Encode (dumps snapshot))
    archiveAad
  rw [encrypted] at sealedSize opened
  have archived : encrypt services draws snapshot passphrase =
      .ok (magic ++ (draws.salt ++ (draws.nonce ++ ciphertext))) := by
    have within : ¬maxArchiveBytes - 128 < (utf8Encode (dumps snapshot)).length :=
      Nat.not_lt.mpr fits
    unfold encrypt
    rw [if_neg within, derived, ok_bind, encrypted]
  refine ⟨_, archived, ?_⟩
  · have size : (magic ++ (draws.salt ++ (draws.nonce ++ ciphertext))).length =
        66 + (utf8Encode (dumps snapshot)).length := by
      simp only [List.length_append, magic_length, draws.saltLength, draws.nonceLength, sealedSize]
      omega
    have salt : (draws.salt ++ (draws.nonce ++ ciphertext)).take 16 = draws.salt :=
      List.take_left' draws.saltLength
    have rest : (draws.salt ++ (draws.nonce ++ ciphertext)).drop 16 = draws.nonce ++ ciphertext :=
      List.drop_left' draws.saltLength
    have nonce : ((draws.salt ++ (draws.nonce ++ ciphertext)).drop 16).take 12 = draws.nonce := by
      rw [rest]
      exact List.take_left' draws.nonceLength
    have last : (draws.salt ++ (draws.nonce ++ ciphertext)).drop 28 = ciphertext := by
      rw [show 28 = 16 + 12 from rfl, ← List.drop_drop, rest]
      exact List.drop_left' draws.nonceLength
    have within : ¬(66 + (utf8Encode (dumps snapshot)).length < 22 + 44 ∨
        maxArchiveBytes < 66 + (utf8Encode (dumps snapshot)).length) := by
      have bound : maxArchiveBytes = 33554432 := rfl
      omega
    rw [decrypt]
    simp only [size, magic_length, if_neg within]
    rw [if_neg]
    · rw [← magic_length, List.drop_left, salt, derived, nonce, last]
      simp only [orRaise, opened, ok_bind, utf8_decode_encode, Option.bind_some,
        loads_dumps_plain plain, readable]
    · rw [← magic_length, List.take_left]
      simp

/-! ### Settled stores -/

/-- What a settled store holds. -/
structure Vault where
  (master kek : Bytes)
  generation : Nat
  tables : Tables

def Vault.envelope (crypto : Crypto) (vault : Vault) : KekEnvelope :=
  settledEnvelope vault.kek vault.generation (storeCommitment crypto vault.tables)

/-- The attributes of the store that opens the vault. -/
def Vault.session (crypto : Crypto) (vault : Vault) (readOnly : Bool) : Session :=
  ⟨vault.master, vault.kek, vault.envelope crypto, readOnly⟩

/-- The files of a store that no mutation is under way in. The secrets key gives the master
key, the KEK file is one that the store wrote with a nonce of 12 bytes and a generation
that Python reads back (its conversion stops at 4,300 digits), and every row satisfies the
schema and authenticates. -/
structure Settled (services : Services) (secretsKey : String) (disk : Disk) (vault : Vault) :
    Prop where
  unlocks : (masterKey services.crypto secretsKey >>= fun secretsMaster =>
    custodyMaster services.crypto secretsMaster disk.custody) = .ok vault.master
  journal : disk.journal = false
  file : ∃ nonce : Nonce, disk.kek = some (envelopeText services.crypto vault.master nonce.bytes
    (vault.envelope services.crypto))
  kek : vault.kek.length = 32
  generation : vault.generation < 10 ^ 4300
  database : disk.database = some vault.tables.database
  version : schemaVersion vault.tables = some (toString storeSchemaVersion)
  checks : ∀ row ∈ vault.tables.keys, satisfiesChecks row = true
  opens : ∀ row ∈ vault.tables.keys, ∃ opened, decryptRow services.crypto vault.kek row = .ok opened

section Settled

variable {secretsKey : String} {disk : Disk} {vault : Vault}

theorem master_key_length (lawful : Lawful services) {master : Bytes}
    (derived : masterKey services.crypto secretsKey = .ok master) : master.length = 32 := by
  unfold masterKey at derived
  split_ifs at derived
  cases derived
  exact lawful.digestLength _

theorem settled_master_length (lawful : Lawful services)
    (settled : Settled services secretsKey disk vault) : vault.master.length = 32 := by
  obtain ⟨secretsMaster, derived, custody⟩ := bind_ok_iff.mp settled.unlocks
  cases held : disk.custody with
  | none =>
    rw [held, custodyMaster] at custody
    cases custody
    exact master_key_length lawful derived
  | some sealedBytes =>
    rw [held, custodyMaster] at custody
    split_ifs at custody with size
    have opened := lawful.openedLength (or_raise_ok custody)
    rw [List.length_drop] at opened
    omega

theorem commitment_ne_empty (lawful : Lawful services) (tables : Tables) :
    storeCommitment services.crypto tables ≠ "" := by
  refine hexdigest_ne_empty ?_
  intro empty
  have size := lawful.digestLength (utf8Encode (dumps (commitmentDocument tables)))
  rw [empty] at size
  cases size

theorem vault_envelope_valid (settled : Settled services secretsKey disk vault) :
    (vault.envelope services.crypto).Valid :=
  ⟨settled.kek, rfl⟩

theorem settled_loads (lawful : Lawful services)
    (settled : Settled services secretsKey disk vault) :
    ∃ text, disk.kek = some text ∧ loadedKek services.crypto secretsKey disk.custody text =
      .ok (vault.master, vault.envelope services.crypto) := by
  obtain ⟨nonce, file⟩ := settled.file
  obtain ⟨secretsMaster, derived, custody⟩ := bind_ok_iff.mp settled.unlocks
  refine ⟨_, file, ?_⟩
  simp only [loadedKek, derived, custody, ok_bind, pure_is_ok,
    read_envelope_written lawful.authentic vault.master nonce.bytes _
      (vault_envelope_valid settled)]

/-- The verification at the start of every operation has nothing to do. -/
theorem vault_accepts (lawful : Lawful services) (vault : Vault) (readOnly : Bool) :
    settlement (vault.session services.crypto readOnly)
      (storeCommitment services.crypto vault.tables) = .accept := by
  have initialised := commitment_ne_empty lawful vault.tables
  cases readOnly <;>
    simp [settlement, Vault.session, Vault.envelope, settledEnvelope, initialised]

theorem vault_verifies (lawful : Lawful services) (settled : Settled services secretsKey disk vault)
    (readOnly : Bool) (draws : Draws) :
    runStore (verifyStore services.crypto draws) (vault.session services.crypto readOnly) disk =
      (.ok (), vault.session services.crypto readOnly, disk) := by
  rw [verifyStore, run_store_ok (run_read_tables settled.database _), run_verify_store_commitment,
    vault_accepts lawful]

theorem vault_version (settled : Settled services secretsKey disk vault) (readOnly : Bool) :
    withSchemaVersion readOnly vault.tables = .ok (vault.tables, false) := by
  rw [withSchemaVersion, settled.version]
  exact if_pos rfl

theorem settled_opens_read_only (lawful : Lawful services)
    (settled : Settled services secretsKey disk vault) (draws : OpenDraws) :
    runFiles (openStore services.crypto secretsKey true draws) disk =
      (.ok (vault.session services.crypto true), disk) := by
  obtain ⟨text, file, loaded⟩ := settled_loads lawful settled
  obtain ⟨secretsMaster, derived, custodyStep⟩ := bind_ok_iff.mp loaded
  obtain ⟨master, custody, readStep⟩ := bind_ok_iff.mp custodyStep
  obtain ⟨envelope, read, same⟩ := bind_ok_iff.mp readStep
  cases same
  have journal : journalSettled true disk = .ok () := by simp [journalSettled, settled.journal]
  have together : existTogether disk = .ok () := by simp [existTogether, file, settled.database]
  have load : runFiles (loadOrCreateKek services.crypto secretsKey true draws) disk =
      (.ok (vault.master, vault.envelope services.crypto), disk) := by
    rw [loadOrCreateKek, run_files_ok (run_files_lift _ disk |>.trans (by rw [derived])),
      run_files_ok (run_inspect _ disk |>.trans (by rw [custody])),
      run_files_ok (run_inspect _ disk |>.trans (by rw [file]))]
    simp only []
    rw [run_files_ok (run_files_lift _ disk |>.trans (by rw [read]))]
    rfl
  have rows : runStore (initializeRows services.crypto draws) (vault.session services.crypto true)
      disk = (.ok (), vault.session services.crypto true, disk) := by
    rw [initializeRows, run_store_ok (run_store_session _ disk),
      run_store_ok (run_read_tables settled.database _)]
    simp only [Vault.session, vault_version settled]
    rw [run_store_ok (run_store_lift _ _ disk)]
    have verified := run_verify_store_commitment services.crypto draws.settleNonce vault.tables
      (vault.session services.crypto true) disk
    rw [vault_accepts lawful] at verified
    simp only [Vault.session] at verified
    rw [run_store_ok verified]
    rfl
  unfold openStore
  rw [run_files_ok (run_inspect _ disk |>.trans (by rw [journal])),
    run_files_ok (run_inspect _ disk |>.trans (by rw [together])),
    run_files_ok (show runFiles (unlessReadOnly true _) disk = (.ok (), disk) from rfl),
    run_files_ok load]
  simp only [initializeStore]
  rw [run_files_ok (show runFiles (unlessReadOnly true _) disk = (.ok (), disk) from rfl),
    run_in_session]
  have started : (⟨vault.master, (vault.envelope services.crypto).kek,
      vault.envelope services.crypto, true⟩ : Session) = vault.session services.crypto true := rfl
  rw [started, rows]
  rfl

theorem settled_opens_writable (lawful : Lawful services)
    (settled : Settled services secretsKey disk vault) (draws : OpenDraws) :
    runFiles (openStore services.crypto secretsKey false draws) disk =
      (.ok (vault.session services.crypto false), makeDatabaseDirectory disk) := by
  obtain ⟨text, file, loaded⟩ := settled_loads lawful settled
  have written : (makeDatabaseDirectory disk).writeTables vault.tables =
      makeDatabaseDirectory disk := by
    simp [Disk.writeTables, makeDatabaseDirectory, settled.database]
  have accepts := vault_accepts lawful vault false
  rw [run_open_existing _ _ draws disk text vault.tables.database file settled.database, loaded]
  simp only [filled_tables_database, written, initializeOutcome, vault_version settled]
  have started : (⟨vault.master, (vault.envelope services.crypto).kek,
      vault.envelope services.crypto, false⟩ : Session) = vault.session services.crypto false := rfl
  rw [started, accepts]
  rfl

theorem settled_directory (settled : Settled services secretsKey disk vault) :
    Settled services secretsKey (makeDatabaseDirectory disk) vault :=
  ⟨settled.unlocks, settled.journal, settled.file, settled.kek, settled.generation,
    settled.database, settled.version, settled.checks, settled.opens⟩

theorem settled_opens (lawful : Lawful services) (settled : Settled services secretsKey disk vault)
    (readOnly : Bool) (draws : OpenDraws) :
    ∃ after, runFiles (openStore services.crypto secretsKey readOnly draws) disk =
        (.ok (vault.session services.crypto readOnly), after) ∧
      Settled services secretsKey after vault ∧ after.kek = disk.kek := by
  cases readOnly with
  | true => exact ⟨disk, settled_opens_read_only lawful settled draws, settled, rfl⟩
  | false =>
    exact ⟨_, settled_opens_writable lawful settled draws, settled_directory settled, rfl⟩

theorem settled_get_key (lawful : Lawful services)
    (settled : Settled services secretsKey disk vault) (readOnly : Bool) (draws : Draws)
    (providerId keyId : String) :
    (runStore (getKey services.crypto draws providerId keyId)
      (vault.session services.crypto readOnly) disk).1 =
        readPlan services.crypto vault.kek vault.tables providerId keyId := by
  rw [getKey, run_store_ok (vault_verifies lawful settled readOnly draws),
    run_store_ok (run_read_tables settled.database _), run_store_bind, run_store_lift, readPlan]
  cases findKeyRow vault.tables providerId keyId with
  | error raised => rfl
  | ok row => rfl

end Settled

/-! ### The size of the KEK file -/

theorem hex_digit_unescaped {digit : Nat} (small : digit < 16) :
    escapeChar (Nat.digitChar digit) = [Nat.digitChar digit] := by
  have each : ∀ digit < 16, escapeChar (Nat.digitChar digit) = [Nat.digitChar digit] := by decide
  exact each digit small

theorem hexdigest_unescaped (digest : Bytes) : Unescaped (hexdigest digest).toList := by
  intro c inside
  rw [hexdigest, String.toList_ofList] at inside
  obtain ⟨byte, -, digit⟩ := List.mem_flatMap.mp inside
  simp only [fixedDigits, List.nil_append, List.cons_append, List.mem_cons, List.not_mem_nil,
    or_false] at digit
  rcases digit with rfl | rfl
  · exact hex_digit_unescaped (Nat.mod_lt _ (by decide))
  · exact hex_digit_unescaped (Nat.mod_lt _ (by decide))

theorem hexdigest_length (digest : Bytes) : (hexdigest digest).toList.length = 2 * digest.length := by
  rw [hexdigest, String.toList_ofList]
  induction digest with
  | nil => rfl
  | cons byte digest induction =>
    rw [List.flatMap_cons, List.length_append, induction, fixed_digits_length, List.length_cons]
    omega

theorem payload_plain (envelope : KekEnvelope) : Plain (envelopePlaintext envelope) := by
  obtain ⟨kek, generation, commitment, pendingGeneration, pendingCommitment⟩ := envelope
  refine .object ?_ ?_
  · change ["kek", "generation", "commitment", "pending_generation", "pending_commitment"].Nodup
    decide
  · simp only [List.forall_mem_cons, List.not_mem_nil, false_implies, implies_true, and_true]
    refine ⟨.string _, .int _, .string _, ?_, ?_⟩
    · cases pendingGeneration with
      | none => exact .null
      | some number => exact .int _
    · cases pendingCommitment with
      | none => exact .null
      | some text => exact .string _

variable {kek : Bytes} {generation : Nat}

theorem payload_size (lawful : Lawful services) {tables : Tables} (kekLength : kek.length = 32)
    (small : generation < 10 ^ 4300) :
    (utf8Encode (dumps (envelopePlaintext (settledEnvelope kek generation
      (storeCommitment services.crypto tables))))).length ≤ 4530 := by
  have digits := render_int_length small (by decide)
  have kekText := quote_base64_length kek
  have commitment : (quote (storeCommitment services.crypto tables)).length = 66 := by
    rw [storeCommitment, quote_length (hexdigest_unescaped _), hexdigest_length,
      lawful.digestLength]
  rw [dumps_size (payload_plain _)]
  refine (render_object_length _).trans ?_
  simp only [settledEnvelope, optionalInt, optionalText, memberText, List.map_cons, List.map_nil,
    List.sum_cons, List.sum_nil, List.length_append, List.length_cons]
  have fields : (quote "kek").length = 5 ∧ (quote "generation").length = 12 ∧
      (quote "commitment").length = 12 ∧ (quote "pending_generation").length = 20 ∧
        (quote "pending_commitment").length = 20 := by decide
  have null : (render .null).length = 4 := rfl
  have kekField : (render (.string (b64encode kek))).length = (kek.length + 2) / 3 * 4 + 2 := kekText
  have commitmentField :
      (render (.string (storeCommitment services.crypto tables))).length = 66 := commitment
  omega

theorem envelope_text_size (lawful : Lawful services) {master : Bytes} (nonce : Nonce)
    {tables : Tables} (kekLength : kek.length = 32) (small : generation < 10 ^ 4300) :
    (utf8Encode (envelopeText services.crypto master nonce.bytes (settledEnvelope kek generation
      (storeCommitment services.crypto tables)))).length ≤ 8192 := by
  have payload := @payload_size services kek generation lawful tables kekLength small
  rw [envelopeText]
  generalize utf8Encode (dumps (envelopePlaintext (settledEnvelope kek generation
    (storeCommitment services.crypto tables)))) = plaintext at payload ⊢
  have sealedSize := lawful.sealedLength master nonce.bytes plaintext kekAad
  generalize services.crypto.encrypt master nonce.bytes plaintext kekAad = ciphertext at sealedSize ⊢
  have plain : Plain (.object [("format", .string kekEnvelopeFormat),
      ("nonce", .string (b64encode nonce.bytes)), ("ciphertext", .string (b64encode ciphertext))]) := by
    refine .object ?_ ?_
    · change ["format", "nonce", "ciphertext"].Nodup
      decide
    · simp only [List.forall_mem_cons, List.not_mem_nil, false_implies, implies_true, and_true]
      exact ⟨.string _, .string _, .string _⟩
  have size := render_object_length [("format", .string kekEnvelopeFormat),
    ("nonce", .string (b64encode nonce.bytes)), ("ciphertext", .string (b64encode ciphertext))]
  have newline : (utf8Encode "\n").length = 1 := by decide
  have fields : (quote "format").length = 8 ∧ (quote "nonce").length = 7 ∧
      (quote "ciphertext").length = 12 := by decide
  have format : (render (.string kekEnvelopeFormat)).length = 20 := by decide
  have nonceField : (render (.string (b64encode nonce.bytes))).length = _ :=
    quote_base64_length nonce.bytes
  have ciphertextField : (render (.string (b64encode ciphertext))).length = _ :=
    quote_base64_length ciphertext
  rw [nonce.length] at nonceField
  simp only [memberText, List.map_cons, List.map_nil, List.sum_cons, List.sum_nil,
    List.length_append, List.length_cons] at size
  rw [utf8_encode_append, List.length_append, dumps_size plain, newline]
  omega

/-! ### Snapshots of a settled store -/

def Vault.snapshot (vault : Vault) (kek : String) (trust : Json) : Json :=
  snapshotDocument (vault.tables.keys.map rowDocument)
    (vault.tables.metadata.map fun row => .array [.string row.1, .string row.2]) kek vault.master
    trust

section Snapshot

variable {secretsKey : String} {disk : Disk} {vault : Vault} {trust : Json} {rows : Trust}
  {text : String}

theorem captured_rows {keys : List WrappedRow}
    (covered : ∀ row ∈ keys, row.providerId ∈ rows.providers.map ProviderRow.id) :
    keys.mapM (capturedRow rows) = .ok (keys.map rowDocument) := by
  induction keys with
  | nil => rfl
  | cons row keys induction =>
    have first : capturedRow rows row = .ok (rowDocument row) :=
      if_pos (covered row List.mem_cons_self)
    have rest := induction fun other inside => covered other (List.mem_cons_of_mem _ inside)
    rw [List.mapM_cons, first, rest]
    rfl

theorem settled_capture (lawful : Lawful services)
    (settled : Settled services secretsKey disk vault) (file : disk.kek = some text)
    (valid : validateTrust services trust = .ok rows)
    (covered : ∀ row ∈ vault.tables.keys, row.providerId ∈ rows.providers.map ProviderRow.id)
    (readOnly : Bool) (draws : Draws) :
    runStore (capture services draws trust) (vault.session services.crypto readOnly) disk =
      (.ok (vault.snapshot text trust), vault.session services.crypto readOnly, disk) := by
  have read : runStore readKek (vault.session services.crypto readOnly) disk =
      (.ok text, vault.session services.crypto readOnly, disk) := by
    simp [runStore, readKek, Atlaso.Library.FilePrograms.Program.run, file, orRaise]
  rw [capture, run_store_ok (run_store_lift _ _ disk |>.trans (by rw [valid])),
    run_store_ok (vault_verifies lawful settled readOnly draws),
    run_store_ok (run_read_tables settled.database _),
    run_store_ok (run_store_lift _ _ disk |>.trans (by rw [captured_rows covered])),
    run_store_ok read, run_store_ok (run_store_session _ disk)]
  rfl

theorem vault_snapshot_plain (valid : validateTrust services trust = .ok rows) :
    Plain (vault.snapshot text trust) := by
  refine snapshot_plain ?_ ?_ (validated_plain valid)
  · intro row inside
    obtain ⟨source, -, rfl⟩ := List.mem_map.mp inside
    exact row_document_plain source
  · intro row inside
    obtain ⟨source, -, rfl⟩ := List.mem_map.mp inside
    refine .array ?_
    simp only [List.forall_mem_cons, List.not_mem_nil, false_implies, implies_true, and_true]
    exact ⟨.string _, .string _⟩

end Snapshot

/-! ### Candidates -/

theorem insert_metadata_rows {tables : Tables} {done rest : List (String × String)}
    (held : tables.metadata = done) (sorted : Sorted Prod.fst (done ++ rest)) :
    ∃ after, insertMetadataRows tables rest = .ok after ∧ after.metadata = done ++ rest ∧
      after.keys = tables.keys := by
  induction rest generalizing tables done with
  | nil => exact ⟨tables, rfl, by rw [held, List.append_nil], rfl⟩
  | cons row rest induction =>
    have last : ∀ other ∈ tables.metadata, other.1 < row.1 := by
      intro other inside
      rw [held] at inside
      exact (List.pairwise_append.mp sorted).2.2 other inside row List.mem_cons_self
    have absent : ∀ other ∈ tables.metadata, other.1 ≠ row.1 :=
      fun other inside => (last other inside).ne
    have inserted : tables.insertMetadata row.1 row.2 = .ok { tables with
        metadata := insertRow Prod.fst (row.1, row.2) tables.metadata
        metadataSorted := sorted_insert_row tables.metadataSorted absent } := dif_pos absent
    have grown : insertRow Prod.fst (row.1, row.2) tables.metadata = done ++ [row] := by
      rw [insert_row_last last, held]
    obtain ⟨after, folded, metadata, keys⟩ := @induction { tables with
        metadata := insertRow Prod.fst (row.1, row.2) tables.metadata
        metadataSorted := sorted_insert_row tables.metadataSorted absent }
      (done ++ [row]) grown (by simpa using sorted)
    refine ⟨after, ?_, by simpa using metadata, keys⟩
    rw [insertMetadataRows, List.foldlM_cons, inserted]
    exact folded

theorem insert_key_rows {tables : Tables} {done rest : List WrappedRow}
    (held : tables.keys = done) (sorted : Sorted WrappedRow.key (done ++ rest))
    (checks : ∀ row ∈ rest, satisfiesChecks row = true) :
    ∃ after, insertKeyRows tables rest = .ok after ∧ after.keys = done ++ rest ∧
      after.metadata = tables.metadata := by
  induction rest generalizing tables done with
  | nil => exact ⟨tables, rfl, by rw [held, List.append_nil], rfl⟩
  | cons row rest induction =>
    have last : ∀ other ∈ tables.keys, other.key < row.key := by
      intro other inside
      rw [held] at inside
      exact (List.pairwise_append.mp sorted).2.2 other inside row List.mem_cons_self
    have absent : ∀ other ∈ tables.keys, other.key ≠ row.key :=
      fun other inside => (last other inside).ne
    have inserted : tables.insertKey row = .ok { tables with
        keys := insertRow WrappedRow.key row tables.keys
        keysSorted := sorted_insert_row tables.keysSorted absent } := by
      rw [Tables.insertKey, if_neg (by simp [checks row List.mem_cons_self]), dif_pos absent]
    have grown : insertRow WrappedRow.key row tables.keys = done ++ [row] := by
      rw [insert_row_last last, held]
    obtain ⟨after, folded, keys, metadata⟩ := @induction { tables with
        keys := insertRow WrappedRow.key row tables.keys
        keysSorted := sorted_insert_row tables.keysSorted absent }
      (done ++ [row]) grown (by simpa using sorted)
      fun other inside => checks other (List.mem_cons_of_mem _ inside)
    refine ⟨after, ?_, by simpa using keys, metadata⟩
    rw [insertKeyRows, List.foldlM_cons, inserted]
    exact folded

theorem rebuilt_tables {tables : Tables}
    (checks : ∀ row ∈ tables.keys, satisfiesChecks row = true) :
    ∃ withMetadata, insertMetadataRows Tables.empty tables.metadata = .ok withMetadata ∧
      insertKeyRows withMetadata tables.keys = .ok tables := by
  obtain ⟨withMetadata, first, metadata, none⟩ :=
    @insert_metadata_rows Tables.empty [] tables.metadata rfl tables.metadataSorted
  obtain ⟨after, second, keys, same⟩ :=
    @insert_key_rows withMetadata [] tables.keys none tables.keysSorted checks
  refine ⟨withMetadata, first, ?_⟩
  rw [second]
  obtain ⟨afterMetadata, afterKeys, _, _⟩ := after
  obtain ⟨sourceMetadata, sourceKeys, _, _⟩ := tables
  simp only [List.nil_append] at keys metadata same
  rw [metadata] at same
  subst keys same
  rfl

section Candidate

variable {secretsKey targetKey : String} {disk : Disk} {vault : Vault} {trust : Json}
  {rows : Trust} {text : String}

theorem read_metadata_rows (metadata : List (String × String)) :
    (sortItems (metadata.map fun row => .array [.string row.1, .string row.2])).mapM
      readMetadataRow = some metadata := by
  induction metadata with
  | nil => rfl
  | cons row metadata induction =>
    rw [List.map_cons, sortItems, List.mapM_cons, induction]
    rfl

theorem read_key_rows {keys : List WrappedRow}
    (covered : ∀ row ∈ keys, row.providerId ∈ rows.providers.map ProviderRow.id) :
    (sortItems (keys.map rowDocument)).mapM (readKeyRow rows) = some keys := by
  induction keys with
  | nil => rfl
  | cons row keys induction =>
    have first : readKeyRow rows (sortKeys (rowDocument row)) = some row := by
      rw [read_key_row_sorted]
      exact read_key_row_document (covered row List.mem_cons_self)
    have rest := induction fun other inside => covered other (List.mem_cons_of_mem _ inside)
    rw [List.map_cons, sortItems, List.mapM_cons, first, rest]
    rfl

theorem read_parts_sorted (valid : validateTrust services trust = .ok rows)
    (master : vault.master.length = 32) (size : (utf8Encode text).length ≤ 8192)
    (covered : ∀ row ∈ vault.tables.keys, row.providerId ∈ rows.providers.map ProviderRow.id)
    (checks : ∀ row ∈ vault.tables.keys, satisfiesChecks row = true) :
    readParts services (sortKeys (vault.snapshot text trust)) =
      .ok ⟨rows, vault.master, text, vault.tables⟩ := by
  obtain ⟨withMetadata, first, second⟩ := rebuilt_tables checks
  have accepted : validateTrust services (sortKeys trust) = .ok rows := by
    rw [validate_trust_sorted, valid]
  let keys := vault.tables.keys.map rowDocument
  let metadata := vault.tables.metadata.map fun row => Json.array [.string row.1, .string row.2]
  have trustField := snapshot_field (show getItem "trust"
    (snapshotMembers keys metadata text vault.master trust) = some trust from rfl)
  have metadataField := snapshot_field (show getItem "metadata"
    (snapshotMembers keys metadata text vault.master trust) = some (.array metadata) from rfl)
  have keysField := snapshot_field (show getItem "keys"
    (snapshotMembers keys metadata text vault.master trust) = some (.array keys) from rfl)
  have masterField : bytesItem "master" (byKey (sortMembers
      (snapshotMembers keys metadata text vault.master trust))) = some vault.master := by
    rw [bytes_item_sorted snapshot_distinct]
    exact b64decode_b64encode _
  have kekField : bytesItem "kek" (byKey (sortMembers
      (snapshotMembers keys metadata text vault.master trust))) = some (utf8Encode text) := by
    rw [bytes_item_sorted snapshot_distinct]
    exact b64decode_b64encode _
  have within : ¬(vault.master.length ≠ 32 ∨ 8192 < (utf8Encode text).length) := by omega
  have object : objectMembers candidateInvalid (sortKeys (vault.snapshot text trust)) =
      .ok (byKey (sortMembers (snapshotMembers keys metadata text vault.master trust))) := rfl
  unfold readParts
  simp only [object, ok_bind, trustField, Option.getD_some, accepted, masterField, kekField,
    orRaise, if_neg within, utf8_decode_encode, arrayItem, metadataField, keysField, sortKeys,
    Option.bind_some, metadata, keys, read_metadata_rows, read_key_rows covered, first, second,
    Except.mapError]

variable {targetMaster : Bytes}

theorem sealed_master_opens (lawful : Lawful services) (nonce : Nonce)
    (master : vault.master.length = 32) :
    custodyMaster services.crypto targetMaster
      (some (sealedMaster services targetMaster nonce.bytes vault.master)) = .ok vault.master := by
  have size : (sealedMaster services targetMaster nonce.bytes vault.master).length = 60 := by
    rw [sealedMaster, List.length_append, nonce.length, lawful.sealedLength, master]
  rw [custodyMaster, if_neg (by simp [size]), sealedMaster, List.take_left' nonce.length,
    List.drop_left' nonce.length, lawful.authentic.decrypt_encrypt]
  rfl

theorem candidate_settled (lawful : Lawful services)
    (settled : Settled services secretsKey disk vault) (file : disk.kek = some text)
    (target : masterKey services.crypto targetKey = .ok targetMaster) (nonce : Nonce) :
    Settled services targetKey (candidateDisk services targetMaster nonce.bytes
      ⟨rows, vault.master, text, vault.tables⟩) vault := by
  obtain ⟨fileNonce, written⟩ := settled.file
  rw [file] at written
  refine ⟨?_, rfl, ⟨fileNonce, written⟩, settled.kek, settled.generation, rfl, settled.version,
    settled.checks, settled.opens⟩
  exact bind_ok_iff.mpr ⟨targetMaster, target,
    sealed_master_opens lawful nonce (settled_master_length lawful settled)⟩

theorem provider_ids_valid (valid : validateTrust services trust = .ok rows) :
    ∃ ids, ((rows.providers.map ProviderRow.id).mapM fun providerId =>
      validatedUuid providerId "provider_id") = .ok ids := by
  have canonical := validated_provider_id valid
  generalize rows.providers = providers at canonical
  induction providers with
  | nil => exact ⟨[], rfl⟩
  | cons row providers induction =>
    obtain ⟨id, same⟩ := canonical row List.mem_cons_self
    obtain ⟨ids, rest⟩ := induction fun other inside =>
      canonical other (List.mem_cons_of_mem _ inside)
    refine ⟨id.text :: ids, ?_⟩
    rw [List.map_cons, List.mapM_cons, rest, same, validated_uuid_text]
    rfl

theorem count_rows_ok {crypto : Crypto} {kek : Bytes} {keys : List WrappedRow}
    (opens : ∀ row ∈ keys, ∃ opened, decryptRow crypto kek row = .ok opened)
    (counts : List (String × LifecycleCounts)) :
    ∃ counted, keys.foldlM (countRow crypto kek) counts = .ok counted := by
  induction keys generalizing counts with
  | nil => exact ⟨counts, rfl⟩
  | cons row keys induction =>
    obtain ⟨opened, decrypted⟩ := opens row List.mem_cons_self
    obtain ⟨counted, rest⟩ := induction
      (fun other inside => opens other (List.mem_cons_of_mem _ inside))
      (setItem opened.1.providerId
        (((getItem opened.1.providerId counts).getD ⟨0, 0, 0⟩).add opened.1.state) counts)
    refine ⟨counted, ?_⟩
    rw [List.foldlM_cons, countRow, decrypted]
    exact rest

/-- The validation of a candidate accepts a settled store and leaves it as it is. -/
theorem settled_authenticates (lawful : Lawful services)
    (settled : Settled services secretsKey disk vault)
    (valid : validateTrust services trust = .ok rows) (openDraws : OpenDraws) (draws : Draws) :
    ∃ counted, authenticate services secretsKey openDraws draws
      (rows.providers.map ProviderRow.id) disk = (.ok counted, disk) := by
  obtain ⟨ids, validated⟩ := provider_ids_valid valid
  obtain ⟨counted, counting⟩ := count_rows_ok settled.opens
    (ofPairs (ids.map fun provider => (provider, ⟨0, 0, 0⟩)))
  refine ⟨counted, ?_⟩
  have ran : runStore (lifecycleCounts services.crypto draws (rows.providers.map ProviderRow.id))
      (vault.session services.crypto true) disk =
        (.ok counted, vault.session services.crypto true, disk) := by
    rw [lifecycleCounts, run_store_ok (run_store_lift _ _ disk |>.trans (by rw [validated])),
      run_store_ok (vault_verifies lawful settled true draws),
      run_store_ok (run_read_tables settled.database _), run_store_ok (run_store_session _ disk),
      run_store_lift]
    simp only [Vault.session, countKeys, counting]
  rw [authenticate, settled_opens_read_only lawful settled]
  simp only [ran]

theorem build_candidate_settled (lawful : Lawful services)
    (settled : Settled services secretsKey disk vault) (file : disk.kek = some text)
    (valid : validateTrust services trust = .ok rows)
    (covered : ∀ row ∈ vault.tables.keys, row.providerId ∈ rows.providers.map ProviderRow.id)
    (target : masterKey services.crypto targetKey = .ok targetMaster) (nonce : Nonce)
    (openDraws : OpenDraws) (draws : Draws) :
    buildCandidate services targetKey nonce openDraws draws (sortKeys (vault.snapshot text trust)) =
      .ok (candidateDisk services targetMaster nonce.bytes
        ⟨rows, vault.master, text, vault.tables⟩) := by
  have size : (utf8Encode text).length ≤ 8192 := by
    obtain ⟨fileNonce, written⟩ := settled.file
    rw [file] at written
    rw [Option.some.inj written]
    exact envelope_text_size lawful fileNonce settled.kek settled.generation
  have parts := read_parts_sorted valid (settled_master_length lawful settled) size covered
    settled.checks
  have candidate : Settled services targetKey (candidateDisk services targetMaster nonce.bytes
      ⟨rows, vault.master, text, vault.tables⟩) vault :=
    candidate_settled lawful settled file target nonce
  obtain ⟨counted, checked⟩ := settled_authenticates lawful candidate valid openDraws draws
  unfold buildCandidate
  simp only [parts, ok_bind, target, Except.mapError, checked]
  rw [if_neg]
  simp [candidateDisk]

structure SameKeys (crypto : Crypto) (session : Session) (disk : Disk) (other : Session)
    (copy : Disk) : Prop where
  rows : copy.database = disk.database
  keys : ∀ providerId keyId draws otherDraws,
    (runStore (getKey crypto otherDraws providerId keyId) other copy).1 =
      (runStore (getKey crypto draws providerId keyId) session disk).1

/-- The files open under the secrets key, in either mode, as the same store, and another
export of it captures the same snapshot. -/
def Restores (services : Services) (secretsKey : String) (candidate : Disk) (session : Session)
    (disk : Disk) (trust snapshot : Json) : Prop :=
  ∀ readOnly openDraws, ∃ restored copy,
    runFiles (openStore services.crypto secretsKey readOnly openDraws) candidate =
        (.ok restored, copy) ∧
      SameKeys services.crypto session disk restored copy ∧
        ∀ draws, runStore (capture services draws trust) restored copy =
          (.ok snapshot, restored, copy)

end Candidate

/-! ### A small store -/

def sampleSeal (key nonce aad plaintext : Bytes) : Bytes :=
  (key ++ nonce ++ aad ++ plaintext ++ List.replicate 16 0).take 16

def sampleCrypto : Crypto where
  sha256 data := (data ++ List.replicate 32 0).take 32
  encrypt key nonce plaintext aad := sampleSeal key nonce aad plaintext ++ plaintext
  decrypt key nonce ciphertext aad :=
    if ciphertext.take 16 = sampleSeal key nonce aad (ciphertext.drop 16) then
      some (ciphertext.drop 16)
    else none

def sampleServices : Services := ⟨sampleCrypto, fun passphrase salt => passphrase ++ salt, fun _ => none⟩

theorem sample_seal_length (key nonce aad plaintext : Bytes) :
    (sampleSeal key nonce aad plaintext).length = 16 := by
  simp only [sampleSeal, List.length_take, List.length_append, List.length_replicate]
  omega

theorem sample_lawful : Lawful sampleServices := by
  refine ⟨⟨fun key nonce plaintext aad => ?_⟩, fun key nonce plaintext aad => ?_, ?_, fun data => ?_⟩
  · have size := sample_seal_length key nonce aad plaintext
    simp only [sampleServices, sampleCrypto, List.take_left' size, List.drop_left' size, if_true]
  · simp only [sampleServices, sampleCrypto, List.length_append, sample_seal_length]
    omega
  · intro key nonce ciphertext aad plaintext opened
    simp only [sampleServices, sampleCrypto] at opened
    split_ifs at opened with tag
    cases opened
    have size := congrArg List.length tag
    rw [sample_seal_length, List.length_take] at size
    rw [List.length_drop]
    omega
  · simp [sampleServices, sampleCrypto]

def sampleVault : Vault where
  master := sampleCrypto.sha256 (utf8Encode "atlaso-kmip-master-v1\x00" ++ utf8Encode "secret")
  kek := List.replicate 32 7
  generation := 0
  tables := Tables.initialised

theorem sample_nonce_length : (List.replicate 12 (3 : UInt8)).length = 12 := rfl

def sampleNonce : Nonce := ⟨List.replicate 12 3, sample_nonce_length⟩

def sampleStore : Disk where
  custody := none
  databaseDirectory := true
  kekDirectory := true
  journal := false
  kek := some (envelopeText sampleCrypto sampleVault.master sampleNonce.bytes
    (sampleVault.envelope sampleCrypto))
  database := some Tables.initialised.database

def sampleTrust : Json :=
  .object [("providers", .array []), ("vcenters", .array []), ("certificates", .array [])]

theorem sample_settled : Settled sampleServices "secret" sampleStore sampleVault := by
  refine ⟨?_, rfl, ⟨sampleNonce, rfl⟩, rfl, by positivity, rfl, rfl, ?_, ?_⟩
  · exact bind_ok_iff.mpr ⟨sampleVault.master, if_neg (by decide), rfl⟩
  · intro row inside
    cases inside
  · intro row inside
    cases inside

theorem sample_trust_valid : validateTrust sampleServices sampleTrust = .ok ⟨[], [], []⟩ := rfl

theorem sample_snapshot_fits {text : String} (size : (utf8Encode text).length ≤ 8192) :
    (utf8Encode (dumps (sampleVault.snapshot text sampleTrust))).length ≤ maxArchiveBytes - 128 := by
  have limit : maxArchiveBytes = 33554432 := rfl
  have kekField : (render (.string (b64encode (utf8Encode text)))).length = _ :=
    quote_base64_length (utf8Encode text)
  have masterField : (render (.string (b64encode sampleVault.master))).length = _ :=
    quote_base64_length sampleVault.master
  have master : sampleVault.master.length = 32 := sample_lawful.digestLength _
  have fields : (quote "schema").length = 8 ∧ (quote "keys").length = 6 ∧
      (quote "metadata").length = 10 ∧ (quote "kek").length = 5 ∧ (quote "master").length = 8 ∧
        (quote "trust").length = 7 := by decide
  have schema : (render (.int 1)).length = 1 := by decide
  have keys : (render (.array [])).length = 2 := by decide
  have metadata : (render (.array [.array [.string "schema_version",
      .string (toString storeSchemaVersion)]])).length = 24 := by decide
  have trust : (render sampleTrust).length = 48 := by decide
  rw [dumps_size (vault_snapshot_plain sample_trust_valid)]
  have same : render (sampleVault.snapshot text sampleTrust) = render (.object (snapshotMembers []
    [.array [.string "schema_version", .string (toString storeSchemaVersion)]] text
      sampleVault.master sampleTrust)) := rfl
  rw [same]
  refine (render_object_length _).trans ?_
  simp only [snapshotMembers, memberText, List.map_cons, List.map_nil, List.sum_cons,
    List.sum_nil, List.length_append, List.length_cons]
  omega

end Atlaso.Kmip.RecoveryRoundTrip
