import Atlaso.Library.Dictionary

/-!
The upload sessions of `services/chunk_uploads.py`. Every method holds the lock of the store,
so a run of the store is a list of calls in some order.

A session has a number that no other session has, in place of the identity of its object. The
file of a session is what its Python handle holds, with bytes that are still in a buffer. Each
call comes with the clock and with the outcome of its system calls; a handle whose close fails
is closed. SHA-256 is a parameter.
-/

namespace Atlaso.Uploads.UploadStore

open Library.Dictionary

abbrev Bytes := List UInt8

def chunkBytes : Nat := 8 * 1024 ^ 2

def sessionSeconds : Int := 30 * 60

structure UploadSession where
  id : Nat
  (owner target field filename : String)
  size : Nat
  file : Bytes
  expires : Int
  offset : Nat
  claimed : Bool
  deriving DecidableEq, Repr

def UploadSession.content (session : UploadSession) : Bytes := session.file.take session.offset

structure Store where
  sessions : List (String × UploadSession)
  created : Nat
  deriving DecidableEq, Repr

def Store.empty : Store := ⟨[], 0⟩

inductive Failure where
  | upload (status : Nat) (message : String)
  | osError
  deriving DecidableEq, Repr

def Store.total (weight : UploadSession → Nat) (store : Store) : Nat :=
  (store.sessions.map fun entry => weight entry.2).sum

def ownedBy (owner : String) (session : UploadSession) : Nat := if session.owner = owner then 1 else 0

/-! ### Creation -/

/-- What `create` finds of the staging volume. -/
structure Volume where
  (plainRoot parentPresent safeMode : Bool)
  free : Nat
  opens : Bool

/-- The handle of a new session; a small file stays in memory. -/
def stage (volume : Volume) (reserved size : Nat) : Except Failure Bytes :=
  if size ≤ 16 * 1024 ^ 2 then .ok []
  else if volume.plainRoot = false then .error (.upload 503 "Upload staging is unavailable.")
  else if volume.parentPresent = false then
    .error (.upload 503 "The upload storage volume is unavailable.")
  else if volume.safeMode = false then
    .error (.upload 503 "Upload staging permissions are unsafe.")
  else if volume.free < (reserved + size) * 2 + 64 * 1024 ^ 2 then
    .error (.upload 507 "Insufficient free space for upload and validation.")
  else if volume.opens = false then .error .osError
  else .ok []

def create (now : Int) (volume : Volume) (token owner target field filename : String) (size : Nat)
    (store : Store) : Except Failure String × Store :=
  if 16 ≤ store.sessions.length ∨ 4 ≤ store.total (ownedBy owner) ∨
      32 * 1024 ^ 3 < store.total UploadSession.size + size then
    (.error (.upload 429 "Upload capacity is busy. Finish or cancel another upload first."), store)
  else
    match stage volume (store.total UploadSession.size) size with
    | .error failure => (.error failure, store)
    | .ok file =>
      (.ok token, ⟨setItem token ⟨store.created, owner, target, field, filename, size, file,
        now + sessionSeconds, 0, false⟩ store.sessions, store.created + 1⟩)

/-! ### Chunks -/

def unavailable : Failure := .upload 404 "Upload expired or is unavailable. Select the file again."

def get (now : Int) (store : Store) (key owner : String) : Except Failure UploadSession :=
  match getItem key store.sessions with
  | none => .error unavailable
  | some session =>
    if session.claimed ∨ session.owner ≠ owner ∨ session.expires ≤ now then .error unavailable
    else .ok session

/-- `file.seek(offset)` and `file.write(data)`. -/
def writeAt (file : Bytes) (offset : Nat) (data : Bytes) : Bytes :=
  file.take offset ++ data ++ file.drop (offset + data.length)

/-- `file.seek(offset)` and `file.read(count)`. -/
def readAt (file : Bytes) (offset count : Nat) : Bytes := (file.drop offset).take count

/-- The outcome of the system calls of one append: whether it can seek and read, the bytes that
were written when the write or the flush failed, and whether the file could then be cut. -/
structure FileCalls where
  (seeks reads : Bool)
  failedAfter : Option Nat
  truncates : Bool

def conflict : Failure := .upload 409 "Upload offset conflict."

def failedWrite (file : Bytes) (offset : Nat) (data : Bytes) (written : Nat) (truncates : Bool) :
    Bytes :=
  let left := writeAt file offset (data.take written)
  if truncates then left.take offset else left

def writeChunk (calls : FileCalls) (session : UploadSession) (offset : Nat) (data : Bytes) :
    Option Failure × UploadSession :=
  if offset < session.offset then
    if calls.seeks = false then (some .osError, session)
    else if session.offset < offset + data.length then (some conflict, session)
    else if calls.reads = false then (some .osError, session)
    else if readAt session.file offset data.length ≠ data then (some conflict, session)
    else (none, session)
  else if offset = session.offset then
    if calls.seeks = false then (some .osError, session)
    else
      match calls.failedAfter with
      | some written => (some .osError,
          { session with file := failedWrite session.file offset data written calls.truncates })
      | none => (none, { session with
          file := writeAt session.file offset data
          offset := session.offset + data.length })
  else (some conflict, session)

def append (hexdigest : Bytes → String) (now later : Int) (calls : FileCalls) (key owner : String)
    (offset : Int) (data : Bytes) (digest : String) (store : Store) :
    Except Failure Nat × Store :=
  match get now store key owner with
  | .error failure => (.error failure, store)
  | .ok session =>
    if data = [] ∨ chunkBytes < data.length ∨ hexdigest data ≠ digest then
      (.error (.upload 400 "Invalid upload chunk or checksum."), store)
    else if offset < 0 ∨ session.size < offset + data.length then
      (.error (.upload 413 "Chunk exceeds the declared file size."), store)
    else
      match writeChunk calls session offset.toNat data with
      | (some failure, after) =>
        (.error failure, { store with sessions := setItem key after store.sessions })
      | (none, after) => (.ok after.offset, { store with
          sessions := setItem key { after with expires := later + sessionSeconds }
            store.sessions })

/-! ### Claims and releases -/

def getAll (now : Int) (store : Store) (owner : String) (keys : List String) :
    Except Failure (List UploadSession) :=
  keys.mapM fun key => get now store key owner

def markClaimed (sessions : List (String × UploadSession)) (key : String) :
    List (String × UploadSession) :=
  match getItem key sessions with
  | some session => setItem key { session with claimed := true } sessions
  | none => sessions

def claim (now : Int) (keys : List String) (owner target : String) (store : Store) :
    Except Failure (List UploadSession) × Store :=
  if keys.Nodup then
    match getAll now store owner keys with
    | .error failure => (.error failure, store)
    | .ok sessions =>
      if sessions.any fun session => session.target ≠ target || session.offset ≠ session.size then
        (.error (.upload 409 "Upload is incomplete or belongs to another form."), store)
      else (.ok sessions, { store with sessions := keys.foldl markClaimed store.sessions })
  else (.error (.upload 400 "Duplicate upload session."), store)

def release (keys : List String) (store : Store) : Store :=
  { store with sessions := store.sessions.filter fun entry => entry.1 ∉ keys }

def cancel (now : Int) (key owner : String) (store : Store) : Except Failure Unit × Store :=
  match get now store key owner with
  | .error failure => (.error failure, store)
  | .ok _ => (.ok (), release [key] store)

def sweep (now : Int) (store : Store) : Store :=
  release ((store.sessions.filter fun entry =>
    !entry.2.claimed && decide (entry.2.expires ≤ now)).map Prod.fst) store

def close (store : Store) : Store := release (store.sessions.map Prod.fst) store

/-! ### Runs -/

inductive Call where
  | create (now : Int) (volume : Volume) (token owner target field filename : String) (size : Nat)
  | append (now later : Int) (calls : FileCalls) (key owner : String) (offset : Int) (data : Bytes)
      (digest : String)
  | claim (now : Int) (keys : List String) (owner target : String)
  | release (keys : List String)
  | cancel (now : Int) (key owner : String)
  | sweep (now : Int)
  | close

/-- What a call has done: a chunk that a session has accepted, or sessions that are claimed. -/
inductive Effect where
  | accepted (id offset : Nat) (data : Bytes)
  | claimed (ids : List Nat)
  | refused (failure : Failure)
  | other
  deriving DecidableEq, Repr

def perform (hexdigest : Bytes → String) (store : Store) : Call → Effect × Store
  | .create now volume token owner target field filename size =>
    match create now volume token owner target field filename size store with
    | (.ok _, after) => (.other, after)
    | (.error failure, after) => (.refused failure, after)
  | .append now later calls key owner offset data digest =>
    match append hexdigest now later calls key owner offset data digest store with
    | (.ok _, after) =>
      (match getItem key store.sessions with
        | some session => .accepted session.id offset.toNat data
        | none => .other, after)
    | (.error failure, after) => (.refused failure, after)
  | .claim now keys owner target =>
    match claim now keys owner target store with
    | (.ok sessions, after) => (.claimed (sessions.map UploadSession.id), after)
    | (.error failure, after) => (.refused failure, after)
  | .release keys => (.other, release keys store)
  | .cancel now key owner =>
    match cancel now key owner store with
    | (.ok _, after) => (.other, after)
    | (.error failure, after) => (.refused failure, after)
  | .sweep now => (.other, sweep now store)
  | .close => (.other, close store)

def run (hexdigest : Bytes → String) (calls : List Call) : List Effect × Store :=
  calls.foldl (fun state call =>
    let done := perform hexdigest state.2 call
    (done.1 :: state.1, done.2)) ([], Store.empty)

end Atlaso.Uploads.UploadStore
