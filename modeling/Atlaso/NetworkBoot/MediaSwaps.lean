import Mathlib.Data.List.Infix
import Mathlib.Logic.Function.Basic

/-!
The publication of Network Boot media and the recovery of an interrupted one.

A synchronization stages the new directory, writes a journal, moves an old directory of the
version aside, publishes the new one, commits its row, and removes the journal. A stop may
fall between any two of these steps. Directory scans are bounded: `early` tells which
entries of a directory are among the first 256 that the system lists.
-/

namespace Atlaso.NetworkBoot.MediaSwaps

section Disk

/-- `ENVIRONMENT_CATALOG`. -/
inductive Environment where
  | inventory | memtest86plus | shredos | gparted | clonezilla
  deriving DecidableEq, Repr

def environmentCatalog : List Environment :=
  [.inventory, .memtest86plus, .shredos, .gparted, .clonezilla]

def Environment.key : Environment → String
  | .inventory => "inventory"
  | .memtest86plus => "memtest86plus"
  | .shredos => "shredos"
  | .gparted => "gparted"
  | .clonezilla => "clonezilla"

/-- The directory of a version, or of a repaired snapshot of it: the first twelve digits of
its digest and of its transaction. -/
structure MediaName where
  version : String
  repair : Option (String × String)
  deriving DecidableEq, Repr

structure StagingName where
  (transaction suffix : String)
  deriving DecidableEq, Repr

inductive EntryName where
  | media (name : MediaName)
  | staging (name : StagingName)
  deriving DecidableEq, Repr

def isDigest (text : String) : Bool :=
  text.length = 64 &&
    text.toList.all fun c => ('0' ≤ c && c ≤ '9') || ('a' ≤ c && c ≤ 'f')

/-- What SHA-256 writes of a file. -/
abbrev Digest := { text : String // isDigest text = true }

structure Manifest where
  kind : String
  schemaVersion : Nat
  (environment version sha256 : String)
  artifacts : List (String × String)
  deriving DecidableEq, Repr

/-- A directory that is not empty. `manifest` is its manifest, when it is a JSON object of at
most 2 MiB; `files` are its regular files, when the scan accepts them. -/
structure Tree where
  manifest : Option Manifest
  files : String → Option Digest

/-- An entry at the name of a media directory: a directory, which may be empty, or a file or
symbolic link. -/
inductive Node where
  | directory (tree : Option Tree)
  | other

/-- The journal of a swap. Journals of earlier releases lack the last two fields. -/
structure Journal where
  (environment version : String)
  finalDirectory : Option MediaName
  stagingDirectory : Option StagingName
  deriving DecidableEq, Repr

/-- The directory of an environment. A staging directory has its lease file or not. -/
structure Root where
  media : MediaName → Option Node
  journals : List (String × Journal)
  stagings : List (StagingName × Bool)
  backups : String × String → Option Node

def Root.empty : Root := ⟨fun _ => none, [], [], fun _ => none⟩

/-- A `NetworkBootMedia` row. `installed` is its path, when that is in its environment. -/
structure Row where
  id : Nat
  environment : Environment
  (version artifactSha256 : String)
  installed : Option MediaName
  deriving DecidableEq, Repr

structure World where
  roots : Environment → Option Root
  rows : Environment → String → Option Row

/-- The directory as far as a run is concerned that creates it. -/
def World.root (world : World) (environment : Environment) : Root :=
  (world.roots environment).getD Root.empty

def World.withRoot (world : World) (environment : Environment) (root : Root) : World :=
  { world with roots := Function.update world.roots environment (some root) }

end Disk

section Verification

/-- The parts of a `PurePosixPath`. -/
def posixParts (path : String) : List String :=
  ((path.toList.splitOn '/').map String.ofList).filter fun part => part ≠ "" && part ≠ "."

def safeArchiveMember (memberName : String) : Bool :=
  let path := String.ofList (memberName.toList.map fun c => if c = '\\' then '/' else c)
  memberName ≠ "" && path.toList.head? ≠ some '/' && !(posixParts path).contains ".." &&
    !(match memberName.toList with
      | letter :: ':' :: _ => letter.isAlpha
      | _ => false)

def asPosix (path : String) : String := "/".intercalate (posixParts path)

/-- The artifacts that only ShredOS has. -/
def shredosArtifacts (artifacts : List (String × String)) : Bool :=
  artifacts.all (fun entry => entry.1 = "boot.ipxe" || entry.1 = "shredos") &&
    artifacts.any (·.1 = "boot.ipxe") && artifacts.any (·.1 = "shredos")

def verifiedContent (row : Row) (tree : Tree) : Bool :=
  match tree.manifest with
  | none => false
  | some manifest =>
    manifest.kind = "atlaso-network-boot-media" && manifest.schemaVersion = 1 &&
      manifest.environment = row.environment.key && manifest.version = row.version &&
      manifest.sha256 = row.artifactSha256 && !manifest.artifacts.isEmpty &&
      (row.environment ≠ .shredos || shredosArtifacts manifest.artifacts) &&
      manifest.artifacts.all fun entry =>
        safeArchiveMember entry.1 && isDigest entry.2 &&
          (tree.files (asPosix entry.1)).any (·.1 = entry.2)

variable (early : Root → EntryName → Bool)

def verifiedCachedMedia (root : Root) (row : Row) : Option MediaName :=
  match row.installed with
  | none => none
  | some name =>
    match root.media name with
    | some (.directory (some tree)) =>
      if early root (.media name) && verifiedContent row tree then some name else none
    | _ => none

def enumeratedMediaDirectory (root : Root) (version : String) : Bool :=
  match root.media ⟨version, none⟩ with
  | some (.directory _) => early root (.media ⟨version, none⟩)
  | _ => false

end Verification

section Recovery

variable (early : Root → EntryName → Bool)

/-- `_remove_orphan_media_staging_directories`, when no process holds a lease. -/
def removeOrphans (root : Root) : Root :=
  { root with
    stagings := root.stagings.filter fun entry => !(entry.2 && early root (.staging entry.1)) }

def accepted (environment : Environment) (transaction : String) (journal : Journal) : Bool :=
  journal.environment = environment.key &&
    journal.stagingDirectory.all (·.transaction = transaction) &&
    journal.finalDirectory.all (·.version = journal.version)

def Journal.final (journal : Journal) : MediaName :=
  journal.finalDirectory.getD ⟨journal.version, none⟩

def Root.close (root : Root) (transaction : String) (journal : Journal) : Root :=
  { root with
    journals := root.journals.filter (·.1 ≠ transaction)
    stagings := root.stagings.filter fun entry => journal.stagingDirectory ≠ some entry.1 }

/-- The new media is published and committed: only its traces are removed. -/
def finishSwap (root : Root) (transaction : String) (journal : Journal) : Root :=
  Root.close
    { root with
      backups := fun name =>
        match root.backups name with
        | some (.directory tree) =>
          if name = (journal.version, transaction) then none else some (.directory tree)
        | found => found }
    transaction journal

/-- The installed directory is removed and the backup, if there is one, put in its place. -/
def undoSwap (root : Root) (transaction : String) (journal : Journal) : Root :=
  Root.close
    { root with
      media := Function.update root.media journal.final
        (root.backups (journal.version, transaction))
      backups := Function.update root.backups (journal.version, transaction) none }
    transaction journal

def isOther : Option Node → Bool
  | some .other => true
  | _ => false

/-- The loop body of `_recover_interrupted_network_boot_media_swaps`. -/
def recoverJournal (environment : Environment) (rows : String → Option Row) (root : Root)
    (entry : String × Journal) : Root :=
  if accepted environment entry.1 entry.2 then
    if (rows entry.2.version).bind (verifiedCachedMedia early root) = some entry.2.final then
      finishSwap root entry.1 entry.2
    else if isOther (root.media entry.2.final) ||
        isOther (root.backups (entry.2.version, entry.1)) then root
    else undoSwap root entry.1 entry.2
  else root

def recoverRoot (environment : Environment) (rows : String → Option Row) (root : Root) : Root :=
  (removeOrphans early root).journals.foldl (recoverJournal early environment rows)
    (removeOrphans early root)

def recoverEnvironment (world : World) (environment : Environment) : World :=
  match world.roots environment with
  | none => world
  | some root =>
    world.withRoot environment (recoverRoot early environment (world.rows environment) root)

/-- `recover_interrupted_network_boot_media_swaps`. -/
def recover (world : World) : World :=
  environmentCatalog.foldl (recoverEnvironment early) world

end Recovery

section Synchronization

variable (early : Root → EntryName → Bool)

/-- What a synchronization is called with, downloads and draws. `digests` are those of the
extracted files, and `applied` is the installed path of the applied snapshot. -/
structure Request where
  environment : Environment
  version : String
  artifactSha256 : Digest
  descriptorSha256 : String
  digests : String → Digest
  activeVersion : Option String
  applied : Option (Option MediaName)
  (transaction suffix : String)
  rowId : Nat

/-- The decisions of a run. -/
structure Plan where
  environment : Environment
  (version transaction : String)
  final : MediaName
  staging : StagingName
  replaced : Bool
  superseded : Option MediaName
  tree : Tree
  row : Row

def extractedNames : Environment → List String
  | .inventory => ["bzImage", "rootfs.cpio.gz"]
  | .memtest86plus => ["memtest86plus"]
  | .gparted | .clonezilla => ["vmlinuz", "initrd.img", "filesystem.squashfs"]
  | .shredos => ["shredos", "boot.ipxe"]

def stagedTree (request : Request) : Tree where
  manifest := some
    { kind := "atlaso-network-boot-media"
      schemaVersion := 1
      environment := request.environment.key
      version := request.version
      sha256 := request.artifactSha256.1
      artifacts := (extractedNames request.environment).map fun name =>
        (name, (request.digests name).1) }
  files := fun name =>
    if name ∈ extractedNames request.environment then some (request.digests name) else none

def planned (request : Request) (final : MediaName) (replaced : Bool)
    (superseded : Option MediaName) : Plan where
  environment := request.environment
  version := request.version
  transaction := request.transaction
  final
  staging := ⟨request.transaction, request.suffix⟩
  replaced
  superseded
  tree := stagedTree request
  row :=
    { id := request.rowId
      environment := request.environment
      version := request.version
      artifactSha256 := request.artifactSha256.1
      installed := some final }

def planRepair (request : Request) (root : Root) (existing : Row) :
    Except String (Option Plan) :=
  match request.applied with
  | none =>
    .error ("Active same-version media cannot be repaired until its applied snapshot is " ++
      "available.")
  | some applied =>
    let superseded := existing.installed.filter fun name =>
      applied ≠ existing.installed &&
        match root.media name with
        | some (.directory _) => true
        | _ => false
    if isDigest request.descriptorSha256 then
      let final : MediaName :=
        ⟨request.version, some
          (String.ofList (request.descriptorSha256.toList.take 12),
            String.ofList (request.transaction.toList.take 12))⟩
      if (root.media final).isSome then
        .error "The verified same-version media replacement already exists."
      else .ok (some (planned request final false superseded))
    else .error "Active same-version media requires a verified replacement digest."

/-- The first part of `sync_network_boot_media`, before anything is written. Media that is
already verified needs no run. -/
def planSync (request : Request) (world : World) : Except String (Option Plan) :=
  let root := world.root request.environment
  match world.rows request.environment request.version with
  | some existing =>
    if (verifiedCachedMedia early root existing).isSome then .ok none
    else if request.environment = .shredos && request.activeVersion = some request.version then
      planRepair request root existing
    else
      .ok (some (planned request ⟨request.version, none⟩
        (enumeratedMediaDirectory early root request.version) none))
  | none =>
    if enumeratedMediaDirectory early root request.version then
      .ok (some (planned request ⟨request.version, none⟩ true none))
    else if (root.media ⟨request.version, none⟩).isSome then
      .error "Boot media cache path is unsafe; remove it manually before retrying."
    else .ok (some (planned request ⟨request.version, none⟩ false none))

def Plan.journal (plan : Plan) : Journal :=
  ⟨plan.environment.key, plan.version, some plan.final, some plan.staging⟩

inductive Step where
  | stage | journal | setAside | publish | unstage | commit | removeBackup | removeSuperseded
  | removeFinal | restore | removeJournal
  deriving DecidableEq, Repr

def stepRoot (plan : Plan) (root : Root) : Step → Root
  | .stage => { root with stagings := (plan.staging, true) :: root.stagings }
  | .journal => { root with journals := (plan.transaction, plan.journal) :: root.journals }
  | .setAside =>
    { root with
      media := Function.update root.media plan.final none
      backups := Function.update root.backups (plan.version, plan.transaction)
        (root.media plan.final) }
  | .publish =>
    { root with
      media := Function.update root.media plan.final (some (.directory (some plan.tree))) }
  | .unstage => { root with stagings := root.stagings.filter (·.1 ≠ plan.staging) }
  | .commit => root
  | .removeBackup =>
    { root with
      backups := Function.update root.backups (plan.version, plan.transaction) none }
  | .removeSuperseded =>
    match plan.superseded with
    | none => root
    | some name => { root with media := Function.update root.media name none }
  | .removeFinal => { root with media := Function.update root.media plan.final none }
  | .restore =>
    { root with
      media := Function.update root.media plan.final
        (root.backups (plan.version, plan.transaction))
      backups := Function.update root.backups (plan.version, plan.transaction) none }
  | .removeJournal => { root with journals := root.journals.filter (·.1 ≠ plan.transaction) }

def stepRows (plan : Plan) (rows : Environment → String → Option Row) :
    Step → Environment → String → Option Row
  | .commit => fun environment version =>
    if environment = plan.environment ∧ version = plan.version then some plan.row
    else rows environment version
  | _ => rows

def step (plan : Plan) (world : World) (taken : Step) : World :=
  { World.withRoot world plan.environment (stepRoot plan (world.root plan.environment) taken) with
    rows := stepRows plan world.rows taken }

def run (plan : Plan) (steps : List Step) (world : World) : World := steps.foldl (step plan) world

/-- A directory can be renamed to this name. -/
def Vacant : Option Node → Prop
  | none => True
  | some (.directory tree) => tree = none
  | some .other => False

def onlyIf (condition : Bool) (taken : Step) : List Step := if condition then [taken] else []

/-- The durable steps of a run: to its end, or through the handler of an exception. -/
inductive Run (plan : Plan) (before : World) : List Step → Prop
  | completed
      (vacant : plan.replaced = true ∨ Vacant ((before.root plan.environment).media plan.final)) :
      Run plan before
        ([.stage, .journal] ++ onlyIf plan.replaced .setAside ++ [.publish, .unstage, .commit] ++
          onlyIf plan.replaced .removeBackup ++
          onlyIf plan.superseded.isSome .removeSuperseded ++ [.removeJournal])
  | abandoned : Run plan before [.stage, .unstage]
  | refused : Run plan before [.stage, .journal, .removeJournal, .unstage]
  | unpublished (moved : plan.replaced = true) :
      Run plan before [.stage, .journal, .setAside, .restore, .removeJournal, .unstage]
  | unsynced
      (vacant : plan.replaced = true ∨ Vacant ((before.root plan.environment).media plan.final)) :
      Run plan before
        ([.stage, .journal] ++ onlyIf plan.replaced .setAside ++ [.publish, .removeFinal] ++
          onlyIf plan.replaced .restore ++ [.removeJournal, .unstage])
  | rolledBack
      (vacant : plan.replaced = true ∨ Vacant ((before.root plan.environment).media plan.final)) :
      Run plan before
        ([.stage, .journal] ++ onlyIf plan.replaced .setAside ++
          [.publish, .unstage, .removeFinal] ++ onlyIf plan.replaced .restore ++
          [.removeJournal])

end Synchronization

section Claims

/-- No earlier swap was interrupted. -/
structure Settled (root : Root) : Prop where
  journals : root.journals = []
  stagings : root.stagings = []
  backups : root.backups = fun _ => none

def Committed (plan : Plan) (world : World) : Prop :=
  world.rows plan.environment plan.version = some plan.row

/-- After the stop and the recovery: the directory of the version is the new media if the new
row was committed, and as it was before otherwise; nothing of the swap is left; the recovery
would change nothing more; and nothing else has changed. -/
structure Recovered (early : Root → EntryName → Bool) (plan : Plan) (before stopped : World) :
    Prop where
  published : Committed plan stopped →
    ((recover early stopped).root plan.environment).media plan.final =
      some (.directory (some plan.tree))
  unpublished : ¬Committed plan stopped →
    ((recover early stopped).root plan.environment).media plan.final =
      (before.root plan.environment).media plan.final
  settled : Settled ((recover early stopped).root plan.environment)
  again : recover early (recover early stopped) = recover early stopped
  rows : (recover early stopped).rows = stopped.rows
  others : ∀ environment, environment ≠ plan.environment →
    (recover early stopped).roots environment = before.roots environment
  media : ∀ name, name ≠ plan.final → plan.superseded ≠ some name →
    ((recover early stopped).root plan.environment).media name =
      (before.root plan.environment).media name

end Claims

end Atlaso.NetworkBoot.MediaSwaps
