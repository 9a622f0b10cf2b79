import Remedy.Backup.Manifest
import Remedy.Distinct
import Remedy.World

/-!
The store of snapshots of a project. `Store.snapshot` records files and writes them with a manifest
into a directory of their own, `Store.restore` puts recorded files back and checks each by its
digest, and `Store.load` reads a snapshot back from its directory. In memory a store holds at most
one snapshot for each run and key; `Store.discard` forgets those of a run, while the directories
stay.
-/

set_option autoImplicit false

namespace Remedy

def defaultBackupDirectory : String := ".error-fix-backups"

/-- The key of the snapshot of all files of a run. -/
def runKey : String := "run"

def isAsciiLetter (c : Char) : Bool := ('a' ≤ c && c ≤ 'z') || ('A' ≤ c && c ≤ 'Z')

def isNameStart (c : Char) : Bool := isAsciiLetter c || ('0' ≤ c && c ≤ '9')

def isNameChar (c : Char) : Bool := isNameStart c || c == '.' || c == '_' || c == '-'

/-- Whether a text may be the name of a run or a key, one line feed at the end not counting. -/
def isBackupName (s : String) : Bool :=
  match s.toList with
  | [] => false
  | c :: rest => isNameStart c && [[], ['\n']].contains (rest.dropWhile isNameChar)

structure Store where
  project : Route
  /-- The directory of the backups of all runs. -/
  root : Path
  held : List ((String × String) × Snapshot) := []
  deriving Repr, Inhabited

/-- Replaces the content of a file as a whole. -/
def Act.replaceContent (p : Path) (content : Text.Bytes) : Act (Except FileError Unit) := do
  tryFiles (FileAct.replaceContent p content (← drawName))

namespace Store

/-- The store of the project at a resolved path. -/
def ofProject (project : Route) (directory : String) : Store :=
  { project := project, root := (Route.path project).join (Path.ofString directory) }

/-- The snapshot held for a run and a key. -/
def find? (runId key : String) :
    List ((String × String) × Snapshot) → Option Snapshot
  | [] => none
  | ((r, k), snapshot) :: rest =>
    if r = runId ∧ k = key then some snapshot else find? runId key rest

def get (s : Store) (runId key : String) : Option Snapshot := find? runId key s.held

def hold (s : Store) (snapshot : Snapshot) : Store :=
  { s with held := s.held ++ [((snapshot.runId, snapshot.key), snapshot)] }

/-- Where a path, which may start from the project, leads. -/
def resolve (s : Store) (p : Path) : Act Route := fun w =>
  (w.files.resolve ((Route.path s.project).join p), w)

def location (s : Store) (runId key : String) : Path := (s.root.child runId).child key

def checkNames (runId key : String) : Act Unit := do
  if !isBackupName runId then throw (.backup (.invalidName "run id" runId))
  if !isBackupName key then throw (.backup (.invalidName "key" key))

/-! ### Taking snapshots -/

/-- What a file holds, none if it does not exist. -/
def readCurrent (route : Route) : Act (Option Text.Bytes) := do
  match ← Act.tryFiles (FileAct.read (Route.path route)) with
  | .ok content => return some content
  | .error e =>
    if e.errno = .notFound then return none
    Act.log .error "snapshot_failed" [("path", Route.text route), ("error", e.message)]
    throw (.backup (.unreadable (Route.text route) e))

def readAll : List Route → Act (List (Route × Option Text.Bytes))
  | [] => return []
  | route :: rest => do
    let content ← readCurrent route
    return (route, content) :: (← readAll rest)

/-- Writes the backup files of entries. -/
def writeContents (location : Path) :
    List (ManifestEntry × Option Text.Bytes) → Act (Except FileError Unit)
  | [] => return .ok ()
  | (entry, content) :: rest => do
    match entry.backup, content with
    | some name, some content =>
      match ← Act.replaceContent (location.child name) content with
      | .ok () => writeContents location rest
      | .error e => return .error e
    | _, _ => writeContents location rest

/-- Writes a snapshot into its directory, which must be new. -/
def writeAll (s : Store) (snapshot : Snapshot) : Act (Except FileError Unit) := do
  let createdAt := Calendar.stampText (← MonadState.get).files.tick
  match ← Act.tryFiles (FileAct.makePath snapshot.location false) with
  | .error e => return .error e
  | .ok () =>
    let entries := snapshot.files.mapIdx fun index file =>
      (ManifestEntry.ofFile s.project createdAt index file, file.2)
    match ← writeContents snapshot.location entries with
    | .error e => return .error e
    | .ok () =>
      Act.replaceContent (snapshot.location.child manifestName)
        (Text.encode (manifestText snapshot.runId snapshot.key (entries.map (·.1))))

/-- Records what files hold, and writes it. -/
def snapshot (s : Store) (runId key : String) (files : List Path) : Act (Snapshot × Store) := do
  checkNames runId key
  if (s.get runId key).isSome then throw (.backup (.duplicate runId key))
  let location := s.location runId key
  if ← Act.onFiles (FileAct.present location) then throw (.backup (.occupied location.text))
  let routes := (distinct (← files.mapM s.resolve)).mergeSort Route.le
  let snapshot : Snapshot := ⟨runId, key, ← readAll routes, location⟩
  if location.hasNul then throw (.invalid .nul)
  match ← s.writeAll snapshot with
  | .error e =>
    Act.log .error "snapshot_failed"
      [("key", key), ("location", location.text), ("error", e.message)]
    let _ ← Act.tryFiles (FileAct.removeTree location)
    throw (.backup (.unwritable location.text e))
  | .ok () =>
    Act.log .info "snapshot_created"
      [("key", key), ("files", snapshot.fileCount), ("location", location.text)]
    return (snapshot, s.hold snapshot)

/-- Holds a snapshot that is a part of another one; nothing is written. -/
def record (s : Store) (snapshot : Snapshot) : Act Store := do
  if (s.get snapshot.runId snapshot.key).isSome then
    throw (.backup (.duplicate snapshot.runId snapshot.key))
  Act.log .debug "snapshot_reused" [("key", snapshot.key), ("files", snapshot.fileCount)]
  return s.hold snapshot

/-- Forgets the snapshots of a run. -/
def discard (s : Store) (runId : String) : Store :=
  { s with held := s.held.filter fun h => h.1.1 != runId }

/-- The runs whose snapshots are held, sorted. -/
def heldRuns (s : Store) : List String :=
  (distinct (s.held.map fun h => h.1.1)).mergeSort fun a b => !decide (b < a)

/-! ### Putting files back -/

/-- Puts one file back. -/
def restoreFile (route : Route) (content : Option Text.Bytes) : Act (Except FileError Unit) :=
  match content with
  | none => Act.tryFiles (FileAct.unlinkIfThere (Route.path route))
  | some content => Act.replaceContent (Route.path route) content

/-- Puts files back and returns those for which that failed. -/
def restoreFiles : List (Route × Option Text.Bytes) → Act (List Route)
  | [] => return []
  | (route, content) :: rest => do
    match ← restoreFile route content with
    | .ok () => restoreFiles rest
    | .error e =>
      Act.log .error "rollback_failed" [("path", Route.text route), ("error", e.message)]
      return route :: (← restoreFiles rest)

/-- The digest of what is at a route, none if that is no file. -/
def currentDigest (route : Route) : Act (Option String) := do
  if ← Act.onFiles (FileAct.isFile (Route.path route)) then
    return some (Digest.ofBytes (← Act.onFiles (FileAct.read (Route.path route))))
  else return none

/-- The files that do not hold what they should, those that failed before left out. -/
def findAltered (failed : List Route) : List (Route × Option String) → Act (List Route)
  | [] => return []
  | (route, expected) :: rest => do
    if failed.contains route then findAltered failed rest
    else if (← currentDigest route) = expected then findAltered failed rest
    else
      Act.log .error "rollback_failed"
        [("path", Route.text route), ("reason", "hash_mismatch")]
      return route :: (← findAltered failed rest)

/-- Puts every file of a snapshot back and checks it. All files are tried; if any of them fails,
the failure names them all. -/
def restore (snapshot : Snapshot) : Act (List Route) := do
  Act.log .info "rollback_started" [("key", snapshot.key), ("files", snapshot.fileCount)]
  let failed ← restoreFiles snapshot.files
  let altered ← findAltered failed snapshot.digests
  if !(failed ++ altered).isEmpty then
    throw (.rollback ((failed ++ altered).map Route.text) snapshot.fileCount)
  Act.log .info "rollback_complete" [("key", snapshot.key), ("files", snapshot.fileCount)]
  return snapshot.paths

/-! ### Reading back -/

/-- Adds what an entry of a manifest describes to the files of a snapshot. -/
def loadEntry (s : Store) (location : Path) (done : List (Route × Option Text.Bytes))
    (entry : Json) : Act (List (Route × Option Text.Bytes)) := do
  let path ← Act.ofExcept ((← Act.ofExcept (entry.demand "path")).text)
  let route ← s.resolve (Path.ofString path)
  let stamp ← Act.ofExcept ((← Act.ofExcept (entry.demand "created_at")).text)
  match Calendar.checkStamp stamp with
  | .error cause => throw (.invalid cause)
  | .ok () =>
    if !(← Act.ofExcept (entry.demand "existed")).truthy then return Snapshot.put route none done
    let name ← Act.ofExcept (← Act.ofExcept (entry.demand "backup")).text
    let backup := location.join (Path.ofString name)
    if backup.hasNul then throw (.invalid .nul)
    match ← Act.tryFiles (FileAct.read backup) with
    | .error e => throw (.backup (.missingFile path e))
    | .ok content =>
      if (← Act.ofExcept (entry.demand "sha256")) == .str (Digest.ofBytes content) then
        return Snapshot.put route (some content) done
      else throw (.backup (.corruptFile path))

/-- Reads a snapshot back from its directory. -/
def load (s : Store) (runId key : String) : Act Snapshot := do
  checkNames runId key
  let location := s.location runId key
  let manifest := location.child manifestName
  if manifest.hasNul then
    throw (.backup (.damagedManifest manifest.text Invalid.nul.message))
  match ← Act.tryFiles (FileAct.read manifest) with
  | .error e =>
    if e.errno = .notFound then throw (.backup (.absent runId key))
    throw (.backup (.damagedManifest manifest.text e.message))
  | .ok content =>
    match readManifest content with
    | .error reason => throw (.backup (.damagedManifest manifest.text reason))
    | .ok j =>
      let files ← (← Act.ofExcept (manifestEntries j)).foldlM (s.loadEntry location) []
      return ⟨runId, key, files, location⟩

/-- Whether a run may stand before another: the one that was changed last comes first. -/
def newer (a b : Int × String) : Bool :=
  decide (b.1 < a.1) || (a.1 == b.1 && !decide (a.2 < b.2))

/-- The runs that have backups, the newest first. -/
def runs (s : Store) : FileAct (List String) := do
  if !(← FileAct.isDirectory s.root) then return []
  let names := (← FileAct.list s.root).filter fun name => !(name.toList.head? == some '.')
  let dated ← names.filterMapM fun name => do
    if ← FileAct.isDirectory (s.root.child name) then
      return some (← FileAct.changed (s.root.child name), name)
    else return none
  return (dated.mergeSort newer).map (·.2)

/-- The keys of a run that have a manifest. -/
def keys (s : Store) (runId : String) : FileAct (List String) := do
  let directory := s.root.join (Path.ofString runId)
  if !(← FileAct.isDirectory directory) then return []
  (← FileAct.list directory).filterM fun name =>
    FileAct.isFile ((directory.child name).child manifestName)

end Store

end Remedy
