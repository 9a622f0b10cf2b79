import Remedy.Backup.Snapshot
import Remedy.Calendar
import Remedy.Json.Record
import Remedy.Text.Blank

/-!
Manifests: the files in which snapshots are described. For each file of a snapshot a manifest names
the path, the backup file, the digest of the content and whether the file existed at all. A path
inside the project is written from the project on.

What is read may have any shape; `Json.demand`, `Json.each` and `Json.text` refuse what is not as it
should be.
-/

set_option autoImplicit false

namespace Remedy

def manifestName : String := "manifest.json"

/-- A path as it is shown: from the project on if it lies inside. -/
def Route.shownFrom (project route : Route) : String :=
  match Route.below? project route with
  | some names => Path.text ⟨.none, names⟩
  | none => Route.text route

/-- The name of the backup file of a path: its place in the snapshot and the path as one name. -/
def backupName (index : Nat) (shown : String) : String :=
  let flat := shown.toList.flatMap fun c => if c = '/' ∨ c = '\\' then ['_', '_'] else [c]
  Calendar.padded 4 index ++ "-" ++ String.ofList (flat.dropWhile (· = '_'))

structure ManifestEntry where
  path : String
  backup : Option String
  sha256 : Option String
  createdAt : String
  deriving Repr

namespace ManifestEntry

def ofFile (project : Route) (createdAt : String) (index : Nat)
    (file : Route × Option Text.Bytes) : ManifestEntry :=
  let shown := Route.shownFrom project file.1
  { path := shown
    backup := file.2.map fun _ => backupName index shown
    sha256 := Digest.ofContent file.2
    createdAt := createdAt }

def json (e : ManifestEntry) : Json :=
  .obj [
    ("path", e.path),
    ("backup", Json.ofOption .str e.backup),
    ("sha256", Json.ofOption .str e.sha256),
    ("existed", e.backup.isSome),
    ("created_at", e.createdAt)]

end ManifestEntry

/-- The text of a manifest. -/
def manifestText (runId key : String) (entries : List ManifestEntry) : String :=
  Json.pretty (.obj [("run_id", runId), ("key", key),
    ("files", .arr (entries.map ManifestEntry.json))])

/-- The value in a manifest. Line breaks of any kind count as one character. -/
def readManifest (content : Text.Bytes) : Except String Json :=
  match Text.decodeStrict content with
  | .error e => .error e.message
  | .ok text =>
    match Json.parse (String.ofList (Text.lineFeeds text.toList)) with
    | .error e => .error e.message
    | .ok j => .ok j

namespace Json

/-- The field of a record, which has to be there. -/
def demand (j : Json) (name : String) : Except Fault Json :=
  match j with
  | .obj fields =>
    match lookup name fields with
    | some value => .ok value
    | none => .error (.misuse (.missingField name))
  | _ => .error (.misuse .wrongType)

/-- What a value holds one after the other when it is gone through. -/
def each (j : Json) : Except Fault (List Json) :=
  match j.parts? with
  | some parts => .ok parts
  | none => .error (.misuse .wrongType)

/-- The text that a value is. -/
def text (j : Json) : Except Fault String :=
  match j with
  | .str s => .ok s
  | _ => .error (.misuse .wrongType)

end Json

/-- The entries of a manifest. -/
def manifestEntries (manifest : Json) : Except Fault (List Json) :=
  match manifest with
  | .obj fields => ((Json.lookup "files" fields).getD (.arr [])).each
  | _ => .error (.misuse .noMember)

end Remedy
