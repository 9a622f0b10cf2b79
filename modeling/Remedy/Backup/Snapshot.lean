import Remedy.Digest
import Remedy.FileTree.Resolution

/-!
Snapshots: what a set of files held at one moment. A file that did not exist is recorded as such;
restoring it takes it away.
-/

set_option autoImplicit false

namespace Remedy

structure Snapshot where
  runId : String
  key : String
  /-- Each file once, with its content or without one. -/
  files : List (Route × Option Text.Bytes)
  /-- The directory in which the snapshot is kept. -/
  location : Path
  deriving DecidableEq, Repr, Inhabited

def Digest.ofContent (content : Option Text.Bytes) : Option String := content.map Digest.ofBytes

/-- Whether a route may stand before another: name by name. -/
def Route.le (a b : Route) : Bool := !decide (b < a)

namespace Snapshot

/-- What is recorded of a file, none if the file is not in the snapshot. -/
def find? (route : Route) :
    List (Route × Option Text.Bytes) → Option (Option Text.Bytes)
  | [] => none
  | (r, content) :: rest => if r = route then some content else find? route rest

/-- Records the content of a file, in the place of what was recorded of it. -/
def put (route : Route) (content : Option Text.Bytes) :
    List (Route × Option Text.Bytes) → List (Route × Option Text.Bytes)
  | [] => [(route, content)]
  | (r, c) :: rest =>
    if r = route then (r, content) :: rest else (r, c) :: put route content rest

def paths (s : Snapshot) : List Route := s.files.map (·.1)

def fileCount (s : Snapshot) : Nat := s.files.length

def covers (s : Snapshot) (routes : List Route) : Bool :=
  routes.all fun route => (find? route s.files).isSome

/-- Adds what a snapshot records of a file, which has to be one of its own. -/
def pick (s : Snapshot) (done : List (Route × Option Text.Bytes)) (route : Route) :
    Except Fault (List (Route × Option Text.Bytes)) :=
  match find? route s.files with
  | some content => .ok (put route content done)
  | none => .error (.misuse (.missingField (Route.text route)))

/-- The part of a snapshot that is about some of its files, under another key. -/
def restrict (s : Snapshot) (routes : List Route) (key : String) : Except Fault Snapshot := do
  let files ← routes.foldlM s.pick []
  return { s with key := key, files := files }

def digests (s : Snapshot) : List (Route × Option String) :=
  s.files.map fun f => (f.1, Digest.ofContent f.2)

end Snapshot

end Remedy
