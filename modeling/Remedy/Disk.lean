import Remedy.FileTree

/-!
The disk. What lies below some places of it is read into a file tree, and what a tree has become is
written back: what is gone from the tree is removed, and what is new or has changed is written.

A link on the disk is read as a link to the place where it ends. Links are not written, and all
files that are read count as readable and writable by their owner and readable by others.
-/

set_option autoImplicit false

namespace Remedy.Disk

def fileMode : Nat := 0o644

/-- A moment in nanoseconds. -/
def nanoseconds (t : IO.FS.SystemTime) : Int := t.sec * 1000000000 + t.nsec.toNat

/-- The moment at which a place was last changed, or the start of time if there is none there. -/
def moment (place : String) : IO Int := do
  try return nanoseconds (← ((← IO.currentDir) / place).metadata).modified catch _ => return 0

/-- What lies at a route and, for a directory, below it, at most `depth` names deep. A route at
which nothing lies has no nodes. -/
def nodes : (depth : Nat) → Route → IO (List (Route × Node))
  | depth, route => do
    let place := (← IO.currentDir) / Route.text route
    try
      let info ← place.symlinkMetadata
      match info.type, depth with
      | .symlink, _ => return [(route, .link (← IO.FS.realPath place).toString)]
      | .dir, 0 => return [(route, .directory (nanoseconds info.modified))]
      | .dir, depth + 1 =>
        let inside ← (← place.readDir).toList.mapM fun e => nodes depth (route ++ [e.fileName])
        return (route, .directory (nanoseconds info.modified)) :: inside.flatten
      | _, _ => return [(route, .file (← IO.FS.readBinFile place).toList fileMode)]
    catch _ => return []

/-- A path on the disk as a route, its links followed. -/
def route (p : Path) : IO Route := do
  let place := (← IO.currentDir) / p.text
  let whole ← try IO.FS.realPath place catch _ => pure place
  return (Path.ofString whole.toString).names

/-- Reads what lies below some routes, and the directories on the way to them. The machine's own
record of the process, where there is one, tells what time it is. -/
def load (routes : List Route) : IO FileTree := do
  let here ← route (Path.ofString ".")
  let above := (here :: routes).flatMap fun r => (List.range r.length).map r.take
  let outer ← above.mapM (nodes 0)
  let inner ← routes.mapM (nodes (FileTree.pathLimit / 2))
  let entries := (outer ++ [← nodes 0 here] ++ inner).flatten.foldl
    (fun entries e => FileTree.store e.1 e.2 entries) []
  let moments := entries.map fun e =>
    match e.2 with
    | .directory changed => changed
    | _ => 0
  return ⟨entries, moments.foldl max (← moment "/proc/self"), here⟩

/-- Whether what lies at a route has to make way for what takes its place. -/
def isGone (after : FileTree) (e : Route × Node) : Bool :=
  match e.2, after.node? e.1 with
  | .file _ _, some (.file _ _) => false
  | .directory _, some (.directory _) => false
  | .link target, some (.link other) => target != other
  | _, _ => true

/-- Makes the disk, which holds what `before` says, hold what `after` says. -/
def save (before after : FileTree) : IO Unit := do
  let here ← IO.currentDir
  for (r, node) in (before.entries.filter (isGone after)).mergeSort
      fun a b => decide (b.1.length ≤ a.1.length) do
    if node.isDirectory then IO.FS.removeDir (here / Route.text r)
    else IO.FS.removeFile (here / Route.text r)
  for (r, node) in after.entries.mergeSort fun a b => decide (a.1.length ≤ b.1.length) do
    match node, before.node? r with
    | .directory _, some (.directory _) => pure ()
    | .directory _, _ => IO.FS.createDirAll (here / Route.text r)
    | .file content mode, old =>
      if old != some (.file content mode) then
        IO.FS.writeBinFile (here / Route.text r) ⟨content.toArray⟩
    | .link _, _ => pure ()

end Remedy.Disk
