import Remedy.Fault

/-!
Operations on file trees, each of which a file system carries out as one step or refuses. A refusal
names the path that was asked for and leaves the tree as it was. `replaceContent` is the one
operation of several steps: it writes the new content beside the file under a name of its own and
moves it over the file in one step, so that the file never holds a part of it.
-/

set_option autoImplicit false

namespace Remedy

abbrev FileAct := ExceptT FileError (StateM FileTree)

namespace FileAct

def refuse {α : Type} (errno : Errno) (p : Path) : FileAct α := throw ⟨errno, p.text, none⟩

/-- Where a path leads, a link at its end being followed. -/
def place (p : Path) : FileAct Place := do
  match (← get).walk p with
  | .ok place => return place
  | .error errno => refuse errno p

def linkPlace (p : Path) : FileAct Place := do
  match (← get).walkToLink p with
  | .ok place => return place
  | .error errno => refuse errno p

/-- Whether something with a property is at a path. Nothing is there if the path breaks off. -/
def holds (p : Path) (property : Node → Bool) : FileAct Bool := do
  if p.hasNul then return false
  match (← get).walk p with
  | .ok (.at _ node) => return property node
  | .ok (.free _ _) => return false
  | .error .nameTooLong => refuse .nameTooLong p
  | .error _ => return false

def present (p : Path) : FileAct Bool := holds p fun _ => true
def isFile (p : Path) : FileAct Bool := holds p Node.isFile
def isDirectory (p : Path) : FileAct Bool := holds p Node.isDirectory

def read (p : Path) : FileAct Text.Bytes := do
  match ← place p with
  | .at _ (.file content _) => return content
  | .at _ _ => refuse .isDirectory p
  | .free _ _ => refuse .notFound p

def makeDirectory (p : Path) : FileAct Unit := do
  match ← linkPlace p with
  | .at _ _ => refuse .exists p
  | .free directory name =>
    modify fun t => t.add directory name (.directory t.later.tick)

/-- Makes a directory; if `mayExist`, one that is already there will do. -/
def ensureDirectory (p : Path) (mayExist : Bool) : FileAct Unit :=
  tryCatch (makeDirectory p) fun e => do
    if e.errno = .notFound then throw e
    else if mayExist && (← isDirectory p) then return ()
    else throw e

/-- Makes a directory and, where they are missing, those above it. -/
def makeDirectories (mayExist : Bool) : (depth : Nat) → Path → FileAct Unit
  | 0, p => ensureDirectory p mayExist
  | depth + 1, p =>
    tryCatch (ensureDirectory p mayExist) fun e => do
      if e.errno = .notFound ∧ e.path = p.text ∧ p.names ≠ [] then
        makeDirectories true depth p.parent
        ensureDirectory p mayExist
      else throw e

def makePath (p : Path) (mayExist : Bool) : FileAct Unit :=
  makeDirectories mayExist p.names.length p

/-- Opens a file for writing, empty, and returns its route. -/
def openEmpty (p : Path) : FileAct Route := do
  match ← place p with
  | .at route (.file _ mode) =>
    modify fun t => t.set route (.file [] mode)
    return route
  | .at _ _ => refuse .isDirectory p
  | .free directory name =>
    modify fun t => t.add directory name (.file [] 0o644)
    return directory ++ [name]

/-- Adds bytes at the end of a file that is open at a route. -/
def append (route : Route) (content : Text.Bytes) : FileAct Unit :=
  modify fun t =>
    match t.node? route with
    | some (.file old mode) => t.set route (.file (old ++ content) mode)
    | _ => t

/-- Writes a file in place, following links. -/
def write (p : Path) (content : Text.Bytes) : FileAct Unit := do
  append (← openEmpty p) content

/-- Opens a file for writing at its end and returns its route. -/
def openEnd (p : Path) : FileAct Route := do
  match ← place p with
  | .at route (.file _ _) => return route
  | .at _ _ => refuse .isDirectory p
  | .free directory name =>
    modify fun t => t.add directory name (.file [] 0o644)
    return directory ++ [name]

def mode (p : Path) : FileAct Nat := do
  match ← place p with
  | .at _ (.file _ mode) => return mode
  | .at _ _ => return 0o755
  | .free _ _ => refuse .notFound p

def setMode (p : Path) (mode : Nat) : FileAct Unit := do
  match ← place p with
  | .at route (.file content _) => modify fun t => t.set route (.file content mode)
  | .at _ _ => return ()
  | .free _ _ => refuse .notFound p

def makeLink (p : Path) (target : String) : FileAct Unit := do
  match ← linkPlace p with
  | .at _ _ => refuse .exists p
  | .free directory name => modify fun t => t.add directory name (.link target)

/-- Moves a file to another path in one step, in the place of a file or link that is there. -/
def move (p q : Path) : FileAct Unit := do
  let refuse (errno : Errno) : FileAct Unit := throw ⟨errno, p.text, some q.text⟩
  let t ← get
  match t.walkToLink p with
  | .error errno => refuse errno
  | .ok (.free _ _) => refuse .notFound
  | .ok (.at source node) =>
    match t.walkToLink q with
    | .error errno => refuse errno
    | .ok (.at _ (.directory _)) => refuse .isDirectory
    | .ok (.at target _) =>
      set ((t.remove source).add target.dropLast (target.getLast?.getD "") node)
    | .ok (.free directory name) => set ((t.remove source).add directory name node)

def unlink (p : Path) : FileAct Unit := do
  match ← linkPlace p with
  | .at _ (.directory _) => refuse .isDirectory p
  | .at route _ => modify fun t => t.remove route
  | .free _ _ => refuse .notFound p

/-- Takes a file away if it is there. -/
def unlinkIfThere (p : Path) : FileAct Unit :=
  tryCatch (unlink p) fun e => if e.errno = .notFound then return () else throw e

/-- Takes a directory away with all that is in it, as far as that is possible. -/
def removeTree (p : Path) : FileAct Unit := do
  match (← get).walkToLink p with
  | .ok (.at route (.directory _)) => modify fun t => t.remove route
  | _ => return ()

/-- Takes away whatever is at a path. -/
def remove (p : Path) : FileAct Unit := do
  match (← get).walkToLink p with
  | .ok (.at route _) => modify fun t => t.remove route
  | _ => return ()

/-- The names in a directory, sorted. -/
def list (p : Path) : FileAct (List String) := do
  match ← place p with
  | .at route (.directory _) => return (← get).children route
  | .at _ _ => refuse .notDirectory p
  | .free _ _ => refuse .notFound p

/-- When a name was last added to a directory or taken away from it. -/
def changed (p : Path) : FileAct Int := do
  match ← place p with
  | .at _ (.directory changed) => return changed
  | .at _ _ => return 0
  | .free _ _ => refuse .notFound p

def setChanged (p : Path) (moment : Int) : FileAct Unit := do
  match ← place p with
  | .at route (.directory _) => modify fun t => t.set route (.directory moment)
  | .at _ _ => return ()
  | .free _ _ => refuse .notFound p

/-- Runs an action and hands back its outcome. -/
def attempt {α : Type} (act : FileAct α) : FileAct (Except FileError α) := fun t =>
  let (outcome, t) := act t
  (.ok outcome, t)

/-- The name under which new content for `p` is gathered. -/
def draft (p : Path) (tag : String) : Path := p.parent.child s!".{p.name}.{tag}.tmp"

/-- Gathers new content beside a file and moves it over the file, keeping the mode. -/
def fillAndMove (p : Path) (content : Text.Bytes) (tag : String) : FileAct Unit := do
  let route ← openEmpty (draft p tag)
  append route content
  if ← present p then setMode (draft p tag) (← mode p)
  move (draft p tag) p

/-- Replaces the content of a file as a whole; the draft is gone afterwards in any case. -/
def replaceContent (p : Path) (content : Text.Bytes) (tag : String) : FileAct Unit := do
  makePath p.parent true
  let outcome ← attempt (fillAndMove p content tag)
  unlinkIfThere (draft p tag)
  match outcome with
  | .ok () => return ()
  | .error e => throw e

end FileAct

end Remedy
