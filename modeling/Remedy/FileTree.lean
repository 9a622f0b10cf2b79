import Remedy.Path

/-!
File trees. A tree assigns a node to each route that is taken; a directory is a node of its own, and
the root directory is always there. `walk` follows a path as far as the tree goes, through links:
it ends at a node, or at a free name in a directory, or is refused. A name may have at most 255
bytes, and at most forty links are followed.

Directories remember when a name in them was last added or taken away, in nanoseconds; each change
of the tree takes place one tick later than the one before.
-/

set_option autoImplicit false

namespace Remedy

inductive Node where
  | file (content : Text.Bytes) (mode : Nat)
  | directory (changed : Int)
  | link (target : String)
  deriving DecidableEq, Repr, Inhabited

namespace Node

def isFile : Node → Bool
  | .file _ _ => true
  | _ => false

def isDirectory : Node → Bool
  | .directory _ => true
  | _ => false

end Node

structure FileTree where
  entries : List (Route × Node)
  tick : Int
  /-- The directory from which relative paths start. -/
  directory : Route
  deriving Inhabited

inductive Errno where
  | notFound
  | exists
  | notDirectory
  | isDirectory
  | nameTooLong
  | linkLoop
  deriving DecidableEq, Repr

def Errno.number : Errno → Nat
  | .notFound => 2
  | .exists => 17
  | .notDirectory => 20
  | .isDirectory => 21
  | .nameTooLong => 36
  | .linkLoop => 40

def Errno.message : Errno → String
  | .notFound => "No such file or directory"
  | .exists => "File exists"
  | .notDirectory => "Not a directory"
  | .isDirectory => "Is a directory"
  | .nameTooLong => "File name too long"
  | .linkLoop => "Too many levels of symbolic links"

/-- Where a path leads. -/
inductive Place where
  | at (route : Route) (node : Node)
  | free (directory : Route) (name : String)
  deriving Repr

namespace FileTree

def empty : FileTree := ⟨[], 1790000000000000000, []⟩

def find (route : Route) : List (Route × Node) → Option Node
  | [] => none
  | (r, node) :: rest => if r = route then some node else find route rest

def node? (t : FileTree) (route : Route) : Option Node :=
  if route = [] then some ((find [] t.entries).getD (.directory 0)) else find route t.entries

def nameLimit : Nat := 255
def pathLimit : Nat := 4095
def linkLimit : Nat := 40

/-- Follows `names` from the directory `here`. A link is handed to `follow` with the names that
come after it, save that the last name stays a link if `whole` is false. -/
def walkFrom (t : FileTree) (whole : Bool)
    (follow : Route → String → List String → Except Errno Place) (here : Route) :
    List String → Except Errno Place
  | [] => .ok (.at here ((t.node? here).getD (.directory 0)))
  | name :: rest =>
    if name = ".." then t.walkFrom whole follow here.dropLast rest
    else if nameLimit < name.utf8ByteSize then .error .nameTooLong
    else
      match t.node? (here ++ [name]) with
      | none => if rest.isEmpty then .ok (.free here name) else .error .notFound
      | some (.directory _) => t.walkFrom whole follow (here ++ [name]) rest
      | some (.file content mode) =>
        if rest.isEmpty then .ok (.at (here ++ [name]) (.file content mode))
        else .error .notDirectory
      | some (.link target) =>
        if rest.isEmpty && !whole then .ok (.at (here ++ [name]) (.link target))
        else follow here target rest

/-- Follows a path with at most `links` links on the way. -/
def walkWithin (t : FileTree) (whole : Bool) : (links : Nat) → Route → List String →
    Except Errno Place
  | 0, here, names => t.walkFrom whole (fun _ _ _ => .error .linkLoop) here names
  | links + 1, here, names =>
    t.walkFrom whole (fun here target rest =>
      let path := Path.ofString target
      t.walkWithin whole links (if path.isAbsolute then [] else here) (path.names ++ rest))
      here names

def start (t : FileTree) (p : Path) : Route := if p.isAbsolute then [] else t.directory

/-- Where a path leads, a link at its end being followed. -/
def walk (t : FileTree) (p : Path) : Except Errno Place :=
  if pathLimit < p.text.utf8ByteSize then .error .nameTooLong
  else t.walkWithin true linkLimit (t.start p) p.names

/-- Where a path leads, a link at its end being what it leads to. -/
def walkToLink (t : FileTree) (p : Path) : Except Errno Place :=
  if pathLimit < p.text.utf8ByteSize then .error .nameTooLong
  else t.walkWithin false linkLimit (t.start p) p.names

/-! ### Changes -/

def later (t : FileTree) : FileTree := { t with tick := t.tick + 1000000 }

def store (route : Route) (node : Node) : List (Route × Node) → List (Route × Node)
  | [] => [(route, node)]
  | (r, n) :: rest => if r = route then (r, node) :: rest else (r, n) :: store route node rest

/-- Puts a node at a route, in the place of what is there. -/
def set (t : FileTree) (route : Route) (node : Node) : FileTree :=
  { t with entries := store route node t.entries }

/-- Marks a directory as changed now. -/
def touch (t : FileTree) (route : Route) : FileTree :=
  match t.node? route with
  | some (.directory _) => (t.later).set route (.directory t.later.tick)
  | _ => t

/-- Puts a node under a name of a directory. -/
def add (t : FileTree) (directory : Route) (name : String) (node : Node) : FileTree :=
  (t.set (directory ++ [name]) node).touch directory

/-- Takes away the node at a route and all that lies below it. -/
def remove (t : FileTree) (route : Route) : FileTree :=
  ({ t with entries := t.entries.filter fun e => !route.isPrefixOf e.1 } : FileTree).touch
    route.dropLast

/-- The names in a directory, sorted. -/
def children (t : FileTree) (route : Route) : List String :=
  (t.entries.filterMap fun e =>
    if e.1 ≠ [] ∧ e.1.dropLast = route then e.1.getLast? else none).mergeSort (fun a b => !(b < a))

/-- Everything at or below a route, by the names below it. -/
def below (t : FileTree) (route : Route) : List (Route × Node) :=
  t.entries.filterMap fun e => (Route.below? route e.1).map (·, e.2)

end FileTree

end Remedy
