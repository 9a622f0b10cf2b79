import Remedy.Text.Search
import Remedy.Text.Utf8

/-!
Paths as they are written. A path is a root and a list of names: repeated slashes, single dots and
a final slash leave no name, while two dots stay, since what they mean depends on links. Paths are
ordered name by name, so that what lies below a directory stands together.
-/

set_option autoImplicit false

namespace Remedy

/-- What a path starts from. Exactly two slashes in front are a root of their own. -/
inductive PathRoot where
  | none
  | slash
  | twoSlashes
  deriving DecidableEq, Repr, Inhabited

structure Path where
  root : PathRoot
  names : List String
  deriving DecidableEq, Repr, Inhabited

namespace Path

def isName (piece : List Char) : Bool := !piece.isEmpty && piece != ['.']

def ofChars (cs : List Char) : Path :=
  let root :=
    match cs with
    | '/' :: '/' :: '/' :: _ => .slash
    | '/' :: '/' :: _ => .twoSlashes
    | '/' :: _ => .slash
    | _ => .none
  ⟨root, ((Text.pieces '/' cs).filter isName).map String.ofList⟩

def ofString (s : String) : Path := ofChars s.toList

def PathRoot.text : PathRoot → String
  | .none => ""
  | .slash => "/"
  | .twoSlashes => "//"

def text (p : Path) : String :=
  match p.root, p.names with
  | .none, [] => "."
  | root, names => PathRoot.text root ++ String.intercalate "/" names

def isAbsolute (p : Path) : Bool := p.root != .none

/-- The path `q` as seen from `p`. -/
def join (p q : Path) : Path := if q.isAbsolute then q else ⟨p.root, p.names ++ q.names⟩

def child (p : Path) (name : String) : Path := ⟨p.root, p.names ++ [name]⟩

def parent (p : Path) : Path := ⟨p.root, p.names.dropLast⟩

def name (p : Path) : String := p.names.getLast?.getD ""

/-- The names that order paths, the root being one of them. -/
def key (p : Path) : List String :=
  if p.root = .none then p.names else PathRoot.text p.root :: p.names

def le (p q : Path) : Bool := !decide (q.key < p.key)

def hasNul (p : Path) : Bool := p.names.any fun name => name.toList.any (· == '\x00')

end Path

/-- The place of a file that a path leads to: the names below the root directory. -/
abbrev Route := List String

def Route.path (r : Route) : Path := ⟨.slash, r⟩

def Route.text (r : Route) : String := (Route.path r).text

/-- The names of `r` below `base`, if `r` lies there. -/
def Route.below? (base r : Route) : Option Route :=
  if base.isPrefixOf r then some (r.drop base.length) else none

end Remedy
