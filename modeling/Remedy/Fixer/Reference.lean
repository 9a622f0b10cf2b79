import Remedy.Fixer.Registry
import Remedy.Text.Quoted

/-!
References to fixers. A reference names a module and, behind a colon, something in it, by a path of
names. What there is to refer to is a `Catalog`; from a class a fixer is made, an object with an
asynchronous method `fix` is one as it stands, and so is an asynchronous routine.
-/

set_option autoImplicit false

namespace Remedy

/-- Something that a reference may lead to. -/
inductive Thing where
  | group (name : String) (members : List (String × Thing))
  /-- A class, what its objects have, and what is wrong with making one. -/
  | blueprint (name : String) (members objectMembers : List (String × Thing))
      (refusal : Option String)
  | object (kind : String) (members : List (String × Thing))
  /-- A routine, asynchronous if its body is given, and whether it is a method of an object. -/
  | routine (name : String) (body : Option (FixRequest → Work FixReply)) ( isMethod : Bool := false)

/-- The modules that can be imported, by name. -/
abbrev Catalog := List (String × Thing)

namespace Thing

def members : Thing → List (String × Thing)
  | .group _ members => members
  | .blueprint _ members _ _ => members
  | .object _ members => members
  | .routine _ _ _ => []

/-- What is said of something that does not have a member. -/
def lacks (thing : Thing) (name : String) : String :=
  let whose := match thing with
    | .group module _ => s!"module {Text.quoted module}"
    | .blueprint name _ _ _ => s!"type object {Text.quoted name}"
    | .object kind _ => s!"{Text.quoted kind} object"
    | .routine _ _ isMethod => if isMethod then "'method' object" else "'function' object"
  s!"{whose} has no attribute {Text.quoted name}"

/-- A member of a name. The routines of an object are its methods. -/
def member? (thing : Thing) (name : String) : Option Thing :=
  match thing, Json.lookup name thing.members with
  | .object _ _, some (.routine name body _) => some (.routine name body true)
  | _, member => member

/-- Follows a path of names. -/
def follow (thing : Thing) : List String → Except String Thing
  | [] => .ok thing
  | name :: rest =>
    match thing.member? name with
    | some member => member.follow rest
    | none => .error (thing.lacks name)

/-- The body of an asynchronous method `fix`. -/
def fixMethod? (members : List (String × Thing)) : Option (FixRequest → Work FixReply) :=
  match Json.lookup "fix" members with
  | some (.routine _ body _) => body
  | _ => none

/-- The fixer that something is or makes. -/
def fixer (thing : Thing) (reference : String) : Except ConfigFault Fixer :=
  match thing with
  | .blueprint _ _ _ (some refusal) => .error (.notBuildable reference refusal)
  | .blueprint name _ members none =>
    match fixMethod? members with
    | some body => .ok { kind := name, fix := body }
    | none => .error (.notAFixer reference)
  | .object kind members =>
    match fixMethod? members with
    | some body => .ok { kind := kind, fix := body }
    | none => .error (.notAFixer reference)
  | .routine name (some body) _ => .ok { kind := "FunctionFixer", name := some name, fix := body }
  | _ => .error (.notAFixer reference)

end Thing

namespace Catalog

/-- The names of the modules that a module lies in, the outermost first, and its own. -/
def enclosing (outer : List String) : List String → List String
  | [] => []
  | part :: rest =>
    let names := outer ++ [part]
    String.intercalate "." names :: enclosing names rest

/-- Imports modules one after the other; `outer` is the one that was imported last. -/
def importChain (c : Catalog) (outer : Option String) : List String → Except String (Option Thing)
  | [] => .ok (outer.bind fun name => Json.lookup name c)
  | name :: rest =>
    match Json.lookup name c with
    | some _ => c.importChain (some name) rest
    | none =>
      .error (s!"No module named {Text.quoted name}" ++
        match outer with
        | none => ""
        | some outer => s!"; {Text.quoted outer} is not a package")

/-- The fixer that a reference leads to. -/
def load (c : Catalog) (reference : String) : Except Fault Fixer := do
  let cs := reference.toList
  let module := String.ofList (cs.takeWhile (· ≠ ':'))
  let path := String.ofList ((cs.dropWhile (· ≠ ':')).drop 1)
  if module.isEmpty ∨ path.isEmpty then
    throw (.config (.malformedReference reference))
  if cs.head? = some '.' then throw (.misuse .wrongType)
  let parts (s : String) := (Text.pieces '.' s.toList).map String.ofList
  match c.importChain none (enclosing [] (parts module)) with
  | .error reason => throw (.config (.missingModule module reason))
  | .ok none => throw (.config (.missingModule module ""))
  | .ok (some thing) =>
    match thing.follow (parts path) with
    | .error reason => throw (.config (.missingAttribute reference reason))
    | .ok thing =>
      match thing.fixer reference with
      | .error cause => throw (.config cause)
      | .ok fixer => return fixer

end Catalog

namespace Registry

/-- Adds the fixers that references lead to, by the names of their root causes. -/
def loadAll (c : Catalog) (r : Registry) : List (String × String) → Act Registry
  | [] => return r
  | (name, reference) :: rest => do
    match c.load reference with
    | .error fault => throw fault
    | .ok fixer =>
      match ← attempt (r.register name (some fixer)) with
      | .error fault => throw (.config (.refused fault.message))
      | .ok r => loadAll c r rest

/-- The registry of the fixers that references lead to. -/
def ofReferences (c : Catalog) (references : List (String × String)) : Act Registry := do
  let r ← loadAll c [] references
  Act.log .info "fixers_loaded" [("root_causes", .strs (r.causes.map (·.name)))]
  return r

end Registry

end Remedy
