import Remedy.Fault

/-!
Resolution of paths. A resolved path names every directory on the way and no link, and exists as far
as the tree goes: names that are not there are kept as they are, and two dots take away the name
before them. Links that lead in a circle are an error, unless two dots lead out of it.
-/

set_option autoImplicit false

namespace Remedy.FileTree

/-- Where the names of a path lead. In `stuck` a link led back to itself, and the names from there
on are left as they were. -/
inductive Resolved where
  | done (route : Route)
  | stuck (names : List String)
  deriving DecidableEq, Repr

/-- Resolves `names` from the directory `here`. The links that are being followed are `active`, and
`follow` resolves the target of one more. -/
def resolveFrom (t : FileTree) (active : List Route)
    (follow : List Route → Route → String → Resolved) (here : Route) : List String → Resolved
  | [] => .done here
  | name :: rest =>
    if name = ".." then t.resolveFrom active follow here.dropLast rest
    else
      match t.node? (here ++ [name]) with
      | some (.link target) =>
        if active.contains (here ++ [name]) then .stuck (here ++ name :: rest)
        else
          match follow ((here ++ [name]) :: active) here target with
          | .done route => t.resolveFrom active follow route rest
          | .stuck names => .stuck (names ++ rest)
      | _ => t.resolveFrom active follow (here ++ [name]) rest

/-- Resolution through at most `depth` links inside each other. -/
def resolveWithin (t : FileTree) : (depth : Nat) → List Route → Route → List String → Resolved
  | 0, active, here, names => t.resolveFrom active (fun _ here _ => .stuck here) here names
  | depth + 1, active, here, names =>
    t.resolveFrom active (fun active here target =>
      let path := Path.ofString target
      t.resolveWithin depth active (if path.isAbsolute then [] else here) path.names) here names

/-- Two dots take away the name before them. -/
def withoutDots (names : List String) : Route :=
  names.foldl (fun route name => if name = ".." then route.dropLast else route ++ [name]) []

/-- The route that a path resolves to. No more links than there are can be inside each other. -/
def resolve (t : FileTree) (p : Path) : Except Fault Route :=
  if p.hasNul then .error (.invalid .nul)
  else
    match t.resolveWithin (t.entries.length + 1) [] (t.start p) p.names with
    | .done route => .ok route
    | .stuck names =>
      let route := withoutDots names
      match t.walk (Route.path route) with
      | .error .linkLoop => .error (.linkLoop (Route.text route))
      | _ => .ok route

end Remedy.FileTree
