import Remedy.Fault

/-!
References to variables in a text: a dollar sign and a name in braces. Each reference is replaced by
the value of its variable, which is not looked at again; a name without a variable is an error.
-/

set_option autoImplicit false

namespace Remedy

/-- The name in the reference with which a text starts, and what follows the reference. -/
def readReference : List Char → Option (List Char × List Char)
  | '$' :: '\x7b' :: rest =>
    let name := rest.takeWhile (· ≠ '\x7d')
    if name.isEmpty || name.length = rest.length then none
    else some (name, rest.drop (name.length + 1))
  | _ => none

/-- A text with its references replaced; the first `passed` characters belong to a reference that
was replaced already. -/
def substituteFrom (bindings : List (String × String)) (passed : Nat) :
    List Char → Except Invalid (List Char)
  | [] => .ok []
  | c :: rest =>
    match passed with
    | passed + 1 => substituteFrom bindings passed rest
    | 0 =>
      match readReference (c :: rest) with
      | none => (substituteFrom bindings 0 rest).map (c :: ·)
      | some (name, _) =>
        match Json.lookup (String.ofList name) bindings with
        | none => .error (.unsetVariable (String.ofList name))
        | some value => (substituteFrom bindings (name.length + 2) rest).map (value.toList ++ ·)

def substitute (bindings : List (String × String)) (text : String) : Except Invalid String :=
  (substituteFrom bindings 0 text.toList).map String.ofList

end Remedy
