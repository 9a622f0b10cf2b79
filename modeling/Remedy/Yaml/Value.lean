import Remedy.Yaml.Node

/-!
What a YAML document says. A map may take entries over from others: those stand in front of its own,
and of several entries under one key the last value counts, in the place of the first.

Collections are filled level by level. Where several nodes are at fault, the one on the highest
level is found first, and on one level the one that comes first in the text. `Staged.both` keeps to
this.
-/

set_option autoImplicit false

namespace Remedy.Yaml

/-- A value, or the fault that is found first and the level on which it is. -/
abbrev Staged (α : Type) := Except (Nat × Fault) α

namespace Staged

def both {α β : Type} : Staged α → Staged β → Staged (α × β)
  | .ok a, .ok b => .ok (a, b)
  | .error e, .ok _ => .error e
  | .ok _, .error f => .error f
  | .error e, .error f => .error (if f.1 < e.1 then f else e)

def all {α : Type} : List (Staged α) → Staged (List α)
  | [] => .ok []
  | a :: rest => (both a (all rest)).map fun (a, rest) => a :: rest

/-- The level of a fault in a pair is that of the higher one of its parts. -/
theorem both_error {α β : Type} (e f : Nat × Fault) :
    ∃ g : Nat × Fault, both (.error e : Staged α) (.error f : Staged β) = .error g ∧
      g.1 = min e.1 f.1 := by
  refine ⟨if f.1 < e.1 then f else e, rfl, ?_⟩
  split <;> omega

end Staged

/-! ### Entries of maps -/

namespace Node

/-- A key that stands for the value of a map is a text like any other in the map itself. -/
def asKey : Node → Node
  | .scalar .standard text => .scalar .text text
  | .list .standard items => .list .text items
  | .map .standard entries => .map .text entries
  | node => node

mutual

/-- What a map takes over, and its own entries. None if it takes something over from what is no
map. -/
def split : List (Node × Node) → Option (List (Node × Node) × List (Node × Node))
  | [] => some ([], [])
  | (key, value) :: rest => do
    let (taken, own) ← split rest
    if key.kind = .merge then return ((← taken? value) ++ taken, own)
    else return (taken, (key.asKey, value) :: own)

/-- The entries that are taken over from a map, or from several maps, the last one first. -/
def taken? : Node → Option (List (Node × Node))
  | .map _ entries => (split entries).map fun (taken, own) => taken ++ own
  | .list _ items => takenFrom [] items
  | .scalar _ _ => none

def takenFrom (later : List (Node × Node)) : List Node → Option (List (Node × Node))
  | [] => some later
  | .map _ entries :: rest =>
    match split entries with
    | some (taken, own) => takenFrom (taken ++ own ++ later) rest
    | none => none
  | _ :: _ => none

end

/-- The entries of a map, with those that it takes over. -/
def entries? : Node → Option (List (Node × Node))
  | .map _ entries => (split entries).map fun (taken, own) => taken ++ own
  | _ => none

/-- The text of a node. A map may have one as a scalar, under the key for that. -/
def text? : (fuel : Nat) → Node → Option String
  | 0, _ => none
  | _, .scalar _ text => some text
  | _, .list _ _ => none
  | fuel + 1, .map _ entries =>
    (entries.find? fun e => e.1.kind == .standard).bind fun e => text? fuel e.2

/-! ### Values -/

/-- The pair in a map of a single entry. -/
def pair? : Node → Option (Node × Node)
  | .map _ [entry] => some entry
  | _ => none

/-- The value of a node on a level. What is in a collection stands on the next one. -/
def valueAt : (fuel level : Nat) → Node → Staged Setting
  | 0, level, _ => .error (level, .markup)
  | fuel + 1, level, node =>
    let inner := valueAt fuel (level + 1)
    let refused {α : Type} : Staged α := .error (level + 1, .markup)
    let entryValues : Staged (List (Setting × Setting)) :=
      match node.entries? with
      | none => refused
      | some entries =>
        (Staged.all (entries.map fun (key, value) =>
          if key.kind.isCollection then refused
          else Staged.both (inner key) (inner value))).map fun pairs =>
            pairs.foldl (fun done e => Setting.insert e.1 e.2 done) []
    match node.kind with
    | .list =>
      match node with
      | .list _ items => (Staged.all (items.map inner)).map .list
      | _ => refused
    | .map => entryValues.map .map
    | .set => entryValues.map fun _ => .other "set"
    | .pairs =>
      match node with
      | .list _ items =>
        (Staged.all (items.map fun item =>
          match item.pair? with
          | some (key, value) =>
            (Staged.both (inner key) (inner value)).map fun (k, v) => .list [k, v]
          | none => refused)).map .list
      | _ => refused
    | kind =>
      match node.text? (fuel + 1) with
      | some text => (scalarValue kind text).mapError fun fault => (level, fault)
      | none => .error (level, .markup)

end Node

/-- What a text says; nothing says null. -/
def read (text : String) : Except Fault Setting := do
  match ← Node.ofTokens (tokens text.toList) with
  | none => return .null
  | some node => (node.valueAt (text.length + 2) 0).mapError (·.2)

end Remedy.Yaml
