import Remedy.Fault

/-!
Records out of values of any shape. An object is a record as it stands; so is a list of pairs, of
which the last one for a key counts. Everything else is refused. Keys are told apart by their
values, so that a number is the same key however it is written; only the record names them by texts.
-/

set_option autoImplicit false

namespace Remedy.Json

/-- The parts of a value that can be taken apart: a list, a text, or the keys of an object. -/
def parts? : Json → Option (List Json)
  | .arr items => some items
  | .str s => some (s.toList.map fun c => .str (String.singleton c))
  | .obj fields => some (fields.map fun f => .str f.1)
  | _ => none

/-- The number that a number or a truth value counts as. -/
def number? : Json → Option Number
  | .num n => some n
  | .bool b => some (.truth b)
  | _ => none

/-- Whether two values are the same key. -/
def sameKey (a b : Json) : Bool :=
  match a.number?, b.number? with
  | some m, some n => m == n || m.eq n
  | none, none => a == b
  | _, _ => false

/-- Puts a value under a key: in the place of the old value, under the old key, or at the end. -/
def insertKey (key value : Json) : List (Json × Json) → List (Json × Json)
  | [] => [(key, value)]
  | (k, v) :: rest =>
    if sameKey k key then (k, value) :: rest else (k, v) :: insertKey key value rest

/-- Adds pairs, the first of which has the given index, to a record. -/
def insertPairs (done : List (Json × Json)) (index : Nat) :
    List Json → Except Fault (List (Json × Json))
  | [] => .ok done
  | pair :: rest =>
    match pair.parts? with
    | none => .error (.misuse .wrongType)
    | some [.arr _, _] => .error (.misuse .wrongType)
    | some [.obj _, _] => .error (.misuse .wrongType)
    | some [key, value] => insertPairs (insertKey key value done) (index + 1) rest
    | some others => .error (.invalid (.pairLength index others.length))

/-- The record that pairs make up. -/
def recordOf (pairs : List Json) : Except Fault (List (String × Json)) :=
  (insertPairs [] 0 pairs).map fun done =>
    done.foldl (fun fields p => insert p.1.shown p.2 fields) []

def record : Json → Except Fault (List (String × Json))
  | .obj fields => .ok fields
  | .arr items => recordOf items
  | .str s => recordOf (s.toList.map fun c => .str (String.singleton c))
  | _ => .error (.misuse .wrongType)

end Remedy.Json
