import Remedy.Number

/-!
Tree-shaped values of reports, manifests and settings. The fields of an object keep the order in
which they were written; `Json.set` keeps the place of a field that is already there.
-/

set_option autoImplicit false

namespace Remedy

inductive Json where
  | null
  | bool (b : Bool)
  | num (n : Number)
  | str (s : String)
  | arr (items : List Json)
  | obj (fields : List (String × Json))
  deriving Repr, Inhabited

namespace Json

mutual

/-- Whether two values are the same, the order of fields included. -/
def same : Json → Json → Bool
  | .null, .null => true
  | .bool a, .bool b => a == b
  | .num m, .num n => m == n
  | .str s, .str t => s == t
  | .arr items, .arr others => sameItems items others
  | .obj fields, .obj others => sameFields fields others
  | _, _ => false

def sameItems : List Json → List Json → Bool
  | [], [] => true
  | j :: rest, k :: others => same j k && sameItems rest others
  | _, _ => false

def sameFields : List (String × Json) → List (String × Json) → Bool
  | [], [] => true
  | (name, j) :: rest, (other, k) :: others => name == other && same j k && sameFields rest others
  | _, _ => false

end

instance : BEq Json := ⟨same⟩

instance : Coe String Json := ⟨.str⟩
instance : Coe Bool Json := ⟨.bool⟩
instance : Coe Number Json := ⟨.num⟩
instance : Coe Int Json := ⟨fun n => .num (.int n)⟩
instance : Coe Nat Json := ⟨fun n => .num (.int n)⟩
instance : Coe Double Json := ⟨fun x => .num (.real x)⟩
instance (n : Nat) : OfNat Json n := ⟨.num (.int n)⟩

/-- A list of texts. -/
def strs (items : List String) : Json := .arr (items.map .str)

def ofOption {α : Type} (f : α → Json) : Option α → Json
  | none => .null
  | some a => f a

/-- The value under a key. -/
def lookup {α : Type} (key : String) : List (String × α) → Option α
  | [] => none
  | (k, v) :: rest => if k = key then some v else lookup key rest

/-- Puts a value under a key: in the place of the old value, or at the end. -/
def insert {α : Type} (key : String) (value : α) : List (String × α) → List (String × α)
  | [] => [(key, value)]
  | (k, v) :: rest => if k = key then (key, value) :: rest else (k, v) :: insert key value rest

def fields : Json → List (String × Json)
  | .obj fields => fields
  | _ => []

def items : Json → List Json
  | .arr items => items
  | _ => []

def get? (j : Json) (key : String) : Option Json := lookup key j.fields

/-- The value under a key, null if there is none. -/
def field (j : Json) (key : String) : Json := (j.get? key).getD .null

def str? : Json → Option String
  | .str s => some s
  | _ => none

/-- Whether a value counts as true: zero, emptiness and null do not. -/
def truthy : Json → Bool
  | .null => false
  | .bool b => b
  | .num n => !n.isZero
  | .str s => !s.isEmpty
  | .arr items => !items.isEmpty
  | .obj fields => !fields.isEmpty

/-- The text under a key, or another one if there is none. -/
def string (j : Json) (key : String) (other : String := "") : String :=
  ((j.get? key).bind str?).getD other

/-- The integer under a key, or another one if there is none. -/
def integer (j : Json) (key : String) (other : Int) : Int :=
  match j.get? key with
  | some (.num (.int n)) => n
  | _ => other

/-- Whether the value under a key counts as true, and `other` if there is no value. -/
def flag (j : Json) (key : String) (other : Bool) : Bool := ((j.get? key).map truthy).getD other

/-- The items under a key. -/
def list (j : Json) (key : String) : List Json := (j.field key).items

/-- The items under a key that are texts. -/
def strings (j : Json) (key : String) : List String := (j.list key).filterMap str?

/-- The word for the kind of a value in messages. -/
def kindName : Json → String
  | .null => "NoneType"
  | .bool _ => "bool"
  | .num (.int _) => "int"
  | .num (.real _) => "float"
  | .num (.truth _) => "bool"
  | .str _ => "str"
  | .arr _ => "list"
  | .obj _ => "dict"

end Json

end Remedy
