import Remedy.Config.Numeral
import Remedy.Config.Setting

/-!
Checking of settings. A value is read into what it should be, or everything that is wrong with it is
collected: each problem says where it is and which rule it breaks. The parts of a record are read
side by side, so that a problem in one does not hide those in the others; what two parts have to do
with each other is only looked at when both are in order.

Numbers and truth values may also be given as texts, and numbers as each other as long as nothing
is lost. What is not a number at all keeps no limit.
-/

set_option autoImplicit false

namespace Remedy

inductive Checked (α : Type) where
  | good (value : α)
  | bad (problems : List Problem)
  deriving Repr

namespace Checked

protected def seq {α β : Type} (f : Checked (α → β)) (a : Unit → Checked α) : Checked β :=
  match f, a () with
  | .good f, .good a => .good (f a)
  | .good _, .bad ps => .bad ps
  | .bad ps, .good _ => .bad ps
  | .bad ps, .bad qs => .bad (ps ++ qs)

instance : Applicative Checked where
  pure := .good
  seq := Checked.seq

/-- A value that breaks a rule. -/
def flaw {α : Type} (rule : String) (reason : Option String) : Checked α :=
  .bad [⟨[], rule, reason⟩]

/-- The same, found at a place inside of something. -/
def within {α : Type} (place : Json) : Checked α → Checked α
  | .good value => .good value
  | .bad ps => .bad (ps.map fun p => { p with place := place :: p.place })

/-- A further rule for a value that is in order. -/
def andThen {α β : Type} (c : Checked α) (f : α → Checked β) : Checked β :=
  match c with
  | .good value => f value
  | .bad ps => .bad ps

/-- Checks a value that is in order; `reason` says what is wrong with it, if anything is. -/
def ensure {α : Type} (c : Checked α) (reason : α → Option String) : Checked α :=
  c.andThen fun value =>
    match reason value with
    | none => .good value
    | some reason => flaw "value_error" (some reason)

/-- Checks that a value keeps a rule. -/
def must {α : Type} (c : Checked α) (rule : String) (keeps : α → Bool) : Checked α :=
  c.andThen fun value => if keeps value then .good value else flaw rule none

/-- Several values side by side. -/
def all {α : Type} : List (Checked α) → Checked (List α)
  | [] => .good []
  | c :: rest => List.cons <$> c <*> all rest

end Checked

abbrev Reader (α : Type) := Setting → Checked α

namespace Reader

open Checked

def integer : Reader Int
  | .number n =>
    match n, n.int? with
    | .real x, _ =>
      match Numeral.integerOf x with
      | .ok n => .good n
      | .error rule => flaw rule none
    | _, some n => .good n
    | _, none => flaw "int_type" none
  | .text s =>
    match Numeral.readInteger s with
    | .value n => .good n
    | .tooLong => flaw "int_parsing_size" none
    | .malformed => flaw "int_parsing" none
  | _ => flaw "int_type" none

def real : Reader Number
  | .number n =>
    match n.toDouble? with
    | some x => .good (.real x)
    | none => flaw "float_type" none
  | .text s =>
    match Numeral.readReal s with
    | some x => .good (.real x)
    | none => flaw "float_parsing" none
  | _ => flaw "float_type" none

def trueWords : List String := ["1", "true", "t", "yes", "y", "on"]
def falseWords : List String := ["0", "false", "f", "no", "n", "off"]

/-- The truth value that zero and one stand for. -/
def truthOf (n : Int) : Checked Bool :=
  if n = 0 then .good false else if n = 1 then .good true else flaw "bool_parsing" none

def truth : Reader Bool
  | .number (.truth b) => .good b
  | .number (.int n) => if isWord n then truthOf n else flaw "bool_type" none
  | .number (.real x) =>
    match Numeral.integerOf x with
    | .ok n => truthOf n
    | .error _ => flaw "bool_type" none
  | .text s =>
    let word := String.ofList (s.toList.map Char.toLower)
    if trueWords.contains word then .good true
    else if falseWords.contains word then .good false
    else flaw "bool_parsing" none
  | _ => flaw "bool_type" none

def text : Reader String
  | .text s => .good s
  | _ => flaw "string_type" none

def path : Reader Path
  | .text s => .good (Path.ofString s)
  | _ => flaw "path_type" none

/-- One of several words. -/
def word {α : Type} (meaning : String → Option α) : Reader α
  | .text s =>
    match meaning s with
    | some a => .good a
    | none => flaw "literal_error" none
  | _ => flaw "literal_error" none

def optional {α : Type} (read : Reader α) : Reader (Option α)
  | .null => .good none
  | s => some <$> read s

def list {α : Type} (read : Reader α) : Reader (List α)
  | .list items => Checked.all (items.mapIdx fun i s => (read s).within i)
  | _ => flaw "list_type" none

/-- A map from texts. A key that is no text is as bad as a bad value. -/
def map {α : Type} (read : Reader α) : Reader (List (String × α))
  | .map entries => Checked.all (entries.map fun e =>
      (Prod.mk <$> (text e.1).within "[key]" <*> read e.2).within e.1.step)
  | _ => flaw "dict_type" none

/-- A record, read from the entries of a map. -/
def record {α : Type} (read : List (Setting × Setting) → Checked α) : Reader α
  | .map entries => read entries
  | _ => flaw "model_type" none

/-- A field with a value that stands where it is not given. -/
def field {α : Type} (entries : List (Setting × Setting)) (name : String) (read : Reader α)
    (other : α) : Checked α :=
  match Setting.field? name entries with
  | some s => (read s).within name
  | none => .good other

/-- A field that has to be given. -/
def demanded {α : Type} (entries : List (Setting × Setting)) (name : String) (read : Reader α) :
    Checked α :=
  match Setting.field? name entries with
  | some s => (read s).within name
  | none => (flaw "missing" none : Checked α).within name

/-! ### Limits -/

/-- A number above zero. -/
def positive : Reader Number := fun s => (real s).must "greater_than" fun x => (0 : Number).lt x

/-- A number that lies neither above a limit nor below zero. -/
def upTo (limit : Number) : Reader Number := fun s =>
  ((real s).must "less_than_equal" fun x => x.le limit).must "greater_than_equal"
    fun x => (0 : Number).le x

/-- A count, and at most the limit if there is one. -/
def count (limit : Option Int) : Reader Nat := fun s =>
  Int.toNat <$>
    ((integer s).must "less_than_equal" fun n => limit.all fun limit => decide (n ≤ limit)).must
      "greater_than_equal" fun n => decide (0 ≤ n)

end Reader

end Remedy
