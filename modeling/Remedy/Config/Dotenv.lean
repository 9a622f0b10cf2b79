import Remedy.Json
import Remedy.Text.Blank
import Remedy.Text.Search

/-!
Files of variables. A binding is a name, perhaps with `export` in front of it, and mostly an equals
sign and a value; it ends with its line, or with the quote that closes its value. What is no binding
is passed over to the end of the line. A value may refer to other variables.
-/

set_option autoImplicit false

namespace Remedy.Dotenv

/-- White space within a line. -/
def isSpace (c : Char) : Bool := Text.isBlank c && c != '\n' && c != '\r'

/-! ### Values -/

/-- The character that a letter behind a backslash writes within quotes. -/
def escapeOf? (mark c : Char) : Option Char :=
  if c = '\\' ∨ c = '\x27' then some c
  else if mark ≠ '"' then none
  else
    match c with
    | '"' => some '"'
    | 'a' => some '\x07'
    | 'b' => some '\x08'
    | 'f' => some '\x0c'
    | 'n' => some '\n'
    | 'r' => some '\r'
    | 't' => some '\t'
    | 'v' => some '\x0b'
    | _ => none

/-- A text with its escapes replaced. -/
def unescaped (mark : Char) : List Char → List Char
  | [] => []
  | [c] => [c]
  | '\\' :: c :: rest =>
    match escapeOf? mark c with
    | some d => d :: unescaped mark rest
    | none => '\\' :: unescaped mark (c :: rest)
  | c :: rest => c :: unescaped mark rest
  termination_by cs => cs.length

/-- What stands before the closing quote, and what follows it. A quote behind a backslash closes
only if no other one does, in which case the last of them is taken: `spare` is what that one would
give, and `done` what was read, last character first. -/
def untilQuote (mark : Char) (done : List Char) (spare : Option (List Char × List Char)) :
    List Char → Option (List Char × List Char)
  | [] => spare
  | [c] => if c = mark then some (done.reverse, []) else spare
  | '\\' :: d :: rest =>
    if d = mark then
      untilQuote mark (d :: '\\' :: done) (some (('\\' :: done).reverse, rest)) rest
    else untilQuote mark ('\\' :: done) spare (d :: rest)
  | c :: rest =>
    if c = mark then some (done.reverse, rest) else untilQuote mark (c :: done) spare rest
  termination_by cs => cs.length

/-- A value without quotes, up to white space and the comment behind it. -/
def withoutComment : List Char → List Char
  | [] => []
  | c :: rest =>
    if Text.isBlank c && (rest.dropWhile Text.isBlank).head? = some '#' then []
    else c :: withoutComment rest

/-- A value and what follows it, none if its quote is not closed. -/
def readValue (cs : List Char) : Option (List Char × List Char) :=
  let quoted (mark : Char) (rest : List Char) : Option (List Char × List Char) :=
    (untilQuote mark [] none rest).map fun (value, rest) => (unescaped mark value, rest)
  match cs with
  | '"' :: rest => quoted '"' rest
  | '\x27' :: rest => quoted '\x27' rest
  | cs =>
    let isInLine (c : Char) : Bool := c != '\n' && c != '\r'
    some (Text.stripEnd (withoutComment (cs.takeWhile isInLine)), cs.dropWhile isInLine)

/-! ### Bindings -/

/-- A line without the mark that exports its variable. -/
def withoutExport (cs : List Char) : List Char :=
  let rest := cs.drop 6
  if Text.startsWith "export".toList cs && rest.head?.any isSpace then rest.dropWhile isSpace
  else cs

/-- A name and what follows it; a comment has no name. None if there should be a name. -/
def readName (cs : List Char) : Option (Option (List Char) × List Char) :=
  match cs with
  | '#' :: _ => some (none, cs)
  | '\x27' :: rest =>
    let name := rest.takeWhile (· ≠ '\x27')
    if name.isEmpty || name.length = rest.length then none
    else some (some name, rest.drop (name.length + 1))
  | cs =>
    let isInName (c : Char) : Bool := !(c == '=' || c == '#' || Text.isBlank c)
    let name := cs.takeWhile isInName
    if name.isEmpty then none else some (some name, cs.dropWhile isInName)

/-- What follows the end of a line, on which a comment may stand. None if something else does. -/
def endLine (cs : List Char) : Option (List Char) :=
  let isInLine (c : Char) : Bool := c != '\n' && c != '\r'
  let rest := cs.dropWhile isSpace
  let rest := if rest.head? = some '#' then rest.dropWhile isInLine else rest
  match rest with
  | '\r' :: '\n' :: rest => some rest
  | '\r' :: rest => some rest
  | '\n' :: rest => some rest
  | [] => some []
  | _ => none

/-- The place where a binding turns out to be none, or the binding and what follows it. -/
def readBinding (cs : List Char) :
    Except (List Char) (Option (String × Option (List Char)) × List Char) :=
  match readName (withoutExport cs) with
  | none => .error (withoutExport cs)
  | some (name, rest) =>
    let rest := rest.dropWhile isSpace
    let name := name.map String.ofList
    let close (value : Option (List Char)) (rest : List Char) :
        Except (List Char) (Option (String × Option (List Char)) × List Char) :=
      match endLine rest with
      | some after => .ok (name.map fun name => (name, value), after)
      | none => .error rest
    match rest with
    | '=' :: rest =>
      let rest := rest.dropWhile isSpace
      match readValue rest with
      | none => .error rest
      | some (value, rest) => close (some value) rest
    | rest => close none rest

/-- The bindings of a file, in their order. -/
def bindings : (fuel : Nat) → List Char → List (String × Option (List Char))
  | 0, _ => []
  | fuel + 1, cs =>
    let cs := cs.dropWhile Text.isBlank
    if cs.isEmpty then []
    else
      match readBinding cs with
      | .ok (found, rest) => found.toList ++ bindings fuel rest
      | .error rest =>
        bindings fuel ((rest.dropWhile fun c => c != '\n' && c != '\r').drop 1)

/-! ### References -/

/-- The name and the default in a reference whose opening brace was passed, and what follows. -/
def readReference (cs : List Char) : Option (List Char × List Char × List Char) :=
  let name := cs.takeWhile fun c => c != '\x7d' && c != ':'
  match cs.drop name.length with
  | '\x7d' :: rest => some (name, [], rest)
  | ':' :: '-' :: rest =>
    let other := rest.takeWhile (· ≠ '\x7d')
    if other.length = rest.length then none
    else some (name, other, rest.drop (other.length + 1))
  | _ => none

/-- A value with its references replaced. A variable without a value counts as empty, and one that
is unknown as its default. -/
def expand (known : List (String × Option String)) : (fuel : Nat) → List Char → List Char
  | 0, cs => cs
  | _, [] => []
  | fuel + 1, '$' :: '\x7b' :: rest =>
    match readReference rest with
    | none => '$' :: expand known fuel ('\x7b' :: rest)
    | some (name, other, after) =>
      let value := match Json.lookup (String.ofList name) known with
        | some value => (value.getD "").toList
        | none => other
      value ++ expand known fuel after
  | fuel + 1, c :: rest => c :: expand known fuel rest

/-- The variables of a file, each with its value if it has one. A value may refer to variables of
the environment and, before these, to those that stand above it in the file. -/
def read (environment : List (String × String)) (text : String) : List (String × Option String) :=
  let cs := text.toList
  let outer := environment.map fun v => (v.1, some v.2)
  (bindings (cs.length + 1) cs).foldl
    (fun done (name, value) =>
      let known := done.foldl (fun all v => Json.insert v.1 v.2 all) outer
      let expanded := value.map fun cs => String.ofList (expand known (cs.length + 1) cs)
      Json.insert name expanded done)
    []

end Remedy.Dotenv
