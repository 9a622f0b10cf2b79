import Remedy.Text.Search

/-!
Words of a script. A word is read as a list of pieces: text, quoted or not, parameters, whose
values are put in when the script runs, and scripts, whose output is put in. What stands in single
quotes is text as it is; in double quotes parameters are still replaced, and a backslash takes away
the meaning of the few characters that have one there.
-/

set_option autoImplicit false

namespace Remedy.Shell

/-- What becomes of a parameter. -/
inductive Use where
  | value
  /-- Another text if the parameter is not set, or also if it is empty. -/
  | orElse (ifEmpty : Bool) (other : String)
  /-- Another text if the parameter is set, or only if it is not empty. -/
  | instead (unlessEmpty : Bool) (other : String)
  deriving DecidableEq, Repr, Inhabited

inductive Piece where
  | text (cs : List Char) (quoted : Bool)
  | parameter (name : String) (use : Use) (quoted : Bool)
  /-- What a script prints. -/
  | output (script : List Char) (quoted : Bool)
  deriving DecidableEq, Repr, Inhabited

def Piece.isOutput : Piece → Bool
  | .output _ _ => true
  | _ => false

abbrev Word := List Piece

/-- The text of a word that holds no quotes and no parameters. -/
def Word.bare? : Word → Option String
  | [.text cs false] => some (String.ofList cs)
  | _ => none

def isNameStart (c : Char) : Bool :=
  ('a' ≤ c && c ≤ 'z') || ('A' ≤ c && c ≤ 'Z') || c == '_'

def isNameChar (c : Char) : Bool := isNameStart c || c.isDigit

/-- Characters that name a parameter of the shell itself. -/
def isSpecial (c : Char) : Bool := ['$', '?', '#', '@', '*'].contains c

/-- The name of a parameter in front of the rest. -/
def parameterName (cs : List Char) : Option (String × List Char) :=
  match cs with
  | [] => none
  | c :: rest =>
    if isNameStart c then
      some (String.ofList (cs.takeWhile isNameChar), cs.dropWhile isNameChar)
    else if c.isDigit || isSpecial c then some (String.singleton c, rest)
    else none

/-- What is said about a parameter between its name and the closing brace. -/
def useOf : List Char → Option Use
  | [] => some .value
  | ':' :: '-' :: other => some (.orElse true (String.ofList other))
  | '-' :: other => some (.orElse false (String.ofList other))
  | ':' :: '+' :: other => some (.instead true (String.ofList other))
  | '+' :: other => some (.instead false (String.ofList other))
  | _ => none

/-- What stands before the closing parenthesis, at a depth of parentheses, and what follows it. -/
def readGroup : (depth : Nat) → (done : List Char) → List Char → Option (List Char × List Char)
  | _, _, [] => none
  | depth, done, '\\' :: c :: rest => readGroup depth (c :: '\\' :: done) rest
  | depth, done, '(' :: rest => readGroup (depth + 1) ('(' :: done) rest
  | 0, done, ')' :: rest => some (done.reverse, rest)
  | depth + 1, done, ')' :: rest => readGroup depth (')' :: done) rest
  | depth, done, c :: rest => readGroup depth (c :: done) rest

def isBackquote (c : Char) : Bool := c == '\x60'

/-- The script behind an opening backquote, and what follows the closing one. -/
def readBackquoted (quoted : Bool) (cs : List Char) : Option (Piece × List Char) :=
  match cs.dropWhile (!isBackquote ·) with
  | _ :: rest => some (.output (cs.takeWhile (!isBackquote ·)) quoted, rest)
  | [] => none

/-- The piece behind a dollar sign, and the rest. A dollar sign that names nothing is text. -/
def readParameter (quoted : Bool) (cs : List Char) : Option (Piece × List Char) :=
  match cs with
  | '(' :: inside =>
    (readGroup 0 [] inside).map fun (script, rest) => (.output script quoted, rest)
  | '\x7b' :: inside =>
    let body := inside.takeWhile (· ≠ '\x7d')
    match inside.dropWhile (· ≠ '\x7d'), parameterName body with
    | _ :: rest, some (name, more) => (useOf more).map fun use => (.parameter name use quoted, rest)
    | _, _ => none
  | _ =>
    match parameterName cs with
    | some (name, rest) => some (.parameter name .value quoted, rest)
    | none => some (.text ['$'] quoted, cs)

/-- Reads up to the closing double quote. -/
def readDouble : (fuel : Nat) → (done : List Piece) → List Char → Option (List Piece × List Char)
  | 0, _, _ => none
  | _, _, [] => none
  | _, done, '"' :: rest => some (done ++ [.text [] true], rest)
  | fuel + 1, done, '\\' :: c :: rest =>
    if c = '\n' then readDouble fuel done rest
    else
      let cs := if c = '$' ∨ c = '"' ∨ c = '\\' ∨ isBackquote c then [c] else ['\\', c]
      readDouble fuel (done ++ [.text cs true]) rest
  | fuel + 1, done, '$' :: rest =>
    match readParameter true rest with
    | some (piece, rest) => readDouble fuel (done ++ [piece]) rest
    | none => none
  | fuel + 1, done, c :: rest =>
    if isBackquote c then
      match readBackquoted true rest with
      | some (piece, rest) => readDouble fuel (done ++ [piece]) rest
      | none => none
    else readDouble fuel (done ++ [.text [c] true]) rest

/-- Characters that end a word. -/
def endsWord (c : Char) : Bool := [' ', '\t', '\n', ';', '&', '|', '<', '>', '(', ')'].contains c

/-- Joins neighbouring texts of one kind. -/
def joined : List Piece → Word
  | [] => []
  | piece :: rest =>
    match piece, joined rest with
    | .text a p, .text b q :: more =>
      if p = q then .text (a ++ b) p :: more else .text a p :: .text b q :: more
    | piece, more => piece :: more

/-- Reads the pieces of a word, none if a quote or a brace is not closed. -/
def readPieces : (fuel : Nat) → (done : List Piece) → List Char → Option (List Piece × List Char)
  | 0, _, _ => none
  | _, done, [] => some (done, [])
  | fuel + 1, done, c :: rest =>
    if endsWord c then some (done, c :: rest)
    else if c = '\x27' then
      match rest.dropWhile (· ≠ '\x27') with
      | _ :: more => readPieces fuel (done ++ [.text (rest.takeWhile (· ≠ '\x27')) true]) more
      | [] => none
    else if c = '"' then
      match readDouble (rest.length + 1) [] rest with
      | some (pieces, more) => readPieces fuel (done ++ pieces) more
      | none => none
    else if c = '\\' then
      match rest with
      | '\n' :: more => readPieces fuel done more
      | d :: more => readPieces fuel (done ++ [.text [d] true]) more
      | [] => readPieces fuel (done ++ [.text ['\\'] true]) []
    else if c = '$' ∨ isBackquote c then
      match if c = '$' then readParameter false rest else readBackquoted false rest with
      | some (piece, more) => readPieces fuel (done ++ [piece]) more
      | none => none
    else readPieces fuel (done ++ [.text [c] false]) rest

def readWord (cs : List Char) : Option (Word × List Char) :=
  (readPieces (cs.length + 1) [] cs).map fun (pieces, rest) => (joined pieces, rest)

end Remedy.Shell
