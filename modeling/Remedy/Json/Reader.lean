import Remedy.Json
import Remedy.Text.Utf8

/-!
Reading of tree-shaped values. A reader takes one value off the characters in front of it and
returns the rest; an error remembers how many characters were left, from which `JsonError.message`
finds line and column. Of two fields with one name the later value stands, in the earlier place.
-/

set_option autoImplicit false

namespace Remedy.Json

inductive Flaw where
  | value
  | fieldName
  | colon
  | comma
  | extra
  | unterminated
  | control
  | escape
  | unicodeEscape
  | byteOrderMark
  | longNumber (digits : Nat)
  deriving DecidableEq, Repr

def Flaw.message : Flaw → String
  | .value => "Expecting value"
  | .fieldName => "Expecting property name enclosed in double quotes"
  | .colon => "Expecting ':' delimiter"
  | .comma => "Expecting ',' delimiter"
  | .extra => "Extra data"
  | .unterminated => "Unterminated string starting at"
  | .control => "Invalid control character at"
  | .escape => "Invalid \\escape"
  | .unicodeEscape => "Invalid \\uXXXX escape"
  | .byteOrderMark => "Unexpected UTF-8 BOM (decode using utf-8-sig)"
  | .longNumber _ => ""

/-- The most decimal digits that an integer may be written with. -/
def digitLimit : Nat := 4300

def longNumberMessage (digits : Nat) : String :=
  s!"Exceeds the limit ({digitLimit} digits) for integer string conversion: value has {digits} " ++
    "digits; use sys.set_int_max_str_digits() to increase the limit"

/-- What is wrong, and how many characters stood from there on. -/
structure Stop where
  flaw : Flaw
  left : Nat
  deriving DecidableEq, Repr

structure Error where
  flaw : Flaw
  line : Nat
  column : Nat
  position : Nat
  deriving DecidableEq, Repr

def Error.message (e : Error) : String :=
  match e.flaw with
  | .longNumber digits => longNumberMessage digits
  | flaw => s!"{flaw.message}: line {e.line} column {e.column} (char {e.position})"

def Stop.locate (text : List Char) (stop : Stop) : Error :=
  let position := text.length - stop.left
  let before := text.take position
  { flaw := stop.flaw
    line := before.count '\n' + 1
    column := (before.reverse.takeWhile (· ≠ '\n')).length + 1
    position := position }

abbrev Read (α : Type) := Except Stop (α × List Char)

def stopAt {α : Type} (flaw : Flaw) (rest : List Char) : Read α := .error ⟨flaw, rest.length⟩

def skipSpace : List Char → List Char
  | c :: rest => if c = ' ' ∨ c = '\t' ∨ c = '\n' ∨ c = '\r' then skipSpace rest else c :: rest
  | [] => []

def hexValue? (c : Char) : Option Nat :=
  if '0' ≤ c ∧ c ≤ '9' then some (c.toNat - 48)
  else if 'a' ≤ c ∧ c ≤ 'f' then some (c.toNat - 87)
  else if 'A' ≤ c ∧ c ≤ 'F' then some (c.toNat - 55)
  else none

def hexUnit? : List Char → Option Nat
  | [a, b, c, d] => do
    return (((← hexValue? a) * 16 + (← hexValue? b)) * 16 + (← hexValue? c)) * 16 + (← hexValue? d)
  | _ => none

/-- The second half of a character that is written as two units, if it follows. -/
def lowUnit? : List Char → Option (Nat × List Char)
  | '\\' :: 'u' :: rest =>
    match hexUnit? (rest.take 4) with
    | some low =>
      if 0xDC00 ≤ low ∧ low ≤ 0xDFFF ∧ 4 < rest.length then some (low, rest.drop 4) else none
    | none => none
  | _ => none

def escapeOf? (c : Char) : Option Char :=
  match c with
  | '"' => some '"'
  | '\\' => some '\\'
  | '/' => some '/'
  | 'b' => some '\x08'
  | 'f' => some '\x0c'
  | 'n' => some '\n'
  | 'r' => some '\r'
  | 't' => some '\t'
  | _ => none

/-- Reads to the closing quote. `left` counts the characters from the opening quote on, and `done`
holds what is read, last character first. -/
def readString (left : Nat) : (fuel : Nat) → (done cs : List Char) → Read String
  | 0, _, _ => .error ⟨.unterminated, left⟩
  | _ + 1, _, [] => .error ⟨.unterminated, left⟩
  | fuel + 1, done, c :: rest =>
    if c = '"' then .ok (String.ofList done.reverse, rest)
    else if c.toNat < 0x20 then stopAt .control (c :: rest)
    else if c ≠ '\\' then readString left fuel (c :: done) rest
    else
      match rest with
      | [] => .error ⟨.unterminated, left⟩
      | 'u' :: more =>
        match hexUnit? (more.take 4) with
        | none => stopAt .unicodeEscape rest
        | some unit =>
          if more.length ≤ 4 then stopAt .unicodeEscape rest
          else if 0xD800 ≤ unit ∧ unit ≤ 0xDBFF then
            match lowUnit? (more.drop 4) with
            | some (low, more) =>
              let point := 0x10000 + (unit - 0xD800) * 0x400 + (low - 0xDC00)
              readString left fuel (Char.ofNat point :: done) more
            | none => readString left fuel (Text.replacement :: done) (more.drop 4)
          else if 0xDC00 ≤ unit ∧ unit ≤ 0xDFFF then
            readString left fuel (Text.replacement :: done) (more.drop 4)
          else readString left fuel (Char.ofNat unit :: done) (more.drop 4)
      | e :: more =>
        match escapeOf? e with
        | some c => readString left fuel (c :: done) more
        | none => stopAt .escape (c :: rest)

def isAsciiDigit (c : Char) : Bool := '0' ≤ c && c ≤ '9'

def natOf (digits : List Char) : Nat := digits.foldl (fun n c => 10 * n + (c.toNat - 48)) 0

/-- Digits after a decimal point. -/
def readFraction : List Char → List Char × List Char
  | '.' :: rest =>
    let digits := rest.takeWhile isAsciiDigit
    if digits.isEmpty then ([], '.' :: rest) else (digits, rest.dropWhile isAsciiDigit)
  | rest => ([], rest)

/-- The power of ten after the letter `e`, if one is written. -/
def readPower (cs : List Char) : Option Int × List Char :=
  match cs with
  | e :: rest =>
    if e = 'e' ∨ e = 'E' then
      let (negative, after) :=
        match rest with
        | '-' :: more => (true, more)
        | '+' :: more => (false, more)
        | more => (false, more)
      let digits := after.takeWhile isAsciiDigit
      if digits.isEmpty then (none, cs)
      else
        let n : Int := natOf digits
        (some (if negative then -n else n), after.dropWhile isAsciiDigit)
    else (none, cs)
  | [] => (none, cs)

def readNumber (cs : List Char) : Read Json :=
  let (negative, body) :=
    match cs with
    | '-' :: rest => (true, rest)
    | rest => (false, rest)
  let whole :=
    match body with
    | '0' :: _ => ['0']
    | rest => rest.takeWhile isAsciiDigit
  if whole.isEmpty then stopAt .value cs
  else
    let (fraction, rest) := readFraction (body.drop whole.length)
    let (power, rest) := readPower rest
    if fraction.isEmpty && power.isNone then
      if digitLimit < whole.length then .error ⟨.longNumber whole.length, rest.length⟩
      else
        let n : Int := natOf whole
        .ok (.num (.int (if negative then -n else n)), rest)
    else
      let x := Double.ofDecimal negative (natOf (whole ++ fraction))
        (power.getD 0 - fraction.length)
      .ok (.num (.real x), rest)

def dropWord? (word : String) (cs : List Char) : Option (List Char) :=
  if cs.take word.length = word.toList then some (cs.drop word.length) else none

/-- A value that is one word. -/
def readWord (cs : List Char) : Option (Json × List Char) :=
  let words : List (String × Json) :=
    [("null", .null), ("true", .bool true), ("false", .bool false), ("NaN", .num (.real .nan)),
      ("Infinity", .num (.real (.infinite false))), ("-Infinity", .num (.real (.infinite true)))]
  words.findSome? fun (word, value) => (dropWord? word cs).map (value, ·)

mutual

def readValue : (fuel : Nat) → List Char → Read Json
  | 0, cs => stopAt .value cs
  | fuel + 1, cs =>
    match cs with
    | [] => stopAt .value []
    | '"' :: rest =>
      match readString cs.length (rest.length + 1) [] rest with
      | .ok (s, rest) => .ok (.str s, rest)
      | .error e => .error e
    | '[' :: rest =>
      match skipSpace rest with
      | ']' :: rest => .ok (.arr [], rest)
      | rest => readItems fuel [] rest
    | '\x7b' :: rest =>
      match skipSpace rest with
      | '\x7d' :: rest => .ok (.obj [], rest)
      | rest => readFields fuel [] rest
    | _ =>
      match readWord cs with
      | some answer => .ok answer
      | none => readNumber cs

def readItems : (fuel : Nat) → (done : List Json) → List Char → Read Json
  | 0, _, cs => stopAt .value cs
  | fuel + 1, done, cs =>
    match readValue fuel cs with
    | .error e => .error e
    | .ok (value, rest) =>
      match skipSpace rest with
      | ']' :: rest => .ok (.arr (value :: done).reverse, rest)
      | ',' :: rest => readItems fuel (value :: done) (skipSpace rest)
      | rest => stopAt .comma rest

def readFields : (fuel : Nat) → (done : List (String × Json)) → List Char → Read Json
  | 0, _, cs => stopAt .value cs
  | fuel + 1, done, cs =>
    match cs with
    | '"' :: rest =>
      match readString cs.length (rest.length + 1) [] rest with
      | .error e => .error e
      | .ok (name, rest) =>
        match skipSpace rest with
        | ':' :: rest =>
          match readValue fuel (skipSpace rest) with
          | .error e => .error e
          | .ok (value, rest) =>
            let done := insert name value done
            match skipSpace rest with
            | '\x7d' :: rest => .ok (.obj done, rest)
            | ',' :: rest => readFields fuel done (skipSpace rest)
            | rest => stopAt .comma rest
        | rest => stopAt .colon rest
    | _ => stopAt .fieldName cs

end

def readAll (cs : List Char) : Except Stop Json :=
  match cs with
  | '\uFEFF' :: _ => .error ⟨.byteOrderMark, cs.length⟩
  | _ =>
    match readValue (2 * cs.length + 2) (skipSpace cs) with
    | .error e => .error e
    | .ok (value, rest) =>
      match skipSpace rest with
      | [] => .ok value
      | rest => .error ⟨.extra, rest.length⟩

/-- Reads a text that holds one value and nothing else. -/
def parse (text : String) : Except Error Json :=
  let cs := text.toList
  match readAll cs with
  | .ok value => .ok value
  | .error stop => .error (stop.locate cs)

end Remedy.Json
