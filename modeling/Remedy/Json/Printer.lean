import Remedy.Json
import Remedy.Text.Quoted

/-!
Text of tree-shaped values. `compact` stays on one line, `pretty` puts each member on a line of its
own, two spaces deeper than what holds it. Both are pure ASCII: other characters are written by
their sixteen-bit units. `shown` is the form in which messages show a value.
-/

set_option autoImplicit false

namespace Remedy.Json

open Remedy.Text (hexPadded)

/-- The sixteen-bit units of a character. -/
def units (c : Char) : List Nat :=
  let n := c.toNat
  if n < 0x10000 then [n] else [0xD800 + (n - 0x10000) / 0x400, 0xDC00 + (n - 0x10000) % 0x400]

def escapeChar (c : Char) : List Char :=
  if c = '"' then ['\\', '"']
  else if c = '\\' then ['\\', '\\']
  else if c = '\n' then ['\\', 'n']
  else if c = '\r' then ['\\', 'r']
  else if c = '\t' then ['\\', 't']
  else if c = '\x08' then ['\\', 'b']
  else if c = '\x0c' then ['\\', 'f']
  else if 0x20 ≤ c.toNat ∧ c.toNat < 0x7F then [c]
  else (units c).flatMap fun u => '\\' :: 'u' :: hexPadded 4 u

def escaped (s : String) : String :=
  String.ofList ('"' :: s.toList.flatMap escapeChar ++ ['"'])

def numberText : Number → String
  | .real .nan => "NaN"
  | .real (.infinite true) => "-Infinity"
  | .real (.infinite false) => "Infinity"
  | .truth true => "true"
  | .truth false => "false"
  | n => n.text

mutual

def compact : Json → String
  | .null => "null"
  | .bool true => "true"
  | .bool false => "false"
  | .num n => numberText n
  | .str s => escaped s
  | .arr items => "[" ++ compactItems items ++ "]"
  | .obj fields => "\x7b" ++ compactFields fields ++ "\x7d"

def compactItems : List Json → String
  | [] => ""
  | [j] => compact j
  | j :: rest => compact j ++ ", " ++ compactItems rest

def compactFields : List (String × Json) → String
  | [] => ""
  | [(k, j)] => escaped k ++ ": " ++ compact j
  | (k, j) :: rest => escaped k ++ ": " ++ compact j ++ ", " ++ compactFields rest

end

def newline (depth : Nat) : String := "\n" ++ String.ofList (List.replicate (2 * depth) ' ')

mutual

def prettyAt (depth : Nat) : Json → String
  | .null => "null"
  | .bool true => "true"
  | .bool false => "false"
  | .num n => numberText n
  | .str s => escaped s
  | .arr [] => "[]"
  | .obj [] => "\x7b\x7d"
  | .arr items => "[" ++ prettyItems (depth + 1) items ++ newline depth ++ "]"
  | .obj fields => "\x7b" ++ prettyFields (depth + 1) fields ++ newline depth ++ "\x7d"

def prettyItems (depth : Nat) : List Json → String
  | [] => ""
  | [j] => newline depth ++ prettyAt depth j
  | j :: rest => newline depth ++ prettyAt depth j ++ "," ++ prettyItems depth rest

def prettyFields (depth : Nat) : List (String × Json) → String
  | [] => ""
  | [(k, j)] => newline depth ++ escaped k ++ ": " ++ prettyAt depth j
  | (k, j) :: rest =>
    newline depth ++ escaped k ++ ": " ++ prettyAt depth j ++ "," ++ prettyFields depth rest

end

def pretty (j : Json) : String := prettyAt 0 j

mutual

/-- A value inside another one, as messages show it: text is quoted. -/
def shownWithin : Json → String
  | .null => "None"
  | .bool true => "True"
  | .bool false => "False"
  | .num n => n.text
  | .str s => Text.quoted s
  | .arr items => "[" ++ shownItems items ++ "]"
  | .obj fields => "\x7b" ++ shownFields fields ++ "\x7d"

def shownItems : List Json → String
  | [] => ""
  | [j] => shownWithin j
  | j :: rest => shownWithin j ++ ", " ++ shownItems rest

def shownFields : List (String × Json) → String
  | [] => ""
  | [(k, j)] => Text.quoted k ++ ": " ++ shownWithin j
  | (k, j) :: rest => Text.quoted k ++ ": " ++ shownWithin j ++ ", " ++ shownFields rest

end

/-- A value by itself, as messages show it: text stands as it is. -/
def shown : Json → String
  | .str s => s
  | j => shownWithin j

end Remedy.Json
