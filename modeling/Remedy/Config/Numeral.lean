import Remedy.Json.Reader
import Remedy.Number.Decimal
import Remedy.Text.Blank

/-!
Numbers that settings give as texts. A text is read as it stands if that is possible. Otherwise it
is cleaned first: blanks at its ends, zeros in front and single underscores between other characters
do not count, and neither do zeros behind the point of an integer.
-/

set_option autoImplicit false

namespace Remedy.Numeral

/-- A text without the blanks at its ends; the separators of files and records are no blanks. -/
def trimmed (cs : List Char) : List Char :=
  let isBlank (c : Char) : Bool := Text.isBlank c && !('\x1c' ≤ c && c ≤ '\x1f')
  ((cs.dropWhile isBlank).reverse.dropWhile isBlank).reverse

/-- A text without underscores, none if one of them stands at an end or beside another one. -/
def joined? (cs : List Char) : Option (List Char) :=
  if cs.head? = some '_' ∨ cs.getLast? = some '_' then none
  else if (cs.zip (cs.drop 1)).contains ('_', '_') then none
  else some (cs.filter (· ≠ '_'))

/-! ### Integers -/

/-- How a text comes out that should be an integer. -/
inductive Reading where
  | value (n : Int)
  | tooLong
  | malformed
  deriving DecidableEq, Repr

/-- The integer that a sign and digits write, without needless zeros in front. -/
def readPlain (cs : List Char) : Reading :=
  let digits := if cs.head? = some '-' then cs.drop 1 else cs
  let needless := digits.head? = some '0' ∧ digits.length ≠ 1
  if digits.isEmpty ∨ !digits.all Decimal.isDigit ∨ needless then .malformed
  else if Json.digitLimit < cs.length then .tooLong
  else .value (if cs.head? = some '-' then -(Decimal.natOf digits : Int) else Decimal.natOf digits)

/-- The rest of a number behind a zero: further zeros are passed over, but the last character stays
if nothing else follows or a point does. -/
def dropZeros (last : Char) : List Char → Option (List Char)
  | [] => some [last]
  | c :: rest =>
    if c = '0' ∨ c = '_' then dropZeros c rest
    else if c = '-' ∨ Decimal.isDigit c then some (c :: rest)
    else if c = '.' then some (last :: c :: rest)
    else none

/-- A number without the zeros in front of it. -/
def withoutZeros : List Char → Option (List Char)
  | [] => none
  | c :: rest =>
    if c = '0' then dropZeros c rest
    else if c = '-' ∨ Decimal.isDigit c then some (c :: rest)
    else none

/-- A number without a point that only zeros follow. -/
def withoutFraction (cs : List Char) : List Char :=
  let whole := cs.takeWhile (· ≠ '.')
  if (cs.drop (whole.length + 1)).all (· = '0') then whole else cs

/-- The text of an integer once it is cleaned. -/
def cleaned? (cs : List Char) : Option (List Char) := do
  let cs := trimmed cs
  let cs ← if cs.head? = some '+' then
      if cs[1]? = some '-' then none else some (cs.drop 1)
    else some cs
  let cs := withoutFraction (← withoutZeros cs)
  return (joined? cs).getD cs

/-- The integer that a text writes. -/
def readInteger (s : String) : Reading :=
  match readPlain s.toList with
  | .malformed =>
    match (cleaned? s.toList).map readPlain with
    | some (.value n) => .value n
    | _ => .malformed
  | reading => reading

/-! ### Fractions -/

/-- The fraction that a text writes. -/
def readReal (s : String) : Option Double :=
  Decimal.read (trimmed s.toList) <|> (joined? s.toList).bind Decimal.read

/-- The integer that a fraction is, if it is one of 64 bits. -/
def integerOf (x : Double) : Except String Int :=
  match x, x.toInt? with
  | .finite _ _ _, none => .error "int_from_float"
  | .finite _ _ _, some n =>
    if n.natAbs < Nat.pow 2 63 then .ok n else .error "int_parsing_size"
  | _, _ => .error "finite_number"

example : readInteger "0-_1" = .value (-1) := by decide
example : readInteger "00.0" = .value 0 := by decide
example : readInteger "-01" = .malformed := by decide

end Remedy.Numeral
