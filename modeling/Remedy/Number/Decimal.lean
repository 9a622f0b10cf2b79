import Remedy.Number.Double

/-!
Numbers as people write them: an optional sign, digits with an optional point, an optional power of
ten, or one of the words for infinity and for what is not a number.
-/

set_option autoImplicit false

namespace Remedy.Decimal

def isDigit (c : Char) : Bool := '0' ≤ c && c ≤ '9'

/-- The number that digits write; other characters do not count. -/
def natOf (cs : List Char) : Nat :=
  cs.foldl (fun n c => if isDigit c then 10 * n + (c.toNat - 48) else n) 0

/-- Takes a sign off the front; the first part says whether it is negative. -/
def readSign : List Char → Bool × List Char
  | '-' :: rest => (true, rest)
  | '+' :: rest => (false, rest)
  | rest => (false, rest)

/-- The power of ten behind a number, zero if there is none. -/
def readPower : List Char → Option Int
  | [] => some 0
  | c :: rest =>
    if c = 'e' ∨ c = 'E' then
      let (negative, digits) := readSign rest
      if digits.isEmpty || !digits.all isDigit then none
      else some (if negative then -(natOf digits : Int) else natOf digits)
    else none

/-- The value of digits, a point and digits, and a power, behind a sign. -/
def readUnsigned (negative : Bool) (cs : List Char) : Option Double :=
  let whole := cs.takeWhile isDigit
  let rest := cs.dropWhile isDigit
  let (fraction, rest) :=
    match rest with
    | '.' :: more => (more.takeWhile isDigit, more.dropWhile isDigit)
    | rest => ([], rest)
  if whole.isEmpty && fraction.isEmpty then none
  else
    (readPower rest).map fun power =>
      Double.ofDecimal negative (natOf (whole ++ fraction)) (power - fraction.length)

/-- The number that a text writes. -/
def read (cs : List Char) : Option Double :=
  let (negative, rest) := readSign cs
  let word := String.ofList (rest.map Char.toLower)
  if word = "inf" ∨ word = "infinity" then some (.infinite negative)
  else if word = "nan" then some .nan
  else readUnsigned negative rest

end Remedy.Decimal
