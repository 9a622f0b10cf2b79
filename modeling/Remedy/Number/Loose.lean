import Remedy.Fault
import Remedy.Number.Decimal
import Remedy.Text.Blank
import Remedy.Text.Digit

/-!
Numbers as people may write them: in digits of any script, with blanks at the ends and, in
fractions, with single underscores between digits. Integers may be written to a base, with its mark
in front of them.
-/

set_option autoImplicit false

namespace Remedy.Loose

/-- A text without blanks at its ends, and with common digits only. -/
def plain (s : String) : List Char :=
  (Text.strip s.toList).map fun c =>
    match Text.digitValue? c with
    | some d => Char.ofNat (48 + d)
    | none => c

/-- A text in which each underscore between two digits is left out, none if there is another one. -/
def withoutUnderscores : (before : Bool) → List Char → Option (List Char)
  | _, [] => some []
  | before, '_' :: rest =>
    match rest with
    | c :: _ =>
      if before && Decimal.isDigit c then withoutUnderscores false rest else none
    | [] => none
  | _, c :: rest => (withoutUnderscores (Decimal.isDigit c) rest).map (c :: ·)

/-- The fraction that a text writes. -/
def real? (s : String) : Option Double := (withoutUnderscores false (plain s)).bind Decimal.read

/-- The same, or what is wrong with the text. -/
def real (s : String) : Except Invalid Double :=
  match real? s with
  | some x => .ok x
  | none => .error (.fraction s)

/-- The mark of a base, which may stand behind a zero. -/
def mark? (base : Nat) : Option Char :=
  match base with
  | 2 => some 'b'
  | 8 => some 'o'
  | 16 => some 'x'
  | _ => none

/-- A number without the mark of its base. -/
def withoutMark (base : Nat) : List Char → List Char
  | '0' :: c :: rest => if mark? base = some c.toLower then rest else '0' :: c :: rest
  | cs => cs

/-- The integer that a text writes to a base of at most sixteen. Where the base is ten, there may
not be too many digits. -/
def integer (base : Nat) (s : String) : Except Invalid Int :=
  let (negative, unsigned) := Decimal.readSign (plain s)
  let isDigit (c : Char) : Bool := (Json.hexValue? c).any (· < base)
  let cs := withoutMark base unsigned
  let digits := cs.takeWhile isDigit
  if base = 10 ∧ Json.digitLimit < digits.length then .error (.longNumber digits.length)
  else if digits.isEmpty ∨ digits.length ≠ cs.length then .error (.numeral base s)
  else
    let n : Int := digits.foldl (fun n c => base * n + (Json.hexValue? c).getD 0) 0
    .ok (if negative then -n else n)

end Remedy.Loose
