import Remedy.Number.Shortest

/-!
Numbers as reports and settings hold them: an integer stays an integer, a fraction is a binary
floating-point number, and the two compare by their exact values. A truth value may stand for a
number; it counts as zero or one and is shown as what it is.
-/

set_option autoImplicit false

namespace Remedy

inductive Number where
  | int (n : Int)
  | real (x : Double)
  | truth (b : Bool)
  deriving DecidableEq, Repr, Inhabited

namespace Number

instance (n : Nat) : OfNat Number n := ⟨.int n⟩

def text : Number → String
  | .int n => toString n
  | .real x => x.text
  | .truth b => if b then "True" else "False"

/-- The integer that a number is, none for a fraction. -/
def int? : Number → Option Int
  | .int n => some n
  | .real _ => none
  | .truth b => some (if b then 1 else 0)

/-- The exact value of a number; an integer may be larger than a fraction can be. -/
def exact : Number → Double
  | .int n => .finite (decide (n < 0)) n.natAbs 0
  | .real x => x
  | .truth b => .finite false (if b then 1 else 0) 0

/-- The order of the exact values, none if one of them is not a number. -/
def compare? : Number → Number → Option Ordering
  | .int a, .int b => some (compare a b)
  | a, b => a.exact.compare? b.exact

def lt (a b : Number) : Bool := a.compare? b == some .lt
def le (a b : Number) : Bool := a.compare? b == some .lt || a.compare? b == some .eq
def eq (a b : Number) : Bool := a.compare? b == some .eq

/-- The lesser of two numbers, the first if neither is less. -/
def min (a b : Number) : Number := if b.lt a then b else a

/-- The greater of two numbers, the first if neither is greater. -/
def max (a b : Number) : Number := if a.lt b then b else a

/-- The number as a fraction, unless it is an integer too large for one. -/
def toDouble? (a : Number) : Option Double :=
  match a, a.int? with
  | .real x, _ => some x
  | _, some n => Double.ofInt? n
  | _, none => none

/-- The sum: an integer if both are, else none if an integer is too large for a fraction. -/
def add? (a b : Number) : Option Number :=
  match a.int?, b.int? with
  | some m, some n => some (.int (m + n))
  | _, _ => do return .real ((← a.toDouble?).add (← b.toDouble?))

/-- The difference, under the same rules as the sum. -/
def sub? (a b : Number) : Option Number :=
  match a.int?, b.int? with
  | some m, some n => some (.int (m - n))
  | _, _ => do return .real ((← a.toDouble?).add (← b.toDouble?).negate)

/-- The exact value of a finite number. -/
def toRat? (a : Number) : Option Rat :=
  match a, a.int? with
  | .real x, _ => x.toRat?
  | _, some n => some n
  | _, none => none

def isZero (a : Number) : Bool := a.eq 0

/-- Three decimal places for a fraction; an integer stays as it is. -/
def rounded (a : Number) : Number :=
  match a, a.int? with
  | .real x, _ => .real (x.roundTo 3)
  | _, some n => .int n
  | a, none => a

end Number

/-- Whether an integer has at most 64 bits. -/
def isWord (n : Int) : Bool := decide (-(Nat.pow 2 63 : Int) ≤ n) && decide (n < Nat.pow 2 63)

/-- A whole number of seconds as a fraction. -/
def seconds (n : Nat) : Number := .real (Double.ofNat n)

end Remedy
