/-!
Binary floating-point numbers of 53 significant bits. A finite number is a mantissa times a power
of two, kept in lowest form: the mantissa has 53 bits unless the exponent is the least one.
`nearest` rounds any non-negative fraction to such a number, a tie going to the even mantissa, and
every operation is the exact one followed by `nearest`; comparison is exact.
-/

set_option autoImplicit false

namespace Remedy

inductive Double where
  | finite (negative : Bool) (mantissa : Nat) (exponent : Int)
  | infinite (negative : Bool)
  | nan
  deriving DecidableEq, Repr

namespace Double

def leastExponent : Int := -1074
def greatestExponent : Int := 971

def zero : Double := .finite false 0 leastExponent

instance : Inhabited Double := ⟨zero⟩

/-- The quotient rounded to the nearest integer, a tie going to the even one. -/
def roundQuotient (num den : Nat) : Nat :=
  let quotient := num / den
  let twice := 2 * (num % den)
  if twice < den then quotient
  else if den < twice then quotient + 1
  else quotient + quotient % 2

/-- The fraction `num / den · 2 ^ (-exponent)` as numerator and denominator. -/
def scaled (num den : Nat) (exponent : Int) : Nat × Nat :=
  if exponent < 0 then (num * Nat.pow 2 (-exponent).toNat, den)
  else (num, den * Nat.pow 2 exponent.toNat)

/-- The exponent at which `num / den` has 53 bits before the point, or the least one. -/
def exponentFor (num den : Nat) : Int :=
  let guess : Int := (Nat.log2 num : Int) - Nat.log2 den - 52
  let (n, d) := scaled num den guess
  max leastExponent (if n < d * Nat.pow 2 52 then guess - 1 else guess)

/-- The number nearest to `num / den` with the given sign, for a positive `den`. -/
def nearest (negative : Bool) (num den : Nat) : Double :=
  if num = 0 then .finite negative 0 leastExponent
  else
    let exponent := exponentFor num den
    let (n, d) := scaled num den exponent
    let mantissa := roundQuotient n d
    let (mantissa, exponent) :=
      if mantissa = Nat.pow 2 53 then (Nat.pow 2 52, exponent + 1) else (mantissa, exponent)
    if greatestExponent < exponent then .infinite negative
    else .finite negative mantissa exponent

/-- An integer as the number nearest to it, if that is finite. -/
def ofInt? (n : Int) : Option Double :=
  match nearest (decide (n < 0)) n.natAbs 1 with
  | .infinite _ => none
  | x => some x

def ofNat (n : Nat) : Double := nearest false n 1

/-- The number nearest to `digits · 10 ^ power`. The powers past which every number is infinite or
zero are cut off before any large power is formed. -/
def ofDecimal (negative : Bool) (digits : Nat) (power : Int) : Double :=
  if digits = 0 then .finite negative 0 leastExponent
  else
    let size : Int := Nat.log2 digits / 4
    if 400 < power + size then .infinite negative
    else if power + 2 * size + 2 < -400 then .finite negative 0 leastExponent
    else if power < 0 then nearest negative digits (Nat.pow 10 (-power).toNat)
    else nearest negative (digits * Nat.pow 10 power.toNat) 1

/-- The signed mantissa of a finite number. -/
def signed (negative : Bool) (mantissa : Nat) : Int := if negative then -mantissa else mantissa

/-- Both mantissas at the lesser of the two exponents, and that exponent. -/
def align (a : Int) (e : Int) (b : Int) (f : Int) : Int × Int × Int :=
  if e ≤ f then (a, b * Nat.pow 2 (f - e).toNat, e) else (a * Nat.pow 2 (e - f).toNat, b, f)

/-- `n · 2 ^ exponent` rounded, with the sign `zeroSign` if it is zero. -/
def nearestScaled (zeroSign : Bool) (n : Int) (exponent : Int) : Double :=
  let negative := if n = 0 then zeroSign else decide (n < 0)
  if exponent < 0 then nearest negative n.natAbs (Nat.pow 2 (-exponent).toNat)
  else nearest negative (n.natAbs * Nat.pow 2 exponent.toNat) 1

/-- The number with the opposite sign. -/
def negate : Double → Double
  | .finite s m e => .finite (!s) m e
  | .infinite s => .infinite (!s)
  | .nan => .nan

def add : Double → Double → Double
  | .nan, _ => .nan
  | _, .nan => .nan
  | .infinite s, .infinite t => if s = t then .infinite s else .nan
  | .infinite s, _ => .infinite s
  | _, .infinite t => .infinite t
  | .finite s m e, .finite t n f =>
    let (a, b, least) := align (signed s m) e (signed t n) f
    nearestScaled (s && t) (a + b) least

def mul : Double → Double → Double
  | .nan, _ => .nan
  | _, .nan => .nan
  | .infinite s, .infinite t => .infinite (s != t)
  | .infinite s, .finite t n _ => if n = 0 then .nan else .infinite (s != t)
  | .finite s m _, .infinite t => if m = 0 then .nan else .infinite (s != t)
  | .finite s m e, .finite t n f => nearestScaled (s != t) (signed s m * signed t n) (e + f)

/-- The quotient by a positive integer. -/
def divNat (x : Double) (k : Nat) : Double :=
  match x with
  | .finite s m e =>
    if e < 0 then nearest s m (k * Nat.pow 2 (-e).toNat) else nearest s (m * Nat.pow 2 e.toNat) k
  | x => x

/-- The order of two numbers, none if one of them is not a number. -/
def compare? : Double → Double → Option Ordering
  | .nan, _ => none
  | _, .nan => none
  | .infinite s, .infinite t =>
    some (if s = t then .eq else if s then .lt else .gt)
  | .infinite s, _ => some (if s then .lt else .gt)
  | _, .infinite t => some (if t then .gt else .lt)
  | .finite s m e, .finite t n f =>
    let (a, b, _) := align (signed s m) e (signed t n) f
    some (compare a b)

def lt (x y : Double) : Bool := x.compare? y == some .lt
def le (x y : Double) : Bool := x.compare? y == some .lt || x.compare? y == some .eq

def isNegativeZero : Double → Bool
  | .finite true 0 _ => true
  | _ => false

/-- The fraction that a finite number is. -/
def toRat? : Double → Option Rat
  | .finite s m e =>
    some (if e < 0 then mkRat (signed s m) (Nat.pow 2 (-e).toNat)
      else (signed s m * Nat.pow 2 e.toNat : Int))
  | _ => none

/-- The integer that a number equals, if there is one. -/
def toInt? (x : Double) : Option Int :=
  match x.toRat? with
  | some q => if q.den = 1 then some q.num else none
  | none => none

/-- Rounds to `places` decimal places: the exact decimal nearest to the number, a tie going to the
even last digit, and then the number nearest to that. -/
def roundTo (places : Nat) : Double → Double
  | .finite s m e =>
    let (num, den) := if e < 0 then (m, Nat.pow 2 (-e).toNat) else (m * Nat.pow 2 e.toNat, 1)
    nearest s (roundQuotient (num * Nat.pow 10 places) den) (Nat.pow 10 places)
  | x => x

end Double

end Remedy
