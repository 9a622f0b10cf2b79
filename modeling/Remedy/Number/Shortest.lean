import Remedy.Number.Double

/-!
The shortest decimal of a number: of the decimals that round back to it, one with the fewest
digits, and of those the nearest. The decimals that round back are those between the midpoints to
the two neighbours, the midpoints included when the mantissa is even.

`Double.text` writes the digits without an exponent where the first digit stands for a power of ten
from 10⁻⁴ to 10¹⁵, and always marks the number as a fraction by a point or an exponent.
-/

set_option autoImplicit false

namespace Remedy.Double

/-- A positive number `m · 2 ^ e` and the midpoints to its neighbours, as numerators over one
denominator. -/
structure Span where
  low : Nat
  value : Nat
  high : Nat
  den : Nat
  closed : Bool

def span (m : Nat) (e : Int) : Span :=
  let narrow := m == Nat.pow 2 52 && leastExponent < e
  let low := if narrow then 4 * m - 1 else 4 * m - 2
  let up := if 2 ≤ e then Nat.pow 2 (e - 2).toNat else 1
  let den := if 2 ≤ e then 1 else Nat.pow 2 (2 - e).toNat
  ⟨low * up, 4 * m * up, (4 * m + 2) * up, den, m % 2 == 0⟩

/-- Whether `digits · 10 ^ power` lies in the span. -/
def Span.has (s : Span) (digits : Nat) (power : Int) : Bool :=
  let n := if 0 ≤ power then digits * Nat.pow 10 power.toNat * s.den else digits * s.den
  let unit := if 0 ≤ power then 1 else Nat.pow 10 (-power).toNat
  let low := s.low * unit
  let high := s.high * unit
  if s.closed then low ≤ n && n ≤ high else low < n && n < high

/-- The number of places before the point: the least `k` with the value below `10 ^ k`. -/
def Span.places (s : Span) : Int :=
  let guess : Int := ((Nat.log2 s.value : Int) - Nat.log2 s.den) * 30103 / 100000
  let below (k : Int) : Bool :=
    if 0 ≤ k then s.value < s.den * Nat.pow 10 k.toNat
    else s.value * Nat.pow 10 (-k).toNat < s.den
  if below (guess - 1) then guess - 1
  else if below guess then guess
  else if below (guess + 1) then guess + 1
  else if below (guess + 2) then guess + 2
  else guess + 3

/-- The digits and power of ten of the shortest decimal with at least `count` digits. -/
def Span.shortest (s : Span) (places : Int) : (fuel count : Nat) → Nat × Int
  | 0, count =>
    let power := places - count
    let (num, den) :=
      if 0 ≤ power then (s.value, s.den * Nat.pow 10 power.toNat)
      else (s.value * Nat.pow 10 (-power).toNat, s.den)
    (roundQuotient num den, power)
  | fuel + 1, count =>
    let power := places - count
    let (num, den) :=
      if 0 ≤ power then (s.value, s.den * Nat.pow 10 power.toNat)
      else (s.value * Nat.pow 10 (-power).toNat, s.den)
    let lower := num / den
    match s.has lower power, s.has (lower + 1) power with
    | true, true => (roundQuotient num den, power)
    | true, false => (lower, power)
    | false, true => (lower + 1, power)
    | false, false => s.shortest places fuel (count + 1)

/-- Removes the zeros at the end of the digits. -/
def dropZeros : (fuel : Nat) → Nat → Int → Nat × Int
  | 0, digits, power => (digits, power)
  | fuel + 1, digits, power =>
    if digits % 10 = 0 ∧ digits ≠ 0 then dropZeros fuel (digits / 10) (power + 1)
    else (digits, power)

/-- Digits and power of ten of the shortest decimal of `m · 2 ^ e`, for a positive `m`. -/
def shortest (m : Nat) (e : Int) : Nat × Int :=
  let s := span m e
  let (digits, power) := s.shortest s.places 17 1
  dropZeros 400 digits power

/-- The text of `digits · 10 ^ power`. -/
def decimalText (digits : Nat) (power : Int) : String :=
  let ds := (Nat.toDigits 10 digits)
  let point : Int := ds.length + power
  if -4 < point ∧ point ≤ 16 then
    if point ≤ 0 then
      "0." ++ String.ofList (List.replicate (-point).toNat '0' ++ ds)
    else if ds.length ≤ point.toNat then
      String.ofList (ds ++ List.replicate (point.toNat - ds.length) '0') ++ ".0"
    else
      String.ofList (ds.take point.toNat) ++ "." ++ String.ofList (ds.drop point.toNat)
  else
    let power := point - 1
    let size := toString power.natAbs
    let size := if size.length < 2 then "0" ++ size else size
    String.ofList (ds.take 1) ++
      (if ds.length = 1 then "" else "." ++ String.ofList (ds.drop 1)) ++
      (if power < 0 then "e-" else "e+") ++ size

def text : Double → String
  | .nan => "nan"
  | .infinite negative => if negative then "-inf" else "inf"
  | .finite negative m e =>
    let sign := if negative then "-" else ""
    if m = 0 then sign ++ "0.0"
    else
      let (digits, power) := shortest m e
      sign ++ decimalText digits power

end Remedy.Double
