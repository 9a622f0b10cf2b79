/-!
Sets of code points given as closed ranges in increasing order, the form in which the character
properties of this library are tabulated.
-/

set_option autoImplicit false

namespace Remedy.Text

/-- Closed ranges of code points, in increasing order and apart from each other. -/
abbrev Ranges := Array (Nat × Nat)

/-- Looks a code point up by halving the part of the table between `low` and `high`. -/
def Ranges.search (table : Ranges) (point : Nat) : (fuel low high : Nat) → Bool
  | 0, _, _ => false
  | fuel + 1, low, high =>
    if low < high then
      let middle := (low + high) / 2
      match table[middle]? with
      | none => false
      | some (first, last) =>
        if point < first then table.search point fuel low middle
        else if last < point then table.search point fuel (middle + 1) high
        else true
    else false

def Ranges.has (table : Ranges) (c : Char) : Bool :=
  table.search c.toNat (table.size + 1) 0 table.size

end Remedy.Text
