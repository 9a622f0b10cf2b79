/-!
Lists without repetition: each element stays where it occurs first.
-/

set_option autoImplicit false

namespace Remedy

/-- The elements of a list without repetition, in the order of their first occurrence. -/
def distinct {α : Type} [DecidableEq α] (xs : List α) : List α :=
  xs.foldl (fun done x => if x ∈ done then done else done ++ [x]) []

end Remedy
