/-! Properties of characters as ranges of their numbers. -/

namespace ModuleLoader.Text

/-- The number lies in one of the ranges, whose ends belong to them. -/
def inRanges (ranges : List (Nat × Nat)) (n : Nat) : Bool :=
  ranges.any fun (first, last) => first ≤ n && n ≤ last

end ModuleLoader.Text
