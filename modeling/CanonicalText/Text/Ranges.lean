/-!
# Ranges of code points

A class of characters is a table of stretches of code points, each given by its first and its last one, in
ascending order.

* `inRanges` : whether a code point belongs to a table (`inRanges_eq_true_iff`).
-/

namespace CanonicalText

def inRanges (ranges : List (Nat × Nat)) (n : Nat) : Bool :=
  ranges.any fun r => r.1 ≤ n && n ≤ r.2

theorem inRanges_eq_true_iff {ranges : List (Nat × Nat)} {n : Nat} :
    inRanges ranges n = true ↔ ∃ r ∈ ranges, r.1 ≤ n ∧ n ≤ r.2 := by
  simp [inRanges]

end CanonicalText
