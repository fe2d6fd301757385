/-!
# Ranges of code points

A character property of the Unicode standard is given as a list of inclusive ranges of code
points, in ascending order.
-/

namespace SkillScript

/-- The code point of `c` lies in one of the inclusive ranges. -/
def inRanges (ranges : List (Nat × Nat)) (c : Char) : Bool :=
  ranges.any fun r => decide (r.1 ≤ c.toNat) && decide (c.toNat ≤ r.2)

theorem inRanges_iff (ranges : List (Nat × Nat)) (c : Char) :
    inRanges ranges c = true ↔ ∃ r ∈ ranges, r.1 ≤ c.toNat ∧ c.toNat ≤ r.2 := by
  simp [inRanges]

end SkillScript
