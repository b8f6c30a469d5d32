/-!
# Sets of characters given by ranges

A character property of the Unicode standard is a list of closed ranges of code points. The tables
of this folder are such lists; the two lemmas below are what the rest of the library needs of them.
-/
namespace JavaStubs.Text

/-- A list of closed ranges of code points. -/
abbrev Ranges := List (Nat × Nat)

/-- Whether one of the ranges holds the code point. -/
def Ranges.contains (ranges : Ranges) (code : Nat) : Bool :=
  ranges.any fun range => range.1 ≤ code && code ≤ range.2

theorem Ranges.contains_iff {ranges : Ranges} {code : Nat} :
    ranges.contains code = true ↔ ∃ range ∈ ranges, range.1 ≤ code ∧ code ≤ range.2 := by
  simp [Ranges.contains]

@[simp] theorem Ranges.contains_append (first second : Ranges) (code : Nat) :
    Ranges.contains (first ++ second) code = (first.contains code || second.contains code) := by
  simp [Ranges.contains]

end JavaStubs.Text
