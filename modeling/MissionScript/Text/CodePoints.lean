/-!
Sets of code points. A property of characters is a table of runs; membership is a search in it.
-/

namespace MissionScript.Text

/-- A set of code points, given by the first and the last point of each of its runs. -/
structure CodePoints where
  runs : List (Nat × Nat)

/-- Whether one of the runs holds the character. -/
def CodePoints.contains (s : CodePoints) (c : Char) : Bool :=
  s.runs.any fun run => run.1 ≤ c.toNat && c.toNat ≤ run.2

theorem CodePoints.contains_iff {s : CodePoints} {c : Char} :
    s.contains c = true ↔ ∃ run ∈ s.runs, run.1 ≤ c.toNat ∧ c.toNat ≤ run.2 := by
  simp [contains]

end MissionScript.Text
