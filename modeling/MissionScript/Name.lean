import MissionScript.Text.Lowercase

/-!
Names of operators, variables, events, goals, ships, wings, pilots and campaigns. Two spellings
are the same name if their lowercase forms agree; every table is filed under that form.
-/

namespace MissionScript

/-- The key that a name is filed under. -/
def foldName (name : String) : String :=
  Text.lowercase name

/-- Whether two spellings are the same name. -/
def sameName (a b : String) : Bool :=
  foldName a == foldName b

theorem sameName_iff {a b : String} : sameName a b = true ↔ foldName a = foldName b := by
  simp [sameName]

@[simp] theorem sameName_refl (a : String) : sameName a a = true := by
  simp [sameName]

theorem sameName_comm (a b : String) : sameName a b = sameName b a := by
  simp only [sameName, BEq.comm]

end MissionScript
