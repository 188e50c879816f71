import RandomTables.Text.Alphanumeric.Table
import RandomTables.Text.Basic

/-! # Letters and digits -/

namespace RandomTables.Text

/-- The code point lies in one of the runs, given by their first and last members. -/
def inRuns (runs : List (Nat × Nat)) (c : Char) : Bool :=
  runs.any fun (first, last) => first ≤ c.toNat && c.toNat ≤ last

/-- The code point is a letter or a digit of some script. -/
def isAlphanumeric (c : Char) : Bool :=
  if c.toNat < 0x80 then c.isAlphanum else inRuns Alphanumeric.runs c

end RandomTables.Text
