import RandomTables.Template.Bracket
import RandomTables.Template.Clause

/-! # Reading a reference -/

namespace RandomTables.Reference

/-- Takes modifier names off the end of a path. The path is given from its last segment to its
first and keeps at least one; the modifiers come back in reading order. -/
def peel : List Text → List Text × List Modifier
  | last :: segment :: rest =>
    match Modifier.ofName? (Text.trim last) with
    | some modifier =>
      let (path, modifiers) := peel (segment :: rest)
      (path, modifiers ++ [modifier])
    | none => (last :: segment :: rest, [])
  | segments => (segments, [])

/-- The path and the modifiers of what stands before the clauses, or nothing if the path is empty.
A bracket inside keeps the whole text as the path. -/
def path? (t : Text) : Option (Text × List Modifier) :=
  let t := Text.trim t
  if t.contains '[' || t.contains '{' then some (t, [])
  else
    let (segments, modifiers) := peel (t.splitOn '.').reverse
    let path := Text.trim (['.'].intercalate segments.reverse)
    if path.isEmpty then none else some (path, modifiers)

/-- Reads what stands between `[` and `]`. -/
def parse? (t : Text) : Option Reference :=
  let (path, clauses) := Bracket.cutOutside Clause.isMark 0 (Text.trim t)
  (path? path).map fun (path, modifiers) =>
    (Clause.readAll clauses).foldl Clause.apply { path, modifiers }

end RandomTables.Reference
