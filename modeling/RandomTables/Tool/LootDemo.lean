import RandomTables.Engine.Setup
import RandomTables.Template.Issue
import RandomTables.Template.Token
import RandomTables.Tool.Outcome

/-! # The loot demonstration

Rolls treasure hoards and tavern scenes from the tables in `demos/data`.
-/

namespace RandomTables.Tool.LootDemo

def setup : Setup where
  seed := some "dragon-hoard".toList
  tablesPaths := ["demos/data".toList]

def modifierText : Modifier → Text
  | .capitalize => "Capitalize"
  | .lowercase => "Lowercase"
  | .pluralForm => "PluralForm"
  | .markov => "Markov"

/-! ## Parts -/

def hoards : Engine.Run Text := do
  let hoards ← Engine.generateMany "[loot.hoard]".toList 6
  pure (hoards.mapIdx fun index hoard =>
    line ["  Hoard ", Text.ofNat (index + 1), ": ", hoard.text]).flatten

def scenes : Engine.Run Text := do
  let scenes ← Engine.generateMany "[tavern.scene]".toList 4
  pure (scenes.flatMap fun scene => line ["  ", scene.text] ++ line [])

def strangers : Engine.Run Text := do
  let template := "[npc.first_name.markov] the [occupation.capitalize], carrying \x7ba\x7d [loot.weapon!mace]"
  let strangers ← Engine.generateMany template.toList 5
  pure (strangers.flatMap fun stranger => line ["  ", stranger.text])

def inspection : Text :=
  let template := "\x7ba\x7d [loot.material.capitalize] [loot.weapon*\x7b1-2\x7d!knife?]"
  let report := check "[loot.gem*] and \x7b[loot.coin]|\x7d".toList
  ((tokens template.toList).flatMap fun token =>
    line ["  ", token.raw, " -> path '", token.reference.path, "', modifiers [",
      [',', ' '].intercalate (token.reference.modifiers.map modifierText), "], span ",
      Text.ofNat token.start, "..", Text.ofNat token.stop]) ++
  line ["  valid: ", if report.valid then "true" else "false"] ++
  report.errors.flatMap fun error => line ["    - ", error]

def pick : Engine.Run Text := do
  match ← Engine.selected "loot.material".toList with
  | some text => pure (line ["  one unevaluated material pick: ", text])
  | none => pure []

/-- Everything that the demonstration writes. -/
def transcript : Engine.Run Text := do
  let hoards ← hoards
  let scenes ← scenes
  let strangers ← strangers
  let pick ← pick
  let cursed ← Engine.generate "[loot.cursed]".toList
  pure <|
    line ["=== Treasure Hoards ==="] ++ line [] ++ hoards ++
    line [] ++ line ["=== Tavern Scenes ==="] ++ line [] ++ scenes ++
    line ["=== Wandering Strangers ==="] ++ line [] ++ strangers ++
    line [] ++ line ["=== Inspection ==="] ++ line [] ++ inspection ++ pick ++
    line ["  cursed (literal): ", cursed.text]

/-- Runs the demonstration; there is no outcome if a draw does not end. -/
def run (files : FileTree) (fresh : Random.ChaCha) : Option Outcome :=
  match setup.build files fresh with
  | .error error =>
    some { exit := 101, errors := line ["Failed to build engine: ", error.message] }
  | .ok (engine, _) => (transcript engine).map fun (output, _) => .success output

end RandomTables.Tool.LootDemo
