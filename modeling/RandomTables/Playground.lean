import RandomTables.Demo.Tables
import RandomTables.Engine.Setup
import RandomTables.Json
import RandomTables.Template.Issue
import RandomTables.Template.Token

/-! # The playground

An engine over given or bundled tables whose answers are JSON texts.
-/

namespace RandomTables

/-! ## Values as JSON -/

def Repetition.toJson : Repetition → Json
  | .fixed count => .object [("Fixed".toList, .number count.toNat)]
  | .range min max => .object [("Range".toList, .object [
      ("min".toList, .number min.toNat), ("max".toList, .number max.toNat)])]

def Token.toJson (token : Token) : Json := .object [
  ("path".toList, .string token.reference.path),
  ("modifiers".toList, .array (token.reference.modifiers.map fun modifier => .string modifier.name)),
  ("optional".toList, .bool token.reference.isOptional),
  ("exclusions".toList, .array (token.reference.exclusions.map .string)),
  ("repetition".toList, token.reference.repetition.toJson),
  ("raw".toList, .string token.raw),
  ("span".toList, .object [
    ("start".toList, .number token.start), ("end".toList, .number token.stop)])]

def Report.toJson (report : Report) : Json := .object [
  ("valid".toList, .bool report.valid),
  ("errors".toList, .array (report.errors.map .string))]

mutual

def Value.toJson : Value → Json
  | .list items => .array (items.map .string)
  | .map entries => .object (Value.entriesToJson entries)
  | .scalar text => .string text

def Value.entriesToJson : List (Text × Value) → List (Text × Json)
  | [] => []
  | (key, value) :: rest => (key, Value.toJson value) :: Value.entriesToJson rest

end

namespace Playground

/-! ## Opening -/

/-- The bundled tables by name. -/
def presets : List (Text × Store) := [("tavern".toList, Demo.tavern), ("loot".toList, Demo.loot)]

def availablePresets : Text := (Json.array (presets.map fun (name, _) => .string name)).render

/-- An engine over some tables; an empty seed does not fix the source. -/
def openTables (tables : Store) (seed : Text) (fresh : Random.ChaCha) : Engine :=
  .new tables { seed := if seed.isEmpty then none else some seed } fresh

/-- An engine over the tables in a text. -/
def openText (tables seed : Text) (fresh : Random.ChaCha) : Except LoadError Engine :=
  (Loaded.ofText tables).map fun loaded => openTables loaded.store seed fresh

/-- An engine over bundled tables. -/
def openPreset? (name seed : Text) (fresh : Random.ChaCha) : Option Engine :=
  (presets.lookup name).map fun tables => openTables tables seed fresh

/-! ## Answers -/

def generate (template : Text) : Engine.Run Text := do
  return (← Engine.generate template).text

def generateMany (template : Text) (count : Nat) : Engine.Run Text := do
  let texts ← Engine.generateMany template count
  pure (Json.array (texts.map fun generated => .string generated.text)).render

def validate (template : Text) : Text := (check template).toJson.render

def references (template : Text) : Text := (Json.array ((tokens template).map Token.toJson)).render

def raw (engine : Engine) (path : Text) : Text :=
  match engine.raw? path with
  | some value => value.toJson.render
  | none => Json.null.render

end Playground

end RandomTables
