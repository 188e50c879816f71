import RandomTables.FileTree
import RandomTables.Random.Seed
import RandomTables.Ron.Record

/-! # Configuration -/

namespace RandomTables

structure Config where
  /-- How many selected entries a run reads as templates. -/
  maxDepth : Nat := 10
  /-- Diagnostics are recorded. -/
  debug : Bool := false
  /-- Fixes the random source. -/
  seed : Option Text := none
  deriving DecidableEq

/-- Why a configuration cannot be read. -/
inductive ConfigError where
  | io (error : FileError)
  | ron
  deriving DecidableEq

def ConfigError.message : ConfigError → Text
  | .io error => "IO error: ".toList ++ error.message
  | .ron => "RON deserialization error".toList

namespace Config

def sourceSeed (config : Config) : Option UInt64 := config.seed.map Random.Seed.ofText

/-! ## Reading -/

/-- What a text states. -/
structure Stated where
  maxDepth : Option Nat := none
  debug : Option Bool := none
  seed : Option (Option Text) := none

/-- Reads a value that is not stated yet. -/
def once? {α : Type} (before : Option α) (value : Ron.Reader α) : Ron.Reader (Option α) := fun t =>
  if before.isSome then none else (value t).map fun (a, rest) => (some a, rest)

/-- Reads a field. Other names are ignored. -/
def field? : Ron.FieldReader Stated := fun extensions stated name t =>
  if name == "max_depth".toList then
    (once? stated.maxDepth (Ron.natural? UInt64.size) t).map fun (maxDepth, rest) =>
      ({ stated with maxDepth }, rest)
  else if name == "debug".toList then
    (once? stated.debug Ron.bool? t).map fun (debug, rest) => ({ stated with debug }, rest)
  else if name == "seed".toList then
    let implicit := extensions.contains "implicit_some".toList
    (once? stated.seed (Ron.option? implicit Ron.string?) t).map fun (seed, rest) =>
      ({ stated with seed }, rest)
  else Ron.ignoredField? extensions stated name t

/-- Reads a configuration. What is not stated has its default. -/
def ofRon? (t : Text) : Option Config :=
  (Ron.record? "EngineConfig".toList field? {} t).map fun stated =>
    let default : Config := {}
    { maxDepth := stated.maxDepth.getD default.maxDepth
      debug := stated.debug.getD default.debug
      seed := stated.seed.getD default.seed }

/-- Reads the configuration in the file under a path. -/
def ofPath (files : FileTree) (path : Text) : Except ConfigError Config :=
  match files.read path with
  | .error error => .error (.io error)
  | .ok content =>
    match ofRon? content with
    | some config => .ok config
    | none => .error .ron

end Config

end RandomTables
