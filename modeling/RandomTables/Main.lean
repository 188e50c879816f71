import RandomTables.Tool.Linter
import RandomTables.Tool.LootDemo
import RandomTables.Tool.NameSampler
import RandomTables.Tool.Preview

/-! # The command line

The first argument names a tool and the others are its own.
-/

namespace RandomTables.Main

open Tool

/-! ## Files -/

/-- Reads a file, or all files with tables below a folder. Nothing is read where nothing is found,
and from a file that holds no text. -/
partial def readTree (path : String) : IO (Option FileTree) := do
  let place := (← IO.currentDir) / path
  if ← place.isDir then
    let mut entries := #[]
    for entry in ← place.readDir do
      let name := entry.fileName.toList
      if (← entry.path.isDir) || Loaded.isTableFile [name] then
        if let some tree ← readTree entry.path.toString then entries := entries.push (name, tree)
    pure (some (.folder entries.toList))
  else
    try return some (.file (← IO.FS.readFile place).toList)
    catch _ => return none

/-- The files that some paths name. -/
def readAll (paths : List String) : IO FileTree := do
  let trees ← paths.filterMapM fun path => do
    return (← readTree path).map fun tree => (path.toList, tree)
  pure (.ofTrees trees)

/-! ## Output -/

def write (t : Text) : IO Unit := IO.print (String.ofList t)

/-- Writes what a tool leaves behind. -/
def finish (outcome : Outcome) : IO UInt32 := do
  write outcome.output
  IO.eprint (String.ofList outcome.errors)
  pure outcome.exit.toUInt32

/-- A draw that does not end leaves no outcome. -/
def finish? (outcome : Option Outcome) : IO UInt32 :=
  finish (outcome.getD (.failure (line ["ERROR: the random source never fits"])))

/-! ## Tools -/

/-- Answers lines until the input or the session ends. -/
partial def shell (engine : Engine) : IO UInt32 := do
  write Preview.prompt
  (← IO.getStdout).flush
  let input ← (← IO.getStdin).getLine
  if input.isEmpty then return 0
  let command := Preview.Command.read input.toList
  match Preview.answer command engine with
  | none => finish? none
  | some (written, engine) => do
    write written
    if command = .quit then return 0 else shell engine

def preview (arguments : List Text) (files : FileTree) (fresh : Random.ChaCha) : IO UInt32 := do
  match Preview.start arguments files fresh with
  | .error outcome => finish outcome
  | .ok engine => do
    write (Preview.greeting engine)
    shell engine

def usage : Text := line ["Usage: (preview | template_linter | name_sampler | loot_tables) ..."]

def run (tool : String) (arguments : List String) : IO UInt32 := do
  let seed ← IO.getRandomBytes 8
  let fresh := Random.ChaCha.ofSeed (Random.Seed.littleEndian seed.toList)
  let files ← readAll ("demos/data" :: arguments)
  let arguments := arguments.map String.toList
  match tool with
  | "preview" => preview arguments files fresh
  | "template_linter" => finish (Linter.run arguments files)
  | "name_sampler" => finish? (NameSampler.run arguments files fresh)
  | "loot_tables" => finish? (LootDemo.run files fresh)
  | _ => finish (.failure usage)

end RandomTables.Main

def main : List String → IO UInt32
  | [] => RandomTables.Main.finish (.failure RandomTables.Main.usage)
  | tool :: arguments => RandomTables.Main.run tool arguments
