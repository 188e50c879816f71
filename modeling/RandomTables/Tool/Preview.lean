import RandomTables.Decimal.Rounded
import RandomTables.Engine.Setup
import RandomTables.Template.Issue
import RandomTables.Template.Token
import RandomTables.Text.Quoted
import RandomTables.Tool.Outcome

/-! # The preview shell

Generates from templates typed line by line. What a line writes is a function of the line and the
engine, so that a whole session is one too.
-/

namespace RandomTables.Tool.Preview

/-! ## Arguments -/

def usage : Text := line [
  "Usage: preview --tables <path> [--config <file.ron>] [--seed <text>] [--max-depth <n>] [--debug]"]

/-- Reads arguments from left to right; the first that is wrong decides the outcome. -/
def readArguments (setup : Setup) : List Text → Except Outcome Setup
  | [] => .ok setup
  | [argument] =>
    if argument = "--debug".toList then .ok { setup with debug := some true }
    else .error { exit := 1, output := usage, errors := line ["Unknown argument: ", argument] }
  | argument :: value :: rest =>
    if argument = "--tables".toList then readArguments { setup with tablesPaths := [value] } rest
    else if argument = "--config".toList then
      readArguments { setup with configPath := some value } rest
    else if argument = "--seed".toList then readArguments { setup with seed := some value } rest
    else if argument = "--max-depth".toList then
      match number? value with
      | some depth => readArguments { setup with maxDepth := some depth } rest
      | none => .error (.failure (line ["Invalid --max-depth: ", value]))
    else if argument = "--debug".toList then
      readArguments { setup with debug := some true } (value :: rest)
    else .error { exit := 1, output := usage, errors := line ["Unknown argument: ", argument] }

/-! ## Values in lines -/

/-- A list of quoted texts. -/
def quotedList (texts : List Text) : Text :=
  '[' :: [',', ' '].intercalate (texts.map Text.quoted) ++ [']']

def repetitionText : Repetition → Text
  | .fixed count => "Fixed(".toList ++ Text.ofNat count.toNat ++ [')']
  | .range min max =>
    "Range \x7b min: ".toList ++ Text.ofNat min.toNat ++ ", max: ".toList ++
      Text.ofNat max.toNat ++ " \x7d".toList

def flagText (flag : Bool) : Text := if flag then "true" else "false"

def tokenLine (token : Token) : Text :=
  let reference := token.reference
  line ["  ", Text.quoted token.raw, " at ", Text.ofNat token.start, "..", Text.ofNat token.stop,
    "  path=", reference.path,
    " modifiers=", quotedList (reference.modifiers.map Modifier.name),
    " optional=", flagText reference.isOptional,
    " exclusions=", quotedList reference.exclusions,
    " repetition=", repetitionText reference.repetition]

mutual

/-- The lines of a value, each level of maps two columns further in. -/
def valueLines (indent : Text) : Value → Text
  | .scalar text => line [indent, text]
  | .list items => items.flatMap fun item => line [indent, "- ", item]
  | .map entries => entryLines indent entries

def entryLines (indent : Text) : List (Text × Value) → Text
  | [] => []
  | (key, value) :: rest =>
    line [indent, key, ":"] ++ valueLines (indent ++ [' ', ' ']) value ++ entryLines indent rest

end

/-- Outputs with their numbers, which stand in four columns. -/
def numberedLines (outputs : List Text) : Text :=
  (outputs.mapIdx fun index output =>
    let number := Text.ofNat (index + 1)
    line [List.replicate (4 - number.length) ' ', number, ". ", output]).flatten

/-- How many outputs differ, and how long they are on average. -/
def varietyLines (outputs : List Text) : Text :=
  let count := Float.ofNat outputs.length
  let distinct := outputs.eraseDups.length
  line [] ++ line ["--- Variety ---"] ++
    line ["  ", Text.ofNat distinct, " unique of ", Text.ofNat outputs.length, " (",
      Decimal.roundedText 0 (Float.ofNat distinct * 100 / count), "%)"] ++
    line ["  average length: ",
      Decimal.roundedText 1 (Float.ofNat outputs.flatten.length / count), " chars"]

/-! ## Commands -/

inductive Command where
  | nothing
  | quit
  | help
  | gen (template : Text)
  | bulk (arguments : Text)
  | tokens (template : Text)
  | check (template : Text)
  | raw (path : Text)
  | pick (path : Text)
  | seed (text : Text)
  /-- A line that names no command is a template. -/
  | template (template : Text)
  deriving DecidableEq

/-- The first word of a line in lower case, and what stands behind it. -/
def cutCommand (input : Text) : Text × Text :=
  match Text.cutAt? Text.isBlank input with
  | some (name, rest) => (Text.lower name, Text.trim rest)
  | none => (Text.lower input, [])

def Command.read (input : Text) : Command :=
  let input := Text.trim input
  let (name, rest) := cutCommand input
  if input.isEmpty then .nothing
  else if ["quit", "exit", "q"].any (·.toList == name) then .quit
  else if ["help", "h", "?"].any (·.toList == name) then .help
  else if name = "gen".toList then .gen rest
  else if name = "bulk".toList then .bulk rest
  else if name = "tokens".toList then .tokens rest
  else if name = "check".toList then .check rest
  else if name = "raw".toList then .raw rest
  else if name = "pick".toList then .pick rest
  else if name = "seed".toList then .seed rest
  else .template input

def helpLines : Text :=
  line ["Commands:"] ++
  line ["  gen <template>        generate once"] ++
  line ["  bulk <n> <template>   generate n times with variety stats"] ++
  line ["  tokens <template>     list table references"] ++
  line ["  check <template>      validate without generating"] ++
  line ["  raw <path>            show a stored value"] ++
  line ["  pick <path>           one weighted pick, unevaluated"] ++
  line ["  seed <text>           re-seed the engine"] ++
  line ["  help                  list commands"] ++
  line ["  quit                  exit"] ++
  line ["Any other input is treated as a template."]

def generated (template : Text) : Engine.Run Text := do
  return line [(← Engine.generate template).text]

/-- Generates many times and tells how much the outputs vary. -/
def bulk (arguments : Text) : Engine.Run Text :=
  match Text.cutAt? Text.isBlank arguments with
  | none => pure (line ["Usage: bulk <n> <template>"])
  | some (count, template) =>
    match (number? count).filter (0 < ·) with
    | none => pure (line ["Invalid count: ", count])
    | some count => do
      let outputs := (← Engine.generateMany (Text.trim template) count).map Generated.text
      pure (numberedLines outputs ++ varietyLines outputs)

def seedText (engine : Engine) : Text := engine.config.seed.getD "(random)"

/-- What a command writes; `quit` ends the session besides. -/
def answer : Command → Engine.Run Text
  | .nothing => pure []
  | .quit => pure (line ["Goodbye."])
  | .help => pure helpLines
  | .gen template =>
    if template.isEmpty then pure (line ["Usage: gen <template>"]) else generated template
  | .bulk arguments => bulk arguments
  | .tokens template =>
    let tokens := RandomTables.tokens template
    pure (if tokens.isEmpty then line ["No table references."] else tokens.flatMap tokenLine)
  | .check template =>
    let report := RandomTables.check template
    pure ((if report.valid then line ["Template is valid."] else []) ++
      report.errors.flatMap fun error => line ["ERROR: ", error])
  | .raw path => do
    let engine ← get
    match engine.raw? path with
    | some value => pure (valueLines [' ', ' '] value)
    | none => pure (line ["No table at '", path, "'"])
  | .pick path => do
    match ← Engine.selected path with
    | some text => pure (line [text])
    | none => pure (line ["No list at '", path, "'"])
  | .seed text => do
    if text.isEmpty then
      let engine ← get
      pure (line ["Current seed: ", seedText engine])
    else
      Engine.reseed text
      pure (line ["Seed set to ", text])
  | .template template => generated template

/-! ## Sessions -/

def prompt : Text := "preview> "

/-- The lines of an input; the last may lack its end. -/
def inputLines (input : Text) : List Text :=
  let parts := input.splitOn '\n'
  if parts.getLast? = some [] then parts.dropLast else parts

/-- Everything that the shell writes over some lines of input. -/
def session : List Text → Engine.Run Text
  | [] => pure prompt
  | input :: rest => do
    let command := Command.read input
    let written ← answer command
    if command = .quit then pure (prompt ++ written)
    else do
      let more ← session rest
      pure (prompt ++ written ++ more)

def greeting (engine : Engine) : Text :=
  line ["Loaded ", Text.ofNat engine.tables.names.length, " top-level tables"] ++
  line ["Seed: ", seedText engine] ++
  line ["Max depth: ", Text.ofNat engine.config.maxDepth] ++
  line ["Type 'help' for commands."] ++
  line []

/-- The engine that some arguments ask for, or the outcome if there is no session. -/
def start (arguments : List Text) (files : FileTree) (fresh : Random.ChaCha) :
    Except Outcome Engine :=
  if arguments.head?.all fun first => first = "--help".toList || first = "-h".toList then
    .error (.success usage)
  else
    match readArguments {} arguments with
    | .error outcome => .error outcome
    | .ok setup =>
      match setup.build files fresh with
      | .error error => .error (.failure (line ["ERROR: ", error.message]))
      | .ok (engine, _) => .ok engine

/-- Runs the shell on an input; there is no outcome if a draw does not end. -/
def run (arguments : List Text) (files : FileTree) (input : Text) (fresh : Random.ChaCha) :
    Option Outcome :=
  match start arguments files fresh with
  | .error outcome => some outcome
  | .ok engine =>
    (session (inputLines input) engine).map fun (written, _) => .success (greeting engine ++ written)

end RandomTables.Tool.Preview
