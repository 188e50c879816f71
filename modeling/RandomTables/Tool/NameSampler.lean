import RandomTables.Name.Sample
import RandomTables.Random.ChaCha
import RandomTables.Random.Seed
import RandomTables.Table.Load
import RandomTables.Tool.Outcome

/-! # The name sampler

Trains a character model on one list and prints samples of it.
-/

namespace RandomTables.Tool.NameSampler

def usage : Text := line [
  "Usage: name_sampler --tables <path> --table <dotted.path> [--count <n>] ",
  "[--order <1-4>] [--min <n>] [--max <n>] [--seed <text>]"]

structure Settings where
  tablesPath : Option Text := none
  table : Option Text := none
  count : Nat := 10
  seed : Option Text := none
  options : Name.Options := {}

/-! ## Arguments -/

/-- Reads the number behind a flag. -/
def numberFor (flag value : Text) : Except Outcome Nat :=
  match number? value with
  | some n => .ok n
  | none => .error (.failure (line ["Error: ", flag, " expects a number, got '", value, "'"]))

/-- What a flag with a value sets; nothing if there is no such flag. -/
def Settings.set? (settings : Settings) (flag value : Text) : Option (Except Outcome Settings) :=
  if flag = "--tables".toList then some (.ok { settings with tablesPath := some value })
  else if flag = "--table".toList then some (.ok { settings with table := some value })
  else if flag = "--count".toList then
    some ((numberFor flag value).map fun count => { settings with count })
  else if flag = "--order".toList then
    some ((numberFor flag value).map fun order =>
      { settings with options := { settings.options with order } })
  else if flag = "--min".toList then
    some ((numberFor flag value).map fun minLength =>
      { settings with options := { settings.options with minLength } })
  else if flag = "--max".toList then
    some ((numberFor flag value).map fun maxLength =>
      { settings with options := { settings.options with maxLength } })
  else if flag = "--seed".toList then some (.ok { settings with seed := some value })
  else none

/-- Reads arguments from left to right; the first that ends the run decides its outcome. -/
def Settings.read (settings : Settings) : List Text → Except Outcome Settings
  | [] => .ok settings
  | [argument] =>
    if argument = "--help".toList ∨ argument = "-h".toList then .error (.success usage)
    else .error (.failure (line ["Unknown argument: ", argument]))
  | argument :: value :: rest =>
    match settings.set? argument value with
    | some (.ok settings) => settings.read rest
    | some (.error outcome) => .error outcome
    | none =>
      if argument = "--help".toList ∨ argument = "-h".toList then .error (.success usage)
      else .error (.failure (line ["Unknown argument: ", argument]))

/-! ## Sampling -/

/-- What the sampler says of the model before it samples. -/
def heading (entries : List Text) (options : Name.Options) : Text :=
  let model := Name.Model.train (Name.trainingWords entries) options.order
  line ["Trained order-", Text.ofNat model.order, " model on ", Text.ofNat entries.length,
    " words: ", Text.ofNat model.rows.length, " unique prefixes, ",
    Text.ofNat (model.rows.flatMap Prod.snd).length, " transitions"]

def sampleLine (sample : Name.Sample) : Text :=
  line ["  ", sample.word, if sample.isKnown then "  (from input)" else ""]

/-- The source of the seed, or else a fresh one. -/
def Settings.source (settings : Settings) (fresh : Random.ChaCha) : Random.ChaCha :=
  match settings.seed with
  | some seed => Random.ChaCha.ofSeed (Random.Seed.ofText seed)
  | none => fresh

/-- What is printed of some samples, and of the failure that ended them. -/
def report (settings : Settings) (entries : List Text) (samples : List Name.Sample)
    (failure : Option Name.Failure) : Outcome :=
  let output := heading entries settings.options ++ samples.flatMap sampleLine
  match failure with
  | some failure => { exit := 1, output, errors := line ["Error: ", failure.message] }
  | none =>
    .success (output ++ line [] ++ line [
      Text.ofNat (samples.filter (!·.isKnown)).length, " of ", Text.ofNat settings.count,
      " samples are new words"])

/-- Samples a list. -/
def sampleList (settings : Settings) (entries : List Text) (fresh : Random.ChaCha) :
    Option Outcome :=
  (Name.samples entries settings.options settings.count (settings.source fresh)).map
    fun ((samples, failure), _) => report settings entries samples failure

/-- Runs the sampler; there is no outcome if a draw does not end. -/
def run (arguments : List Text) (files : FileTree) (fresh : Random.ChaCha) : Option Outcome :=
  match Settings.read {} arguments with
  | .error outcome => some outcome
  | .ok settings =>
    match settings.tablesPath, settings.table with
    | none, _ => some (.failure (line ["Error: --tables is required"] ++ usage))
    | some _, none => some (.failure (line ["Error: --table is required"] ++ usage))
    | some path, some table =>
      let options := settings.options
      if options.order < 1 ∨ 4 < options.order then
        some (.failure (line ["Error: --order must be between 1 and 4"]))
      else if options.maxLength < options.minLength then
        some (.failure (line ["Error: --min must not exceed --max"]))
      else
        match Loaded.ofPath files path with
        | .error error =>
          some (.failure (line ["Error loading tables from '", path, "': ", error.message]))
        | .ok loaded =>
          match loaded.store.list? table with
          | none => some (.failure (line ["Error: no list table at '", table, "'"]))
          | some entries => sampleList settings entries fresh

end RandomTables.Tool.NameSampler
