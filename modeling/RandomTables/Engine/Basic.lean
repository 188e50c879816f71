import RandomTables.Config
import RandomTables.Evaluator
import RandomTables.Random.ChaCha

/-! # The engine

Tables, a configuration and a word source of its own. Each text is generated in a fresh session.
-/

namespace RandomTables

/-- A generated text with its diagnostics. -/
structure Generated where
  text : Text
  trace : List Event := []

structure Engine where
  tables : Store
  config : Config
  names : Name.Options := {}
  source : Random.ChaCha

namespace Engine

/-- A computation that may change an engine; it has no result if one of its draws does not end. -/
abbrev Run := StateT Engine Option

/-! ## Making -/

/-- The source that a configuration fixes, or else a fresh one. -/
def sourceFor (config : Config) (fresh : Random.ChaCha) : Random.ChaCha :=
  match config.sourceSeed with
  | some seed => .ofSeed seed
  | none => fresh

def new (tables : Store) (config : Config) (fresh : Random.ChaCha) : Engine where
  tables
  config
  source := sourceFor config fresh

/-! ## Generating -/

def evaluator (engine : Engine) : Evaluator where
  tables := engine.tables
  debug := engine.config.debug
  names := engine.names

/-- Evaluates a template in a session and resolves the articles. -/
def evaluate {σ : Type} [WordSource σ] (evaluator : Evaluator) (template : Text) : Eval σ Text := do
  evaluator.report (.parsed template)
  let output ← evaluator.evaluate (parse template)
  let session ← get
  evaluator.report (.generated template session.depth output)
  pure (Article.resolve output)

/-- Generates from a template with a given source. A quoted template is literal. -/
def generateWith {σ : Type} [WordSource σ] (engine : Engine) (template : Text) :
    Draw σ Generated := fun source =>
  match literal? template with
  | some text => some ({ text }, source)
  | none =>
    let session : Session σ := { maxDepth := engine.config.maxDepth, source }
    (evaluate engine.evaluator template session).map fun (text, session) =>
      ({ text, trace := session.trace.toList }, session.source)

/-- Draws from the engine's own source. -/
def draw {α : Type} (d : Draw Random.ChaCha α) : Run α := fun engine =>
  (d engine.source).map fun (a, source) => (a, { engine with source })

def generate (template : Text) : Run Generated := do
  let engine ← get
  draw (engine.generateWith template)

/-- Generates this many texts from one template. -/
def generateMany (template : Text) : (count : Nat) → Run (List Generated)
  | 0 => pure []
  | count + 1 => do
    let first ← generate template
    let rest ← generateMany template count
    pure (first :: rest)

/-! ## The tables -/

/-- The stored value at a dotted path. -/
def raw? (engine : Engine) (path : Text) : Option Value := engine.tables.raw? path

/-- One weighted pick from the list at a dotted path, unevaluated, or the text of a scalar. -/
def selected (path : Text) : Run (Option Text) := do
  let engine ← get
  match engine.raw? path with
  | some (.list entries) => draw (Weighted.chooseText entries)
  | some (.scalar text) => pure (some text)
  | some (.map _) => pure none
  | none => pure none

/-! ## The source -/

/-- Fixes the source anew. -/
def reseed (seed : Text) : Run Unit :=
  modify fun engine =>
    { engine with
      config := { engine.config with seed := some seed }
      source := .ofSeed (Random.Seed.ofText seed) }

end Engine

end RandomTables
