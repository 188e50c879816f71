import RandomTables.Engine.Basic
import RandomTables.Template.Issue
import RandomTables.Template.Token

/-! # Commands to an engine -/

namespace RandomTables.Engine

open RandomTables.Random (Counted Source)

inductive Command where
  | generate (template : Text)
  | generateMany (template : Text) (count : Nat)
  | selected (path : Text)
  | reseed (seed : Text)
  /-- Generates with a source that is not the engine's own. -/
  | generateWith (template : Text) (source : Counted Source)
  | parse (template : Text)
  | check (template : Text)
  | tokens (template : Text)
  | raw (path : Text)
  | tables
  | config

inductive Reply where
  | text (text : Text)
  | texts (texts : List Text)
  | selection (text : Option Text)
  | reseeded
  | drawn (text : Text) (source : Counted Source)
  | tree (node : Node)
  | report (report : Report)
  | tokens (tokens : List Token)
  | value (value : Option Value)
  | tables (tables : Store)
  | config (config : Config)

namespace Command

/-- The command looks at the engine and leaves it as it is. -/
def observes : Command → Bool
  | .generate _ | .generateMany .. | .selected _ | .reseed _ => false
  | .generateWith .. | .parse _ | .check _ | .tokens _ | .raw _ | .tables | .config => true

/-- Carries out a command; what it reports comes with the reply. -/
def perform : Command → Run (Reply × List Event)
  | .generate template => do
    let generated ← Engine.generate template
    pure (.text generated.text, generated.trace)
  | .generateMany template count => do
    let all ← Engine.generateMany template count
    pure (.texts (all.map Generated.text), all.flatMap Generated.trace)
  | .selected path => do
    let text ← Engine.selected path
    pure (.selection text, [])
  | .reseed seed => do
    Engine.reseed seed
    pure (.reseeded, [])
  | .generateWith template source => fun engine =>
    (engine.generateWith template source).map fun (generated, source) =>
      ((.drawn generated.text source, generated.trace), engine)
  | .parse template => pure (.tree (RandomTables.parse template), [])
  | .check template => pure (.report (RandomTables.check template), [])
  | .tokens template => pure (.tokens (RandomTables.tokens template), [])
  | .raw path => do
    let engine ← get
    pure (.value (engine.raw? path), [])
  | .tables => do
    let engine ← get
    pure (.tables engine.tables, [])
  | .config => do
    let engine ← get
    pure (.config engine.config, [])

end Command

end RandomTables.Engine
