import RandomTables.Engine.Basic
import RandomTables.Table.Load

/-! # Setting up an engine -/

namespace RandomTables

/-! ## Failures -/

inductive SetupError where
  | load (error : LoadError)
  | config (error : ConfigError)
  deriving DecidableEq

def SetupError.message : SetupError → Text
  | .load error => "table load error: ".toList ++ error.message
  | .config error => "config error: ".toList ++ error.message

/-! ## Settings -/

structure Setup where
  /-- Merged below what the files hold. -/
  tables : Store := .empty
  tablesPaths : List Text := []
  config : Config := {}
  /-- A configuration file replaces `config`. -/
  configPath : Option Text := none
  maxDepth : Option Nat := none
  debug : Option Bool := none
  seed : Option Text := none
  names : Name.Options := {}

namespace Setup

/-- Merges what is found under some paths, in order, up to the first that fails. -/
def loadAll (files : FileTree) (loaded : Loaded) : List Text → Except LoadError Loaded
  | [] => .ok loaded
  | path :: paths =>
    match Loaded.ofPath files path with
    | .error error => .error error
    | .ok found => loadAll files (loaded.merge found) paths

/-- The settings given one by one win over a configuration. -/
def override (setup : Setup) (config : Config) : Config where
  maxDepth := setup.maxDepth.getD config.maxDepth
  debug := setup.debug.getD config.debug
  seed := setup.seed.or config.seed

def readConfig (setup : Setup) (files : FileTree) : Except ConfigError Config :=
  match setup.configPath with
  | some path => Config.ofPath files path
  | none => .ok setup.config

/-- Makes the engine, with the diagnostics of loading. The tables are loaded first. -/
def build (setup : Setup) (files : FileTree) (fresh : Random.ChaCha) :
    Except SetupError (Engine × List Event) :=
  match loadAll files { store := setup.tables } setup.tablesPaths with
  | .error error => .error (.load error)
  | .ok loaded =>
    match setup.readConfig files with
    | .error error => .error (.config error)
    | .ok config =>
      let engine := Engine.new loaded.store (setup.override config) fresh
      .ok ({ engine with names := setup.names }, loaded.trace)

end Setup

end RandomTables
