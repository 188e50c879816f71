import RandomTables.Text.Basic

/-! # Diagnostics

What loading and evaluation report besides their results.
-/

namespace RandomTables

inductive Event where
  | recursionLimit (value : Text) (maxDepth : Nat)
  | tableMissing (path : Text)
  | allExcluded (path : Text)
  | resolved (path selected : Text) (depth : Nat)
  | parsed (template : Text)
  | generated (template : Text) (expansions : Nat) (output : Text)
  | loading
  | skippedKey
  | skippedItem
  deriving DecidableEq

namespace Event

inductive Level where
  | debug
  | warn
  deriving DecidableEq

def level : Event → Level
  | .resolved .. | .parsed .. | .generated .. | .loading => .debug
  | .recursionLimit .. | .tableMissing .. | .allExcluded .. | .skippedKey | .skippedItem => .warn

def message : Event → String
  | .recursionLimit .. => "recursion limit reached, returning value unresolved"
  | .tableMissing .. => "table not found or not a list"
  | .allExcluded .. => "every entry excluded"
  | .resolved .. => "resolved table reference"
  | .parsed .. => "parsed template"
  | .generated .. => "generated"
  | .loading => "loading tables"
  | .skippedKey => "skipping non-scalar table key"
  | .skippedItem => "skipping non-scalar list item"

/-- The value of a field. -/
inductive Field where
  | text (value : Text)
  | number (value : Nat)

def fields : Event → List (String × Field)
  | .recursionLimit value maxDepth => [("value", .text value), ("max_depth", .number maxDepth)]
  | .tableMissing path => [("path", .text path)]
  | .allExcluded path => [("path", .text path)]
  | .resolved path selected depth =>
    [("path", .text path), ("selected", .text selected), ("depth", .number depth)]
  | .parsed template => [("template", .text template)]
  | .generated template expansions output =>
    [("template", .text template), ("expansions", .number expansions), ("output", .text output)]
  | .loading | .skippedKey | .skippedItem => []

end Event

end RandomTables
