import RandomTables.Table.Store
import RandomTables.Template.Issue
import RandomTables.Template.Token
import RandomTables.Text.Quoted
import RandomTables.Weight

/-! # Linting tables

What is wrong, and what is doubtful, in the entries of a store.
-/

namespace RandomTables.Lint

/-- A list shorter than this has too few words for the markov modifier. -/
def minMarkovEntries : Nat := 5

/-! ## Findings -/

/-- Where a template stands. -/
inductive Place where
  | entry (table : Text) (index : Nat)
  | template (text : Text)
  deriving DecidableEq

def Place.label : Place → Text
  | .entry table index =>
    "Table '".toList ++ table ++ "' entry ".toList ++ Text.ofNat index
  | .template text => "Template ".toList ++ Text.quoted text

inductive Problem where
  | issue (place : Place) (found : Issue)
  | missingTable (place : Place) (path : Text)
  /-- Each entry refers back to its own table. -/
  | onlyRecursive (table : Text)
  deriving DecidableEq

def Problem.message : Problem → Text
  | .issue place found => place.label ++ ':' :: ' ' :: found.message
  | .missingTable place path =>
    place.label ++ " references non-existent table '".toList ++ path ++ ['\'']
  | .onlyRecursive table =>
    "Table '".toList ++ table ++
      "' has no non-recursive entry (always hits the depth limit)".toList

inductive Doubt where
  | emptyTable (table : Text)
  | noVariety (table : Text)
  | fewForMarkov (place : Place) (path : Text) (count : Nat)
  deriving DecidableEq

def Doubt.message : Doubt → Text
  | .emptyTable table => "Table '".toList ++ table ++ "' is empty".toList
  | .noVariety table => "Table '".toList ++ table ++ "' has only 1 entry (no variety)".toList
  | .fewForMarkov place path count =>
    place.label ++ " applies markov to '".toList ++ path ++ "', which has only ".toList ++
      Text.ofNat count ++ " entries".toList

structure Findings where
  errors : List Problem := []
  warnings : List Doubt := []

def Findings.append (first second : Findings) : Findings where
  errors := first.errors ++ second.errors
  warnings := first.warnings ++ second.warnings

instance : Append Findings := ⟨Findings.append⟩

def Findings.concat (all : List Findings) : Findings := all.foldl Findings.append {}

/-! ## Templates -/

/-- A text that opens with a quote is not searched. -/
def isQuoted (template : Text) : Bool := template.head?.any fun c => c == '"' || c == '\''

/-- What a reference points at. -/
def ofToken (tables : Store) (place : Place) (token : Token) : Findings :=
  match tables.list? token.reference.path with
  | none => { errors := [.missingTable place token.reference.path] }
  | some entries =>
    if token.reference.modifiers.contains .markov && entries.length < minMarkovEntries then
      { warnings := [.fewForMarkov place token.reference.path entries.length] }
    else {}

def ofTemplate (tables : Store) (place : Place) (template : Text) : Findings :=
  if isQuoted template then {}
  else
    { errors := (issues template).map (.issue place) } ++
      Findings.concat ((tokens template).map (ofToken tables place))

/-! ## Tables -/

/-- The entry always refers to this table. -/
def refersTo (table entry : Text) : Bool :=
  (tokens (Weighted.strip entry)).any fun token =>
    token.reference.path == table && !token.reference.isOptional

def ofList (tables : Store) (name : Text) (entries : List Text) : Findings :=
  if entries.isEmpty then { warnings := [.emptyTable name] }
  else
    { warnings := if entries.length < 2 then [.noVariety name] else [] } ++
      Findings.concat (entries.mapIdx fun index entry =>
        ofTemplate tables (.entry name index) (Weighted.strip entry)) ++
      { errors := if entries.all (refersTo name) then [.onlyRecursive name] else [] }

/-- The findings in all lists of a store. -/
def ofTables (tables : Store) : Findings :=
  Findings.concat (tables.lists.map fun (name, entries) => ofList tables name entries)

end RandomTables.Lint
