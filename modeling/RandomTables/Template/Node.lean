import RandomTables.Text.Basic

/-! # Template trees -/

namespace RandomTables

/-! ## Modifiers -/

/-- A text transform named at the end of a reference: `[weapon.capitalize]`. -/
inductive Modifier where
  | capitalize
  | lowercase
  | pluralForm
  /-- Replaces the selection by a word invented from all candidates. -/
  | markov
  deriving DecidableEq

namespace Modifier

def all : List Modifier := [.capitalize, .lowercase, .pluralForm, .markov]

def name : Modifier → Text
  | .capitalize => "capitalize".toList
  | .lowercase => "lowercase".toList
  | .pluralForm => "pluralForm".toList
  | .markov => "markov".toList

/-- The modifier of this name; case matters. -/
def ofName? (text : Text) : Option Modifier := all.find? (·.name == text)

end Modifier

/-! ## References -/

/-- How many independent draws a reference makes. -/
inductive Repetition where
  | fixed (count : UInt32)
  /-- Drawn once for each evaluation; the bounds may come in either order. -/
  | range (min max : UInt32)
  deriving DecidableEq

/-- What stands between the brackets of `[path.modifier!exclusion*2?]`. -/
structure Reference where
  path : Text
  /-- In the order in which they apply. -/
  modifiers : List Modifier := []
  isOptional : Bool := false
  /-- Entries that contain one of these texts, whatever the case, are never selected. -/
  exclusions : List Text := []
  repetition : Repetition := .fixed 1
  deriving DecidableEq

/-- The same reference, always taken. -/
def Reference.required (ref : Reference) : Reference := { ref with isOptional := false }

/-! ## Nodes -/

inductive Node where
  | text (value : Text)
  | reference (ref : Reference)
  /-- `A&B`: every part, concatenated. -/
  | all (parts : List Node)
  /-- `A|B`: one option, each equally likely. -/
  | oneOf (options : List Node)
  /-- Parentheses in an expression. -/
  | group (inner : Node)
  /-- A whole number between two bounds, both included. -/
  | number (min max : UInt64)
  /-- `a` or `an`, decided when the whole output is known. -/
  | article
  /-- Prose mixed with references and expressions. -/
  | sequence (parts : List Node)

namespace Node

mutual

/-- The references of a tree, from left to right. -/
def references : Node → List Reference
  | .reference ref => [ref]
  | .all parts => referencesOf parts
  | .oneOf options => referencesOf options
  | .sequence parts => referencesOf parts
  | .group inner => references inner
  | .text _ => []
  | .number _ _ => []
  | .article => []

def referencesOf : List Node → List Reference
  | [] => []
  | node :: rest => references node ++ referencesOf rest

end

/-- Joins neighbouring texts and drops empty ones. -/
def joinTexts : List Node → List Node
  | [] => []
  | .text s :: rest =>
    match joinTexts rest with
    | .text t :: more => .text (s ++ t) :: more
    | more => if s.isEmpty then more else .text s :: more
  | node :: rest => node :: joinTexts rest

/-- The tree of a run of nodes: a lone node stands for itself, none for the empty text. -/
def concat (nodes : List Node) : Node :=
  match joinTexts nodes with
  | [] => .text []
  | [node] => node
  | joined => .sequence joined

end Node

end RandomTables
