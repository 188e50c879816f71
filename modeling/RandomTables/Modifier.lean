import RandomTables.Template.Node
import RandomTables.Text.Case

/-! # Modifiers as text transforms -/

namespace RandomTables

def isVowel (c : Char) : Bool := ['a', 'e', 'i', 'o', 'u'].contains c.toLower

/-- The plural of the last word, by the usual rules of English spelling. -/
def pluralForm (t : Text) : Text :=
  let ends (ending : String) := Text.endsWith ending.toList (t.map Char.toLower)
  let stem := t.dropLast
  if t.isEmpty then []
  else if ends "fe" then stem.dropLast ++ "ves".toList
  else if ends "f" then stem ++ "ves".toList
  else if ends "y" && stem.getLast?.any (!isVowel ·) then stem ++ "ies".toList
  else if ends "s" || ends "sh" || ends "ch" || ends "x" || ends "z" then t ++ "es".toList
  else t ++ ['s']

namespace Modifier

/-- The markov modifier has done its work at selection and leaves the text as it is. -/
def apply : Modifier → Text → Text
  | .capitalize, t => Text.capitalize t
  | .lowercase, t => Text.lower t
  | .pluralForm, t => RandomTables.pluralForm t
  | .markov, t => t

/-- Applies modifiers from the first to the last. -/
def applyAll (modifiers : List Modifier) (t : Text) : Text :=
  modifiers.foldl (fun t modifier => modifier.apply t) t

end Modifier

end RandomTables
