import RandomTables.Name.Model
import RandomTables.Weight

/-! # Inventing a word from a list of entries -/

namespace RandomTables.Name

/-- Why no word can be invented. -/
inductive Failure where
  | emptyList
  | noValidWords
  deriving DecidableEq

def Failure.message : Failure → Text
  | .emptyList => "[empty-list]".toList
  | .noValidWords => "[no-valid-words]".toList

/-- The words of some entries, without weights, white space around them and blank ones. -/
def cleanWords (entries : List Text) : List Text :=
  (entries.map fun entry => Text.trim (Weighted.strip entry)).filter (!·.isEmpty)

variable {σ : Type} [WordSource σ]

/-- What an invented word is made of. If every walk fails, one of the words is drawn. -/
def origin? (entries : List Text) (options : Options) : Draw σ (Except Failure Origin) :=
  if entries.isEmpty then pure (.error .emptyList)
  else
    let words := cleanWords entries
    if words.isEmpty then pure (.error .noValidWords)
    else do
      match ← (Model.train words options.order).origin? options with
      | some origin => pure (.ok origin)
      | none => do
        match words[← Draw.index32 words.length]? with
        | some word => pure (.ok (.drawn word))
        | none => pure (.error .noValidWords)

def invent? (entries : List Text) (options : Options) : Draw σ (Except Failure Text) :=
  Except.map Origin.word <$> origin? entries options

/-- Invents a word, or gives the message of the failure in its place. -/
def invent (entries : List Text) (options : Options) : Draw σ Text := do
  match ← invent? entries options with
  | .ok word => pure word
  | .error failure => pure failure.message

end RandomTables.Name
