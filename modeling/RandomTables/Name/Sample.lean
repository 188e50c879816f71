import RandomTables.Name.Invention

/-! # Samples of invented words -/

namespace RandomTables.Name

/-- An invented word. -/
structure Sample where
  word : Text
  /-- The word is one of the training words. -/
  isKnown : Bool
  deriving DecidableEq

/-- The word is among the training words, up to the case of ASCII letters. -/
def isAmong (words : List Text) (word : Text) : Bool := words.any (Text.eqIgnoringAsciiCase · word)

/-- The training words of some entries, blank ones included. -/
def trainingWords (entries : List Text) : List Text :=
  entries.map fun entry => Text.trim (Weighted.strip entry)

/-- The word with what the entries tell of it. -/
def Sample.of (entries : List Text) (word : Text) : Sample :=
  { word, isKnown := isAmong (trainingWords entries) word }

variable {σ : Type} [WordSource σ]

/-- Invents one word and tells whether it is new. -/
def sample? (entries : List Text) (options : Options) : Draw σ (Except Failure Sample) :=
  Except.map (Sample.of entries) <$> invent? entries options

/-- Draws this many times, up to the first failure. -/
def untilFailure {ε α : Type} (once : Draw σ (Except ε α)) :
    (count : Nat) → Draw σ (List α × Option ε)
  | 0 => pure ([], none)
  | count + 1 => do
    match ← once with
    | .error failure => pure ([], some failure)
    | .ok a => do
      let (rest, failure) ← untilFailure once count
      pure (a :: rest, failure)

/-- Invents this many words, up to the first failure. -/
def samples (entries : List Text) (options : Options) (count : Nat) :
    Draw σ (List Sample × Option Failure) :=
  untilFailure (sample? entries options) count

end RandomTables.Name
