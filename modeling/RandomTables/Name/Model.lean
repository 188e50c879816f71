import RandomTables.Random.Draw
import RandomTables.Text.Case

/-! # A character model of names

The model counts, for each run of `order` code points, what follows it in the training words. A
walk draws one code point after another by these counts.
-/

namespace RandomTables.Name

structure Options where
  /-- Code points of context for the next one. -/
  order : Nat := 2
  minLength : Nat := 3
  maxLength : Nat := 12
  /-- Walks tried for a new word. -/
  maxAttempts : Nat := 50

/-- Fills the context before the first letter of a word. -/
def wordStart : Char := '\x02'

/-- Stands behind the last letter of a word. -/
def wordEnd : Char := '\x03'

/-- What can follow a context, with counts, in the order of first occurrence. -/
abbrev Row := List (Char × Nat)

/-! ## Counting -/

/-- The context one code point further on. -/
def shift (context : Text) (c : Char) : Text := context.tail ++ [c]

/-- Each code point of a text with the context before it. -/
def transitions (context : Text) : Text → List (Text × Char)
  | [] => []
  | c :: t => (context, c) :: transitions (shift context c) t

def startContext (order : Nat) : Text := List.replicate order wordStart

/-- The transitions of a word, from its start to its end. -/
def wordTransitions (order : Nat) (word : Text) : List (Text × Char) :=
  transitions (startContext order) (word ++ [wordEnd])

def Row.count (next : Char) : Row → Row
  | [] => [(next, 1)]
  | (c, n) :: row => if c = next then (c, n + 1) :: row else (c, n) :: Row.count next row

def countTransition (rows : List (Text × Row)) (transition : Text × Char) : List (Text × Row) :=
  match rows with
  | [] => [(transition.1, [(transition.2, 1)])]
  | (context, row) :: rows =>
    if context = transition.1 then (context, Row.count transition.2 row) :: rows
    else (context, row) :: countTransition rows transition

/-! ## Words and what they are made of -/

inductive Origin where
  /-- The letters of a walk that are no training word. -/
  | new (letters : Text)
  /-- The letters of the first walk, where all that succeeded gave training words. -/
  | known (letters : Text)
  /-- A word that was drawn, since no walk succeeded. -/
  | drawn (word : Text)
  deriving DecidableEq

/-- Letters of a walk get a capital, and a word that was drawn stays as it is. -/
def Origin.word : Origin → Text
  | new letters => Text.capitalize letters
  | known letters => Text.capitalize letters
  | drawn word => word

/-! ## Training -/

structure Model where
  order : Nat
  rows : List (Text × Row)
  /-- The training words in lower case. -/
  words : List Text

namespace Model

/-- Trains on the words that are not empty, in lower case. The order is at least one. -/
def train (words : List Text) (order : Nat) : Model :=
  let order := max order 1
  let known := (words.filter (!·.isEmpty)).map Text.lower
  { order
    rows := (known.flatMap (wordTransitions order)).foldl countTransition []
    words := known }

/-! ## Walking -/

variable {σ : Type} [WordSource σ]

/-- The entry in which the `n`-th unit of the counts lies. -/
def entryAt? (n : Nat) : Row → Option Char
  | [] => none
  | (c, count) :: row => if n < count then some c else entryAt? (n - count) row

/-- Draws from a row by its counts. Their total is a 32-bit number and stops at the greatest one, which no
training text is long enough to reach. -/
def pick (row : Row) : Draw σ (Option Char) :=
  let total := min (row.foldl (fun total (_, count) => total + count) 0) (UInt32.size - 1)
  if total = 0 then pure none
  else do return entryAt? (← Draw.below32 total) row

/-- Draws what follows a context. -/
def next (model : Model) (context : Text) : Draw σ (Option Char) :=
  match model.rows.lookup context with
  | none => pure none
  | some row => pick row

/-- The rest of a word behind a context, with at most `room` letters; nothing if the word runs on
or the context is unknown. -/
def walkFrom (model : Model) : (room : Nat) → (context : Text) → Draw σ (Option Text)
  | 0, context => do
    match ← model.next context with
    | some c => pure (if c = wordEnd then some [] else none)
    | none => pure none
  | room + 1, context => do
    match ← model.next context with
    | some c =>
      if c = wordEnd then pure (some [])
      else do return (← walkFrom model room (shift context c)).map (c :: ·)
    | none => pure none

/-- One walk; nothing if the word is longer or shorter than the options allow. -/
def walk (model : Model) (options : Options) : Draw σ (Option Text) := do
  match ← walkFrom model options.maxLength (startContext model.order) with
  | some word => pure (if word.length < options.minLength then none else some word)
  | none => pure none

/-- What comes of this many walks: the first new letters, or else the first known ones. -/
def originWithin (model : Model) (options : Options) :
    (attempts : Nat) → (known : Option Text) → Draw σ (Option Origin)
  | 0, known => pure (known.map .known)
  | attempts + 1, known => do
    match ← model.walk options with
    | none => originWithin model options attempts known
    | some letters =>
      if model.words.contains letters then
        originWithin model options attempts (known.or (some letters))
      else pure (some (.new letters))

/-- What a word is made of, new letters if possible. -/
def origin? (model : Model) (options : Options) : Draw σ (Option Origin) :=
  originWithin model options (max options.maxAttempts 1) none

/-- A capitalised word, new if possible. -/
def generate (model : Model) (options : Options) : Draw σ (Option Text) :=
  Option.map Origin.word <$> model.origin? options

end Model

end RandomTables.Name
