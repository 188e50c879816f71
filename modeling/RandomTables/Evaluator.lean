import RandomTables.Article
import RandomTables.Event
import RandomTables.Name.Invention
import RandomTables.Table.Store
import RandomTables.Template.Parse

/-! # Evaluation

A tree is evaluated against a store of tables. Selected entries are templates in turn; a budget
bounds how many of them are read, over the whole session and not for each branch.
-/

namespace RandomTables

/-! ## Sessions -/

structure Session (σ : Type) where
  /-- How many entries were read as templates so far. -/
  depth : Nat := 0
  maxDepth : Nat
  source : σ
  trace : Array Event := #[]

def Session.exhausted {σ : Type} (session : Session σ) : Bool := session.maxDepth ≤ session.depth

/-- A computation in a session; it has no result if one of its draws does not end. -/
abbrev Eval (σ : Type) := StateT (Session σ) Option

namespace Eval

variable {σ α : Type}

def draw (d : Draw σ α) : Eval σ α := fun session =>
  (d session.source).map fun (a, source) => (a, { session with source })

def spend : Eval σ Unit := fun session => some ((), { session with depth := session.depth + 1 })

/-- Runs a computation this many times. -/
def times : (count : Nat) → Eval σ α → Eval σ (List α)
  | 0, _ => pure []
  | count + 1, once => do
    let first ← once
    let rest ← times count once
    pure (first :: rest)

end Eval

/-! ## Literal values -/

/-- The text between two equal quotes around a value. -/
def literal? (value : Text) : Option Text :=
  match value with
  | [] => none
  | quote :: rest =>
    if (quote = '"' ∨ quote = '\'') ∧ rest.getLast? = some quote then some rest.dropLast else none

/-- The text holds a bracket that can open a region. -/
def hasSigil (value : Text) : Bool := value.contains '[' || value.contains '{'

/-! ## References -/

/-- How many draws a reference makes this time. -/
def Repetition.count {σ : Type} [WordSource σ] : Repetition → Draw σ UInt32
  | .fixed count => pure count
  | .range low high => if low ≤ high then Draw.between32 low high else Draw.between32 high low

/-- The value contains one of the words, whatever the case. -/
def isExcluded (exclusions : List Text) (value : Text) : Bool :=
  !exclusions.isEmpty &&
    let value := Text.lower value
    exclusions.any fun word => Text.occurs (Text.lower word) value

/-- The entries that a reference may select. -/
def Reference.candidates (ref : Reference) (entries : List Text) : List Text :=
  entries.filter fun entry => !isExcluded ref.exclusions (Weighted.strip entry)

structure Evaluator where
  tables : Store
  debug : Bool := false
  names : Name.Options := {}

namespace Evaluator

variable {σ : Type} [WordSource σ]

def report (evaluator : Evaluator) (event : Event) : Eval σ Unit := fun session =>
  some ((), if evaluator.debug then { session with trace := session.trace.push event } else session)

/-- Selects one of the candidates and expands it, or invents a word from all of them. -/
def selectFrom (evaluator : Evaluator) (expand : Text → Eval σ Text) (ref : Reference)
    (candidates : List Text) : Eval σ Text :=
  if ref.modifiers.contains .markov then Eval.draw (Name.invent candidates evaluator.names)
  else do
    match ← Eval.draw (Weighted.chooseText candidates) with
    | none => pure []
    | some selected => do
      let session ← get
      evaluator.report (.resolved ref.path selected session.depth)
      expand selected

/-- One draw of a reference, expanded and modified. A missing table gives the empty text, and so
does a table whose entries are all excluded. -/
def selectOnce (evaluator : Evaluator) (expand : Text → Eval σ Text) (ref : Reference) :
    Eval σ Text :=
  match evaluator.tables.list? ref.path with
  | none => do
    evaluator.report (.tableMissing ref.path)
    pure []
  | some entries =>
    let candidates := ref.candidates entries
    if candidates.isEmpty then do
      evaluator.report (.allExcluded ref.path)
      pure []
    else do
      let selected ← evaluator.selectFrom expand ref candidates
      pure (Modifier.applyAll ref.modifiers selected)

/-- The draws of a reference that are not empty, joined by commas. -/
def repeatReference (evaluator : Evaluator) (expand : Text → Eval σ Text) (ref : Reference) :
    Eval σ Text := do
  let count ← Eval.draw ref.repetition.count
  let results ← Eval.times (min count.toNat Repetition.limit) (evaluator.selectOnce expand ref)
  pure ([',', ' '].intercalate (results.filter (!·.isEmpty)))

def evaluateReference (evaluator : Evaluator) (expand : Text → Eval σ Text) (ref : Reference) :
    Eval σ Text :=
  if ref.isOptional then do
    if ← Eval.draw Draw.coin then evaluator.repeatReference expand ref else pure []
  else evaluator.repeatReference expand ref

/-! ## Trees -/

mutual

/-- The text of a tree, with `expand` for selected entries. Articles stay placeholders. -/
def evaluateNode (evaluator : Evaluator) (expand : Text → Eval σ Text) : Node → Eval σ Text
  | .text value => pure value
  | .reference ref => evaluator.evaluateReference expand ref
  | .all parts => evaluateAll evaluator expand parts
  | .oneOf options =>
    if options.isEmpty then pure []
    else do
      let place ← Eval.draw (Draw.index64 options.length)
      evaluateAt evaluator expand place options
  | .group inner => evaluateNode evaluator expand inner
  | .number low high => do
    let n ← Eval.draw (Draw.between64 (min low high) (max low high))
    pure (Text.ofNat n.toNat)
  | .article => pure Article.placeholder
  | .sequence parts => evaluateSequence evaluator expand parts

def evaluateSequence (evaluator : Evaluator) (expand : Text → Eval σ Text) :
    List Node → Eval σ Text
  | [] => pure []
  | node :: rest => do
    let first ← evaluateNode evaluator expand node
    let more ← evaluateSequence evaluator expand rest
    pure (first ++ more)

/-- The parts of a conjunction; a reference that is a part itself is always taken. -/
def evaluateAll (evaluator : Evaluator) (expand : Text → Eval σ Text) : List Node → Eval σ Text
  | [] => pure []
  | .reference ref :: rest => do
    let first ← evaluator.evaluateReference expand ref.required
    let more ← evaluateAll evaluator expand rest
    pure (first ++ more)
  | node :: rest => do
    let first ← evaluateNode evaluator expand node
    let more ← evaluateAll evaluator expand rest
    pure (first ++ more)

def evaluateAt (evaluator : Evaluator) (expand : Text → Eval σ Text) :
    (place : Nat) → List Node → Eval σ Text
  | _, [] => pure []
  | 0, node :: _ => evaluateNode evaluator expand node
  | place + 1, _ :: rest => evaluateAt evaluator expand place rest

end

/-! ## Selected entries -/

/-- Leaves a value as it is because the budget is spent. -/
def leaveUnresolved (evaluator : Evaluator) (value : Text) : Eval σ Text := do
  let session ← get
  evaluator.report (.recursionLimit value session.maxDepth)
  pure value

/-- A quoted value is literal, one without brackets is itself, and any other is resolved while
the budget lasts. -/
def expandBy (leave resolve : Text → Eval σ Text) (value : Text) : Eval σ Text :=
  match literal? value with
  | some inner => pure inner
  | none =>
    if !hasSigil value then pure value
    else do
      let session ← get
      if session.exhausted then leave value else resolve value

/-- Expands a value with at most `room` levels of entries inside entries. A template is left when the
budget is spent, and otherwise it is entered and read. -/
def expandWith (evaluator : Evaluator) (leave : Text → Eval σ Text) (enter : Text → Eval σ Unit) :
    (room : Nat) → Text → Eval σ Text
  | 0, value => expandBy leave leave value
  | room + 1, value =>
    expandBy leave
      (fun value => do
        enter value
        evaluator.evaluateNode (expandWith evaluator leave enter room) (parse value))
      value

/-- Each level spends a unit, so the budget that is left is always room enough. -/
def expandWithin (evaluator : Evaluator) : (room : Nat) → Text → Eval σ Text :=
  evaluator.expandWith evaluator.leaveUnresolved fun _ => Eval.spend

/-- Treats a value as a template of its own. -/
def expand (evaluator : Evaluator) (value : Text) : Eval σ Text := do
  let session ← get
  evaluator.expandWithin (session.maxDepth - session.depth) value

/-- Evaluates a tree. -/
def evaluate (evaluator : Evaluator) (node : Node) : Eval σ Text := do
  let session ← get
  evaluator.evaluateNode (evaluator.expandWithin (session.maxDepth - session.depth)) node

end Evaluator

end RandomTables
