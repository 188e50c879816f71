import RandomTables.Proofs.Evaluation.Congruence
import RandomTables.Proofs.Random.Ending

/-! # Visits to template values

Evaluation beside a log. The log rides on the word source, so that the same evaluator writes it; it
gets one line for each value that expansion comes to and that may be read as a template.
-/

namespace RandomTables

/-! ## Requests -/

/-- What an evaluator is asked for in a session. -/
inductive Request where
  | tree (node : Node)
  | entry (value : Text)

def Evaluator.answer {σ : Type} [WordSource σ] (evaluator : Evaluator) : Request → Eval σ Text
  | .tree node => evaluator.evaluate node
  | .entry value => evaluator.expand value

/-- Answers a request with entries expanded in the room that the budget leaves. -/
def Evaluator.answerBy {σ : Type} [WordSource σ] (evaluator : Evaluator)
    (expandWithin : (room : Nat) → Text → Eval σ Text) (request : Request) : Eval σ Text := do
  let session ← get
  let expand := expandWithin (session.maxDepth - session.depth)
  match request with
  | .tree node => evaluator.evaluateNode expand node
  | .entry value => expand value

theorem Evaluator.answer_eq {σ : Type} [WordSource σ] (evaluator : Evaluator) (request : Request) :
    (evaluator.answer request : Eval σ Text) = evaluator.answerBy evaluator.expandWithin request := by
  cases request <;> rfl

/-- The answers to some requests, one after another in one session. -/
def Evaluator.answerAll {σ : Type} [WordSource σ] (evaluator : Evaluator) (requests : List Request) :
    Eval σ (List Text) :=
  requests.mapM evaluator.answer

/-! ## The log -/

structure Visit where
  value : Text
  /-- The budget spent before. -/
  depth : Nat
  /-- What the value came back as, or nothing if it was read as a template. -/
  leftAs : Option Text

/-- A source of words with a log beside it. -/
structure Logged (σ : Type) where
  source : σ
  visits : List Visit

instance {σ : Type} [WordSource σ] : WordSource (Logged σ) where
  next32 logged :=
    let (word, source) := WordSource.next32 logged.source
    (word, { logged with source })
  next64 logged :=
    let (word, source) := WordSource.next64 logged.source
    (word, { logged with source })

/-- The session with a log beside its source. -/
def Session.logged {σ : Type} (session : Session σ) (visits : List Visit) : Session (Logged σ) where
  depth := session.depth
  maxDepth := session.maxDepth
  source := { source := session.source, visits }
  trace := session.trace

namespace Evaluator

variable {σ : Type}

def note (visit : Visit) : Eval (Logged σ) Unit := fun session =>
  some ((), { session with
    source := { session.source with visits := session.source.visits ++ [visit] } })

/-- Leaves a value as it is and logs what it came back as. -/
def leaveNoted (evaluator : Evaluator) (value : Text) : Eval (Logged σ) Text := do
  let session ← get
  let left ← evaluator.leaveUnresolved value
  note { value, depth := session.depth, leftAs := some left }
  pure left

/-- Logs that a value is read as a template, and pays for it. -/
def enterNoted (value : Text) : Eval (Logged σ) Unit := do
  let session ← get
  note { value, depth := session.depth, leftAs := none }
  Eval.spend

theorem reported_logged {evaluator : Evaluator} (event : Event) (session : Session σ)
    (visits : List Visit) :
    evaluator.reported event (session.logged visits) =
      (evaluator.reported event session).logged visits := by
  unfold reported
  split <;> rfl

variable [WordSource σ]

/-- Expands a value as `expandWithin` does, with a log of the visits. -/
def recordWithin (evaluator : Evaluator) : (room : Nat) → Text → Eval (Logged σ) Text :=
  evaluator.expandWith evaluator.leaveNoted enterNoted

section

variable {evaluator : Evaluator} {value : Text}

theorem recordWithin_other (h : ¬ IsTemplate value) (room : Nat) :
    (evaluator.recordWithin room value : Eval (Logged σ) Text) =
      pure ((literal? value).getD value) :=
  expandWith_other h room

theorem recordWithin_spent (h : IsTemplate value) {session : Session σ}
    (hspent : session.maxDepth ≤ session.depth) (visits : List Visit) (room : Nat) :
    evaluator.recordWithin room value (session.logged visits) =
      some (value, (evaluator.reported (.recursionLimit value session.maxDepth) session).logged
        (visits ++ [{ value, depth := session.depth, leftAs := some value }])) := by
  have hlogged : (session.logged visits).maxDepth ≤ (session.logged visits).depth := hspent
  unfold recordWithin
  rw [expandWith_spent h hlogged, leaveNoted, bind_of_some rfl,
    bind_of_some (leaveUnresolved_apply _), reported_logged]
  rfl

theorem recordWithin_resolved (h : IsTemplate value) {session : Session σ}
    (hleft : session.depth < session.maxDepth) (visits : List Visit) (room : Nat) :
    evaluator.recordWithin (room + 1) value (session.logged visits) =
      evaluator.evaluateNode (evaluator.recordWithin room) (parse value)
        (Session.logged { session with depth := session.depth + 1 }
          (visits ++ [{ value, depth := session.depth, leftAs := none }])) := by
  have hlogged : (session.logged visits).depth < (session.logged visits).maxDepth := hleft
  exact expandWith_resolved h hlogged room

end

/-- Answers a request and logs the visits. -/
def record (evaluator : Evaluator) (request : Request) : Eval (Logged σ) Text :=
  evaluator.answerBy evaluator.recordWithin request

def recordAll (evaluator : Evaluator) (requests : List Request) : Eval (Logged σ) (List Text) :=
  requests.mapM evaluator.record

end Evaluator

end RandomTables
