import RandomTables.Proofs.Evaluation.Visits
import RandomTables.Proofs.Random.Tape

/-! # Evaluation in the image of a session

Sessions may be changed in what evaluation does not look at, such as a tape beside the source, and
the same evaluation runs in the changed session.
-/

namespace RandomTables

/-- The second evaluator does in the image of a session what the first does in the session. The image
has the same budget and a source with the same words. -/
structure IsImage {σ τ : Type} [WordSource σ] [WordSource τ] (evaluator evaluator' : Evaluator)
    (f : σ → τ) (g : Session σ → Session τ) : Prop where
  tables : evaluator'.tables = evaluator.tables
  names : evaluator'.names = evaluator.names
  words : Embedding f
  source (session : Session σ) : (g session).source = f session.source
  put (session : Session σ) (rest : σ) :
    g { session with source := rest } = { g session with source := f rest }
  depth (session : Session σ) : (g session).depth = session.depth
  maxDepth (session : Session σ) : (g session).maxDepth = session.maxDepth
  spend (session : Session σ) :
    g { session with depth := session.depth + 1 } = { g session with depth := session.depth + 1 }
  reported (event : Event) (session : Session σ) :
    evaluator'.reported event (g session) = g (evaluator.reported event session)

namespace IsImage

open Evaluator

variable {σ τ : Type} [WordSource σ] [WordSource τ] {evaluator evaluator' : Evaluator} {f : σ → τ}
  {g : Session σ → Session τ} (h : IsImage evaluator evaluator' f g)

include h

theorem draw {α : Type} {d : Draw σ α} {d' : Draw τ α} (hd : Mirrors f d d') :
    Mirrors g (Eval.draw d) (Eval.draw d') := by
  intro session
  show (d' (g session).source).map _ = ((d session.source).map _).map _
  rw [h.source, hd]
  cases d session.source with
  | none => rfl
  | some step => exact congrArg (fun later => some (step.1, later)) (h.put session step.2).symm

theorem report (event : Event) :
    Mirrors g (evaluator.report event) (evaluator'.report event) := by
  intro session
  rw [report_apply, report_apply, h.reported]
  rfl

theorem congruence : Eval.Congruence evaluator evaluator' fun {α} (m : Eval σ α) (m' : Eval τ α) =>
    Mirrors g m m' where
  tables := h.tables
  names := h.names
  pure := mirrors_pure
  bind := Mirrors.bind
  word64 := h.draw (Draw.mirrors_congruence h.words).word64
  between64 hle := h.draw ((Draw.mirrors_congruence h.words).between64 hle)
  between32 hle := h.draw ((Draw.mirrors_congruence h.words).between32 hle)
  below32 hpos hlt := h.draw ((Draw.mirrors_congruence h.words).below32 hpos hlt)
  report := h.report
  reportResolved path selected session := by
    show evaluator'.report (.resolved path selected (g session).depth) (g session) = _
    rw [h.depth]
    exact h.report (.resolved path selected session.depth) session

/-! ## Entries -/

theorem leaveUnresolved (value : Text) :
    Mirrors g (evaluator.leaveUnresolved value) (evaluator'.leaveUnresolved value) := by
  intro session
  rw [leaveUnresolved_apply, leaveUnresolved_apply, h.maxDepth, h.reported]
  rfl

theorem expandBy {leave resolve : Text → Eval σ Text} {leave' resolve' : Text → Eval τ Text}
    {value : Text} (hleave : Mirrors g (leave value) (leave' value))
    (hresolve : Mirrors g (resolve value) (resolve' value)) :
    Mirrors g (Evaluator.expandBy leave resolve value) (Evaluator.expandBy leave' resolve' value) := by
  refine h.congruence.expandBy fun htemplate session => ?_
  rw [expandBy_template htemplate, expandBy_template htemplate, h.depth, h.maxDepth]
  split
  · exact hleave session
  · exact hresolve session

theorem expandWithin (room : Nat) (value : Text) :
    Mirrors g (evaluator.expandWithin room value) (evaluator'.expandWithin room value) := by
  induction room generalizing value with
  | zero => exact h.expandBy (h.leaveUnresolved value) (h.leaveUnresolved value)
  | succ room ih =>
    have hspend : Mirrors g (Eval.spend : Eval σ Unit) Eval.spend := fun session => by
      show some ((), _) = some ((), g _)
      rw [h.spend, h.depth]
    unfold Evaluator.expandWithin Evaluator.expandWith
    refine h.expandBy (h.leaveUnresolved value) ?_
    exact hspend.bind fun _ => h.congruence.evaluateNode ih (parse value)

/-! ## Requests -/

theorem answer (request : Request) :
    Mirrors g (evaluator.answer request) (evaluator'.answer request) := by
  intro session
  have hroom : (g session).maxDepth - (g session).depth = session.maxDepth - session.depth := by
    rw [h.maxDepth, h.depth]
  have hexpand := h.expandWithin (session.maxDepth - session.depth)
  cases request with
  | tree node =>
    show evaluator'.evaluateNode (evaluator'.expandWithin _) node (g session) = _
    rw [hroom]
    exact h.congruence.evaluateNode hexpand node session
  | entry value =>
    show evaluator'.expandWithin _ value (g session) = _
    rw [hroom]
    exact hexpand value session

theorem answerAll (requests : List Request) :
    Mirrors g (evaluator.answerAll requests) (evaluator'.answerAll requests) := by
  unfold Evaluator.answerAll
  induction requests with
  | nil => exact mirrors_pure []
  | cons request rest ih =>
    rw [List.mapM_cons, List.mapM_cons]
    exact (h.answer request).bind fun _ => ih.bind fun _ => mirrors_pure _

end IsImage

/-! ## The tape beside a session -/

namespace Session

variable {σ τ : Type}

/-- The session with another source. -/
def mapSource (f : σ → τ) (session : Session σ) : Session τ where
  depth := session.depth
  maxDepth := session.maxDepth
  source := f session.source
  trace := session.trace

/-- The session with an empty tape beside its source. -/
def taped (session : Session σ) : Session (Taped σ) := session.mapSource fun source => { source }

end Session

/-- Evaluation is the same on all sources that hand out the same words. -/
theorem isImage_mapSource {σ τ : Type} [WordSource σ] [WordSource τ] {f : σ → τ}
    (hf : Embedding f) (evaluator : Evaluator) :
    IsImage evaluator evaluator f (Session.mapSource f) where
  tables := rfl
  names := rfl
  words := hf
  source _ := rfl
  put _ _ := rfl
  depth _ := rfl
  maxDepth _ := rfl
  spend _ := rfl
  reported event session := by
    unfold Evaluator.reported
    split <;> rfl

theorem Evaluator.answer_taped {σ : Type} [WordSource σ] (evaluator : Evaluator)
    (request : Request) (session : Session σ) :
    evaluator.answer request session =
      (evaluator.answer request session.taped).map fun (text, later) =>
        (text, later.mapSource Taped.source) :=
  (isImage_mapSource embedding_taped evaluator).answer request session.taped

/-- The words that a computation draws in a session, in order. -/
def Eval.words {σ α : Type} (m : Eval (Taped σ) α) (session : Session σ) : Option (List Word) :=
  (m session.taped).map fun (_, later) => later.source.words

end RandomTables
