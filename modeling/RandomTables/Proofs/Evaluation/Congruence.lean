import RandomTables.Proofs.Evaluation.Entry
import RandomTables.Proofs.Random.Congruence

/-! # Relations between evaluations

The same tree evaluated twice: by two evaluators over the same tables, with two sources, and with
two ways to expand a selected entry. What relates the single steps and the expansions relates the
evaluations.
-/

namespace RandomTables.Eval

section

variable {σ α β : Type}

theorem draw_bind (d : Draw σ α) (k : α → Draw σ β) :
    draw (d >>= k) = draw d >>= fun a => draw (k a) := by
  funext session
  show Option.map _ ((d session.source).bind fun p => k p.1 p.2) =
    ((d session.source).map _).bind _
  cases d session.source <;> rfl

end

variable {σ τ : Type} [WordSource σ] [WordSource τ]

/-- A relation between computations in two kinds of sessions that holds of the single steps of two
evaluators and is kept when computations are put together. -/
structure Congruence (evaluator evaluator' : Evaluator)
    (Rel : ∀ {α : Type}, Eval σ α → Eval τ α → Prop) : Prop where
  tables : evaluator'.tables = evaluator.tables
  names : evaluator'.names = evaluator.names
  pure {α : Type} (a : α) : Rel (pure a) (pure a)
  bind {α β : Type} {m : Eval σ α} {m' : Eval τ α} {k : α → Eval σ β} {k' : α → Eval τ β} :
    Rel m m' → (∀ a, Rel (k a) (k' a)) → Rel (m >>= k) (m' >>= k')
  word64 : Rel (draw Draw.word64) (draw Draw.word64)
  between64 {low high : UInt64} : low ≤ high →
    Rel (draw (Draw.between64 low high)) (draw (Draw.between64 low high))
  between32 {low high : UInt32} : low ≤ high →
    Rel (draw (Draw.between32 low high)) (draw (Draw.between32 low high))
  below32 {total : Nat} : 0 < total → total < UInt32.size →
    Rel (draw (Draw.below32 total)) (draw (Draw.below32 total))
  report (event : Event) : Rel (evaluator.report event) (evaluator'.report event)
  /-- The one event that tells the budget spent so far. -/
  reportResolved (path selected : Text) :
    Rel (get >>= fun session => evaluator.report (.resolved path selected session.depth))
      (get >>= fun session => evaluator'.report (.resolved path selected session.depth))

namespace Congruence

variable {evaluator evaluator' : Evaluator} {Rel : ∀ {α : Type}, Eval σ α → Eval τ α → Prop}
  (h : Congruence evaluator evaluator' Rel)

include h

theorem draws :
    Draw.Congruence fun {α} (d : Draw σ α) (d' : Draw τ α) => Rel (draw d) (draw d') where
  pure a := h.pure a
  bind hd hk := by
    rw [draw_bind, draw_bind]
    exact h.bind hd hk
  word64 := h.word64
  between64 := h.between64
  between32 := h.between32
  below32 := h.below32

theorem times {α : Type} {once : Eval σ α} {once' : Eval τ α} (honce : Rel once once')
    (count : Nat) : Rel (times count once) (times count once') := by
  induction count with
  | zero => exact h.pure []
  | succ count ih => exact h.bind honce fun _ => h.bind ih fun _ => h.pure _

theorem count (repetition : Repetition) :
    Rel (draw repetition.count : Eval σ UInt32) (draw repetition.count : Eval τ UInt32) := by
  cases repetition with
  | fixed count => exact h.draws.pure count
  | range low high =>
    simp only [Repetition.count]
    split
    · next hle => exact h.draws.between32 hle
    · next hlt => exact h.draws.between32 (UInt32.le_of_lt (UInt32.not_le.1 hlt))

/-! ## References -/

section

variable {expand : Text → Eval σ Text} {expand' : Text → Eval τ Text}
  (hexpand : ∀ value, Rel (expand value) (expand' value))

include hexpand

theorem selectFrom (ref : Reference) (candidates : List Text) :
    Rel (evaluator.selectFrom expand ref candidates)
      (evaluator'.selectFrom expand' ref candidates) := by
  unfold Evaluator.selectFrom
  rw [h.names]
  split
  · exact h.draws.invent _ _
  · refine h.bind (h.draws.chooseText _) fun selected => ?_
    cases selected with
    | none => exact h.pure []
    | some selected =>
      have := h.bind (h.reportResolved ref.path selected) fun _ => hexpand selected
      rwa [bind_assoc, bind_assoc] at this

theorem selectOnce (ref : Reference) :
    Rel (evaluator.selectOnce expand ref) (evaluator'.selectOnce expand' ref) := by
  unfold Evaluator.selectOnce
  rw [h.tables]
  split
  · exact h.bind (h.report _) fun _ => h.pure []
  · dsimp only
    split
    · exact h.bind (h.report _) fun _ => h.pure []
    · exact h.bind (h.selectFrom hexpand _ _) fun _ => h.pure _

theorem repeatReference (ref : Reference) :
    Rel (evaluator.repeatReference expand ref) (evaluator'.repeatReference expand' ref) :=
  h.bind (h.count _) fun _ => h.bind (h.times (h.selectOnce hexpand ref) _) fun _ => h.pure _

theorem evaluateReference (ref : Reference) :
    Rel (evaluator.evaluateReference expand ref) (evaluator'.evaluateReference expand' ref) := by
  have hrepeat := h.repeatReference hexpand ref
  unfold Evaluator.evaluateReference
  split
  · refine h.bind h.draws.coin fun taken => ?_
    cases taken with
    | true => exact hrepeat
    | false => exact h.pure []
  · exact hrepeat

theorem required {node : Node}
    (hnode : Rel (evaluator.evaluateNode expand node) (evaluator'.evaluateNode expand' node)) :
    Rel (evaluator.evaluateNode expand node.required)
      (evaluator'.evaluateNode expand' node.required) := by
  cases node with
  | reference ref => exact h.evaluateReference hexpand ref.required
  | _ => exact hnode

end

/-! ## Trees -/

mutual

theorem evaluateNode {expand : Text → Eval σ Text} {expand' : Text → Eval τ Text}
    (hexpand : ∀ value, Rel (expand value) (expand' value)) : ∀ node : Node,
    Rel (evaluator.evaluateNode expand node) (evaluator'.evaluateNode expand' node)
  | .text value => h.pure value
  | .reference ref => h.evaluateReference hexpand ref
  | .all parts => evaluateAll hexpand parts
  | .oneOf options => by
    simp only [Evaluator.evaluateNode]
    split
    · exact h.pure []
    · exact h.bind (h.draws.index64 _) fun place => evaluateAt hexpand options place
  | .group inner => evaluateNode hexpand inner
  | .number low high => by
    have hle : min low high ≤ max low high := by
      rw [UInt64.le_iff_toNat_le, Draw.toNat_min, Draw.toNat_max]
      omega
    exact h.bind (h.draws.between64 hle) fun _ => h.pure _
  | .article => h.pure _
  | .sequence parts => evaluateSequence hexpand parts

theorem evaluateSequence {expand : Text → Eval σ Text} {expand' : Text → Eval τ Text}
    (hexpand : ∀ value, Rel (expand value) (expand' value)) : ∀ parts : List Node,
    Rel (evaluator.evaluateSequence expand parts) (evaluator'.evaluateSequence expand' parts)
  | [] => h.pure []
  | node :: rest =>
    h.bind (evaluateNode hexpand node) fun _ =>
      h.bind (evaluateSequence hexpand rest) fun _ => h.pure _

theorem evaluateAll {expand : Text → Eval σ Text} {expand' : Text → Eval τ Text}
    (hexpand : ∀ value, Rel (expand value) (expand' value)) : ∀ parts : List Node,
    Rel (evaluator.evaluateAll expand parts) (evaluator'.evaluateAll expand' parts)
  | [] => h.pure []
  | node :: rest => by
    rw [Evaluator.evaluateAll_cons, Evaluator.evaluateAll_cons]
    exact h.bind (h.required hexpand (evaluateNode hexpand node)) fun _ =>
      h.bind (evaluateAll hexpand rest) fun _ => h.pure _

theorem evaluateAt {expand : Text → Eval σ Text} {expand' : Text → Eval τ Text}
    (hexpand : ∀ value, Rel (expand value) (expand' value)) : ∀ (options : List Node) (place : Nat),
    Rel (evaluator.evaluateAt expand place options) (evaluator'.evaluateAt expand' place options)
  | [], _ => h.pure []
  | node :: _, 0 => evaluateNode hexpand node
  | _ :: rest, place + 1 => evaluateAt hexpand rest place

end

/-! ## Entries -/

theorem expandBy {leave resolve : Text → Eval σ Text} {leave' resolve' : Text → Eval τ Text}
    {value : Text}
    (htemplate : IsTemplate value →
      Rel (Evaluator.expandBy leave resolve value) (Evaluator.expandBy leave' resolve' value)) :
    Rel (Evaluator.expandBy leave resolve value) (Evaluator.expandBy leave' resolve' value) := by
  by_cases h' : IsTemplate value
  · exact htemplate h'
  · rw [Evaluator.expandBy_other h', Evaluator.expandBy_other h']
    exact h.pure _

end Congruence

end RandomTables.Eval
