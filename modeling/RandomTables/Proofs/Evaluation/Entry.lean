import RandomTables.Proofs.Random.Bounds
import RandomTables.Evaluator

/-! # Steps of an evaluation

The parts of a conjunction, and the kinds of entries with what each of them does to a session.
-/

namespace RandomTables

/-- A part of a conjunction, where a reference is always taken. -/
def Node.required : Node → Node
  | .reference ref => .reference ref.required
  | node => node

theorem Evaluator.evaluateAll_cons {σ : Type} [WordSource σ] {evaluator : Evaluator}
    {expand : Text → Eval σ Text} (node : Node) (rest : List Node) :
    evaluator.evaluateAll expand (node :: rest) =
      (do
        let first ← evaluator.evaluateNode expand node.required
        let more ← evaluator.evaluateAll expand rest
        pure (first ++ more)) := by
  cases node <;> rfl

theorem Eval.draw_eq_some {σ α : Type} {d : Draw σ α} {s s' : Session σ} {a : α}
    (h : Eval.draw d s = some (a, s')) :
    ∃ rest, d s.source = some (a, rest) ∧ s' = { s with source := rest } := by
  obtain ⟨⟨b, rest⟩, hd, he⟩ := Option.map_eq_some_iff.1 h
  cases he
  exact ⟨rest, hd, rfl⟩

theorem hasSigil_iff {value : Text} : hasSigil value ↔ '[' ∈ value ∨ '{' ∈ value := by
  simp [hasSigil]

/-- The value is read as a template while the budget lasts. -/
def IsTemplate (value : Text) : Prop := literal? value = none ∧ hasSigil value

instance (value : Text) : Decidable (IsTemplate value) :=
  inferInstanceAs (Decidable (_ ∧ _))

theorem Session.exhausted_iff {σ : Type} {session : Session σ} :
    session.exhausted ↔ session.maxDepth ≤ session.depth := by
  simp [Session.exhausted]

namespace Evaluator

variable {σ : Type} {evaluator : Evaluator} {value inner : Text}

/-- The session after an event, which shows only where events are recorded. -/
def reported (evaluator : Evaluator) (event : Event) (session : Session σ) : Session σ :=
  if evaluator.debug then { session with trace := session.trace.push event } else session

@[simp]
theorem report_apply (event : Event) (session : Session σ) :
    evaluator.report event session = some ((), evaluator.reported event session) := rfl

@[simp]
theorem reported_depth (event : Event) (session : Session σ) :
    (evaluator.reported event session).depth = session.depth := by
  unfold reported
  split <;> rfl

@[simp]
theorem reported_maxDepth (event : Event) (session : Session σ) :
    (evaluator.reported event session).maxDepth = session.maxDepth := by
  unfold reported
  split <;> rfl

@[simp]
theorem reported_source (event : Event) (session : Session σ) :
    (evaluator.reported event session).source = session.source := by
  unfold reported
  split <;> rfl

theorem leaveUnresolved_apply (session : Session σ) :
    evaluator.leaveUnresolved value session =
      some (value, evaluator.reported (.recursionLimit value session.maxDepth) session) := rfl

section

variable {leave resolve : Text → Eval σ Text}

theorem expandBy_literal (h : literal? value = some inner) :
    expandBy leave resolve value = pure inner := by
  simp only [expandBy, h]

theorem expandBy_plain (hliteral : literal? value = none) (hplain : ¬ hasSigil value) :
    expandBy leave resolve value = pure value := by
  simp only [expandBy, hliteral]
  rw [if_pos (by simpa using hplain)]

theorem expandBy_other (h : ¬ IsTemplate value) :
    expandBy leave resolve value = pure ((literal? value).getD value) := by
  cases hliteral : literal? value with
  | some inner => exact expandBy_literal hliteral
  | none => exact expandBy_plain hliteral fun hsigil => h ⟨hliteral, hsigil⟩

theorem expandBy_template (h : IsTemplate value) (session : Session σ) :
    expandBy leave resolve value session =
      if session.maxDepth ≤ session.depth then leave value session else resolve value session := by
  obtain ⟨hliteral, hsigil⟩ := h
  simp only [expandBy, hliteral]
  rw [if_neg (by simpa using hsigil)]
  show (if session.exhausted then leave value else resolve value) session = _
  by_cases hspent : session.maxDepth ≤ session.depth
  · rw [if_pos (Session.exhausted_iff.2 hspent), if_pos hspent]
  · rw [if_neg (mt Session.exhausted_iff.1 hspent), if_neg hspent]

end

/-! ## Expansion with some room -/

variable [WordSource σ]

section

variable {leave : Text → Eval σ Text} {enter : Text → Eval σ Unit}

theorem expandWith_other (h : ¬ IsTemplate value) (room : Nat) :
    evaluator.expandWith leave enter room value = pure ((literal? value).getD value) := by
  cases room with
  | zero => exact expandBy_other h
  | succ room => exact expandBy_other h

theorem expandWith_spent {session : Session σ} (h : IsTemplate value)
    (hspent : session.maxDepth ≤ session.depth) (room : Nat) :
    evaluator.expandWith leave enter room value session = leave value session := by
  have hexpand (resolve : Text → Eval σ Text) :
      expandBy leave resolve value session = leave value session := by
    rw [expandBy_template h, if_pos hspent]
  cases room with
  | zero => exact hexpand _
  | succ room => exact hexpand _

theorem expandWith_resolved {session : Session σ} (h : IsTemplate value)
    (hleft : session.depth < session.maxDepth) (room : Nat) :
    evaluator.expandWith leave enter (room + 1) value session =
      (enter value >>= fun _ =>
        evaluator.evaluateNode (evaluator.expandWith leave enter room) (parse value)) session := by
  rw [expandWith, expandBy_template h, if_neg (Nat.not_le.2 hleft)]

end

theorem expandWithin_other (h : ¬ IsTemplate value) (room : Nat) :
    (evaluator.expandWithin room value : Eval σ Text) = pure ((literal? value).getD value) :=
  expandWith_other h room

theorem expandWithin_spent {session : Session σ} (h : IsTemplate value)
    (hspent : session.maxDepth ≤ session.depth) (room : Nat) :
    evaluator.expandWithin room value session =
      some (value, evaluator.reported (.recursionLimit value session.maxDepth) session) :=
  expandWith_spent h hspent room

theorem expandWithin_resolved {session : Session σ} (h : IsTemplate value)
    (hleft : session.depth < session.maxDepth) (room : Nat) :
    evaluator.expandWithin (room + 1) value session =
      evaluator.evaluateNode (evaluator.expandWithin room) (parse value)
        { session with depth := session.depth + 1 } :=
  expandWith_resolved h hleft room

/-! ## A reference without clauses -/

theorem candidates_bare (path : Text) (entries : List Text) :
    ({ path } : Reference).candidates entries = entries :=
  List.filter_eq_self.2 fun _ _ => rfl

theorem repeatReference_once {path text : Text} {expand : Text → Eval σ Text}
    {session later : Session σ}
    (honce : evaluator.selectOnce expand { path } session = some (text, later)) :
    evaluator.repeatReference expand { path } session = some (text, later) := by
  have htimes : Eval.times 1 (evaluator.selectOnce expand { path }) session =
      some ([text], later) := bind_of_some honce
  have hone : min (UInt32.toNat 1) Repetition.limit = 1 := rfl
  have hjoin : [',', ' '].intercalate ([text].filter (!·.isEmpty)) = text := by
    cases text with
    | nil => rfl
    | cons c text => exact List.append_nil _
  unfold repeatReference
  rw [bind_of_some (a := 1) (t := session) rfl, hone, bind_of_some htimes, hjoin]
  rfl

section

variable {path selected : Text} {entries : List Text} {session : Session σ} {rest : σ}

theorem selectFrom_bare
    (hchoose : Weighted.chooseText entries session.source = some (some selected, rest))
    (hother : ¬ IsTemplate selected) (room : Nat) :
    evaluator.selectFrom (evaluator.expandWithin room) { path } entries session =
      some ((literal? selected).getD selected,
        evaluator.reported (.resolved path selected session.depth)
          { session with source := rest }) := by
  have hmarkov : ¬ ({ path } : Reference).modifiers.contains .markov := Bool.false_ne_true
  have hdraw : Eval.draw (Weighted.chooseText entries) session =
      some (some selected, { session with source := rest }) := by
    rw [Eval.draw, hchoose]
    rfl
  unfold selectFrom
  rw [if_neg hmarkov, bind_of_some hdraw]
  dsimp only
  rw [bind_of_some rfl, bind_of_some (report_apply _ _), expandWithin_other hother]
  rfl

theorem evaluate_bare (hlist : evaluator.tables.list? path = some entries)
    (hchoose : Weighted.chooseText entries session.source = some (some selected, rest))
    (hother : ¬ IsTemplate selected) :
    evaluator.evaluate (.reference { path }) session =
      some ((literal? selected).getD selected,
        evaluator.reported (.resolved path selected session.depth)
          { session with source := rest }) := by
  have hne : ¬ entries.isEmpty := by
    rw [List.isEmpty_iff]
    rintro rfl
    cases hchoose
  show evaluator.repeatReference (evaluator.expandWithin (session.maxDepth - session.depth))
    { path } session = _
  refine repeatReference_once ?_
  unfold selectOnce
  rw [hlist]
  dsimp only
  rw [candidates_bare, if_neg hne]
  exact bind_of_some (selectFrom_bare hchoose hother _)

end

end Evaluator

end RandomTables
