import RandomTables.Proofs.Evaluation.Budget
import RandomTables.Proofs.Evaluation.Mirror

/-! # More budget than needed

An evaluation that leaves some of its budget comes out the same under every limit that it keeps to.
-/

namespace RandomTables

def Session.withMaxDepth {σ : Type} (maxDepth : Nat) (session : Session σ) : Session σ :=
  { session with maxDepth }

namespace Eval

variable {σ α β : Type}

/-- If the first computation, where the room suffices, leaves some budget and keeps to the limit, the
second does the same under the limit. -/
def KeepsTo (room limit : Nat) (m m' : Eval σ α) : Prop :=
  ∀ session later a, session.maxDepth ≤ session.depth + room → m session = some (a, later) →
    later.maxDepth = session.maxDepth ∧ session.depth ≤ later.depth ∧
      (later.depth < later.maxDepth → later.depth ≤ limit →
        m' (session.withMaxDepth limit) = some (a, later.withMaxDepth limit))

variable {room limit : Nat}

theorem keepsTo_pure (a : α) : KeepsTo room limit (pure a : Eval σ α) (pure a) := by
  intro session later b _ h
  obtain ⟨rfl, rfl⟩ := pure_eq_some.1 h
  exact ⟨rfl, Nat.le_refl _, fun _ _ => rfl⟩

theorem KeepsTo.bind {m m' : Eval σ α} {k k' : α → Eval σ β} (hm : KeepsTo room limit m m')
    (hk : ∀ a, KeepsTo room limit (k a) (k' a)) : KeepsTo room limit (m >>= k) (m' >>= k') := by
  intro session later b hroom h
  obtain ⟨a, middle, ha, hb⟩ := bind_eq_some.1 h
  obtain ⟨hmax, hle, hfirst⟩ := hm session middle a hroom ha
  obtain ⟨hmax', hle', hrest⟩ := hk a middle later b (by omega) hb
  refine ⟨hmax'.trans hmax, Nat.le_trans hle hle', fun hleft hlimit => ?_⟩
  -- The budget is never given back, so the first part leaves some too and keeps to the limit.
  rw [bind_of_some (hfirst (by omega) (by omega))]
  exact hrest hleft hlimit

theorem keepsTo_draw (d : Draw σ α) : KeepsTo room limit (draw d) (draw d) := by
  intro session later a _ h
  obtain ⟨rest, hrun, rfl⟩ := draw_eq_some h
  refine ⟨rfl, Nat.le_refl _, fun _ _ => ?_⟩
  show (d session.source).map _ = _
  rw [hrun]
  rfl

theorem keepsTo_report (evaluator : Evaluator) (event : Event) :
    KeepsTo room limit (evaluator.report event : Eval σ Unit) (evaluator.report event) := by
  rintro session later ⟨⟩ _ h
  rw [Evaluator.report_apply] at h
  cases h
  refine ⟨evaluator.reported_maxDepth event session,
    Nat.le_of_eq (evaluator.reported_depth event session).symm, fun _ _ => ?_⟩
  rw [Evaluator.report_apply]
  unfold Evaluator.reported
  split <;> rfl

theorem keepsTo_congruence [WordSource σ] (evaluator : Evaluator) (room limit : Nat) :
    Congruence evaluator evaluator fun {α} (m m' : Eval σ α) => KeepsTo room limit m m' where
  tables := rfl
  names := rfl
  pure := keepsTo_pure
  bind := KeepsTo.bind
  word64 := keepsTo_draw _
  between64 _ := keepsTo_draw _
  between32 _ := keepsTo_draw _
  below32 _ _ := keepsTo_draw _
  report := keepsTo_report evaluator
  reportResolved path selected session :=
    keepsTo_report evaluator (.resolved path selected session.depth) session

end Eval

namespace Evaluator

variable {σ : Type} [WordSource σ] (evaluator : Evaluator)

theorem keepsTo_of_resolved {room limit : Nat} {value : Text}
    (hresolved : IsTemplate value → ∀ (session later : Session σ) (text : Text),
      session.maxDepth ≤ session.depth + room → session.depth < session.maxDepth →
      evaluator.expandWithin room value session = some (text, later) →
      later.maxDepth = session.maxDepth ∧ session.depth ≤ later.depth ∧
        (later.depth < later.maxDepth → later.depth ≤ limit →
          evaluator.expand value (session.withMaxDepth limit) =
            some (text, later.withMaxDepth limit))) :
    Eval.KeepsTo room limit (evaluator.expandWithin room value : Eval σ Text)
      (evaluator.expand value) := by
  by_cases htemplate : IsTemplate value
  · intro session later text hroom h
    by_cases hspent : session.maxDepth ≤ session.depth
    · rw [expandWithin_spent htemplate hspent] at h
      cases h
      have hdepth := evaluator.reported_depth (.recursionLimit value session.maxDepth) session
      have hmax := evaluator.reported_maxDepth (.recursionLimit value session.maxDepth) session
      exact ⟨hmax, Nat.le_of_eq hdepth.symm, fun hleft _ => by omega⟩
    · exact hresolved htemplate session later text hroom (Nat.not_le.1 hspent) h
  · rw [expandWithin_other htemplate, evaluator.expand_other htemplate]
    exact Eval.keepsTo_pure _

theorem keepsTo_expandWithin (room limit : Nat) (value : Text) :
    Eval.KeepsTo room limit (evaluator.expandWithin room value : Eval σ Text)
      (evaluator.expand value) := by
  induction room generalizing value with
  | zero =>
    refine evaluator.keepsTo_of_resolved fun _ session _ _ hroom hleft => ?_
    omega
  | succ room ih =>
    refine evaluator.keepsTo_of_resolved fun htemplate session later text hroom hleft h => ?_
    rw [expandWithin_resolved htemplate hleft] at h
    have hnode := (Eval.keepsTo_congruence evaluator room limit).evaluateNode ih (parse value)
    obtain ⟨hmax, hle, hkept⟩ :=
      hnode { session with depth := session.depth + 1 } later text (by simp only; omega) h
    refine ⟨hmax, Nat.le_of_succ_le hle, fun hlater hlimit => ?_⟩
    have hpaid : session.depth < limit := Nat.lt_of_lt_of_le hle hlimit
    rw [evaluator.expand_resolved htemplate hpaid, evaluator.evaluate_eq]
    exact hkept hlater hlimit

theorem evaluate_withMaxDepth {node : Node} {session later : Session σ} {text : Text} {limit : Nat}
    (h : evaluator.evaluate node session = some (text, later))
    (hleft : later.depth < session.maxDepth) (hlimit : later.depth ≤ limit) :
    evaluator.evaluate node (session.withMaxDepth limit) =
      some (text, later.withMaxDepth limit) := by
  have hroom : session.maxDepth ≤ session.depth + (session.maxDepth - session.depth) := by omega
  have hexpand := evaluator.keepsTo_expandWithin (σ := σ) (session.maxDepth - session.depth) limit
  obtain ⟨hmax, -, hkept⟩ := (Eval.keepsTo_congruence evaluator _ limit).evaluateNode hexpand node
    session later text hroom h
  rw [evaluator.evaluate_eq]
  exact hkept (hmax ▸ hleft) hlimit

end Evaluator

/-- An evaluation that leaves some of its budget does the same under every limit that the budget it
spent keeps to: it gives the same text, draws the same words and spends the same. -/
theorem evaluate_under_limit {σ : Type} [WordSource σ] (evaluator : Evaluator) (node : Node)
    (source : σ) {maxDepth : Nat} {text : Text} {later : Session σ}
    (h : evaluator.evaluate node { maxDepth, source } = some (text, later))
    (hleft : later.depth < maxDepth) (limit : Nat) (hlimit : later.depth ≤ limit) :
    evaluator.evaluate node { maxDepth := limit, source } =
        some (text, { later with maxDepth := limit }) ∧
      ∃ words, Eval.words (evaluator.evaluate node) { maxDepth, source } = some words ∧
        Eval.words (evaluator.evaluate node) { maxDepth := limit, source } = some words := by
  refine ⟨evaluator.evaluate_withMaxDepth h hleft hlimit, ?_⟩
  have htape := evaluator.answer_taped (.tree node) { maxDepth, source }
  obtain ⟨⟨first, taped⟩, htaped, heq⟩ := Option.map_eq_some_iff.1 (htape.symm.trans h)
  cases heq
  refine ⟨taped.source.words, ?_, ?_⟩
  · exact congrArg (Option.map _) htaped
  · exact congrArg (Option.map _) (evaluator.evaluate_withMaxDepth htaped hleft hlimit)

/-- A table whose entry selects from another one. -/
def Evaluator.nested : Evaluator where
  tables := .ofList [("a".toList, .list ["x [b]".toList]), ("b".toList, .list ["y".toList])]

/-- Two of five units are spent, so two are enough. -/
theorem evaluate_under_limit_nested : ∃ later : Session Zeros,
    Evaluator.nested.evaluate (parse "[a*2]".toList) { maxDepth := 5, source := .zeros } =
        some ("x y, x y".toList, later) ∧
      later.depth = 2 ∧
      Evaluator.nested.evaluate (parse "[a*2]".toList) { maxDepth := 2, source := .zeros } =
        some ("x y, x y".toList, { later with maxDepth := 2 }) := by
  have hrun : (Evaluator.nested.evaluate (parse "[a*2]".toList)
      ({ maxDepth := 5, source := .zeros } : Session Zeros)).map
        (fun (text, later) => (text, later.depth)) = some ("x y, x y".toList, 2) := by
    decide +kernel
  obtain ⟨⟨text, later⟩, heval, heq⟩ := Option.map_eq_some_iff.1 hrun
  obtain ⟨rfl, hdepth⟩ := Prod.mk.inj heq
  have hlimit := evaluate_under_limit Evaluator.nested _ _ heval (by rw [hdepth]; decide) 2
    (Nat.le_of_eq hdepth)
  exact ⟨later, heval, hdepth, hlimit.1⟩

end RandomTables
