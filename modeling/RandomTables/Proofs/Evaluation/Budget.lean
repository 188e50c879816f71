import RandomTables.Proofs.Evaluation.Visits
import RandomTables.Proofs.Random.Tape

/-! # The budget

Evaluation ends, and the budget pays for the first values that are read as templates, one unit for
each. Later ones come back as they are.
-/

namespace RandomTables

/-! ## The room is never short -/

namespace Eval

variable {σ α : Type}

/-- The computations are the same in each session whose budget needs neither more room than the one
nor more than the other; and they keep the limit and give no budget back. -/
def SameWithin (room room' : Nat) (m m' : Eval σ α) : Prop :=
  ∀ session : Session σ, session.maxDepth ≤ session.depth + room →
    session.maxDepth ≤ session.depth + room' →
    m session = m' session ∧ ∀ a later, m session = some (a, later) →
      later.maxDepth = session.maxDepth ∧ session.depth ≤ later.depth

variable {room room' : Nat}

theorem sameWithin_pure (a : α) : SameWithin room room' (pure a : Eval σ α) (pure a) := by
  intro session _ _
  refine ⟨rfl, fun b later h => ?_⟩
  obtain ⟨rfl, rfl⟩ := pure_eq_some.1 h
  exact ⟨rfl, Nat.le_refl _⟩

theorem SameWithin.bind {β : Type} {m m' : Eval σ α} {k k' : α → Eval σ β}
    (hm : SameWithin room room' m m') (hk : ∀ a, SameWithin room room' (k a) (k' a)) :
    SameWithin room room' (m >>= k) (m' >>= k') := by
  intro session hroom hroom'
  obtain ⟨heq, hsteps⟩ := hm session hroom hroom'
  cases hrun : m session with
  | none =>
    rw [bind_of_none hrun, bind_of_none (heq ▸ hrun)]
    exact ⟨rfl, fun _ _ h => by cases h⟩
  | some step =>
    obtain ⟨a, middle⟩ := step
    obtain ⟨hmax, hle⟩ := hsteps a middle hrun
    obtain ⟨heq', hsteps'⟩ := hk a middle (by omega) (by omega)
    rw [bind_of_some hrun, bind_of_some (heq ▸ hrun)]
    refine ⟨heq', fun b later h => ?_⟩
    obtain ⟨hmax', hle'⟩ := hsteps' b later h
    exact ⟨hmax'.trans hmax, Nat.le_trans hle hle'⟩

theorem sameWithin_draw (d : Draw σ α) : SameWithin room room' (draw d) (draw d) := by
  intro session _ _
  refine ⟨rfl, fun a later h => ?_⟩
  obtain ⟨rest, -, rfl⟩ := draw_eq_some h
  exact ⟨rfl, Nat.le_refl _⟩

theorem sameWithin_congruence [WordSource σ] (evaluator : Evaluator) (room room' : Nat) :
    Congruence evaluator evaluator fun {α} (m m' : Eval σ α) => SameWithin room room' m m' where
  tables := rfl
  names := rfl
  pure := sameWithin_pure
  bind := SameWithin.bind
  word64 := sameWithin_draw _
  between64 _ := sameWithin_draw _
  between32 _ := sameWithin_draw _
  below32 _ _ := sameWithin_draw _
  report event session _ _ := by
    refine ⟨rfl, ?_⟩
    rintro ⟨⟩ later ⟨⟩
    refine ⟨evaluator.reported_maxDepth _ session, ?_⟩
    exact Nat.le_of_eq (evaluator.reported_depth _ session).symm
  reportResolved path selected session _ _ := by
    refine ⟨rfl, ?_⟩
    rintro ⟨⟩ later ⟨⟩
    refine ⟨evaluator.reported_maxDepth _ session, ?_⟩
    exact Nat.le_of_eq (evaluator.reported_depth _ session).symm

end Eval

namespace Evaluator

variable {σ : Type} [WordSource σ] (evaluator : Evaluator)

theorem sameWithin_of_resolved {room room' : Nat} {value : Text}
    (hresolved : IsTemplate value → ∀ session : Session σ, session.maxDepth ≤ session.depth + room →
      session.maxDepth ≤ session.depth + room' → session.depth < session.maxDepth →
      evaluator.expandWithin room value session = evaluator.expandWithin room' value session ∧
        ∀ text later, evaluator.expandWithin room value session = some (text, later) →
          later.maxDepth = session.maxDepth ∧ session.depth ≤ later.depth) :
    Eval.SameWithin room room' (evaluator.expandWithin room value : Eval σ Text)
      (evaluator.expandWithin room' value) := by
  by_cases htemplate : IsTemplate value
  · intro session hroom hroom'
    by_cases hspent : session.maxDepth ≤ session.depth
    · rw [expandWithin_spent htemplate hspent, expandWithin_spent htemplate hspent]
      refine ⟨rfl, ?_⟩
      rintro text later ⟨⟩
      exact ⟨evaluator.reported_maxDepth _ session,
        Nat.le_of_eq (evaluator.reported_depth _ session).symm⟩
    · exact hresolved htemplate session hroom hroom' (Nat.not_le.1 hspent)
  · rw [expandWithin_other htemplate, expandWithin_other htemplate]
    exact Eval.sameWithin_pure _

theorem sameWithin_expandWithin (room room' : Nat) (value : Text) :
    Eval.SameWithin room room' (evaluator.expandWithin room value : Eval σ Text)
      (evaluator.expandWithin room' value) := by
  induction room generalizing room' value with
  | zero =>
    refine evaluator.sameWithin_of_resolved fun _ session hroom _ hleft => ?_
    omega
  | succ room ih =>
    refine evaluator.sameWithin_of_resolved fun htemplate session hroom hroom' hleft => ?_
    obtain ⟨room', rfl⟩ : ∃ n, room' = n + 1 := ⟨room' - 1, by omega⟩
    rw [expandWithin_resolved htemplate hleft, expandWithin_resolved htemplate hleft]
    obtain ⟨heq, hsteps⟩ :=
      (Eval.sameWithin_congruence evaluator room room').evaluateNode (ih room') (parse value)
        { session with depth := session.depth + 1 } (by simp only; omega) (by simp only; omega)
    refine ⟨heq, fun text later h => ?_⟩
    obtain ⟨hmax, hle⟩ := hsteps text later h
    exact ⟨hmax, Nat.le_of_succ_le hle⟩

theorem sameWithin_expand (room : Nat) (value : Text) :
    Eval.SameWithin room room (evaluator.expandWithin room value : Eval σ Text)
      (evaluator.expand value) :=
  fun session hroom _ =>
    evaluator.sameWithin_expandWithin room (session.maxDepth - session.depth) value session hroom
      (by omega)

/-- The room is in the definitions for their termination only: selected entries are expanded as
values of their own. -/
theorem evaluate_eq (node : Node) :
    (evaluator.evaluate node : Eval σ Text) = evaluator.evaluateNode evaluator.expand node := by
  funext session
  have hroom : session.maxDepth ≤ session.depth + (session.maxDepth - session.depth) := by omega
  exact ((Eval.sameWithin_congruence evaluator _ _).evaluateNode
    (evaluator.sameWithin_expand (session.maxDepth - session.depth)) node session hroom hroom).1

theorem expand_resolved {value : Text} {session : Session σ} (h : IsTemplate value)
    (hleft : session.depth < session.maxDepth) :
    evaluator.expand value session =
      evaluator.evaluate (parse value) { session with depth := session.depth + 1 } := by
  have hroom : session.maxDepth - session.depth = (session.maxDepth - (session.depth + 1)) + 1 := by
    omega
  show evaluator.expandWithin (session.maxDepth - session.depth) value session = _
  rw [hroom, expandWithin_resolved h hleft]
  rfl

theorem expand_other {value : Text} (h : ¬ IsTemplate value) :
    (evaluator.expand value : Eval σ Text) = pure ((literal? value).getD value) := by
  funext session
  show evaluator.expandWithin (session.maxDepth - session.depth) value session = _
  rw [expandWithin_other h]

end Evaluator

/-! ## The log -/

/-- What a visit is like that comes at this place in a session: the first ones are paid for. -/
structure Visit.Counts (visit : Visit) (start maxDepth place : Nat) : Prop where
  template : IsTemplate visit.value
  depth : visit.depth = start + min place (maxDepth - start)
  leftAs : visit.leftAs = if place < maxDepth - start then none else some visit.value

/-- The budget is spent as the log tells. -/
structure Tallied {σ : Type} [WordSource σ] (start : Nat) (session : Session σ)
    (visits : List Visit) : Prop where
  draws : DrawsEnd session.source
  depth : session.depth = start + min visits.length (session.maxDepth - start)
  visits : ∀ (place : Nat) (visit : Visit), visits[place]? = some visit →
    visit.Counts start session.maxDepth place

section

variable {σ : Type} [WordSource σ] {start : Nat} {session : Session σ} {visits : List Visit}

theorem Tallied.add (h : Tallied start session visits) {visit : Visit} {later : Session σ}
    (hsource : later.source = session.source) (hmax : later.maxDepth = session.maxDepth)
    (hdepth : later.depth = start + min (visits.length + 1) (session.maxDepth - start))
    (hvisit : visit.Counts start session.maxDepth visits.length) :
    Tallied start later (visits ++ [visit]) where
  draws := hsource ▸ h.draws
  depth := by
    rw [hmax, hdepth, List.length_append, List.length_singleton]
  visits := by
    intro place found hfound
    rw [hmax]
    rcases Nat.lt_trichotomy place visits.length with hlt | rfl | hgt
    · rw [List.getElem?_append_left hlt] at hfound
      exact h.visits place found hfound
    · rw [List.getElem?_concat_length] at hfound
      cases hfound
      exact hvisit
    · rw [List.getElem?_eq_none (by simp only [List.length_append, List.length_singleton]; omega)]
        at hfound
      cases hfound

theorem Tallied.reported (h : Tallied start session visits) (evaluator : Evaluator)
    (event : Event) : Tallied start (evaluator.reported event session) visits := by
  refine ⟨?_, ?_, ?_⟩
  · rw [Evaluator.reported_source]
    exact h.draws
  · rw [Evaluator.reported_depth, Evaluator.reported_maxDepth]
    exact h.depth
  · rw [Evaluator.reported_maxDepth]
    exact h.visits

/-- Both runs end, in the same way but for the log, and the log is right. -/
def Recorded {α : Type} (start : Nat) (session : Session σ)
    (logged : Option (α × Session (Logged σ))) (plain : Option (α × Session σ)) : Prop :=
  ∃ a later visits, logged = some (a, later.logged visits) ∧ plain = some (a, later) ∧
    Tallied start later visits ∧ later.maxDepth = session.maxDepth ∧ session.depth ≤ later.depth

namespace Eval

/-- The one computation logs the visits of the other, wherever the room suffices. -/
def Records {α : Type} (start room : Nat) (m : Eval (Logged σ) α) (m' : Eval σ α) : Prop :=
  ∀ (session : Session σ) visits, Tallied start session visits →
    session.maxDepth ≤ session.depth + room →
    Recorded start session (m (session.logged visits)) (m' session)

variable {α β : Type} {room : Nat}

theorem records_pure (a : α) :
    Records start room (pure a : Eval (Logged σ) α) (pure a : Eval σ α) :=
  fun session visits h _ => ⟨a, session, visits, rfl, rfl, h, rfl, Nat.le_refl _⟩

theorem Records.bind {m : Eval (Logged σ) α} {m' : Eval σ α} {k : α → Eval (Logged σ) β}
    {k' : α → Eval σ β} (hm : Records start room m m')
    (hk : ∀ a, Records start room (k a) (k' a)) :
    Records start room (m >>= k) (m' >>= k') := by
  intro session visits h hroom
  obtain ⟨a, middle, more, hrun, hrun', hmiddle, hmax, hle⟩ := hm session visits h hroom
  rw [bind_of_some hrun, bind_of_some hrun']
  obtain ⟨b, later, all, hb, hb', hlater, hmax', hle'⟩ := hk a middle more hmiddle (by omega)
  exact ⟨b, later, all, hb, hb', hlater, hmax'.trans hmax, Nat.le_trans hle hle'⟩

theorem embedding_logged (visits : List Visit) :
    Embedding fun source : σ => ({ source, visits } : Logged σ) where
  next32 _ := rfl
  next64 _ := rfl

theorem records_draw {d : Draw (Logged σ) α} {d' : Draw σ α}
    (hmirrors : ∀ visits, Mirrors (fun source => { source, visits }) d' d) (htakes : Draw.Takes d')
    (hends : ∀ source, DrawsEnd source → (d' source).isSome) :
    Records start room (draw d) (draw d') := by
  intro session visits h _
  obtain ⟨⟨a, rest⟩, hrun⟩ := Option.isSome_iff_exists.1 (hends _ h.draws)
  refine ⟨a, { session with source := rest }, visits, ?_, ?_, ?_, rfl, Nat.le_refl _⟩
  · show (d ⟨session.source, visits⟩).map _ = _
    rw [hmirrors visits session.source, hrun]
    rfl
  · show (d' session.source).map _ = _
    rw [hrun]
    rfl
  · exact ⟨h.draws.later (htakes _ _ _ hrun), h.depth, h.visits⟩

theorem records_report (evaluator : Evaluator) (event : Event) :
    Records start room (evaluator.report event : Eval (Logged σ) Unit)
      (evaluator.report event) := by
  intro session visits h _
  refine ⟨(), evaluator.reported event session, visits, ?_, rfl, h.reported evaluator event,
    evaluator.reported_maxDepth event session,
    Nat.le_of_eq (evaluator.reported_depth event session).symm⟩
  rw [Evaluator.report_apply, Evaluator.reported_logged]

theorem records_congruence (evaluator : Evaluator) (start room : Nat) :
    Congruence evaluator evaluator
      fun {α} (m : Eval (Logged σ) α) (m' : Eval σ α) => Records start room m m' where
  tables := rfl
  names := rfl
  pure := records_pure
  bind := Records.bind
  word64 :=
    records_draw (fun visits => (Draw.mirrors_congruence (embedding_logged visits)).word64)
      Draw.takes_word64 fun _ _ => rfl
  between64 hle :=
    records_draw (fun visits => (Draw.mirrors_congruence (embedding_logged visits)).between64 hle)
      (Draw.takes_between64 _ _) fun _ h => h.between64 .refl hle
  between32 hle :=
    records_draw (fun visits => (Draw.mirrors_congruence (embedding_logged visits)).between32 hle)
      (Draw.takes_between32 _ _) fun _ h => h.between32 .refl hle
  below32 hpos hlt :=
    records_draw (fun visits => (Draw.mirrors_congruence (embedding_logged visits)).below32 hpos hlt)
      (Draw.takes_below32 _) fun _ h => h.below32 .refl hpos hlt
  report := records_report evaluator
  reportResolved path selected session visits h hroom :=
    records_report evaluator (.resolved path selected session.depth) session visits h hroom

end Eval

/-! ## Logged runs -/

namespace Evaluator

variable (evaluator : Evaluator)

theorem records_of_resolved {value : Text} {room : Nat}
    (hresolved : IsTemplate value → ∀ (session : Session σ) visits,
      Tallied start session visits → session.maxDepth ≤ session.depth + room →
      session.depth < session.maxDepth →
      Recorded start session (evaluator.recordWithin room value (session.logged visits))
        (evaluator.expandWithin room value session)) :
    Eval.Records start room (evaluator.recordWithin room value)
      (evaluator.expandWithin room value : Eval σ Text) := by
  by_cases htemplate : IsTemplate value
  · intro session visits h hroom
    by_cases hspent : session.maxDepth ≤ session.depth
    · have hdepth := h.depth
      have hvisit : Visit.Counts { value, depth := session.depth, leftAs := some value } start
          session.maxDepth visits.length :=
        ⟨htemplate, hdepth, (if_neg (by omega)).symm⟩
      exact ⟨value, _, _, recordWithin_spent htemplate hspent visits room,
        expandWithin_spent htemplate hspent room,
        h.add (evaluator.reported_source _ session) (evaluator.reported_maxDepth _ session)
          (by rw [evaluator.reported_depth]; omega) hvisit,
        evaluator.reported_maxDepth _ session,
        Nat.le_of_eq (evaluator.reported_depth _ session).symm⟩
    · exact hresolved htemplate session visits h hroom (Nat.not_le.1 hspent)
  · rw [recordWithin_other htemplate, expandWithin_other htemplate]
    exact Eval.records_pure _

theorem records_expandWithin (room : Nat) (value : Text) :
    Eval.Records start room (evaluator.recordWithin room value)
      (evaluator.expandWithin room value : Eval σ Text) := by
  induction room generalizing value with
  | zero =>
    refine evaluator.records_of_resolved fun _ session _ _ hroom hleft => ?_
    omega
  | succ room ih =>
    refine evaluator.records_of_resolved fun htemplate session visits h hroom hleft => ?_
    rw [recordWithin_resolved htemplate hleft, expandWithin_resolved htemplate hleft]
    have hdepth := h.depth
    -- The visit is on record before the value is read, so that it stands before those inside it.
    have hvisit : Visit.Counts { value, depth := session.depth, leftAs := none } start
        session.maxDepth visits.length :=
      ⟨htemplate, hdepth, (if_pos (by omega)).symm⟩
    have hspend : Tallied start { session with depth := session.depth + 1 }
        (visits ++ [{ value, depth := session.depth, leftAs := none }]) :=
      h.add rfl rfl (by simp only; omega) hvisit
    obtain ⟨text, later, all, hrun, hrun', hlater, hmax, hle⟩ :=
      (Eval.records_congruence evaluator start room).evaluateNode ih (parse value) _ _ hspend
        (by simp only; omega)
    exact ⟨text, later, all, hrun, hrun', hlater, hmax, Nat.le_of_succ_le hle⟩

theorem recorded_answer (h : Tallied start session visits) (request : Request) :
    Recorded start session (evaluator.record request (session.logged visits))
      (evaluator.answer request session) := by
  have hroom : session.maxDepth ≤ session.depth + (session.maxDepth - session.depth) := by omega
  rw [answer_eq]
  cases request with
  | tree node =>
    exact (Eval.records_congruence evaluator start _).evaluateNode
      (evaluator.records_expandWithin (session.maxDepth - session.depth)) node session visits h
      hroom
  | entry value => exact evaluator.records_expandWithin _ value session visits h hroom

theorem recorded_answerAll (requests : List Request) (h : Tallied start session visits) :
    Recorded start session (evaluator.recordAll requests (session.logged visits))
      (evaluator.answerAll requests session) := by
  unfold recordAll answerAll
  induction requests generalizing session visits with
  | nil => exact ⟨[], session, visits, rfl, rfl, h, rfl, Nat.le_refl _⟩
  | cons request rest ih =>
    rw [List.mapM_cons, List.mapM_cons]
    obtain ⟨first, middle, more, hrun, hrun', hmiddle, hmax, hle⟩ :=
      evaluator.recorded_answer h request
    obtain ⟨texts, later, all, hrest, hrest', hlater, hmax', hle'⟩ := ih hmiddle
    refine ⟨first :: texts, later, all, ?_, ?_, hlater, hmax'.trans hmax, Nat.le_trans hle hle'⟩
    · rw [bind_of_some hrun, bind_of_some hrest]
      rfl
    · rw [bind_of_some hrun', bind_of_some hrest']
      rfl

end Evaluator

end

/-! ## The account -/

/-- On a source whose draws end, any requests in one session are answered, also where tables select
each other in circles. The budget pays for the first template values in the order in which expansion
comes to them, one unit for each, and every later one comes back as it is. -/
theorem budget_kept {σ : Type} [WordSource σ] (evaluator : Evaluator) (requests : List Request)
    (session : Session σ) (hdraws : DrawsEnd session.source) :
    (∃ texts later visits,
      evaluator.answerAll requests session = some (texts, later) ∧
      evaluator.recordAll requests (session.logged []) = some (texts, later.logged visits) ∧
      later.maxDepth = session.maxDepth ∧
      session.depth ≤ later.depth ∧ later.depth ≤ max session.depth session.maxDepth ∧
      later.depth = session.depth + min visits.length (session.maxDepth - session.depth) ∧
      ∀ (place : Nat) (visit : Visit), visits[place]? = some visit →
        visit.Counts session.depth session.maxDepth place) ∧
    (∀ node, (evaluator.evaluate node : Eval σ Text) =
      evaluator.evaluateNode evaluator.expand node) ∧
    ∀ (value : Text) (now : Session σ),
      (IsTemplate value → now.depth < now.maxDepth →
        evaluator.expand value now =
          evaluator.evaluate (parse value) { now with depth := now.depth + 1 }) ∧
      (IsTemplate value → now.maxDepth ≤ now.depth → ∃ later,
        evaluator.expand value now = some (value, later) ∧ later.depth = now.depth) ∧
      (¬ IsTemplate value → ∃ text, evaluator.expand value now = some (text, now)) := by
  refine ⟨?_, evaluator.evaluate_eq, fun value now => ⟨?_, ?_, ?_⟩⟩
  · have hempty : Tallied session.depth session [] := by
      refine ⟨hdraws, ?_, fun place visit h => ?_⟩
      · rw [List.length_nil, Nat.zero_min, Nat.add_zero]
      · cases h
    obtain ⟨texts, later, visits, hrecord, hanswer, hlater, hmax, hle⟩ :=
      evaluator.recorded_answerAll requests hempty
    have hdepth := hlater.depth
    rw [hmax] at hdepth
    refine ⟨texts, later, visits, hanswer, hrecord, hmax, hle, by omega, hdepth, ?_⟩
    rw [← hmax]
    exact hlater.visits
  · exact evaluator.expand_resolved
  · intro htemplate hspent
    exact ⟨_, Evaluator.expandWithin_spent htemplate hspent _, evaluator.reported_depth _ now⟩
  · intro hother
    rw [evaluator.expand_other hother]
    exact ⟨_, rfl⟩

/-- Two tables that select each other. -/
def Evaluator.mutuallyReferring : Evaluator where
  tables := .ofList [("a".toList, .list ["x [b]".toList]), ("b".toList, .list ["y [a]".toList])]

/-- The first draw spends a budget of three, so the values after it come back as they are. -/
def Request.overdrawn : List Request :=
  [.tree (parse "[a*2]".toList), .entry "plain".toList, .entry "[b]".toList]

theorem budget_kept_mutuallyReferring : ∃ (later : Session Zeros) (visits : List Visit),
    Evaluator.mutuallyReferring.answerAll Request.overdrawn { maxDepth := 3, source := .zeros } =
      some (["x y x y [a], x [b]".toList, "plain".toList, "[b]".toList], later) ∧
    later.depth = min visits.length 3 ∧
    ∀ (place : Nat) (visit : Visit), visits[place]? = some visit → visit.Counts 0 3 place := by
  have hrun : (Evaluator.mutuallyReferring.answerAll Request.overdrawn
      ({ maxDepth := 3, source := .zeros } : Session Zeros)).map Prod.fst =
        some ["x y x y [a], x [b]".toList, "plain".toList, "[b]".toList] := by decide +kernel
  obtain ⟨⟨texts, later, visits, hanswer, -, -, -, -, hdepth, hvisits⟩, -, -⟩ :=
    budget_kept Evaluator.mutuallyReferring Request.overdrawn
      { maxDepth := 3, source := .zeros } (drawsEnd_zeros _)
  rw [hanswer] at hrun
  obtain rfl := Option.some.inj hrun
  exact ⟨later, visits, hanswer, by rw [hdepth]; simp, hvisits⟩

end RandomTables
