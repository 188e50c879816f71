import RandomTables.Proofs.Engine.Runs
import RandomTables.Proofs.Evaluation.Mirror

/-! # Events

What is reported shows in the trace and nowhere else. Where nothing is to be reported, the trace
stays as it was.
-/

namespace RandomTables

/-! ## Evaluation without events -/

def Session.withTrace {σ : Type} (trace : Array Event) (session : Session σ) : Session σ :=
  { session with trace }

def Evaluator.withDebug (evaluator : Evaluator) (debug : Bool) : Evaluator :=
  { evaluator with debug }

theorem isImage_withTrace {σ : Type} [WordSource σ] (trace : Array Event) (evaluator : Evaluator) :
    IsImage evaluator (evaluator.withDebug false) id (Session.withTrace trace : Session σ → _) where
  tables := rfl
  names := rfl
  words := ⟨fun _ => rfl, fun _ => rfl⟩
  source _ := rfl
  put _ _ := rfl
  depth _ := rfl
  maxDepth _ := rfl
  spend _ := rfl
  reported event session := by
    show session.withTrace trace = (evaluator.reported event session).withTrace trace
    unfold Evaluator.reported
    split <;> rfl

theorem Evaluator.answerAll_quiet {σ : Type} [WordSource σ] (evaluator : Evaluator)
    (requests : List Request) (session : Session σ) :
    (evaluator.withDebug false).answerAll requests session =
      (evaluator.answerAll requests session).map fun (texts, later) =>
        (texts, later.withTrace session.trace) :=
  (isImage_withTrace session.trace evaluator).answerAll requests session

/-! ## Texts without events -/

namespace Engine

def withDebug (engine : Engine) (debug : Bool) : Engine :=
  { engine with config := { engine.config with debug } }

theorem mirrors_evaluate {σ : Type} [WordSource σ] (trace : Array Event) (evaluator : Evaluator)
    (template : Text) :
    Mirrors (Session.withTrace trace) (evaluate evaluator template : Eval σ Text)
      (evaluate (evaluator.withDebug false) template) := by
  have hquiet := isImage_withTrace (σ := σ) trace evaluator
  have houtput := hquiet.answer (.tree (parse template))
  refine (hquiet.report _).bind fun _ => houtput.bind fun output session => ?_
  have hlast := hquiet.report (.generated template session.depth output)
  exact (hlast.bind fun _ => mirrors_pure (Article.resolve output)) session

theorem generateWith_quiet {σ : Type} [WordSource σ] (engine : Engine) (template : Text)
    (source : σ) :
    (engine.withDebug false).generateWith template source =
      (engine.generateWith template source).map fun (generated, rest) =>
        ({ text := generated.text }, rest) := by
  unfold generateWith
  cases literal? template with
  | some text => rfl
  | none =>
    have hquiet := mirrors_evaluate #[] engine.evaluator template
      { maxDepth := engine.config.maxDepth, source }
    dsimp only
    rw [Option.map_map]
    exact (congrArg (Option.map _) hquiet).trans (Option.map_map _ _ _)

theorem withDebug_false {engine : Engine} (h : engine.config.debug = false) :
    engine.withDebug false = engine := by
  unfold withDebug
  rw [← h]

theorem trace_generateWith {σ : Type} [WordSource σ] {engine : Engine}
    (h : engine.config.debug = false) {template : Text} {generated : Generated} {source rest : σ}
    (hrun : engine.generateWith template source = some (generated, rest)) :
    generated.trace = [] := by
  rw [← withDebug_false h, generateWith_quiet] at hrun
  obtain ⟨step, -, heq⟩ := Option.map_eq_some_iff.1 hrun
  cases heq
  rfl

theorem trace_generate {engine later : Engine} (h : engine.config.debug = false) {template : Text}
    {generated : Generated} (hrun : generate template engine = some (generated, later)) :
    generated.trace = [] := by
  obtain ⟨⟨found, rest⟩, hfound, heq⟩ := Option.map_eq_some_iff.1 hrun
  cases heq
  exact trace_generateWith h hfound

theorem trace_generateMany {engine later : Engine} (h : engine.config.debug = false)
    {template : Text} {count : Nat} {all : List Generated}
    (hrun : generateMany template count engine = some (all, later)) :
    all.flatMap Generated.trace = [] := by
  induction count generalizing engine later all with
  | zero =>
    obtain ⟨rfl, -⟩ := pure_eq_some.1 hrun
    rfl
  | succ count ih =>
    obtain ⟨first, middle, hfirst, hmore⟩ := bind_eq_some.1 hrun
    obtain ⟨rest, last, hrest, hpure⟩ := bind_eq_some.1 hmore
    obtain ⟨rfl, -⟩ := pure_eq_some.1 hpure
    have hmiddle : middle.config.debug = false := (sameSettings_generate hfirst).debug ▸ h
    rw [List.flatMap_cons, trace_generate h hfirst, ih hmiddle hrest, List.nil_append]

theorem Command.events_perform {engine later : Engine} (h : engine.config.debug = false)
    {command : Command} {reply : Reply} {events : List Event}
    (hrun : command.perform engine = some ((reply, events), later)) : events = [] := by
  cases command with
  | generate template =>
    obtain ⟨generated, middle, hgenerated, hpure⟩ := bind_eq_some.1 hrun
    cases pure_eq_some.1 hpure |>.1
    exact trace_generate h hgenerated
  | generateMany template count =>
    obtain ⟨all, middle, hall, hpure⟩ := bind_eq_some.1 hrun
    cases pure_eq_some.1 hpure |>.1
    exact trace_generateMany h hall
  | selected path =>
    obtain ⟨text, middle, -, hpure⟩ := bind_eq_some.1 hrun
    cases pure_eq_some.1 hpure |>.1
    rfl
  | generateWith template source =>
    obtain ⟨⟨generated, rest⟩, hgenerated, heq⟩ := Option.map_eq_some_iff.1 hrun
    cases heq
    exact trace_generateWith h hgenerated
  | reseed | parse | check | tokens | raw | tables | config =>
    cases hrun
    rfl

/-! ## With and without events -/

/-- Whether events are reported changes nothing but the trace: results, budget and words drawn are
the same. Without them the trace of a session stays as it was, and no command reports any. -/
theorem withDebug_changes_trace {σ : Type} [WordSource σ] (evaluator : Evaluator) (engine : Engine) :
    (∀ (requests : List Request) (session : Session σ),
      (evaluator.withDebug false).answerAll requests session =
        ((evaluator.withDebug true).answerAll requests session).map fun (texts, later) =>
          (texts, { later with trace := session.trace })) ∧
    (∀ (requests : List Request) (session : Session σ),
      Eval.words ((evaluator.withDebug false).answerAll requests) session =
        Eval.words ((evaluator.withDebug true).answerAll requests) session) ∧
    (∀ (template : Text) (session : Session σ),
      evaluate (evaluator.withDebug false) template session =
        (evaluate (evaluator.withDebug true) template session).map fun (text, later) =>
          (text, { later with trace := session.trace })) ∧
    (∀ (template : Text) (source : σ),
      (engine.withDebug false).generateWith template source =
        ((engine.withDebug true).generateWith template source).map fun (generated, rest) =>
          ({ text := generated.text, trace := [] }, rest)) ∧
    (∀ (template : Text) (source : σ),
      Draw.words ((engine.withDebug false).generateWith template) source =
        Draw.words ((engine.withDebug true).generateWith template) source) ∧
    ∀ (command : Command) (reply : Reply) (events : List Event) (later : Engine),
      command.perform (engine.withDebug false) = some ((reply, events), later) → events = [] := by
  refine ⟨fun requests session => (evaluator.withDebug true).answerAll_quiet requests session,
    fun requests session => ?_,
    fun template session =>
      mirrors_evaluate session.trace (evaluator.withDebug true) template session,
    fun template source => (engine.withDebug true).generateWith_quiet template source,
    fun template source => ?_, fun _ _ _ _ => Command.events_perform rfl⟩
  · have hquiet := (evaluator.withDebug true).answerAll_quiet requests session.taped
    exact (congrArg (Option.map _) hquiet).trans (Option.map_map _ _ _)
  · have hquiet := (engine.withDebug true).generateWith_quiet template ({ source } : Taped σ)
    exact (congrArg (Option.map _) hquiet).trans (Option.map_map _ _ _)

/-- Of a text about which there is something to report. -/
theorem withDebug_changes_trace_owls : ∃ (reply : Reply) (later : Engine),
    (Command.generate "[owl]".toList).perform (Command.owls.withDebug false) =
        some ((reply, []), later) ∧
      ((Command.generate "[owl]".toList).perform (Command.owls.withDebug true)).any
        fun ((_, events), _) => !events.isEmpty := by
  have hquiet : ((Command.generate "[owl]".toList).perform
      (Command.owls.withDebug false)).isSome := by decide +kernel
  obtain ⟨⟨⟨reply, events⟩, later⟩, hrun⟩ := Option.isSome_iff_exists.1 hquiet
  obtain ⟨-, -, -, -, -, hevents⟩ :=
    withDebug_changes_trace (σ := Random.ChaCha) Command.owls.evaluator Command.owls
  obtain rfl := hevents _ _ _ _ hrun
  exact ⟨reply, later, hrun, by decide +kernel⟩

end Engine

end RandomTables
