import RandomTables.Engine.Command
import RandomTables.Proofs.Random.Bounds

/-! # Runs of commands

What an engine answers depends on its settings, its source and nothing else. Observers change neither,
a batch can be cut in two, and a new seed makes engines with the same settings equal.
-/

namespace RandomTables.Engine

/-! ## Settings -/

/-- The engines differ in nothing but their seeds and sources. -/
structure SameSettings (mine theirs : Engine) : Prop where
  tables : mine.tables = theirs.tables
  maxDepth : mine.config.maxDepth = theirs.config.maxDepth
  debug : mine.config.debug = theirs.config.debug
  names : mine.names = theirs.names

namespace SameSettings

theorem refl (engine : Engine) : SameSettings engine engine := ⟨rfl, rfl, rfl, rfl⟩

theorem symm {a b : Engine} (h : SameSettings a b) : SameSettings b a :=
  ⟨h.tables.symm, h.maxDepth.symm, h.debug.symm, h.names.symm⟩

theorem trans {a b c : Engine} (hab : SameSettings a b) (hbc : SameSettings b c) :
    SameSettings a c :=
  ⟨hab.tables.trans hbc.tables, hab.maxDepth.trans hbc.maxDepth, hab.debug.trans hbc.debug,
    hab.names.trans hbc.names⟩

theorem generateWith {mine theirs : Engine} (h : SameSettings mine theirs) {σ : Type} [WordSource σ]
    (template : Text) :
    (mine.generateWith template : Draw σ Generated) = theirs.generateWith template := by
  have hevaluator : mine.evaluator = theirs.evaluator := by
    simp only [evaluator, h.tables, h.debug, h.names]
  unfold Engine.generateWith
  rw [hevaluator, h.maxDepth]

end SameSettings

/-! ## Single commands -/

section

variable {α : Type} {engine later : Engine}

theorem sameSettings_draw {d : Draw Random.ChaCha α} {a : α}
    (h : draw d engine = some (a, later)) : SameSettings engine later := by
  obtain ⟨⟨b, rest⟩, -, heq⟩ := Option.map_eq_some_iff.1 h
  cases heq
  exact ⟨rfl, rfl, rfl, rfl⟩

theorem sameSettings_generate {template : Text} {generated : Generated}
    (h : generate template engine = some (generated, later)) : SameSettings engine later :=
  sameSettings_draw (d := engine.generateWith template) h

theorem generateMany_eq_some {template : Text} {count : Nat} {all : List Generated}
    (h : generateMany template count engine = some (all, later)) :
    all.length = count ∧ SameSettings engine later := by
  induction count generalizing engine later all with
  | zero =>
    obtain ⟨rfl, rfl⟩ := pure_eq_some.1 h
    exact ⟨rfl, .refl _⟩
  | succ count ih =>
    obtain ⟨first, middle, hfirst, hmore⟩ := bind_eq_some.1 h
    obtain ⟨rest, last, hrest, hpure⟩ := bind_eq_some.1 hmore
    obtain ⟨rfl, rfl⟩ := pure_eq_some.1 hpure
    obtain ⟨hlength, hsettings⟩ := ih hrest
    exact ⟨congrArg (· + 1) hlength, (sameSettings_generate hfirst).trans hsettings⟩

theorem sameSettings_selected {path : Text} {text : Option Text}
    (h : selected path engine = some (text, later)) : SameSettings engine later := by
  obtain ⟨current, middle, hget, hrun⟩ := bind_eq_some.1 h
  cases hget
  cases hraw : engine.raw? path with
  | none =>
    rw [hraw] at hrun
    obtain ⟨-, rfl⟩ := pure_eq_some.1 hrun
    exact .refl _
  | some value =>
    rw [hraw] at hrun
    cases value with
    | list entries => exact sameSettings_draw hrun
    | scalar | map =>
      obtain ⟨-, rfl⟩ := pure_eq_some.1 hrun
      exact .refl _

end

theorem generateMany_add (template : Text) (m n : Nat) :
    generateMany template (m + n) = (do
      let all ← generateMany template m
      let more ← generateMany template n
      pure (all ++ more)) := by
  induction m with
  | zero => simp [generateMany]
  | succ m ih =>
    rw [Nat.succ_add]
    simp [generateMany, ih]

namespace Command

variable {engine later : Engine} {command : Command}

theorem sameSettings_perform {reply : Reply} {events : List Event}
    (h : command.perform engine = some ((reply, events), later)) : SameSettings engine later := by
  cases command with
  | generate template =>
    obtain ⟨generated, middle, hrun, hpure⟩ := bind_eq_some.1 h
    obtain ⟨-, rfl⟩ := pure_eq_some.1 hpure
    exact sameSettings_generate hrun
  | generateMany template count =>
    obtain ⟨all, middle, hrun, hpure⟩ := bind_eq_some.1 h
    obtain ⟨-, rfl⟩ := pure_eq_some.1 hpure
    exact (generateMany_eq_some hrun).2
  | selected path =>
    obtain ⟨text, middle, hrun, hpure⟩ := bind_eq_some.1 h
    obtain ⟨-, rfl⟩ := pure_eq_some.1 hpure
    exact sameSettings_selected hrun
  | reseed seed =>
    cases h
    exact ⟨rfl, rfl, rfl, rfl⟩
  | generateWith template source =>
    obtain ⟨⟨generated, rest⟩, -, heq⟩ := Option.map_eq_some_iff.1 h
    cases heq
    exact .refl _
  | parse | check | tokens | raw | tables | config =>
    cases h
    exact .refl _

theorem engine_of_observes (hobserves : command.observes) {reply : Reply} {events : List Event}
    (h : command.perform engine = some ((reply, events), later)) : later = engine := by
  cases command with
  | generate | generateMany | selected | reseed => cases hobserves
  | generateWith template source =>
    obtain ⟨⟨generated, rest⟩, -, heq⟩ := Option.map_eq_some_iff.1 h
    cases heq
    rfl
  | parse | check | tokens | raw | tables | config =>
    cases h
    rfl

theorem perform_reseed {mine theirs : Engine} (h : SameSettings mine theirs) (seed : Text) :
    (reseed seed).perform mine = (reseed seed).perform theirs := by
  obtain ⟨tables, ⟨maxDepth, debug, seed⟩, names, source⟩ := mine
  obtain ⟨tables', ⟨maxDepth', debug', seed'⟩, names', source'⟩ := theirs
  obtain ⟨rfl, rfl, rfl, rfl⟩ := h
  rfl

theorem isSome_of_observes (hobserves : command.observes)
    (hends : ∀ template source, command = .generateWith template source →
      (engine.generateWith template source).isSome) : (command.perform engine).isSome := by
  cases command with
  | generate | generateMany | selected | reseed => cases hobserves
  | generateWith template source =>
    show ((engine.generateWith template source).map _).isSome
    rw [Option.isSome_map]
    exact hends template source rfl
  | parse | check | tokens | raw | tables | config => rfl

/-! ## Transcripts -/

/-- A command with what came of it. -/
structure Step where
  command : Command
  reply : Reply
  events : List Event

/-- Carries out commands one after another and keeps what each of them reports. -/
def transcript : List Command → Run (List Step)
  | [] => pure []
  | command :: commands => do
    let (reply, events) ← command.perform
    let rest ← transcript commands
    pure ({ command, reply, events } :: rest)

theorem transcript_cons_eq_some {commands : List Command} {steps : List Step} :
    transcript (command :: commands) engine = some (steps, later) ↔
      ∃ reply events middle rest, command.perform engine = some ((reply, events), middle) ∧
        transcript commands middle = some (rest, later) ∧
        steps = { command, reply, events } :: rest := by
  rw [transcript, bind_eq_some]
  constructor
  · rintro ⟨⟨reply, events⟩, middle, hperform, hmore⟩
    obtain ⟨rest, last, hrest, hpure⟩ := bind_eq_some.1 hmore
    obtain ⟨rfl, rfl⟩ := pure_eq_some.1 hpure
    exact ⟨reply, events, middle, rest, hperform, hrest, rfl⟩
  · rintro ⟨reply, events, middle, rest, hperform, hrest, rfl⟩
    exact ⟨(reply, events), middle, hperform, bind_eq_some.2 ⟨rest, later, hrest, rfl⟩⟩

theorem transcript_append (before after : List Command) :
    transcript (before ++ after) = (do
      let early ← transcript before
      let late ← transcript after
      pure (early ++ late)) := by
  induction before with
  | nil => simp [transcript]
  | cons command before ih => simp [transcript, ih]

theorem map_command_transcript {commands : List Command} {steps : List Step}
    (h : transcript commands engine = some (steps, later)) : steps.map Step.command = commands := by
  induction commands generalizing engine steps with
  | nil =>
    obtain ⟨rfl, -⟩ := pure_eq_some.1 h
    rfl
  | cons command commands ih =>
    obtain ⟨reply, events, middle, rest, -, hrest, rfl⟩ := transcript_cons_eq_some.1 h
    rw [List.map_cons, ih hrest]

theorem sameSettings_transcript {commands : List Command} {steps : List Step}
    (h : transcript commands engine = some (steps, later)) : SameSettings engine later := by
  induction commands generalizing engine steps with
  | nil =>
    obtain ⟨-, rfl⟩ := pure_eq_some.1 h
    exact .refl _
  | cons command commands ih =>
    obtain ⟨reply, events, middle, rest, hperform, hrest, -⟩ := transcript_cons_eq_some.1 h
    exact (sameSettings_perform hperform).trans (ih hrest)

/-! ## Without the observers -/

theorem transcript_filter {commands : List Command} {steps : List Step}
    (h : transcript commands engine = some (steps, later)) :
    transcript (commands.filter (!·.observes)) engine =
      some (steps.filter (!·.command.observes), later) := by
  induction commands generalizing engine steps with
  | nil =>
    obtain ⟨rfl, rfl⟩ := pure_eq_some.1 h
    rfl
  | cons command commands ih =>
    obtain ⟨reply, events, middle, rest, hperform, hrest, rfl⟩ := transcript_cons_eq_some.1 h
    by_cases hobserves : command.observes
    · obtain rfl := engine_of_observes hobserves hperform
      rw [List.filter_cons_of_neg (by simpa using hobserves),
        List.filter_cons_of_neg (by simpa using hobserves)]
      exact ih hrest
    · rw [List.filter_cons_of_pos (by simpa using hobserves),
        List.filter_cons_of_pos (by simpa using hobserves)]
      exact transcript_cons_eq_some.2 ⟨reply, events, middle, _, hperform, ih hrest, rfl⟩

theorem isSome_transcript {commands : List Command}
    (hends : ∀ template source, .generateWith template source ∈ commands →
      (engine.generateWith template source).isSome)
    (h : (transcript (commands.filter (!·.observes)) engine).isSome) :
    (transcript commands engine).isSome := by
  induction commands generalizing engine with
  | nil => rfl
  | cons command commands ih =>
    have hrest : ∀ template source, .generateWith template source ∈ commands →
        (engine.generateWith template source).isSome :=
      fun template source hmem => hends template source (List.mem_cons_of_mem _ hmem)
    by_cases hobserves : command.observes
    · rw [List.filter_cons_of_neg (by simpa using hobserves)] at h
      have hsome := isSome_of_observes hobserves fun template source heq =>
        hends template source (heq ▸ List.mem_cons_self)
      obtain ⟨⟨⟨reply, events⟩, middle⟩, hperform⟩ := Option.isSome_iff_exists.1 hsome
      obtain rfl := engine_of_observes hobserves hperform
      obtain ⟨⟨steps, later⟩, hsteps⟩ := Option.isSome_iff_exists.1 (ih hrest h)
      exact Option.isSome_of_mem
        (transcript_cons_eq_some.2 ⟨reply, events, middle, steps, hperform, hsteps, rfl⟩)
    · rw [List.filter_cons_of_pos (by simpa using hobserves)] at h
      obtain ⟨⟨steps, later⟩, hrun⟩ := Option.isSome_iff_exists.1 h
      obtain ⟨reply, events, middle, left, hperform, hleft, -⟩ := transcript_cons_eq_some.1 hrun
      have hmiddle : ∀ template source, .generateWith template source ∈ commands →
          (middle.generateWith template source).isSome := fun template source hmem => by
        rw [← (sameSettings_perform hperform).generateWith]
        exact hrest template source hmem
      obtain ⟨⟨steps, later⟩, hsteps⟩ :=
        Option.isSome_iff_exists.1 (ih hmiddle (Option.isSome_of_mem hleft))
      exact Option.isSome_of_mem
        (transcript_cons_eq_some.2 ⟨reply, events, middle, steps, hperform, hsteps, rfl⟩)

/-! ## Batches -/

/-- A batch of texts as it stands in a transcript. -/
def batch (template : Text) (all : List Generated) : Step where
  command := .generateMany template all.length
  reply := .texts (all.map Generated.text)
  events := all.flatMap Generated.trace

/-- A run with two batches from one template, one behind the other. -/
def batches (before after : List Command) (template : Text) (m n : Nat) :
    Run (List Step × List Generated × List Generated × List Step) := do
  let early ← transcript before
  let all ← Engine.generateMany template m
  let more ← Engine.generateMany template n
  let late ← transcript after
  pure (early, all, more, late)

theorem transcript_generateMany (template : Text) (count : Nat) (commands : List Command) :
    transcript (.generateMany template count :: commands) = (do
      let all ← Engine.generateMany template count
      let rest ← transcript commands
      pure ({ batch template all with command := .generateMany template count } :: rest)) := by
  simp [transcript, perform, batch]

theorem transcript_joined (before after : List Command) (template : Text) (m n : Nat) :
    transcript (before ++ .generateMany template (m + n) :: after) =
      (fun (early, all, more, late) =>
        early ++ { batch template (all ++ more) with
          command := .generateMany template (m + n) } :: late) <$>
        batches before after template m n := by
  rw [transcript_append, transcript_generateMany, generateMany_add]
  simp [batches]

theorem transcript_apart (before after : List Command) (template : Text) (m n : Nat) :
    transcript (before ++ .generateMany template m :: .generateMany template n :: after) =
      (fun (early, all, more, late) =>
        early ++ { batch template all with command := .generateMany template m } ::
          { batch template more with command := .generateMany template n } :: late) <$>
        batches before after template m n := by
  rw [transcript_append, transcript_generateMany, transcript_generateMany]
  simp [batches]

theorem batches_eq_some {before after : List Command} {template : Text} {m n : Nat}
    {early late : List Step} {all more : List Generated}
    (h : batches before after template m n engine = some ((early, all, more, late), later)) :
    early.map Step.command = before ∧ all.length = m ∧ more.length = n := by
  obtain ⟨early, first, hearly, h⟩ := bind_eq_some.1 h
  obtain ⟨all, second, hall, h⟩ := bind_eq_some.1 h
  obtain ⟨more, third, hmore, h⟩ := bind_eq_some.1 h
  obtain ⟨late, last, -, hpure⟩ := bind_eq_some.1 h
  obtain ⟨heq, -⟩ := pure_eq_some.1 hpure
  cases heq
  exact ⟨map_command_transcript hearly, (generateMany_eq_some hall).1,
    (generateMany_eq_some hmore).1⟩

/-! ## Histories -/

theorem transcript_reseed {mine theirs : Engine} (h : SameSettings mine theirs) (seed : Text)
    (commands : List Command) :
    transcript (.reseed seed :: commands) mine = transcript (.reseed seed :: commands) theirs := by
  have hperform := perform_reseed h seed
  rw [transcript]
  cases hrun : (reseed seed).perform theirs with
  | none => rw [bind_of_none hrun, bind_of_none (hperform.trans hrun)]
  | some step => rw [bind_of_some hrun, bind_of_some (hperform.trans hrun)]

/-- Observers can be left out of a run. A batch can be cut in two. And after the same new seed two
engines with the same settings answer alike, whatever happened to them before. -/
theorem transcript_history_free :
    (∀ (commands : List Command) (engine : Engine),
      (∀ steps later, transcript commands engine = some (steps, later) →
        transcript (commands.filter (!·.observes)) engine =
          some (steps.filter (!·.command.observes), later)) ∧
      ((∀ template source, .generateWith template source ∈ commands →
          (engine.generateWith template source).isSome) →
        (transcript (commands.filter (!·.observes)) engine).isSome →
        (transcript commands engine).isSome)) ∧
    (∀ (before after : List Command) (template : Text) (m n : Nat) (engine : Engine),
      (transcript (before ++ .generateMany template (m + n) :: after) engine = none ∧
        transcript (before ++ .generateMany template m :: .generateMany template n :: after) engine =
          none) ∨
      ∃ early all more late later,
        early.map Step.command = before ∧ all.length = m ∧ more.length = n ∧
        transcript (before ++ .generateMany template (m + n) :: after) engine =
          some (early ++ batch template (all ++ more) :: late, later) ∧
        transcript (before ++ .generateMany template m :: .generateMany template n :: after) engine =
          some (early ++ batch template all :: batch template more :: late, later)) ∧
    ∀ (mine theirs mine' theirs' : Engine) (past past' : List Command) (steps steps' : List Step),
      SameSettings mine theirs →
      transcript past mine = some (steps, mine') → transcript past' theirs = some (steps', theirs') →
      ∀ (seed : Text) (commands : List Command),
        transcript (.reseed seed :: commands) mine' =
          transcript (.reseed seed :: commands) theirs' := by
  refine ⟨fun commands engine => ⟨fun steps later => transcript_filter, isSome_transcript⟩,
    fun before after template m n engine => ?_, ?_⟩
  · rw [transcript_joined, transcript_apart]
    cases hrun : batches before after template m n engine with
    | none =>
      rw [map_eq_pure_bind, map_eq_pure_bind]
      exact .inl ⟨bind_of_none hrun, bind_of_none hrun⟩
    | some outcome =>
      obtain ⟨⟨early, all, more, late⟩, later⟩ := outcome
      obtain ⟨hearly, rfl, rfl⟩ := batches_eq_some hrun
      refine .inr ⟨early, all, more, late, later, hearly, rfl, rfl, ?_, ?_⟩
      · refine map_eq_some.2 ⟨_, hrun, ?_⟩
        rw [← List.length_append]
        rfl
      · exact map_eq_some.2 ⟨_, hrun, rfl⟩
  · intro mine theirs mine' theirs' past past' steps steps' hsame hpast hpast' seed commands
    have hnow : SameSettings mine' theirs' :=
      ((sameSettings_transcript hpast).symm.trans hsame).trans (sameSettings_transcript hpast')
    exact transcript_reseed hnow seed commands

def owls : Engine where
  tables := .ofList [("owl".toList, .list ["barn owl ^2".toList, "{a} [owl]".toList])]
  config := {}
  source := .ofSeed 7

/-- Looks at the engine before and between two draws. -/
def lookAtOwls : List Command :=
  [.tokens "[owl]".toList, .generate "{[owl]?}".toList,
    .generateWith "[owl]".toList { source := .scripted { words := [], state := 0 } },
    .selected "owl".toList]

theorem transcript_history_free_owls :
    (∃ steps later, transcript lookAtOwls owls = some (steps, later) ∧
      transcript [.generate "{[owl]?}".toList, .selected "owl".toList] owls =
        some (steps.filter (!·.command.observes), later) ∧
      ∀ (seed : Text) (commands : List Command),
        transcript (.reseed seed :: commands) later =
          transcript (.reseed seed :: commands) { owls with source := .ofSeed 8 }) ∧
    (transcript lookAtOwls owls).isSome := by
  have hrun : (transcript lookAtOwls owls).isSome := by decide +kernel
  obtain ⟨⟨steps, later⟩, hsteps⟩ := Option.isSome_iff_exists.1 hrun
  obtain ⟨hobservers, -, hreseed⟩ := transcript_history_free
  refine ⟨⟨steps, later, hsteps, (hobservers lookAtOwls owls).1 steps later hsteps, ?_⟩, ?_⟩
  · exact hreseed owls { owls with source := .ofSeed 8 } later _ lookAtOwls [] steps []
      ⟨rfl, rfl, rfl, rfl⟩ hsteps rfl
  · refine (hobservers lookAtOwls owls).2 (fun template source hmem => ?_) (by decide +kernel)
    simp only [lookAtOwls, List.mem_cons, List.not_mem_nil, or_false, reduceCtorEq, false_or,
      generateWith.injEq] at hmem
    obtain ⟨rfl, rfl⟩ := hmem
    decide +kernel

end Command

end RandomTables.Engine
