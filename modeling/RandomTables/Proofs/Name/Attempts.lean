import RandomTables.Name.Invention
import RandomTables.Proofs.Name.Walk
import RandomTables.Proofs.Random.Ending

/-! # Attempts at a word

Walks are made one after another until one gives a new word. What an invention returns is told by the
outcomes of these walks.
-/

namespace RandomTables.Name

variable {σ : Type} [WordSource σ]

namespace Model

/-! ## Walks in a row -/

/-- Walks made one after another have these outcomes. -/
inductive Walks (model : Model) (options : Options) :
    (source : σ) → List (Option Text) → (rest : σ) → Prop where
  | nil {source : σ} : Walks model options source [] source
  | cons {source middle rest : σ} {outcome : Option Text} {outcomes : List (Option Text)}
      (hwalk : model.walk options source = some (outcome, middle))
      (h : Walks model options middle outcomes rest) :
      Walks model options source (outcome :: outcomes) rest

variable {model : Model} {options : Options} {source rest : σ} {attempts : Nat}
  {known result : Option Text} {outcomes : List (Option Text)}

/-- Every word among the outcomes is a training word. -/
def AllKnown (model : Model) (outcomes : List (Option Text)) : Prop :=
  ∀ word, some word ∈ outcomes → word ∈ model.words

theorem allKnown_cons {outcome : Option Text} :
    model.AllKnown (outcome :: outcomes) ↔
      (∀ word, outcome = some word → word ∈ model.words) ∧ model.AllKnown outcomes := by
  simp only [AllKnown, List.mem_cons, or_imp, forall_and, eq_comm]

theorem originWithin_succ_of_new {word : Text} {middle : σ}
    (hwalk : model.walk options source = some (some word, middle)) (hnew : word ∉ model.words) :
    model.originWithin options (attempts + 1) known source = some (some (.new word), middle) := by
  rw [originWithin, bind_of_some hwalk]
  dsimp only
  rw [if_neg (by simpa using hnew)]
  rfl

theorem originWithin_succ_of_known {outcome : Option Text} {middle : σ}
    (hwalk : model.walk options source = some (outcome, middle))
    (hknown : ∀ word, outcome = some word → word ∈ model.words) :
    model.originWithin options (attempts + 1) known source =
      model.originWithin options attempts (known.or outcome) middle := by
  rw [originWithin, bind_of_some hwalk]
  cases outcome with
  | none => rw [Option.or_none]
  | some word =>
    dsimp only
    rw [if_pos (by simpa using hknown word rfl)]

theorem originWithin_of_new (known : Option Text) {word : Text}
    (hwalks : Walks model options source (outcomes ++ [some word]) rest)
    (hknown : model.AllKnown outcomes) (hnew : word ∉ model.words)
    (hroom : outcomes.length < attempts) :
    model.originWithin options attempts known source = some (some (.new word), rest) := by
  induction outcomes generalizing source attempts known with
  | nil =>
    obtain ⟨attempts, rfl⟩ := Nat.exists_eq_succ_of_ne_zero (Nat.ne_of_gt hroom)
    obtain _ | ⟨hwalk, hend⟩ := hwalks
    cases hend
    exact originWithin_succ_of_new hwalk hnew
  | cons outcome outcomes ih =>
    obtain ⟨attempts, rfl⟩ := Nat.exists_eq_succ_of_ne_zero (Nat.ne_of_gt (Nat.zero_lt_of_lt hroom))
    obtain _ | ⟨hwalk, hlater⟩ := hwalks
    obtain ⟨hfirst, hrest⟩ := allKnown_cons.1 hknown
    rw [originWithin_succ_of_known hwalk hfirst]
    exact ih _ hlater hrest (Nat.lt_of_succ_lt_succ hroom)

theorem originWithin_of_known (known : Option Text)
    (hwalks : Walks model options source outcomes rest) (hknown : model.AllKnown outcomes) :
    model.originWithin options outcomes.length known source =
      some ((known.or (outcomes.findSome? id)).map .known, rest) := by
  induction hwalks generalizing known with
  | nil =>
    rw [List.findSome?_nil, Option.or_none]
    rfl
  | @cons source middle rest outcome outcomes hwalk _ ih =>
    obtain ⟨hfirst, hrest⟩ := allKnown_cons.1 hknown
    rw [List.length_cons, originWithin_succ_of_known hwalk hfirst, ih _ hrest, Option.or_assoc]
    cases outcome <;> rfl

theorem originWithin_eq_some {found : Option Origin}
    (h : model.originWithin options attempts known source = some (found, rest)) :
    ∃ outcomes, model.AllKnown outcomes ∧
      ((∃ word, outcomes.length < attempts ∧
          Walks model options source (outcomes ++ [some word]) rest ∧ word ∉ model.words ∧
          found = some (.new word)) ∨
        outcomes.length = attempts ∧ Walks model options source outcomes rest ∧
          found = (known.or (outcomes.findSome? id)).map .known) := by
  induction attempts generalizing source known with
  | zero =>
    obtain ⟨rfl, rfl⟩ := pure_eq_some.1 h
    refine ⟨[], fun word hword => absurd hword List.not_mem_nil, .inr ⟨rfl, .nil, ?_⟩⟩
    rw [List.findSome?_nil, Option.or_none]
  | succ attempts ih =>
    obtain ⟨outcome, middle, hwalk, -⟩ := bind_eq_some.1 h
    by_cases hnew : ∃ word, outcome = some word ∧ word ∉ model.words
    · obtain ⟨word, rfl, hnew⟩ := hnew
      rw [originWithin_succ_of_new hwalk hnew] at h
      obtain ⟨rfl, rfl⟩ := Prod.mk.inj (Option.some.inj h)
      exact ⟨[], fun word hword => absurd hword List.not_mem_nil,
        .inl ⟨word, Nat.succ_pos _, .cons hwalk .nil, hnew, rfl⟩⟩
    · have hknown : ∀ word, outcome = some word → word ∈ model.words := fun word heq =>
        Classical.by_contradiction fun hword => hnew ⟨word, heq, hword⟩
      rw [originWithin_succ_of_known hwalk hknown] at h
      obtain ⟨outcomes, hall, ⟨word, hroom, hwalks, hnew, rfl⟩ | ⟨rfl, hwalks, rfl⟩⟩ := ih h
      · exact ⟨outcome :: outcomes, allKnown_cons.2 ⟨hknown, hall⟩,
          .inl ⟨word, Nat.succ_lt_succ hroom, .cons hwalk hwalks, hnew, rfl⟩⟩
      · refine ⟨outcome :: outcomes, allKnown_cons.2 ⟨hknown, hall⟩,
          .inr ⟨rfl, .cons hwalk hwalks, ?_⟩⟩
        rw [Option.or_assoc]
        cases outcome <;> rfl

end Model

/-! ## Inventions -/

/-- How a word comes of the training words, by at most the walks that the options allow. The first new
word ends them. Without a new word the first known one is taken, and if every walk failed, a training
word is drawn. -/
inductive Invents (words : List Text) (options : Options) (source : σ) : Text → (rest : σ) → Prop where
  | new {outcomes : List (Option Text)} {word : Text} {rest : σ}
      (hwalks : (Model.train words options.order).Walks options source (outcomes ++ [some word]) rest)
      (hroom : outcomes.length < max options.maxAttempts 1)
      (hknown : ∀ known, some known ∈ outcomes → known ∈ words.map Text.lower)
      (hnew : word ∉ words.map Text.lower) :
      Invents words options source (Text.capitalize word) rest
  | known {outcomes : List (Option Text)} {word : Text} {rest : σ}
      (hwalks : (Model.train words options.order).Walks options source outcomes rest)
      (hlength : outcomes.length = max options.maxAttempts 1)
      (hknown : ∀ known, some known ∈ outcomes → known ∈ words.map Text.lower)
      (hfirst : outcomes.findSome? id = some word) :
      Invents words options source (Text.capitalize word) rest
  | drawn {outcomes : List (Option Text)} {middle rest : σ} {place : Nat} {word : Text}
      (hwalks : (Model.train words options.order).Walks options source outcomes middle)
      (hlength : outcomes.length = max options.maxAttempts 1)
      (hfailed : ∀ outcome ∈ outcomes, outcome = none)
      (hdraw : Draw.index32 words.length middle = some (place, rest))
      (hword : words[place]? = some word) :
      Invents words options source word rest

theorem cleanWords_ne_nil_iff {entries : List Text} :
    cleanWords entries ≠ [] ↔ ∃ entry ∈ entries, Text.trim (Weighted.strip entry) ≠ [] := by
  simp [cleanWords]

theorem words_train_cleanWords (entries : List Text) (order : Nat) :
    (Model.train (cleanWords entries) order).words = (cleanWords entries).map Text.lower := by
  show (List.filter _ (cleanWords entries)).map Text.lower = _
  rw [cleanWords, List.filter_filter]
  simp only [Bool.and_self]

theorem invent?_of_blank {entries : List Text} (hne : entries ≠ [])
    (hblank : ∀ entry ∈ entries, Text.trim (Weighted.strip entry) = []) (options : Options) :
    (invent? entries options : Draw σ (Except Failure Text)) = pure (.error .noValidWords) := by
  have hclean : cleanWords entries = [] := by
    by_contra hclean
    obtain ⟨entry, hentry, hsolid⟩ := cleanWords_ne_nil_iff.1 hclean
    exact hsolid (hblank entry hentry)
  rw [invent?, origin?, if_neg (by simpa using hne), hclean]
  rfl

variable {entries : List Text} {options : Options} {source rest : σ} {word : Text}

theorem origin?_of_usable (h : cleanWords entries ≠ []) :
    (origin? entries options : Draw σ (Except Failure Origin)) =
      (Model.train (cleanWords entries) options.order).origin? options >>= fun found =>
        match found with
        | some origin => pure (.ok origin)
        | none => Draw.index32 (cleanWords entries).length >>= fun place =>
          match (cleanWords entries)[place]? with
          | some word => pure (.ok (.drawn word))
          | none => pure (.error .noValidWords) := by
  have hentries : ¬ entries.isEmpty := by
    rw [List.isEmpty_iff]
    rintro rfl
    exact h rfl
  have hwords : ¬ (cleanWords entries).isEmpty := by rwa [List.isEmpty_iff]
  unfold origin?
  rw [if_neg hentries]
  exact if_neg hwords

/-- With a usable entry an invention comes of walks that gave a new word or known ones, or of a draw
after walks that all failed. -/
theorem origin?_eq_some (h : cleanWords entries ≠ []) {outcome : Except Failure Origin}
    (hrun : origin? entries options source = some (outcome, rest)) :
    ∃ outcomes, (Model.train (cleanWords entries) options.order).AllKnown outcomes ∧
      ((∃ word, outcomes.length < max options.maxAttempts 1 ∧
          (Model.train (cleanWords entries) options.order).Walks options source
            (outcomes ++ [some word]) rest ∧
          word ∉ (cleanWords entries).map Text.lower ∧ outcome = .ok (.new word)) ∨
        outcomes.length = max options.maxAttempts 1 ∧ ∃ middle,
          (Model.train (cleanWords entries) options.order).Walks options source outcomes middle ∧
          ((∃ word, outcomes.findSome? id = some word ∧ middle = rest ∧ outcome = .ok (.known word)) ∨
            outcomes.findSome? id = none ∧ ∃ place word,
              Draw.index32 (cleanWords entries).length middle = some (place, rest) ∧
              (cleanWords entries)[place]? = some word ∧ outcome = .ok (.drawn word))) := by
  rw [origin?_of_usable h] at hrun
  obtain ⟨found, middle, hfound, hrest⟩ := bind_eq_some.1 hrun
  obtain ⟨outcomes, hknown, ⟨word, hroom, hwalks, hnew, rfl⟩ | ⟨hlength, hwalks, rfl⟩⟩ :=
    Model.originWithin_eq_some hfound
  · obtain ⟨rfl, rfl⟩ := pure_eq_some.1 hrest
    rw [words_train_cleanWords] at hnew
    exact ⟨outcomes, hknown, .inl ⟨word, hroom, hwalks, hnew, rfl⟩⟩
  · refine ⟨outcomes, hknown, .inr ⟨hlength, middle, hwalks, ?_⟩⟩
    rw [Option.none_or] at hrest
    cases hfirst : outcomes.findSome? id with
    | some word =>
      rw [hfirst] at hrest
      obtain ⟨rfl, rfl⟩ := pure_eq_some.1 hrest
      exact .inl ⟨word, rfl, rfl, rfl⟩
    | none =>
      rw [hfirst] at hrest
      obtain ⟨place, last, hdraw, hword⟩ := bind_eq_some.1 hrest
      have hplace := Draw.index32_lt (List.length_pos_iff.2 h) hdraw
      rw [List.getElem?_eq_getElem hplace] at hword
      obtain ⟨rfl, rfl⟩ := pure_eq_some.1 hword
      exact .inr ⟨rfl, place, _, hdraw, List.getElem?_eq_getElem hplace, rfl⟩

theorem invents_of_invent? (h : cleanWords entries ≠ []) {outcome : Except Failure Text}
    (hrun : invent? entries options source = some (outcome, rest)) :
    ∃ word, outcome = .ok word ∧ Invents (cleanWords entries) options source word rest := by
  obtain ⟨found, hfound, rfl⟩ := map_eq_some.1 hrun
  obtain ⟨outcomes, hknown, hcase⟩ := origin?_eq_some h hfound
  rw [Model.AllKnown, words_train_cleanWords] at hknown
  rcases hcase with ⟨word, hroom, hwalks, hnew, rfl⟩ |
    ⟨hlength, middle, hwalks, ⟨word, hfirst, rfl, rfl⟩ | ⟨hnone, place, word, hdraw, hword, rfl⟩⟩
  · exact ⟨_, rfl, .new hwalks hroom hknown hnew⟩
  · exact ⟨_, rfl, .known hwalks hlength hknown hfirst⟩
  · exact ⟨_, rfl, .drawn hwalks hlength (List.findSome?_eq_none_iff.1 hnone) hdraw hword⟩

theorem allKnown_cleanWords {outcomes : List (Option Text)}
    (h : ∀ known, some known ∈ outcomes → known ∈ (cleanWords entries).map Text.lower) (order : Nat) :
    (Model.train (cleanWords entries) order).AllKnown outcomes := by
  rwa [Model.AllKnown, words_train_cleanWords]

theorem Invents.invent? (h : cleanWords entries ≠ [])
    (hinvents : Invents (cleanWords entries) options source word rest) :
    Name.invent? entries options source = some (.ok word, rest) := by
  rw [Name.invent?, origin?_of_usable h]
  cases hinvents with
  | @new outcomes word _ hwalks hroom hknown hnew =>
    rw [← words_train_cleanWords entries options.order] at hnew
    have hfound := Model.originWithin_of_new none hwalks (allKnown_cleanWords hknown _) hnew hroom
    exact map_eq_some.2 ⟨.ok (.new word), bind_of_some hfound, rfl⟩
  | @known outcomes word _ hwalks hlength hknown hfirst =>
    have hfound := Model.originWithin_of_known none hwalks (allKnown_cleanWords hknown _)
    rw [hlength, Option.none_or, hfirst] at hfound
    exact map_eq_some.2 ⟨.ok (.known word), bind_of_some hfound, rfl⟩
  | @drawn outcomes middle _ place _ hwalks hlength hfailed hdraw hword =>
    have hknown : ∀ known, some known ∈ outcomes → known ∈ (cleanWords entries).map Text.lower :=
      fun known hmem => absurd (hfailed _ hmem) (Option.some_ne_none _)
    have hnone : outcomes.findSome? id = none := List.findSome?_eq_none_iff.2 hfailed
    have hfound := Model.originWithin_of_known none hwalks (allKnown_cleanWords hknown _)
    rw [hlength, Option.none_or, hnone] at hfound
    refine map_eq_some.2 ⟨.ok (.drawn word), (bind_of_some hfound).trans ?_, rfl⟩
    refine (bind_of_some hdraw).trans ?_
    rw [hword]
    rfl

theorem invent?_eq_some_iff {outcome : Except Failure Text} :
    invent? entries options source = some (outcome, rest) ↔
      (entries = [] ∧ outcome = .error .emptyList ∧ rest = source) ∨
      (entries ≠ [] ∧ (∀ entry ∈ entries, Text.trim (Weighted.strip entry) = []) ∧
        outcome = .error .noValidWords ∧ rest = source) ∨
      (∃ entry ∈ entries, Text.trim (Weighted.strip entry) ≠ []) ∧
        ∃ word, outcome = .ok word ∧ Invents (cleanWords entries) options source word rest := by
  constructor
  · intro h
    by_cases husable : ∃ entry ∈ entries, Text.trim (Weighted.strip entry) ≠ []
    · exact .inr (.inr ⟨husable, invents_of_invent? (cleanWords_ne_nil_iff.2 husable) h⟩)
    · have hblank : ∀ entry ∈ entries, Text.trim (Weighted.strip entry) = [] := fun entry hentry =>
        Classical.by_contradiction fun hsolid => husable ⟨entry, hentry, hsolid⟩
      by_cases hne : entries = []
      · subst hne
        obtain ⟨rfl, rfl⟩ := pure_eq_some.1 h
        exact .inl ⟨rfl, rfl, rfl⟩
      · rw [invent?_of_blank hne hblank] at h
        obtain ⟨rfl, rfl⟩ := pure_eq_some.1 h
        exact .inr (.inl ⟨hne, hblank, rfl, rfl⟩)
  · rintro (⟨rfl, rfl, rfl⟩ | ⟨hne, hblank, rfl, rfl⟩ | ⟨husable, word, rfl, hinvents⟩)
    · rfl
    · rw [invent?_of_blank hne hblank]
      rfl
    · exact hinvents.invent? (cleanWords_ne_nil_iff.2 husable)

/-- An invention fails where there is no entry, or only blank ones, and then nothing is drawn. In every
other case it returns a word, as the outcomes of its walks tell. -/
theorem invent?_outcomes (entries : List Text) (options : Options) (source rest : σ) :
    (invent? entries options source = some (.error .emptyList, rest) ↔
      entries = [] ∧ rest = source) ∧
    (invent? entries options source = some (.error .noValidWords, rest) ↔
      entries ≠ [] ∧ (∀ entry ∈ entries, Text.trim (Weighted.strip entry) = []) ∧ rest = source) ∧
    (∀ word, invent? entries options source = some (.ok word, rest) ↔
      (∃ entry ∈ entries, Text.trim (Weighted.strip entry) ≠ []) ∧
        Invents (cleanWords entries) options source word rest) ∧
    (DrawsEnd source → (invent? entries options source).isSome) := by
  refine ⟨?_, ?_, fun word => ?_, (Draw.ends_congruence.invent? entries options).isSome⟩
  · simp [invent?_eq_some_iff]
  · simp [invent?_eq_some_iff]
  · simp [invent?_eq_some_iff]

/-- One usable entry among blank ones. -/
def mostlyBlank : List Text := [" ^3".toList, "ash ^2".toList, [' ']]

theorem invent?_outcomes_mostlyBlank : DrawsEnd Zeros.zeros ∧
    ∃ word, invent? mostlyBlank {} Zeros.zeros = some (.ok word, .zeros) ∧
      Invents ["ash".toList] {} Zeros.zeros word .zeros := by
  have hwords : cleanWords mostlyBlank = ["ash".toList] := by decide
  have husable : ∃ entry ∈ mostlyBlank, Text.trim (Weighted.strip entry) ≠ [] :=
    ⟨"ash ^2".toList, by decide, by decide⟩
  obtain ⟨hempty, hblank, hword, hends⟩ := invent?_outcomes mostlyBlank {} Zeros.zeros .zeros
  refine ⟨drawsEnd_zeros _, ?_⟩
  obtain ⟨⟨outcome, ⟨⟩⟩, hrun⟩ := Option.isSome_iff_exists.1 (hends (drawsEnd_zeros _))
  match outcome with
  | .error .emptyList => cases (hempty.1 hrun).1
  | .error .noValidWords =>
    obtain ⟨entry, hentry, hsolid⟩ := husable
    exact absurd ((hblank.1 hrun).2.1 entry hentry) hsolid
  | .ok word => exact ⟨word, hrun, hwords ▸ ((hword word).1 hrun).2⟩

end RandomTables.Name
