import RandomTables.Proofs.Name.Length
import RandomTables.Proofs.Text.Lowered
import RandomTables.Tool.NameSampler

/-! # Where a sampled word comes from

An invention goes by the letters of its walks in lower case. The sampler sees the finished word only, with
its capital, and compares it with the training words up to the case of ASCII letters. What it says of a word
is right where the training words can be told from others in this way.
-/

namespace RandomTables.Name

namespace Origin

def isNew : Origin → Bool
  | new _ => true
  | known _ => false
  | drawn _ => false

/-- The sample as the sampler takes it, from the word alone. -/
def sample (entries : List Text) (origin : Origin) : Sample := Sample.of entries origin.word

end Origin

/-! ## Draws that keep the origin -/

variable {σ : Type} [WordSource σ]

/-- The origins of the words of `samples`. -/
def origins (entries : List Text) (options : Options) (count : Nat) :
    Draw σ (List Origin × Option Failure) :=
  untilFailure (origin? entries options) count

omit [WordSource σ] in
theorem untilFailure_map {ε α β : Type} (f : α → β) (once : Draw σ (Except ε α)) (count : Nat) :
    untilFailure (Except.map f <$> once) count =
      Prod.map (List.map f) id <$> untilFailure once count := by
  induction count with
  | zero => rw [untilFailure, untilFailure, map_pure, Prod.map_apply, List.map_nil, id]
  | succ count ih =>
    rw [untilFailure, untilFailure, map_bind, bind_map_left]
    refine bind_congr fun outcome => ?_
    cases outcome with
    | error failure =>
      rw [map_pure]
      rfl
    | ok a =>
      dsimp only [Except.map]
      rw [ih, map_bind, bind_map_left]
      refine bind_congr fun run => ?_
      rw [map_pure]
      rfl

theorem samples_eq_map (entries : List Text) (options : Options) (count : Nat) :
    (samples entries options count : Draw σ (List Sample × Option Failure)) =
      Prod.map (List.map (Origin.sample entries)) id <$> origins entries options count := by
  have hsample : (sample? entries options : Draw σ (Except Failure Sample)) =
      Except.map (Origin.sample entries) <$> origin? entries options := by
    rw [sample?, invent?, Functor.map_map]
    refine congrArg (· <$> origin? entries options) (funext fun outcome => ?_)
    cases outcome <;> rfl
  rw [samples, hsample, untilFailure_map, origins]

/-! ## What an origin tells -/

/-- The letters are what one of the walks from some source gives. -/
def IsWalked (σ : Type) [WordSource σ] (words : List Text) (options : Options) (letters : Text) : Prop :=
  ∃ before after : σ, (Model.train words options.order).walk options before = some (some letters, after)

/-- Walks give new letters that are no training word in lower case, and known ones that are. What is drawn
is a training word. -/
inductive Origin.Fits (σ : Type) [WordSource σ] (words : List Text) (options : Options) : Origin → Prop where
  | new {letters : Text} (hwalk : IsWalked σ words options letters)
      (hnew : letters ∉ words.map Text.lower) : Fits σ words options (.new letters)
  | known {letters : Text} (hwalk : IsWalked σ words options letters)
      (hknown : letters ∈ words.map Text.lower) : Fits σ words options (.known letters)
  | drawn {word : Text} (hword : word ∈ words) : Fits σ words options (.drawn word)

variable {entries : List Text} {options : Options} {source rest : σ}

theorem fits_of_origin? {origin : Origin}
    (h : origin? entries options source = some (.ok origin, rest)) :
    origin.Fits σ (cleanWords entries) options := by
  have hclean : cleanWords entries ≠ [] := by
    intro hnil
    simp only [origin?, hnil] at h
    split at h
    · cases (pure_eq_some.1 h).1
    · cases (pure_eq_some.1 h).1
  obtain ⟨outcomes, hknown, hcase⟩ := origin?_eq_some hclean h
  rcases hcase with ⟨letters, -, hwalks, hnew, heq⟩ |
    ⟨-, middle, hwalks, ⟨letters, hfirst, -, heq⟩ | ⟨-, place, word, -, hword, heq⟩⟩
  · obtain rfl := Except.ok.inj heq
    exact .new (hwalks.exists_walk (List.mem_append_right _ List.mem_cons_self)) hnew
  · obtain rfl := Except.ok.inj heq
    obtain ⟨outcome, hmem, rfl⟩ := List.exists_of_findSome?_eq_some hfirst
    rw [Model.AllKnown, words_train_cleanWords] at hknown
    exact .known (hwalks.exists_walk hmem) (hknown letters hmem)
  · obtain rfl := Except.ok.inj heq
    exact .drawn (List.mem_of_getElem? hword)

theorem fits_of_origins {count : Nat} {run : List Origin} {failure : Option Failure}
    (h : origins entries options count source = some ((run, failure), rest)) :
    ∀ origin ∈ run, origin.Fits σ (cleanWords entries) options := by
  induction count generalizing source run rest with
  | zero =>
    obtain ⟨heq, -⟩ := pure_eq_some.1 h
    cases heq
    exact List.forall_mem_nil _
  | succ count ih =>
    obtain ⟨outcome, middle, horigin, hlater⟩ := bind_eq_some.1 h
    cases outcome with
    | error failure =>
      obtain ⟨heq, -⟩ := pure_eq_some.1 hlater
      cases heq
      exact List.forall_mem_nil _
    | ok origin =>
      obtain ⟨later, last, hrun, hend⟩ := bind_eq_some.1 hlater
      obtain ⟨heq, -⟩ := pure_eq_some.1 hend
      cases heq
      exact List.forall_mem_cons.2 ⟨fits_of_origin? horigin, ih hrun⟩

/-! ## Telling new words from training words -/

theorem mem_cleanWords_iff {word : Text} :
    word ∈ cleanWords entries ↔ word ∈ trainingWords entries ∧ word ≠ [] := by
  simp [cleanWords, trainingWords]

theorem isAmong_iff {words : List Text} {word : Text} :
    isAmong words word ↔ ∃ known ∈ words, Text.eqIgnoringAsciiCase known word := List.any_eq_true

theorem isAmong_of_mem {words : List Text} {word : Text} (h : word ∈ words) : isAmong words word :=
  isAmong_iff.2 ⟨word, h, beq_self_eq_true _⟩

/-- What stands behind the start marker in the words, the end marker included. -/
def beginnings (words : List Text) (order : Nat) : Text :=
  following (startContext order) (words.flatMap fun word => wordTransitions order (Text.lower word))

theorem mem_beginnings {words : List Text} {order : Nat} {c : Char}
    (h : Model.Follows words order (startContext order) c) : c ∈ beginnings words order := by
  obtain ⟨word, hword, -, htransition⟩ := h
  exact mem_following.2 (List.mem_flatMap.2 ⟨word, hword, htransition⟩)

theorem Model.follows_of_walk {words : List Text} (hwords : ∃ word ∈ words, word ≠ []) {order : Nat}
    {letters : Text} (h : (train words order).walk options source = some (some letters, rest))
    {context : Text} {c : Char} (hmem : (context, c) ∈ wordTransitions (max order 1) letters) :
    Follows words (max order 1) context c := by
  obtain ⟨drawn, middle, hletters, -, houtcome, hend⟩ | ⟨_, -, -, hnone⟩ := walk_eq_some hwords h
  · split at houtcome
    · cases houtcome
    · obtain rfl := Option.some.inj houtcome
      obtain ⟨hfollows, hlast⟩ := hletters.follows (exists_follows_start hwords)
      rw [wordTransitions, transitions_append, List.mem_append] at hmem
      rcases hmem with hmem | hmem
      · exact hfollows context c hmem
      · cases List.mem_singleton.1 hmem
        obtain ⟨d, hd, hended⟩ := next_eq_some hlast hend
        obtain rfl := Option.some.inj hd
        exact hended
  · cases hnone

/-- Comparing finished words up to the case of ASCII letters tells new words from training words. -/
structure Recognizable (entries : List Text) (options : Options) : Prop where
  /-- A training word is found again when its lower case gets a capital. -/
  known : ∀ word ∈ cleanWords entries,
    isAmong (trainingWords entries) (Text.capitalize (Text.lower word))
  /-- The lower case takes back every capital. -/
  returns : ∀ c ∈ beginnings (cleanWords entries) (max options.order 1), Text.Returns c
  /-- The empty word cannot be mistaken for a blank entry. -/
  solid : wordEnd ∈ beginnings (cleanWords entries) (max options.order 1) →
    [] ∈ trainingWords entries → 0 < options.minLength

instance (entries : List Text) (options : Options) : Decidable (Recognizable entries options) :=
  decidable_of_iff
    ((∀ word ∈ cleanWords entries,
        isAmong (trainingWords entries) (Text.capitalize (Text.lower word))) ∧
      (beginnings (cleanWords entries) (max options.order 1)).all (Text.Returns ·) ∧
      (wordEnd ∈ beginnings (cleanWords entries) (max options.order 1) →
        [] ∈ trainingWords entries → 0 < options.minLength))
    ⟨fun ⟨known, returns, solid⟩ => { known, returns := Text.forall_of_all returns, solid },
      fun h => ⟨h.known, List.all_eq_true.2 fun c hc => decide_eq_true (h.returns c hc), h.solid⟩⟩

theorem ne_nil_of_isWalked {words : List Text} {letters : Text}
    (h : IsWalked σ words options letters) : words ≠ [] := by
  rintro rfl
  obtain ⟨before, after, hwalk⟩ := h
  obtain ⟨drawn, middle, hdrawn, hresult⟩ := bind_eq_some.1 hwalk
  have hnone (room : Nat) (context : Text) :
      (Model.train [] options.order).walkFrom room context before = some (none, before) := by
    cases room with
    | zero => rfl
    | succ room => rfl
  rw [hnone] at hdrawn
  cases hdrawn
  cases hresult

theorem not_isAmong_of_new (h : Recognizable entries options) {letters : Text}
    (hwalked : IsWalked σ (cleanWords entries) options letters)
    (hnew : letters ∉ (cleanWords entries).map Text.lower) :
    ¬ isAmong (trainingWords entries) (Text.capitalize letters) := by
  have hwords := exists_mem_cleanWords (ne_nil_of_isWalked hwalked)
  obtain ⟨before, after, hwalk⟩ := hwalked
  obtain ⟨hmin, -, hletters⟩ := Model.letters_of_walk hwords hwalk
  intro hamong
  obtain ⟨word, hword, heq⟩ := isAmong_iff.1 hamong
  cases letters with
  | nil =>
    have hbegin := mem_beginnings (Model.follows_of_walk hwords hwalk List.mem_cons_self)
    have hblank : word = [] := List.map_eq_nil_iff.1 (beq_iff_eq.1 heq)
    exact Nat.not_le.2 (h.solid hbegin (hblank ▸ hword)) hmin
  | cons c t =>
    have hc := h.returns c (mem_beginnings (Model.follows_of_walk hwords hwalk List.mem_cons_self))
    have ht : Text.IsLowered t := fun d hd => by
      obtain ⟨known, -, hknown⟩ := hletters d (List.mem_cons_of_mem c hd)
      exact Text.isLowered_lower known d hknown
    have hlower : Text.lower word = c :: t :=
      (Text.lower_eq_of_eqIgnoringAsciiCase heq).trans (Text.lower_capitalize hc ht)
    have hsolid : word ≠ [] := by
      rintro rfl
      cases hlower
    exact hnew (List.mem_map.2 ⟨word, mem_cleanWords_iff.2 ⟨hword, hsolid⟩, hlower⟩)

theorem isAmong_drawn {word : Text} (h : word ∈ cleanWords entries) :
    isAmong (trainingWords entries) word := isAmong_of_mem (mem_cleanWords_iff.1 h).1

theorem Origin.Fits.isKnown_sample (h : Recognizable entries options) {origin : Origin}
    (hfits : origin.Fits σ (cleanWords entries) options) :
    (origin.sample entries).isKnown = !origin.isNew := by
  cases hfits with
  | new hwalk hnew => exact Bool.eq_false_iff.2 (not_isAmong_of_new h hwalk hnew)
  | known hwalk hknown =>
    obtain ⟨word, hword, rfl⟩ := List.mem_map.1 hknown
    exact h.known word hword
  | drawn hword => exact isAmong_drawn hword

theorem recognizable_of_isAscii (hascii : ∀ word ∈ cleanWords entries, Text.IsAscii word)
    (hblank : [] ∈ trainingWords entries → 0 < options.minLength) : Recognizable entries options where
  known word hword :=
    isAmong_iff.2 ⟨word, (mem_cleanWords_iff.1 hword).1,
      Text.eqIgnoringAsciiCase_capitalize (hascii word hword)⟩
  returns c hc := by
    obtain ⟨word, hword, htransition⟩ := List.mem_flatMap.1 (mem_following.1 hc)
    obtain ⟨before, after, hsplit, -⟩ := mem_transitions.1 htransition
    have hmem : c ∈ Text.lower word ++ [wordEnd] := by simp [hsplit]
    rw [Text.lower_of_isAscii (hascii word hword), List.mem_append] at hmem
    rcases hmem with hmem | hmem
    · obtain ⟨d, hd, rfl⟩ := List.mem_map.1 hmem
      exact Text.returns_toLower (hascii word hword d hd)
    · rw [List.mem_singleton.1 hmem]
      decide
  solid _ := hblank

/-! ## A list of one word -/

theorem Model.next_of_single {model : Model} {context : Text} {c : Char}
    (hrow : model.rows.lookup context = some [(c, 1)]) (source : σ) :
    model.next context source = some (some c, (WordSource.next32 source).2) := by
  have hword : (WordSource.next32 source).1.toNat < Draw.wordCount 32 := UInt32.toNat_lt _
  have haccept : Draw.scaled? 32 1 (Draw.exactZone 32 1) (WordSource.next32 source).1.toNat =
      some 0 := by
    have hzone : Draw.exactZone 32 1 = Draw.wordCount 32 - 1 := rfl
    unfold Draw.scaled?
    dsimp only
    rw [hzone, Nat.mul_one, Nat.mod_eq_of_lt hword, Nat.div_eq_of_lt hword]
    exact if_pos (Nat.le_sub_one_of_lt hword)
  exact next_of_accepted hrow (Nat.one_pos) haccept rfl

theorem Model.exists_originWithin {model : Model} {letters : Text}
    (hwalk : ∀ source : σ, ∃ rest, model.walk options source = some (some letters, rest))
    (hknown : letters ∈ model.words) (attempts : Nat) (known : Option Text) (source : σ) :
    ∃ rest, model.originWithin options (attempts + 1) known source =
      some ((known.or (some letters)).map .known, rest) := by
  have hstep (attempts : Nat) (known : Option Text) (source : σ) :
      ∃ middle, model.originWithin options (attempts + 1) known source =
        model.originWithin options attempts (known.or (some letters)) middle := by
    obtain ⟨middle, hmiddle⟩ := hwalk source
    refine ⟨middle, (bind_of_some hmiddle).trans ?_⟩
    dsimp only
    rw [if_pos (List.contains_iff_mem.2 hknown)]
  induction attempts generalizing known source with
  | zero =>
    obtain ⟨middle, hmiddle⟩ := hstep 0 known source
    exact ⟨middle, hmiddle⟩
  | succ attempts ih =>
    obtain ⟨middle, hmiddle⟩ := hstep (attempts + 1) known source
    obtain ⟨rest, hrest⟩ := ih (known.or (some letters)) middle
    rw [Option.or_assoc, Option.or_self] at hrest
    exact ⟨rest, hmiddle.trans hrest⟩

theorem exists_walk_elan {words : List Text}
    (hwords : (words.filter (!·.isEmpty)).map Text.lower = ["élan".toList]) (source : σ) :
    ∃ rest, (Model.train words 2).walk {} source = some (some "élan".toList, rest) := by
  have hrows : (Model.train words 2).rows =
      [([wordStart, wordStart], [('é', 1)]), ([wordStart, 'é'], [('l', 1)]), (['é', 'l'], [('a', 1)]),
        (['l', 'a'], [('n', 1)]), (['a', 'n'], [(wordEnd, 1)])] := by
    show (((words.filter (!·.isEmpty)).map Text.lower).flatMap (wordTransitions 2)).foldl
      countTransition [] = _
    rw [hwords]
    decide
  have hnext (context : Text) (c : Char) (source : σ)
      (hrow : (Model.train words 2).rows.lookup context = some [(c, 1)]) :
      (Model.train words 2).next context source = some (some c, (WordSource.next32 source).2) :=
    Model.next_of_single hrow source
  rw [hrows] at hnext
  have hletters : Model.Letters (Model.train words 2) [wordStart, wordStart] source "élan".toList _ :=
    .cons (hnext _ 'é' _ (by decide)) (by decide) (.cons (hnext _ 'l' _ (by decide)) (by decide)
      (.cons (hnext _ 'a' _ (by decide)) (by decide) (.cons (hnext _ 'n' _ (by decide)) (by decide) .nil)))
  exact ⟨_, bind_of_some (hletters.walkFrom (hnext ['a', 'n'] wordEnd _ (by decide)) (by decide))⟩

theorem exists_origins_elan (hwords : (cleanWords entries).map Text.lower = ["élan".toList])
    (source : σ) :
    ∃ rest, origins entries {} 1 source = some (([.known "élan".toList], none), rest) := by
  have hclean : cleanWords entries ≠ [] := by
    intro hnil
    rw [hnil] at hwords
    cases hwords
  have htrained : ((cleanWords entries).filter (!·.isEmpty)).map Text.lower = ["élan".toList] :=
    (words_train_cleanWords entries 2).trans hwords
  have hknown : "élan".toList ∈ (Model.train (cleanWords entries) 2).words := by
    rw [words_train_cleanWords, hwords]
    exact List.mem_cons_self
  obtain ⟨rest, hrest⟩ :=
    Model.exists_originWithin (exists_walk_elan htrained) hknown 49 none source
  have horigin : origin? entries {} source = some (.ok (.known "élan".toList), rest) := by
    rw [origin?_of_usable hclean]
    exact bind_of_some hrest
  exact ⟨rest, bind_of_some horigin⟩

end RandomTables.Name

namespace RandomTables.Tool.NameSampler

open Name

theorem sampleList_eq (settings : Settings) (entries : List Text) (fresh : Random.ChaCha) :
    sampleList settings entries fresh =
      (origins entries settings.options settings.count (settings.source fresh)).map
        (fun ((run, failure), _) =>
          report settings entries (run.map (Origin.sample entries)) failure) := by
  rw [sampleList, samples_eq_map]
  show ((origins entries settings.options settings.count (settings.source fresh)).bind
    fun run => some (Prod.map (List.map (Origin.sample entries)) id run.1, run.2)).map _ = _
  cases origins entries settings.options settings.count (settings.source fresh) with
  | none => rfl
  | some run => rfl

/-- The sampler prints the words of the origins. Each has the mark that its origin tells, if it was drawn
from the list, or if new words and training words can be told apart. -/
theorem sampleList_by_origin (settings : Settings) (entries : List Text) (fresh : Random.ChaCha) :
    sampleList settings entries fresh =
        (origins entries settings.options settings.count (settings.source fresh)).map
          (fun ((run, failure), _) =>
            report settings entries (run.map (Origin.sample entries)) failure) ∧
      ∀ run failure rest,
        origins entries settings.options settings.count (settings.source fresh) =
          some ((run, failure), rest) →
        ∀ origin ∈ run,
          origin.Fits Random.ChaCha (cleanWords entries) settings.options ∧
          ((∃ word, origin = .drawn word) ∨ Recognizable entries settings.options →
            (origin.sample entries).isKnown = !origin.isNew) := by
  refine ⟨sampleList_eq settings entries fresh, fun run failure rest h origin hmem => ?_⟩
  have hfits := fits_of_origins h origin hmem
  refine ⟨hfits, ?_⟩
  rintro (⟨word, rfl⟩ | hrecognizable)
  · obtain _ | _ | hword := hfits
    exact isAmong_drawn hword
  · exact hfits.isKnown_sample hrecognizable

/-- One sample, by a seed. -/
def oneSample : Settings := { count := 1, seed := some "s".toList }

theorem sampleList_by_origin_elan :
    Recognizable ["Élan ^2".toList] oneSample.options ∧
      sampleList oneSample ["Élan ^2".toList] (.ofSeed 0) =
        some (report oneSample ["Élan ^2".toList] [{ word := "Élan".toList, isKnown := true }] none) := by
  have hrecognizable : Recognizable ["Élan ^2".toList] oneSample.options := by decide
  have hwords : (cleanWords ["Élan ^2".toList]).map Text.lower = ["élan".toList] := by decide
  obtain ⟨rest, hrun⟩ := exists_origins_elan hwords (oneSample.source (.ofSeed 0))
  obtain ⟨hreport, horigins⟩ := sampleList_by_origin oneSample ["Élan ^2".toList] (.ofSeed 0)
  have hmark := (horigins _ _ _ hrun _ List.mem_cons_self).2 (.inr hrecognizable)
  have hword : Text.capitalize "élan".toList = "Élan".toList := by decide
  refine ⟨hrecognizable, hreport.trans ?_⟩
  have hsample : Origin.sample ["Élan ^2".toList] (.known "élan".toList) =
      { word := "Élan".toList, isKnown := true } := congrArg₂ Sample.mk hword hmark
  rw [hsample.symm]
  exact congrArg (Option.map _) hrun

/-- The only word there is counts as new if its capital is not in the list. -/
theorem sampleList_counts_known :
    (∃ rest, origins ["élan".toList] oneSample.options oneSample.count (oneSample.source (.ofSeed 0)) =
        some (([.known "élan".toList], none), rest)) ∧
      sampleList oneSample ["élan".toList] (.ofSeed 0) =
        some (.success (heading ["élan".toList] {} ++
          "  Élan\n\n1 of 1 samples are new words\n".toList)) := by
  have hwords : (cleanWords ["élan".toList]).map Text.lower = ["élan".toList] := by decide
  obtain ⟨rest, hrun⟩ := exists_origins_elan hwords (oneSample.source (.ofSeed 0))
  have hsample : Origin.sample ["élan".toList] (.known "élan".toList) =
      { word := "Élan".toList, isKnown := false } := by decide +kernel
  refine ⟨⟨rest, hrun⟩, (sampleList_eq _ _ _).trans ((congrArg (Option.map _) hrun).trans ?_)⟩
  rw [Option.map_some]
  dsimp only
  rw [List.map_singleton, hsample]
  rfl

end RandomTables.Tool.NameSampler
