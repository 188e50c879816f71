import RandomTables.Proofs.Evaluation.Soundness
import RandomTables.Proofs.Quotation
import RandomTables.Proofs.Text
import RandomTables.Proofs.Text.Case

/-! # Excluded entries

A draw of a reference, cut in two: what it picks, and what becomes of the pick. No pick has a part
that is an exclusion word but for case, where the forms of the sigma agree.
-/

namespace RandomTables

open Eval

/-! ## Words in a value -/

/-- No part of the value is one of the words but for case, or else the two have a capital sigma in
different forms. -/
def Avoids (words : List Text) (value : Text) : Prop :=
  ∀ word ∈ words, ∀ before part after : Text, value = before ++ part ++ after →
    Text.lowerEach part = Text.lowerEach word →
    ('\u03a3' ∈ part ∨ '\u03a3' ∈ word) ∧
      Text.SigmasDiffer (Text.lowerBetween before.reverse part after) (Text.lower word)

theorem isExcluded_iff {exclusions : List Text} {value : Text} :
    isExcluded exclusions value ↔ ∃ word ∈ exclusions, Text.lower word <:+: Text.lower value := by
  cases exclusions with
  | nil => simp [isExcluded]
  | cons first rest => simp [isExcluded, Text.occurs_iff]

theorem avoids_of_not_isExcluded {exclusions : List Text} {value : Text}
    (h : ¬ isExcluded exclusions value) : Avoids exclusions value := by
  rintro word hword before part after rfl heach
  refine (Text.lowerBetween_eq_or heach before.reverse after).resolve_left fun hlower => h ?_
  rw [isExcluded_iff]
  exact ⟨word, hword, hlower ▸ Text.lowerBetween_infix before part after⟩

-- The sigma of the value stands at the end of a word, and the one of the exclusion does not.
example : isExcluded ["Σ".toList] "ΑΣ".toList = false := by decide +kernel

/-! ## Picks -/

/-- What a draw of a reference comes to before anything is expanded or invented. -/
inductive Pick where
  | nothing
  /-- An entry without its weight. -/
  | entry (value : Text)
  /-- The entries from which a word is invented. -/
  | invention (candidates : List Text)
  deriving DecidableEq

/-- The pick is from the list of the reference and avoids its exclusions, and it is nothing only
where the reference has no list or all of it is excluded. -/
def Pick.Keeps (tables : Store) (ref : Reference) : Pick → Prop
  | .nothing => ∀ entries, tables.list? ref.path = some entries →
      ∀ entry ∈ entries, isExcluded ref.exclusions (Weighted.strip entry)
  | .entry value => ∃ entries entry, tables.list? ref.path = some entries ∧ entry ∈ entries ∧
      value = Weighted.strip entry ∧ Avoids ref.exclusions value
  | .invention candidates => ∃ entries, tables.list? ref.path = some entries ∧
      ∀ entry ∈ candidates, entry ∈ entries ∧ Avoids ref.exclusions (Weighted.strip entry)

namespace Evaluator

variable {σ : Type} [WordSource σ] {evaluator : Evaluator} {ref : Reference}

/-- Picks from the candidates of a reference. -/
def pickFrom (evaluator : Evaluator) (ref : Reference) (candidates : List Text) : Eval σ Pick :=
  if ref.modifiers.contains .markov then pure (.invention candidates)
  else do
    match ← Eval.draw (Weighted.chooseText candidates) with
    | none => pure .nothing
    | some selected => do
      let session ← get
      evaluator.report (.resolved ref.path selected session.depth)
      pure (.entry selected)

/-- Picks for one draw of a reference. -/
def pick (evaluator : Evaluator) (ref : Reference) : Eval σ Pick :=
  match evaluator.tables.list? ref.path with
  | none => do
    evaluator.report (.tableMissing ref.path)
    pure .nothing
  | some entries =>
    let candidates := ref.candidates entries
    if candidates.isEmpty then do
      evaluator.report (.allExcluded ref.path)
      pure .nothing
    else evaluator.pickFrom ref candidates

/-- Makes a text of a pick. -/
def follow (evaluator : Evaluator) (expand : Text → Eval σ Text) (ref : Reference) :
    Pick → Eval σ Text
  | .nothing => pure []
  | .entry value => do
    let text ← expand value
    pure (Modifier.applyAll ref.modifiers text)
  | .invention candidates => do
    let word ← Eval.draw (Name.invent candidates evaluator.names)
    pure (Modifier.applyAll ref.modifiers word)

theorem selectFrom_eq {candidates : List Text} (hne : candidates ≠ [])
    (expand : Text → Eval σ Text) :
    (do
      let selected ← evaluator.selectFrom expand ref candidates
      pure (Modifier.applyAll ref.modifiers selected)) =
      evaluator.pickFrom ref candidates >>= evaluator.follow expand ref := by
  unfold selectFrom pickFrom
  split
  · rw [pure_bind]
    rfl
  · funext session
    rw [bind_assoc, bind_assoc]
    cases hdraw : Eval.draw (Weighted.chooseText candidates) session with
    | none => rw [bind_of_none hdraw, bind_of_none hdraw]
    | some drawn =>
      obtain ⟨picked, session'⟩ := drawn
      rw [bind_of_some hdraw, bind_of_some hdraw]
      obtain ⟨source, hchoose, -⟩ := draw_eq_some hdraw
      rcases Weighted.chooseText_mem hchoose with ⟨hnil, -⟩ | ⟨entry, -, rfl⟩
      · exact absurd hnil hne
      · simp only [bind_assoc, pure_bind, follow]

theorem selectOnce_eq (evaluator : Evaluator) (ref : Reference) (expand : Text → Eval σ Text) :
    evaluator.selectOnce expand ref = evaluator.pick ref >>= evaluator.follow expand ref := by
  unfold selectOnce pick
  cases evaluator.tables.list? ref.path with
  | none => rfl
  | some entries =>
    dsimp only
    split
    · rfl
    · next hne => exact selectFrom_eq (by simpa using hne) expand

theorem pickFrom_keeps {entries : List Text} (hlist : evaluator.tables.list? ref.path = some entries)
    (hne : ref.candidates entries ≠ []) {session session' : Session σ} {picked : Pick}
    (h : evaluator.pickFrom ref (ref.candidates entries) session = some (picked, session')) :
    picked.Keeps evaluator.tables ref := by
  unfold pickFrom at h
  split at h
  · obtain ⟨rfl, -⟩ := pure_eq_some.1 h
    refine ⟨entries, hlist, fun entry hentry => ?_⟩
    obtain ⟨hmem, hopen⟩ := Reference.mem_candidates.1 hentry
    exact ⟨hmem, avoids_of_not_isExcluded hopen⟩
  · obtain ⟨selected, after, hdraw, hrest⟩ := bind_eq_some.1 h
    obtain ⟨source, hchoose, -⟩ := draw_eq_some hdraw
    rcases Weighted.chooseText_mem hchoose with ⟨hnil, -⟩ | ⟨entry, hentry, rfl⟩
    · exact absurd hnil hne
    · obtain ⟨hmem, hopen⟩ := Reference.mem_candidates.1 hentry
      dsimp only at hrest
      rw [bind_of_some rfl, bind_of_some (report_apply _ _)] at hrest
      obtain ⟨rfl, -⟩ := pure_eq_some.1 hrest
      exact ⟨entries, entry, hlist, hmem, rfl, avoids_of_not_isExcluded hopen⟩

theorem pick_keeps {session session' : Session σ} {picked : Pick}
    (h : evaluator.pick ref session = some (picked, session')) :
    picked.Keeps evaluator.tables ref := by
  cases hlist : evaluator.tables.list? ref.path with
  | none =>
    simp only [pick, hlist] at h
    rw [bind_of_some (report_apply _ _)] at h
    obtain ⟨rfl, -⟩ := pure_eq_some.1 h
    intro entries hentries
    rw [hlist] at hentries
    cases hentries
  | some entries =>
    simp only [pick, hlist] at h
    split at h
    · next hnone =>
      rw [bind_of_some (report_apply _ _)] at h
      obtain ⟨rfl, -⟩ := pure_eq_some.1 h
      intro entries' hentries
      rw [hlist] at hentries
      cases hentries
      exact Reference.candidates_eq_nil_iff.1 (List.isEmpty_iff.1 hnone)
    · next hne => exact pickFrom_keeps hlist (by simpa using hne) h

/-- Every draw of a reference follows a pick, whatever expands the entries, and every pick is from
the list of the reference and avoids its exclusions. -/
theorem selectOnce_picks (evaluator : Evaluator) (ref : Reference) :
    (∀ expand : Text → Eval σ Text,
      evaluator.selectOnce expand ref = evaluator.pick ref >>= evaluator.follow expand ref) ∧
    ∀ (session : Session σ) (picked : Pick) (session' : Session σ),
      evaluator.pick ref session = some (picked, session') → picked.Keeps evaluator.tables ref :=
  ⟨evaluator.selectOnce_eq ref, fun _ _ _ h => pick_keeps h⟩

end Evaluator

/-! ## Owls spared -/

def birds : Evaluator where
  tables := .ofList [("bird".toList,
    .list ["Snowy Owl ^2".toList, "heron ^3".toList, "[adjective] owlet".toList])]

def noOwl : Reference where
  path := "bird".toList
  exclusions := ["OWL".toList]

theorem selectOnce_picks_heron : ∃ later : Session Random.Script,
    birds.pick noOwl { maxDepth := 2, source := { words := [], state := 0 } } =
      some (.entry "heron".toList, later) ∧
    (Pick.entry "heron".toList).Keeps birds.tables noOwl := by
  have hpick : (birds.pick noOwl
      ({ maxDepth := 2, source := { words := [], state := 0 } } : Session Random.Script)).map
        Prod.fst = some (.entry "heron".toList) := by decide +kernel
  obtain ⟨⟨_, later⟩, hpick, rfl⟩ := Option.map_eq_some_iff.1 hpick
  exact ⟨later, hpick, (birds.selectOnce_picks noOwl).2 _ _ later hpick⟩

end RandomTables
