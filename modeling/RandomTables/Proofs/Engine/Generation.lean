import RandomTables.Proofs.Quotation
import RandomTables.Proofs.Table.Merge

/-! # One generation

A template that is not quoted is read, evaluated in a fresh session and has its articles resolved.
A table reference and nothing else gives what a direct pick from its table gives, from the same
words.
-/

namespace RandomTables

theorem literal?_cons {c : Char} (hquote : ¬ isQuote c) (t : Text) :
    literal? (c :: t) = none :=
  if_neg fun h => hquote h.1

namespace Engine

variable {σ : Type} [WordSource σ] {engine : Engine}

/-- The session in which the tree of a template is evaluated. -/
def opening (engine : Engine) (template : Text) (source : σ) : Session σ :=
  engine.evaluator.reported (.parsed template) { maxDepth := engine.config.maxDepth, source }

theorem generateWith_of_evaluate {template output : Text} {source : σ} {later : Session σ}
    (hliteral : literal? template = none)
    (heval : engine.evaluator.evaluate (parse template) (engine.opening template source) =
      some (output, later)) :
    ∃ trace, engine.generateWith template source =
      some ({ text := Article.resolve output, trace }, later.source) := by
  have hrun : evaluate engine.evaluator template
      ({ maxDepth := engine.config.maxDepth, source } : Session σ) =
        some (Article.resolve output, engine.evaluator.reported
          (.generated template later.depth output) later) := by
    unfold evaluate
    rw [bind_of_some (Evaluator.report_apply _ _)]
    exact (bind_of_some heval).trans rfl
  rw [generateWith, hliteral]
  dsimp only
  rw [hrun, Option.map_some, Evaluator.reported_source]
  exact ⟨_, rfl⟩

/-! ## A reference and nothing else -/

theorem selected_list {path : Text} {entries : List Text}
    (hlist : engine.tables.list? path = some entries) :
    selected path engine = draw (Weighted.chooseText entries) engine := by
  have hraw : engine.raw? path = some (.list entries) := Store.list?_eq_some.1 hlist
  unfold selected
  rw [bind_of_some rfl, hraw]

theorem resolve_of_no_brace {t : Text} (hbrace : '{' ∉ t) : Article.resolve t = t := by
  rw [Article.resolve_eq_self_iff, Text.occurs_iff]
  exact fun h => hbrace (h.subset List.mem_cons_self)

/-- A direct pick and a generation from the reference alone give the same text and leave the same
engine, for a list whose entries are texts as they stand. -/
theorem generate_selected (engine : Engine) {path : Text} {entries : List Text}
    (hparse : parse ('[' :: path ++ [']']) = .reference { path })
    (hlist : engine.tables.list? path = some entries) (hne : entries ≠ [])
    (hplain : ∀ entry ∈ entries, literal? (Weighted.strip entry) = none ∧
      '[' ∉ Weighted.strip entry ∧ '{' ∉ Weighted.strip entry) :
    ∃ text trace later, selected path engine = some (some text, later) ∧
      generate ('[' :: path ++ [']']) engine = some ({ text, trace }, later) := by
  obtain ⟨entry, hmem, rest, hchoose⟩ := Weighted.exists_chooseText hne engine.source
  obtain ⟨hliteral, hbracket, hbrace⟩ := hplain entry hmem
  have hother : ¬ IsTemplate (Weighted.strip entry) := by
    rintro ⟨-, hsigil⟩
    rcases hasSigil_iff.1 hsigil with h | h
    · exact hbracket h
    · exact hbrace h
  have hchoose' : Weighted.chooseText entries
      (engine.opening ('[' :: path ++ [']']) engine.source).source =
        some (some (Weighted.strip entry), rest) := by
    rw [opening, Evaluator.reported_source]
    exact hchoose
  have heval : engine.evaluator.evaluate (.reference { path })
      (engine.opening ('[' :: path ++ [']']) engine.source) = _ :=
    Evaluator.evaluate_bare hlist hchoose' hother
  rw [← hparse, hliteral, Option.getD_none] at heval
  have hopen : ¬ isQuote '[' := by unfold isQuote; decide
  have htemplate : literal? ('[' :: path ++ [']']) = none := literal?_cons hopen _
  obtain ⟨trace, hgenerate⟩ := generateWith_of_evaluate htemplate heval
  rw [Evaluator.reported_source, resolve_of_no_brace hbrace] at hgenerate
  refine ⟨Weighted.strip entry, trace, { engine with source := rest }, ?_, ?_⟩
  · rw [selected_list hlist, draw, hchoose]
    rfl
  · unfold generate
    rw [bind_of_some rfl, draw, hgenerate]
    rfl

/-- An engine with one table of plain entries. -/
def aviary : Engine :=
  .new (.ofList [("t".toList, .list ["owl ^2".toList, "heron".toList, "wren ^0".toList])]) {}
    (.ofSeed 0)

theorem generate_selected_aviary : ∃ text trace later,
    selected "t".toList aviary = some (some text, later) ∧
    generate "[t]".toList aviary = some ({ text, trace }, later) := by
  have hlist : aviary.tables.list? "t".toList =
      some ["owl ^2".toList, "heron".toList, "wren ^0".toList] := by decide
  exact generate_selected aviary parse_bracketed_letter hlist (List.cons_ne_nil _ _)
    (by decide)

end Engine

end RandomTables
