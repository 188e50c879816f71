import RandomTables.Engine.Basic
import RandomTables.Proofs.Article
import RandomTables.Proofs.Evaluation.Entry
import RandomTables.Proofs.Weight.Suffix

/-! # Quoted texts

A quoted template comes through untouched. A quoted entry does too, up to the resolution of the
articles in the whole output, which reaches placeholders inside the quotes.
-/

namespace RandomTables

def isQuote (c : Char) : Prop := c = '"' ∨ c = '\''

theorem literal?_quoted {quote : Char} (hquote : isQuote quote) (s : Text) :
    literal? (quote :: s ++ [quote]) = some s := by
  have hlast : (s ++ [quote]).getLast? = some quote := List.getLast?_concat
  rw [List.cons_append, literal?, if_pos ⟨hquote, hlast⟩, List.dropLast_concat]

/-! ## Weights -/

namespace Weighted

theorem read_eq_self {raw : Text} {c : Char} (hlast : raw.getLast? = some c)
    (hsolid : ¬ Text.isBlank c) (hdigit : ¬ (c.isDigit || c == '.')) : read raw = ⟨raw, 1⟩ := by
  refine read_of_not_carries fun ⟨text, gap, number, behind, amount, h⟩ => hdigit ?_
  have hraw : raw = text ++ gap ++ '^' :: number := by
    rw [← h.trimEnd_eq, Text.trimEnd_eq_self hlast hsolid]
  have hend := List.getLast?_eq_some_getLast h.writes.ne_nil
  have hc : number.getLast h.writes.ne_nil = c := by
    rw [hraw, List.getLast?_append, List.getLast?_cons, hend] at hlast
    simpa using hlast
  simpa [hc] using h.writes.digit_or_point _ (List.getLast_mem h.writes.ne_nil)

theorem strip_quoted {quote : Char} (hquote : isQuote quote) (s : Text) :
    strip (quote :: s ++ [quote]) = quote :: s ++ [quote] := by
  have hlast : (quote :: s ++ [quote]).getLast? = some quote := List.getLast?_concat
  have hsolid : ¬ Text.isBlank quote := by rcases hquote with rfl | rfl <;> decide
  have hdigit : ¬ (quote.isDigit || quote == '.') := by rcases hquote with rfl | rfl <;> decide
  rw [strip, read_eq_self hlast hsolid hdigit]

end Weighted

/-! ## A quoted entry alone in its table -/

namespace Evaluator

variable {σ : Type} [WordSource σ] {evaluator : Evaluator} {path s : Text} {quote : Char}

theorem evaluate_quoted (hquote : isQuote quote)
    (hlist : evaluator.tables.list? path = some [quote :: s ++ [quote]]) (session : Session σ) :
    ∃ later, evaluator.evaluate (.reference { path }) session = some (s, later) := by
  obtain ⟨entry, hentry, rest, hchoose⟩ :=
    Weighted.exists_chooseText (List.cons_ne_nil (quote :: s ++ [quote]) []) session.source
  rw [List.mem_singleton.1 hentry, Weighted.strip_quoted hquote] at hchoose
  have hliteral := literal?_quoted hquote s
  have hother : ¬ IsTemplate (quote :: s ++ [quote]) := by
    rintro ⟨hnone, -⟩
    rw [hliteral] at hnone
    cases hnone
  have heval := evaluate_bare hlist hchoose hother
  rw [hliteral, Option.getD_some] at heval
  exact ⟨_, heval⟩

end Evaluator

namespace Engine

variable {σ : Type} [WordSource σ]

/-- A quoted template gives the text between the quotes and takes no word. An entry alone in its
table gives the text between its quotes too, with the articles resolved: it comes through untouched
exactly if no placeholder stands between the quotes. -/
theorem generateWith_quoted (engine : Engine) (source : σ) {quote : Char} (hquote : isQuote quote)
    (s : Text) :
    engine.generateWith (quote :: s ++ [quote]) source = some ({ text := s }, source) ∧
    ∀ t : Text, parse ('[' :: t ++ [']']) = .reference { path := t } →
      engine.tables.list? t = some [quote :: s ++ [quote]] →
      ∃ generated rest, engine.generateWith ('[' :: t ++ [']']) source = some (generated, rest) ∧
        generated.text = Article.resolve s ∧
        (generated.text = s ↔ ¬ Text.occurs Article.placeholder s) := by
  refine ⟨?_, fun t hparse hlist => ?_⟩
  · rw [generateWith, literal?_quoted hquote]
  · have hlist' : engine.evaluator.tables.list? t = some [quote :: s ++ [quote]] := hlist
    obtain ⟨later, heval⟩ := Evaluator.evaluate_quoted hquote hlist'
      (engine.evaluator.reported (.parsed ('[' :: t ++ [']']))
        { maxDepth := engine.config.maxDepth, source })
    have htemplate : literal? ('[' :: t ++ [']']) = none := by
      rw [List.cons_append, literal?]
      exact if_neg fun h => by rcases h.1 with h | h <;> cases h
    have hrun : evaluate engine.evaluator ('[' :: t ++ [']'])
        ({ maxDepth := engine.config.maxDepth, source } : Session σ) =
          some (Article.resolve s, engine.evaluator.reported
            (.generated ('[' :: t ++ [']']) later.depth s) later) := by
      unfold evaluate
      rw [bind_of_some (Evaluator.report_apply _ _), hparse, bind_of_some heval]
      rfl
    have hgenerate : ∃ trace rest, engine.generateWith ('[' :: t ++ [']']) source =
        some ({ text := Article.resolve s, trace }, rest) := by
      rw [generateWith, htemplate]
      dsimp only
      rw [hrun]
      exact ⟨_, _, rfl⟩
    obtain ⟨trace, rest, hgenerate⟩ := hgenerate
    exact ⟨_, rest, hgenerate, rfl, Article.resolve_eq_self_iff s⟩

/-- An engine whose only table holds one quoted text. -/
def quoting (s : Text) : Engine :=
  .new (.ofList [("t".toList, .list ['"' :: s ++ ['"']])]) {} (.ofSeed 0)

theorem parse_bracketed_letter : parse "[t]".toList = .reference { path := "t".toList } := by
  have href : Reference.parse? "t".toList = some { path := "t".toList } := by decide +kernel
  have hpieces : Piece.split "[t]".toList = [.bracketed "t".toList] := by
    simp [Piece.split, Bracket.enclosed?]
  rw [parse, nestingLimit, readTemplate, hpieces]
  simp only [List.map_cons, List.map_nil, Piece.node, href]
  rfl

/-- A placeholder in quotes is turned into an article, although nothing in quotes is to be
processed. -/
theorem generateWith_quoted_placeholder : ∃ generated rest,
    (quoting "{a} owl".toList).generateWith "[t]".toList
      ({ words := [], state := 0 } : Random.Script) = some (generated, rest) ∧
    generated.text = "an owl".toList ∧ generated.text ≠ "{a} owl".toList := by
  obtain ⟨generated, rest, hgenerate, htext, huntouched⟩ :=
    (generateWith_quoted (quoting "{a} owl".toList) ({ words := [], state := 0 } : Random.Script)
      (.inl rfl) "{a} owl".toList).2 "t".toList parse_bracketed_letter (by decide)
  refine ⟨generated, rest, hgenerate, ?_, ?_⟩
  · rw [htext]
    decide +kernel
  · rw [ne_eq, huntouched]
    decide

end Engine

end RandomTables
