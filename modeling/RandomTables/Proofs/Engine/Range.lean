import RandomTables.Proofs.Engine.Generation
import RandomTables.Proofs.Random.Ending
import RandomTables.Proofs.Template.Expression

/-! # Ranges of numbers

Two runs of digits with a dash between them, in braces. If both numbers fit a word, one between them
is drawn, in either order of the two. Else the range is text.
-/

namespace RandomTables

open RandomTables.Bracket

/-! ## Reading a range -/

theorem parse_braced {p : Char → Prop} {t : Text} {node : Node} (h : IsNested p t)
    (hread : ∀ depth, readExpression (depth + 1) t = node) (hne : node ≠ .text []) :
    parse ('{' :: t ++ ['}']) = node := by
  have hmatch : enclosed? '{' '}' 0 (t ++ ['}']) = some (t, []) := h.enclosed?_eq .curly []
  have hsplit := Piece.split_braced hmatch
  rw [Piece.split_nil] at hsplit
  rw [parse, nestingLimit, readTemplate, List.cons_append, hsplit, List.map_singleton, Piece.node,
    hread]
  exact Node.concat_singleton hne

theorem parse_range {low high : Text} (hdigits : ∀ c ∈ low ++ high, c.isDigit) (hlow : low ≠ [])
    (hhigh : high ≠ []) :
    parse ('{' :: (low ++ '-' :: high) ++ ['}']) =
      if Text.digitsValue low < UInt64.size ∧ Text.digitsValue high < UInt64.size then
        .number (UInt64.ofNat (min (Text.digitsValue low) (Text.digitsValue high)))
          (UInt64.ofNat (max (Text.digitsValue low) (Text.digitsValue high)))
      else .text (low ++ '-' :: high) := by
  have hnested : IsNested (¬ isOperator ·) (low ++ '-' :: high) :=
    IsNested.plain fun c hc => isPlain_of_mem_range hdigits hc
  have hread := readExpression_range hdigits hlow hhigh
  rw [numberRange?_digits hdigits hlow hhigh] at hread
  split
  · next hfits =>
    rw [if_pos hfits] at hread
    refine parse_braced hnested (fun depth => ?_) (by simp)
    rw [hread]
    dsimp only
    rw [Draw.min_ofNat hfits.1 hfits.2, Draw.max_ofNat hfits.1 hfits.2]
  · next hlarge =>
    rw [if_neg hlarge] at hread
    exact parse_braced hnested hread (by simp)

/-! ## Drawing from a range -/

variable {σ : Type} [WordSource σ]

theorem Evaluator.evaluate_number (evaluator : Evaluator) {low high n : UInt64} (hle : low ≤ high)
    {session : Session σ} {rest : σ}
    (hdraw : Draw.between64 low high session.source = some (n, rest)) :
    evaluator.evaluate (.number low high) session =
      some (Text.ofNat n.toNat, { session with source := rest }) := by
  have hmin : min low high = low := if_pos hle
  have hmax : max low high = high := if_pos hle
  have heval : Eval.draw (Draw.between64 (min low high) (max low high)) session =
      some (n, { session with source := rest }) := by
    rw [hmin, hmax, Eval.draw, hdraw]
    rfl
  unfold evaluate
  rw [bind_of_some rfl, evaluateNode]
  exact bind_of_some heval

namespace Engine

theorem resolve_ofNat (n : Nat) : Article.resolve (Text.ofNat n) = Text.ofNat n :=
  resolve_of_no_brace fun h => absurd (Text.isDigit_of_mem_ofNat h) (by decide)

/-- A range in braces gives a number between its bounds, whichever comes first, at the cost of the
draw alone. With a bound beyond 64 bits it gives the text between the braces and takes no word. -/
theorem generateWith_range (engine : Engine) (source : σ) {low high : Text}
    (hdigits : ∀ c ∈ low ++ high, c.isDigit) (hlow : low ≠ []) (hhigh : high ≠ []) :
    let template := '{' :: (low ++ '-' :: high) ++ ['}']
    let least := min (Text.digitsValue low) (Text.digitsValue high)
    let greatest := max (Text.digitsValue low) (Text.digitsValue high)
    (Text.digitsValue low < UInt64.size ∧ Text.digitsValue high < UInt64.size → ∀ n rest,
      Draw.between64 (UInt64.ofNat least) (UInt64.ofNat greatest) source = some (n, rest) →
      least ≤ n.toNat ∧ n.toNat ≤ greatest ∧ ∃ trace,
        engine.generateWith template source = some ({ text := Text.ofNat n.toNat, trace }, rest)) ∧
    (¬ (Text.digitsValue low < UInt64.size ∧ Text.digitsValue high < UInt64.size) → ∃ trace,
      engine.generateWith template source =
        some ({ text := low ++ '-' :: high, trace }, source)) := by
  intro template least greatest
  have hopen : literal? template = none := literal?_cons (by unfold isQuote; decide) _
  have hsource : (engine.opening template source).source = source :=
    Evaluator.reported_source _ _
  have hparse := parse_range hdigits hlow hhigh
  constructor
  · intro hfits n rest hdraw
    have hleast : (UInt64.ofNat least).toNat = least := UInt64.toNat_ofNat_of_lt' (by omega)
    have hgreatest : (UInt64.ofNat greatest).toNat = greatest := UInt64.toNat_ofNat_of_lt' (by omega)
    have hle : UInt64.ofNat least ≤ UInt64.ofNat greatest := by
      rw [UInt64.le_iff_toNat_le, hleast, hgreatest]
      omega
    obtain ⟨hlow', hhigh'⟩ := Draw.between64_mem hle hdraw
    rw [UInt64.le_iff_toNat_le] at hlow' hhigh'
    rw [if_pos hfits] at hparse
    rw [← hsource] at hdraw
    have heval := engine.evaluator.evaluate_number hle hdraw
    rw [← hparse] at heval
    obtain ⟨trace, hgenerate⟩ := generateWith_of_evaluate hopen heval
    rw [resolve_ofNat] at hgenerate
    exact ⟨by omega, by omega, trace, hgenerate⟩
  · intro hlarge
    rw [if_neg hlarge] at hparse
    have heval : engine.evaluator.evaluate (parse template) (engine.opening template source) =
        some (low ++ '-' :: high, engine.opening template source) := by
      rw [hparse]
      rfl
    have hbrace : '{' ∉ low ++ '-' :: high := fun h =>
      absurd (isPlain_of_mem_range hdigits h).1 (by decide)
    obtain ⟨trace, hgenerate⟩ := generateWith_of_evaluate hopen heval
    rw [hsource, resolve_of_no_brace hbrace] at hgenerate
    exact ⟨trace, hgenerate⟩

/-- A source with one scripted word, half of 2^64. -/
def halfway : Random.Script where
  words := [0x8000000000000000]
  state := 0

theorem between64_halfway :
    Draw.between64 3 10 halfway = some (7, { words := [], state := 0 }) := by
  have hword : (UInt64.toNat <$> Draw.word64) halfway =
      some (0x8000000000000000, { words := [], state := 0 }) := rfl
  have haccept : Draw.scaled? 64 (10 - 3 + 1 : UInt64).toNat
      (Draw.shiftedZone 64 (10 - 3 + 1 : UInt64).toNat) 0x8000000000000000 = some 4 := by decide
  unfold Draw.between64
  rw [if_neg (by decide), bind_of_some (Draw.firstAccepted_of_accept hword haccept)]
  rfl

/-- The bounds in the wrong order, one with zeros in front, and a bound that is too large. -/
theorem generateWith_range_seven :
    (∃ trace, aviary.generateWith "\x7b0010-3\x7d".toList halfway =
      some ({ text := "7".toList, trace }, { words := [], state := 0 })) ∧
    (∃ trace, aviary.generateWith "\x7b18446744073709551616-1\x7d".toList halfway =
      some ({ text := "18446744073709551616-1".toList, trace }, halfway)) := by
  constructor
  · have hdigits : ∀ c ∈ "0010".toList ++ "3".toList, c.isDigit :=
      List.all_eq_true.1 (by decide)
    have hrange := generateWith_range aviary halfway hdigits (by decide) (by decide)
    have hleast : UInt64.ofNat (min (Text.digitsValue "0010".toList) (Text.digitsValue "3".toList)) =
        3 := by decide
    have hgreatest : UInt64.ofNat (max (Text.digitsValue "0010".toList)
        (Text.digitsValue "3".toList)) = 10 := by decide
    have htemplate : '{' :: ("0010".toList ++ '-' :: "3".toList) ++ ['}'] =
        "\x7b0010-3\x7d".toList := by decide
    have htext : Text.ofNat (7 : UInt64).toNat = "7".toList := by decide
    have hdraw := between64_halfway
    rw [← hleast, ← hgreatest] at hdraw
    obtain ⟨-, -, trace, hgenerate⟩ := hrange.1 (by decide) 7 _ hdraw
    rw [htemplate, htext] at hgenerate
    exact ⟨trace, hgenerate⟩
  · have hdigits : ∀ c ∈ "18446744073709551616".toList ++ "1".toList, c.isDigit :=
      List.all_eq_true.1 (by decide)
    have hrange := generateWith_range aviary halfway hdigits (by decide) (by decide)
    have htext : "18446744073709551616".toList ++ '-' :: "1".toList =
        "18446744073709551616-1".toList := by decide
    have htemplate : '{' :: "18446744073709551616-1".toList ++ ['}'] =
        "\x7b18446744073709551616-1\x7d".toList := by decide
    obtain ⟨trace, hgenerate⟩ := hrange.2 (by decide)
    rw [htext, htemplate] at hgenerate
    exact ⟨trace, hgenerate⟩

end Engine

end RandomTables
