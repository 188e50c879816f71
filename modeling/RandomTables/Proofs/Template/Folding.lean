import RandomTables.Proofs.Template.Clauses
import RandomTables.Proofs.Template.Tree

/-! # Folded operands

In an expression the text behind a bracketed reference is folded into it. Whatever of that text is
no clause is lost.
-/

namespace RandomTables

open RandomTables.Bracket

/-! ## A lone reference in prose -/

namespace Node

theorem concat_eq_reference_iff (nodes : List Node) (ref : Reference) :
    concat nodes = .reference ref ↔ joinTexts nodes = [.reference ref] := by
  unfold concat
  split
  · next hjoin => simp [hjoin]
  · next node hjoin => simp [hjoin]
  · next hnone hone =>
    refine iff_of_false Node.noConfusion fun hjoin => ?_
    exact hone _ hjoin

theorem concat_eq_empty_iff (nodes : List Node) : concat nodes = .text [] ↔ joinTexts nodes = [] := by
  have hempty := (textsApart_joinTexts nodes).ne_empty
  unfold concat
  split
  · next hjoin => exact iff_of_true rfl hjoin
  · next node hjoin =>
    rw [hjoin] at hempty ⊢
    exact iff_of_false (fun heq => hempty (heq ▸ List.mem_cons_self)) (List.cons_ne_nil _ _)
  · next hnone _ => exact iff_of_false Node.noConfusion hnone

end Node

theorem exists_reader (depth : Nat) : ∃ reader : Text → Node, ∀ t,
    readTemplate depth t = Node.concat ((Piece.split t).map (Piece.node reader)) := by
  cases depth with
  | zero => exact ⟨_, fun t => by rw [readTemplate]⟩
  | succ depth => exact ⟨_, fun t => by rw [readTemplate]⟩

theorem readTemplate_eq_reference_iff {x S : Text}
    (hmatch : enclosed? '[' ']' 0 (x ++ ']' :: S) = some (x, S)) (depth : Nat) (ref : Reference) :
    readTemplate depth ('[' :: x ++ ']' :: S) = .reference ref ↔
      Reference.parse? x = some ref ∧ readTemplate depth S = .text [] := by
  obtain ⟨reader, hread⟩ := exists_reader depth
  have hsplit : Piece.split ('[' :: x ++ ']' :: S) = .bracketed x :: Piece.split S :=
    Piece.split_bracketed hmatch
  rw [hread, hread, hsplit, Node.concat_eq_reference_iff, Node.concat_eq_empty_iff, List.map_cons]
  cases href : Reference.parse? x with
  | none =>
    have hnode : (Piece.bracketed x).node reader = .text (Piece.bracketed x).raw := by
      rw [Piece.node, href]
    rw [hnode]
    refine iff_of_false (fun hjoin => ?_) (fun h => by cases h.1)
    have hraw : (Piece.bracketed x).raw.isEmpty = false := rfl
    rcases Node.joinTexts_text (Piece.bracketed x).raw ((Piece.split S).map (Piece.node reader)) with
      ⟨_, _, -, hjoined⟩ | ⟨-, hjoined⟩
    · rw [hjoined] at hjoin
      cases hjoin
    · rw [hjoined, hraw] at hjoin
      cases hjoin
  | some ref' =>
    have hnode : (Piece.bracketed x).node reader = .reference ref' := by
      rw [Piece.node, href]
    rw [hnode, Node.joinTexts_of_not_isText rfl, List.cons.injEq, Node.reference.injEq,
      Option.some.injEq]

/-! ## A lone operand -/

theorem trim_loneOperand {t operand : Text} (ht : Text.trim t = t)
    (h : loneOperand? t = some operand) : Text.trim operand = operand := by
  unfold loneOperand? at h
  dsimp only at h
  split at h
  · cases h
  · cases h
    exact trim_headD_operands '|' (trim_headD_operands '&' ht)

namespace Reference

open Clause

/-- An expression that comes to a bracketed reference with a text behind it. The text is folded in
if its shape allows, and then all of it is lost but the clauses in it. -/
theorem readExpression_decorated {t x S : Text}
    (hlone : loneOperand? (Text.trim t) = some ('[' :: x ++ ']' :: S))
    (hmatch : enclosed? '[' ']' 0 (x ++ ']' :: S) = some (x, S)) (hne : S ≠ []) :
    (∀ depth ref, readExpression (depth + 1) t = .reference ref ↔
      if isSuffix S ∧ (parse? (x ++ S)).isSome then parse? (x ++ S) = some ref
      else parse? x = some ref ∧ readTemplate depth S = .text []) ∧
    ((∀ c ∈ x, isPlain c) → isSuffix S →
      parse? (x ++ S) = (parse? x).map ((if '^' ∈ x then [] else readAll S).foldl apply)) ∧
    Spells (readAll S) (kept S) ∧ (kept S).Sublist S ∧
      (kept S = S ↔ ∃ clauses, Spells clauses S) := by
  refine ⟨fun depth ref => ?_, fun hx hsuffix => ?_, spells_kept S, kept_sublist S, kept_eq_self_iff S⟩
  · have hgroup : parenthesised? ('[' :: x ++ ']' :: S) = none := parenthesised?_of_ne (by decide) _
    have hdecorated : decorated? ('[' :: x ++ ']' :: S) =
        if isSuffix S then parse? (x ++ S) else none := by
      rw [List.cons_append, decorated?, hmatch]
    rw [readExpression_succ, Shape.of_loneOperand hlone,
      Shape.ofOperand_of_mem hgroup List.mem_cons_self, hdecorated]
    by_cases hfold : isSuffix S ∧ (parse? (x ++ S)).isSome
    · obtain ⟨ref', href⟩ := Option.isSome_iff_exists.1 hfold.2
      rw [if_pos hfold.1, if_pos hfold, href, Option.some.injEq, Shape.node, Node.reference.injEq]
    · have hnone : (if isSuffix S then parse? (x ++ S) else none) = none := by
        split
        · next hsuffix => simpa [hsuffix] using hfold
        · rfl
      rw [hnone, if_neg hfold]
      exact readTemplate_eq_reference_iff hmatch depth ref
  · obtain ⟨mark, S, rfl⟩ := List.exists_cons_of_ne_nil hne
    simp only [isSuffix, Bool.and_eq_true] at hsuffix
    have hsolid := Text.endsSolid_of_trimmed (trim_loneOperand (Text.trim_trim t) hlone)
      (List.cons_ne_nil _ _)
    rw [List.append_cons] at hsolid
    exact parse?_append hx hsuffix.1 (hsolid.of_append hne)

theorem kept_hello : kept "?hello*2".toList = "?*2".toList := by
  with_unfolding_all rfl

theorem readExpression_decorated_hello :
    loneOperand? (Text.trim " [owl]?hello*2".toList) = some "[owl]?hello*2".toList ∧
      enclosed? '[' ']' 0 "owl]?hello*2".toList = some ("owl".toList, "?hello*2".toList) ∧
      readExpression 1 " [owl]?hello*2".toList =
        .reference { path := "owl".toList, isOptional := true, repetition := .fixed 2 } ∧
      ¬ ∃ clauses, Spells clauses "?hello*2".toList := by
  have hlone : loneOperand? (Text.trim " [owl]?hello*2".toList) = some "[owl]?hello*2".toList := by
    decide
  have hmatch : enclosed? '[' ']' 0 "owl]?hello*2".toList =
      some ("owl".toList, "?hello*2".toList) := by
    decide
  have href : parse? ("owl".toList ++ "?hello*2".toList) =
      some { path := "owl".toList, isOptional := true, repetition := .fixed 2 } := by
    decide +kernel
  have hfold : isSuffix "?hello*2".toList ∧ (parse? ("owl".toList ++ "?hello*2".toList)).isSome :=
    ⟨by decide, by rw [href]; rfl⟩
  obtain ⟨hread, -, -, -, hkept⟩ :=
    readExpression_decorated (x := "owl".toList) (S := "?hello*2".toList) hlone hmatch (by decide)
  refine ⟨hlone, hmatch, (hread 0 _).2 ?_, ?_⟩
  · rw [if_pos hfold, href]
  · rw [← hkept, kept_hello]
    decide

/-- A text in which a mark opens counts as clauses, whatever follows. -/
theorem folded_not_spelled :
    parse "\x7b[x]?hello\x7d".toList = .reference { path := ['x'], isOptional := true } ∧
      ¬ ∃ clauses, Spells clauses "?hello".toList := by
  refine ⟨by with_unfolding_all rfl, ?_⟩
  rw [← kept_eq_self_iff]
  decide +kernel

end Reference

end RandomTables
