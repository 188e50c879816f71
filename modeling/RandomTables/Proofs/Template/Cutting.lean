import RandomTables.Proofs.Template.Nested
import Mathlib.Data.List.Basic

/-! # Cut expressions

Reading cuts an expression at its operators, one of the two after the other. With some levels of
nesting to spare its references are those of the operands, from left to right.
-/

namespace RandomTables

open RandomTables.Bracket

/-! ## Operands of operands -/

namespace Bracket

variable {sep sep' : Char}

theorem intercalate_glue (sep : Char) (s : Text) {cuts : List Text} (hne : cuts ≠ []) :
    [sep].intercalate (glue s cuts) = s ++ [sep].intercalate cuts := by
  match cuts with
  | [] => exact absurd rfl hne
  | [piece] => simp [glue]
  | piece :: next :: more => simp [glue, List.intercalate_cons_cons]

theorem intercalate_pieces (sep : Char) (depth : Int) (t : Text) :
    [sep].intercalate (pieces sep depth t) = t := by
  induction t generalizing depth with
  | nil => simp [pieces]
  | cons c t ih =>
    rw [pieces_cons]
    split
    · next hcut =>
      obtain ⟨piece, more, hcuts⟩ := List.exists_cons_of_ne_nil (pieces_ne_nil sep depth t)
      rw [hcuts, List.intercalate_cons_cons, ← hcuts, ih, hcut.2.1]
      rfl
    · rw [intercalate_glue _ _ (pieces_ne_nil _ _ _), ih]
      rfl

theorem pieces_cons_eq_singleton {depth : Int} {c : Char} {t : Text} :
    pieces sep depth (c :: t) = [c :: t] ↔
      ¬ (isPlain c ∧ c = sep ∧ depth = 0) ∧ pieces sep (step depth c) t = [t] := by
  rw [pieces_cons]
  split
  · next hcut =>
    refine iff_of_false (fun heq => ?_) fun h => h.1 hcut
    injection heq with hnil
    cases hnil
  · next hother =>
    obtain ⟨piece, more, hcuts⟩ := List.exists_cons_of_ne_nil (pieces_ne_nil sep (step depth c) t)
    simp [hother, hcuts, glue]

/-- A piece has no separator of its own at depth zero, nor one that the text has none of. -/
theorem pieces_of_pieces {t first : Text} {more : List Text} {depth : Int}
    (hcuts : pieces sep depth t = first :: more)
    (h : sep' = sep ∨ pieces sep' depth t = [t]) :
    pieces sep' depth first = [first] ∧ ∀ piece ∈ more, pieces sep' 0 piece = [piece] := by
  induction t generalizing first more depth with
  | nil =>
    rw [pieces] at hcuts
    cases hcuts
    exact ⟨rfl, List.forall_mem_nil _⟩
  | cons c t ih =>
    have hrest : sep' = sep ∨ pieces sep' (step depth c) t = [t] :=
      h.imp_right fun hlone => (pieces_cons_eq_singleton.1 hlone).2
    rw [pieces_cons] at hcuts
    split at hcuts
    · next hcut =>
      obtain ⟨hplain, -, rfl⟩ := hcut
      rw [step_plain hplain] at hrest
      cases hcuts
      obtain ⟨next, later, hcuts⟩ := List.exists_cons_of_ne_nil (pieces_ne_nil sep 0 t)
      rw [hcuts]
      exact ⟨rfl, List.forall_mem_cons.2 (ih hcuts hrest)⟩
    · next hother =>
      obtain ⟨next, later, hnext⟩ := List.exists_cons_of_ne_nil (pieces_ne_nil sep (step depth c) t)
      rw [hnext] at hcuts
      cases hcuts
      obtain ⟨hfirst, hlater⟩ := ih hnext hrest
      refine ⟨pieces_cons_eq_singleton.2 ⟨?_, hfirst⟩, hlater⟩
      rcases h with rfl | hlone
      · exact hother
      · exact (pieces_cons_eq_singleton.1 hlone).1

theorem pieces_trim (hsep : isOperator sep) {t : Text} (h : pieces sep 0 t = [t]) :
    pieces sep 0 (Text.trim t) = [Text.trim t] := by
  have htrim := map_trim_pieces_trim (not_isBlank_of_isOperator hsep) t
  rw [h, List.map_singleton, List.map_eq_singleton_iff] at htrim
  obtain ⟨piece, hpiece, -⟩ := htrim
  rw [hpiece, eq_of_pieces_singleton hpiece]

theorem pieces_of_mem_operands (hsep' : isOperator sep') {t part : Text}
    (hpart : part ∈ operands sep t) (h : sep' = sep ∨ pieces sep' 0 t = [t]) :
    pieces sep' 0 part = [part] := by
  obtain ⟨first, more, hcuts⟩ := List.exists_cons_of_ne_nil (pieces_ne_nil sep 0 t)
  obtain ⟨hfirst, hmore⟩ := pieces_of_pieces hcuts h
  obtain ⟨piece, hpiece, rfl⟩ := List.mem_map.1 (List.mem_filter.1 hpart).1
  rw [hcuts] at hpiece
  rcases List.mem_cons.1 hpiece with rfl | hpiece
  · exact pieces_trim hsep' hfirst
  · exact pieces_trim hsep' (hmore piece hpiece)

theorem ne_nil_of_mem_operands {t part : Text} (hpart : part ∈ operands sep t) : part ≠ [] := by
  rintro rfl
  exact Bool.noConfusion (List.mem_filter.1 hpart).2

theorem operands_eq_singleton {t : Text} (h : pieces sep 0 t = [t]) (htrim : Text.trim t = t)
    (hne : t ≠ []) : operands sep t = [t] := by
  simp [operands, h, htrim, hne]

/-- The operands of an expression, cut at both operators. -/
def cutOperands (t : Text) : List Text := (operands '&' t).flatMap (operands '|')

/-- An operand that is trimmed and that no operator splits. -/
structure IsLone (operand : Text) : Prop where
  trimmed : Text.trim operand = operand
  all : operands '&' operand = [operand]
  one : operands '|' operand = [operand]

theorem operands_of_mem_operands (hsep : isOperator sep) {t part : Text}
    (hpart : part ∈ operands sep t) : operands sep part = [part] :=
  operands_eq_singleton (pieces_of_mem_operands hsep hpart (.inl rfl)) (trim_of_mem_operands hpart)
    (ne_nil_of_mem_operands hpart)

theorem isLone_of_mem {t conjunct operand : Text} (hconjunct : conjunct ∈ operands '&' t)
    (hoperand : operand ∈ operands '|' conjunct) : IsLone operand where
  trimmed := trim_of_mem_operands hoperand
  one := operands_of_mem_operands rfl hoperand
  all := by
    have hwhole : pieces '&' 0 conjunct = [conjunct] :=
      pieces_of_mem_operands rfl hconjunct (.inl rfl)
    have hall := pieces_of_mem_operands rfl hoperand (.inr hwhole)
    exact operands_eq_singleton hall (trim_of_mem_operands hoperand) (ne_nil_of_mem_operands hoperand)

theorem isLone_of_mem_cutOperands {t operand : Text} (h : operand ∈ cutOperands t) :
    IsLone operand := by
  obtain ⟨conjunct, hconjunct, hoperand⟩ := List.mem_flatMap.1 h
  exact isLone_of_mem hconjunct hoperand

theorem cutOperands_trim (t : Text) : cutOperands (Text.trim t) = cutOperands t := by
  rw [cutOperands, operands_trim (by decide : ¬ Text.isBlank '&'), cutOperands]

end Bracket

theorem Bracket.IsLone.shape {operand : Text} (h : IsLone operand) :
    Shape.of operand = .ofOperand operand := by
  rw [Shape.of, h.all, List.headD_cons, h.one]
  rfl

/-! ## Reading operands -/

/-- The references of an operand with some levels of nesting left. -/
def operandReferences (depth : Nat) (operand : Text) : List Reference :=
  ((Shape.ofOperand operand).node (readExpression depth) (readTemplate depth)).references

theorem operandReferences_of_bare {operand : Text} (h : '[' ∉ operand) (depth : Nat) :
    operandReferences depth operand = [] :=
  Shape.references_of_isBare (references_of_bare depth).1 (references_of_bare depth).2
    (Shape.isBare_ofOperand h)

section Reading

variable {found : Text → List Reference} {bound : Nat} {t : Text}

theorem references_of_isLone {operand : Text} (h : IsLone operand)
    (hfound : ∀ depth, bound ≤ depth → operandReferences depth operand = found operand)
    {depth : Nat} (hdepth : bound + 1 ≤ depth) :
    (readExpression depth operand).references = found operand := by
  obtain ⟨depth, rfl⟩ := Nat.exists_eq_add_of_le' (Nat.le_trans (Nat.le_add_left 1 bound) hdepth)
  rw [readExpression_succ, h.trimmed, h.shape]
  exact hfound depth (by omega)

theorem references_of_conjunct {conjunct : Text} (htrim : Text.trim t = t)
    (hconjunct : operands '&' t = [conjunct])
    (hfound : ∀ operand ∈ operands '|' conjunct, ∀ depth, bound ≤ depth →
      operandReferences depth operand = found operand)
    {depth : Nat} (hdepth : bound + 2 ≤ depth) :
    (readExpression depth t).references = (operands '|' conjunct).flatMap found := by
  obtain ⟨depth, rfl⟩ := Nat.exists_eq_add_of_le' (Nat.le_trans (Nat.le_add_left 1 _) hdepth)
  have hmem : conjunct ∈ operands '&' t := hconjunct ▸ List.mem_singleton_self conjunct
  rw [readExpression_succ, htrim, Shape.of, hconjunct, List.headD_cons, if_neg (by simp)]
  rcases hdisjuncts : operands '|' conjunct with _ | ⟨operand, _ | ⟨second, more⟩⟩
  · have hbare : '[' ∉ conjunct := not_mem_of_operands_eq_nil (by decide) (by decide) hdisjuncts
    exact operandReferences_of_bare hbare depth
  · rw [hdisjuncts] at hfound
    rw [if_neg (by simp), List.headD_cons, List.flatMap_singleton]
    exact hfound operand List.mem_cons_self depth (by omega)
  · rw [if_pos (by simp), Shape.references_oneOf, ← hdisjuncts]
    refine List.flatMap_congr fun operand hoperand => ?_
    exact references_of_isLone (isLone_of_mem hmem hoperand) (hfound operand hoperand) (by omega)

/-- If from some level on each operand has the same references, the expression has those of its
operands three levels later: one level for each operator, and one for the operand. -/
theorem references_cutOperands
    (hfound : ∀ operand ∈ cutOperands t, ∀ depth, bound ≤ depth →
      operandReferences depth operand = found operand)
    {depth : Nat} (hdepth : bound + 3 ≤ depth) :
    (readExpression depth t).references = (cutOperands t).flatMap found := by
  obtain ⟨depth, rfl⟩ := Nat.exists_eq_add_of_le' (Nat.le_trans (Nat.le_add_left 1 _) hdepth)
  have hconjunct {conjunct : Text} (hmem : conjunct ∈ operands '&' (Text.trim t)) :
      ∀ operand ∈ operands '|' conjunct, ∀ depth, bound ≤ depth →
        operandReferences depth operand = found operand := by
    rw [← cutOperands_trim] at hfound
    exact fun operand hoperand => hfound operand (List.mem_flatMap.2 ⟨conjunct, hmem, hoperand⟩)
  rw [← cutOperands_trim, cutOperands]
  rcases hconjuncts : operands '&' (Text.trim t) with _ | ⟨conjunct, _ | ⟨second, more⟩⟩
  · have hbare : '[' ∉ Text.trim t := not_mem_of_operands_eq_nil (by decide) (by decide) hconjuncts
    rw [readExpression_succ]
    exact Shape.references_of_isBare (references_of_bare depth).1 (references_of_bare depth).2
      (Shape.isBare_of hbare)
  · have hread : (readExpression (depth + 1) (Text.trim t)).references = _ :=
      references_of_conjunct (Text.trim_trim t) hconjuncts
        (hconjunct (hconjuncts ▸ List.mem_cons_self)) (by omega)
    rw [readExpression_succ, Text.trim_trim] at hread
    rw [readExpression_succ, hread, List.flatMap_singleton]
  · have htwo : 2 ≤ (operands '&' (Text.trim t)).length := by simp [hconjuncts]
    rw [readExpression_succ, Shape.of, if_pos htwo, Shape.references_all, ← hconjuncts,
      List.flatMap_assoc]
    refine List.flatMap_congr fun conjunct hmem => ?_
    exact references_of_conjunct (trim_of_mem_operands hmem) (operands_of_mem_operands rfl hmem)
      (hconjunct hmem) (by omega)

end Reading

end RandomTables
