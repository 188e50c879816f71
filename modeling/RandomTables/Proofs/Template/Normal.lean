import RandomTables.Proofs.Template.Reference
import RandomTables.Proofs.Template.Tree

/-! # Normal forms

Every tree that is read is in normal form, however malformed the template, and no higher than the
nesting limit allows.
-/

namespace RandomTables

/-! ## Nodes in normal form -/

namespace Node

def IsNormal : Node → Prop
  | .all parts => 2 ≤ parts.length
  | .oneOf options => 2 ≤ options.length
  | .sequence parts => 2 ≤ parts.length ∧ TextsApart parts
  | .number min max => min ≤ max
  | .reference ref => ref.IsNormal
  | .group _ => True
  | .text _ => True
  | .article => True

/-- All nodes are normal, and so many of them stand on one way from the root to a leaf at most. -/
structure InNormalForm (tree : Node) (bound : Nat) : Prop where
  everywhere : tree.Everywhere IsNormal
  height_le : tree.height ≤ bound

namespace InNormalForm

variable {bound : Nat}

theorem mono {tree : Node} {bound' : Nat} (h : tree.InNormalForm bound) (hle : bound ≤ bound') :
    tree.InNormalForm bound' :=
  ⟨h.everywhere, Nat.le_trans h.height_le hle⟩

theorem text (value : Text) : (Node.text value).InNormalForm 1 :=
  ⟨everywhere_text.2 trivial, Nat.le_refl 1⟩

theorem article : Node.article.InNormalForm 1 := ⟨everywhere_article.2 trivial, Nat.le_refl 1⟩

theorem reference {ref : Reference} (h : ref.IsNormal) : (Node.reference ref).InNormalForm 1 :=
  ⟨everywhere_reference.2 h, Nat.le_refl 1⟩

theorem number (low high : UInt64) : (Node.number (min low high) (max low high)).InNormalForm 1 := by
  refine ⟨everywhere_number.2 ?_, Nat.le_refl 1⟩
  show (if low ≤ high then low else high) ≤ (if low ≤ high then high else low)
  split
  · assumption
  · next hlt => exact (UInt64.le_total low high).resolve_left hlt

theorem alongOf_le {parts : List Node} (h : ∀ part ∈ parts, part.InNormalForm bound) :
    1 + alongOf (fun _ => true) parts ≤ bound + 1 := by
  have hparts := alongOf_le_iff.2 fun part hpart => (h part hpart).height_le
  omega

theorem all {parts : List Node} (htwo : 2 ≤ parts.length)
    (h : ∀ part ∈ parts, part.InNormalForm bound) : (Node.all parts).InNormalForm (bound + 1) :=
  ⟨everywhere_all.2 ⟨htwo, fun part hpart => (h part hpart).everywhere⟩, alongOf_le h⟩

theorem oneOf {options : List Node} (htwo : 2 ≤ options.length)
    (h : ∀ option ∈ options, option.InNormalForm bound) :
    (Node.oneOf options).InNormalForm (bound + 1) :=
  ⟨everywhere_oneOf.2 ⟨htwo, fun option hoption => (h option hoption).everywhere⟩, alongOf_le h⟩

theorem sequence {parts : List Node} (htwo : 2 ≤ parts.length) (hapart : TextsApart parts)
    (h : ∀ part ∈ parts, part.InNormalForm bound) :
    (Node.sequence parts).InNormalForm (bound + 1) :=
  ⟨everywhere_sequence.2 ⟨⟨htwo, hapart⟩, fun part hpart => (h part hpart).everywhere⟩,
    alongOf_le h⟩

theorem group {inner : Node} (h : inner.InNormalForm bound) :
    (Node.group inner).InNormalForm (bound + 1) := by
  refine ⟨everywhere_group.2 ⟨trivial, h.everywhere⟩, ?_⟩
  have hinner := h.height_le
  show 1 + inner.height ≤ bound + 1
  omega

theorem concat {nodes : List Node} (hbound : 1 ≤ bound)
    (h : ∀ node ∈ nodes, node.InNormalForm bound) : (concat nodes).InNormalForm (bound + 1) := by
  have hapart := textsApart_joinTexts nodes
  have hjoined : ∀ node ∈ joinTexts nodes, node.InNormalForm bound := by
    intro node hnode
    rcases mem_joinTexts hnode with htext | hmem
    · cases node with
      | text value => exact (text value).mono hbound
      | _ => cases htext
    · exact h node hmem
  unfold Node.concat
  split
  · exact (text []).mono (Nat.le_add_left 1 bound)
  · next node hone =>
    rw [hone] at hjoined
    exact (hjoined node List.mem_cons_self).mono (Nat.le_succ bound)
  · next joined hnil hone =>
    refine sequence ?_ hapart hjoined
    match hnodes : joinTexts nodes with
    | [] => exact (hnil hnodes).elim
    | [node] => exact (hone node hnodes).elim
    | _ :: _ :: rest => exact Nat.le_add_left 2 rest.length

end InNormalForm

end Node

open Node

/-! ## Shapes in normal form -/

/-- Operators join at least two operands, and a leaf is in normal form. -/
def Shape.IsNormal : Shape → Prop
  | .all parts => 2 ≤ parts.length
  | .oneOf parts => 2 ≤ parts.length
  | .leaf node => node.InNormalForm 1
  | .group _ => True
  | .prose _ => True

theorem isNormal_of_decorated? {t : Text} {ref : Reference} (h : decorated? t = some ref) :
    ref.IsNormal := by
  unfold decorated? at h
  split at h
  · split at h
    · split at h
      · exact Reference.isNormal_of_parse? h
      · cases h
    · cases h
  · cases h

namespace Shape

theorem isNormal_ofOperand (operand : Text) : (ofOperand operand).IsNormal := by
  unfold ofOperand
  split
  · trivial
  · split
    · exact InNormalForm.number _ _
    · split
      · exact InNormalForm.article
      · split
        · split
          · next href => exact InNormalForm.reference (isNormal_of_decorated? href)
          · trivial
        · exact InNormalForm.text operand

theorem isNormal_of (t : Text) : (of t).IsNormal := by
  unfold of
  dsimp only
  split
  · next htwo => exact htwo
  · split
    · next htwo => exact htwo
    · exact isNormal_ofOperand _

theorem inNormalForm_node {expression template : Text → Node} {bound : Nat}
    (hexpression : ∀ t, (expression t).InNormalForm bound)
    (htemplate : ∀ t, (template t).InNormalForm (bound + 1)) {shape : Shape}
    (h : shape.IsNormal) : (shape.node expression template).InNormalForm (bound + 1) := by
  have hparts (parts : List Text) : ∀ part ∈ parts.map expression, part.InNormalForm bound := by
    intro part hpart
    obtain ⟨t, -, rfl⟩ := List.mem_map.1 hpart
    exact hexpression t
  cases shape with
  | all parts => exact InNormalForm.all (by rwa [List.length_map]) (hparts parts)
  | oneOf parts => exact InNormalForm.oneOf (by rwa [List.length_map]) (hparts parts)
  | group body => exact InNormalForm.group (hexpression body)
  | leaf node => exact InNormalForm.mono h (Nat.le_add_left 1 bound)
  | prose operand => exact htemplate operand

end Shape

/-! ## Trees -/

theorem Piece.inNormalForm_node {reader : Text → Node} {bound : Nat} (hbound : 1 ≤ bound)
    (h : ∀ t, (reader t).InNormalForm bound) (piece : Piece) :
    (piece.node reader).InNormalForm bound := by
  cases piece with
  | literal c => exact (InNormalForm.text [c]).mono hbound
  | bracketed body =>
    unfold Piece.node
    dsimp only
    split
    · next href => exact (InNormalForm.reference (Reference.isNormal_of_parse? href)).mono hbound
    · exact (InNormalForm.text _).mono hbound
  | braced body => exact h body

theorem Piece.inNormalForm_concat {reader : Text → Node} {bound : Nat} (hbound : 1 ≤ bound)
    (h : ∀ t, (reader t).InNormalForm bound) (t : Text) :
    (Node.concat ((Piece.split t).map (Piece.node reader))).InNormalForm (bound + 1) := by
  apply InNormalForm.concat hbound
  intro node hnode
  obtain ⟨piece, -, rfl⟩ := List.mem_map.1 hnode
  exact piece.inNormalForm_node hbound h

/-- One level of nesting is one node on the way down. Without any level left, a template can still be
prose around references. -/
theorem inNormalForm_read (depth : Nat) :
    (∀ t, (readExpression depth t).InNormalForm (depth + 1)) ∧
      ∀ t, (readTemplate depth t).InNormalForm (max depth 1 + 1) := by
  induction depth with
  | zero =>
    refine ⟨fun t => ?_, fun t => ?_⟩
    · rw [readExpression]
      exact InNormalForm.text _
    · rw [readTemplate]
      exact Piece.inNormalForm_concat (Nat.le_refl 1) (fun body => InNormalForm.text _) t
  | succ depth ih =>
    refine ⟨fun t => ?_, fun t => ?_⟩
    · rw [readExpression_succ]
      apply Shape.inNormalForm_node ih.1 _ (Shape.isNormal_of _)
      exact fun t => (ih.2 t).mono (by omega)
    · rw [readTemplate, Nat.max_eq_left (Nat.le_add_left 1 depth)]
      exact Piece.inNormalForm_concat (Nat.le_add_left 1 depth) ih.1 t

theorem parse_inNormalForm (t : Text) :
    (parse t).InNormalForm (nestingLimit + 1) ∧ (parseInline t).InNormalForm (nestingLimit + 1) :=
  ⟨(inNormalForm_read nestingLimit).2 t, (inNormalForm_read nestingLimit).1 t⟩

end RandomTables
