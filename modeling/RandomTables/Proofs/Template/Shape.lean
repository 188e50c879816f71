import RandomTables.Proofs.Text
import RandomTables.Template.Parse
import Mathlib.Data.List.Flatten

/-! # Shapes of expressions

Which way an expression is read does not depend on the levels of nesting that are left, so the
nesting limit only cuts references off.
-/

namespace RandomTables

open RandomTables.Bracket

/-! ## References of joined nodes -/

namespace Node

theorem referencesOf_eq (nodes : List Node) : referencesOf nodes = nodes.flatMap references := by
  induction nodes with
  | nil => rfl
  | cons node rest ih => rw [referencesOf, ih, List.flatMap_cons]

theorem flatMap_joinTexts {β : Type} {f : Node → List β} (htext : ∀ value, f (.text value) = [])
    (nodes : List Node) : (joinTexts nodes).flatMap f = nodes.flatMap f := by
  induction nodes with
  | nil => rfl
  | cons node rest ih =>
    cases node with
    | text s =>
      rw [joinTexts, List.flatMap_cons, htext, ← ih]
      split
      · next hjoin =>
        rw [hjoin, List.flatMap_cons, List.flatMap_cons, htext, htext]
        rfl
      · split
        · rfl
        · rw [List.flatMap_cons, htext]
    | _ =>
      rw [joinTexts, List.flatMap_cons, List.flatMap_cons, ih]
      exact fun _ => Node.noConfusion

theorem flatMap_concat {β : Type} {f : Node → List β} (htext : ∀ value, f (.text value) = [])
    (hsequence : ∀ parts, f (.sequence parts) = parts.flatMap f) (nodes : List Node) :
    f (concat nodes) = nodes.flatMap f := by
  rw [← flatMap_joinTexts htext, concat]
  split
  · next hjoin => rw [hjoin, htext, List.flatMap_nil]
  · next node hjoin => rw [hjoin, List.flatMap_singleton]
  · exact hsequence _

theorem references_concat (nodes : List Node) :
    (concat nodes).references = nodes.flatMap references :=
  flatMap_concat (fun _ => rfl) referencesOf_eq nodes

end Node

/-! ## Pieces -/

theorem Bracket.enclosed?_behind {opening closing : Char} {inner : Nat} {t body rest : Text}
    (h : enclosed? opening closing inner t = some (body, rest)) (rest' : Text) :
    enclosed? opening closing inner (body ++ closing :: rest') = some (body, rest') := by
  fun_induction enclosed? opening closing inner t generalizing body with
  | case1 => cases h
  | case2 inner t ih =>
    obtain ⟨⟨b, r⟩, hb, heq⟩ := Option.map_eq_some_iff.1 h
    cases heq
    simp [enclosed?, ih hb]
  | case3 t hne =>
    cases h
    simp [enclosed?, hne]
  | case4 t inner hne ih =>
    obtain ⟨⟨b, r⟩, hb, heq⟩ := Option.map_eq_some_iff.1 h
    cases heq
    simp [enclosed?, hne, ih hb]
  | case5 inner c t hopening hclosing ih =>
    obtain ⟨⟨b, r⟩, hb, heq⟩ := Option.map_eq_some_iff.1 h
    cases heq
    simp [enclosed?, hopening, hclosing, ih hb]

namespace Piece

theorem split_nil : split [] = [] := by
  unfold split
  rfl

theorem split_bracketed {t body rest : Text} (h : enclosed? '[' ']' 0 t = some (body, rest)) :
    split ('[' :: t) = .bracketed body :: split rest := by
  rw [split, if_pos rfl]
  split
  · next hsome => cases h.symm.trans hsome; rfl
  · next hnone => rw [h] at hnone; cases hnone

theorem split_braced {t body rest : Text} (h : enclosed? '{' '}' 0 t = some (body, rest)) :
    split ('{' :: t) = .braced body :: split rest := by
  rw [split, if_neg (by decide), if_pos rfl]
  split
  · next hsome => cases h.symm.trans hsome; rfl
  · next hnone => rw [h] at hnone; cases hnone

theorem split_literal {c : Char} {t : Text}
    (hsquare : c = '[' → enclosed? '[' ']' 0 t = none)
    (hcurly : c = '{' → enclosed? '{' '}' 0 t = none) : split (c :: t) = .literal c :: split t := by
  rw [split]
  split
  · next hc =>
    split
    · next hsome => rw [hsquare hc] at hsome; cases hsome
    · rfl
  · split
    · next hc =>
      split
      · next hsome => rw [hcurly hc] at hsome; cases hsome
      · rfl
    · rfl

theorem flatMap_raw_split (t : Text) : (split t).flatMap raw = t := by
  induction t using split.induct with
  | case1 => rw [split_nil, List.flatMap_nil]
  | case2 t body rest hmatch ih =>
    rw [split_bracketed hmatch, List.flatMap_cons, ih, Bracket.enclosed?_eq hmatch]
    simp [raw]
  | case3 t hmatch ih =>
    rw [split_literal (fun _ => hmatch) (absurd · (by decide)), List.flatMap_cons, ih]
    rfl
  | case4 t body rest hmatch _ ih =>
    rw [split_braced hmatch, List.flatMap_cons, ih, Bracket.enclosed?_eq hmatch]
    simp [raw]
  | case5 t hmatch _ ih =>
    rw [split_literal (absurd · (by decide)) (fun _ => hmatch), List.flatMap_cons, ih]
    rfl
  | case6 c t hsquare hcurly ih =>
    rw [split_literal (absurd · hsquare) (absurd · hcurly), List.flatMap_cons, ih]
    rfl

/-- The brackets around a region match each other. -/
def IsClosed : Piece → Prop
  | .literal _ => True
  | .bracketed body => enclosed? '[' ']' 0 (body ++ [']']) = some (body, [])
  | .braced body => enclosed? '{' '}' 0 (body ++ ['}']) = some (body, [])

theorem isClosed_of_mem_split {t : Text} : ∀ piece ∈ split t, piece.IsClosed := by
  induction t using split.induct with
  | case1 =>
    rw [split_nil]
    exact List.forall_mem_nil _
  | case2 t body rest hmatch ih =>
    rw [split_bracketed hmatch]
    exact List.forall_mem_cons.2 ⟨enclosed?_behind hmatch [], ih⟩
  | case3 t hmatch ih =>
    rw [split_literal (fun _ => hmatch) (absurd · (by decide))]
    exact List.forall_mem_cons.2 ⟨trivial, ih⟩
  | case4 t body rest hmatch _ ih =>
    rw [split_braced hmatch]
    exact List.forall_mem_cons.2 ⟨enclosed?_behind hmatch [], ih⟩
  | case5 t hmatch _ ih =>
    rw [split_literal (absurd · (by decide)) (fun _ => hmatch)]
    exact List.forall_mem_cons.2 ⟨trivial, ih⟩
  | case6 c t hsquare hcurly ih =>
    rw [split_literal (absurd · hsquare) (absurd · hcurly)]
    exact List.forall_mem_cons.2 ⟨trivial, ih⟩

end Piece

/-! ## Shapes -/

inductive Shape where
  | all (parts : List Text)
  | oneOf (parts : List Text)
  | group (body : Text)
  | leaf (node : Node)
  | prose (operand : Text)

namespace Shape

/-- The node of a shape, with readers for its expressions and for its prose. -/
def node (expression template : Text → Node) : Shape → Node
  | .all parts => .all (parts.map expression)
  | .oneOf parts => .oneOf (parts.map expression)
  | .group body => .group (expression body)
  | .leaf node => node
  | .prose operand => template operand

/-- The shape of an operand without operators outside its brackets. -/
def ofOperand (operand : Text) : Shape :=
  match parenthesised? operand with
  | some body => .group body
  | none =>
    match numberRange? operand with
    | some (low, high) => .leaf (.number (min low high) (max low high))
    | none =>
      if operand = ['a'] then .leaf .article
      else if operand.contains '[' || operand.contains '{' then
        match decorated? operand with
        | some ref => .leaf (.reference ref)
        | none => .prose operand
      else .leaf (.text operand)

/-- The shape of an expression without white space around it. -/
def of (t : Text) : Shape :=
  let conjuncts := operands '&' t
  let operand := conjuncts.headD t
  let disjuncts := operands '|' operand
  if 2 ≤ conjuncts.length then .all conjuncts
  else if 2 ≤ disjuncts.length then .oneOf disjuncts
  else ofOperand (disjuncts.headD operand)

theorem node_ofOperand (expression template : Text → Node) (operand : Text) :
    (ofOperand operand).node expression template =
      match parenthesised? operand with
      | some body => .group (expression body)
      | none =>
        match numberRange? operand with
        | some (low, high) => .number (min low high) (max low high)
        | none =>
          if operand = ['a'] then .article
          else if operand.contains '[' || operand.contains '{' then
            match decorated? operand with
            | some ref => .reference ref
            | none => template operand
          else .text operand := by
  rw [ofOperand]
  split
  · rfl
  · split
    · rfl
    · split
      · rfl
      · split
        · split <;> rfl
        · rfl

theorem lt_two_of_forall_ne {parts : List Text}
    (h : ∀ first second more, parts = first :: second :: more → False) : ¬ 2 ≤ parts.length := by
  match parts with
  | [] => decide
  | [_] => exact Nat.not_succ_le_self 1
  | first :: second :: more => exact (h first second more rfl).elim

end Shape

/-- The operand of an expression that neither operator splits. -/
def loneOperand? (t : Text) : Option Text :=
  let operand := (operands '&' t).headD t
  if 2 ≤ (operands '&' t).length ∨ 2 ≤ (operands '|' operand).length then none
  else some ((operands '|' operand).headD operand)

theorem Shape.of_loneOperand {t operand : Text} (h : loneOperand? t = some operand) :
    Shape.of t = .ofOperand operand := by
  unfold loneOperand? at h
  dsimp only at h
  split at h
  · cases h
  · next hlone =>
    cases h
    rw [not_or] at hlone
    rw [Shape.of, if_neg hlone.1, if_neg hlone.2]

/-- One level of nesting, for any limit. -/
theorem readExpression_succ (depth : Nat) (t : Text) :
    readExpression (depth + 1) t =
      (Shape.of (Text.trim t)).node (readExpression depth) (readTemplate depth) := by
  have htwo (first second : Text) (more : List Text) : 2 ≤ (first :: second :: more).length :=
    Nat.le_add_left 2 more.length
  rw [readExpression, Shape.of]
  split
  · next hall =>
    rw [hall, if_pos (htwo _ _ _)]
    rfl
  · next hall =>
    rw [if_neg (Shape.lt_two_of_forall_ne hall)]
    dsimp only
    split
    · next hone =>
      rw [hone, if_pos (htwo _ _ _)]
      rfl
    · next hone =>
      rw [if_neg (Shape.lt_two_of_forall_ne hone)]
      exact (Shape.node_ofOperand _ _ _).symm

theorem Piece.references_concat (reader : Text → Node) (t : Text) :
    (Node.concat ((Piece.split t).map (Piece.node reader))).references =
      (Piece.split t).flatMap fun piece => (piece.node reader).references := by
  rw [Node.references_concat, List.flatMap_map]

theorem Piece.references_bracketed (reader : Text → Node) (body : Text) :
    ((Piece.bracketed body).node reader).references = (Reference.parse? body).toList := by
  rw [Piece.node]
  split
  · next href =>
    rw [href]
    rfl
  · next hnone =>
    rw [hnone]
    rfl

namespace Shape

theorem references_all (expression template : Text → Node) (parts : List Text) :
    ((all parts).node expression template).references =
      parts.flatMap fun part => (expression part).references := by
  rw [← List.flatMap_map expression Node.references, ← Node.referencesOf_eq]
  rfl

theorem references_oneOf (expression template : Text → Node) (parts : List Text) :
    ((oneOf parts).node expression template).references =
      parts.flatMap fun part => (expression part).references :=
  references_all expression template parts

end Shape

/-! ## Texts without an opening square bracket -/

namespace Bracket

theorem pieces_subset {sep : Char} {t piece : Text} {depth : Int} (h : piece ∈ pieces sep depth t) :
    piece ⊆ t := by
  induction t generalizing piece depth with
  | nil =>
    rw [pieces, List.mem_singleton] at h
    exact h ▸ List.Subset.refl _
  | cons c t ih =>
    rw [pieces] at h
    split at h
    · rcases List.mem_cons.1 h with rfl | h
      · exact List.nil_subset _
      · exact List.subset_cons_of_subset c (ih h)
    · split at h
      · rw [List.mem_singleton.1 h]
        exact List.cons_subset_cons c (List.nil_subset t)
      · next first more hcuts =>
        rcases List.mem_cons.1 h with rfl | h
        · exact List.cons_subset_cons c (ih (hcuts ▸ List.mem_cons_self))
        · exact List.subset_cons_of_subset c (ih (hcuts ▸ List.mem_cons_of_mem _ h))

theorem operands_subset {sep : Char} {t operand : Text} (h : operand ∈ operands sep t) :
    operand ⊆ t := by
  rw [operands] at h
  obtain ⟨piece, hpiece, rfl⟩ := List.mem_map.1 (List.mem_filter.1 h).1
  exact List.Subset.trans (Text.trim_subset piece) (pieces_subset hpiece)

theorem headD_operands_subset {sep : Char} {t : Text} : (operands sep t).headD t ⊆ t := by
  cases hparts : operands sep t with
  | nil => exact List.Subset.refl t
  | cons part more => exact operands_subset (hparts ▸ List.mem_cons_self)

theorem mem_pieces {sep c : Char} (hsep : c ≠ sep) {t : Text} (depth : Int) (h : c ∈ t) :
    ∃ piece ∈ pieces sep depth t, c ∈ piece := by
  induction t generalizing depth with
  | nil => cases h
  | cons d t ih =>
    rw [pieces]
    split
    · next hd =>
      simp only [Bool.and_eq_true, beq_iff_eq] at hd
      rcases List.mem_cons.1 h with rfl | h
      · exact absurd hd.1.2 hsep
      · obtain ⟨piece, hpiece, hmem⟩ := ih depth h
        exact ⟨piece, List.mem_cons_of_mem _ hpiece, hmem⟩
    · split
      · next hnil =>
        rcases List.mem_cons.1 h with rfl | h
        · exact ⟨[c], List.mem_cons_self, List.mem_cons_self⟩
        · obtain ⟨piece, hpiece, -⟩ := ih (step depth d) h
          rw [hnil] at hpiece
          cases hpiece
      · next first more hcuts =>
        rcases List.mem_cons.1 h with rfl | h
        · exact ⟨c :: first, List.mem_cons_self, List.mem_cons_self⟩
        · obtain ⟨piece, hpiece, hmem⟩ := ih (step depth d) h
          rw [hcuts] at hpiece
          rcases List.mem_cons.1 hpiece with rfl | hpiece
          · exact ⟨d :: piece, List.mem_cons_self, List.mem_cons_of_mem d hmem⟩
          · exact ⟨piece, List.mem_cons_of_mem _ hpiece, hmem⟩

theorem not_mem_of_operands_eq_nil {sep c : Char} (hsep : c ≠ sep) (hsolid : ¬ Text.isBlank c)
    {t : Text} (hnil : operands sep t = []) : c ∉ t := by
  intro hmem
  obtain ⟨piece, hpiece, hc⟩ := mem_pieces hsep 0 hmem
  have htrim : c ∈ Text.trim piece := Text.mem_trim hsolid hc
  unfold operands at hnil
  have hempty := List.filter_eq_nil_iff.1 hnil _ (List.mem_map_of_mem hpiece)
  simp only [Bool.not_eq_true', List.isEmpty_eq_false_iff, ne_eq, Decidable.not_not] at hempty
  rw [hempty] at htrim
  cases htrim

end Bracket

theorem parenthesised?_eq {t body : Text} (h : parenthesised? t = some body) :
    t = '(' :: (body ++ [')']) ∧ enclosed? '(' ')' 0 (body ++ [')']) = some (body, []) := by
  unfold parenthesised? at h
  split at h
  · split at h
    · next hmatch =>
      cases h
      have htext := Bracket.enclosed?_eq hmatch
      rw [htext] at hmatch
      exact ⟨congrArg ('(' :: ·) htext, hmatch⟩
    · cases h
  · cases h

theorem parenthesised?_subset {t body : Text} (h : parenthesised? t = some body) : body ⊆ t := by
  obtain ⟨rfl, -⟩ := parenthesised?_eq h
  simp

theorem decorated?_mem {t : Text} {ref : Reference} (h : decorated? t = some ref) : '[' ∈ t := by
  unfold decorated? at h
  split at h
  · exact List.mem_cons_self
  · cases h

theorem Piece.raw_subset {t : Text} {piece : Piece} (h : piece ∈ Piece.split t) :
    piece.raw ⊆ t := by
  intro c hc
  rw [← Piece.flatMap_raw_split t]
  exact List.mem_flatMap.2 ⟨piece, h, hc⟩

theorem parenthesised?_of_ne {c : Char} (hc : c ≠ '(') (t : Text) :
    parenthesised? (c :: t) = none := by
  unfold parenthesised?
  split
  · next heq =>
    injection heq with hcons _
    exact absurd hcons hc
  · rfl

theorem decorated?_of_ne {c : Char} (hc : c ≠ '[') (t : Text) : decorated? (c :: t) = none := by
  unfold decorated?
  split
  · next heq =>
    injection heq with hcons _
    exact absurd hcons hc
  · rfl

theorem isDigit_of_numberRange? {t : Text} {range : UInt64 × UInt64}
    (h : numberRange? t = some range) {c : Char} (hc : c ∈ t) : c.isDigit ∨ c = '-' := by
  unfold numberRange? at h
  split at h
  · cases h
  · next low high hcut =>
    split at h
    · cases h
    · next hdigits =>
      simp only [Bool.or_eq_true, Bool.not_eq_true', not_or, Bool.not_eq_false,
        List.all_eq_true] at hdigits
      rcases Text.mem_of_cutAt? hcut hc with hdash | hlow | hhigh
      · exact .inr (beq_iff_eq.1 hdash)
      · exact .inl (hdigits.1.2 c hlow)
      · exact .inl (hdigits.2 c hhigh)

theorem not_mem_of_numberRange? {t : Text} {range : UInt64 × UInt64}
    (h : numberRange? t = some range) : '[' ∉ t := fun hmem =>
  absurd (isDigit_of_numberRange? h hmem) (by decide)

namespace Shape

theorem ofOperand_group {operand body : Text} (h : parenthesised? operand = some body) :
    ofOperand operand = .group body := by
  unfold ofOperand
  rw [h]

theorem ofOperand_of_mem {operand : Text} (hgroup : parenthesised? operand = none)
    (hmem : '[' ∈ operand) :
    ofOperand operand =
      match decorated? operand with
      | some ref => .leaf (.reference ref)
      | none => .prose operand := by
  unfold ofOperand
  rw [hgroup]
  dsimp only
  split
  · next hrange => exact absurd hmem (not_mem_of_numberRange? hrange)
  · split
    · next ha =>
      rw [ha] at hmem
      exact absurd hmem (by decide)
    · rw [List.contains_iff_mem.2 hmem, Bool.true_or, if_pos rfl]

/-- No part of a shape holds an opening square bracket. -/
def IsBare : Shape → Prop
  | .all parts => ∀ part ∈ parts, '[' ∉ part
  | .oneOf parts => ∀ part ∈ parts, '[' ∉ part
  | .group body => '[' ∉ body
  | .leaf node => node.references = []
  | .prose operand => '[' ∉ operand

theorem isBare_ofOperand {operand : Text} (h : '[' ∉ operand) : (ofOperand operand).IsBare := by
  unfold ofOperand
  split
  · next body hbody =>
    exact fun hmem => h (parenthesised?_subset hbody hmem)
  · split
    · rfl
    · split
      · rfl
      · split
        · split
          · next ref href => exact absurd (decorated?_mem href) h
          · exact h
        · rfl

theorem isBare_of {t : Text} (h : '[' ∉ t) : (of t).IsBare := by
  have hconjunct : '[' ∉ (operands '&' t).headD t := fun hmem => h (headD_operands_subset hmem)
  unfold of
  dsimp only
  split
  · exact fun part hpart hmem => h (operands_subset hpart hmem)
  · split
    · exact fun part hpart hmem => hconjunct (operands_subset hpart hmem)
    · exact isBare_ofOperand fun hmem => hconjunct (headD_operands_subset hmem)

end Shape

theorem Shape.references_of_isBare {expression template : Text → Node}
    (hexpression : ∀ t, '[' ∉ t → (expression t).references = [])
    (htemplate : ∀ t, '[' ∉ t → (template t).references = []) {shape : Shape} (h : shape.IsBare) :
    (shape.node expression template).references = [] := by
  cases shape with
  | all parts =>
    rw [references_all, List.flatMap_eq_nil_iff]
    exact fun part hpart => hexpression part (h part hpart)
  | oneOf parts =>
    rw [references_oneOf, List.flatMap_eq_nil_iff]
    exact fun part hpart => hexpression part (h part hpart)
  | group body => exact hexpression body h
  | leaf node => exact h
  | prose operand => exact htemplate operand h

theorem Piece.references_of_bare {reader : Text → Node}
    (h : ∀ t, '[' ∉ t → (reader t).references = []) {t : Text} (ht : '[' ∉ t) :
    (Node.concat ((Piece.split t).map (Piece.node reader))).references = [] := by
  rw [Piece.references_concat, List.flatMap_eq_nil_iff]
  intro piece hpiece
  have hbare : '[' ∉ piece.raw := fun hmem => ht (Piece.raw_subset hpiece hmem)
  cases piece with
  | literal c => rfl
  | bracketed body => exact absurd List.mem_cons_self hbare
  | braced body =>
    refine h body fun hmem => hbare ?_
    simp [raw, hmem]

theorem references_of_bare (depth : Nat) :
    (∀ t, '[' ∉ t → (readExpression depth t).references = []) ∧
      ∀ t, '[' ∉ t → (readTemplate depth t).references = [] := by
  induction depth with
  | zero =>
    refine ⟨fun t _ => ?_, fun t ht => ?_⟩
    · rw [readExpression]
      rfl
    · rw [readTemplate]
      exact Piece.references_of_bare (fun _ _ => rfl) ht
  | succ depth ih =>
    refine ⟨fun t ht => ?_, fun t ht => ?_⟩
    · rw [readExpression_succ]
      have hbare : '[' ∉ Text.trim t := fun hmem => ht (Text.trim_subset t hmem)
      exact Shape.references_of_isBare ih.1 ih.2 (Shape.isBare_of hbare)
    · rw [readTemplate]
      exact Piece.references_of_bare ih.1 ht

/-! ## Levels of nesting -/

theorem Shape.node_sublist {expression expression' template template' : Text → Node}
    (hexpression : ∀ t, (expression t).references.Sublist (expression' t).references)
    (htemplate : ∀ t, (template t).references.Sublist (template' t).references) (shape : Shape) :
    (shape.node expression template).references.Sublist
      (shape.node expression' template').references := by
  cases shape with
  | all parts =>
    rw [references_all, references_all]
    exact List.Sublist.flatMap_right parts fun part _ => hexpression part
  | oneOf parts =>
    rw [references_oneOf, references_oneOf]
    exact List.Sublist.flatMap_right parts fun part _ => hexpression part
  | group body => exact hexpression body
  | leaf node => exact List.Sublist.refl _
  | prose operand => exact htemplate operand

theorem Piece.node_sublist {reader reader' : Text → Node}
    (h : ∀ t, (reader t).references.Sublist (reader' t).references) (t : Text) :
    (Node.concat ((Piece.split t).map (Piece.node reader))).references.Sublist
      (Node.concat ((Piece.split t).map (Piece.node reader'))).references := by
  rw [Piece.references_concat, Piece.references_concat]
  refine List.Sublist.flatMap_right _ fun piece _ => ?_
  cases piece with
  | literal c => exact List.Sublist.refl _
  | bracketed body => exact List.Sublist.refl _
  | braced body => exact h body

theorem references_succ (depth : Nat) :
    (∀ t, (readExpression depth t).references.Sublist (readExpression (depth + 1) t).references) ∧
      ∀ t, (readTemplate depth t).references.Sublist (readTemplate (depth + 1) t).references := by
  induction depth with
  | zero =>
    refine ⟨fun t => ?_, fun t => ?_⟩
    · rw [readExpression]
      exact List.nil_sublist _
    · rw [readTemplate, readTemplate]
      refine Piece.node_sublist (fun body => ?_) t
      exact List.nil_sublist _
  | succ depth ih =>
    refine ⟨fun t => ?_, fun t => ?_⟩
    · rw [readExpression_succ, readExpression_succ]
      exact Shape.node_sublist ih.1 ih.2 _
    · rw [readTemplate, readTemplate]
      exact Piece.node_sublist ih.1 t

/-- The nesting limit only cuts references off. -/
theorem references_readTemplate_mono {depth depth' : Nat} (h : depth ≤ depth') (t : Text) :
    (readTemplate depth t).references.Sublist (readTemplate depth' t).references := by
  induction h with
  | refl => exact List.Sublist.refl _
  | step _ ih => exact ih.trans ((references_succ _).2 t)

end RandomTables
