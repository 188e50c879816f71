import RandomTables.Proofs.Template.Region

/-! # Valid templates

What is read from a valid template keeps no bracket as text, as long as the nesting limit leaves the
tree whole.
-/

namespace RandomTables

open RandomTables.Bracket

/-! ## Texts without brackets -/

/-- A text of the tree holds no square bracket and no brace. -/
def Node.IsBracketFree : Node → Prop
  | .text value => ∀ c ∈ value, ¬ isHard c
  | _ => True

instance : DecidablePred Node.IsBracketFree
  | .text value => List.decidableBAll (fun c => ¬ isHard c) value
  | .reference _ => inferInstanceAs (Decidable True)
  | .all _ => inferInstanceAs (Decidable True)
  | .oneOf _ => inferInstanceAs (Decidable True)
  | .group _ => inferInstanceAs (Decidable True)
  | .number _ _ => inferInstanceAs (Decidable True)
  | .article => inferInstanceAs (Decidable True)
  | .sequence _ => inferInstanceAs (Decidable True)

theorem IsSound.soft {t : Text} (h : IsSound t) (hsquare : '[' ∉ t) (hcurly : '{' ∉ t) :
    ∀ c ∈ t, ¬ isHard c := by
  intro c hc
  have hmem := hc
  rw [← Piece.flatMap_raw_split t] at hc
  obtain ⟨piece, hpiece, hraw⟩ := List.mem_flatMap.1 hc
  have hsubset := Piece.raw_subset hpiece
  cases h piece hpiece with
  | literal hsoft =>
    rw [List.mem_singleton.1 hraw]
    exact hsoft
  | bracketed _ _ => exact absurd (hsubset List.mem_cons_self) hsquare
  | braced _ _ _ => exact absurd (hsubset List.mem_cons_self) hcurly

open Node in
theorem Node.bracketFree_joinTexts {nodes : List Node}
    (h : ∀ node ∈ nodes, node.Everywhere IsBracketFree) :
    ∀ node ∈ joinTexts nodes, node.Everywhere IsBracketFree := by
  induction nodes with
  | nil => exact h
  | cons node rest ih =>
    obtain ⟨hnode, hrest⟩ := List.forall_mem_cons.1 h
    specialize ih hrest
    cases node with
    | text s =>
      rcases joinTexts_text s rest with ⟨t, more, hjoin, heq⟩ | ⟨-, heq⟩
      · rw [hjoin] at ih
        obtain ⟨ht, hmore⟩ := List.forall_mem_cons.1 ih
        rw [everywhere_text] at hnode ht
        rw [heq]
        exact List.forall_mem_cons.2 ⟨everywhere_text.2 (List.forall_mem_append.2 ⟨hnode, ht⟩), hmore⟩
      · rw [heq]
        split
        · exact ih
        · exact List.forall_mem_cons.2 ⟨hnode, ih⟩
    | _ =>
      rw [joinTexts_of_not_isText rfl]
      exact List.forall_mem_cons.2 ⟨hnode, ih⟩

open Node in
theorem Node.bracketFree_concat {nodes : List Node}
    (h : ∀ node ∈ nodes, node.Everywhere IsBracketFree) : (concat nodes).Everywhere IsBracketFree := by
  have hjoin := bracketFree_joinTexts h
  unfold concat
  split
  · exact everywhere_text.2 (List.forall_mem_nil _)
  · next node heq => exact hjoin node (heq ▸ List.mem_cons_self)
  · exact everywhere_sequence.2 ⟨trivial, hjoin⟩

/-! ## Levels -/

/-- What makes levels of nesting. -/
def isStructural (c : Char) : Bool :=
  c == '{' || c == '}' || c == '(' || c == ')' || isOperator c

/-- Reading needs no more levels of nesting than the text has braces, parentheses and operators. -/
def levels (t : Text) : Nat := t.countP isStructural

theorem levels_append (s t : Text) : levels (s ++ t) = levels s + levels t := List.countP_append

theorem levels_trim_le (t : Text) : levels (Text.trim t) ≤ levels t := by
  obtain ⟨before, after, ht, -, -⟩ := Text.trim_between t
  have hlevels := congrArg levels ht
  rw [levels_append, levels_append] at hlevels
  omega

theorem Bracket.levels_pieces {sep : Char} (hsep : isOperator sep) {t piece : Text} {depth : Int}
    (h : piece ∈ pieces sep depth t) : levels piece + (pieces sep depth t).length ≤ levels t + 1 := by
  induction t generalizing piece depth with
  | nil =>
    rw [pieces, List.mem_singleton] at h
    rw [h]
    rfl
  | cons c t ih =>
    have hcons (s : Text) : levels (c :: s) = levels [c] + levels s := levels_append [c] s
    rw [pieces_cons] at h ⊢
    split at h
    · next hcut =>
      have hc : levels [c] = 1 := by simp [levels, isStructural, hcut.2.1, hsep]
      rw [if_pos hcut, List.length_cons, hcons, hc]
      rcases List.mem_cons.1 h with rfl | h
      · obtain ⟨first, more, hcuts⟩ := List.exists_cons_of_ne_nil (pieces_ne_nil sep depth t)
        have hfirst : first ∈ pieces sep depth t := hcuts ▸ List.mem_cons_self
        have hnil : levels [] = 0 := rfl
        have := ih hfirst
        omega
      · have := ih h
        omega
    · next hother =>
      obtain ⟨first, more, hcuts⟩ :=
        List.exists_cons_of_ne_nil (pieces_ne_nil sep (step depth c) t)
      have hpieces : ∀ cut ∈ first :: more, levels cut + (first :: more).length ≤ levels t + 1 :=
        hcuts ▸ fun cut hcut => ih hcut
      rw [if_neg hother, hcuts, hcons]
      rw [hcuts] at h
      simp only [glue, List.singleton_append, List.mem_cons, List.length_cons] at h hpieces ⊢
      rcases h with rfl | h
      · have := hpieces first (.inl rfl)
        rw [hcons]
        omega
      · have := hpieces piece (.inr h)
        omega

theorem Bracket.levels_operands {sep : Char} (hsep : isOperator sep) {t part : Text}
    (h : part ∈ operands sep t) : levels part + (operands sep t).length ≤ levels t + 1 := by
  have hle : (operands sep t).length ≤ (pieces sep 0 t).length := by
    have hmap : ((pieces sep 0 t).map Text.trim).length = (pieces sep 0 t).length :=
      List.length_map _
    rw [← hmap]
    exact List.length_filter_le _ _
  obtain ⟨piece, hpiece, rfl⟩ := List.mem_map.1 (List.mem_filter.1 h).1
  have hpieces := levels_pieces hsep hpiece
  have htrim := levels_trim_le piece
  omega

theorem Bracket.levels_headD_operands {sep : Char} (hsep : isOperator sep) (t : Text) :
    levels ((operands sep t).headD t) ≤ levels t := by
  cases hparts : operands sep t with
  | nil => exact Nat.le_refl _
  | cons part more =>
    have hpart : part ∈ operands sep t := hparts ▸ List.mem_cons_self
    have := levels_operands hsep hpart
    rw [hparts, List.length_cons] at this
    rw [List.headD_cons]
    omega

theorem Piece.levels_raw_le {t : Text} {piece : Piece} (h : piece ∈ Piece.split t) :
    levels piece.raw ≤ levels t := by
  obtain ⟨before, behind, hsplit⟩ := List.append_of_mem h
  have htext := congrArg levels (Piece.flatMap_raw_split t)
  rw [hsplit, List.flatMap_append, List.flatMap_cons, levels_append, levels_append] at htext
  omega

theorem levels_enclosed {kind : Kind} (hkind : kind ≠ .square) (body : Text) :
    levels (kind.opening :: (body ++ [kind.closing])) = levels body + 2 := by
  have hbrackets : levels [kind.opening] = 1 ∧ levels [kind.closing] = 1 := by
    cases kind with
    | square => exact absurd rfl hkind
    | _ => exact ⟨rfl, rfl⟩
  have htext : levels ([kind.opening] ++ (body ++ [kind.closing])) = levels body + 2 := by
    rw [levels_append, levels_append, hbrackets.1, hbrackets.2, Nat.add_comm]
  exact htext

/-! ## Reading -/

namespace Shape

/-- The parts of a shape are uncut and get shorter. -/
def IsUncut (bound : Nat) : Shape → Prop
  | .all parts => ∀ part ∈ parts, RandomTables.IsUncut part ∧ levels part < bound
  | .oneOf parts => ∀ part ∈ parts, RandomTables.IsUncut part ∧ levels part < bound
  | .group body => RandomTables.IsUncut body ∧ levels body < bound
  | .leaf node => node.Everywhere Node.IsBracketFree
  | .prose operand => IsSound operand ∧ levels operand ≤ bound

variable {t : Text} {bound : Nat}

theorem isUncut_ofOperand (h : RandomTables.IsUncut t) (hbound : levels t ≤ bound) :
    (ofOperand t).IsUncut bound := by
  unfold ofOperand
  split
  · next body hbody =>
    refine ⟨h.group hbody, ?_⟩
    have hlevels : levels t = levels body + 2 := by
      rw [(parenthesised?_eq hbody).1]
      exact levels_enclosed (by decide : Kind.round ≠ .square) body
    omega
  · split
    · exact Node.everywhere_number.2 trivial
    · split
      · exact Node.everywhere_article.2 trivial
      · split
        · split
          · exact Node.everywhere_reference.2 trivial
          · exact ⟨h.sound, hbound⟩
        · next hbrackets =>
          simp only [Bool.or_eq_true, List.contains_iff_mem, not_or] at hbrackets
          exact Node.everywhere_text.2 (h.sound.soft hbrackets.1 hbrackets.2)

theorem isUncut_operands {sep : Char} (hsep : isOperator sep) (h : RandomTables.IsUncut t)
    (hbound : levels t ≤ bound) (htwo : 2 ≤ (operands sep t).length) :
    ∀ part ∈ operands sep t, RandomTables.IsUncut part ∧ levels part < bound := by
  intro part hpart
  have := levels_operands hsep hpart
  exact ⟨h.operand hsep hpart, by omega⟩

theorem isUncut_of (h : RandomTables.IsUncut t) (hbound : levels t ≤ bound) :
    (Shape.of t).IsUncut bound := by
  have hand : isOperator '&' := by decide
  have hor : isOperator '|' := by decide
  have hconjunct := h.headD_operands hand
  have hlevels := Nat.le_trans (levels_headD_operands hand t) hbound
  unfold Shape.of
  dsimp only
  split
  · next htwo => exact isUncut_operands hand h hbound htwo
  · split
    · next htwo => exact isUncut_operands hor hconjunct hlevels htwo
    · exact isUncut_ofOperand (hconjunct.headD_operands hor)
        (Nat.le_trans (levels_headD_operands hor _) hlevels)

theorem bracketFree_node {expression template : Text → Node} {shape : Shape}
    (h : shape.IsUncut bound)
    (hexpression : ∀ t, RandomTables.IsUncut t → levels t < bound →
      (expression t).Everywhere Node.IsBracketFree)
    (htemplate : ∀ t, IsSound t → levels t ≤ bound →
      (template t).Everywhere Node.IsBracketFree) :
    (shape.node expression template).Everywhere Node.IsBracketFree := by
  have hmap {parts : List Text}
      (hparts : ∀ part ∈ parts, RandomTables.IsUncut part ∧ levels part < bound) :
      ∀ node ∈ parts.map expression, node.Everywhere Node.IsBracketFree :=
    List.forall_mem_map.2 fun part hpart => hexpression part (hparts part hpart).1 (hparts part hpart).2
  cases shape with
  | all parts => exact Node.everywhere_all.2 ⟨trivial, hmap h⟩
  | oneOf parts => exact Node.everywhere_oneOf.2 ⟨trivial, hmap h⟩
  | group body => exact Node.everywhere_group.2 ⟨trivial, hexpression body h.1 h.2⟩
  | leaf node => exact h
  | prose operand => exact htemplate operand h.1 h.2

end Shape

theorem Piece.bracketFree_node {reader : Text → Node} {piece : Piece} (h : piece.Sound)
    (hreader : ∀ body, piece = .braced body → IsUncut body →
      (reader body).Everywhere Node.IsBracketFree) :
    (piece.node reader).Everywhere Node.IsBracketFree := by
  cases h with
  | literal hc => exact Node.everywhere_text.2 (List.forall_mem_singleton.2 hc)
  | bracketed _ href =>
    obtain ⟨ref, href⟩ := Option.isSome_iff_exists.1 href
    rw [Piece.node, href]
    exact Node.everywhere_reference.2 trivial
  | braced _ huncut hsound => exact hreader _ rfl ⟨hsound, huncut⟩

theorem Piece.bracketFree_concat {reader : Text → Node} {t : Text} (h : IsSound t)
    (hreader : ∀ body, IsUncut body → levels body + 2 ≤ levels t →
      (reader body).Everywhere Node.IsBracketFree) :
    (Node.concat ((Piece.split t).map (Piece.node reader))).Everywhere Node.IsBracketFree := by
  apply Node.bracketFree_concat
  rw [List.forall_mem_map]
  intro piece hpiece
  apply Piece.bracketFree_node (h piece hpiece)
  rintro body rfl hbody
  have hraw : levels (Piece.braced body).raw = levels body + 2 :=
    levels_enclosed (by decide : Kind.curly ≠ .square) body
  exact hreader body hbody (hraw ▸ Piece.levels_raw_le hpiece)

/-- An expression may need one level more than its text has structure: the one for a lone operand. -/
theorem bracketFree_read (depth : Nat) :
    (∀ t, IsUncut t → levels t < depth → (readExpression depth t).Everywhere Node.IsBracketFree) ∧
      ∀ t, IsSound t → levels t ≤ depth → (readTemplate depth t).Everywhere Node.IsBracketFree := by
  induction depth with
  | zero =>
    refine ⟨fun t _ hlevels => absurd hlevels (Nat.not_lt_zero _), fun t hsound hlevels => ?_⟩
    rw [readTemplate]
    apply Piece.bracketFree_concat hsound
    intro body _ hbody
    exact absurd (Nat.le_trans hbody hlevels) (Nat.not_succ_le_zero _)
  | succ depth ih =>
    refine ⟨fun t huncut hlevels => ?_, fun t hsound hlevels => ?_⟩
    · rw [readExpression_succ]
      have htrim := Nat.le_trans (levels_trim_le t) (Nat.le_of_lt_succ hlevels)
      exact Shape.bracketFree_node (Shape.isUncut_of huncut.trim htrim) ih.1 ih.2
    · rw [readTemplate]
      apply Piece.bracketFree_concat hsound
      exact fun body hbody hless => ih.1 body hbody (by omega)

/-- What is read from a valid template keeps no bracket as text, unless the nesting limit cuts the tree
off. -/
theorem parse_bracketFree {t : Text} (hvalid : (check t).valid) (hwhole : Whole t) :
    (∀ depth, levels t ≤ depth → (readTemplate depth t).Everywhere Node.IsBracketFree) ∧
      ((∃ depth, levels t ≤ depth ∧ readTemplate depth t = parse t) →
        (parse t).Everywhere Node.IsBracketFree) := by
  have hsound := isSound_of_valid hvalid hwhole
  have hread (depth : Nat) (hdepth : levels t ≤ depth) :
      (readTemplate depth t).Everywhere Node.IsBracketFree :=
    (bracketFree_read depth).2 t hsound hdepth
  refine ⟨hread, ?_⟩
  rintro ⟨depth, hdepth, hlimit⟩
  rw [← hlimit]
  exact hread depth hdepth

theorem parse_bracketFree_grouped :
    (check "\x7b([a]|b)&2-3\x7d [c]".toList).valid ∧ Whole "\x7b([a]|b)&2-3\x7d [c]".toList ∧
      (parse "\x7b([a]|b)&2-3\x7d [c]".toList).Everywhere Node.IsBracketFree := by
  have hvalid : (check "\x7b([a]|b)&2-3\x7d [c]".toList).valid := by decide +kernel
  have hinner : Piece.split "([a]|b)&2-3".toList = [.literal '(', .bracketed ['a'], .literal '|',
      .literal 'b', .literal ')', .literal '&', .literal '2', .literal '-', .literal '3'] := by
    with_unfolding_all rfl
  have hsplit : Piece.split "\x7b([a]|b)&2-3\x7d [c]".toList =
      [.braced "([a]|b)&2-3".toList, .literal ' ', .bracketed ['c']] := by
    with_unfolding_all rfl
  have hwhole : Whole "\x7b([a]|b)&2-3\x7d [c]".toList := by
    have hbody (body : Text) (hmem : .braced body ∈ Piece.split "\x7b([a]|b)&2-3\x7d [c]".toList) :
        body = "([a]|b)&2-3".toList := by
      rw [hsplit] at hmem
      simpa using hmem
    refine ⟨fun body hmem => ?_, fun body hmem => ⟨fun inner hmem' => ?_, fun inner hmem' => ?_⟩⟩
    · rw [hbody body hmem, hinner]
      decide
    · rw [hbody body hmem, hinner] at hmem'
      simp at hmem'
    · rw [hbody body hmem, hinner] at hmem'
      simp at hmem'
  exact ⟨hvalid, hwhole, (parse_bracketFree hvalid hwhole).2 ⟨nestingLimit, by decide, rfl⟩⟩

/-- Braces below the nesting limit stay text, and a parenthesis that closes nothing lets an operator cut
a reference. -/
theorem valid_not_bracketFree :
    ((check (List.replicate 33 '{' ++ "[a]".toList ++ List.replicate 33 '}')).valid ∧
      ¬ (parse (List.replicate 33 '{' ++ "[a]".toList ++ List.replicate 33 '}')).Everywhere
        Node.IsBracketFree) ∧
    (check "\x7b)[a&b]\x7d".toList).valid ∧
      ¬ (parse "\x7b)[a&b]\x7d".toList).Everywhere Node.IsBracketFree := by
  decide +kernel

end RandomTables
