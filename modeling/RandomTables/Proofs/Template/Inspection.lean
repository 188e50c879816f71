import RandomTables.Proofs.Template.Agreement

/-! # Inspection

The references of the tokens of a template against those of its tree.
-/

namespace RandomTables

open RandomTables.Bracket RandomTables.Token

/-- Outside braces no clauses are taken, and the scan enters braces with nothing left over. -/
theorem flat_split {t : Text} (hinside : ∀ body, .braced body ∈ Piece.split t → FindsInside body)
    (last : Option Char) : flat 0 last t = (Piece.split t).flatMap Piece.scanned := by
  induction t using Piece.split.induct generalizing last with
  | case1 => rw [flat_nil, Piece.split_nil, List.flatMap_nil]
  | case2 t body rest hmatch ih =>
    rw [Piece.split_bracketed hmatch] at hinside ⊢
    have htext : '[' :: t = (Piece.bracketed body).raw ++ ([] ++ rest) := by
      simp [Piece.raw, enclosed?_eq hmatch]
    have hclosed : (Piece.bracketed body).IsClosed := enclosed?_behind hmatch []
    have hnone : taken 0 last ([] ++ rest) = [] := rfl
    rw [htext, Piece.flat_bracketed rest hclosed hnone (by simp) (by rw [List.append_nil]),
      Nat.zero_sub, List.flatMap_cons, List.nil_append,
      ih fun inner hinner => hinside inner (List.mem_cons_of_mem _ hinner)]
    rfl
  | case3 t hmatch ih =>
    have hsplit := Piece.split_literal (c := '[') (fun _ => hmatch) (absurd · (by decide))
    rw [hsplit] at hinside ⊢
    rw [flat_step (by rw [if_pos rfl, hmatch]), bracedLength_of_ne (by decide)]
    exact ih (fun inner hinner => hinside inner (List.mem_cons_of_mem _ hinner)) _
  | case4 t body rest hmatch _ ih =>
    rw [Piece.split_braced hmatch] at hinside ⊢
    have htext : '{' :: t = (Piece.braced body).raw ++ rest := by
      simp [Piece.raw, enclosed?_eq hmatch]
    have hclosed : (Piece.braced body).IsClosed := enclosed?_behind hmatch []
    rw [htext, Piece.flat_braced rest hclosed (hinside body List.mem_cons_self), Nat.zero_sub,
      List.flatMap_cons, ih fun inner hinner => hinside inner (List.mem_cons_of_mem _ hinner)]
    rfl
  | case5 t hmatch _ ih =>
    have hsplit := Piece.split_literal (c := '{') (absurd · (by decide)) (fun _ => hmatch)
    rw [hsplit] at hinside ⊢
    rw [flat_step (if_neg (by decide)), bracedLength_of_none hmatch]
    exact ih (fun inner hinner => hinside inner (List.mem_cons_of_mem _ hinner)) _
  | case6 c t hsquare hcurly ih =>
    rw [Piece.split_literal (absurd · hsquare) (absurd · hcurly)] at hinside ⊢
    rw [flat_step (if_neg hsquare), bracedLength_of_ne hcurly]
    exact ih (fun inner hinner => hinside inner (List.mem_cons_of_mem _ hinner)) _

/-- The outermost braces of a template hold no reference, or an expression with clear operands of at
most this height. -/
def IsClear (height : Nat) (t : Text) : Prop :=
  ∀ body, Piece.braced body ∈ Piece.split t → '[' ∈ body →
    ∀ operand ∈ cutOperands body, IsClearOperand height operand

namespace IsClear

variable {height : Nat} {t : Text}

theorem agrees (h : IsClear height t) {body : Text} (hbody : .braced body ∈ Piece.split t)
    (hmem : '[' ∈ body) : ∀ operand ∈ cutOperands body, Agrees (4 * height) operand :=
  fun operand hoperand =>
    (h body hbody hmem operand hoperand).agrees (isLone_of_mem_cutOperands hoperand)

theorem scanned (h : IsClear height t) :
    (tokens t).map (·.reference) = (Piece.split t).flatMap Piece.scanned := by
  refine flat_split (fun body hbody => ?_) none
  by_cases hmem : '[' ∈ body
  · exact (Agrees.finds (h.agrees hbody hmem)).inside
  · exact findsInside_of_not_mem (Piece.isClosed_of_mem_split _ hbody) hmem

end IsClear

theorem references_readTemplate {t : Text} {height depth : Nat} (hclear : IsClear height t)
    (hdepth : 4 * height + 4 ≤ depth) :
    (readTemplate depth t).references = (tokens t).map (·.reference) := by
  rw [hclear.scanned]
  refine Piece.references_readTemplate fun body hbody hmem => ?_
  exact ⟨depth - 1, by omega, Agrees.references (hclear.agrees hbody hmem) (by omega)⟩

/-- Tokens and tree have the same references if the braces are clear, up to the nesting limit, which
only cuts references off the tree. They differ exactly if it does. -/
theorem tokens_references {t : Text} {height : Nat} (hclear : IsClear height t) :
    (∀ depth, 4 * height + 4 ≤ depth →
      (readTemplate depth t).references = (tokens t).map (·.reference)) ∧
    (parse t).references.Sublist ((tokens t).map (·.reference)) ∧
    ((tokens t).map (·.reference) = (parse t).references ↔
      ∀ depth, nestingLimit ≤ depth →
        (readTemplate depth t).references = (parse t).references) := by
  have hall (depth : Nat) (hdepth : 4 * height + 4 ≤ depth) :=
    references_readTemplate hclear hdepth
  have htokens := hall (max nestingLimit (4 * height + 4)) (Nat.le_max_right _ _)
  have hsub := references_readTemplate_mono (Nat.le_max_left nestingLimit (4 * height + 4)) t
  refine ⟨hall, htokens ▸ hsub, fun hsame depth hdepth => ?_, fun hcut => ?_⟩
  · have hlower := references_readTemplate_mono hdepth t
    have hupper := references_readTemplate_mono (Nat.le_max_left depth (4 * height + 4)) t
    rw [hall _ (Nat.le_max_right _ _), hsame] at hupper
    exact hupper.antisymm hlower
  · rw [← htokens]
    exact hcut _ (Nat.le_max_left _ _)

theorem tokens_references_grouped :
    IsClear 1 "\x7b([a]|[b]?)&c\x7d\x7b[a] :) | [b]\x7d".toList ∧ 4 * 1 + 4 ≤ nestingLimit ∧
      (parse "\x7b([a]|[b]?)&c\x7d\x7b[a] :) | [b]\x7d".toList).references =
        (tokens "\x7b([a]|[b]?)&c\x7d\x7b[a] :) | [b]\x7d".toList).map (·.reference) := by
  have hsplit : Piece.split "\x7b([a]|[b]?)&c\x7d\x7b[a] :) | [b]\x7d".toList =
      [.braced "([a]|[b]?)&c".toList, .braced "[a] :) | [b]".toList] := by cbv
  have hclear : IsClear 1 "\x7b([a]|[b]?)&c\x7d\x7b[a] :) | [b]\x7d".toList := by
    rw [IsClear, hsplit]
    intro body hbody _ operand hoperand
    rcases List.mem_cons.1 hbody with hbody | hbody
    · cases hbody
      let forest : Forest := .enclosed .round (.enclosed .square (.plain 'a' .nil) (.plain '|'
        (.enclosed .square (.plain 'b' .nil) (.plain '?' .nil)))) (.plain '&' (.plain 'c' .nil))
      have hforest : forest.clear false true := by decide +kernel
      exact forest.isClearOperand hforest (by decide) hoperand
    · cases List.mem_singleton.1 hbody
      have hone : cutOperands "[a] :) | [b]".toList = ["[a] :) | [b]".toList] := by decide
      rw [hone, List.mem_singleton] at hoperand
      subst hoperand
      -- The stray parenthesis keeps the operator from cutting, so all of the braces are prose.
      have hpieces : Piece.split "[a] :) | [b]".toList = [.bracketed ['a'], .literal ' ',
          .literal ':', .literal ')', .literal ' ', .literal '|', .literal ' ', .bracketed ['b']] := by
        cbv
      refine .prose rfl (by decide) ?_ ?_ ?_ <;> rw [hpieces]
      · have hend (tail : Text) (htail : IsEnd tail) : clauseSuffix tail = [] :=
          Forest.nil.clauseSuffix_append htail
        have hlast (opens : Bool) : Piece.IsProse opens [.bracketed ['b']] :=
          Piece.isProse_bracketed hend trivial
        refine Piece.isProse_bracketed (fun _ _ => rfl) ?_
        simpa only [Piece.IsProse, ne_eq, Char.reduceEq, not_false_iff, true_and] using hlast _
      · simp
      · simp
  exact ⟨hclear, by decide, (tokens_references hclear).1 nestingLimit (by decide)⟩

/-- Braces below the nesting limit are text in the tree, and the scan still reads them. It also
takes clauses behind a parenthesis in prose and behind an operator below a stray parenthesis, reads
on through brackets that overlap, and passes over the clauses of an unusable reference. -/
theorem tokens_references_differ :
    ((tokens (List.replicate 33 '{' ++ "[a]".toList ++ List.replicate 33 '}')).map (·.reference) =
        [{ path := ['a'] }] ∧
      (parse (List.replicate 33 '{' ++ "[a]".toList ++ List.replicate 33 '}')).references = []) ∧
    ∀ t ∈ ["\x7bx ([a]?)\x7d".toList, "\x7bx) | [a]?\x7d".toList, "\x7b[a\x7d]".toList,
        "\x7b[]*\x7b[a]\x7d\x7d".toList],
      (tokens t).map (·.reference) ≠ (parse t).references := by
  refine ⟨⟨?_, ?_⟩, ?_⟩ <;> decide +kernel

end RandomTables
