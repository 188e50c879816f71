import RandomTables.Proofs.Template.Part
import RandomTables.Proofs.Template.Tree

/-! # Checked regions

The check goes through all regions of a balanced text, and into the braces. In a valid template
every region is read as what it stands for, unless an operator cuts it.
-/

namespace RandomTables

open RandomTables.Bracket

/-! ## Pieces in braces -/

/-- A piece of the text, or of what stands in braces in it. -/
inductive HasPiece (piece : Piece) : Text → Prop where
  | here {t : Text} (h : piece ∈ Piece.split t) : HasPiece piece t
  | inside {t body : Text} (hbody : .braced body ∈ Piece.split t) (h : HasPiece piece body) :
      HasPiece piece t

theorem hasPiece_cons {piece first : Piece} {t rest : Text}
    (hsplit : Piece.split t = first :: Piece.split rest) :
    HasPiece piece t ↔
      (piece = first ∨ ∃ body, first = .braced body ∧ HasPiece piece body) ∨ HasPiece piece rest := by
  constructor
  · rintro (hmem | ⟨hbody, hinner⟩)
    · rw [hsplit, List.mem_cons] at hmem
      exact hmem.imp .inl .here
    · rw [hsplit, List.mem_cons] at hbody
      rcases hbody with hfirst | hrest
      · exact .inl (.inr ⟨_, hfirst.symm, hinner⟩)
      · exact .inr (.inside hrest hinner)
  · rintro ((rfl | ⟨body, rfl, hinner⟩) | (hmem | ⟨hbody, hinner⟩))
    · exact .here (hsplit ▸ List.mem_cons_self)
    · exact .inside (hsplit ▸ List.mem_cons_self) hinner
    · exact .here (hsplit ▸ List.mem_cons_of_mem _ hmem)
    · exact .inside (hsplit ▸ List.mem_cons_of_mem _ hbody) hinner

theorem HasPiece.of_subset {piece : Piece} {s t : Text} (h : HasPiece piece s)
    (hsubset : Piece.split s ⊆ Piece.split t) : HasPiece piece t := by
  cases h with
  | here hmem => exact .here (hsubset hmem)
  | inside hbody hinner => exact .inside (hsubset hbody) hinner

theorem not_hasPiece_nil (piece : Piece) : ¬ HasPiece piece [] := by
  rintro (hmem | ⟨hbody, -⟩)
  · rw [Piece.split_nil] at hmem
    cases hmem
  · rw [Piece.split_nil] at hbody
    cases hbody

/-! ## What the check of the regions finds -/

namespace Issue

theorem regions_bracketed {t body rest : Text} (h : enclosed? '[' ']' 0 t = some (body, rest))
    (position : Nat) :
    regions position ('[' :: t) =
      reference position body ++ regions (position + body.length + 2) rest := by
  rw [regions]
  split
  · next hsome =>
    rw [if_pos rfl, h] at hsome
    cases hsome
    rfl
  · next hnone =>
    rw [if_pos rfl, h] at hnone
    cases hnone

theorem regions_braced {t body rest : Text} (h : enclosed? '{' '}' 0 t = some (body, rest))
    (position : Nat) :
    regions position ('{' :: t) = expression body ++ regions (position + 1) t := by
  have hsquare : ¬ '{' = '[' := by decide
  rw [regions, if_neg hsquare, if_pos rfl, h]

theorem regions_other {c : Char} (hsquare : c ≠ '[') (hcurly : c ≠ '{') (position : Nat) (t : Text) :
    regions position (c :: t) = regions (position + 1) t := by
  rw [regions, if_neg hsquare, if_neg hcurly]

theorem regions_square {body : Text} (h : Balanced Kind.IsHard body) (position : Nat) (rest : Text) :
    regions position ('[' :: body ++ ']' :: rest) =
      reference position body ++ regions (position + body.length + 2) rest :=
  regions_bracketed (h.enclosed?_eq (by decide : Kind.square.IsHard) rest) position

theorem regions_append {t : Text} (h : Balanced Kind.IsHard t) (position : Nat) (tail : Text) :
    regions position (t ++ tail) = regions position t ++ regions (position + t.length) tail := by
  induction h generalizing position tail with
  | nil => rw [regions, List.nil_append, List.nil_append, List.length_nil, Nat.add_zero]
  | @soft c t hc _ ih =>
    have hsquare := (hc .square (by decide)).1
    have hcurly := (hc .curly (by decide)).1
    rw [List.cons_append, regions_other hsquare hcurly, regions_other hsquare hcurly, ih,
      List.length_cons, Nat.add_right_comm, Nat.add_assoc]
  | @enclosed kind body rest hkind hbody _ ihbody ihrest =>
    have hmatch (behind : Text) := hbody.enclosed?_eq hkind behind
    simp only [List.append_assoc, List.cons_append, List.length_cons, List.length_append]
    cases kind with
    | square =>
      rw [Kind.opening, Kind.closing] at hmatch ⊢
      rw [regions_bracketed (hmatch _), regions_bracketed (hmatch _), ihrest, List.append_assoc]
      congr 3
      omega
    | curly =>
      rw [Kind.opening, Kind.closing] at hmatch ⊢
      rw [regions_braced (hmatch _), regions_braced (hmatch _), ihbody, ihbody,
        regions_other (by decide) (by decide), regions_other (by decide) (by decide), ihrest]
      simp only [List.append_assoc]
      congr 4
      omega
    | round => exact absurd rfl hkind

theorem regions_curly {body : Text} (h : Balanced Kind.IsHard body) (position : Nat) (rest : Text) :
    regions position ('{' :: body ++ '}' :: rest) =
      expression body ++ regions (position + 1) body ++
        regions (position + body.length + 2) rest := by
  have hmatch := h.enclosed?_eq (by decide : Kind.curly.IsHard) rest
  rw [Kind.opening, Kind.closing] at hmatch
  rw [List.cons_append, regions_braced hmatch, regions_append h,
    regions_other (by decide) (by decide), List.append_assoc]
  congr 3
  omega

def ofPiece (position : Nat) : Piece → List Issue
  | .literal _ => []
  | .bracketed body => reference position body
  | .braced body => expression body

/-- The issues are those of these pieces, wherever they start. -/
structure AreOf (found : List Issue) (pieces : Piece → Prop) : Prop where
  all : ∀ piece, pieces piece → ∃ start, ofPiece start piece ⊆ found
  only : ∀ issue ∈ found, ∃ piece start, pieces piece ∧ issue ∈ ofPiece start piece

namespace AreOf

variable {found more : List Issue} {p q : Piece → Prop}

theorem single (position : Nat) (piece : Piece) : AreOf (ofPiece position piece) (· = piece) where
  all := by
    rintro _ rfl
    exact ⟨position, List.Subset.refl _⟩
  only := fun _ hissue => ⟨piece, position, rfl, hissue⟩

theorem append (h : AreOf found p) (hmore : AreOf more q) :
    AreOf (found ++ more) fun piece => p piece ∨ q piece where
  all := by
    rintro piece (hpiece | hpiece)
    · obtain ⟨start, hsub⟩ := h.all piece hpiece
      exact ⟨start, List.subset_append_of_subset_left _ hsub⟩
    · obtain ⟨start, hsub⟩ := hmore.all piece hpiece
      exact ⟨start, List.subset_append_of_subset_right _ hsub⟩
  only := by
    intro issue hissue
    rcases List.mem_append.1 hissue with hissue | hissue
    · obtain ⟨piece, start, hpiece, hmem⟩ := h.only issue hissue
      exact ⟨piece, start, .inl hpiece, hmem⟩
    · obtain ⟨piece, start, hpiece, hmem⟩ := hmore.only issue hissue
      exact ⟨piece, start, .inr hpiece, hmem⟩

theorem congr (h : AreOf found p) (hiff : ∀ piece, q piece ↔ p piece) : AreOf found q := by
  rwa [show q = p from funext fun piece => propext (hiff piece)]

end AreOf

/-- The check finds the issues of all pieces, and no others. -/
theorem areOf_regions {t : Text} (h : Balanced Kind.IsHard t) (position : Nat) :
    AreOf (regions position t) (HasPiece · t) := by
  induction h generalizing position with
  | nil =>
    rw [regions]
    exact ⟨fun piece hpiece => absurd hpiece (not_hasPiece_nil piece), List.forall_mem_nil _⟩
  | @soft c t hc _ ih =>
    rw [regions_other (hc .square (by decide)).1 (hc .curly (by decide)).1]
    refine ((AreOf.single position (.literal c)).append (ih (position + 1))).congr fun piece => ?_
    rw [hasPiece_cons (Piece.split_soft (not_isHard_iff.2 hc) t)]
    simp
  | @enclosed kind body rest hkind hbody _ ihbody ihrest =>
    cases kind with
    | square =>
      rw [Kind.opening, Kind.closing, regions_square hbody]
      refine ((AreOf.single position (.bracketed body)).append (ihrest _)).congr fun piece => ?_
      rw [hasPiece_cons (Piece.split_square hbody rest)]
      simp
    | curly =>
      rw [Kind.opening, Kind.closing, regions_curly hbody]
      refine (((AreOf.single position (.braced body)).append (ihbody _)).append
        (ihrest _)).congr fun piece => ?_
      rw [hasPiece_cons (Piece.split_curly hbody rest)]
      simp
    | round => exact absurd rfl hkind

theorem hasEmptyOperand_of_uncut {sep : Char} (hsep : isOperator sep) {t : Text}
    (h : Bracket.uncut 0 t) : hasEmptyOperand sep t = false := by
  have hpieces := pieces_append_uncut hsep h []
  rw [List.append_nil] at hpieces
  rw [hasEmptyOperand, hpieces]
  rfl

theorem reference_eq_nil {position : Nat} {body : Text} :
    reference position body = [] ↔
      '[' ∉ body ∧ (Reference.parse? body).isSome ∧ clauses ('[' :: body ++ [']']) body = [] := by
  unfold reference
  dsimp only
  split
  · next hnested => simp_all
  · next hnested =>
    split
    · next hnone => simp_all
    · next hsome => simp_all [Option.isSome_iff_ne_none]

theorem regions_eq_nil_iff {t : Text} (h : Balanced Kind.IsHard t) (position : Nat) :
    regions position t = [] ↔ ∀ piece, HasPiece piece t → ofPiece 0 piece = [] := by
  obtain ⟨hall, honly⟩ := areOf_regions h position
  have hstart (start : Nat) (piece : Piece) : ofPiece start piece = [] ↔ ofPiece 0 piece = [] := by
    cases piece with
    | bracketed body => rw [ofPiece, ofPiece, reference_eq_nil, reference_eq_nil]
    | _ => rfl
  constructor
  · intro hnone piece hpiece
    obtain ⟨start, hsub⟩ := hall piece hpiece
    rw [hnone] at hsub
    exact (hstart start piece).1 (List.subset_nil.1 hsub)
  · intro hnone
    apply List.eq_nil_iff_forall_not_mem.2
    intro issue hissue
    obtain ⟨piece, start, hpiece, hmem⟩ := honly issue hissue
    rw [(hstart start piece).2 (hnone piece hpiece)] at hmem
    cases hmem

theorem mem_regions_iff {issue : Issue} (hissue : ∀ position body, issue ∉ reference position body)
    {t : Text} (h : Balanced Kind.IsHard t) (position : Nat) :
    issue ∈ regions position t ↔ ∃ body, HasPiece (.braced body) t ∧ issue ∈ expression body := by
  obtain ⟨hall, honly⟩ := areOf_regions h position
  constructor
  · intro hmem
    obtain ⟨piece, start, hpiece, hmem⟩ := honly issue hmem
    cases piece with
    | literal c => cases hmem
    | bracketed body => exact absurd hmem (hissue start body)
    | braced body => exact ⟨body, hpiece, hmem⟩
  · rintro ⟨body, hpiece, hmem⟩
    obtain ⟨start, hsub⟩ := hall _ hpiece
    exact hsub hmem

end Issue

theorem issues_eq_nil_iff (t : Text) :
    issues t = [] ↔
      Balanced Kind.IsHard t ∧ ∀ piece, HasPiece piece t → Issue.ofPiece 0 piece = [] := by
  rw [issues, List.append_eq_nil_iff, Issue.balance_eq_nil_iff]
  exact and_congr_right fun h => Issue.regions_eq_nil_iff h 0

/-! ## Sound pieces -/

/-- A region that is read as what it stands for. -/
inductive Piece.Sound : Piece → Prop where
  | literal {c : Char} (hc : ¬ isHard c) : Sound (.literal c)
  | bracketed {body : Text} (hbalanced : Balanced Kind.IsHard body)
      (href : (Reference.parse? body).isSome) : Sound (.bracketed body)
  | braced {body : Text} (hbalanced : Balanced Kind.IsHard body)
      (huncut : Piece.uncut 0 (Piece.split body)) (h : ∀ piece ∈ Piece.split body, Sound piece) :
      Sound (.braced body)

/-- A template of sound pieces. -/
def IsSound (t : Text) : Prop := ∀ piece ∈ Piece.split t, piece.Sound

/-- An expression of sound pieces that its operators leave whole. -/
structure IsUncut (t : Text) : Prop where
  sound : IsSound t
  uncut : Piece.uncut 0 (Piece.split t)

theorem Piece.Sound.isMatched {piece : Piece} (h : piece.Sound) : piece.IsMatched := by
  cases h with
  | literal hc => exact hc
  | bracketed hbalanced _ => exact hbalanced
  | braced hbalanced _ _ => exact hbalanced

theorem isSound_of_pieces {t : Text} (hwhole : Whole t) (h : Balanced Kind.IsHard t)
    (hnone : ∀ piece, HasPiece piece t → Issue.ofPiece 0 piece = []) : IsSound t := by
  induction hwhole with
  | @intro t huncut _ ih =>
    intro piece hpiece
    have hmatched := (balanced_iff_split t).1 h piece hpiece
    have hissues := hnone piece (.here hpiece)
    cases piece with
    | literal c => exact .literal hmatched
    | bracketed body => exact .bracketed hmatched (Issue.reference_eq_nil.1 hissues).2.1
    | braced body =>
      have hinner := ih body hpiece hmatched fun piece hmem => hnone piece (.inside hpiece hmem)
      exact .braced hmatched (huncut body hpiece) hinner

theorem isSound_of_valid {t : Text} (hvalid : (check t).valid) (hwhole : Whole t) : IsSound t := by
  obtain ⟨hbalanced, hnone⟩ := (issues_eq_nil_iff t).1 (List.isEmpty_iff.1 hvalid)
  exact isSound_of_pieces hwhole hbalanced hnone

/-! ## Parts of a sound expression -/

namespace IsUncut

variable {t : Text}

theorem isPart_iff : IsUncut t ↔ IsPart Piece.Sound t :=
  ⟨fun h => ⟨h.sound, h.uncut⟩, fun h => ⟨h.all, h.uncut⟩⟩

theorem trim (h : IsUncut t) : IsUncut (Text.trim t) :=
  isPart_iff.2 ((isPart_iff.1 h).trim fun _ hpiece => hpiece.isMatched)

theorem operand {sep : Char} (hsep : isOperator sep) (h : IsUncut t) {part : Text}
    (hpart : part ∈ operands sep t) : IsUncut part :=
  isPart_iff.2 ((isPart_iff.1 h).operand (fun _ hpiece => hpiece.isMatched) hsep hpart)

theorem headD_operands {sep : Char} (hsep : isOperator sep) (h : IsUncut t) :
    IsUncut ((operands sep t).headD t) :=
  isPart_iff.2 ((isPart_iff.1 h).headD_operands (fun _ hpiece => hpiece.isMatched) hsep)

theorem group {body : Text} (h : IsUncut t) (hbody : parenthesised? t = some body) : IsUncut body :=
  isPart_iff.2 ((isPart_iff.1 h).group (fun _ hpiece => hpiece.isMatched) hbody)

end IsUncut

end RandomTables
