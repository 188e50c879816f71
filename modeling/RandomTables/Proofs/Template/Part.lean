import RandomTables.Proofs.Template.Balance
import RandomTables.Proofs.Template.Nested
import Mathlib.Data.List.Induction

/-! # Parts of expressions

Cutting and trimming an expression leaves its regions whole, unless one of them holds an operator
where no more brackets are open than closed.
-/

namespace RandomTables

open RandomTables.Bracket

/-! ## Operators inside regions -/

/-- No operator of a text that starts at this depth stands at depth zero. -/
def Bracket.uncut : (depth : Int) → Text → Bool
  | _, [] => true
  | depth, c :: t => !(isOperator c && depth == 0) && uncut (step depth c) t

namespace Piece

def isLiteral : Piece → Bool
  | .literal _ => true
  | _ => false

/-- No operator inside a region stands where no more brackets are open than closed, so that the
region would be cut. -/
def uncut : (depth : Int) → List Piece → Bool
  | _, [] => true
  | depth, piece :: rest =>
    (piece.isLiteral || Bracket.uncut depth piece.raw) && uncut (piece.raw.foldl step depth) rest

end Piece

/-- Wherever braces are matched outside square brackets, no region inside is cut by an operator. -/
inductive Whole : Text → Prop where
  | intro {t : Text} (huncut : ∀ body, .braced body ∈ Piece.split t → Piece.uncut 0 (Piece.split body))
      (hinner : ∀ body, .braced body ∈ Piece.split t → Whole body) : Whole t

/-! ## Matched pieces -/

namespace Piece

theorem split_soft {c : Char} (hc : ¬ isHard c) (t : Text) :
    split (c :: t) = .literal c :: split t := by
  rw [not_isHard_iff] at hc
  apply split_literal
  · exact fun hsquare => absurd hsquare (hc .square (by decide)).1
  · exact fun hcurly => absurd hcurly (hc .curly (by decide)).1

theorem split_square {body : Text} (h : Balanced Kind.IsHard body) (rest : Text) :
    split ('[' :: body ++ ']' :: rest) = .bracketed body :: split rest :=
  split_bracketed (h.enclosed?_eq (by decide : Kind.square.IsHard) rest)

theorem split_curly {body : Text} (h : Balanced Kind.IsHard body) (rest : Text) :
    split ('{' :: body ++ '}' :: rest) = .braced body :: split rest :=
  split_braced (h.enclosed?_eq (by decide : Kind.curly.IsHard) rest)

def IsMatched : Piece → Prop
  | .literal c => ¬ isHard c
  | .bracketed body => Balanced Kind.IsHard body
  | .braced body => Balanced Kind.IsHard body

end Piece

namespace Whole

variable {t : Text}

theorem uncut (h : Whole t) {body : Text} (hbody : .braced body ∈ Piece.split t) :
    Piece.uncut 0 (Piece.split body) := by
  cases h with
  | intro huncut hinner => exact huncut body hbody

theorem inner (h : Whole t) {body : Text} (hbody : .braced body ∈ Piece.split t) : Whole body := by
  cases h with
  | intro huncut hinner => exact hinner body hbody

theorem of_not_mem (h : '{' ∉ t) : Whole t := by
  have hnone (body : Text) (hbody : .braced body ∈ Piece.split t) : False :=
    h (Piece.raw_subset hbody List.mem_cons_self)
  exact ⟨fun body hbody => (hnone body hbody).elim, fun body hbody => (hnone body hbody).elim⟩

theorem of_subset {s : Text} (h : Whole t) (hsubset : Piece.split s ⊆ Piece.split t) : Whole s :=
  ⟨fun _ hbody => h.uncut (hsubset hbody), fun _ hbody => h.inner (hsubset hbody)⟩

end Whole

theorem Piece.raw_bracketed_append (body rest : Text) :
    (Piece.bracketed body).raw ++ rest = '[' :: body ++ ']' :: rest := by
  simp [Piece.raw]

theorem Piece.raw_braced_append (body rest : Text) :
    (Piece.braced body).raw ++ rest = '{' :: body ++ '}' :: rest := by
  simp [Piece.raw]

theorem Piece.split_flatMap_raw {pieces : List Piece} (h : ∀ piece ∈ pieces, piece.IsMatched) :
    Piece.split (pieces.flatMap Piece.raw) = pieces := by
  induction pieces with
  | nil => exact Piece.split_nil
  | cons piece rest ih =>
    obtain ⟨hpiece, hrest⟩ := List.forall_mem_cons.1 h
    rw [List.flatMap_cons]
    cases piece with
    | literal c => rw [Piece.raw, List.singleton_append, Piece.split_soft hpiece, ih hrest]
    | bracketed body => rw [Piece.raw_bracketed_append, Piece.split_square hpiece, ih hrest]
    | braced body => rw [Piece.raw_braced_append, Piece.split_curly hpiece, ih hrest]

theorem balanced_of_pieces {pieces : List Piece} (h : ∀ piece ∈ pieces, piece.IsMatched) :
    Balanced Kind.IsHard (pieces.flatMap Piece.raw) := by
  induction pieces with
  | nil => exact .nil
  | cons piece rest ih =>
    obtain ⟨hpiece, hrest⟩ := List.forall_mem_cons.1 h
    rw [List.flatMap_cons]
    cases piece with
    | literal c => exact (ih hrest).soft (not_isHard_iff.1 hpiece)
    | bracketed body =>
      rw [Piece.raw_bracketed_append]
      exact Balanced.enclosed (by decide : Kind.square.IsHard) hpiece (ih hrest)
    | braced body =>
      rw [Piece.raw_braced_append]
      exact Balanced.enclosed (by decide : Kind.curly.IsHard) hpiece (ih hrest)

theorem balanced_iff_split (t : Text) :
    Balanced Kind.IsHard t ↔ ∀ piece ∈ Piece.split t, piece.IsMatched := by
  constructor
  · intro h
    induction h with
    | nil =>
      rw [Piece.split_nil]
      exact List.forall_mem_nil _
    | soft hc _ ih =>
      have hsoft := not_isHard_iff.2 hc
      rw [Piece.split_soft hsoft]
      exact List.forall_mem_cons.2 ⟨hsoft, ih⟩
    | @enclosed kind body rest hkind hbody _ _ ih =>
      cases kind with
      | square =>
        rw [Kind.opening, Kind.closing, Piece.split_square hbody]
        exact List.forall_mem_cons.2 ⟨hbody, ih⟩
      | curly =>
        rw [Kind.opening, Kind.closing, Piece.split_curly hbody]
        exact List.forall_mem_cons.2 ⟨hbody, ih⟩
      | round => exact absurd rfl hkind
  · intro h
    have hbalanced := balanced_of_pieces h
    rwa [Piece.flatMap_raw_split] at hbalanced

theorem Piece.split_concat {t : Text} {c : Char} (h : Balanced Kind.IsHard (t ++ [c]))
    (hc : ¬ isHard c) : Piece.split (t ++ [c]) = Piece.split t ++ [.literal c] := by
  have hmatched := (balanced_iff_split _).1 h
  have htext := Piece.flatMap_raw_split (t ++ [c])
  rcases (Piece.split (t ++ [c])).eq_nil_or_concat with hnil | ⟨before, piece, hsplit⟩
  · rw [hnil] at htext
    simp at htext
  · rw [List.concat_eq_append] at hsplit
    rw [hsplit, List.flatMap_append, List.flatMap_singleton] at htext
    have hbefore : ∀ piece ∈ before, piece.IsMatched := fun piece hmem =>
      hmatched piece (hsplit ▸ List.mem_append_left _ hmem)
    cases piece with
    | literal d =>
      obtain ⟨rfl, hd⟩ := List.append_inj' htext rfl
      cases hd
      rw [hsplit, Piece.split_flatMap_raw hbefore]
    | bracketed body =>
      rw [Piece.raw, ← List.append_assoc] at htext
      obtain ⟨-, hlast⟩ := List.append_inj' htext rfl
      cases hlast
      exact absurd rfl hc
    | braced body =>
      rw [Piece.raw, ← List.append_assoc] at htext
      obtain ⟨-, hlast⟩ := List.append_inj' htext rfl
      cases hlast
      exact absurd rfl hc

theorem isHard_of_isBlank {c : Char} (h : Text.isBlank c) : ¬ isHard c := by
  intro hhard
  simp only [isHard, Bool.or_eq_true, beq_iff_eq] at hhard
  rcases hhard with ((rfl | rfl) | rfl) | rfl <;> exact absurd h (by decide)

theorem Piece.uncut_append (depth : Int) (before rest : List Piece) :
    Piece.uncut depth (before ++ rest) =
      (Piece.uncut depth before && Piece.uncut ((before.flatMap Piece.raw).foldl step depth) rest) := by
  induction before generalizing depth with
  | nil => simp [Piece.uncut]
  | cons piece before ih =>
    simp only [List.cons_append, Piece.uncut, ih, List.flatMap_cons, List.foldl_append, Bool.and_assoc]

/-! ## Cutting between pieces -/

theorem Bracket.pieces_append_uncut {sep : Char} (hsep : isOperator sep) {t : Text} {depth : Int}
    (h : uncut depth t) (tail : Text) :
    pieces sep depth (t ++ tail) = glue t (pieces sep (t.foldl step depth) tail) := by
  induction t generalizing depth with
  | nil => exact (glue_nil_pieces sep depth tail).symm
  | cons c t ih =>
    simp only [uncut, Bool.and_eq_true, Bool.not_eq_true', Bool.and_eq_false_iff,
      beq_eq_false_iff_ne] at h
    obtain ⟨hc, ht⟩ := h
    rw [List.cons_append, pieces_other, ih ht, glue_glue, List.foldl_cons]
    · rfl
    · rintro - rfl
      exact hc.resolve_left (by simp [hsep])

theorem Piece.pieces_raw_append {sep : Char} (hsep : isOperator sep) {piece : Piece} {depth : Int}
    (h : piece.isLiteral || Bracket.uncut depth piece.raw) :
    piece = .literal sep ∧ depth = 0 ∨
      ∀ tail, pieces sep depth (piece.raw ++ tail) =
        glue piece.raw (pieces sep (piece.raw.foldl step depth) tail) := by
  rw [Bool.or_eq_true] at h
  rcases h with hliteral | huncut
  · cases piece with
    | literal c =>
      by_cases hcut : c = sep ∧ depth = 0
      · exact .inl ⟨congrArg Piece.literal hcut.1, hcut.2⟩
      · refine .inr fun tail => pieces_other tail ?_
        rintro - rfl hdepth
        exact hcut ⟨rfl, hdepth⟩
    | _ => cases hliteral
  · exact .inr (pieces_append_uncut hsep huncut)

theorem Piece.pieces_flatMap_raw {sep : Char} (hsep : isOperator sep) {parts : List Piece}
    {depth : Int} (h : Piece.uncut depth parts) : ∃ (first : List Piece) (later : List (List Piece)),
      pieces sep depth (parts.flatMap Piece.raw) =
        first.flatMap Piece.raw :: later.map (·.flatMap Piece.raw) ∧
      (first ⊆ parts ∧ Piece.uncut depth first) ∧
      ∀ part ∈ later, part ⊆ parts ∧ Piece.uncut 0 part := by
  induction parts generalizing depth with
  | nil => exact ⟨[], [], rfl, ⟨List.Subset.refl _, rfl⟩, List.forall_mem_nil _⟩
  | cons piece rest ih =>
    rw [Piece.uncut, Bool.and_eq_true] at h
    obtain ⟨hpiece, hrest⟩ := h
    obtain ⟨first, later, hpieces, ⟨hsubset, hfirst⟩, hlater⟩ := ih hrest
    have hlater' : ∀ part ∈ later, part ⊆ piece :: rest ∧ Piece.uncut 0 part :=
      fun part hpart => ⟨List.subset_cons_of_subset _ (hlater part hpart).1, (hlater part hpart).2⟩
    rcases Piece.pieces_raw_append hsep hpiece with ⟨rfl, rfl⟩ | hglue
    · have hplain := isPlain_of_isOperator hsep
      have hstep : (Piece.literal sep).raw.foldl step 0 = 0 := step_plain hplain 0
      rw [hstep] at hpieces hfirst
      refine ⟨[], first :: later, ?_, ⟨List.nil_subset _, rfl⟩, ?_⟩
      · rw [List.flatMap_cons, Piece.raw, List.singleton_append, pieces_separator hplain, hpieces]
        rfl
      · exact List.forall_mem_cons.2 ⟨⟨List.subset_cons_of_subset _ hsubset, hfirst⟩, hlater'⟩
    · refine ⟨piece :: first, later, ?_, ⟨List.cons_subset_cons _ hsubset, ?_⟩, hlater'⟩
      · rw [List.flatMap_cons, hglue, hpieces]
        rfl
      · rw [Piece.uncut, hpiece, hfirst]
        rfl

/-! ## Groups -/

theorem Bracket.uncut_append (depth : Int) (s t : Text) :
    uncut depth (s ++ t) = (uncut depth s && uncut (s.foldl step depth) t) := by
  induction s generalizing depth with
  | nil => simp [uncut]
  | cons c s ih => simp only [List.cons_append, uncut, ih, List.foldl_cons, Bool.and_assoc]

theorem Bracket.uncut_of_not_isOperator {t : Text} (h : ∀ c ∈ t, ¬ isOperator c) (depth : Int) :
    uncut depth t := by
  induction t generalizing depth with
  | nil => rfl
  | cons c t ih =>
    obtain ⟨hc, ht⟩ := List.forall_mem_cons.1 h
    simp [uncut, hc, ih ht]

theorem Bracket.not_isOperator_of_isHard {c : Char} (hc : isHard c) : isOperator c = false := by
  simp only [isHard, Bool.or_eq_true, beq_iff_eq] at hc
  rcases hc with ((rfl | rfl) | rfl) | rfl <;> decide

theorem Bracket.eq_some_of_map_cons {c : Char} {found : Option (Text × Text)} {body rest : Text}
    (h : found.map (fun result => (c :: result.1, result.2)) = some (c :: body, rest)) :
    found = some (body, rest) := by
  obtain ⟨⟨body', rest'⟩, hfound, heq⟩ := Option.map_eq_some_iff.1 h
  cases heq
  exact hfound

theorem Bracket.enclosed?_round_hard {c : Char} (hc : isHard c) {inner : Nat} {t body rest : Text}
    (h : enclosed? '(' ')' inner (c :: t) = some (c :: body, rest)) :
    enclosed? '(' ')' inner t = some (body, rest) := by
  have hopening : c ≠ '(' := by
    rintro rfl
    exact absurd hc (by decide)
  have hclosing : c ≠ ')' := by
    rintro rfl
    exact absurd hc (by decide)
  simp only [enclosed?, if_neg hopening, if_neg hclosing] at h
  exact eq_some_of_map_cons h

theorem Bracket.enclosed?_round_soft {c : Char} (hc : ¬ isHard c) {inner : Nat}
    {t body rest : Text} (h : enclosed? '(' ')' inner (c :: t) = some (c :: body, rest)) :
    ∃ inner' : Nat, enclosed? '(' ')' inner' t = some (body, rest) ∧
      ∀ above : Int, step (above + inner) c = above + inner' := by
  simp only [enclosed?] at h
  split at h
  · next hopening =>
    subst hopening
    exact ⟨inner + 1, eq_some_of_map_cons h, fun above => Int.add_assoc above inner 1⟩
  · next hopening =>
    split at h
    · next hclosing =>
      subst hclosing
      cases inner with
      | zero => cases h
      | succ inner =>
        refine ⟨inner, eq_some_of_map_cons h, fun above => ?_⟩
        rw [Int.natCast_add_one, ← Int.add_assoc]
        exact step_closing .round (above + inner)
    · next hclosing =>
      have hplain : isPlain c := by
        simp only [isHard, Bool.or_eq_true, beq_iff_eq, not_or] at hc
        simp [isPlain, isOpening, isClosing, hc, hopening, hclosing]
      exact ⟨inner, eq_some_of_map_cons h, fun above => step_plain hplain _⟩

theorem Bracket.uncut_enclosed {kind : Kind} (hkind : kind.IsHard) {body : Text} {depth depth' : Int}
    (huncut : uncut (depth + 1) body) (hfold : body.foldl step (depth + 1) = depth' + 1) :
    uncut depth (kind.opening :: body ++ [kind.closing]) ∧
      (kind.opening :: body ++ [kind.closing]).foldl step depth = depth' := by
  constructor
  · simp only [List.cons_append, uncut, uncut_append, step_opening, huncut,
      not_isOperator_of_isHard (isHard_opening hkind), not_isOperator_of_isHard (isHard_closing hkind)]
    rfl
  · rw [List.cons_append, List.foldl_cons, step_opening, List.foldl_append, hfold]
    exact step_closing kind depth'

theorem Piece.split_enclosed {kind : Kind} (hkind : kind.IsHard) {body : Text}
    (h : Balanced Kind.IsHard body) (rest : Text) :
    ∃ piece, Piece.raw piece = kind.opening :: body ++ [kind.closing] ∧
      Piece.split (kind.opening :: body ++ kind.closing :: rest) = piece :: Piece.split rest := by
  cases kind with
  | square => exact ⟨.bracketed body, rfl, Piece.split_square h rest⟩
  | curly => exact ⟨.braced body, rfl, Piece.split_curly h rest⟩
  | round => exact absurd rfl hkind

/-- Where a scan for the match of a parenthesis gets past a balanced text, no operator in a region of it
stands at depth zero. -/
theorem Balanced.uncut_of_enclosed? {t : Text} (h : Balanced Kind.IsHard t) {above : Int}
    (habove : 0 ≤ above) {inner : Nat} {tail body rest : Text}
    (hscan : enclosed? '(' ')' inner (t ++ tail) = some (t ++ body, rest)) :
    (0 < above → Bracket.uncut (above + inner) t) ∧
      Piece.uncut (above + inner) (Piece.split t) ∧
      ∃ inner' : Nat, t.foldl step (above + inner) = above + inner' ∧
        enclosed? '(' ')' inner' tail = some (body, rest) := by
  -- The depth is a sum: `above` brackets of the other kinds are open, and `inner` parentheses, which
  -- the scan never lets fall below zero.
  induction h generalizing above inner tail body rest with
  | nil =>
    rw [Piece.split_nil]
    exact ⟨fun _ => rfl, rfl, inner, rfl, hscan⟩
  | @soft c t hc _ ih =>
    have hsoft := not_isHard_iff.2 hc
    obtain ⟨inner', hrest, hstep⟩ := enclosed?_round_soft hsoft hscan
    obtain ⟨huncut, hsplit, inner'', hfold, htail⟩ := ih habove hrest
    rw [Piece.split_soft hsoft, Piece.uncut, Piece.raw, List.foldl_cons, List.foldl_cons, hstep above]
    refine ⟨fun hpos => ?_, hsplit, inner'', hfold, htail⟩
    have hdepth : (above + inner == 0) = false := by
      rw [beq_eq_false_iff_ne]
      omega
    rw [Bracket.uncut, hstep above, huncut hpos, hdepth, Bool.and_false]
    rfl
  | @enclosed kind body' rest' hkind hbody _ ihbody ihrest =>
    simp only [List.append_assoc, List.cons_append] at hscan
    have hscanBody := enclosed?_round_hard (isHard_opening hkind) hscan
    obtain ⟨hbodyUncut, -, inner', hbodyFold, hclosing⟩ :=
      ihbody (Int.le_add_one habove) hscanBody
    obtain ⟨hrestUncut, hrestSplit, inner'', hrestFold, htail⟩ :=
      ihrest habove (enclosed?_round_hard (isHard_closing hkind) hclosing)
    rw [Int.add_right_comm] at hbodyUncut hbodyFold
    rw [Int.add_right_comm above 1 inner'] at hbodyFold
    obtain ⟨huncut, hfold⟩ := Bracket.uncut_enclosed hkind
      (hbodyUncut (Int.lt_add_one_of_le habove)) hbodyFold
    have htext : kind.opening :: body' ++ kind.closing :: rest' =
        (kind.opening :: body' ++ [kind.closing]) ++ rest' := by
      simp
    obtain ⟨piece, hraw, hsplit⟩ := Piece.split_enclosed hkind hbody rest'
    refine ⟨fun hpos => ?_, ?_, inner'', ?_, htail⟩
    · rw [htext, Bracket.uncut_append, huncut, hfold, hrestUncut hpos]
      rfl
    · rw [hsplit, Piece.uncut, hraw, huncut, hfold, hrestSplit, Bool.or_true]
      rfl
    · rw [htext, List.foldl_append, hfold, hrestFold]

/-! ## Parts -/

/-- An expression of some of the pieces, that its operators leave whole. -/
structure IsPart (pieces : Piece → Prop) (t : Text) : Prop where
  all : ∀ piece ∈ Piece.split t, pieces piece
  uncut : Piece.uncut 0 (Piece.split t)

namespace IsPart

variable {pieces : Piece → Prop} (hmatched : ∀ piece, pieces piece → piece.IsMatched) {t : Text}

include hmatched

theorem balanced (h : IsPart pieces t) : Balanced Kind.IsHard t :=
  (balanced_iff_split t).2 fun piece hpiece => hmatched piece (h.all piece hpiece)

theorem of_pieces {parts : List Piece} (hall : ∀ piece ∈ parts, pieces piece)
    (huncut : Piece.uncut 0 parts) : IsPart pieces (parts.flatMap Piece.raw) := by
  have hsplit := Piece.split_flatMap_raw fun piece hpiece => hmatched piece (hall piece hpiece)
  exact ⟨by rwa [hsplit], by rwa [hsplit]⟩

omit hmatched in
theorem of_blank_cons {c : Char} (hc : Text.isBlank c) (h : IsPart pieces (c :: t)) :
    IsPart pieces t := by
  have hsplit := Piece.split_soft (isHard_of_isBlank hc) t
  obtain ⟨hall, huncut⟩ := h
  rw [hsplit] at hall
  rw [hsplit, Piece.uncut, Piece.raw, List.foldl_cons, step_plain (isPlain_of_isBlank hc)] at huncut
  exact ⟨(List.forall_mem_cons.1 hall).2, (Bool.and_eq_true_iff.1 huncut).2⟩

theorem of_concat {c : Char} (hc : ¬ isHard c) (h : IsPart pieces (t ++ [c])) : IsPart pieces t := by
  have hsplit := Piece.split_concat (h.balanced hmatched) hc
  obtain ⟨hall, huncut⟩ := h
  rw [hsplit] at hall
  rw [hsplit, Piece.uncut_append, Bool.and_eq_true] at huncut
  exact ⟨(List.forall_mem_append.1 hall).1, huncut.1⟩

theorem trim (h : IsPart pieces t) : IsPart pieces (Text.trim t) := by
  obtain ⟨before, after, ht, hbefore, hafter⟩ := Text.trim_between t
  rw [ht] at h
  generalize Text.trim t = kept at h
  clear ht
  induction after using List.reverseRecOn with
  | nil =>
    rw [List.append_nil] at h
    induction before with
    | nil => exact h
    | cons c before ih =>
      obtain ⟨hc, hbefore⟩ := List.forall_mem_cons.1 hbefore
      exact ih hbefore (h.of_blank_cons hc)
  | append_singleton after c ih =>
    rw [← List.append_assoc] at h
    obtain ⟨hafter, hc⟩ := List.forall_mem_append.1 hafter
    exact ih hafter (h.of_concat hmatched (isHard_of_isBlank (hc c List.mem_cons_self)))

theorem operand {sep : Char} (hsep : isOperator sep) (h : IsPart pieces t) {part : Text}
    (hpart : part ∈ operands sep t) : IsPart pieces part := by
  obtain ⟨first, later, hpieces, ⟨hsubset, hfirst⟩, hlater⟩ :=
    Piece.pieces_flatMap_raw hsep h.uncut
  rw [Piece.flatMap_raw_split] at hpieces
  have hcut : ∀ piece ∈ Bracket.pieces sep 0 t, IsPart pieces piece := by
    rw [hpieces, List.forall_mem_cons, List.forall_mem_map]
    refine ⟨of_pieces hmatched (fun piece hmem => h.all piece (hsubset hmem)) hfirst,
      fun part hmem => ?_⟩
    obtain ⟨hsubset, huncut⟩ := hlater part hmem
    exact of_pieces hmatched (fun piece hmem => h.all piece (hsubset hmem)) huncut
  obtain ⟨piece, hpiece, rfl⟩ := List.mem_map.1 (List.mem_filter.1 hpart).1
  exact (hcut piece hpiece).trim hmatched

theorem headD_operands {sep : Char} (hsep : isOperator sep) (h : IsPart pieces t) :
    IsPart pieces ((operands sep t).headD t) := by
  cases hparts : operands sep t with
  | nil => exact h
  | cons part more =>
    have hpart : part ∈ operands sep t := hparts ▸ List.mem_cons_self
    exact h.operand hmatched hsep hpart

theorem group {body : Text} (h : IsPart pieces t) (hbody : parenthesised? t = some body) :
    IsPart pieces body := by
  obtain ⟨rfl, hmatch⟩ := parenthesised?_eq hbody
  have hall := h.all
  rw [Piece.split_soft (by decide)] at hall
  have hrest := (List.forall_mem_cons.1 hall).2
  have hclosed : Balanced Kind.IsHard (body ++ [')']) :=
    (balanced_iff_split _).2 fun piece hpiece => hmatched piece (hrest piece hpiece)
  rw [Piece.split_concat hclosed (by decide)] at hrest
  have hinner := (List.forall_mem_append.1 hrest).1
  have hbalanced : Balanced Kind.IsHard body :=
    (balanced_iff_split _).2 fun piece hpiece => hmatched piece (hinner piece hpiece)
  have hscan : enclosed? '(' ')' 0 (body ++ [')']) = some (body ++ [], []) := by
    rwa [List.append_nil]
  exact ⟨hinner, (hbalanced.uncut_of_enclosed? (Int.le_refl 0) hscan).2.1⟩

end IsPart

end RandomTables
