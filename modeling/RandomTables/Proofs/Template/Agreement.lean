import RandomTables.Proofs.Template.Reading

/-! # Expressions that are read alike

The scan of an expression and its tree have the same references if they have them for each of its
operands. An operand may have brackets that do not match, as long as the scan takes no clauses that
the tree leaves.
-/

namespace RandomTables

open RandomTables.Bracket RandomTables.Token

/-! ## What the scan finds in an operand -/

namespace Token

/-- Where an operand can start, the scan finds these references in the text, and goes on behind it. -/
def Finds (t : Text) (found : List Reference) : Prop :=
  ∀ ⦃tail : Text⦄, IsEnd tail → ∀ braced : Nat, t.length < braced →
    ∀ last : Option Char, opensOperand last →
      flat braced last (t ++ tail) = found ++ flat (braced - t.length) none tail

namespace Finds

variable {t : Text} {found : List Reference}

theorem inBraces_eq (h : Finds t found) : inBraces t = found := by
  rw [inBraces, h (.stop (.inr (by decide)) []) _ (Nat.lt_succ_self _) _ rfl,
    flat_closing (by decide), flat_nil, List.append_nil]

theorem nil : Finds [] [] := fun _ htail braced _ last _ => htail.flat_eq braced last none

theorem trim (h : Finds (Text.trim t) found) : Finds t found := by
  intro tail htail braced hbraced last hopens
  obtain ⟨before, after, ht, hbefore, hafter⟩ := Text.trim_between t
  generalize Text.trim t = kept at h ht
  subst ht
  simp only [List.length_append] at hbraced ⊢
  have hleft : braced - before.length - kept.length - after.length =
      braced - (before.length + kept.length + after.length) := by omega
  rw [List.append_assoc, List.append_assoc, flat_blank hbefore,
    h (htail.append hafter) _ (by omega) last hopens, flat_blank hafter, hleft]

theorem cut {s : Text} {found' : List Reference} {sep : Char} (hsep : isOperator sep)
    (hs : Finds s found) (ht : Finds t found') : Finds (s ++ sep :: t) (found ++ found') := by
  intro tail htail braced hbraced last hopens
  simp only [List.length_append, List.length_cons] at hbraced ⊢
  have hlast : Text.lastSolid none [sep] = some sep := if_neg (not_isBlank_of_isOperator hsep)
  have hleft : braced - s.length - 1 - t.length = braced - (s.length + (t.length + 1)) := by omega
  rw [List.append_assoc, List.cons_append, hs (.stop (.inl hsep) _) _ (by omega) last hopens,
    flat_plain (isPlain_of_isOperator hsep), hlast,
    ht htail _ (by omega) _ (opensOperand_of_isOperator hsep), hleft, List.append_assoc]

theorem piece {found : Text → List Reference}
    (h : ∀ part ∈ [Text.trim t].filter (!·.isEmpty), Finds part (found part)) :
    Finds t (([Text.trim t].filter (!·.isEmpty)).flatMap found) := by
  refine Finds.trim ?_
  cases hpart : Text.trim t with
  | nil => exact .nil
  | cons c part =>
    rw [hpart] at h
    have hkept := h (c :: part) List.mem_cons_self
    rwa [← List.flatMap_singleton found (c :: part)] at hkept

theorem pieces {found : Text → List Reference} {sep : Char} (hsep : isOperator sep)
    {parts : List Text}
    (h : ∀ part ∈ (parts.map Text.trim).filter (!·.isEmpty), Finds part (found part)) :
    Finds ([sep].intercalate parts)
      (((parts.map Text.trim).filter (!·.isEmpty)).flatMap found) := by
  induction parts with
  | nil => exact .nil
  | cons part rest ih =>
    have hsplit : ((part :: rest).map Text.trim).filter (!·.isEmpty) =
        [Text.trim part].filter (!·.isEmpty) ++ (rest.map Text.trim).filter (!·.isEmpty) := by
      rw [← List.filter_append]
      rfl
    rw [hsplit] at h ⊢
    obtain ⟨hpart, hrest⟩ := List.forall_mem_append.1 h
    rw [List.flatMap_append]
    cases rest with
    | nil => simpa using piece hpart
    | cons next rest =>
      have hjoin : [sep].intercalate (part :: next :: rest) =
          part ++ sep :: [sep].intercalate (next :: rest) := by
        simp [List.intercalate_cons_cons]
      rw [hjoin]
      exact (piece hpart).cut hsep (ih hrest)

theorem of_operands {found : Text → List Reference} {sep : Char} (hsep : isOperator sep)
    (h : ∀ part ∈ operands sep t, Finds part (found part)) :
    Finds t ((operands sep t).flatMap found) := by
  have hjoin := pieces hsep h
  rwa [intercalate_pieces] at hjoin

theorem of_cutOperands {found : Text → List Reference}
    (h : ∀ operand ∈ cutOperands t, Finds operand (found operand)) :
    Finds t ((cutOperands t).flatMap found) := by
  rw [cutOperands, List.flatMap_assoc]
  refine of_operands rfl fun conjunct hconjunct => of_operands rfl fun operand hoperand => ?_
  exact h operand (List.mem_flatMap.2 ⟨conjunct, hconjunct, hoperand⟩)

end Finds

end Token

/-! ## Agreement on operands -/

/-- From some level of nesting on the tree of an operand has the references that the scan finds. -/
structure Agrees (bound : Nat) (operand : Text) : Prop where
  scanned : Finds operand (inBraces operand)
  read : ∀ depth, bound ≤ depth → operandReferences depth operand = inBraces operand

namespace Agrees

variable {bound : Nat} {t : Text}

theorem of_finds {operand : Text} (found : List Reference) (h : Finds operand found)
    (hread : ∀ depth, bound ≤ depth → operandReferences depth operand = found) :
    Agrees bound operand := by
  have hfound := h.inBraces_eq
  subst hfound
  exact ⟨h, hread⟩

theorem finds (h : ∀ operand ∈ cutOperands t, Agrees bound operand) : Finds t (inBraces t) := by
  have hfinds := Finds.of_cutOperands fun operand hoperand => (h operand hoperand).scanned
  rwa [hfinds.inBraces_eq]

theorem references (h : ∀ operand ∈ cutOperands t, Agrees bound operand) {depth : Nat}
    (hdepth : bound + 3 ≤ depth) : (readExpression depth t).references = inBraces t := by
  have hfinds := Finds.of_cutOperands fun operand hoperand => (h operand hoperand).scanned
  rw [hfinds.inBraces_eq]
  exact references_cutOperands (fun operand hoperand => (h operand hoperand).read) hdepth

end Agrees

/-! ## Braces in prose -/

namespace Token

theorem flat_eq_nil {t : Text} (h : '[' ∉ t) (braced : Nat) (last : Option Char) :
    flat braced last t = [] := by
  induction t generalizing braced last with
  | nil => exact flat_nil braced last
  | cons c t ih =>
    have hsquare : c ≠ '[' := fun hc => h (hc ▸ List.mem_cons_self)
    rw [flat_step (if_neg hsquare)]
    exact ih (fun hmem => h (List.mem_cons_of_mem _ hmem)) _ _

theorem inBraces_of_not_mem {t : Text} (h : '[' ∉ t) : inBraces t = [] :=
  flat_eq_nil (by simp [h]) _ _

theorem flat_of_not_mem {inner : Nat} {t body rest : Text}
    (hmatch : enclosed? '{' '}' inner t = some (body, rest)) (hbare : '[' ∉ body) {braced : Nat}
    (hbraced : body.length < braced) (last : Option Char) :
    flat braced last t = flat (braced - body.length - 1) (some '}') rest := by
  induction t generalizing inner body braced last with
  | nil => cases hmatch
  | cons c t ih =>
    have hlater {body' : Text} (hbody : body = c :: body')
        {inner' : Nat} (hmatch' : enclosed? '{' '}' inner' t = some (body', rest))
        (last : Option Char) :
        flat (braced - 1) last t = flat (braced - body.length - 1) (some '}') rest := by
      subst hbody
      have hleft : braced - 1 - body'.length - 1 = braced - (body'.length + 1) - 1 := by omega
      rw [List.length_cons] at hbraced ⊢
      rw [ih hmatch' (fun hmem => hbare (List.mem_cons_of_mem _ hmem)) (by omega), hleft]
    simp only [enclosed?] at hmatch
    by_cases hopening : c = '{'
    · rw [if_pos hopening] at hmatch
      obtain ⟨⟨body', rest'⟩, hbody, heq⟩ := Option.map_eq_some_iff.1 hmatch
      cases heq
      subst hopening
      -- A brace that opens inside closes inside, so nothing more is known to be in braces.
      have hinside : bracedLength ('{' :: t) ≤ braced := by
        cases hinner : enclosed? '{' '}' 0 t with
        | none =>
          rw [bracedLength_of_none hinner]
          exact Nat.zero_le _
        | some found =>
          have hlt := Bracket.enclosed?_length_lt (Nat.succ_pos inner) hinner hbody
          simp only [List.length_cons] at hlt hbraced
          rw [bracedLength_of_match hinner]
          omega
      rw [flat_step (if_neg (by decide)), Nat.max_eq_left hinside]
      exact hlater rfl hbody _
    · rw [if_neg hopening] at hmatch
      by_cases hclosing : c = '}'
      · rw [if_pos hclosing] at hmatch
        subst hclosing
        rw [flat_closing (by decide)]
        cases inner with
        | zero =>
          cases hmatch
          rfl
        | succ inner =>
          obtain ⟨⟨body', rest'⟩, hbody, heq⟩ := Option.map_eq_some_iff.1 hmatch
          cases heq
          exact hlater rfl hbody _
      · rw [if_neg hclosing] at hmatch
        obtain ⟨⟨body', rest'⟩, hbody, heq⟩ := Option.map_eq_some_iff.1 hmatch
        cases heq
        have hsquare : c ≠ '[' := fun hc => hbare (hc ▸ List.mem_cons_self)
        rw [flat_step (if_neg hsquare), bracedLength_of_ne hopening, Nat.max_zero]
        exact hlater rfl hbody _

/-- The scan reads what these braces hold for itself. -/
def FindsInside (body : Text) : Prop :=
  ∀ (rest : Text) (braced : Nat), body.length < braced →
    flat braced (some '{') (body ++ '}' :: rest) =
      inBraces body ++ flat (braced - body.length - 1) (some '}') rest

theorem Finds.inside {body : Text} (h : Finds body (inBraces body)) : FindsInside body := by
  intro rest braced hbraced
  rw [h (.stop (.inr (by decide)) rest) braced hbraced _ rfl, flat_closing (by decide)]

theorem findsInside_of_not_mem {body : Text} (hclosed : (Piece.braced body).IsClosed)
    (hbare : '[' ∉ body) : FindsInside body := by
  intro rest braced hbraced
  rw [flat_of_not_mem (enclosed?_behind hclosed rest) hbare hbraced, inBraces_of_not_mem hbare]
  rfl

/-- Whatever ends the operand, the scan takes these clauses for a bracket pair before them. -/
def TakesClauses (clauses after : Text) : Prop :=
  ∀ tail, IsEnd tail → clauseSuffix (clauses ++ after ++ tail) = clauses

theorem flat_skip {s : Text} (h : '[' ∉ s ∧ '{' ∉ s) (braced : Nat) (last : Option Char) (t : Text) :
    flat braced last (s ++ t) = flat (braced - s.length) (Text.lastSolid last s) t := by
  induction s generalizing braced last with
  | nil => rfl
  | cons c s ih =>
    obtain ⟨hsquare, hcurly⟩ := h
    simp only [List.mem_cons, not_or] at hsquare hcurly
    rw [List.cons_append, flat_step (if_neg (Ne.symm hsquare.1)),
      bracedLength_of_ne (Ne.symm hcurly.1), Nat.max_zero, ih ⟨hsquare.2, hcurly.2⟩, Nat.sub_sub,
      List.length_cons, Nat.add_comm 1]
    rfl

end Token

namespace Piece

/-- The references that the scan finds in a piece. -/
def scanned : Piece → List Reference
  | .literal _ => []
  | .bracketed body => (Reference.parse? body).toList
  | .braced body => inBraces body

theorem scanned_of_not_mem {piece : Piece} (h : '[' ∉ piece.raw) : piece.scanned = [] := by
  cases piece with
  | literal c => rfl
  | bracketed body => exact absurd List.mem_cons_self h
  | braced body => exact inBraces_of_not_mem fun hmem => h (by simp [raw, hmem])

/-- No bracket opens without a match, and behind a reference the scan takes no clauses, or some that
change nothing. An operand can start at first if it `opens`. -/
def IsProse : (opens : Bool) → List Piece → Prop
  | _, [] => True
  | opens, .literal c :: rest =>
    c ≠ '[' ∧ c ≠ '{' ∧ IsProse (if Text.isBlank c then opens else opensOperand (some c)) rest
  | opens, .bracketed body :: rest =>
    (opens → ∃ clauses after, rest.flatMap raw = clauses ++ after ∧
      TakesClauses clauses after ∧ ('[' ∉ clauses ∧ '{' ∉ clauses) ∧
        Reference.parse? (body ++ clauses) = Reference.parse? body) ∧ IsProse false rest
  | _, .braced _ :: rest => IsProse false rest

theorem isProse_bracketed {opens : Bool} {body : Text} {rest : List Piece}
    (hnone : ∀ tail, IsEnd tail → clauseSuffix (rest.flatMap raw ++ tail) = [])
    (hrest : IsProse false rest) : IsProse opens (.bracketed body :: rest) :=
  ⟨fun _ => ⟨[], _, rfl, hnone, by simp, by rw [List.append_nil]⟩, hrest⟩

section Steps

variable {c : Char} {body : Text} {braced : Nat} {last : Option Char} (t : Text)

theorem flat_literal (hsquare : c ≠ '[') (hcurly : c ≠ '{') :
    flat braced last ((Piece.literal c).raw ++ t) =
      flat (braced - 1) (Text.lastSolid last [c]) t := by
  rw [raw, List.singleton_append, flat_step (if_neg hsquare), bracedLength_of_ne hcurly, Nat.max_zero]

theorem flat_bracketed (hclosed : (Piece.bracketed body).IsClosed) {clauses : Text}
    (htaken : taken braced last (clauses ++ t) = clauses) (hskip : '[' ∉ clauses ∧ '{' ∉ clauses)
    (hsame : Reference.parse? (body ++ clauses) = Reference.parse? body) :
    flat braced last ((Piece.bracketed body).raw ++ (clauses ++ t)) =
      (Reference.parse? body).toList ++ flat (braced - (body.length + 2)) (some ']') (clauses ++ t) := by
  have htext : (Piece.bracketed body).raw ++ (clauses ++ t) = '[' :: (body ++ ']' :: (clauses ++ t)) := by
    simp [raw]
  have hlast : Text.lastSolid last (withClauses body clauses) = Text.lastSolid (some ']') clauses := by
    have hwith : withClauses body clauses = ('[' :: body ++ [']']) ++ clauses := by simp [withClauses]
    rw [hwith, Text.lastSolid_append, Text.lastSolid_append_solid _ _ (by decide)]
  have hleft : braced - (withClauses body clauses).length =
      braced - (body.length + 2) - clauses.length := by
    rw [length_withClauses]
    omega
  rw [htext, flat_bracket (enclosed?_behind hclosed _), htaken, hsame, hlast, hleft, List.drop_left,
    flat_skip hskip]

theorem flat_braced (hclosed : (Piece.braced body).IsClosed) (hinside : FindsInside body) :
    flat braced last ((Piece.braced body).raw ++ t) =
      inBraces body ++ flat (braced - (body.length + 2)) (some '}') t := by
  have htext : (Piece.braced body).raw ++ t = '{' :: (body ++ '}' :: t) := by simp [raw]
  have hlast : Text.lastSolid last ['{'] = some '{' :=
    Text.lastSolid_append_solid last [] (by decide)
  have hleft : max braced (body.length + 2) - 1 - body.length - 1 = braced - (body.length + 2) := by
    omega
  rw [htext, flat_step (if_neg (by decide)), bracedLength_of_match (enclosed?_behind hclosed t), hlast,
    hinside t _ (by omega), hleft]

end Steps

theorem flat_prose {pieces : List Piece} (hclosed : ∀ piece ∈ pieces, piece.IsClosed)
    (hinside : ∀ body, .braced body ∈ pieces → FindsInside body) {last : Option Char}
    (hprose : IsProse (opensOperand last) pieces) {tail : Text} (htail : IsEnd tail) {braced : Nat}
    (hbraced : (pieces.flatMap raw).length < braced) :
    flat braced last (pieces.flatMap raw ++ tail) =
      pieces.flatMap scanned ++ flat (braced - (pieces.flatMap raw).length) none tail := by
  induction pieces generalizing last braced with
  | nil => exact htail.flat_eq braced last none
  | cons piece rest ih =>
    obtain ⟨hpiece, hrest⟩ := List.forall_mem_cons.1 hclosed
    have hinside' (body : Text) (hbody : .braced body ∈ rest) : FindsInside body :=
      hinside body (List.mem_cons_of_mem _ hbody)
    have hlength : ((piece :: rest).flatMap raw).length =
        piece.raw.length + (rest.flatMap raw).length := by
      rw [List.flatMap_cons, List.length_append]
    rw [hlength] at hbraced ⊢
    rw [List.flatMap_cons, List.flatMap_cons, List.append_assoc, List.append_assoc, ← Nat.sub_sub]
    cases piece with
    | literal c =>
      obtain ⟨hsquare, hcurly, hprose⟩ := hprose
      rw [← apply_ite opensOperand] at hprose
      have hraw : (Piece.literal c).raw.length = 1 := rfl
      rw [hraw] at hbraced ⊢
      rw [flat_literal _ hsquare hcurly]
      exact ih hrest hinside' hprose (by omega)
    | bracketed body =>
      obtain ⟨hidle, hprose⟩ := hprose
      obtain ⟨clauses, after, hsplit, htaken, hskip, hsame⟩ : ∃ clauses after,
          rest.flatMap raw = clauses ++ after ∧
            taken braced last (clauses ++ (after ++ tail)) = clauses ∧ ('[' ∉ clauses ∧ '{' ∉ clauses) ∧
              Reference.parse? (body ++ clauses) = Reference.parse? body := by
        by_cases hopens : opensOperand last
        · obtain ⟨clauses, after, hsplit, htakes, hidle⟩ := hidle hopens
          refine ⟨clauses, after, hsplit, ?_, hidle⟩
          rw [taken, decide_eq_true (Nat.zero_lt_of_lt hbraced), hopens, ← List.append_assoc]
          exact htakes tail htail
        · refine ⟨[], rest.flatMap raw, rfl, if_neg ?_, by simp, by rw [List.append_nil]⟩
          simp [hopens]
      have hraw : (Piece.bracketed body).raw.length = body.length + 2 := by simp [raw]
      have hbehind : rest.flatMap raw ++ tail = clauses ++ (after ++ tail) := by
        rw [hsplit, List.append_assoc]
      rw [hraw] at hbraced ⊢
      rw [hbehind, flat_bracketed _ hpiece htaken hskip hsame, ← hbehind]
      refine congrArg (_ ++ ·) (ih hrest hinside' ?_ (by omega))
      exact hprose
    | braced body =>
      have hraw : (Piece.braced body).raw.length = body.length + 2 := by simp [raw]
      rw [hraw] at hbraced ⊢
      rw [flat_braced _ hpiece (hinside body List.mem_cons_self)]
      refine congrArg (_ ++ ·) (ih hrest hinside' ?_ (by omega))
      exact hprose

theorem references_readTemplate {t : Text} {depth : Nat}
    (hbraced : ∀ body, .braced body ∈ split t → '[' ∈ body →
      ∃ below, depth = below + 1 ∧ (readExpression below body).references = inBraces body) :
    (readTemplate depth t).references = (split t).flatMap scanned := by
  cases depth with
  | zero =>
    rw [readTemplate, Piece.references_concat]
    refine List.flatMap_congr fun piece hpiece => ?_
    cases piece with
    | literal c => rfl
    | bracketed body => exact Piece.references_bracketed _ body
    | braced body =>
      have hbare : '[' ∉ body := fun hmem => by
        obtain ⟨below, hdepth, -⟩ := hbraced body hpiece hmem
        cases hdepth
      exact (inBraces_of_not_mem hbare).symm
  | succ depth =>
    rw [readTemplate, Piece.references_concat]
    refine List.flatMap_congr fun piece hpiece => ?_
    cases piece with
    | literal c => rfl
    | bracketed body => exact Piece.references_bracketed _ body
    | braced body =>
      by_cases hmem : '[' ∈ body
      · obtain ⟨below, hdepth, hread⟩ := hbraced body hpiece hmem
        cases hdepth
        exact hread
      · exact ((RandomTables.references_of_bare depth).1 body hmem).trans (inBraces_of_not_mem hmem).symm

end Piece

/-! ## Clear operands -/

/-- An operand that scan and tree read alike: its brackets are nested and clear, it is a group of such
operands, it is a reference with its clauses, or it is prose. In a reference and in prose brackets may
be left without a match. The height counts the braces and parentheses that are read one in another. -/
inductive IsClearOperand : (height : Nat) → Text → Prop where
  | nested {height : Nat} {forest : Forest} (hclear : forest.clear false true)
      (hheight : forest.height ≤ height) : IsClearOperand height forest.text
  | group {height : Nat} {operand body : Text} (hgroup : parenthesised? operand = some body)
      (hbody : ∀ part ∈ cutOperands body, IsClearOperand height part) :
      IsClearOperand (height + 1) operand
  | reference {height : Nat} {body clauses after : Text}
      (hmatch : enclosed? '[' ']' 0 (body ++ ']' :: (clauses ++ after)) = some (body, clauses ++ after))
      (hsuffix : Clause.isSuffix (clauses ++ after))
      (husable : (Reference.parse? (body ++ (clauses ++ after))).isSome)
      (htakes : TakesClauses clauses after) (hskip : '[' ∉ after ∧ '{' ∉ after)
      (hsame : Reference.parse? (body ++ clauses) = Reference.parse? (body ++ (clauses ++ after))) :
      IsClearOperand height ('[' :: body ++ ']' :: (clauses ++ after))
  | prose {height : Nat} {operand : Text} (hgroup : parenthesised? operand = none)
      (hreference : decorated? operand = none)
      (hprose : Piece.IsProse true (Piece.split operand))
      (hheight : ∀ body, .braced body ∈ Piece.split operand → '[' ∈ body → 0 < height)
      (hbraced : ∀ body, .braced body ∈ Piece.split operand → '[' ∈ body →
        ∀ part ∈ cutOperands body, IsClearOperand (height - 1) part) :
      IsClearOperand height operand

namespace Agrees

variable {bound : Nat} {operand body : Text}

theorem mono (h : Agrees bound operand) {bound' : Nat} (hle : bound ≤ bound') :
    Agrees bound' operand :=
  ⟨h.scanned, fun depth hdepth => h.read depth (Nat.le_trans hle hdepth)⟩

theorem nested {forest : Forest} (hlone : IsLone forest.text) (hclear : forest.clear false true)
    (hheight : 4 * forest.height ≤ bound) : Agrees bound forest.text := by
  have hmem : forest.text ∈ cutOperands forest.text := by
    simp [cutOperands, hlone.all, hlone.one]
  refine .of_finds (forest.flatReferences false true)
    (fun tail htail braced hbraced last hopens => ?_) fun depth hdepth => ?_
  · rw [forest.isScanned htail braced hbraced last, hopens]
  · rw [Forest.operandReferences_of_clear (Forest.readsBelow _) hclear hmem (by omega),
      forest.inBraces_text]

theorem group (hgroup : parenthesised? operand = some body)
    (hbody : ∀ part ∈ cutOperands body, Agrees bound part) : Agrees (bound + 3) operand := by
  refine .of_finds (inBraces body) (fun tail htail braced hbraced last hopens => ?_)
    fun depth hdepth => ?_
  · obtain ⟨rfl, -⟩ := parenthesised?_eq hgroup
    have hlast : Text.lastSolid last ['('] = some '(' :=
      Text.lastSolid_append_solid last [] (by decide)
    simp only [List.length_cons, List.length_append, List.length_nil] at hbraced ⊢
    have hleft : braced - 1 - body.length - 1 = braced - (body.length + (0 + 1) + 1) := by omega
    rw [List.cons_append, List.append_assoc, List.singleton_append, flat_step (if_neg (by decide)),
      bracedLength_of_ne (by decide), Nat.max_zero, hlast,
      Agrees.finds hbody (.stop (.inr (by decide)) tail) _ (by omega) _ rfl,
      flat_closing (by decide), htail.flat_eq _ _ none, hleft]
  · rw [operandReferences, Shape.ofOperand_group hgroup]
    exact Agrees.references hbody hdepth

theorem reference {clauses after : Text}
    (hmatch : enclosed? '[' ']' 0 (body ++ ']' :: (clauses ++ after)) = some (body, clauses ++ after))
    (hsuffix : Clause.isSuffix (clauses ++ after))
    (husable : (Reference.parse? (body ++ (clauses ++ after))).isSome)
    (htakes : TakesClauses clauses after) (hskip : '[' ∉ after ∧ '{' ∉ after)
    (hsame : Reference.parse? (body ++ clauses) = Reference.parse? (body ++ (clauses ++ after))) :
    Agrees bound ('[' :: body ++ ']' :: (clauses ++ after)) := by
  refine .of_finds (Reference.parse? (body ++ (clauses ++ after))).toList
    (fun tail htail braced hbraced last hopens => ?_) fun depth _ => ?_
  · have htaken : taken braced last (clauses ++ (after ++ tail)) = clauses := by
      rw [taken, decide_eq_true (Nat.zero_lt_of_lt hbraced), hopens, ← List.append_assoc]
      exact htakes tail htail
    have htext : '[' :: body ++ ']' :: (clauses ++ after) ++ tail =
        '[' :: (body ++ ']' :: (clauses ++ (after ++ tail))) := by simp
    have hleft : braced - (withClauses body clauses).length - after.length =
        braced - ('[' :: body ++ ']' :: (clauses ++ after)).length := by
      rw [length_withClauses]
      simp only [List.length_append, List.length_cons]
      omega
    rw [htext, flat_bracket (enclosed?_behind hmatch _), htaken, hsame, List.drop_left,
      flat_skip hskip, htail.flat_eq _ _ none, hleft]
  · have hdecorated : decorated? ('[' :: body ++ ']' :: (clauses ++ after)) =
        Reference.parse? (body ++ (clauses ++ after)) := by
      rw [List.cons_append, decorated?, hmatch]
      exact if_pos hsuffix
    obtain ⟨ref, href⟩ := Option.isSome_iff_exists.1 husable
    have hgroup : parenthesised? ('[' :: body ++ ']' :: (clauses ++ after)) = none :=
      parenthesised?_of_ne (by decide) _
    rw [operandReferences, Shape.ofOperand_of_mem hgroup List.mem_cons_self, hdecorated, href]
    rfl

theorem prose (hgroup : parenthesised? operand = none) (hreference : decorated? operand = none)
    (hprose : Piece.IsProse true (Piece.split operand))
    (hbelow : ∀ body, .braced body ∈ Piece.split operand → '[' ∈ body →
      ∃ below, bound = below + 4 ∧ ∀ part ∈ cutOperands body, Agrees below part) :
    Agrees bound operand := by
  have hinside (body : Text) (hmem : .braced body ∈ Piece.split operand) : FindsInside body := by
    by_cases hsome : '[' ∈ body
    · obtain ⟨below, -, hbody⟩ := hbelow body hmem hsome
      exact (Agrees.finds hbody).inside
    · exact findsInside_of_not_mem (Piece.isClosed_of_mem_split _ hmem) hsome
  refine .of_finds ((Piece.split operand).flatMap Piece.scanned)
    (fun tail htail braced hbraced last hopens => ?_) fun depth hdepth => ?_
  · have htext := Piece.flatMap_raw_split operand
    have hscan := Piece.flat_prose Piece.isClosed_of_mem_split hinside (hopens.symm ▸ hprose) htail
      (htext.symm ▸ hbraced)
    rwa [htext] at hscan
  · by_cases hsome : '[' ∈ operand
    · rw [operandReferences, Shape.ofOperand_of_mem hgroup hsome, hreference]
      refine Piece.references_readTemplate fun body hmem hbody => ?_
      obtain ⟨below, hbound, hagrees⟩ := hbelow body hmem hbody
      exact ⟨depth - 1, by omega, Agrees.references hagrees (by omega)⟩
    · rw [operandReferences_of_bare hsome, eq_comm, List.flatMap_eq_nil_iff]
      exact fun piece hpiece => Piece.scanned_of_not_mem fun hmem => hsome (Piece.raw_subset hpiece hmem)

end Agrees

theorem IsClearOperand.agrees {height : Nat} {operand : Text} (h : IsClearOperand height operand)
    (hlone : IsLone operand) : Agrees (4 * height) operand := by
  induction h with
  | nested hclear hheight => exact .nested hlone hclear (by omega)
  | group hgroup _ ih =>
    have hagrees := Agrees.group hgroup fun part hpart => ih part hpart (isLone_of_mem_cutOperands hpart)
    exact hagrees.mono (by omega)
  | reference hmatch hsuffix husable htakes hskip hsame =>
    exact .reference hmatch hsuffix husable htakes hskip hsame
  | @prose height operand hgroup hreference hprose hheight _ ih =>
    refine .prose hgroup hreference hprose fun body hmem hsome => ?_
    have hpos := hheight body hmem hsome
    refine ⟨4 * (height - 1), by omega, fun part hpart => ?_⟩
    exact ih body hmem hsome part hpart (isLone_of_mem_cutOperands hpart)

/-- The operands of a clear forest are clear. -/
theorem Forest.isClearOperand {forest : Forest} (hclear : forest.clear false true) {height : Nat}
    (hheight : forest.height ≤ height) {operand : Text} (h : operand ∈ cutOperands forest.text) :
    IsClearOperand height operand := by
  obtain ⟨operand, rfl, -, hclear', hle⟩ := exists_operand hclear h
  exact .nested hclear' (Nat.le_trans hle hheight)

end RandomTables
