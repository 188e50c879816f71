import Mathlib.Data.List.Infix
import RandomTables.Proofs.Template.Repair
import RandomTables.Proofs.Template.Span

/-! # Paths that the scan finds

Whatever way the tree of a template cuts its expressions, each of its references is a bracket pair of
the template with some clauses behind it. The scan finds a pair at the same place, with clauses of its
own choice, or a pair around it.
-/

namespace RandomTables

open RandomTables.Bracket

/-! ## Parts of a text -/

theorem Text.trim_isInfix (t : Text) : trim t <:+: t := by
  obtain ⟨before, after, hsplit, -, -⟩ := trim_between t
  exact ⟨before, after, hsplit.symm⟩

namespace Token

theorem opensOperand_lastSolid {last : Option Char} {t : Text} (hlast : opensOperand last)
    (ht : opensOperand (Text.lastSolid (some '{') t)) : opensOperand (Text.lastSolid last t) := by
  rcases Text.lastSolid_cases t with hsame | ⟨c, hc⟩
  · rwa [hsame]
  · rwa [hc] at ht ⊢

theorem opensOperand_lastSolid_none {t : Text} (h : opensOperand (Text.lastSolid none t))
    (last : Option Char) : opensOperand (Text.lastSolid last t) := by
  rcases Text.lastSolid_cases t with hsame | ⟨c, hc⟩
  · rw [hsame] at h
    cases h
  · rwa [hc] at h ⊢

end Token

/-- The text stands in an expression where an operand can start. -/
def IsOperandIn (s t : Text) : Prop :=
  ∃ before after, before ++ s ++ after = t ∧ Token.opensOperand (Text.lastSolid (some '{') before)

namespace IsOperandIn

theorem refl (t : Text) : IsOperandIn t t := ⟨[], [], List.append_nil t, rfl⟩

theorem trans {s t u : Text} (hst : IsOperandIn s t) (htu : IsOperandIn t u) : IsOperandIn s u := by
  obtain ⟨before, after, rfl, hopens⟩ := hst
  obtain ⟨before', after', rfl, hopens'⟩ := htu
  refine ⟨before' ++ before, after ++ after', by simp, ?_⟩
  rw [Text.lastSolid_append]
  exact Token.opensOperand_lastSolid hopens' hopens

theorem isInfix {s t : Text} (h : IsOperandIn s t) : s <:+: t := by
  obtain ⟨before, after, rfl, -⟩ := h
  exact ⟨before, after, rfl⟩

theorem trim (t : Text) : IsOperandIn (Text.trim t) t := by
  obtain ⟨before, after, hsplit, hbefore, -⟩ := Text.trim_between t
  refine ⟨before, after, hsplit.symm, ?_⟩
  rw [Text.lastSolid_of_blank _ hbefore]
  rfl

end IsOperandIn

namespace Bracket

theorem pieces_places (sep : Char) (depth : Int) (t : Text) :
    (∀ piece ∈ (pieces sep depth t).head?, piece <+: t) ∧
      ∀ piece ∈ (pieces sep depth t).tail, ∃ before, before ++ sep :: piece <+: t := by
  induction t generalizing depth with
  | nil =>
    rw [pieces]
    simp
  | cons c t ih =>
    have hlater {depth : Int} {piece : Text} (h : piece ∈ (pieces sep depth t).tail) :
        ∃ before, before ++ sep :: piece <+: c :: t := by
      obtain ⟨before, hbefore⟩ := (ih depth).2 piece h
      exact ⟨c :: before, List.cons_prefix_cons.2 ⟨rfl, hbefore⟩⟩
    rw [pieces_cons]
    split
    · next hcut =>
      obtain ⟨-, rfl, -⟩ := hcut
      refine ⟨?_, fun piece hpiece => ?_⟩
      · simp
      · obtain ⟨first, more, hcuts⟩ := List.exists_cons_of_ne_nil (pieces_ne_nil c depth t)
        obtain ⟨hfirst, hmore⟩ := ih depth
        rw [List.tail_cons, hcuts] at hpiece
        rw [hcuts] at hfirst hmore
        rcases List.mem_cons.1 hpiece with rfl | hpiece
        · exact ⟨[], List.cons_prefix_cons.2 ⟨rfl, hfirst _ rfl⟩⟩
        · obtain ⟨before, hbefore⟩ := hmore piece hpiece
          exact ⟨c :: before, List.cons_prefix_cons.2 ⟨rfl, hbefore⟩⟩
    · obtain ⟨first, more, hcuts⟩ :=
        List.exists_cons_of_ne_nil (pieces_ne_nil sep (step depth c) t)
      obtain ⟨hfirst, hmore⟩ := ih (step depth c)
      rw [hcuts] at hfirst hmore ⊢
      refine ⟨fun piece hpiece => ?_, fun piece hpiece => ?_⟩
      · cases hpiece
        exact List.cons_prefix_cons.2 ⟨rfl, hfirst first rfl⟩
      · obtain ⟨before, hbefore⟩ := hmore piece hpiece
        exact ⟨c :: before, List.cons_prefix_cons.2 ⟨rfl, hbefore⟩⟩

end Bracket

namespace IsOperandIn

theorem of_mem_pieces {sep : Char} (hsep : isOperator sep) {t piece : Text}
    (h : piece ∈ pieces sep 0 t) : IsOperandIn piece t := by
  obtain ⟨hfirst, hmore⟩ := pieces_places sep 0 t
  obtain ⟨first, more, hcuts⟩ := List.exists_cons_of_ne_nil (pieces_ne_nil sep 0 t)
  rw [hcuts] at h hfirst hmore
  rcases List.mem_cons.1 h with rfl | h
  · obtain ⟨after, hsplit⟩ := hfirst _ rfl
    exact ⟨[], after, hsplit, rfl⟩
  · obtain ⟨before, after, hsplit⟩ := hmore piece h
    refine ⟨before ++ [sep], after, by rw [← hsplit]; simp, ?_⟩
    rw [Text.lastSolid_append_solid _ _ (not_isBlank_of_isOperator hsep)]
    exact Token.opensOperand_of_isOperator hsep

theorem operand {sep : Char} (hsep : isOperator sep) {t part : Text} (h : part ∈ operands sep t) :
    IsOperandIn part t := by
  rw [operands] at h
  obtain ⟨piece, hpiece, rfl⟩ := List.mem_map.1 (List.mem_filter.1 h).1
  exact (IsOperandIn.trim piece).trans (.of_mem_pieces hsep hpiece)

theorem headD_operands {sep : Char} (hsep : isOperator sep) (t : Text) :
    IsOperandIn ((operands sep t).headD t) t := by
  cases hparts : operands sep t with
  | nil => exact .refl t
  | cons part more =>
    have hpart : part ∈ operands sep t := hparts ▸ List.mem_cons_self
    exact .operand hsep hpart

theorem lone {t operand : Text} (h : loneOperand? t = some operand) : IsOperandIn operand t := by
  unfold loneOperand? at h
  dsimp only at h
  split at h
  · cases h
  · cases h
    exact (IsOperandIn.headD_operands rfl _).trans (.headD_operands rfl t)

theorem group {t body : Text} (h : parenthesised? t = some body) : IsOperandIn body t := by
  unfold parenthesised? at h
  split at h
  · split at h
    · next body' hmatch =>
      cases h
      rw [enclosed?_eq hmatch]
      exact ⟨['('], [')'], rfl, rfl⟩
    · cases h
  · cases h

end IsOperandIn

namespace Bracket

theorem enclosed?_isInfix (kind : Kind) {t u body rest body' rest' : Text} {i : Nat}
    (houter : enclosed? kind.opening kind.closing 0 t = some (body', rest'))
    (hdrop : t.drop i = kind.opening :: u)
    (hinner : enclosed? kind.opening kind.closing 0 u = some (body, rest))
    (hi : i < body'.length) :
    kind.opening :: body ++ [kind.closing] <:+: body' := by
  have hlength : (t.take i).length = i := by
    have := enclosed?_length houter
    rw [List.length_take]
    omega
  rw [← List.take_append_drop i t, hdrop] at houter
  obtain ⟨inner', body'', hpass, rfl⟩ := enclosed?_pass houter (by omega)
  rw [enclosed?_opening] at hpass
  obtain ⟨⟨b, r⟩, hb, heq⟩ := Option.map_eq_some_iff.1 hpass
  cases heq
  -- Both bodies start at the same place, and the one with fewer brackets open is the shorter.
  have hlonger : body.length < b.length := enclosed?_length_lt (Nat.succ_pos inner') hinner hb
  have hstarts : body ++ [kind.closing] <+: b := by
    refine List.prefix_of_prefix_length_le ⟨rest, ?_⟩ ⟨kind.closing :: rest', (enclosed?_eq hb).symm⟩ ?_
    · rw [enclosed?_eq hinner]
      simp
    · rw [List.length_append]
      exact hlonger
  obtain ⟨more, hmore⟩ := hstarts
  exact ⟨t.take i, more, by rw [← hmore]; simp⟩

theorem cutOutside_isPrefix (p : Char → Bool) (depth : Int) (t : Text) :
    (cutOutside p depth t).1 <+: t := by
  induction t generalizing depth with
  | nil => exact List.nil_prefix
  | cons c t ih =>
    rw [cutOutside]
    split
    · exact List.nil_prefix
    · exact List.cons_prefix_cons.2 ⟨rfl, ih (step depth c)⟩

end Bracket

theorem Piece.raw_isInfix {t : Text} {piece : Piece} (h : piece ∈ Piece.split t) :
    piece.raw <:+: t := by
  rw [← Piece.flatMap_raw_split t]
  obtain ⟨before, after, hsplit⟩ := List.append_of_mem h
  refine ⟨before.flatMap raw, after.flatMap raw, ?_⟩
  rw [hsplit]
  simp

/-! ## References of the tree -/

namespace Token

theorem stands_of_matched {t u inner suffix behind : Text} {start : Nat}
    (hdrop : t.drop start = '[' :: u) (hmatch : enclosed? '[' ']' 0 u = some (inner, suffix ++ behind))
    (hclauses : suffix = [] ∨ Clause.isSuffix suffix) : Stands t start inner suffix where
  spelled := ⟨behind, by rw [hdrop, enclosed?_eq hmatch]; simp [withClauses]⟩
  matched := by rw [partner?_of_drop hdrop, hmatch]; rfl
  clauses := hclauses

theorem Stands.exists_match {t inner suffix : Text} {start : Nat} (h : Stands t start inner suffix) :
    ∃ u behind, t.drop start = '[' :: u ∧
      enclosed? '[' ']' 0 u = some (inner, suffix ++ behind) := by
  obtain ⟨behind, hspelled⟩ := h.spelled
  have hdrop : t.drop start = '[' :: (inner ++ ']' :: (suffix ++ behind)) := by
    rw [← hspelled]
    simp [withClauses]
  have hmatched := h.matched
  rw [partner?_of_drop hdrop] at hmatched
  obtain ⟨⟨body, rest⟩, hmatch, hlength⟩ := Option.map_eq_some_iff.1 hmatched
  -- The match is as long as the text between the brackets, so it is that text.
  have hsame : inner.length = body.length := by
    dsimp only at hlength
    omega
  obtain ⟨rfl, hrest⟩ := List.append_inj (enclosed?_eq hmatch) hsame
  cases hrest
  exact ⟨_, behind, hdrop, hmatch⟩

theorem Stands.within {s inner suffix : Text} {start : Nat} (h : Stands s start inner suffix)
    (before after : Text) : Stands (before ++ s ++ after) (before.length + start) inner suffix := by
  obtain ⟨u, behind, hdrop, hmatch⟩ := h.exists_match
  have hdrop' : (before ++ s ++ after).drop (before.length + start) = '[' :: (u ++ after) := by
    have hle : start ≤ s.length := Nat.le_of_lt (List.getElem?_eq_some_iff.1 (getElem?_of_drop hdrop)).1
    rw [List.append_assoc, List.drop_length_add_append, List.drop_append_of_le_length hle, hdrop]
    rfl
  have hmatch' : enclosed? '[' ']' 0 (u ++ after) = some (inner, suffix ++ (behind ++ after)) := by
    rw [enclosed?_eq hmatch, List.append_assoc, List.cons_append, List.append_assoc]
    exact enclosed?_behind hmatch _
  exact stands_of_matched hdrop' hmatch' h.clauses

end Token

/-- A bracket pair of the text reads as the reference, with clauses behind it only at such a place. -/
def IsSpelledWhere (opens : Text → Nat → Prop) (t : Text) (ref : Reference) : Prop :=
  ∃ start inner suffix, Token.Stands t start inner suffix ∧ (suffix = [] ∨ opens t start) ∧
    Reference.parse? (inner ++ suffix) = some ref

/-- The reference is spelled in a template. -/
def IsSpelledIn : Text → Reference → Prop := IsSpelledWhere Token.OpensAt

/-- The reference is spelled in what stands between the braces of a template. -/
def IsSpelledInside : Text → Reference → Prop :=
  IsSpelledWhere fun t start => Token.opensOperand (Text.lastSolid (some '{') (t.take start))

theorem IsSpelledWhere.within {opens opens' : Text → Nat → Prop} {s before after : Text}
    {ref : Reference} (h : IsSpelledWhere opens s ref)
    (hopens : ∀ start, start < s.length → opens s start →
      opens' (before ++ s ++ after) (before.length + start)) :
    IsSpelledWhere opens' (before ++ s ++ after) ref := by
  obtain ⟨start, inner, suffix, hstands, htakes, href⟩ := h
  have hlt : start < s.length := by
    have hle := hstands.length_le
    rw [Token.length_withClauses] at hle
    omega
  exact ⟨_, inner, suffix, hstands.within before after, htakes.imp_right (hopens start hlt), href⟩

theorem take_within {s before after : Text} {start : Nat} (h : start < s.length) :
    (before ++ s ++ after).take (before.length + start) = before ++ s.take start := by
  rw [List.append_assoc, List.take_length_add_append, List.take_append_of_le_length (Nat.le_of_lt h)]

theorem IsSpelledInside.of_operand {s t : Text} {ref : Reference} (h : IsSpelledInside s ref)
    (hwithin : IsOperandIn s t) : IsSpelledInside t ref := by
  obtain ⟨before, after, rfl, hbefore⟩ := hwithin
  refine IsSpelledWhere.within h fun start hlt hopens => ?_
  rw [take_within hlt, Text.lastSolid_append]
  exact Token.opensOperand_lastSolid hbefore hopens

theorem IsSpelledIn.inside {s t : Text} {ref : Reference} (h : IsSpelledIn s ref) (hwithin : s <:+: t) :
    IsSpelledInside t ref := by
  obtain ⟨before, after, rfl⟩ := hwithin
  refine IsSpelledWhere.within h fun start hlt hopens => ?_
  rw [take_within hlt, Text.lastSolid_append]
  exact Token.opensOperand_lastSolid_none hopens.opens _

theorem Piece.isSpelledIn_of_bracketed {t body : Text} {ref : Reference}
    (h : .bracketed body ∈ Piece.split t) (href : Reference.parse? body = some ref) :
    IsSpelledIn t ref := by
  obtain ⟨before, after, rfl⟩ := raw_isInfix h
  have hmatched : enclosed? '[' ']' 0 (body ++ [']']) = some (body, []) := isClosed_of_mem_split _ h
  have hself : Token.Stands (Piece.bracketed body).raw 0 body [] :=
    Token.stands_of_matched rfl hmatched (.inl rfl)
  exact ⟨_, body, [], hself.within before after, .inl rfl, by rwa [List.append_nil]⟩

theorem Piece.isSpelledIn_of_braced {t body : Text} {ref : Reference}
    (h : .braced body ∈ Piece.split t) (href : IsSpelledInside body ref) : IsSpelledIn t ref := by
  obtain ⟨before, after, rfl⟩ := raw_isInfix h
  have hmatched : enclosed? '{' '}' 0 (body ++ ['}']) = some (body, []) := isClosed_of_mem_split _ h
  have hsplit : before ++ (Piece.braced body).raw ++ after = (before ++ ['{']) ++ body ++ ('}' :: after) := by
    simp [raw]
  have hlength : Token.bracedLength ((before ++ ['{'] ++ body ++ '}' :: after).drop before.length) =
      body.length + 2 := by
    have hdrop : (before ++ ['{'] ++ body ++ '}' :: after).drop before.length =
        '{' :: (body ++ '}' :: after) := by
      simp
    rw [hdrop, Token.bracedLength, enclosed?_behind hmatched]
  rw [hsplit]
  refine IsSpelledWhere.within href fun start hlt hopens => ⟨⟨before.length, ?_, ?_⟩, ?_⟩
  · simp
    omega
  · rw [hlength]
    simp
    omega
  · rw [take_within hlt, Text.lastSolid_append, Text.lastSolid_append_solid _ _ (by decide)]
    exact hopens

theorem isSpelledInside_of_decorated {t : Text} {ref : Reference} (h : decorated? t = some ref) :
    IsSpelledInside t ref := by
  unfold decorated? at h
  split at h
  · split at h
    · next u body suffix hmatch =>
      split at h
      · next hsuffix =>
        refine ⟨0, body, suffix, ?_, .inr rfl, h⟩
        exact Token.stands_of_matched rfl (by rw [List.append_nil]; exact hmatch) (.inr hsuffix)
      · cases h
    · cases h
  · cases h

theorem Shape.isSpelledInside_of_leaf {t : Text} {node : Node} (h : Shape.of t = .leaf node)
    {ref : Reference} (href : ref ∈ node.references) : IsSpelledInside t ref := by
  cases hlone : loneOperand? t with
  | none =>
    obtain ⟨parts, hall | hone⟩ := of_not_loneOperand hlone
    · rw [hall] at h
      cases h
    · rw [hone] at h
      cases h
  | some operand =>
    rw [of_loneOperand hlone, ofOperand] at h
    split at h
    · cases h
    · split at h
      · cases h
        cases href
      · split at h
        · cases h
          cases href
        · split at h
          · split at h
            · next ref' hdecorated =>
              cases h
              rw [List.mem_singleton.1 href]
              exact (isSpelledInside_of_decorated hdecorated).of_operand (.lone hlone)
            · cases h
          · cases h
            cases href

/-- Whatever the limit, each reference of a tree is spelled in its text. -/
theorem isSpelledIn_of_mem_references (depth : Nat) :
    (∀ t, ∀ ref ∈ (readExpression depth t).references, IsSpelledInside t ref) ∧
      ∀ t, ∀ ref ∈ (readTemplate depth t).references, IsSpelledIn t ref := by
  have hpieces {reader : Text → Node}
      (hreader : ∀ t, ∀ ref ∈ (reader t).references, IsSpelledInside t ref) (t : Text) :
      ∀ ref ∈ (Node.concat ((Piece.split t).map (Piece.node reader))).references,
        IsSpelledIn t ref := by
    intro ref href
    rw [Piece.references_concat] at href
    obtain ⟨piece, hpiece, href⟩ := List.mem_flatMap.1 href
    cases piece with
    | literal c => cases href
    | bracketed body =>
      rw [Piece.references_bracketed, Option.mem_toList] at href
      exact Piece.isSpelledIn_of_bracketed hpiece href
    | braced body => exact Piece.isSpelledIn_of_braced hpiece (hreader body ref href)
  induction depth with
  | zero =>
    refine ⟨fun t ref href => ?_, fun t => ?_⟩
    · rw [readExpression] at href
      cases href
    · rw [readTemplate]
      exact hpieces (fun _ _ href => by cases href) t
  | succ depth ih =>
    obtain ⟨hexpression, htemplate⟩ := ih
    refine ⟨fun t ref href => ?_, fun t => ?_⟩
    · rw [readExpression_succ] at href
      have hwithin : (Shape.of (Text.trim t)).Forall (IsOperandIn · t) :=
        Shape.forall_of (fun _ _ _ hsep h hpart => (IsOperandIn.operand hsep hpart).trans h)
          (fun _ _ h hbody => (IsOperandIn.group hbody).trans h) (.trim t)
      cases hshape : Shape.of (Text.trim t) with
      | all parts | oneOf parts =>
        rw [hshape] at href hwithin
        simp only [Shape.references_all, Shape.references_oneOf] at href
        obtain ⟨part, hpart, href⟩ := List.mem_flatMap.1 href
        exact (hexpression part ref href).of_operand (hwithin part hpart)
      | group body =>
        rw [hshape] at href hwithin
        exact (hexpression body ref href).of_operand hwithin
      | leaf node =>
        rw [hshape] at href
        exact (Shape.isSpelledInside_of_leaf hshape href).of_operand (.trim t)
      | prose operand =>
        rw [hshape] at href hwithin
        exact (htemplate operand ref href).inside hwithin.isInfix
    · rw [readTemplate]
      exact hpieces hexpression t

/-! ## References of the scan -/

namespace Token

/-- The bracket pair that opens a text, and the text behind it. -/
def square? : Text → Option (Text × Text)
  | '[' :: t => enclosed? '[' ']' 0 t
  | _ => none

/-- Behind each bracket pair that can open an operand, the clauses that the scan takes hold no bracket
pair of their own, and the path is the same with any clauses. -/
def ClausesApart (template : Text) : Prop :=
  ∀ start, OpensAt template start → ∀ inner rest, square? (template.drop start) = some (inner, rest) →
    '[' ∉ clauseSuffix rest ∧ ∀ suffix, suffix <+: rest → Clause.isSuffix suffix →
      (Reference.parse? (inner ++ suffix)).map (·.path) = (Reference.parse? inner).map (·.path)

instance (template : Text) (start : Nat) : Decidable (OpensAt template start) :=
  decidable_of_iff ((∃ i < start, start < i + bracedLength (template.drop i)) ∧
      opensOperand (Text.lastSolid none (template.take start)))
    ⟨fun ⟨braced, opens⟩ => { braced, opens }, fun h => ⟨h.braced, h.opens⟩⟩

instance (template : Text) : Decidable (ClausesApart template) :=
  decidable_of_iff
    (∀ start ∈ List.range template.length, OpensAt template start →
      ∀ pair ∈ square? (template.drop start), '[' ∉ clauseSuffix pair.2 ∧
        ∀ suffix ∈ pair.2.inits, Clause.isSuffix suffix →
          (Reference.parse? (pair.1 ++ suffix)).map (·.path) =
            (Reference.parse? pair.1).map (·.path)) <| by
    constructor
    · intro h start hopens inner rest hsquare
      have hlt : start < template.length := by
        by_contra hle
        rw [List.drop_eq_nil_of_le (Nat.not_lt.1 hle)] at hsquare
        cases hsquare
      obtain ⟨hbare, hsame⟩ := h start (List.mem_range.2 hlt) hopens _ hsquare
      exact ⟨hbare, fun suffix hstarts => hsame suffix ((List.mem_inits _ _).2 hstarts)⟩
    · rintro h start - hopens ⟨inner, rest⟩ hsquare
      obtain ⟨hbare, hsame⟩ := h start hopens inner rest hsquare
      exact ⟨hbare, fun suffix hmem => hsame suffix ((List.mem_inits _ _).1 hmem)⟩

theorem Stands.exists_square {t inner suffix : Text} {start : Nat} (h : Stands t start inner suffix) :
    ∃ rest, square? (t.drop start) = some (inner, rest) ∧ suffix <+: rest ∧
      t.drop (start + inner.length + 2) = rest := by
  obtain ⟨u, behind, hdrop, hmatch⟩ := h.exists_match
  refine ⟨suffix ++ behind, by rw [hdrop]; exact hmatch, List.prefix_append _ _, ?_⟩
  exact (stands_of_match hdrop hmatch 0 none).2.1

theorem ClausesApart.path {t inner suffix : Text} (h : ClausesApart t) {start : Nat}
    (hstands : Stands t start inner suffix) (hopens : suffix = [] ∨ OpensAt t start) :
    (Reference.parse? (inner ++ suffix)).map (·.path) = (Reference.parse? inner).map (·.path) := by
  rcases hopens with rfl | hopens
  · rw [List.append_nil]
  · obtain ⟨rest, hsquare, hstarts, -⟩ := hstands.exists_square
    rcases hstands.clauses with rfl | hclauses
    · rw [List.append_nil]
    · exact (h start hopens inner rest hsquare).2 suffix hstarts hclauses

theorem ClausesApart.bare {t inner suffix : Text} (h : ClausesApart t) {start : Nat}
    (hstands : Stands t start inner suffix) (htakes : Takes t start inner suffix) : '[' ∉ suffix := by
  rcases htakes with rfl | ⟨hopens, rfl⟩
  · exact List.not_mem_nil
  · obtain ⟨rest, hsquare, -, hrest⟩ := hstands.exists_square
    rw [hrest]
    exact (h start hopens inner rest hsquare).1

theorem Stands.inner_unique {t inner inner' suffix suffix' : Text} {start : Nat}
    (h : Stands t start inner suffix) (h' : Stands t start inner' suffix') : inner = inner' := by
  obtain ⟨u, behind, hdrop, hmatch⟩ := h.exists_match
  obtain ⟨u', behind', hdrop', hmatch'⟩ := h'.exists_match
  cases hdrop.symm.trans hdrop'
  exact congrArg Prod.fst (Option.some.inj (hmatch.symm.trans hmatch'))

/-- A bracket pair that opens inside another one, and not in the clauses behind it, is a part of what
stands between the other's brackets. -/
theorem Stands.nested {t inner suffix inner' suffix' : Text} {start i : Nat}
    (houter : Stands t start inner suffix) (hinner : Stands t i inner' suffix') (hlt : start < i)
    (hbefore : i < start + (withClauses inner suffix).length) (hclauses : '[' ∉ suffix) :
    withClauses inner' [] <:+: inner := by
  obtain ⟨u, behind, hdrop, hmatch⟩ := houter.exists_match
  obtain ⟨u', behind', hdrop', hmatch'⟩ := hinner.exists_match
  have hoffset : u.drop (i - start - 1) = '[' :: u' := by
    have hsplit : (t.drop start).drop (1 + (i - start - 1)) = t.drop i := by
      rw [List.drop_drop]
      congr 1
      omega
    rw [hdrop, hdrop', Nat.add_comm] at hsplit
    exact hsplit
  rw [length_withClauses] at hbefore
  by_cases hinside : i - start - 1 < inner.length
  · exact enclosed?_isInfix .square hmatch hoffset hmatch' hinside
  · -- Behind the body stands the closing bracket, and then come the clauses.
    exfalso
    have hopening : u[i - start - 1]? = some '[' := getElem?_of_drop hoffset
    rw [enclosed?_eq hmatch, List.getElem?_append_right (by omega)] at hopening
    cases hplace : i - start - 1 - inner.length with
    | zero =>
      rw [hplace, List.getElem?_cons_zero] at hopening
      cases hopening
    | succ place =>
      rw [hplace, List.getElem?_cons_succ, List.getElem?_append_left (by omega)] at hopening
      exact hclauses (List.mem_of_getElem? hopening)

end Token

theorem Issue.reference_of_nested {body : Text} (h : '[' ∈ body) (position : Nat) :
    reference position body = [.nestedReference ('[' :: body ++ [']'])] := by
  rw [reference, if_pos (List.contains_iff_mem.2 h)]

theorem Issue.nestedReference_mem_regions {i : Nat} (position : Nat) {t u body rest : Text}
    (hdrop : t.drop i = '[' :: u) (hmatch : enclosed? '[' ']' 0 u = some (body, rest))
    (hnested : '[' ∈ body) :
    ∃ raw, .nestedReference raw ∈ regions position t ∧ body <:+: raw := by
  -- A place behind the first code point is one of the rest.
  have hlater {c : Char} {t : Text} {i : Nat} (hdrop : (c :: t).drop (i + 1) = '[' :: u) :
      t.drop i = '[' :: u := hdrop
  fun_induction regions position t generalizing i with
  | case1 =>
    rw [List.drop_nil] at hdrop
    cases hdrop
  | case2 position c t body' rest' hfound ih =>
    have hopens : enclosed? '[' ']' 0 t = some (body', rest') := by
      split at hfound
      · exact hfound
      · cases hfound
    cases i with
    | zero =>
      cases hdrop
      cases hmatch.symm.trans hopens
      refine ⟨_, List.mem_append_left _ ?_, ⟨['['], [']'], rfl⟩⟩
      rw [reference_of_nested hnested]
      exact List.mem_singleton_self _
    | succ i =>
      replace hdrop := hlater hdrop
      by_cases hinside : i < body'.length
      · have hwithin : '[' :: body ++ [']'] <:+: body' :=
          enclosed?_isInfix .square hopens hdrop hmatch hinside
        have hbody : body <:+: body' := List.IsInfix.trans ⟨['['], [']'], rfl⟩ hwithin
        refine ⟨_, List.mem_append_left _ ?_, hbody.trans ⟨['['], [']'], rfl⟩⟩
        rw [reference_of_nested (hbody.subset hnested)]
        exact List.mem_singleton_self _
      · rw [enclosed?_eq hopens, List.drop_append, List.drop_eq_nil_of_le (by omega),
          List.nil_append] at hdrop
        cases hplace : i - body'.length with
        | zero =>
          rw [hplace] at hdrop
          cases hdrop
        | succ place =>
          rw [hplace] at hdrop
          obtain ⟨raw, hmem, hraw⟩ := ih (hlater hdrop)
          exact ⟨raw, List.mem_append_right _ hmem, hraw⟩
  | case3 position c t hfound body' rest' hbraced ih =>
    cases i with
    | zero =>
      cases hdrop
      rw [dif_pos rfl, hmatch] at hfound
      cases hfound
    | succ i =>
      obtain ⟨raw, hmem, hraw⟩ := ih (hlater hdrop)
      exact ⟨raw, List.mem_append_right _ hmem, hraw⟩
  | case4 position c t hfound hbraced ih =>
    cases i with
    | zero =>
      cases hdrop
      rw [dif_pos rfl, hmatch] at hfound
      cases hfound
    | succ i => exact ih (hlater hdrop)

/-! ## Paths -/

namespace Reference

theorem path_foldl (clauses : List Clause) (ref : Reference) :
    (clauses.foldl Clause.apply ref).path = ref.path := by
  induction clauses generalizing ref with
  | nil => rfl
  | cons clause clauses ih =>
    rw [List.foldl_cons, ih]
    cases clause <;> rfl

theorem path?_isInfix {t path : Text} {modifiers : List Modifier} (h : path? t = some (path, modifiers)) :
    path <:+: t := by
  have hjoin {segments parts : List Text} (hstarts : segments <+: parts) :
      ['.'].intercalate segments <+: ['.'].intercalate parts := by
    obtain ⟨more, rfl⟩ := hstarts
    by_cases hsegments : segments = []
    · rw [hsegments]
      exact List.nil_prefix
    · by_cases hmore : more = []
      · rw [hmore, List.append_nil]
      · rw [Text.intercalate_append hsegments hmore]
        exact List.prefix_append _ _
  unfold path? at h
  dsimp only at h
  split at h
  · cases h
    exact Text.trim_isInfix t
  · split at h
    · cases h
    · cases h
      have hsuffix := (peel_path ((Text.trim t).splitOn '.').reverse).1
      have hsegments := hjoin (List.reverse_prefix.2 hsuffix)
      rw [List.reverse_reverse, List.intercalate_splitOn] at hsegments
      exact (Text.trim_isInfix _).trans (hsegments.isInfix.trans (Text.trim_isInfix t))

theorem path_isInfix {t : Text} {ref : Reference} (h : parse? t = some ref) : ref.path <:+: t := by
  have hcut := (cutOutside_isPrefix Clause.isMark 0 (Text.trim t)).isInfix.trans (Text.trim_isInfix t)
  unfold parse? at h
  obtain ⟨⟨path, modifiers⟩, hpath, rfl⟩ := Option.map_eq_some_iff.1 h
  rw [path_foldl]
  exact (path?_isInfix hpath).trans hcut

end Reference

/-- The path of every reference in the tree of a template is that of a token, or stands in a bracket
pair that is reported since it holds another one. -/
theorem path_of_mem_references {t : Text} (hapart : Token.ClausesApart t) {depth : Nat}
    {ref : Reference} (href : ref ∈ (readTemplate depth t).references) :
    (∃ token ∈ tokens t, token.reference.path = ref.path) ∨
      ∃ raw, .nestedReference raw ∈ issues t ∧ ref.path <:+: raw := by
  obtain ⟨i, body, clauses, hstands, hopens, hread⟩ :=
    (isSpelledIn_of_mem_references depth).2 t ref href
  have hpath : (Reference.parse? body).map (·.path) = some ref.path := by
    rw [← hapart.path hstands hopens, hread]
    rfl
  obtain ⟨u, behind, hdrop, hmatch⟩ := hstands.exists_match
  have hmatched : (partner? t i).isSome := by rw [hstands.matched]; rfl
  obtain ⟨start, inner, suffix, hfound, htakes, hstart, hstop, htokens⟩ :=
    (Token.scans_tokens t).covers (Nat.zero_le i) (getElem?_of_drop hdrop) hmatched
  have hbare := hapart.bare hfound htakes
  have hsame := hapart.path hfound (htakes.imp_right And.left)
  rcases Nat.lt_or_eq_of_le hstart with hlt | rfl
  · -- The scan stopped at a pair around this one.
    right
    have hnested := hfound.nested hstands hlt hstop hbare
    obtain ⟨u', behind', hdrop', hmatch'⟩ := hfound.exists_match
    obtain ⟨raw, hmem, hraw⟩ := Issue.nestedReference_mem_regions 0 hdrop' hmatch'
      (hnested.subset List.mem_cons_self)
    obtain ⟨own, hown, hownPath⟩ := Option.map_eq_some_iff.1 hpath
    have hbody : body <:+: inner := List.IsInfix.trans ⟨['['], [']'], rfl⟩ hnested
    refine ⟨raw, List.mem_append_right _ hmem, ?_⟩
    rw [← hownPath]
    exact (Reference.path_isInfix hown).trans (hbody.trans hraw)
  · left
    rw [hstands.inner_unique hfound, ← hsame] at hpath
    obtain ⟨reference, hreference, hreferencePath⟩ := Option.map_eq_some_iff.1 hpath
    refine ⟨_, htokens { reference, raw := Token.withClauses inner suffix, start } ?_, hreferencePath⟩
    rw [Token.at?, hreference]
    rfl

end RandomTables
