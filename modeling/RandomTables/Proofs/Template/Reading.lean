import RandomTables.Proofs.Template.Clear
import RandomTables.Proofs.Template.Cutting

/-! # Reading forests

The references of the tree of a clear forest are those of the flat scan, as long as the nesting
limit is not reached.
-/

namespace RandomTables

open RandomTables.Bracket RandomTables.Token

/-! ## Pieces of a forest -/

namespace Forest

def splitPieces : Forest → List Piece
  | nil => []
  | plain c rest _ => .literal c :: rest.splitPieces
  | enclosed .square inner rest => .bracketed inner.text :: rest.splitPieces
  | enclosed .curly inner rest => .braced inner.text :: rest.splitPieces
  | enclosed .round inner rest =>
    .literal '(' :: inner.splitPieces ++ .literal ')' :: rest.splitPieces

end Forest

namespace Piece

theorem split_append (forest : Forest) (tail : Text) :
    split (forest.text ++ tail) = forest.splitPieces ++ split tail := by
  induction forest generalizing tail with
  | nil => rfl
  | plain c rest hc ih =>
    rw [Forest.text, List.cons_append,
      split_literal (absurd · (ne_opening_of_plain hc .square))
        (absurd · (ne_opening_of_plain hc .curly)), ih]
    rfl
  | enclosed kind inner rest ihinner ihrest =>
    rw [Forest.text, List.append_assoc, List.cons_append, List.cons_append]
    cases kind with
    | square =>
      rw [Forest.splitPieces, List.cons_append, ← ihrest]
      exact split_bracketed (inner.enclosed?_text .square _)
    | curly =>
      rw [Forest.splitPieces, List.cons_append, ← ihrest]
      exact split_braced (inner.enclosed?_text .curly _)
    | round =>
      have hopening : split ('(' :: (inner.text ++ ')' :: (rest.text ++ tail))) =
          .literal '(' :: split (inner.text ++ ')' :: (rest.text ++ tail)) :=
        split_literal (absurd · (by decide)) (absurd · (by decide))
      have hclosing : split (')' :: (rest.text ++ tail)) =
          .literal ')' :: split (rest.text ++ tail) :=
        split_literal (absurd · (by decide)) (absurd · (by decide))
      rw [ihinner, hclosing, ihrest] at hopening
      rw [Forest.splitPieces, List.append_assoc, List.cons_append, List.cons_append]
      exact hopening

theorem split_text (forest : Forest) : split forest.text = forest.splitPieces := by
  have := split_append forest []
  rwa [List.append_nil, split_nil, List.append_nil] at this

end Piece

/-! ## Prose -/

namespace Forest

/-- The references of prose, where every bracket pair stands for itself. -/
def proseReferences : Forest → List Reference
  | nil => []
  | plain _ rest _ => rest.proseReferences
  | enclosed .square inner rest => (Reference.parse? inner.text).toList ++ rest.proseReferences
  | enclosed .curly inner rest => inner.flatReferences false true ++ rest.proseReferences
  | enclosed .round inner rest => inner.proseReferences ++ rest.proseReferences

theorem flatReferences_of_prose {forest : Forest} {opens : Bool} (h : forest.clear true opens) :
    forest.flatReferences false opens = forest.proseReferences := by
  induction forest generalizing opens with
  | nil => rfl
  | plain c rest hc ih => exact ih h
  | enclosed kind inner rest ihinner ihrest =>
    cases kind with
    | square =>
      rw [clear_square] at h
      have hsame := h.1.resolve_right fun htaken => Bool.noConfusion htaken.1
      rw [hsame, flatReferences_square_bare, proseReferences, ihrest h.2]
    | curly =>
      rw [clear_curly] at h
      rw [flatReferences_enclosed (by decide), proseReferences, ihrest h.2]
    | round =>
      rw [clear_round, Bool.true_or, Bool.true_or] at h
      rw [flatReferences_enclosed (by decide), proseReferences, ihinner h.1, ihrest h.2]

theorem flatReferences_behind_start {forest : Forest}
    (hnone : ∀ c ∈ forest.outside, ¬ isOperator c) (h : forest.clear false false) :
    forest.flatReferences false false = forest.proseReferences := by
  induction forest with
  | nil => rfl
  | plain c rest hc ih =>
    have hother : isOperator c = false := Bool.eq_false_iff.2 (hnone c List.mem_cons_self)
    have hopens : opensBehind false c = false := by
      unfold opensBehind
      rw [hother]
      exact ite_self false
    rw [clear_plain, hopens] at h
    rw [flatReferences_plain, hopens]
    exact ih (fun d hd => hnone d (List.mem_cons_of_mem c hd)) h
  | enclosed kind inner rest ihinner ihrest =>
    cases kind with
    | square =>
      rw [clear_square] at h
      rw [flatReferences_square_bare, proseReferences, ihrest hnone h.2]
    | curly =>
      rw [clear_curly] at h
      rw [flatReferences_enclosed (by decide), proseReferences, ihrest hnone h.2]
    | round =>
      rw [clear_round] at h
      rw [flatReferences_enclosed (by decide), proseReferences, flatReferences_of_prose h.1,
        ihrest hnone h.2]

theorem flatReferences_passing {forest : Forest} (hnone : ∀ c ∈ forest.outside, ¬ isOperator c)
    (opens : Bool) : forest.flatReferences true opens = [] := by
  induction forest generalizing opens with
  | nil => rfl
  | plain c rest hc ih =>
    have hother : isOperator c = false := Bool.eq_false_iff.2 (hnone c List.mem_cons_self)
    rw [flatReferences_plain, hother]
    exact ih (fun d hd => hnone d (List.mem_cons_of_mem c hd)) _
  | enclosed kind inner rest _ ih => exact ih hnone false

theorem operand_eq_self {forest : Forest} (hnone : ∀ c ∈ forest.outside, ¬ isOperator c) :
    forest.operand = forest := by
  induction forest with
  | nil => rfl
  | plain c rest hc ih =>
    rw [operand, if_neg (hnone c List.mem_cons_self),
      ih fun d hd => hnone d (List.mem_cons_of_mem c hd)]
  | enclosed kind inner rest _ ih => rw [operand, ih hnone]

theorem endsOperand_eq_false {forest : Forest} (hnone : ∀ c ∈ forest.outside, ¬ isOperator c)
    (htrim : forest.trimEnd = forest) (hne : forest ≠ nil) : endsOperand forest.text = false := by
  induction forest with
  | nil => exact absurd rfl hne
  | plain c rest hc ih =>
    by_cases hblank : Text.isBlank c
    · have hsome : rest ≠ nil := by
        rintro rfl
        have hnil : (plain c nil hc).trimEnd = nil := if_pos hblank
        rw [hnil] at htrim
        cases htrim
      rcases trimEnd_plain c rest hc with hkept | ⟨-, -, hnil⟩
      · rw [hkept] at htrim
        injection htrim with _ hrest
        rw [text, endsOperand_blank hblank]
        exact ih (fun d hd => hnone d (List.mem_cons_of_mem c hd)) hrest hsome
      · rw [hnil] at htrim
        cases htrim
    · rw [text, endsOperand_solid hblank]
      exact Bool.eq_false_iff.2 (hnone c List.mem_cons_self)
  | enclosed kind inner rest _ _ =>
    have hsolid : ¬ Text.isBlank kind.opening := by cases kind <;> decide
    rw [text, List.cons_append, endsOperand_solid hsolid]
    cases kind <;> rfl

/-! ## Operands -/

theorem flatReferences_of_bare {forest : Forest} (h : '[' ∉ forest.text) (passing opens : Bool) :
    forest.flatReferences passing opens = [] := by
  induction forest generalizing passing opens with
  | nil => rfl
  | plain c rest hc ih => exact ih (fun hmem => h (List.mem_cons_of_mem c hmem)) _ _
  | enclosed kind inner rest ihinner ihrest =>
    have hkind : kind ≠ .square := by
      rintro rfl
      exact h List.mem_cons_self
    have hinner : '[' ∉ inner.text := fun hmem => h (by simp [text, hmem])
    have hrest : '[' ∉ rest.text := fun hmem => h (by simp [text, hmem])
    cases passing with
    | true => exact ihrest hrest true false
    | false =>
      rw [flatReferences_enclosed hkind, ihinner hinner, ihrest hrest]
      rfl

theorem flatReferences_operands {sep : Char} (hsep : isOperator sep) (forest : Forest) :
    (forest.operands sep).flatMap (·.flatReferences false true) =
      forest.flatReferences false true := by
  have hkept (pieces : List Forest) :
      ((pieces.map trim).filter (!·.text.isEmpty)).flatMap (·.flatReferences false true) =
        pieces.flatMap (·.flatReferences false true) := by
    induction pieces with
    | nil => rfl
    | cons piece more ih =>
      rw [List.map_cons, List.filter_cons, List.flatMap_cons, ← flatReferences_trim]
      split
      · rw [List.flatMap_cons, ih]
      · next hempty =>
        have hnil : piece.trim = nil := text_eq_nil (by simpa using hempty)
        rw [hnil, ih]
        rfl
  rw [operands, hkept, flatReferences_cut hsep]
  rfl

theorem clear_operands {sep : Char} (hsep : isOperator sep) {forest operand : Forest}
    (hclear : forest.clear false true) (h : operand ∈ forest.operands sep) :
    operand.clear false true := by
  obtain ⟨piece, hpiece, rfl, -⟩ := mem_operands h
  refine clear_trim ?_
  rcases List.mem_cons.1 hpiece with rfl | hpiece
  · exact (clear_cut hsep hclear).1
  · exact (clear_cut hsep hclear).2 piece hpiece

/-- A forest without white space around it and without operators outside its brackets. -/
structure IsOperand (operand : Forest) : Prop where
  trimmed : operand.IsTrimmed
  outside : ∀ c ∈ operand.outside, ¬ isOperator c

theorem isOperand_of_mem {forest conjunct operand : Forest}
    (hconjunct : conjunct ∈ forest.operands '&') (hoperand : operand ∈ conjunct.operands '|') :
    operand.IsOperand where
  trimmed := isTrimmed_of_mem_operands hoperand
  outside := by
    intro c hc hoperator
    simp only [isOperator, Bool.or_eq_true, beq_iff_eq] at hoperator
    rcases hoperator with rfl | rfl
    · exact (outside_operands hconjunct).2 ((outside_operands hoperand).1 hc)
    · exact (outside_operands hoperand).2 hc

theorem cutOperands_text (forest : Forest) :
    cutOperands forest.text = ((forest.operands '&').flatMap (operands '|')).map text := by
  rw [cutOperands, operands_text (by decide), List.flatMap_map, List.map_flatMap]
  exact List.flatMap_congr fun conjunct _ => operands_text (by decide) conjunct

theorem flatMap_cutOperands (forest : Forest) :
    (cutOperands forest.text).flatMap inBraces = forest.flatReferences false true := by
  rw [cutOperands_text, List.flatMap_map, List.flatMap_assoc,
    ← flatReferences_operands (by decide : isOperator '&')]
  refine List.flatMap_congr fun conjunct _ => ?_
  rw [← flatReferences_operands (by decide : isOperator '|')]
  exact List.flatMap_congr fun operand _ => operand.inBraces_text

theorem exists_operand {forest : Forest} (hclear : forest.clear false true) {t : Text}
    (h : t ∈ cutOperands forest.text) :
    ∃ operand : Forest, operand.text = t ∧ operand.IsOperand ∧ operand.clear false true ∧
      operand.height ≤ forest.height := by
  rw [cutOperands_text] at h
  obtain ⟨operand, hmem, rfl⟩ := List.mem_map.1 h
  obtain ⟨conjunct, hconjunct, hoperand⟩ := List.mem_flatMap.1 hmem
  have hclear' := clear_operands (by decide) hclear hconjunct
  exact ⟨operand, rfl, isOperand_of_mem hconjunct hoperand, clear_operands (by decide) hclear' hoperand,
    Nat.le_trans (height_operands hoperand) (height_operands hconjunct)⟩

/-! ## Reading -/

/-- With four levels for each bracket pair around them, and three for themselves, lower expressions
give the references of the flat scan. -/
def ReadsBelow (height : Nat) : Prop :=
  ∀ forest : Forest, forest.height < height → forest.clear false true →
    ∀ depth, 4 * forest.height + 3 ≤ depth →
      (readExpression depth forest.text).references = forest.flatReferences false true

theorem ReadsBelow.mono {height height' : Nat} (h : ReadsBelow height') (hle : height ≤ height') :
    ReadsBelow height :=
  fun forest hheight => h forest (Nat.lt_of_lt_of_le hheight hle)

theorem references_splitPieces {reader : Text → Node} {bound : Nat}
    (hreader : ∀ inner : Forest, inner.height < bound → inner.clear false true →
      (reader inner.text).references = inner.flatReferences false true)
    {forest : Forest} (hheight : forest.height ≤ bound) {prose opens : Bool}
    (hclear : forest.clear prose opens) :
    (forest.splitPieces.flatMap fun piece => (piece.node reader).references) =
      forest.proseReferences := by
  induction forest generalizing prose opens with
  | nil => rfl
  | plain c rest hc ih => exact ih hheight hclear
  | enclosed kind inner rest ihinner ihrest =>
    have hrest : rest.height ≤ bound := Nat.le_trans (height_le_enclosed kind inner rest) hheight
    cases kind with
    | square =>
      rw [clear_square] at hclear
      rw [splitPieces, proseReferences, List.flatMap_cons, ihrest hrest hclear.2,
        Piece.references_bracketed]
    | curly =>
      rw [clear_curly] at hclear
      rw [height_enclosed (by decide)] at hheight
      rw [splitPieces, proseReferences, List.flatMap_cons, ihrest hrest hclear.2]
      exact congrArg (· ++ _) (hreader inner (by omega) hclear.1)
    | round =>
      rw [clear_round] at hclear
      rw [height_enclosed (by decide)] at hheight
      rw [splitPieces, proseReferences, List.flatMap_append, List.flatMap_cons, List.flatMap_cons,
        ihinner (by omega) hclear.1, ihrest hrest hclear.2]
      rfl

theorem references_prose {forest : Forest} (hbelow : ReadsBelow forest.height) {depth : Nat}
    (hdepth : 4 * forest.height ≤ depth) {prose opens : Bool} (hclear : forest.clear prose opens) :
    (readTemplate depth forest.text).references = forest.proseReferences := by
  cases depth with
  | zero =>
    have hflat : forest.height ≤ 0 := by omega
    rw [readTemplate, Piece.references_concat, Piece.split_text]
    exact references_splitPieces (fun _ hinner => absurd hinner (Nat.not_lt_zero _)) hflat hclear
  | succ depth =>
    rw [readTemplate, Piece.references_concat, Piece.split_text]
    refine references_splitPieces (fun inner hinner hclear => ?_) (Nat.le_refl _) hclear
    exact hbelow inner hinner hclear depth (by omega)

theorem decorated?_text (inner rest : Forest) :
    decorated? (enclosed .square inner rest).text =
      if Clause.isSuffix rest.text then Reference.parse? (inner.text ++ rest.text) else none := by
  have hmatch : enclosed? '[' ']' 0 (inner.text ++ ']' :: rest.text) =
      some (inner.text, rest.text) := inner.enclosed?_text .square rest.text
  show decorated? ('[' :: (inner.text ++ ']' :: rest.text)) = _
  simp only [decorated?, hmatch]

theorem parenthesised?_text (inner rest : Forest) :
    parenthesised? (enclosed .round inner rest).text =
      if rest.text = [] then some inner.text else none := by
  have hmatch : enclosed? '(' ')' 0 (inner.text ++ ')' :: rest.text) =
      some (inner.text, rest.text) := inner.enclosed?_text .round rest.text
  show parenthesised? ('(' :: (inner.text ++ ')' :: rest.text)) = _
  simp only [parenthesised?, hmatch]
  cases rest.text <;> rfl

theorem operandReferences_prose {operand : Forest} (hbelow : ReadsBelow operand.height) {depth : Nat}
    (hdepth : 4 * operand.height ≤ depth) (hclear : operand.clear false true)
    (hgroup : parenthesised? operand.text = none) (href : decorated? operand.text = none)
    (hflat : operand.flatReferences false true = operand.proseReferences) :
    operandReferences depth operand.text = operand.flatReferences false true := by
  by_cases hmem : '[' ∈ operand.text
  · rw [operandReferences, Shape.ofOperand_of_mem hgroup hmem, href, hflat]
    exact references_prose hbelow hdepth hclear
  · rw [operandReferences_of_bare hmem, flatReferences_of_bare hmem]

theorem clauses_of_operand {rest : Forest} (hnone : ∀ c ∈ rest.outside, ¬ isOperator c)
    (htrim : rest.trimEnd = rest) :
    rest.clauses = if Clause.isSuffix rest.text then rest.text else [] := by
  rw [clauses_eq, operand_eq_self hnone, trimEnd_text, htrim]

theorem flatReferences_decorated {inner rest : Forest} {reference : Reference}
    (hnone : ∀ c ∈ rest.outside, ¬ isOperator c) (htrim : rest.trimEnd = rest)
    (h : decorated? (enclosed .square inner rest).text = some reference) :
    (enclosed .square inner rest).flatReferences false true = [reference] := by
  have hclauses := clauses_of_operand hnone htrim
  rw [decorated?_text] at h
  split at h
  · next hsuffix =>
    have hne : rest.text.isEmpty = false := by
      cases hempty : rest.text with
      | nil =>
        rw [hempty] at hsuffix
        cases hsuffix
      | cons c t => rfl
    rw [if_pos hsuffix] at hclauses
    rw [flatReferences_square, if_pos rfl, hclauses, h, hne, Bool.not_false,
      flatReferences_passing hnone]
    rfl
  · cases h

theorem flatReferences_undecorated {inner rest : Forest}
    (hnone : ∀ c ∈ rest.outside, ¬ isOperator c) (htrim : rest.trimEnd = rest)
    (hclear : (enclosed .square inner rest).clear false true)
    (h : decorated? (enclosed .square inner rest).text = none) :
    (enclosed .square inner rest).flatReferences false true =
      (enclosed .square inner rest).proseReferences := by
  have hclauses := clauses_of_operand hnone htrim
  rw [decorated?_text] at h
  rw [clear_square] at hclear
  have hsame : (enclosed .square inner rest).flatReferences false true =
      (enclosed .square inner rest).flatReferences false false := by
    rcases hclear.1 with hsame | ⟨-, husable⟩
    · exact hsame
    · split at h
      · next hsuffix =>
        rw [hclauses, if_pos hsuffix, h] at husable
        cases husable
      · next hsuffix =>
        rw [if_neg hsuffix] at hclauses
        rw [flatReferences_square, flatReferences_square, if_pos rfl, hclauses]
        rfl
  rw [hsame, flatReferences_square_bare, proseReferences,
    flatReferences_behind_start hnone hclear.2]

section Operand

variable {inner rest : Forest} {depth : Nat} (hnone : ∀ c ∈ rest.outside, ¬ isOperator c)
  (htrim : rest.trimEnd = rest)

include hnone htrim

theorem operandReferences_square (hbelow : ReadsBelow (enclosed .square inner rest).height)
    (hdepth : 4 * (enclosed .square inner rest).height ≤ depth)
    (hclear : (enclosed .square inner rest).clear false true) :
    operandReferences depth (enclosed .square inner rest).text =
      (enclosed .square inner rest).flatReferences false true := by
  have hgroup : parenthesised? (enclosed .square inner rest).text = none :=
    parenthesised?_of_ne (by decide) _
  have hmem : '[' ∈ (enclosed .square inner rest).text := List.mem_cons_self
  cases hreference : decorated? (enclosed .square inner rest).text with
  | some reference =>
    rw [operandReferences, Shape.ofOperand_of_mem hgroup hmem, hreference,
      flatReferences_decorated hnone htrim hreference]
    rfl
  | none =>
    exact operandReferences_prose hbelow hdepth hclear hgroup hreference
      (flatReferences_undecorated hnone htrim hclear hreference)

theorem operandReferences_round (hbelow : ReadsBelow (enclosed .round inner rest).height)
    (hdepth : 4 * (enclosed .round inner rest).height ≤ depth)
    (hclear : (enclosed .round inner rest).clear false true) :
    operandReferences depth (enclosed .round inner rest).text =
      (enclosed .round inner rest).flatReferences false true := by
  have hgroup := parenthesised?_text inner rest
  by_cases hrest : rest = nil
  · subst hrest
    rw [clear_round] at hclear
    rw [height_enclosed (by decide)] at hbelow hdepth
    rw [operandReferences, Shape.ofOperand_group (hgroup.trans (if_pos rfl)),
      flatReferences_enclosed (by decide)]
    refine (hbelow inner (by omega) hclear.1 depth (by omega)).trans ?_
    exact (List.append_nil _).symm
  · have hends := endsOperand_eq_false hnone htrim hrest
    rw [if_neg (mt text_eq_nil hrest)] at hgroup
    refine operandReferences_prose hbelow hdepth hclear hgroup (decorated?_of_ne (by decide) _) ?_
    rw [clear_round, hends] at hclear
    rw [flatReferences_enclosed (by decide), proseReferences, flatReferences_of_prose hclear.1,
      flatReferences_behind_start hnone hclear.2]

omit htrim in
theorem operandReferences_curly (hbelow : ReadsBelow (enclosed .curly inner rest).height)
    (hdepth : 4 * (enclosed .curly inner rest).height ≤ depth)
    (hclear : (enclosed .curly inner rest).clear false true) :
    operandReferences depth (enclosed .curly inner rest).text =
      (enclosed .curly inner rest).flatReferences false true := by
  refine operandReferences_prose hbelow hdepth hclear (parenthesised?_of_ne (by decide) _)
    (decorated?_of_ne (by decide) _) ?_
  rw [clear_curly] at hclear
  have hrest : rest.flatReferences false false = rest.proseReferences :=
    flatReferences_behind_start hnone hclear.2
  rw [flatReferences_enclosed (by decide), proseReferences, hrest]

end Operand

theorem operandReferences_plain {c : Char} {rest : Forest} {hc : isPlain c} {depth : Nat}
    (hoperand : (plain c rest hc).IsOperand) (hbelow : ReadsBelow (plain c rest hc).height)
    (hdepth : 4 * (plain c rest hc).height ≤ depth) (hclear : (plain c rest hc).clear false true) :
    operandReferences depth (plain c rest hc).text =
      (plain c rest hc).flatReferences false true := by
  have hopens : opensBehind true c = false := by
    unfold opensBehind
    rw [if_neg (hoperand.trimmed.solid rfl),
      Bool.eq_false_iff.2 (hoperand.outside c List.mem_cons_self)]
  refine operandReferences_prose hbelow hdepth hclear
    (parenthesised?_of_ne (ne_opening_of_plain hc .round) _)
    (decorated?_of_ne (ne_opening_of_plain hc .square) _) ?_
  rw [clear_plain, hopens] at hclear
  rw [flatReferences_plain, hopens]
  exact flatReferences_behind_start
    (fun d hd => hoperand.outside d (List.mem_cons_of_mem c hd)) hclear

theorem operandReferences_text {operand : Forest} (hoperand : operand.IsOperand)
    (hbelow : ReadsBelow operand.height) {depth : Nat} (hdepth : 4 * operand.height ≤ depth)
    (hclear : operand.clear false true) :
    operandReferences depth operand.text = operand.flatReferences false true := by
  cases operand with
  | nil => exact operandReferences_of_bare List.not_mem_nil depth
  | plain c rest hc => exact operandReferences_plain hoperand hbelow hdepth hclear
  | enclosed kind inner rest =>
    have htrim : rest.trimEnd = rest := by
      have hself := hoperand.trimmed.trimEnd
      rw [trimEnd] at hself
      injection hself
    cases kind with
    | square => exact operandReferences_square hoperand.outside htrim hbelow hdepth hclear
    | curly => exact operandReferences_curly hoperand.outside hbelow hdepth hclear
    | round => exact operandReferences_round hoperand.outside htrim hbelow hdepth hclear

theorem operandReferences_of_clear {forest : Forest} (hbelow : ReadsBelow forest.height)
    (hclear : forest.clear false true) {operand : Text} (hoperand : operand ∈ cutOperands forest.text)
    {depth : Nat} (hdepth : 4 * forest.height ≤ depth) :
    operandReferences depth operand = inBraces operand := by
  obtain ⟨operand, rfl, hshape, hclear', hheight⟩ := exists_operand hclear hoperand
  rw [inBraces_text]
  exact operandReferences_text hshape (hbelow.mono hheight) (by omega) hclear'

theorem readsBelow (height : Nat) : ReadsBelow height := by
  induction height with
  | zero => exact fun forest hheight => absurd hheight (Nat.not_lt_zero _)
  | succ height ih =>
    intro forest hheight hclear depth hdepth
    have hbelow : ReadsBelow forest.height := ih.mono (Nat.le_of_lt_succ hheight)
    rw [references_cutOperands (fun operand hoperand depth hdepth =>
      operandReferences_of_clear hbelow hclear hoperand hdepth) hdepth, flatMap_cutOperands]

end Forest

end RandomTables
