import RandomTables.Proofs.Template.Operands
import RandomTables.Template.Token

/-! # The flat scan

The references that the scan over a text finds inside matched braces, read off the forest of the
text.
-/

namespace RandomTables

open RandomTables.Bracket RandomTables.Token

/-! ## Steps of the scan -/

namespace Token

theorem scan_nil (position braced : Nat) (last : Option Char) :
    scan position braced last [] = [] := by
  rw [scan]

theorem scan_step {c : Char} {t : Text}
    (h : (if c = '[' then enclosed? '[' ']' 0 t else none) = none) (position braced : Nat)
    (last : Option Char) :
    scan position braced last (c :: t) =
      scan (position + 1) (max braced (bracedLength (c :: t)) - 1) (Text.lastSolid last [c]) t := by
  rw [scan]
  dsimp only
  split
  · rfl
  · next hsome => rw [h] at hsome; cases hsome

/-- The clauses that the scan takes for a bracket pair with this text behind it. -/
def taken (braced : Nat) (last : Option Char) (rest : Text) : Text :=
  if braced > 0 && opensOperand last then clauseSuffix rest else []

/-- A bracket pair with some clauses behind it. -/
def withClauses (body clauses : Text) : Text := '[' :: body ++ ']' :: clauses

theorem length_withClauses (body clauses : Text) :
    (withClauses body clauses).length = body.length + clauses.length + 2 := by
  simp only [withClauses, List.cons_append, List.length_cons, List.length_append]
  omega

theorem scan_match {t body rest : Text} (h : enclosed? '[' ']' 0 t = some (body, rest))
    (position braced : Nat) (last : Option Char) :
    scan position braced last ('[' :: t) =
      ((Reference.parse? (body ++ taken braced last rest)).map fun reference =>
        { reference, raw := withClauses body (taken braced last rest), start := position }).toList ++
        scan (position + (withClauses body (taken braced last rest)).length)
          (braced - (withClauses body (taken braced last rest)).length)
          (Text.lastSolid last (withClauses body (taken braced last rest)))
          (rest.drop (taken braced last rest).length) := by
  have hlength : bracedLength ('[' :: t) = 0 := rfl
  rw [scan]
  dsimp only
  split
  · next hnone => rw [if_pos rfl, h] at hnone; cases hnone
  · next body' rest' hsome =>
    rw [if_pos rfl, h] at hsome
    cases hsome
    have htaken : (if braced > 0 && opensOperand last then clauseSuffix rest else []) =
        taken braced last rest := rfl
    rw [hlength, Nat.max_zero, htaken]
    split
    · next reference href =>
      rw [href]
      rfl
    · next hnone =>
      rw [hnone]
      rfl

theorem scan_bracket {t body rest : Text} (h : enclosed? '[' ']' 0 t = some (body, rest))
    (position braced : Nat) (last : Option Char) :
    ∃ position', (scan position braced last ('[' :: t)).map (·.reference) =
      (Reference.parse? (body ++ taken braced last rest)).toList ++
        (scan position' (braced - (withClauses body (taken braced last rest)).length)
          (Text.lastSolid last (withClauses body (taken braced last rest)))
          (rest.drop (taken braced last rest).length)).map (·.reference) := by
  refine ⟨position + (withClauses body (taken braced last rest)).length, ?_⟩
  rw [scan_match h, List.map_append]
  cases Reference.parse? (body ++ taken braced last rest) <;> rfl

theorem square_cases (c : Char) (t : Text) :
    (if c = '[' then enclosed? '[' ']' 0 t else none) = none ∨
      ∃ body rest, c = '[' ∧ enclosed? '[' ']' 0 t = some (body, rest) := by
  by_cases hc : c = '['
  · rw [if_pos hc]
    cases hmatch : enclosed? '[' ']' 0 t with
    | none => exact .inl rfl
    | some found => exact .inr ⟨found.1, found.2, hc, rfl⟩
  · exact .inl (if_neg hc)

/-- Where a text starts does not matter for its references. -/
theorem scan_position (t : Text) (position position' braced : Nat) (last : Option Char) :
    (scan position braced last t).map (·.reference) =
      (scan position' braced last t).map (·.reference) := by
  induction hn : t.length using Nat.strongRecOn generalizing t position position' braced last with
  | _ n ih =>
    subst hn
    cases t with
    | nil => rw [scan_nil, scan_nil]
    | cons c t =>
      rcases square_cases c t with hnone | ⟨body, rest, rfl, hmatch⟩
      · rw [scan_step hnone, scan_step hnone]
        exact ih _ (Nat.lt_succ_self _) t _ _ _ _ rfl
      · obtain ⟨p, hp⟩ := scan_bracket hmatch position braced last
        obtain ⟨p', hp'⟩ := scan_bracket hmatch position' braced last
        have hshorter : (rest.drop (taken braced last rest).length).length < t.length + 1 := by
          have hlength := enclosed?_length hmatch
          rw [List.length_drop]
          omega
        rw [hp, hp', ih _ hshorter _ p p' _ _ rfl]

/-- The references of the tokens of a text. -/
def flat (braced : Nat) (last : Option Char) (t : Text) : List Reference :=
  (scan 0 braced last t).map (·.reference)

/-- The references that the scan finds in braces around a text. -/
def inBraces (t : Text) : List Reference := flat (t.length + 1) (some '{') (t ++ ['}'])

theorem flat_nil (braced : Nat) (last : Option Char) : flat braced last [] = [] := by
  rw [flat, scan_nil, List.map_nil]

theorem flat_step {c : Char} {t : Text}
    (h : (if c = '[' then enclosed? '[' ']' 0 t else none) = none) (braced : Nat)
    (last : Option Char) :
    flat braced last (c :: t) =
      flat (max braced (bracedLength (c :: t)) - 1) (Text.lastSolid last [c]) t := by
  rw [flat, scan_step h]
  exact scan_position t _ _ _ _

theorem flat_bracket {t body rest : Text} (h : enclosed? '[' ']' 0 t = some (body, rest))
    (braced : Nat) (last : Option Char) :
    flat braced last ('[' :: t) =
      (Reference.parse? (body ++ taken braced last rest)).toList ++
        flat (braced - (withClauses body (taken braced last rest)).length)
          (Text.lastSolid last (withClauses body (taken braced last rest)))
          (rest.drop (taken braced last rest).length) := by
  obtain ⟨position, hscan⟩ := scan_bracket h 0 braced last
  rw [flat, hscan, scan_position _ position 0]
  rfl

end Token

/-! ## Operands -/

def isOperator (c : Char) : Bool := c == '&' || c == '|'

theorem not_isBlank_of_isOperator {c : Char} (h : isOperator c) : ¬ Text.isBlank c := by
  simp only [isOperator, Bool.or_eq_true, beq_iff_eq] at h
  rcases h with rfl | rfl <;> decide

theorem isPlain_of_isOperator {c : Char} (h : isOperator c) : isPlain c := by
  simp only [isOperator, Bool.or_eq_true, beq_iff_eq] at h
  rcases h with rfl | rfl <;> decide

theorem not_isBlank_of_isClosing {c : Char} (h : isClosing c) : ¬ Text.isBlank c := by
  simp only [isClosing, Bool.or_eq_true, beq_iff_eq] at h
  rcases h with (rfl | rfl) | rfl <;> decide

namespace Token

theorem operandRest_plain {c : Char} (hc : isPlain c) (depth : Nat) (t : Text) :
    operandRest depth (c :: t) =
      if isOperator c && depth == 0 then [] else c :: operandRest depth t := by
  simp only [operandRest, isOpening_of_plain hc, isClosing_of_plain hc]
  rfl

theorem operandRest_opening (kind : Kind) (depth : Nat) (t : Text) :
    operandRest depth (kind.opening :: t) = kind.opening :: operandRest (depth + 1) t := by
  simp only [operandRest, isOpening_opening, if_true]

theorem operandRest_closing (kind : Kind) (depth : Nat) (t : Text) :
    operandRest (depth + 1) (kind.closing :: t) = kind.closing :: operandRest depth t := by
  simp only [operandRest, isOpening_closing, isClosing_closing, Bool.false_eq_true, if_false,
    if_true]

/-- White space, and then an operator or a closing bracket: no operand goes on here. -/
inductive IsEnd : Text → Prop
  | blank {c : Char} {t : Text} (hc : Text.isBlank c) (h : IsEnd t) : IsEnd (c :: t)
  | stop {c : Char} (hc : isOperator c ∨ isClosing c) (t : Text) : IsEnd (c :: t)

namespace IsEnd

variable {t : Text}

theorem append {blank : Text} (hblank : ∀ c ∈ blank, Text.isBlank c) (h : IsEnd t) :
    IsEnd (blank ++ t) := by
  induction blank with
  | nil => exact h
  | cons c blank ih =>
    obtain ⟨hc, hrest⟩ := List.forall_mem_cons.1 hblank
    exact .blank hc (ih hrest)

theorem operandRest (h : IsEnd t) : ∀ c ∈ operandRest 0 t, Text.isBlank c := by
  induction h with
  | @blank c t hc _ ih =>
    have hother : isOperator c = false :=
      Bool.eq_false_iff.2 fun hoperator => not_isBlank_of_isOperator hoperator hc
    rw [operandRest_plain (isPlain_of_isBlank hc), hother]
    exact List.forall_mem_cons.2 ⟨hc, ih⟩
  | @stop c hc t =>
    rcases hc with hc | hc
    · rw [operandRest_plain (isPlain_of_isOperator hc), hc]
      exact List.forall_mem_nil _
    · simp [Token.operandRest, isOpening_of_closing hc, hc]

end IsEnd

end Token

namespace Forest

/-- The forest before the first operator outside brackets. -/
def operand : Forest → Forest
  | nil => nil
  | plain c rest hc => if isOperator c then nil else plain c rest.operand hc
  | enclosed kind inner rest => enclosed kind inner rest.operand

/-- The forest from the first operator outside brackets on. -/
def behind : Forest → Forest
  | nil => nil
  | plain c rest hc => if isOperator c then plain c rest hc else rest.behind
  | enclosed _ _ rest => rest.behind

theorem operand_append_behind (forest : Forest) :
    forest.operand.text ++ forest.behind.text = forest.text := by
  induction forest with
  | nil => rfl
  | plain c rest hc ih =>
    rw [operand, behind]
    split
    · rfl
    · rw [text, text, List.cons_append, ih]
  | enclosed kind inner rest _ ih =>
    rw [operand, behind, text, text, List.append_assoc, List.cons_append, List.cons_append, ih,
      List.cons_append]

theorem operandRest_append_deep (forest : Forest) (depth : Nat) (tail : Text) :
    operandRest (depth + 1) (forest.text ++ tail) =
      forest.text ++ operandRest (depth + 1) tail := by
  induction forest generalizing depth tail with
  | nil => rfl
  | plain c rest hc ih =>
    rw [text, List.cons_append, operandRest_plain hc, if_neg (by simp), ih]
    rfl
  | enclosed kind inner rest ihinner ihrest =>
    rw [text, List.append_assoc, List.cons_append, List.cons_append, operandRest_opening, ihinner,
      operandRest_closing, ihrest]
    simp only [List.cons_append, List.append_assoc]

theorem trimEnd_operandRest (forest : Forest) {tail : Text}
    (htail : ∀ c ∈ operandRest 0 tail, Text.isBlank c) :
    Text.trimEnd (operandRest 0 (forest.text ++ tail)) = Text.trimEnd forest.operand.text := by
  induction forest with
  | nil => exact Text.trimEnd_append_of_blank [] htail
  | plain c rest hc ih =>
    rw [text, List.cons_append, operandRest_plain hc, operand, beq_self_eq_true, Bool.and_true]
    split
    · rfl
    · rw [text, Text.trimEnd, Text.trimEnd, ih]
  | enclosed kind inner rest _ ih =>
    have hsolid : ¬ Text.isBlank kind.closing := not_isBlank_of_isClosing (isClosing_closing kind)
    rw [text, List.append_assoc, List.cons_append, List.cons_append, operandRest_opening,
      operandRest_append_deep, operandRest_closing, operand, text, ← List.cons_append,
      Text.trimEnd_append_solid _ hsolid, Text.trimEnd_append_solid _ hsolid, ih]

/-- The clauses behind a bracket pair, from the forest behind it. -/
def clauses (forest : Forest) : Text := clauseSuffix forest.text

theorem clauses_eq (forest : Forest) :
    forest.clauses =
      if Clause.isSuffix (Text.trimEnd forest.operand.text) then Text.trimEnd forest.operand.text
      else [] := by
  have hself : Text.trimEnd (operandRest 0 (forest.text ++ [])) = Text.trimEnd forest.operand.text :=
    forest.trimEnd_operandRest (List.forall_mem_nil _)
  rw [List.append_nil] at hself
  rw [clauses, clauseSuffix, hself]

theorem clauseSuffix_append (forest : Forest) {tail : Text} (htail : IsEnd tail) :
    clauseSuffix (forest.text ++ tail) = forest.clauses := by
  rw [clauses_eq, clauseSuffix, forest.trimEnd_operandRest htail.operandRest]

theorem clauses_eq_nil_or (forest : Forest) : forest.clauses = [] ∨
    ∃ blank : Text, forest.operand.text = forest.clauses ++ blank ∧
      ∀ c ∈ blank, Text.isBlank c := by
  rw [clauses_eq]
  split
  · obtain ⟨blank, hsplit, hblank⟩ := Text.trimEnd_append_blank forest.operand.text
    exact .inr ⟨blank, hsplit, hblank⟩
  · exact .inl rfl

end Forest

/-! ## The scan over a forest -/

/-- An operand can start behind a plain code point, or could already before it. -/
def opensBehind (opens : Bool) (c : Char) : Bool := if Text.isBlank c then opens else isOperator c

theorem opensOperand_plain {c : Char} (hc : isPlain c) (last : Option Char) :
    opensOperand (Text.lastSolid last [c]) = opensBehind (opensOperand last) c := by
  have hcurly : (c == '{') = false := beq_false_of_ne (ne_opening_of_plain hc .curly)
  have hround : (c == '(') = false := beq_false_of_ne (ne_opening_of_plain hc .round)
  by_cases hblank : Text.isBlank c
  · have hlast : Text.lastSolid last [c] = last := if_pos hblank
    rw [hlast, opensBehind, if_pos hblank]
  · have hlast : Text.lastSolid last [c] = some c := if_neg hblank
    rw [hlast, opensBehind, if_neg hblank, opensOperand, hcurly, hround, Bool.false_or,
      Bool.or_false, isOperator]

namespace Forest

/-- The references that the flat scan finds inside braces. Clauses that were taken for the last
reference are passed over up to the next operator. -/
def flatReferences : Forest → (passing opens : Bool) → List Reference
  | nil, _, _ => []
  | plain c rest _, passing, opens =>
    rest.flatReferences (passing && !isOperator c) (opensBehind opens c)
  | enclosed _ _ rest, true, _ => rest.flatReferences true false
  | enclosed .square inner rest, false, opens =>
    let suffix := if opens then rest.clauses else []
    (Reference.parse? (inner.text ++ suffix)).toList ++
      rest.flatReferences (!suffix.isEmpty) false
  | enclosed _ inner rest, false, _ =>
    inner.flatReferences false true ++ rest.flatReferences false false

theorem flatReferences_plain (passing opens : Bool) (c : Char) (rest : Forest) (hc : isPlain c) :
    (plain c rest hc).flatReferences passing opens =
      rest.flatReferences (passing && !isOperator c) (opensBehind opens c) := rfl

theorem flatReferences_square (opens : Bool) (inner rest : Forest) :
    (enclosed .square inner rest).flatReferences false opens =
      (Reference.parse? (inner.text ++ if opens then rest.clauses else [])).toList ++
        rest.flatReferences (!(if opens then rest.clauses else []).isEmpty) false := rfl

theorem flatReferences_square_bare (inner rest : Forest) :
    (enclosed .square inner rest).flatReferences false false =
      (Reference.parse? inner.text).toList ++ rest.flatReferences false false := by
  rw [flatReferences_square, if_neg Bool.false_ne_true, List.append_nil]
  rfl

theorem flatReferences_enclosed {kind : Kind} (hkind : kind ≠ .square) (opens : Bool)
    (inner rest : Forest) :
    (enclosed kind inner rest).flatReferences false opens =
      inner.flatReferences false true ++ rest.flatReferences false false := by
  cases kind with
  | square => exact absurd rfl hkind
  | curly => rfl
  | round => rfl

theorem flatReferences_behind (forest : Forest) (opens opens' : Bool) :
    forest.flatReferences true opens = forest.behind.flatReferences false opens' := by
  induction forest generalizing opens with
  | nil => rfl
  | plain c rest hc ih =>
    rw [behind]
    split
    · next hoperator =>
      have hsolid := not_isBlank_of_isOperator hoperator
      simp only [flatReferences, hoperator, opensBehind]
      rw [if_neg hsolid, if_neg hsolid]
      rfl
    · next hother =>
      rw [Bool.not_eq_true] at hother
      simp only [flatReferences, hother]
      exact ih _
  | enclosed kind inner rest _ ih =>
    simp only [flatReferences, behind]
    exact ih false

end Forest

namespace Token

theorem bracedLength_of_ne {c : Char} (hc : c ≠ '{') (t : Text) : bracedLength (c :: t) = 0 := by
  unfold bracedLength
  split
  · next heq => exact absurd (List.cons.inj heq).1 hc
  · rfl

theorem bracedLength_of_match {t body rest : Text} (h : enclosed? '{' '}' 0 t = some (body, rest)) :
    bracedLength ('{' :: t) = body.length + 2 := by
  simp only [bracedLength, h]

theorem bracedLength_of_none {t : Text} (h : enclosed? '{' '}' 0 t = none) :
    bracedLength ('{' :: t) = 0 := by
  simp only [bracedLength, h]

theorem flat_plain {c : Char} (hc : isPlain c) (braced : Nat) (last : Option Char) (t : Text) :
    flat braced last (c :: t) = flat (braced - 1) (Text.lastSolid last [c]) t := by
  have hsquare : c ≠ '[' := ne_opening_of_plain hc .square
  have hcurly : c ≠ '{' := ne_opening_of_plain hc .curly
  rw [flat_step (if_neg hsquare), bracedLength_of_ne hcurly, Nat.max_zero]

theorem flat_closing {c : Char} (hc : isClosing c) (braced : Nat) (last : Option Char) (t : Text) :
    flat braced last (c :: t) = flat (braced - 1) (some c) t := by
  have hne : c ≠ '[' ∧ c ≠ '{' := by
    simp only [isClosing, Bool.or_eq_true, beq_iff_eq] at hc
    rcases hc with (rfl | rfl) | rfl <;> decide
  have hlast : Text.lastSolid last [c] = some c :=
    Text.lastSolid_append_solid last [] (not_isBlank_of_isClosing hc)
  rw [flat_step (if_neg hne.1), bracedLength_of_ne hne.2, Nat.max_zero, hlast]

theorem flat_blank {blank : Text} (hblank : ∀ c ∈ blank, Text.isBlank c) (braced : Nat)
    (last : Option Char) (t : Text) :
    flat braced last (blank ++ t) = flat (braced - blank.length) last t := by
  induction blank generalizing braced with
  | nil => rfl
  | cons c blank ih =>
    have hc : Text.isBlank c := hblank c List.mem_cons_self
    have hlast : Text.lastSolid last [c] = last := if_pos hc
    rw [List.cons_append, flat_plain (isPlain_of_isBlank hc), hlast,
      ih fun d hd => hblank d (List.mem_cons_of_mem _ hd), List.length_cons, Nat.sub_sub,
      Nat.add_comm]

theorem IsEnd.flat_eq {t : Text} (h : IsEnd t) (braced : Nat) (last last' : Option Char) :
    flat braced last t = flat braced last' t := by
  induction h generalizing braced with
  | @blank c t hc _ ih =>
    have hkept (last : Option Char) : Text.lastSolid last [c] = last := if_pos hc
    rw [flat_plain (isPlain_of_isBlank hc), flat_plain (isPlain_of_isBlank hc), hkept, hkept, ih]
  | @stop c hc t =>
    rcases hc with hc | hc
    · have hlast (last : Option Char) : Text.lastSolid last [c] = some c :=
        if_neg (not_isBlank_of_isOperator hc)
      rw [flat_plain (isPlain_of_isOperator hc), flat_plain (isPlain_of_isOperator hc), hlast, hlast]
    · rw [flat_closing hc, flat_closing hc]

theorem opensOperand_of_isOperator {sep : Char} (hsep : isOperator sep) : opensOperand (some sep) := by
  simp only [isOperator, Bool.or_eq_true, beq_iff_eq] at hsep
  rcases hsep with rfl | rfl <;> decide

theorem opensOperand_opening {kind : Kind} (hkind : kind ≠ .square) :
    opensOperand (some kind.opening) = true := by
  cases kind with
  | square => exact absurd rfl hkind
  | curly => rfl
  | round => rfl

theorem opensOperand_closing (kind : Kind) : opensOperand (some kind.closing) = false := by
  cases kind <;> rfl

theorem flat_enclosed {kind : Kind} (hkind : kind ≠ .square) {inner : Forest} {t : Text}
    {braced : Nat} (hbraced : inner.text.length + 2 ≤ braced) (last : Option Char) :
    flat braced last (kind.opening :: (inner.text ++ kind.closing :: t)) =
      flat (braced - 1) (some kind.opening) (inner.text ++ kind.closing :: t) := by
  have hmax : max braced (bracedLength (kind.opening :: (inner.text ++ kind.closing :: t))) =
      braced := by
    cases kind with
    | square => exact absurd rfl hkind
    | curly =>
      have hlength := bracedLength_of_match (inner.enclosed?_text .curly t)
      exact (congrArg _ hlength).trans (Nat.max_eq_left hbraced)
    | round => exact (congrArg _ (bracedLength_of_ne (by decide) _)).trans (Nat.max_zero braced)
  have hsquare : kind.opening ≠ Kind.square.opening := opening_ne hkind
  have hlast : Text.lastSolid last [kind.opening] = some kind.opening := by
    cases kind <;> exact Text.lastSolid_append_solid last [] (by decide)
  rw [flat_step (if_neg hsquare), hmax, hlast]

end Token

namespace Forest

theorem flat_bare {inner rest : Forest} {tail : Text} (htail : IsEnd tail) {braced : Nat}
    (hbraced : 0 < braced) {last : Option Char}
    (hnone : (if opensOperand last then rest.clauses else []) = []) :
    flat braced last ('[' :: (inner.text ++ ']' :: (rest.text ++ tail))) =
      (Reference.parse? inner.text).toList ++
        flat (braced - (inner.text.length + 2)) (some ']') (rest.text ++ tail) := by
  have htaken : taken braced last (rest.text ++ tail) = [] := by
    rw [taken, rest.clauseSuffix_append htail, decide_eq_true hbraced, Bool.true_and, hnone]
  have hlast : Text.lastSolid last (withClauses inner.text []) = some ']' :=
    Text.lastSolid_append_solid last ('[' :: inner.text) (by decide)
  have hmatch : enclosed? '[' ']' 0 (inner.text ++ ']' :: (rest.text ++ tail)) =
      some (inner.text, rest.text ++ tail) := inner.enclosed?_text .square _
  rw [flat_bracket hmatch, htaken, hlast, length_withClauses, List.append_nil]
  rfl

theorem flat_decorated (inner : Forest) {rest : Forest} {tail : Text} (htail : IsEnd tail)
    {braced : Nat} (hbraced : 0 < braced) {last : Option Char} (hopens : opensOperand last)
    (hclauses : rest.clauses ≠ []) :
    ∃ last', flat braced last ('[' :: (inner.text ++ ']' :: (rest.text ++ tail))) =
      (Reference.parse? (inner.text ++ rest.clauses)).toList ++
        flat (braced - (inner.text.length + rest.operand.text.length + 2)) last'
          (rest.behind.text ++ tail) := by
  have htaken : taken braced last (rest.text ++ tail) = rest.clauses := by
    rw [taken, rest.clauseSuffix_append htail, decide_eq_true hbraced, Bool.true_and,
      if_pos hopens]
  obtain ⟨blank, hoperand, hblank⟩ := rest.clauses_eq_nil_or.resolve_left hclauses
  have hdrop : (rest.text ++ tail).drop rest.clauses.length =
      blank ++ (rest.behind.text ++ tail) := by
    rw [← operand_append_behind, hoperand, List.append_assoc, List.append_assoc, List.drop_left]
  refine ⟨Text.lastSolid last (withClauses inner.text rest.clauses), ?_⟩
  have hmatch : enclosed? '[' ']' 0 (inner.text ++ ']' :: (rest.text ++ tail)) =
      some (inner.text, rest.text ++ tail) := inner.enclosed?_text .square _
  rw [flat_bracket hmatch, htaken, hdrop, flat_blank hblank, length_withClauses, hoperand,
    List.length_append]
  congr 2
  omega

/-- Inside matched braces the scan finds the references of the forest, and goes on behind it. -/
def IsScanned (forest : Forest) : Prop :=
  ∀ ⦃tail : Text⦄, IsEnd tail → ∀ braced : Nat, forest.text.length < braced →
    ∀ last : Option Char,
      flat braced last (forest.text ++ tail) =
        forest.flatReferences false (opensOperand last) ++
          flat (braced - forest.text.length) none tail

theorem length_text_plain (x : Char) (rest : Forest) (hx : isPlain x) :
    (plain x rest hx).text.length = rest.text.length + 1 := rfl

theorem length_text_enclosed (kind : Kind) (inner rest : Forest) :
    (enclosed kind inner rest).text.length = inner.text.length + rest.text.length + 2 := by
  simp only [text, List.cons_append, List.length_cons, List.length_append]
  omega

theorem text_enclosed_append (kind : Kind) (inner rest : Forest) (tail : Text) :
    (enclosed kind inner rest).text ++ tail =
      kind.opening :: (inner.text ++ kind.closing :: (rest.text ++ tail)) := by
  simp only [text, List.cons_append, List.append_assoc]

theorem isScanned_nil : IsScanned nil := by
  intro tail htail braced _ last
  exact htail.flat_eq braced last none

theorem isScanned_plain {x : Char} {rest : Forest} (hx : isPlain x) (hrest : rest.IsScanned) :
    (plain x rest hx).IsScanned := by
  intro tail htail braced hbraced last
  rw [length_text_plain] at hbraced ⊢
  have hleft : braced - 1 - rest.text.length = braced - (rest.text.length + 1) := by omega
  rw [text, List.cons_append, flat_plain hx, hrest htail (braced - 1) (by omega),
    opensOperand_plain hx, hleft]
  rfl

theorem isScanned_enclosed {kind : Kind} (hkind : kind ≠ .square) {inner rest : Forest}
    (hinner : inner.IsScanned) (hrest : rest.IsScanned) : (enclosed kind inner rest).IsScanned := by
  intro tail htail braced hbraced last
  rw [length_text_enclosed] at hbraced ⊢
  have hclosing : IsEnd (kind.closing :: (rest.text ++ tail)) := .stop (.inr (isClosing_closing kind)) _
  have hleft : braced - 1 - inner.text.length - 1 - rest.text.length =
      braced - (inner.text.length + rest.text.length + 2) := by omega
  rw [text_enclosed_append, flat_enclosed hkind (by omega), hinner hclosing _ (by omega),
    flat_closing (isClosing_closing kind), hrest htail _ (by omega), hleft,
    opensOperand_opening hkind, opensOperand_closing, flatReferences_enclosed hkind,
    List.append_assoc]

theorem isScanned_square {inner rest : Forest} (hrest : rest.IsScanned)
    (hbehind : rest.behind.IsScanned) : (enclosed .square inner rest).IsScanned := by
  intro tail htail braced hbraced last
  rw [length_text_enclosed] at hbraced ⊢
  rw [text_enclosed_append]
  show flat braced last ('[' :: (inner.text ++ ']' :: (rest.text ++ tail))) = _
  -- Clauses are taken only where an operand may start, and only if there are any.
  by_cases htakes : opensOperand last ∧ rest.clauses ≠ []
  · obtain ⟨hopens, hclauses⟩ := htakes
    obtain ⟨last', hflat⟩ := flat_decorated inner htail (Nat.zero_lt_of_lt hbraced) hopens hclauses
    have hsplit := congrArg List.length rest.operand_append_behind
    rw [List.length_append] at hsplit
    have hleft : braced - (inner.text.length + rest.operand.text.length + 2) -
        rest.behind.text.length = braced - (inner.text.length + rest.text.length + 2) := by omega
    rw [hflat, hbehind htail _ (by omega) last', hleft, flatReferences_square, if_pos hopens,
      List.append_assoc, List.isEmpty_eq_false_iff.2 hclauses, Bool.not_false,
      rest.flatReferences_behind false (opensOperand last')]
  · have hnone : (if opensOperand last then rest.clauses else []) = [] := by
      split
      · next hopens =>
        exact Decidable.not_not.1 fun hclauses => htakes ⟨hopens, hclauses⟩
      · rfl
    have hleft : braced - (inner.text.length + 2) - rest.text.length =
        braced - (inner.text.length + rest.text.length + 2) := by omega
    rw [flat_bare htail (Nat.zero_lt_of_lt hbraced) hnone, hrest htail _ (by omega) (some ']'),
      hleft, flatReferences_square, hnone, List.append_nil, List.append_assoc]
    rfl

theorem isScanned (forest : Forest) : forest.IsScanned := by
  -- The induction is on the length, since the scan may skip the clauses behind a bracket pair.
  induction hn : forest.text.length using Nat.strongRecOn generalizing forest with
  | _ n ih =>
    subst hn
    cases forest with
    | nil => exact isScanned_nil
    | plain x rest hx => exact isScanned_plain hx (ih _ (Nat.lt_succ_self _) rest rfl)
    | enclosed kind inner rest =>
      have hrest := ih rest.text.length (by rw [length_text_enclosed]; omega) rest rfl
      by_cases hkind : kind = .square
      · subst hkind
        have hsplit := congrArg List.length rest.operand_append_behind
        rw [List.length_append] at hsplit
        refine isScanned_square hrest (ih rest.behind.text.length ?_ rest.behind rfl)
        rw [length_text_enclosed]
        omega
      · have hinner := ih inner.text.length (by rw [length_text_enclosed]; omega) inner rfl
        exact isScanned_enclosed hkind hinner hrest

theorem inBraces_text (forest : Forest) :
    inBraces forest.text = forest.flatReferences false true := by
  rw [inBraces, forest.isScanned (.stop (.inr (by decide)) []) _ (Nat.lt_succ_self _),
    flat_closing (by decide), flat_nil, List.append_nil]
  rfl

end Forest

end RandomTables
