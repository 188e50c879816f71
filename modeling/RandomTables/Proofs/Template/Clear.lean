import RandomTables.Proofs.Template.Flat

/-! # Clear forests

The flat scan takes the clauses behind a bracket pair if it can stand at the start of an operand by
the code point before it. In a clear forest it does stand there.
-/

namespace RandomTables

open RandomTables.Bracket RandomTables.Token

/-- No more of the operand follows. -/
def endsOperand (t : Text) : Bool :=
  match Text.trimStart t with
  | [] => true
  | c :: _ => isOperator c

theorem opensBehind_operator {c : Char} (hc : isOperator c) (opens : Bool) :
    opensBehind opens c = true := by
  rw [opensBehind, if_neg (not_isBlank_of_isOperator hc), hc]

theorem opensBehind_blank {c : Char} (hc : Text.isBlank c) (opens : Bool) :
    opensBehind opens c = opens := by
  rw [opensBehind, if_pos hc]

theorem not_isOperator_of_isBlank {c : Char} (hc : Text.isBlank c) : isOperator c = false := by
  rw [Bool.eq_false_iff]
  exact fun hoperator => not_isBlank_of_isOperator hoperator hc

namespace Forest

/-- Where the scan takes clauses, it changes nothing, or they follow a usable reference that starts
an operand. Parentheses hold prose if they stand in prose or are not a whole operand. -/
def clear : Forest → (prose opens : Bool) → Bool
  | nil, _, _ => true
  | plain c rest _, prose, opens => rest.clear prose (opensBehind opens c)
  | enclosed .square inner rest, prose, opens =>
    ((enclosed .square inner rest).flatReferences false opens ==
      (enclosed .square inner rest).flatReferences false false ||
        !prose && (Reference.parse? (inner.text ++ rest.clauses)).isSome) &&
      rest.clear prose false
  | enclosed .curly inner rest, prose, _ => inner.clear false true && rest.clear prose false
  | enclosed .round inner rest, prose, opens =>
    inner.clear (prose || !opens || !endsOperand rest.text) true && rest.clear prose false

theorem clear_plain (prose opens : Bool) (c : Char) (rest : Forest) (hc : isPlain c) :
    (plain c rest hc).clear prose opens = rest.clear prose (opensBehind opens c) := rfl

theorem clear_square {prose opens : Bool} {inner rest : Forest} :
    (enclosed .square inner rest).clear prose opens ↔
      ((enclosed .square inner rest).flatReferences false opens =
        (enclosed .square inner rest).flatReferences false false ∨
          prose = false ∧ (Reference.parse? (inner.text ++ rest.clauses)).isSome) ∧
        rest.clear prose false := by
  simp only [clear, Bool.and_eq_true, Bool.or_eq_true, beq_iff_eq, Bool.not_eq_true']

theorem clear_curly {prose opens : Bool} {inner rest : Forest} :
    (enclosed .curly inner rest).clear prose opens ↔
      inner.clear false true ∧ rest.clear prose false := by
  simp only [clear, Bool.and_eq_true]

theorem clear_round {prose opens : Bool} {inner rest : Forest} :
    (enclosed .round inner rest).clear prose opens ↔
      inner.clear (prose || !opens || !endsOperand rest.text) true ∧ rest.clear prose false := by
  simp only [clear, Bool.and_eq_true]

/-! ## Cutting -/

theorem operand_cut {sep : Char} (hsep : isOperator sep) (forest : Forest) :
    (forest.cut sep).1.operand = forest.operand := by
  induction forest with
  | nil => rfl
  | plain c rest hc ih =>
    rw [cut]
    by_cases hcsep : c = sep
    · subst hcsep
      rw [if_pos rfl, operand, operand, if_pos hsep]
    · rw [if_neg hcsep, operand, operand, ih]
  | enclosed kind inner rest _ ih =>
    rw [cut, operand, operand, ih]

theorem clauses_cut {sep : Char} (hsep : isOperator sep) (forest : Forest) :
    (forest.cut sep).1.clauses = forest.clauses := by
  rw [clauses_eq, clauses_eq, operand_cut hsep]

theorem flatReferences_cut {sep : Char} (hsep : isOperator sep) (forest : Forest)
    (passing opens : Bool) :
    forest.flatReferences passing opens =
      (forest.cut sep).1.flatReferences passing opens ++
        (forest.cut sep).2.flatMap (·.flatReferences false true) := by
  induction forest generalizing passing opens with
  | nil => rfl
  | plain c rest hc ih =>
    rw [cut]
    by_cases hcsep : c = sep
    · subst hcsep
      rw [if_pos rfl, flatReferences_plain, hsep, opensBehind_operator hsep, Bool.not_true,
        Bool.and_false, ih]
      rfl
    · rw [if_neg hcsep, flatReferences_plain, flatReferences_plain, ih]
  | enclosed kind inner rest _ ih =>
    rw [cut]
    cases passing with
    | true => exact ih true false
    | false =>
      by_cases hkind : kind = .square
      · subst hkind
        rw [flatReferences_square, flatReferences_square, clauses_cut hsep, ih, List.append_assoc]
      · rw [flatReferences_enclosed hkind, flatReferences_enclosed hkind, ih, List.append_assoc]

theorem endsOperand_blank {c : Char} (hc : Text.isBlank c) (t : Text) :
    endsOperand (c :: t) = endsOperand t := by
  rw [endsOperand, endsOperand, Text.trimStart, List.dropWhile_cons_of_pos hc, Text.trimStart]

theorem endsOperand_solid {c : Char} (hc : ¬ Text.isBlank c) (t : Text) :
    endsOperand (c :: t) = isOperator c := by
  rw [endsOperand, Text.trimStart, List.dropWhile_cons_of_neg hc]

theorem endsOperand_cut {sep : Char} (hsep : isOperator sep) (forest : Forest) :
    endsOperand (forest.cut sep).1.text = endsOperand forest.text := by
  induction forest with
  | nil => rfl
  | plain c rest hc ih =>
    rw [cut]
    by_cases hcsep : c = sep
    · subst hcsep
      have hends : endsOperand (c :: rest.text) = isOperator c :=
        endsOperand_solid (not_isBlank_of_isOperator hsep) rest.text
      rw [if_pos rfl]
      exact hsep.symm.trans hends.symm
    · rw [if_neg hcsep, text, text]
      by_cases hblank : Text.isBlank c
      · rw [endsOperand_blank hblank, endsOperand_blank hblank, ih]
      · rw [endsOperand_solid hblank, endsOperand_solid hblank]
  | enclosed kind inner rest _ ih =>
    have hsolid : ¬ Text.isBlank kind.opening := by cases kind <;> decide
    rw [cut, text, text, List.cons_append, List.cons_append, endsOperand_solid hsolid,
      endsOperand_solid hsolid]

theorem clear_cut {sep : Char} (hsep : isOperator sep) {forest : Forest} {prose opens : Bool}
    (h : forest.clear prose opens) :
    (forest.cut sep).1.clear prose opens ∧
      ∀ piece ∈ (forest.cut sep).2, piece.clear prose true := by
  induction forest generalizing opens with
  | nil => exact ⟨rfl, fun _ hmem => by cases hmem⟩
  | plain c rest hc ih =>
    rw [clear_plain] at h
    rw [cut]
    by_cases hcsep : c = sep
    · subst hcsep
      rw [opensBehind_operator hsep] at h
      rw [if_pos rfl]
      refine ⟨rfl, fun piece hpiece => ?_⟩
      rcases List.mem_cons.1 hpiece with rfl | hpiece
      · exact (ih h).1
      · exact (ih h).2 piece hpiece
    · rw [if_neg hcsep]
      exact ih h
  | enclosed kind inner rest _ ih =>
    rw [cut]
    cases kind with
    | square =>
      rw [clear_square] at h ⊢
      rw [clauses_cut hsep]
      refine ⟨⟨h.1.imp_left fun hsame => ?_, (ih h.2).1⟩, (ih h.2).2⟩
      rw [flatReferences_cut hsep, flatReferences_cut hsep _ false false] at hsame
      exact List.append_cancel_right hsame
    | curly =>
      rw [clear_curly] at h ⊢
      exact ⟨⟨h.1, (ih h.2).1⟩, (ih h.2).2⟩
    | round =>
      rw [clear_round] at h ⊢
      rw [endsOperand_cut hsep]
      exact ⟨⟨h.1, (ih h.2).1⟩, (ih h.2).2⟩

/-! ## Trimming -/

theorem flatReferences_trimStart (forest : Forest) (passing opens : Bool) :
    forest.trimStart.flatReferences passing opens = forest.flatReferences passing opens := by
  induction forest with
  | nil => rfl
  | plain c rest hc ih =>
    by_cases hblank : Text.isBlank c
    · rw [trimStart_blank hblank, ih, flatReferences_plain, not_isOperator_of_isBlank hblank,
        opensBehind_blank hblank, Bool.not_false, Bool.and_true]
    · rw [trimStart_solid hblank]
  | enclosed kind inner rest _ _ => rfl

theorem clear_trimStart (forest : Forest) (prose opens : Bool) :
    forest.trimStart.clear prose opens = forest.clear prose opens := by
  induction forest with
  | nil => rfl
  | plain c rest hc ih =>
    by_cases hblank : Text.isBlank c
    · rw [trimStart_blank hblank, ih, clear_plain, opensBehind_blank hblank]
    · rw [trimStart_solid hblank]
  | enclosed kind inner rest _ _ => rfl

theorem trimEnd_operand (forest : Forest) :
    Text.trimEnd forest.trimEnd.operand.text = Text.trimEnd forest.operand.text := by
  induction forest with
  | nil => rfl
  | plain c rest hc ih =>
    rcases trimEnd_plain c rest hc with hkept | ⟨hblank, hrest, hnil⟩
    · rw [hkept, operand, operand]
      split
      · rfl
      · rw [text, text, Text.trimEnd, Text.trimEnd, ih]
    · have hother : ¬ isOperator c := fun hoperator => not_isBlank_of_isOperator hoperator hblank
      rw [hrest] at ih
      rw [hnil, operand, operand, if_neg hother, text, text, Text.trimEnd, Text.trimEnd, ← ih]
      exact (if_pos hblank).symm
  | enclosed kind inner rest _ ih =>
    have hsolid : ¬ Text.isBlank kind.closing := not_isBlank_of_isClosing (isClosing_closing kind)
    rw [trimEnd, operand, operand, text, text, Text.trimEnd_append_solid _ hsolid,
      Text.trimEnd_append_solid _ hsolid, ih]

theorem clauses_trimEnd (forest : Forest) : forest.trimEnd.clauses = forest.clauses := by
  rw [clauses_eq, clauses_eq, trimEnd_operand]

theorem flatReferences_trimEnd (forest : Forest) (passing opens : Bool) :
    forest.trimEnd.flatReferences passing opens = forest.flatReferences passing opens := by
  induction forest generalizing passing opens with
  | nil => rfl
  | plain c rest hc ih =>
    rcases trimEnd_plain c rest hc with hkept | ⟨hblank, hrest, hnil⟩
    · rw [hkept, flatReferences_plain, flatReferences_plain, ih]
    · rw [hnil, flatReferences_plain, ← ih, hrest]
      rfl
  | enclosed kind inner rest _ ih =>
    cases passing with
    | true => exact ih true false
    | false =>
      by_cases hkind : kind = .square
      · subst hkind
        rw [trimEnd, flatReferences_square, flatReferences_square, clauses_trimEnd, ih]
      · rw [trimEnd, flatReferences_enclosed hkind, flatReferences_enclosed hkind, ih]

theorem endsOperand_trimEnd (forest : Forest) :
    endsOperand forest.trimEnd.text = endsOperand forest.text := by
  induction forest with
  | nil => rfl
  | plain c rest hc ih =>
    rcases trimEnd_plain c rest hc with hkept | ⟨hblank, hrest, hnil⟩
    · rw [hkept, text, text]
      by_cases hblank : Text.isBlank c
      · rw [endsOperand_blank hblank, endsOperand_blank hblank, ih]
      · rw [endsOperand_solid hblank, endsOperand_solid hblank]
    · rw [hrest] at ih
      rw [hnil]
      exact ih.trans (endsOperand_blank hblank rest.text).symm
  | enclosed kind inner rest _ ih =>
    have hsolid : ¬ Text.isBlank kind.opening := by cases kind <;> decide
    rw [trimEnd, text, text, List.cons_append, List.cons_append, endsOperand_solid hsolid,
      endsOperand_solid hsolid]

theorem clear_trimEnd {forest : Forest} {prose opens : Bool} (h : forest.clear prose opens) :
    forest.trimEnd.clear prose opens := by
  induction forest generalizing opens with
  | nil => rfl
  | plain c rest hc ih =>
    rcases trimEnd_plain c rest hc with hkept | ⟨-, -, hnil⟩
    · rw [hkept]
      exact ih h
    · rw [hnil]
      rfl
  | enclosed kind inner rest _ ih =>
    rw [trimEnd]
    cases kind with
    | square =>
      rw [clear_square] at h ⊢
      rw [clauses_trimEnd]
      refine ⟨h.1.imp_left fun hsame => ?_, ih h.2⟩
      have htrim := flatReferences_trimEnd (enclosed .square inner rest) false
      exact (htrim opens).trans (hsame.trans (htrim false).symm)
    | curly =>
      rw [clear_curly] at h ⊢
      exact ⟨h.1, ih h.2⟩
    | round =>
      rw [clear_round] at h ⊢
      rw [endsOperand_trimEnd]
      exact ⟨h.1, ih h.2⟩

theorem flatReferences_trim (forest : Forest) (passing opens : Bool) :
    forest.trim.flatReferences passing opens = forest.flatReferences passing opens := by
  rw [trim, flatReferences_trimEnd, flatReferences_trimStart]

theorem clear_trim {forest : Forest} {prose opens : Bool} (h : forest.clear prose opens) :
    forest.trim.clear prose opens := by
  rw [← clear_trimStart] at h
  exact clear_trimEnd h

end Forest

end RandomTables
