import RandomTables.Proofs.Template.Forest

/-! # Operands

An expression is cut into operands at the separators outside its brackets. An operand holds no
separator there, and is no higher than the expression.
-/

namespace RandomTables

open RandomTables.Bracket

namespace Forest

theorem text_eq_nil {forest : Forest} (h : forest.text = []) : forest = nil := by
  cases forest with
  | nil => rfl
  | plain c rest hc => cases h
  | enclosed kind inner rest => cases h

/-- The trimmed pieces that are not empty. -/
def operands (sep : Char) (forest : Forest) : List Forest :=
  ((forest.pieces sep).map trim).filter (!·.text.isEmpty)

theorem operands_text {sep : Char} (hsep : isPlain sep) (forest : Forest) :
    Bracket.operands sep forest.text = (forest.operands sep).map text := by
  have htrim : (forest.pieces sep).map (Text.trim ∘ text) =
      ((forest.pieces sep).map trim).map text := by
    rw [List.map_map]
    exact List.map_congr_left fun piece _ => piece.trim_text
  rw [Bracket.operands, operands, pieces_text hsep, List.map_map, htrim, List.filter_map]
  rfl

theorem mem_operands {sep : Char} {forest operand : Forest} (h : operand ∈ forest.operands sep) :
    ∃ piece ∈ forest.pieces sep, operand = piece.trim ∧ operand ≠ nil := by
  unfold operands at h
  obtain ⟨hmem, hsome⟩ := List.mem_filter.1 h
  obtain ⟨piece, hpiece, rfl⟩ := List.mem_map.1 hmem
  refine ⟨piece, hpiece, rfl, fun hnil => ?_⟩
  rw [hnil] at hsome
  cases hsome

theorem isTrimmed_of_mem_operands {sep : Char} {forest operand : Forest}
    (h : operand ∈ forest.operands sep) : operand.IsTrimmed := by
  obtain ⟨piece, -, rfl, -⟩ := mem_operands h
  exact piece.isTrimmed_trim

/-! ## Outside brackets -/

/-- The code points outside brackets. -/
def outside : Forest → Text
  | nil => []
  | plain c rest _ => c :: rest.outside
  | enclosed _ _ rest => rest.outside

theorem outside_trimStart (forest : Forest) : forest.trimStart.outside ⊆ forest.outside := by
  induction forest with
  | nil => exact List.Subset.refl _
  | plain c rest hc ih =>
    unfold trimStart
    split
    · exact List.subset_cons_of_subset c ih
    · exact List.Subset.refl _
  | enclosed kind inner rest _ _ => exact List.Subset.refl _

theorem outside_trimEnd (forest : Forest) : forest.trimEnd.outside ⊆ forest.outside := by
  induction forest with
  | nil => exact List.Subset.refl _
  | plain c rest hc ih =>
    rcases trimEnd_plain c rest hc with hkept | ⟨-, -, hnil⟩
    · rw [hkept]
      exact List.cons_subset_cons c ih
    · rw [hnil]
      exact List.nil_subset _
  | enclosed kind inner rest _ ih => exact ih

theorem outside_trim (forest : Forest) : forest.trim.outside ⊆ forest.outside :=
  List.Subset.trans (outside_trimEnd _) forest.outside_trimStart

theorem outside_pieces {sep : Char} {forest piece : Forest} (h : piece ∈ forest.pieces sep) :
    piece.outside ⊆ forest.outside ∧ sep ∉ piece.outside := by
  induction forest generalizing piece with
  | nil =>
    obtain rfl := List.mem_singleton.1 h
    exact ⟨List.Subset.refl _, List.not_mem_nil⟩
  | plain c rest hc ih =>
    unfold pieces cut at h
    split at h
    · rcases List.mem_cons.1 h with rfl | h
      · exact ⟨List.nil_subset _, List.not_mem_nil⟩
      · exact ⟨List.subset_cons_of_subset c (ih h).1, (ih h).2⟩
    · next hcsep =>
      rcases List.mem_cons.1 h with rfl | h
      · have hfirst := ih (cut_mem_pieces sep rest)
        refine ⟨List.cons_subset_cons c hfirst.1, fun hmem => ?_⟩
        rcases List.mem_cons.1 hmem with heq | hmem
        · exact hcsep heq.symm
        · exact hfirst.2 hmem
      · have hlater := ih (List.mem_cons_of_mem _ h)
        exact ⟨List.subset_cons_of_subset c hlater.1, hlater.2⟩
  | enclosed kind inner rest _ ih =>
    rcases List.mem_cons.1 h with rfl | h
    · have hfirst := ih (cut_mem_pieces sep rest)
      exact hfirst
    · exact ih (List.mem_cons_of_mem _ h)

theorem outside_operands {sep : Char} {forest operand : Forest}
    (h : operand ∈ forest.operands sep) :
    operand.outside ⊆ forest.outside ∧ sep ∉ operand.outside := by
  obtain ⟨piece, hpiece, rfl, -⟩ := mem_operands h
  have htrim := piece.outside_trim
  obtain ⟨hsubset, hsep⟩ := outside_pieces hpiece
  exact ⟨List.Subset.trans htrim hsubset, fun hmem => hsep (htrim hmem)⟩

/-! ## Height -/

/-- How deep braces and parentheses are nested. What square brackets hold is not read further. -/
def height : Forest → Nat
  | nil => 0
  | plain _ rest _ => rest.height
  | enclosed .square _ rest => rest.height
  | enclosed _ inner rest => max (inner.height + 1) rest.height

theorem height_enclosed {kind : Kind} (hkind : kind ≠ .square) (inner rest : Forest) :
    (enclosed kind inner rest).height = max (inner.height + 1) rest.height := by
  cases kind with
  | square => exact absurd rfl hkind
  | curly => rfl
  | round => rfl

theorem height_enclosed_mono {kind : Kind} {inner rest rest' : Forest}
    (h : rest.height ≤ rest'.height) :
    (enclosed kind inner rest).height ≤ (enclosed kind inner rest').height := by
  by_cases hkind : kind = .square
  · subst hkind
    exact h
  · rw [height_enclosed hkind, height_enclosed hkind]
    omega

theorem height_le_enclosed (kind : Kind) (inner rest : Forest) :
    rest.height ≤ (enclosed kind inner rest).height := by
  by_cases hkind : kind = .square
  · subst hkind
    exact Nat.le_refl _
  · rw [height_enclosed hkind]
    exact Nat.le_max_right _ _

theorem height_trimStart (forest : Forest) : forest.trimStart.height ≤ forest.height := by
  induction forest with
  | nil => exact Nat.le_refl _
  | plain c rest hc ih =>
    unfold trimStart
    split
    · exact ih
    · exact Nat.le_refl _
  | enclosed kind inner rest _ _ => exact Nat.le_refl _

theorem height_trimEnd (forest : Forest) : forest.trimEnd.height ≤ forest.height := by
  induction forest with
  | nil => exact Nat.le_refl _
  | plain c rest hc ih =>
    rcases trimEnd_plain c rest hc with hkept | ⟨-, -, hnil⟩
    · rw [hkept]
      exact ih
    · rw [hnil]
      exact Nat.zero_le _
  | enclosed kind inner rest _ ih => exact height_enclosed_mono ih

theorem height_trim (forest : Forest) : forest.trim.height ≤ forest.height :=
  Nat.le_trans (height_trimEnd _) forest.height_trimStart

theorem height_pieces {sep : Char} {forest piece : Forest} (h : piece ∈ forest.pieces sep) :
    piece.height ≤ forest.height := by
  induction forest generalizing piece with
  | nil =>
    obtain rfl := List.mem_singleton.1 h
    exact Nat.le_refl _
  | plain c rest hc ih =>
    unfold pieces cut at h
    split at h
    · rcases List.mem_cons.1 h with rfl | h
      · exact Nat.zero_le _
      · exact ih h
    · rcases List.mem_cons.1 h with rfl | h
      · have hfirst := ih (cut_mem_pieces sep rest)
        exact hfirst
      · exact ih (List.mem_cons_of_mem _ h)
  | enclosed kind inner rest _ ih =>
    rcases List.mem_cons.1 h with rfl | h
    · exact height_enclosed_mono (ih (cut_mem_pieces sep rest))
    · exact Nat.le_trans (ih (List.mem_cons_of_mem _ h)) (height_le_enclosed kind inner rest)

theorem height_operands {sep : Char} {forest operand : Forest}
    (h : operand ∈ forest.operands sep) : operand.height ≤ forest.height := by
  obtain ⟨piece, hpiece, rfl, -⟩ := mem_operands h
  exact Nat.le_trans piece.height_trim (height_pieces hpiece)

end Forest

end RandomTables
