import RandomTables.Proofs.Template.Notation
import RandomTables.Proofs.Template.Region

/-! # Repairs that are reported

Reading an expression mends it: a split leaves empty operands out, and the bounds of a range are put
in order. The check looks at what stands between two braces as a whole, and there it finds all that
is mended.
-/

namespace RandomTables

open RandomTables.Bracket

/-! ## What is read -/

/-- An expression that reading comes to. -/
structure Reading where
  text : Text
  /-- It is all that stands between two braces. -/
  isWhole : Bool
  deriving DecidableEq

/-- What the texts of a shape and its leaf give. -/
def Shape.collect {β : Type} (expression template : Text → List β) (leaf : Node → List β) :
    Shape → List β
  | .all parts => parts.flatMap expression
  | .oneOf parts => parts.flatMap expression
  | .group body => expression body
  | .leaf node => leaf node
  | .prose operand => template operand

mutual

def templateReadings : (depth : Nat) → Text → List Reading
  | 0, _ => []
  | depth + 1, t =>
    (Piece.split t).flatMap fun
      | .braced body => expressionReadings depth body true
      | _ => []

def expressionReadings : (depth : Nat) → Text → (isWhole : Bool) → List Reading
  | 0, _, _ => []
  | depth + 1, t, isWhole =>
    { text := t, isWhole } ::
      (Shape.of (Text.trim t)).collect (fun part => expressionReadings depth part false)
        (fun operand => templateReadings depth operand) fun _ => []

end

/-- The range that an expression comes to, with its bounds as they are written. -/
def writtenRange? (t : Text) : Option (UInt64 × UInt64) :=
  (loneOperand? (Text.trim t)).bind numberRange?

/-- A split that reading the expression makes leaves an operand out. -/
def dropsOperand (t : Text) : Bool :=
  Issue.hasEmptyOperand '&' (Text.trim t) ||
    (operands '&' (Text.trim t)).length < 2 &&
      Issue.hasEmptyOperand '|' ((operands '&' (Text.trim t)).headD (Text.trim t))

/-! ## Ranges of the tree -/

namespace Node

def range? : Node → Option (UInt64 × UInt64)
  | .number min max => some (min, max)
  | _ => none

def ranges (tree : Node) : List (UInt64 × UInt64) := tree.nodes.filterMap range?

theorem ranges_concat (nodes : List Node) : (concat nodes).ranges = nodes.flatMap ranges := by
  refine flatMap_concat (fun _ => rfl) (fun parts => ?_) nodes
  rw [ranges, Node.nodes, nodesOf_eq, List.filterMap_cons]
  exact List.filterMap_flatMap

end Node

theorem Piece.ranges_bracketed (reader : Text → Node) (body : Text) :
    ((Piece.bracketed body).node reader).ranges = [] := by
  rw [Piece.node]
  split <;> rfl

def orderedRange? (t : Text) : Option (UInt64 × UInt64) :=
  (writtenRange? t).map fun (low, high) => (min low high, max low high)

theorem Shape.of_not_loneOperand {t : Text} (h : loneOperand? t = none) :
    ∃ parts, Shape.of t = .all parts ∨ Shape.of t = .oneOf parts := by
  unfold loneOperand? at h
  dsimp only at h
  split at h
  · next hsplit =>
    unfold Shape.of
    dsimp only
    split
    · exact ⟨_, .inl rfl⟩
    · next hone =>
      rw [if_pos (hsplit.resolve_left hone)]
      exact ⟨_, .inr rfl⟩
  · cases h

theorem numberRange?_of_parenthesised {t body : Text} (h : parenthesised? t = some body) :
    numberRange? t = none := by
  obtain ⟨rfl, -⟩ := parenthesised?_eq h
  cases hrange : numberRange? ('(' :: (body ++ [')'])) with
  | none => rfl
  | some range => exact absurd (isDigit_of_numberRange? hrange List.mem_cons_self) (by decide)

namespace Shape

theorem ranges_node (expression template : Text → Node) (shape : Shape) :
    (shape.node expression template).ranges =
      shape.collect (fun t => (expression t).ranges) (fun t => (template t).ranges) Node.ranges := by
  cases shape with
  | all parts | oneOf parts =>
    rw [node, Node.ranges, Node.nodes, Node.nodesOf_eq, List.filterMap_cons, List.flatMap_map]
    exact List.filterMap_flatMap
  | _ => rfl

variable {β γ : Type}

theorem collect_eq_append (expression template : Text → List β) (leaf : Node → List β)
    (shape : Shape) :
    shape.collect expression template leaf =
      shape.collect (fun _ => []) (fun _ => []) leaf ++
        shape.collect expression template fun _ => [] := by
  cases shape <;> simp [collect]

theorem filterMap_collect (f : β → Option γ) (expression template : Text → List β)
    (leaf : Node → List β) (shape : Shape) :
    (shape.collect expression template leaf).filterMap f =
      shape.collect (fun t => (expression t).filterMap f) (fun t => (template t).filterMap f)
        fun node => (leaf node).filterMap f := by
  cases shape with
  | all parts | oneOf parts => exact List.filterMap_flatMap
  | _ => rfl

theorem ranges_leaf (t : Text) :
    (Shape.of (Text.trim t)).collect (fun _ => []) (fun _ => []) Node.ranges =
      (orderedRange? t).toList := by
  rw [orderedRange?, writtenRange?]
  cases hlone : loneOperand? (Text.trim t) with
  | none =>
    obtain ⟨parts, hshape | hshape⟩ := Shape.of_not_loneOperand hlone <;> simp [hshape, collect]
  | some operand =>
    rw [Shape.of_loneOperand hlone, Option.bind_some, Shape.ofOperand]
    cases hgroup : parenthesised? operand with
    | some body =>
      rw [numberRange?_of_parenthesised hgroup]
      rfl
    | none =>
      cases numberRange? operand with
      | some range => rfl
      | none =>
        dsimp only
        split
        · rfl
        · split
          · split <;> rfl
          · rfl

end Shape

theorem ranges_read (depth : Nat) :
    (∀ t isWhole, (readExpression depth t).ranges =
      (expressionReadings depth t isWhole).filterMap fun reading => orderedRange? reading.text) ∧
    ∀ t, (readTemplate depth t).ranges =
      (templateReadings depth t).filterMap fun reading => orderedRange? reading.text := by
  induction depth with
  | zero =>
    refine ⟨fun t isWhole => by rw [readExpression, expressionReadings]; rfl, fun t => ?_⟩
    rw [readTemplate, templateReadings, Node.ranges_concat, List.flatMap_map, List.filterMap_nil,
      List.flatMap_eq_nil_iff]
    rintro piece -
    cases piece with
    | bracketed body => exact Piece.ranges_bracketed _ body
    | _ => rfl
  | succ depth ih =>
    obtain ⟨hexpression, htemplate⟩ := ih
    refine ⟨fun t isWhole => ?_, fun t => ?_⟩
    · rw [readExpression_succ, Shape.ranges_node, Shape.collect_eq_append, Shape.ranges_leaf,
        expressionReadings, List.filterMap_eq_flatMap_toList, List.flatMap_cons,
        ← List.filterMap_eq_flatMap_toList, Shape.filterMap_collect]
      simp only [hexpression _ false, htemplate, List.filterMap_nil]
    · rw [readTemplate, templateReadings, Node.ranges_concat, List.flatMap_map, List.filterMap_flatMap]
      refine List.flatMap_congr fun piece _ => ?_
      cases piece with
      | literal c => rfl
      | bracketed body => exact Piece.ranges_bracketed _ body
      | braced body => exact hexpression body true

/-! ## Where expressions are read -/

/-- Something holds of every text in a shape. -/
def Shape.Forall (p : Text → Prop) : Shape → Prop
  | .all parts => ∀ part ∈ parts, p part
  | .oneOf parts => ∀ part ∈ parts, p part
  | .group body => p body
  | .leaf _ => True
  | .prose operand => p operand

theorem Shape.forall_of {p : Text → Prop}
    (hoperand : ∀ sep t part, isOperator sep → p t → part ∈ operands sep t → p part)
    (hgroup : ∀ t body, p t → parenthesised? t = some body → p body) {t : Text} (h : p t) :
    (Shape.of t).Forall p := by
  have hhead {sep : Char} (hsep : isOperator sep) {t : Text} (h : p t) :
      p ((operands sep t).headD t) := by
    cases hparts : operands sep t with
    | nil => exact h
    | cons part more =>
      have hpart : part ∈ operands sep t := hparts ▸ List.mem_cons_self
      exact hoperand sep t part hsep h hpart
  have hconjunct := hhead (by decide : isOperator '&') h
  unfold Shape.of
  dsimp only
  split
  · exact fun part hpart => hoperand '&' t part (by decide) h hpart
  · split
    · exact fun part hpart => hoperand '|' _ part (by decide) hconjunct hpart
    · have hlone := hhead (by decide : isOperator '|') hconjunct
      unfold ofOperand
      split
      · next body hbody => exact hgroup _ body hlone hbody
      · split
        · trivial
        · split
          · trivial
          · split
            · split
              · trivial
              · exact hlone
            · trivial

theorem Shape.exists_of_mem_collect {β : Type} {expression template : Text → List β} {x : β}
    {p : Text → Prop} {shape : Shape} (hshape : shape.Forall p)
    (h : x ∈ shape.collect expression template fun _ => []) :
    ∃ t, p t ∧ (x ∈ expression t ∨ x ∈ template t) := by
  cases shape with
  | all parts | oneOf parts =>
    obtain ⟨part, hpart, hx⟩ := List.mem_flatMap.1 h
    exact ⟨part, hshape part hpart, .inl hx⟩
  | group body => exact ⟨body, hshape, .inl h⟩
  | leaf node => cases h
  | prose operand => exact ⟨operand, hshape, .inr h⟩

/-- What is read as a whole stands in braces of the text, or is the text itself. -/
theorem hasPiece_of_readings (depth : Nat) :
    (∀ s t isWhole, Balanced Kind.IsHard t → Whole t → IsPart (· ∈ Piece.split t) s →
      ∀ reading ∈ expressionReadings depth s isWhole, reading.isWhole →
        reading = { text := s, isWhole } ∨ HasPiece (.braced reading.text) t) ∧
    ∀ t, Balanced Kind.IsHard t → Whole t →
      ∀ reading ∈ templateReadings depth t, reading.isWhole → HasPiece (.braced reading.text) t := by
  induction depth with
  | zero =>
    refine ⟨fun s t isWhole _ _ _ reading hreading => ?_, fun t _ _ reading hreading => ?_⟩
    · rw [expressionReadings] at hreading
      cases hreading
    · rw [templateReadings] at hreading
      cases hreading
  | succ depth ih =>
    obtain ⟨hexpression, htemplate⟩ := ih
    refine ⟨fun s t isWhole hbalanced hwhole hpart reading hreading hmark => ?_,
      fun t hbalanced hwhole reading hreading hmark => ?_⟩
    · rw [expressionReadings, List.mem_cons] at hreading
      refine hreading.imp_right fun hreading => ?_
      -- The parts of the expression are made of pieces of `t` too, so the induction stays in `t`.
      have hmatched := (balanced_iff_split t).1 hbalanced
      have hshape : (Shape.of (Text.trim s)).Forall (IsPart (· ∈ Piece.split t)) :=
        Shape.forall_of (fun _ _ _ hsep h hoperand => h.operand hmatched hsep hoperand)
          (fun _ _ h hbody => h.group hmatched hbody) (hpart.trim hmatched)
      obtain ⟨part, hpart, hreading | hreading⟩ := Shape.exists_of_mem_collect hshape hreading
      · rcases hexpression part t false hbalanced hwhole hpart reading hreading hmark with
          rfl | hpiece
        · cases hmark
        · exact hpiece
      · have hsubset : Piece.split part ⊆ Piece.split t := hpart.all
        exact (htemplate part (hpart.balanced hmatched) (hwhole.of_subset hsubset) reading
          hreading hmark).of_subset hsubset
    · rw [templateReadings, List.mem_flatMap] at hreading
      obtain ⟨piece, hpiece, hreading⟩ := hreading
      cases piece with
      | literal c => cases hreading
      | bracketed body => cases hreading
      | braced body =>
        have hbody : Balanced Kind.IsHard body := (balanced_iff_split t).1 hbalanced _ hpiece
        have hall : IsPart (· ∈ Piece.split body) body :=
          ⟨fun _ hmem => hmem, hwhole.uncut hpiece⟩
        rcases hexpression body body true hbody (hwhole.inner hpiece) hall reading hreading hmark with
          rfl | hinner
        · exact .here hpiece
        · exact .inside hpiece hinner

/-! ## What the check of an expression finds -/

namespace Issue

theorem hasEmptyOperand_trim {sep : Char} (hsep : ¬ Text.isBlank sep) (t : Text) :
    hasEmptyOperand sep (Text.trim t) = hasEmptyOperand sep t := by
  have hlength := congrArg List.length (map_trim_pieces_trim hsep t)
  rw [List.length_map, List.length_map] at hlength
  rw [hasEmptyOperand, hasEmptyOperand, hlength, operands_trim hsep]

theorem headD_operands_eq_self {sep : Char} {t : Text} (ht : Text.trim t = t)
    (hnone : hasEmptyOperand sep t = false) (hone : (operands sep t).length < 2) :
    (operands sep t).headD t = t := by
  obtain ⟨piece, more, hpieces⟩ := List.exists_cons_of_ne_nil (pieces_ne_nil sep 0 t)
  simp only [hasEmptyOperand, Bool.and_eq_false_iff, decide_eq_false_iff_not, hpieces,
    List.length_cons] at hnone
  obtain rfl : more = [] := List.length_eq_zero_iff.1 (by omega)
  obtain rfl := eq_of_pieces_singleton hpieces
  rw [operands, hpieces, List.map_singleton, ht]
  cases piece <;> rfl

theorem hasEmptyOperand_of_dropsOperand {t : Text} (h : dropsOperand t) :
    hasEmptyOperand '&' t ∨ hasEmptyOperand '|' t := by
  rw [← hasEmptyOperand_trim (by decide : ¬ Text.isBlank '&'),
    ← hasEmptyOperand_trim (by decide : ¬ Text.isBlank '|')]
  cases hand : hasEmptyOperand '&' (Text.trim t) with
  | true => exact .inl rfl
  | false =>
    simp only [dropsOperand, hand, Bool.false_or, Bool.and_eq_true, decide_eq_true_iff] at h
    rw [headD_operands_eq_self (Text.trim_trim t) hand h.1] at h
    exact .inr h.2

theorem numberRange?_trim_of_written {t : Text} (hnone : dropsOperand t = false)
    {range : UInt64 × UInt64} (h : writtenRange? t = some range) :
    numberRange? (Text.trim t) = some range := by
  obtain ⟨operand, hlone, hrange⟩ := Option.bind_eq_some_iff.1 h
  unfold loneOperand? at hlone
  dsimp only at hlone
  split at hlone
  · cases hlone
  · next hsplit =>
    rw [not_or, Nat.not_le, Nat.not_le] at hsplit
    simp only [dropsOperand, Bool.or_eq_false_iff, Bool.and_eq_false_iff, decide_eq_false_iff_not] at hnone
    have hand := headD_operands_eq_self (Text.trim_trim t) hnone.1 hsplit.1
    rw [hand] at hlone hsplit hnone
    have hor := headD_operands_eq_self (Text.trim_trim t)
      (hnone.2.resolve_left (fun hmany => hmany hsplit.1)) hsplit.2
    rw [hor] at hlone
    cases hlone
    exact hrange

theorem mem_expression_emptyOperand {t body : Text} :
    .emptyOperand body ∈ expression t ↔
      t = body ∧ (hasEmptyOperand '&' body ∨ hasEmptyOperand '|' body) := by
  unfold expression
  split
  · next hempty =>
    rw [Bool.or_eq_true] at hempty
    rw [List.mem_singleton, emptyOperand.injEq]
    constructor
    · rintro rfl
      exact ⟨rfl, hempty⟩
    · exact fun h => h.1.symm
  · next hempty =>
    rw [Bool.or_eq_true] at hempty
    refine iff_of_false (fun hmem => ?_) (by rintro ⟨rfl, h⟩; exact hempty h)
    split at hmem
    · split at hmem
      · cases List.mem_singleton.1 hmem
      · cases hmem
    · cases hmem

theorem hasEmptyOperand_of_range {sep : Char} (hsep : isOperator sep) {t : Text}
    {range : UInt64 × UInt64} (h : numberRange? (Text.trim t) = some range) :
    hasEmptyOperand sep t = false := by
  rw [← hasEmptyOperand_trim (not_isBlank_of_isOperator hsep)]
  apply hasEmptyOperand_of_uncut hsep
  apply uncut_of_not_isOperator
  intro c hc hoperator
  rcases isDigit_of_numberRange? h hc with hdigit | rfl
  · exact not_isOperator_of_isDigit hdigit hoperator
  · exact absurd hoperator (by decide)

theorem mem_expression_reversedRange {t : Text} {low high : UInt64} :
    .reversedRange low high ∈ expression t ↔
      numberRange? (Text.trim t) = some (low, high) ∧ high < low := by
  unfold expression
  cases hrange : numberRange? (Text.trim t) with
  | none => split <;> simp
  | some range =>
    obtain ⟨low', high'⟩ := range
    rw [hasEmptyOperand_of_range (by decide) hrange, hasEmptyOperand_of_range (by decide) hrange]
    simp only [Bool.or_self, Bool.false_eq_true, if_false, Option.some.injEq, Prod.mk.injEq]
    split
    · next hless =>
      rw [List.mem_singleton, reversedRange.injEq]
      constructor
      · rintro ⟨rfl, rfl⟩
        exact ⟨⟨rfl, rfl⟩, hless⟩
      · rintro ⟨⟨rfl, rfl⟩, -⟩
        exact ⟨rfl, rfl⟩
    · next hless =>
      refine iff_of_false List.not_mem_nil ?_
      rintro ⟨⟨rfl, rfl⟩, h⟩
      exact hless h

theorem of_mem_clauses {raw t : Text} {issue : Issue} (h : issue ∈ clauses raw t) :
    issue = .missingCount raw ∨ issue = .emptyExclusion raw := by
  induction t with
  | nil => cases h
  | cons c t ih =>
    rw [clauses] at h
    split at h
    · exact (List.mem_cons.1 h).elim .inl ih
    · split at h
      · exact (List.mem_cons.1 h).elim .inr ih
      · exact ih h

theorem of_mem_reference {issue : Issue} {position : Nat} {body : Text}
    (h : issue ∈ reference position body) :
    (∀ raw, issue ≠ .emptyOperand raw) ∧ ∀ low high, issue ≠ .reversedRange low high := by
  unfold reference at h
  dsimp only at h
  split at h
  · rw [List.mem_singleton.1 h]
    exact ⟨fun _ => Issue.noConfusion, fun _ _ => Issue.noConfusion⟩
  · split at h
    · rw [List.mem_singleton.1 h]
      exact ⟨fun _ => Issue.noConfusion, fun _ _ => Issue.noConfusion⟩
    · rcases of_mem_clauses h with rfl | rfl <;>
        exact ⟨fun _ => Issue.noConfusion, fun _ _ => Issue.noConfusion⟩

end Issue

/-! ## Reports -/

section

variable {t : Text} (hbalance : Issue.balance 0 [] t = [])

include hbalance

theorem mem_issues_iff {issue : Issue}
    (hissue : (∃ raw, issue = .emptyOperand raw) ∨ ∃ low high, issue = .reversedRange low high) :
    issue ∈ issues t ↔ ∃ body, HasPiece (.braced body) t ∧ issue ∈ Issue.expression body := by
  rw [issues, hbalance, List.nil_append]
  refine Issue.mem_regions_iff (fun position body hmem => ?_) (Issue.balanced_of_balance hbalance) 0
  obtain ⟨hempty, hreversed⟩ := Issue.of_mem_reference hmem
  rcases hissue with ⟨raw, heq⟩ | ⟨low, high, heq⟩
  · exact hempty raw heq
  · exact hreversed low high heq

theorem emptyOperand_mem_issues_iff {body : Text} :
    .emptyOperand body ∈ issues t ↔
      HasPiece (.braced body) t ∧
        (Issue.hasEmptyOperand '&' body ∨ Issue.hasEmptyOperand '|' body) := by
  rw [mem_issues_iff hbalance (.inl ⟨body, rfl⟩)]
  simp only [Issue.mem_expression_emptyOperand]
  constructor
  · rintro ⟨_, hpiece, rfl, hempty⟩
    exact ⟨hpiece, hempty⟩
  · rintro ⟨hpiece, hempty⟩
    exact ⟨body, hpiece, rfl, hempty⟩

theorem reversedRange_mem_issues_iff {low high : UInt64} :
    .reversedRange low high ∈ issues t ↔
      ∃ body, HasPiece (.braced body) t ∧
        numberRange? (Text.trim body) = some (low, high) ∧ high < low := by
  rw [mem_issues_iff hbalance (.inr ⟨low, high, rfl⟩)]
  simp only [Issue.mem_expression_reversedRange]

/-- What reading mends between two braces is reported, and a range is not only where an operand
beside it is. What it mends in a part of an expression or in parentheses goes unseen. -/
theorem repairs_reported (hwhole : Whole t) (depth : Nat) :
    (∀ reading ∈ templateReadings depth t, reading.isWhole →
      (dropsOperand reading.text → .emptyOperand reading.text ∈ issues t) ∧
      ∀ low high, writtenRange? reading.text = some (low, high) → high < low →
        dropsOperand reading.text ∨ .reversedRange low high ∈ issues t) ∧
    (readTemplate depth t).ranges =
      (templateReadings depth t).filterMap (fun reading => orderedRange? reading.text) ∧
    (∀ body, .emptyOperand body ∈ issues t ↔
      HasPiece (.braced body) t ∧
        (Issue.hasEmptyOperand '&' body ∨ Issue.hasEmptyOperand '|' body)) ∧
    ∀ low high, .reversedRange low high ∈ issues t ↔
      ∃ body, HasPiece (.braced body) t ∧
        numberRange? (Text.trim body) = some (low, high) ∧ high < low := by
  refine ⟨fun reading hreading hmark => ?_, (ranges_read depth).2 t,
    fun body => emptyOperand_mem_issues_iff hbalance,
    fun low high => reversedRange_mem_issues_iff hbalance⟩
  have hpiece := (hasPiece_of_readings depth).2 t (Issue.balanced_of_balance hbalance) hwhole reading
    hreading hmark
  refine ⟨fun hdrops => ?_, fun low high hrange hless => ?_⟩
  · exact (emptyOperand_mem_issues_iff hbalance).2
      ⟨hpiece, Issue.hasEmptyOperand_of_dropsOperand hdrops⟩
  · cases hdrops : dropsOperand reading.text with
    | true => exact .inl rfl
    | false =>
      exact .inr ((reversedRange_mem_issues_iff hbalance).2
        ⟨reading.text, hpiece, Issue.numberRange?_trim_of_written hdrops hrange, hless⟩)

end

theorem repairs_reported_ranges :
    Issue.balance 0 [] "\x7b5-2\x7d\x7ba||b\x7d".toList = [] ∧ Whole "\x7b5-2\x7d\x7ba||b\x7d".toList ∧
      .reversedRange 5 2 ∈ issues "\x7b5-2\x7d\x7ba||b\x7d".toList ∧
      .emptyOperand "a||b".toList ∈ issues "\x7b5-2\x7d\x7ba||b\x7d".toList := by
  have hbalance : Issue.balance 0 [] "\x7b5-2\x7d\x7ba||b\x7d".toList = [] := by decide
  have hsplit : Piece.split "\x7b5-2\x7d\x7ba||b\x7d".toList =
      [.braced "5-2".toList, .braced "a||b".toList] := by
    with_unfolding_all rfl
  have hbody (body : Text) (hmem : .braced body ∈ Piece.split "\x7b5-2\x7d\x7ba||b\x7d".toList) :
      body = "5-2".toList ∨ body = "a||b".toList := by
    rw [hsplit] at hmem
    simpa using hmem
  have hwhole : Whole "\x7b5-2\x7d\x7ba||b\x7d".toList := by
    refine ⟨fun body hmem => ?_, fun body hmem => Whole.of_not_mem ?_⟩
    · rcases hbody body hmem with rfl | rfl <;> decide +kernel
    · rcases hbody body hmem with rfl | rfl <;> decide
  have hreadings : ⟨"5-2".toList, true⟩ ∈ templateReadings 2 "\x7b5-2\x7d\x7ba||b\x7d".toList ∧
      ⟨"a||b".toList, true⟩ ∈ templateReadings 2 "\x7b5-2\x7d\x7ba||b\x7d".toList := by
    decide +kernel
  obtain ⟨hreported, -⟩ := repairs_reported hbalance hwhole 2
  refine ⟨hbalance, hwhole, ?_, (hreported _ hreadings.2 rfl).1 (by decide)⟩
  rcases (hreported _ hreadings.1 rfl).2 5 2 (by decide) (by decide) with hdrops | hissue
  · exact absurd hdrops (by decide)
  · exact hissue

/-- A range in parentheses is put in order and an operand between two operators is left out, and
neither is reported. -/
theorem repairs_unreported :
    (parse "\x7b(3-1)\x7d".toList).ranges = [(1, 3)] ∧ issues "\x7b(3-1)\x7d".toList = [] ∧
      ⟨"a|".toList, false⟩ ∈ templateReadings nestingLimit "\x7ba|&b\x7d".toList ∧
      dropsOperand "a|".toList ∧ issues "\x7ba|&b\x7d".toList = [] := by
  decide +kernel

end RandomTables
