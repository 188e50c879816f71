import RandomTables.Proofs.Template.Clauses
import RandomTables.Proofs.Template.Region

/-! # Checked decorations

A clause may stand inside the brackets of a reference or behind them. The check reads the clauses
inside only, and in braces it reads a count as an expression.
-/

namespace RandomTables

open RandomTables.Bracket

/-! ## Complete clauses -/

/-- Every `*` has its count behind it and every `!` its word. -/
def Clause.IsComplete (t : Text) : Prop :=
  ∀ before rest, (t = before ++ '*' :: rest → (Repetition.read rest).1.isSome) ∧
    (t = before ++ '!' :: rest → Text.trim (rest.takeWhile (!isMark ·)) ≠ [])

theorem Clause.isComplete_nil : IsComplete [] := by
  intro before rest
  constructor <;> intro heq
  · exact absurd heq.symm (List.append_ne_nil_of_right_ne_nil _ (List.cons_ne_nil _ _))
  · exact absurd heq.symm (List.append_ne_nil_of_right_ne_nil _ (List.cons_ne_nil _ _))

theorem Clause.isComplete_cons (c : Char) (t : Text) :
    IsComplete (c :: t) ↔
      ((c = '*' → (Repetition.read t).1.isSome) ∧
        (c = '!' → Text.trim (t.takeWhile (!isMark ·)) ≠ [])) ∧ IsComplete t := by
  constructor
  · intro h
    refine ⟨⟨fun hc => (h [] t).1 (by rw [hc]; rfl), fun hc => (h [] t).2 (by rw [hc]; rfl)⟩, ?_⟩
    intro before rest
    exact ⟨fun heq => (h (c :: before) rest).1 (by rw [heq]; rfl),
      fun heq => (h (c :: before) rest).2 (by rw [heq]; rfl)⟩
  · rintro ⟨⟨hcount, hword⟩, hrest⟩ before rest
    cases before with
    | nil =>
      constructor <;> intro heq <;> cases heq
      · exact hcount rfl
      · exact hword rfl
    | cons d before =>
      constructor <;> intro heq <;> injection heq with _ heq
      · exact (hrest before rest).1 heq
      · exact (hrest before rest).2 heq

namespace Issue

theorem clauses_eq_nil_iff (raw t : Text) : clauses raw t = [] ↔ Clause.IsComplete t := by
  induction t with
  | nil => exact iff_of_true rfl Clause.isComplete_nil
  | cons c t ih =>
    rw [Clause.isComplete_cons, ← ih, clauses]
    split
    · next hstar => simp_all
    · split
      · next hexclude => simp_all
      · next hstar hexclude => simp_all [Option.isSome_iff_ne_none]

theorem clauses_append (raw : Text) {s : Text} (hs : ∀ c ∈ s, isPlain c) {t : Text}
    (ht : ∀ c ∈ t.head?, Clause.isMark c) :
    clauses raw (s ++ t) = clauses raw s ++ clauses raw t := by
  induction s with
  | nil => rw [clauses, List.nil_append, List.nil_append]
  | cons c s ih =>
    obtain ⟨-, hs⟩ := List.forall_mem_cons.1 hs
    have hword := (Text.takeWhile_append_of_head (p := (!Clause.isMark ·)) s (by simpa using ht)).1
    rw [List.cons_append, clauses, clauses, Repetition.read_append hs (Clause.head_of_isMark ht),
      hword, ih hs]
    split
    · rfl
    · split <;> rfl

end Issue

theorem Clause.isComplete_append {s : Text} (hs : ∀ c ∈ s, isPlain c) {t : Text}
    (ht : ∀ c ∈ t.head?, isMark c) : IsComplete (s ++ t) ↔ IsComplete s ∧ IsComplete t := by
  rw [← Issue.clauses_eq_nil_iff [], Issue.clauses_append [] hs ht, List.append_eq_nil_iff,
    Issue.clauses_eq_nil_iff, Issue.clauses_eq_nil_iff]

/-! ## Counts in braces -/

theorem balanced_of_soft {t : Text} (h : ∀ c ∈ t, ¬ isHard c) : Balanced Kind.IsHard t := by
  induction t with
  | nil => exact .nil
  | cons c t ih =>
    obtain ⟨hc, ht⟩ := List.forall_mem_cons.1 h
    exact (ih ht).soft (not_isHard_iff.1 hc)

theorem Balanced.append {s t : Text} (hs : Balanced Kind.IsHard s) (ht : Balanced Kind.IsHard t) :
    Balanced Kind.IsHard (s ++ t) := by
  induction hs with
  | nil => exact ht
  | soft hc _ ih => exact ih.soft hc
  | enclosed hkind hinner _ _ ih =>
    rw [List.append_assoc, List.cons_append]
    exact hinner.enclosed hkind ih

theorem exists_literal_of_soft {t : Text} (h : ∀ c ∈ t, ¬ isHard c) {piece : Piece}
    (hpiece : HasPiece piece t) : ∃ c, piece = .literal c := by
  induction t with
  | nil => exact absurd hpiece (not_hasPiece_nil piece)
  | cons c t ih =>
    obtain ⟨hc, ht⟩ := List.forall_mem_cons.1 h
    rcases (hasPiece_cons (Piece.split_soft hc t)).1 hpiece with (rfl | ⟨_, heq, -⟩) | hrest
    · exact ⟨c, rfl⟩
    · cases heq
    · exact ih ht hrest

theorem Balanced.count_eq {t : Text} (h : Balanced Kind.IsHard t) :
    t.count '{' = t.count '}' := by
  induction h with
  | nil => rfl
  | @soft c t hc _ ih =>
    have hcurly : c ≠ '{' ∧ c ≠ '}' := hc .curly (by decide)
    rwa [List.count_cons_of_ne hcurly.1, List.count_cons_of_ne hcurly.2]
  | @enclosed kind body rest hkind _ _ ihbody ihrest =>
    rw [List.cons_append, List.count_cons, List.count_append, List.count_cons, List.count_cons,
      List.count_append, List.count_cons, ihbody, ihrest]
    cases kind with
    | round => exact absurd rfl hkind
    | square => rfl
    | curly => rfl

/-- Braces stand around texts without a closing one. -/
inductive HasCounts : Text → Prop where
  | nil : HasCounts []
  | soft {c : Char} {t : Text} (hc : ¬ isHard c) (h : HasCounts t) : HasCounts (c :: t)
  | count {body rest : Text} (hbody : '}' ∉ body) (h : HasCounts rest) :
      HasCounts ('{' :: body ++ '}' :: rest)

theorem Clause.hasCounts_of_bracesAreCounts {t : Text} {behindStar inCount : Bool}
    (h : bracesAreCounts behindStar inCount t) :
    if inCount then ∃ body rest, t = body ++ '}' :: rest ∧ '}' ∉ body ∧ HasCounts rest
    else HasCounts t := by
  fun_induction bracesAreCounts behindStar inCount t with
  | case1 behindStar inCount =>
    simp only [Bool.not_eq_true'] at h
    rw [h]
    exact .nil
  | case2 behindStar c t ih =>
    specialize ih h
    rw [if_pos rfl]
    by_cases hc : c = '}'
    · subst hc
      exact ⟨[], t, rfl, List.not_mem_nil, ih⟩
    · rw [if_pos (by simpa using hc)] at ih
      obtain ⟨body, rest, rfl, hbody, hrest⟩ := ih
      exact ⟨c :: body, rest, rfl, by simp [hbody, Ne.symm hc], hrest⟩
  | case3 => cases h
  | case4 behindStar c t hbracket hcurly ih =>
    rw [Bool.and_eq_true] at h
    obtain ⟨body, rest, rfl, hbody, hrest⟩ := ih h.2
    rw [beq_iff_eq.1 hcurly]
    exact .count hbody hrest
  | case5 behindStar c t hbracket hcurly ih =>
    refine .soft ?_ (ih h)
    simp only [Bool.or_eq_true, not_or, Bool.not_eq_true] at hbracket hcurly
    simp [isHard, hbracket, hcurly]

namespace HasCounts

variable {t : Text}

theorem count_le (h : HasCounts t) : t.count '}' ≤ t.count '{' := by
  induction h with
  | nil => exact Nat.le_refl _
  | @soft c t hc _ ih =>
    have hcurly : c ≠ '{' ∧ c ≠ '}' := not_isHard_iff.1 hc .curly (by decide)
    rwa [List.count_cons_of_ne hcurly.1, List.count_cons_of_ne hcurly.2]
  | @count body rest hbody _ ih =>
    have hclosing := List.count_eq_zero_of_not_mem hbody
    simp [List.count_append, hclosing]
    omega

theorem pieces (h : HasCounts t) (hsquare : '[' ∉ t ∧ ']' ∉ t)
    (hcount : t.count '{' = t.count '}') :
    Balanced Kind.IsHard t ∧ ∀ piece ∈ Piece.split t,
      (∃ c, piece = .literal c) ∨ ∃ body, piece = .braced body ∧ ∀ c ∈ body, ¬ isHard c := by
  induction h with
  | nil =>
    rw [Piece.split_nil]
    exact ⟨.nil, List.forall_mem_nil _⟩
  | @soft c t hc _ ih =>
    have hcurly : c ≠ '{' ∧ c ≠ '}' := not_isHard_iff.1 hc .curly (by decide)
    rw [List.count_cons_of_ne hcurly.1, List.count_cons_of_ne hcurly.2] at hcount
    obtain ⟨hbalanced, hpieces⟩ := ih
      ⟨fun hmem => hsquare.1 (List.mem_cons_of_mem c hmem),
        fun hmem => hsquare.2 (List.mem_cons_of_mem c hmem)⟩ hcount
    rw [Piece.split_soft hc]
    exact ⟨hbalanced.soft (not_isHard_iff.1 hc), List.forall_mem_cons.2 ⟨.inl ⟨c, rfl⟩, hpieces⟩⟩
  | @count body rest hbody hrest ih =>
    -- What stands behind the count has no closing brace to spare, so no brace opens in the count.
    have hle := hrest.count_le
    have hclosing := List.count_eq_zero_of_not_mem hbody
    simp only [List.cons_append, List.mem_cons, List.mem_append, not_or] at hsquare
    simp [List.count_append, hclosing] at hcount
    obtain ⟨hbalanced, hpieces⟩ := ih ⟨hsquare.1.2.2.2, hsquare.2.2.2.2⟩ (by omega)
    have hopening : '{' ∉ body := List.count_eq_zero.1 (by omega)
    have hsoft : ∀ c ∈ body, ¬ isHard c := by
      intro c hc hhard
      simp only [isHard, Bool.or_eq_true, beq_iff_eq] at hhard
      rcases hhard with ((rfl | rfl) | rfl) | rfl
      · exact hsquare.1.2.1 hc
      · exact hsquare.2.2.1 hc
      · exact hopening hc
      · exact hbody hc
    have hinner := balanced_of_soft hsoft
    rw [Piece.split_curly hinner]
    exact ⟨hinner.enclosed (by decide : Kind.curly.IsHard) hbalanced,
      List.forall_mem_cons.2 ⟨.inr ⟨body, rfl, hsoft⟩, hpieces⟩⟩

end HasCounts

/-! ## Expressions that no operator cuts -/

theorem Bracket.uncut_plain {t : Text} (h : ∀ c ∈ t, isPlain c) {depth : Int} (hdepth : depth ≠ 0) :
    uncut depth t ∧ t.foldl step depth = depth := by
  induction t with
  | nil => exact ⟨rfl, rfl⟩
  | cons c t ih =>
    obtain ⟨hc, ht⟩ := List.forall_mem_cons.1 h
    simp [uncut, step_plain hc, ih ht, hdepth]

namespace Issue

theorem expression_of_uncut {t : Text} (h : Bracket.uncut 0 t) :
    expression t = [] ↔
      ∀ low high, numberRange? (Text.trim t) = some (low, high) → low ≤ high := by
  rw [expression, hasEmptyOperand_of_uncut (by decide) h, hasEmptyOperand_of_uncut (by decide) h]
  cases hrange : numberRange? (Text.trim t) with
  | none => simp
  | some range =>
    obtain ⟨low, high⟩ := range
    simp [← UInt64.not_lt]

theorem expression_of_mem {t : Text} (h : Bracket.uncut 0 t) (hmem : '[' ∈ t) : expression t = [] := by
  rw [expression_of_uncut h]
  intro low high hrange
  exact absurd (Text.mem_trim (by decide) hmem) (not_mem_of_numberRange? hrange)

end Issue

/-! ## Both spellings -/

theorem Reference.isSome_parse?_append {x : Text} (hx : ∀ c ∈ x, isPlain c) {mark : Char}
    (hmark : Clause.isMark mark) (t : Text) :
    (parse? (x ++ mark :: t)).isSome = (parse? x).isSome := by
  have hsolid : ¬ Text.isBlank mark := fun hblank => Clause.not_isMark_of_isBlank hblank hmark
  obtain ⟨blank, hsplit, hblank⟩ := Text.trimEnd_append_blank (mark :: t)
  have hend : Text.EndsSolid (mark :: Text.trimEnd t) := by
    apply Text.endsSolid_of_trimmed _ (List.cons_ne_nil _ _)
    rw [← Text.trimEnd_cons_solid hsolid]
    have htrim : Text.trim (mark :: t) = Text.trimEnd (mark :: t) := by
      rw [Text.trim, Text.trimStart, List.dropWhile_cons_of_neg hsolid]
    rw [← htrim, Text.trim_trim]
  rw [Text.trimEnd_cons_solid hsolid] at hsplit
  rw [hsplit, ← List.append_assoc, parse?_append_blank _ hblank, parse?_append hx hmark hend,
    Option.isSome_map]

/-- The counts in braces keep their bounds in order. -/
def CountsAscend (t : Text) : Prop :=
  ∀ body, .braced body ∈ Piece.split t →
    ∀ low high, numberRange? (Text.trim body) = some (low, high) → low ≤ high

/-- An expression of a reference and a text behind its brackets. -/
def decorated (body suffix : Text) : Text := '{' :: ('[' :: body ++ ']' :: suffix) ++ ['}']

theorem issues_decorated {body suffix : Text} (hbody : Balanced Kind.IsHard body)
    (hsuffix : Balanced Kind.IsHard suffix) (huncut : Bracket.uncut 0 ('[' :: body ++ ']' :: suffix)) :
    issues (decorated body suffix) = [] ↔
      Issue.reference 0 body = [] ∧ ∀ piece, HasPiece piece suffix → Issue.ofPiece 0 piece = [] := by
  have hinner : Balanced Kind.IsHard ('[' :: body ++ ']' :: suffix) :=
    Balanced.enclosed (by decide : Kind.square.IsHard) hbody hsuffix
  have hbalanced : Balanced Kind.IsHard (decorated body suffix) :=
    Balanced.enclosed (by decide : Kind.curly.IsHard) hinner .nil
  have hbraces := Piece.split_curly hinner []
  have hbrackets := Piece.split_square hbody suffix
  have hexpression : Issue.expression ('[' :: body ++ ']' :: suffix) = [] :=
    Issue.expression_of_mem huncut List.mem_cons_self
  rw [issues_eq_nil_iff, and_iff_right hbalanced]
  constructor
  · intro h
    have hpiece {piece : Piece} (hpiece : HasPiece piece ('[' :: body ++ ']' :: suffix)) :
        Issue.ofPiece 0 piece = [] :=
      h piece ((hasPiece_cons hbraces).2 (.inl (.inr ⟨_, rfl, hpiece⟩)))
    exact ⟨hpiece ((hasPiece_cons hbrackets).2 (.inl (.inl rfl))),
      fun piece hmem => hpiece ((hasPiece_cons hbrackets).2 (.inr hmem))⟩
  · rintro ⟨hreference, hbehind⟩ piece hpiece
    rcases (hasPiece_cons hbraces).1 hpiece with (rfl | ⟨_, heq, hpiece⟩) | hpiece
    · exact hexpression
    · cases heq
      rcases (hasPiece_cons hbrackets).1 hpiece with (rfl | ⟨_, heq, -⟩) | hpiece
      · exact hreference
      · cases heq
      · exact hbehind piece hpiece
    · exact absurd hpiece (not_hasPiece_nil piece)

theorem count_eq_of_issues {body suffix : Text} (h : issues (decorated body suffix) = []) :
    body.count '{' + suffix.count '{' = body.count '}' + suffix.count '}' := by
  have hcount := ((issues_eq_nil_iff _).1 h).1.count_eq
  simp [decorated, List.count_append] at hcount
  omega

section

variable {x S : Text} (hx : ∀ c ∈ x, isPlain c) (href : (Reference.parse? x).isSome)
  (hsuffix : Clause.isSuffix S) (hS : ∀ c ∈ ['&', '|', '[', ']'], c ∉ S)

include hS in
theorem not_isOperator_of_suffix : ∀ c ∈ S, ¬ isOperator c := by
  intro c hc hoperator
  simp only [isOperator, Bool.or_eq_true, beq_iff_eq] at hoperator
  rcases hoperator with rfl | rfl
  · exact hS '&' (by decide) hc
  · exact hS '|' (by decide) hc

include hx hS in
theorem uncut_decorated :
    Bracket.uncut 0 ('[' :: x ++ ']' :: S) ∧ Bracket.uncut 0 ('[' :: (x ++ S) ++ [']']) := by
  have hnone := Bracket.uncut_of_not_isOperator (not_isOperator_of_suffix hS)
  have hopen : step 0 '[' = 1 := rfl
  have hsquare : isOperator '[' = false ∧ isOperator ']' = false := by decide
  obtain ⟨huncut, -⟩ := Bracket.uncut_plain hx (by decide : (1 : Int) ≠ 0)
  constructor <;> simp [Bracket.uncut, Bracket.uncut_append, hopen, huncut, hnone, hsquare]

include hsuffix in
theorem Clause.exists_mark_of_isSuffix : ∃ mark t, S = mark :: t ∧ isMark mark ∧ HasCounts S := by
  cases S with
  | nil => cases hsuffix
  | cons mark t =>
    simp only [isSuffix, Bool.and_eq_true] at hsuffix
    refine ⟨mark, t, rfl, hsuffix.1, ?_⟩
    simpa using hasCounts_of_bracesAreCounts hsuffix.2

include hx in
theorem Issue.reference_eq_nil_of_plain (href : (Reference.parse? x).isSome) :
    reference 0 x = [] ↔ Clause.IsComplete x := by
  have hsquare : '[' ∉ x := fun h => absurd (hx _ h) (by decide)
  rw [reference_eq_nil, clauses_eq_nil_iff, and_iff_right hsquare, and_iff_right href]

include hx href hsuffix hS in
theorem Issue.reference_eq_nil_append :
    reference 0 (x ++ S) = [] ↔ Clause.IsComplete x ∧ Clause.IsComplete S := by
  obtain ⟨mark, t, rfl, hmark, -⟩ := Clause.exists_mark_of_isSuffix hsuffix
  have hsquare : '[' ∉ x ++ mark :: t := by
    rw [List.mem_append, not_or]
    exact ⟨fun h => absurd (hx _ h) (by decide), hS '[' (by decide)⟩
  rw [← Reference.isSome_parse?_append hx hmark t] at href
  rw [reference_eq_nil, clauses_eq_nil_iff, and_iff_right hsquare, and_iff_right href,
    Clause.isComplete_append hx fun c hc => by cases hc; exact hmark]

include hS in
theorem countsAscend_iff (hcounts : HasCounts S) (hcount : S.count '{' = S.count '}') :
    CountsAscend S ↔ ∀ piece, HasPiece piece S → Issue.ofPiece 0 piece = [] := by
  obtain ⟨-, hpieces⟩ := hcounts.pieces ⟨hS '[' (by decide), hS ']' (by decide)⟩ hcount
  have huncut {body : Text} (hbody : .braced body ∈ Piece.split S) : Bracket.uncut 0 body := by
    apply Bracket.uncut_of_not_isOperator
    intro c hc
    apply not_isOperator_of_suffix hS c (Piece.raw_subset hbody _)
    simp [Piece.raw, hc]
  constructor
  · rintro hascend piece (hmem | ⟨hbody, hinner⟩)
    · rcases hpieces piece hmem with ⟨c, rfl⟩ | ⟨body, rfl, -⟩
      · rfl
      · exact (Issue.expression_of_uncut (huncut hmem)).2 (hascend body hmem)
    · rcases hpieces _ hbody with ⟨c, heq⟩ | ⟨_, heq, hsoft⟩
      · cases heq
      · cases heq
        obtain ⟨c, rfl⟩ := exists_literal_of_soft hsoft hinner
        rfl
  · intro hnone body hbody
    exact (Issue.expression_of_uncut (huncut hbody)).1 (hnone _ (.here hbody))

include hx in
theorem count_of_plain : x.count '{' = 0 ∧ x.count '}' = 0 :=
  ⟨List.count_eq_zero.2 fun h => absurd (hx _ h) (by decide),
    List.count_eq_zero.2 fun h => absurd (hx _ h) (by decide)⟩

include hx in
theorem balanced_of_plain : Balanced Kind.IsHard x :=
  balanced_of_soft fun c hc => not_isHard_iff.2 fun kind _ =>
    ⟨ne_opening_of_plain (hx c hc) kind, ne_closing_of_plain (hx c hc) kind⟩

include hx href hsuffix hS

theorem issues_outside :
    issues (decorated x S) = [] ↔
      Clause.IsComplete x ∧ S.count '{' = S.count '}' ∧ CountsAscend S := by
  obtain ⟨mark, t, -, -, hcounts⟩ := Clause.exists_mark_of_isSuffix hsuffix
  have hplain := count_of_plain hx
  by_cases hcount : S.count '{' = S.count '}'
  · obtain ⟨hbalanced, -⟩ := hcounts.pieces ⟨hS '[' (by decide), hS ']' (by decide)⟩ hcount
    rw [issues_decorated (balanced_of_plain hx) hbalanced (uncut_decorated hx hS).1,
      Issue.reference_eq_nil_of_plain hx href, countsAscend_iff hS hcounts hcount,
      and_iff_right hcount]
  · refine iff_of_false (fun hnone => hcount ?_) fun h => hcount h.2.1
    have hbraces := count_eq_of_issues hnone
    omega

theorem issues_inside :
    issues (decorated (x ++ S) []) = [] ↔
      Clause.IsComplete x ∧ S.count '{' = S.count '}' ∧ Clause.IsComplete S := by
  obtain ⟨mark, t, -, -, hcounts⟩ := Clause.exists_mark_of_isSuffix hsuffix
  have hplain := count_of_plain hx
  by_cases hcount : S.count '{' = S.count '}'
  · obtain ⟨hbalanced, -⟩ := hcounts.pieces ⟨hS '[' (by decide), hS ']' (by decide)⟩ hcount
    rw [issues_decorated ((balanced_of_plain hx).append hbalanced) .nil (uncut_decorated hx hS).2,
      Issue.reference_eq_nil_append hx href hsuffix hS, and_iff_right hcount]
    exact and_iff_left fun piece hpiece => absurd hpiece (not_hasPiece_nil piece)
  · refine iff_of_false (fun hnone => hcount ?_) fun h => hcount h.2.1
    have hbraces := count_eq_of_issues hnone
    simp only [List.count_append, List.count_nil] at hbraces
    omega

/-- Behind the brackets the clauses are only checked for ranges that descend, and inside only for
missing counts and words. The two spellings are checked alike where these come together. -/
theorem issues_decorated_iff :
    (issues (decorated x S) = [] ↔
      Clause.IsComplete x ∧ S.count '{' = S.count '}' ∧ CountsAscend S) ∧
    (issues (decorated (x ++ S) []) = [] ↔
      Clause.IsComplete x ∧ S.count '{' = S.count '}' ∧ Clause.IsComplete S) ∧
    ((issues (decorated x S) = [] ↔ issues (decorated (x ++ S) []) = []) ↔
      (Clause.IsComplete x → S.count '{' = S.count '}' →
        (CountsAscend S ↔ Clause.IsComplete S))) := by
  have houtside := issues_outside hx href hsuffix hS
  have hinside := issues_inside hx href hsuffix hS
  refine ⟨houtside, hinside, ?_⟩
  rw [houtside, hinside, and_congr_right_iff]
  simp only [and_congr_right_iff]

end

theorem issues_decorated_owl :
    (∀ c ∈ "owl".toList, isPlain c) ∧ (Reference.parse? "owl".toList).isSome ∧
      Clause.isSuffix "!barn*\x7b1-3\x7d?".toList ∧
      (∀ c ∈ ['&', '|', '[', ']'], c ∉ "!barn*\x7b1-3\x7d?".toList) ∧
      issues "\x7b[owl]!barn*\x7b1-3\x7d?\x7d".toList = [] ∧
      issues "\x7b[owl!barn*\x7b1-3\x7d?]\x7d".toList = [] := by
  have hplain : ∀ c ∈ "owl".toList, isPlain c := Text.forall_of_all (by decide)
  have href : (Reference.parse? "owl".toList).isSome := by decide
  have hsuffix : Clause.isSuffix "!barn*\x7b1-3\x7d?".toList := by decide
  have hother : ∀ c ∈ ['&', '|', '[', ']'], c ∉ "!barn*\x7b1-3\x7d?".toList := by simp
  have hcomplete : Clause.IsComplete "!barn*\x7b1-3\x7d?".toList := by
    rw [← Issue.clauses_eq_nil_iff []]
    decide
  have hnone : issues "\x7b[owl]!barn*\x7b1-3\x7d?\x7d".toList = [] := by decide +kernel
  obtain ⟨houtside, hinside, -⟩ := issues_decorated_iff hplain href hsuffix hother
  obtain ⟨hname, hcount, -⟩ := houtside.1 hnone
  exact ⟨hplain, href, hsuffix, hother, hnone, hinside.2 ⟨hname, hcount, hcomplete⟩⟩

/-- An exclusion without a word is found inside the brackets only, and a range that descends only
behind them. -/
theorem issues_decorated_differ :
    issues "\x7b[x]!\x7d".toList = [] ∧
      issues "\x7b[x!]\x7d".toList = [.emptyExclusion "[x!]".toList] ∧
      issues "\x7b[x]*\x7b3-1\x7d\x7d".toList = [.reversedRange 3 1] ∧
      issues "\x7b[x*\x7b3-1\x7d]\x7d".toList = [] := by
  decide +kernel

end RandomTables
