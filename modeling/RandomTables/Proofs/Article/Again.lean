import RandomTables.Proofs.Article.Runs

/-! # Articles resolved again

Resolution goes once through a text and does not read again what it puts together. A run that vanishes
between `{a` and `}` leaves a placeholder behind, and nothing else does.
-/

namespace RandomTables.Article

open Text

/-- A placeholder is torn apart by a run inside it. -/
def IsTorn (t : Text) : Prop := ∃ run, IsRun run ∧ '{' :: 'a' :: (run ++ ['}']) <:+: t

/-- The text goes on with the end of a placeholder, as it is or behind a run. -/
def Closes (t : Text) : Prop := ['}'] <+: t ∨ ∃ run, IsRun run ∧ run ++ ['}'] <+: t

/-! ## Ends of placeholders -/

theorem IsRun.exists_eq_cons {run : Text} (h : IsRun run) : ∃ rest, run = '{' :: rest := by
  obtain ⟨rest, rfl⟩ := h.placeholder_prefix
  exact ⟨_, rfl⟩

theorem closes_cons_iff {c : Char} {t : Text} (hstart : ¬ placeholder <+: c :: t) :
    Closes (c :: t) ↔ c = '}' := by
  constructor
  · rintro (hend | ⟨run, hrun, hprefix⟩)
    · exact (List.cons_prefix_cons.1 hend).1.symm
    · have hrest := (List.prefix_append run ['}']).trans hprefix
      exact absurd (hrun.placeholder_prefix.trans hrest) hstart
  · rintro rfl
    exact .inl (List.prefix_append ['}'] t)

theorem closes_run_iff {blank t : Text} (hblank : ∀ c ∈ blank, isBlank c)
    (hsolid : ∀ c ∈ t.head?, ¬ isBlank c) : Closes (placeholder ++ (blank ++ t)) ↔ Closes t := by
  constructor
  · rintro (hend | ⟨run, hrun, more, heq⟩)
    · exact absurd (List.cons_prefix_cons.1 hend).1 (by decide)
    · obtain ⟨s, rfl⟩ := hrun.placeholder_prefix
      obtain ⟨blank', rest, rfl, hblank', hrest⟩ := hrun.behind
      simp only [List.append_assoc] at heq
      have hsolid' : ∀ c ∈ (rest ++ (['}'] ++ more)).head?, ¬ isBlank c := by
        obtain rfl | hrest := hrest
        · rintro c ⟨⟩
          decide
        · exact solid_of_placeholder_prefix (hrest.placeholder_prefix.trans (List.prefix_append _ _))
      obtain ⟨-, rfl⟩ :=
        append_inj_of_blank hblank' hblank hsolid' hsolid (List.append_cancel_left heq)
      obtain rfl | hrest := hrest
      · exact .inl (List.prefix_append _ _)
      · refine .inr ⟨rest, hrest, ?_⟩
        rw [← List.append_assoc]
        exact List.prefix_append _ _
  · rintro (⟨more, rfl⟩ | ⟨run, hrun, more, rfl⟩)
    · refine .inr ⟨placeholder ++ blank, .last hblank, more, ?_⟩
      simp only [List.append_assoc]
    · refine .inr ⟨placeholder ++ (blank ++ run), .cons hblank hrun, more, ?_⟩
      simp only [List.append_assoc]

/-! ## Where an article is put -/

theorem before_cases (t : Text) :
    (∃ c s, t = c :: s ∧ isAlphanumeric c ∧
      (before t = "an ".toList ∨ before t = "a ".toList)) ∨
    ¬ t.head?.any isAlphanumeric ∧ before t = [] := by
  cases t with
  | nil => exact .inr ⟨Bool.false_ne_true, rfl⟩
  | cons c s =>
    by_cases hword : isAlphanumeric c
    · refine .inl ⟨c, s, rfl, hword, ?_⟩
      simp only [before, if_pos hword]
      split
      · exact .inl rfl
      · exact .inr rfl
    · exact .inr ⟨hword, if_neg hword⟩

theorem opening_not_mem_before (t : Text) : '{' ∉ before t := by
  obtain ⟨-, -, -, -, harticle | harticle⟩ | ⟨-, harticle⟩ := before_cases t <;>
    rw [harticle] <;> decide

theorem not_closes_of_word {c : Char} (hword : isAlphanumeric c) (t : Text) : ¬ Closes (c :: t) := by
  have hopening : ¬ isAlphanumeric '{' := by decide
  have hclosing : ¬ isAlphanumeric '}' := by decide
  have hstart : ¬ placeholder <+: c :: t := by
    intro hprefix
    rw [← (List.cons_prefix_cons.1 hprefix).1] at hword
    exact hopening hword
  rw [closes_cons_iff hstart]
  rintro rfl
  exact hclosing hword

/-! ## How a resolved text begins -/

theorem closing_prefix_resolve_iff (t : Text) : ['}'] <+: resolve t ↔ Closes t := by
  induction t using resolve.induct with
  | case1 =>
    rw [resolve_nil]
    constructor
    · exact .inl
    · rintro (hend | ⟨run, -, hprefix⟩)
      · exact hend
      · have hne : run ++ ['}'] ≠ [] := List.append_ne_nil_of_right_ne_nil run (List.cons_ne_nil _ _)
        exact absurd (List.prefix_nil.1 hprefix) hne
  | case2 c t rest hstart ih =>
    obtain ⟨blank, hrest, hblank, hsolid⟩ := trimStart_spec rest
    rw [resolve_of_start hstart, dropStart?_eq hstart]
    generalize trimStart rest = behind at *
    subst hrest
    rw [closes_run_iff hblank hsolid]
    obtain ⟨d, s, rfl, hword, harticle⟩ | ⟨-, harticle⟩ := before_cases behind
    · refine iff_of_false (fun hprefix => ?_) (not_closes_of_word hword s)
      obtain harticle | harticle := harticle <;> rw [harticle] at hprefix <;>
        exact absurd (List.cons_prefix_cons.1 hprefix).1 (by decide)
    · rw [harticle, List.nil_append, ih]
  | case3 c t hstart ih =>
    rw [resolve_cons hstart, closes_cons_iff fun hprefix => (placeholder_prefix_iff _).1 hprefix hstart,
      List.cons_prefix_cons]
    exact ⟨fun h => h.1.symm, fun h => ⟨h.symm, List.nil_prefix⟩⟩

theorem inner_prefix_resolve_iff (t : Text) :
    ['a', '}'] <+: resolve t ↔ ∃ s, t = 'a' :: s ∧ Closes s := by
  induction t using resolve.induct with
  | case1 =>
    rw [resolve_nil]
    refine iff_of_false (by decide) ?_
    rintro ⟨s, ⟨⟩, -⟩
  | case2 c t rest hstart ih =>
    have hno : ¬ ∃ s, placeholder ++ rest = 'a' :: s ∧ Closes s := by
      rintro ⟨s, heq, -⟩
      exact absurd (List.cons.inj heq).1 (by decide)
    rw [resolve_of_start hstart, dropStart?_eq hstart]
    generalize trimStart rest = behind at *
    refine iff_of_false (fun hprefix => ?_) hno
    obtain ⟨-, -, -, -, harticle⟩ | ⟨hword, harticle⟩ := before_cases behind
    · obtain harticle | harticle := harticle <;> rw [harticle] at hprefix <;>
        exact absurd (List.cons_prefix_cons.1 (List.cons_prefix_cons.1 hprefix).2).1 (by decide)
    · rw [harticle, List.nil_append, ih] at hprefix
      obtain ⟨s, rfl, -⟩ := hprefix
      have hletter : isAlphanumeric 'a' := by decide
      exact hword hletter
  | case3 c t hstart ih =>
    rw [resolve_cons hstart, List.cons_prefix_cons, closing_prefix_resolve_iff]
    constructor
    · rintro ⟨rfl, hcloses⟩
      exact ⟨t, rfl, hcloses⟩
    · rintro ⟨s, heq, hcloses⟩
      obtain ⟨rfl, rfl⟩ := List.cons.inj heq
      exact ⟨rfl, hcloses⟩

/-! ## What is left -/

theorem infix_append_iff_of_not_mem {c : Char} {part s : Text} (hs : c ∉ s) (t : Text) :
    c :: part <:+: s ++ t ↔ c :: part <:+: t := by
  induction s with
  | nil => rw [List.nil_append]
  | cons d s ih =>
    obtain ⟨hne, hs⟩ := List.ne_and_not_mem_of_not_mem_cons hs
    rw [List.cons_append, List.infix_cons_iff, ih hs]
    refine or_iff_right fun hprefix => ?_
    exact hne (List.cons_prefix_cons.1 hprefix).1

theorem isTorn_run_iff {blank : Text} (hblank : ∀ c ∈ blank, isBlank c) (t : Text) :
    IsTorn (placeholder ++ (blank ++ t)) ↔ IsTorn t := by
  have hopening : '{' ∉ 'a' :: '}' :: blank := by
    simp only [List.mem_cons, not_or]
    exact ⟨by decide, by decide, fun hmem => absurd (hblank _ hmem) (by decide)⟩
  have htorn (run : Text) (hrun : IsRun run) :
      '{' :: 'a' :: (run ++ ['}']) <:+: placeholder ++ (blank ++ t) ↔
        '{' :: 'a' :: (run ++ ['}']) <:+: t := by
    obtain ⟨rest, rfl⟩ := hrun.exists_eq_cons
    rw [show placeholder ++ (blank ++ t) = '{' :: ('a' :: '}' :: blank ++ t) from rfl,
      List.infix_cons_iff, infix_append_iff_of_not_mem hopening]
    refine or_iff_right fun hprefix => ?_
    obtain ⟨-, hinner⟩ := List.cons_prefix_cons.1 hprefix
    obtain ⟨-, hlast⟩ := List.cons_prefix_cons.1 hinner
    exact absurd (List.cons_prefix_cons.1 hlast).1 (by decide)
  constructor
  · rintro ⟨run, hrun, hinfix⟩
    exact ⟨run, hrun, (htorn run hrun).1 hinfix⟩
  · rintro ⟨run, hrun, hinfix⟩
    exact ⟨run, hrun, (htorn run hrun).2 hinfix⟩

theorem isTorn_cons_iff {c : Char} {t : Text} (hstart : ¬ placeholder <+: c :: t) :
    IsTorn (c :: t) ↔ (c = '{' ∧ ∃ s, t = 'a' :: s ∧ Closes s) ∨ IsTorn t := by
  constructor
  · rintro ⟨run, hrun, hinfix⟩
    obtain hhead | hlater := List.infix_cons_iff.1 hinfix
    · obtain ⟨rfl, more, rfl⟩ := List.cons_prefix_cons.1 hhead
      exact .inl ⟨rfl, _, rfl, .inr ⟨run, hrun, List.prefix_append _ _⟩⟩
    · exact .inr ⟨run, hrun, hlater⟩
  · rintro (⟨rfl, s, rfl, ⟨more, rfl⟩ | ⟨run, hrun, hprefix⟩⟩ | ⟨run, hrun, hinfix⟩)
    · exact absurd (List.prefix_append placeholder more) hstart
    · refine ⟨run, hrun, List.IsPrefix.isInfix ?_⟩
      exact List.cons_prefix_cons.2 ⟨rfl, List.cons_prefix_cons.2 ⟨rfl, hprefix⟩⟩
    · exact ⟨run, hrun, hinfix.trans (List.suffix_cons c t).isInfix⟩

theorem placeholder_infix_resolve_iff (t : Text) : placeholder <:+: resolve t ↔ IsTorn t := by
  induction t using resolve.induct with
  | case1 =>
    rw [resolve_nil]
    refine iff_of_false (by decide) ?_
    rintro ⟨run, -, hinfix⟩
    exact absurd (List.infix_nil.1 hinfix) (List.cons_ne_nil _ _)
  | case2 c t rest hstart ih =>
    obtain ⟨blank, hrest, hblank, -⟩ := trimStart_spec rest
    rw [resolve_of_start hstart, dropStart?_eq hstart]
    generalize trimStart rest = behind at *
    subst hrest
    rw [isTorn_run_iff hblank, placeholder, infix_append_iff_of_not_mem (opening_not_mem_before _)]
    exact ih
  | case3 c t hstart ih =>
    have hprefix : ¬ placeholder <+: c :: t := fun h => (placeholder_prefix_iff _).1 h hstart
    rw [resolve_cons hstart, isTorn_cons_iff hprefix, List.infix_cons_iff, ih, placeholder,
      List.cons_prefix_cons, inner_prefix_resolve_iff]
    exact or_congr_left (and_congr_left fun _ => eq_comm)

/-- A placeholder is left, and a second resolution changes the text, exactly if a run tears a
placeholder apart. -/
theorem resolve_again (t : Text) :
    (occurs placeholder (resolve t) ↔ IsTorn t) ∧ (resolve (resolve t) = resolve t ↔ ¬ IsTorn t) := by
  have hleft : occurs placeholder (resolve t) ↔ IsTorn t := by
    rw [occurs_iff, placeholder_infix_resolve_iff]
  exact ⟨hleft, by rw [resolve_eq_self_iff, hleft]⟩

/-- The halves around a run without a word behind it come together. -/
theorem resolve_leaves_placeholder :
    occurs placeholder (resolve "\x7ba\x7ba\x7d\x7d".toList) ∧
      resolve (resolve "\x7ba\x7ba\x7d\x7d".toList) ≠ resolve "\x7ba\x7ba\x7d\x7d".toList := by
  decide +kernel

end RandomTables.Article
