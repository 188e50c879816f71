import RandomTables.Proofs.Decimal.Scientific
import RandomTables.Weight

/-! # The weight at the end of an entry

An entry carries a weight if it ends in white space, a caret and a decimal, and white space may
stand behind. There is one way to read an entry so.
-/

namespace RandomTables.Weighted

/-! ## The last caret -/

theorem cutAtLastCaret?_eq {t before number : Text}
    (h : cutAtLastCaret? t = some (before, number)) : t = before ++ '^' :: number := by
  induction t generalizing before with
  | nil => cases h
  | cons c t ih =>
    simp only [cutAtLastCaret?] at h
    split at h
    · next hcut =>
      cases h
      rw [ih hcut]
      rfl
    · split at h
      · next hcaret =>
        cases h
        rw [hcaret]
        rfl
      · cases h

theorem cutAtLastCaret?_eq_none {t : Text} (h : '^' ∉ t) : cutAtLastCaret? t = none := by
  induction t with
  | nil => rfl
  | cons c t ih =>
    rw [List.mem_cons, not_or] at h
    rw [cutAtLastCaret?, ih h.2]
    exact if_neg (Ne.symm h.1)

theorem cutAtLastCaret?_append (before : Text) {number : Text} (h : '^' ∉ number) :
    cutAtLastCaret? (before ++ '^' :: number) = some (before, number) := by
  induction before with
  | nil =>
    rw [List.nil_append, cutAtLastCaret?, cutAtLastCaret?_eq_none h]
    rfl
  | cons c before ih => rw [List.cons_append, cutAtLastCaret?, ih]

/-! ## Decimals -/

variable {number : Text} {amount : ℚ}

theorem isDecimal_iff (t : Text) : isDecimal t ↔ ∃ q, Decimal.Writes t q := by
  simp only [isDecimal, Bool.and_eq_true, List.all_eq_true, List.any_eq_true, Bool.or_eq_true,
    beq_iff_eq, decide_eq_true_eq]
  constructor
  · rintro ⟨⟨hall, c, hc, hdigit⟩, hcount⟩
    by_cases hpoint : '.' ∈ t
    · obtain ⟨whole, fraction, rfl⟩ := List.append_of_mem hpoint
      rw [List.count_append, List.count_cons_self] at hcount
      have hpoints : '.' ∉ whole ++ fraction := by
        rw [← List.count_eq_zero, List.count_append]
        omega
      have hmem {d : Char} : d ∈ whole ++ '.' :: fraction ↔ d ∈ whole ++ fraction ∨ d = '.' := by
        simp only [List.mem_append, List.mem_cons]
        tauto
      have hne : c ≠ '.' := by
        rintro rfl
        exact absurd hdigit (by decide)
      refine ⟨_, .pointed (List.ne_nil_of_mem ((hmem.1 hc).resolve_right hne)) fun d hd => ?_⟩
      refine (hall d (hmem.2 (.inl hd))).resolve_right ?_
      rintro rfl
      exact hpoints hd
    · refine ⟨_, .whole (List.ne_nil_of_mem hc) fun d hd => (hall d hd).resolve_right ?_⟩
      rintro rfl
      exact hpoint hd
  · rintro ⟨q, h⟩
    exact ⟨⟨h.digit_or_point, h.exists_digit⟩, h.count_point_le⟩

theorem isNearest_decimalValue (h : Decimal.Writes number amount) :
    Decimal.IsNearest amount (decimalValue number) := by
  have hother {digits : Text} (hdigits : ∀ c ∈ digits, c.isDigit) :
      ∀ c ∈ digits, decide (c ≠ '.') := by
    intro c hc
    rw [decide_eq_true_eq]
    rintro rfl
    exact absurd (hdigits '.' hc) (by decide)
  unfold decimalValue
  cases h with
  | whole _ hdigits =>
    have hnearest := Decimal.isNearest_ofScientific (Text.digitsValue number) true 0
    rw [if_pos rfl, pow_zero, div_one] at hnearest
    rw [List.filter_eq_self.2 (hother hdigits), List.dropWhile_eq_nil_iff.2 (hother hdigits)]
    exact hnearest
  | @pointed whole fraction _ hdigits =>
    have hnearest :=
      Decimal.isNearest_ofScientific (Text.digitsValue (whole ++ fraction)) true fraction.length
    rw [if_pos rfl] at hnearest
    obtain ⟨hwhole, -⟩ := List.forall_mem_append.1 (hother hdigits)
    have hfilter : (whole ++ '.' :: fraction).filter (· ≠ '.') = whole ++ fraction := by
      rw [List.filter_append, List.filter_cons_of_neg (by decide), ← List.filter_append,
        List.filter_eq_self.2 (hother hdigits)]
    rw [hfilter, List.dropWhile_append_of_pos hwhole, List.dropWhile_cons_of_neg (by decide)]
    exact hnearest

/-! ## Entries that carry a weight -/

/-- The entry is a text, a gap of white space, a caret, a decimal and white space. -/
structure Carries (raw text gap number behind : Text) (amount : ℚ) : Prop where
  spelled : raw = text ++ gap ++ '^' :: number ++ behind
  gap_ne_nil : gap ≠ []
  gap_blank : ∀ c ∈ gap, Text.isBlank c
  writes : Decimal.Writes number amount
  behind_blank : ∀ c ∈ behind, Text.isBlank c

variable {raw text gap behind : Text}

theorem not_isBlank_of_writes (h : Decimal.Writes number amount) :
    ∀ c ∈ number, ¬ Text.isBlank c := by
  intro c hc
  rcases h.digit_or_point c hc with hdigit | rfl
  · exact Text.not_isBlank_of_isDigit hdigit
  · decide

theorem caret_not_mem_of_writes (h : Decimal.Writes number amount) : '^' ∉ number := by
  intro hc
  rcases h.digit_or_point '^' hc with hdigit | heq
  · exact absurd hdigit (by decide)
  · exact absurd heq (by decide)

theorem Carries.trimEnd_eq (h : Carries raw text gap number behind amount) :
    Text.trimEnd raw = text ++ gap ++ '^' :: number := by
  obtain ⟨front, c, hnumber⟩ := (List.eq_nil_or_concat' number).resolve_left h.writes.ne_nil
  have hsolid := not_isBlank_of_writes h.writes c (by rw [hnumber]; simp)
  rw [h.spelled, Text.trimEnd_append_of_blank _ h.behind_blank]
  refine Text.trimEnd_eq_self ?_ hsolid
  rw [hnumber, ← List.cons_append, ← List.append_assoc, List.getLast?_concat]

theorem Carries.cut_eq (h : Carries raw text gap number behind amount) :
    cutAtLastCaret? (Text.trimEnd raw) = some (text ++ gap, number) := by
  rw [h.trimEnd_eq, cutAtLastCaret?_append _ (caret_not_mem_of_writes h.writes)]

theorem Carries.read_eq (h : Carries raw text gap number behind amount) :
    read raw = ⟨Text.trimEnd text, decimalValue number⟩ := by
  have hblank : (text ++ gap).getLast?.any Text.isBlank := by
    have hlast := List.getLast?_eq_some_getLast h.gap_ne_nil
    rw [List.getLast?_append, hlast]
    exact h.gap_blank _ (List.getLast_mem h.gap_ne_nil)
  have hdecimal : isDecimal number := (isDecimal_iff number).2 ⟨amount, h.writes⟩
  rw [read, h.cut_eq]
  dsimp only
  rw [hblank, hdecimal, Text.trimEnd_append_of_blank _ h.gap_blank]
  rfl

theorem read_of_not_carries
    (h : ¬ ∃ text gap number behind amount, Carries raw text gap number behind amount) :
    read raw = ⟨raw, 1⟩ := by
  rw [read]
  split
  · next before number hcut =>
    split
    · next hsuffix =>
      obtain ⟨hgap, hdecimal⟩ := Bool.and_eq_true_iff.1 hsuffix
      obtain ⟨c, hlast, hblank⟩ := (Option.any_eq_true _ _).1 hgap
      obtain ⟨text, rfl⟩ := List.getLast?_eq_some_iff.1 hlast
      obtain ⟨amount, hwrites⟩ := (isDecimal_iff number).1 hdecimal
      obtain ⟨behind, hraw, hbehind⟩ := Text.trimEnd_append_blank raw
      rw [cutAtLastCaret?_eq hcut] at hraw
      exact absurd ⟨text, [c], number, behind, amount,
        hraw, List.cons_ne_nil c [], by simpa using hblank, hwrites, hbehind⟩ h
    · rfl
  · rfl

theorem Carries.unique {text' gap' number' behind' : Text} {amount' : ℚ}
    (h : Carries raw text gap number behind amount)
    (h' : Carries raw text' gap' number' behind' amount') :
    text' ++ gap' = text ++ gap ∧ number' = number := by
  have hcut := h'.cut_eq
  rw [h.cut_eq, Option.some_inj, Prod.mk.injEq] at hcut
  exact ⟨hcut.1.symm, hcut.2.symm⟩

theorem Carries.nearest?_eq (h : Carries raw text gap number behind amount) :
    Decimal.nearest? number = some (decimalValue number) := by
  obtain ⟨x, hread, hnearest⟩ := Decimal.nearest?_of_writes h.writes
  rw [hread, hnearest.unique (isNearest_decimalValue h.writes)]

theorem value_prefix (raw : Text) : (read raw).value <+: raw := by
  by_cases h : ∃ text gap number behind amount, Carries raw text gap number behind amount
  · obtain ⟨text, gap, number, behind, amount, h⟩ := h
    obtain ⟨blank, htext, -⟩ := Text.trimEnd_append_blank text
    refine ⟨blank ++ gap ++ '^' :: number ++ behind, ?_⟩
    rw [h.read_eq]
    conv => rhs; rw [h.spelled, htext]
    simp only [List.append_assoc]
  · rw [read_of_not_carries h]

/-- An entry that carries a weight is taken apart at its caret: the value is the text before it
without the white space at its end, and the weight is the float nearest to the decimal. There is one
such caret and one decimal. An entry that carries none is its own value and weighs one. The value
begins the entry in both cases. -/
theorem read_takes_weight (raw : Text) :
    (∀ text gap number behind amount, Carries raw text gap number behind amount →
      (read raw).value = Text.trimEnd text ∧
      Decimal.nearest? number = some (read raw).weight ∧
      Decimal.IsNearest amount (read raw).weight ∧
      ∀ text' gap' number' behind' amount', Carries raw text' gap' number' behind' amount' →
        text' ++ gap' = text ++ gap ∧ number' = number) ∧
    ((¬ ∃ text gap number behind amount, Carries raw text gap number behind amount) →
      read raw = ⟨raw, 1⟩) ∧
    (read raw).value <+: raw := by
  refine ⟨fun text gap number behind amount h => ?_, read_of_not_carries, value_prefix raw⟩
  rw [h.read_eq]
  exact ⟨rfl, h.nearest?_eq, isNearest_decimalValue h.writes, fun _ _ _ _ _ h' => h.unique h'⟩

/-- Of the two carets the second one stands before a weight, which is one half. -/
def elf : Text := "elf ^2 ^.50 \t".toList

theorem writes_half : Decimal.Writes ".50".toList (1 / 2) := by
  have hwrites : Decimal.Writes ([] ++ '.' :: ['5', '0']) _ := .pointed (by decide) (by simp)
  have hvalue : Text.digitsValue ([] ++ ['5', '0']) = 50 := rfl
  rw [hvalue] at hwrites
  norm_num at hwrites
  exact hwrites

theorem carries_elf : Carries elf "elf ^2".toList [' '] ".50".toList [' ', '\t'] (1 / 2) :=
  ⟨rfl, List.cons_ne_nil _ _, by simp [Text.isBlank], writes_half, by simp [Text.isBlank]⟩

theorem not_carries_square :
    ¬ ∃ text gap number behind amount, Carries ['x', '^', '2'] text gap number behind amount := by
  rintro ⟨text, gap, number, behind, amount, h⟩
  have hcut : some (['x'], ['2']) = some (text ++ gap, number) := h.cut_eq
  rw [Option.some_inj, Prod.mk.injEq] at hcut
  obtain ⟨c, hc⟩ := List.exists_mem_of_ne_nil _ h.gap_ne_nil
  have hx : c ∈ ['x'] := hcut.1 ▸ List.mem_append_right text hc
  rw [List.mem_singleton] at hx
  exact absurd (h.gap_blank c hc) (hx ▸ by decide)

theorem read_takes_weight_elf :
    (Carries elf "elf ^2".toList [' '] ".50".toList [' ', '\t'] (1 / 2) ∧
      (read elf).value = "elf ^2".toList ∧ (read elf).weight = 0.5) ∧
    (¬ ∃ text gap number behind amount, Carries ['x', '^', '2'] text gap number behind amount) ∧
      read ['x', '^', '2'] = ⟨['x', '^', '2'], 1⟩ := by
  obtain ⟨hvalue, hweight, -, -⟩ := (read_takes_weight elf).1 _ _ _ _ _ carries_elf
  have hhalf : Decimal.nearest? ".50".toList = some 0.5 := by decide +kernel
  refine ⟨⟨carries_elf, hvalue, ?_⟩, not_carries_square,
    (read_takes_weight _).2.1 not_carries_square⟩
  rw [hhalf] at hweight
  exact (Option.some_inj.1 hweight).symm

end RandomTables.Weighted
