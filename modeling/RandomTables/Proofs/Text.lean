import RandomTables.Text.Basic

/-! # Trimming and searching texts -/

namespace RandomTables.Text

/-! ## Trimming -/

theorem length_trimStart_le (t : Text) : (trimStart t).length ≤ t.length :=
  (List.dropWhile_sublist _).length_le

theorem trimEnd_cons_solid {c : Char} (hsolid : ¬ isBlank c) (t : Text) :
    trimEnd (c :: t) = c :: trimEnd t := by
  rw [trimEnd]
  split
  · next hnil => rw [hnil, if_neg hsolid]
  · rfl

theorem trimEnd_cons_kept {t : Text} (hkept : trimEnd t ≠ []) (c : Char) :
    trimEnd (c :: t) = c :: trimEnd t := by
  rw [trimEnd]
  split
  · next hnil => exact absurd hnil hkept
  · rfl

theorem trimEnd_append_solid (s : Text) {c : Char} (hsolid : ¬ isBlank c) (t : Text) :
    trimEnd (s ++ c :: t) = s ++ c :: trimEnd t := by
  induction s with
  | nil => exact trimEnd_cons_solid hsolid t
  | cons d s ih =>
    have hkept : trimEnd (s ++ c :: t) ≠ [] := by
      rw [ih]
      exact List.append_ne_nil_of_right_ne_nil s (List.cons_ne_nil _ _)
    rw [List.cons_append, trimEnd_cons_kept hkept, ih, List.cons_append]

theorem trimEnd_eq_self {t : Text} {c : Char} (hlast : t.getLast? = some c)
    (hsolid : ¬ isBlank c) : trimEnd t = t := by
  obtain ⟨s, rfl⟩ := List.getLast?_eq_some_iff.1 hlast
  exact trimEnd_append_solid s hsolid []

theorem trimEnd_append_blank (t : Text) :
    ∃ blank : Text, t = trimEnd t ++ blank ∧ ∀ c ∈ blank, isBlank c := by
  induction t with
  | nil => exact ⟨[], rfl, fun _ h => by cases h⟩
  | cons c t ih =>
    obtain ⟨blank, ht, hblank⟩ := ih
    by_cases hkept : trimEnd t = []
    · rw [hkept, List.nil_append] at ht
      rw [trimEnd, hkept]
      by_cases hc : isBlank c
      · refine ⟨c :: t, (if_pos hc).symm ▸ rfl, fun d hd => ?_⟩
        rcases List.mem_cons.1 hd with rfl | hd
        · exact hc
        · exact hblank d (ht ▸ hd)
      · refine ⟨blank, ?_, hblank⟩
        dsimp only
        rw [if_neg hc, ht]
        rfl
    · refine ⟨blank, ?_, hblank⟩
      rw [trimEnd_cons_kept hkept, List.cons_append, ← ht]

theorem trim_subset (t : Text) : trim t ⊆ t := by
  obtain ⟨blank, hsplit, -⟩ := trimEnd_append_blank (trimStart t)
  have hend : trim t ⊆ trimStart t := by
    rw [trim]
    conv => rhs; rw [hsplit]
    exact List.subset_append_left _ _
  exact List.Subset.trans hend (List.dropWhile_sublist _).subset

theorem mem_dropWhile {p : Char → Bool} {c : Char} (hc : ¬ p c) (t : Text) :
    c ∈ t.dropWhile p ↔ c ∈ t := by
  induction t with
  | nil => rfl
  | cons d t ih =>
    rw [List.dropWhile_cons]
    split
    · next hd =>
      have hne : c ≠ d := by
        rintro rfl
        exact hc hd
      rw [ih, List.mem_cons, or_iff_right hne]
    · rfl

theorem mem_trim {t : Text} {c : Char} (hsolid : ¬ isBlank c) (h : c ∈ t) : c ∈ trim t := by
  have hstart : c ∈ trimStart t := (mem_dropWhile hsolid t).2 h
  obtain ⟨blank, hsplit, hblank⟩ := trimEnd_append_blank (trimStart t)
  rw [hsplit] at hstart
  rcases List.mem_append.1 hstart with hkept | hcut
  · exact hkept
  · exact absurd (hblank c hcut) hsolid

theorem trimEnd_append_of_blank (t : Text) {blank : Text} (hblank : ∀ c ∈ blank, isBlank c) :
    trimEnd (t ++ blank) = trimEnd t := by
  induction t with
  | nil =>
    induction blank with
    | nil => rfl
    | cons c blank ih =>
      have hrest := ih fun d hd => hblank d (List.mem_cons_of_mem c hd)
      simp only [List.nil_append] at hrest ⊢
      simp [trimEnd, hrest, hblank c List.mem_cons_self]
  | cons c t ih => rw [List.cons_append, trimEnd, trimEnd, ih]

theorem trim_blank_append {blank : Text} (hblank : ∀ c ∈ blank, isBlank c) (t : Text) :
    trim (blank ++ t) = trim t := by
  unfold trim trimStart
  rw [List.dropWhile_append_of_pos hblank]

theorem trim_append_blank (t : Text) {blank : Text} (hblank : ∀ c ∈ blank, isBlank c) :
    trim (t ++ blank) = trim t := by
  have hend : blank.dropWhile isBlank = [] := by
    have happend : (blank ++ []).dropWhile isBlank = [] := List.dropWhile_append_of_pos hblank
    simpa using happend
  unfold trim trimStart
  rw [List.dropWhile_append]
  split
  · next hnil => rw [hend, List.isEmpty_iff.1 hnil]
  · exact trimEnd_append_of_blank _ hblank

theorem trim_between (t : Text) : ∃ before after : Text,
    t = before ++ trim t ++ after ∧ (∀ c ∈ before, isBlank c) ∧ ∀ c ∈ after, isBlank c := by
  obtain ⟨after, hafter, hblank⟩ := trimEnd_append_blank (trimStart t)
  refine ⟨t.takeWhile isBlank, after, ?_, ?_, hblank⟩
  · rw [trim, List.append_assoc, ← hafter, trimStart, List.takeWhile_append_dropWhile]
  · intro c hc
    exact (List.all_eq_true.1 List.all_takeWhile) c hc

theorem trim_trim (t : Text) : trim (trim t) = trim t := by
  obtain ⟨before, after, ht, hbefore, hafter⟩ := trim_between t
  conv => rhs; rw [ht, trim_append_blank _ hafter, trim_blank_append hbefore]

theorem length_trim_le (t : Text) : (trim t).length ≤ t.length := by
  obtain ⟨before, after, ht, -, -⟩ := trim_between t
  have hlength := congrArg List.length ht
  simp only [List.length_append] at hlength
  omega

theorem solid_of_trim_cons {c : Char} {t : Text} (h : trim (c :: t) = c :: t) : ¬ isBlank c := by
  intro hblank
  have hdrop : trim ([c] ++ t) = trim t := trim_blank_append (by simpa using hblank) t
  have hlength := length_trim_le t
  rw [← hdrop, List.singleton_append, h, List.length_cons] at hlength
  omega

theorem solid_of_trim_concat {c : Char} {t : Text} (h : trim (t ++ [c]) = t ++ [c]) :
    ¬ isBlank c := by
  intro hblank
  have hdrop : trim (t ++ [c]) = trim t := trim_append_blank t (by simpa using hblank)
  have hlength := length_trim_le t
  rw [← hdrop, h, List.length_append, List.length_singleton] at hlength
  omega

/-- The last code point is not white space. -/
def EndsSolid (t : Text) : Prop := ∃ s c, t = s ++ [c] ∧ ¬ isBlank c

theorem EndsSolid.append {t : Text} (h : EndsSolid t) (s : Text) : EndsSolid (s ++ t) := by
  obtain ⟨s', c, rfl, hc⟩ := h
  exact ⟨s ++ s', c, by simp, hc⟩

theorem EndsSolid.of_append {s t : Text} (h : EndsSolid (s ++ t)) (hne : t ≠ []) : EndsSolid t := by
  obtain ⟨u, c, heq, hc⟩ := h
  obtain hnil | ⟨t', d, rfl⟩ := t.eq_nil_or_concat
  · exact absurd hnil hne
  · rw [List.concat_eq_append, ← List.append_assoc] at heq
    obtain ⟨-, hlast⟩ := List.append_inj' heq rfl
    exact ⟨t', d, List.concat_eq_append, by cases hlast; exact hc⟩

theorem EndsSolid.append_flatMap {α : Type} {s : Text} (hs : EndsSolid s) {items : List α}
    {f : α → Text} (h : ∀ item ∈ items, EndsSolid (f item)) : EndsSolid (s ++ items.flatMap f) := by
  induction items generalizing s with
  | nil => simpa using hs
  | cons item rest ih =>
    obtain ⟨hitem, hrest⟩ := List.forall_mem_cons.1 h
    rw [List.flatMap_cons, ← List.append_assoc]
    exact ih (hitem.append s) hrest

theorem endsSolid_of_forall {t : Text} (hne : t ≠ []) (h : ∀ c ∈ t, ¬ isBlank c) : EndsSolid t := by
  obtain hnil | ⟨s, c, rfl⟩ := t.eq_nil_or_concat
  · exact absurd hnil hne
  · exact ⟨s, c, by simp, h c (by simp)⟩

theorem endsSolid_of_trimmed {t : Text} (h : trim t = t) (hne : t ≠ []) : EndsSolid t := by
  obtain hnil | ⟨s, c, rfl⟩ := t.eq_nil_or_concat
  · exact absurd hnil hne
  · rw [List.concat_eq_append] at h ⊢
    exact ⟨s, c, rfl, solid_of_trim_concat h⟩

theorem trim_eq_self {c : Char} {t : Text} (hc : ¬ isBlank c) (h : EndsSolid (c :: t)) :
    trim (c :: t) = c :: t := by
  obtain ⟨s, d, heq, hd⟩ := h
  have hlast : (c :: t).getLast? = some d := by rw [heq]; simp
  unfold trim trimStart
  rw [List.dropWhile_cons_of_neg hc, trimEnd_eq_self hlast hd]

/-! ## The last code point that is not white space -/

theorem lastSolid_append (last : Option Char) (s t : Text) :
    lastSolid last (s ++ t) = lastSolid (lastSolid last s) t := List.foldl_append

theorem lastSolid_append_solid (last : Option Char) (t : Text) {c : Char} (hc : ¬ isBlank c) :
    lastSolid last (t ++ [c]) = some c := by
  rw [lastSolid_append]
  exact if_neg hc

theorem lastSolid_cases (t : Text) :
    (∀ last, lastSolid last t = last) ∨ ∃ c, ∀ last, lastSolid last t = some c := by
  induction t with
  | nil => exact .inl fun _ => rfl
  | cons c t ih =>
    rcases ih with hsame | ⟨d, hlast⟩
    · by_cases hc : isBlank c
      · exact .inl fun last => (hsame _).trans (if_pos hc)
      · exact .inr ⟨c, fun last => (hsame _).trans (if_neg hc)⟩
    · exact .inr ⟨d, fun last => hlast _⟩

theorem lastSolid_of_blank (last : Option Char) {t : Text} (h : ∀ c ∈ t, isBlank c) :
    lastSolid last t = last := by
  induction t generalizing last with
  | nil => rfl
  | cons c t ih =>
    obtain ⟨hc, ht⟩ := List.forall_mem_cons.1 h
    exact (ih _ ht).trans (if_pos hc)

/-! ## Checking -/

theorem forall_of_all {p : Char → Prop} [DecidablePred p] {t : Text} (h : t.all (p ·)) :
    ∀ c ∈ t, p c :=
  fun c hc => of_decide_eq_true (List.all_eq_true.1 h c hc)

theorem forall_ascii {p : Char → Prop} (h : ∀ code : Fin 0x80, p (Char.ofNat code)) {c : Char}
    (hc : c.toNat < 0x80) : p c := by
  have hcode := h ⟨c.toNat, hc⟩
  rwa [Char.ofNat_toNat] at hcode

/-! ## Searching -/

theorem mem_of_cutAt? {p : Char → Bool} {t before rest : Text}
    (h : cutAt? p t = some (before, rest)) {c : Char} (hc : c ∈ t) :
    p c ∨ c ∈ before ∨ c ∈ rest := by
  induction t generalizing before with
  | nil => cases hc
  | cons d t ih =>
    rw [cutAt?] at h
    split at h
    · next hd =>
      cases h
      rcases List.mem_cons.1 hc with rfl | hc
      · exact .inl hd
      · exact .inr (.inr hc)
    · obtain ⟨⟨before', rest'⟩, hcut, heq⟩ := Option.map_eq_some_iff.1 h
      cases heq
      rcases List.mem_cons.1 hc with rfl | hc
      · exact .inr (.inl List.mem_cons_self)
      · rcases ih hcut hc with hp | hbefore | hrest
        · exact .inl hp
        · exact .inr (.inl (List.mem_cons_of_mem d hbefore))
        · exact .inr (.inr hrest)

theorem cutAt?_append {p : Char → Bool} {before : Text} (hbefore : ∀ c ∈ before, ¬ p c) {c : Char}
    (hc : p c) (rest : Text) : cutAt? p (before ++ c :: rest) = some (before, rest) := by
  induction before with
  | nil => exact if_pos hc
  | cons d before ih =>
    rw [List.cons_append, cutAt?, if_neg (hbefore d List.mem_cons_self),
      ih fun c hmem => hbefore c (List.mem_cons_of_mem d hmem)]
    rfl

theorem cutAt?_eq {p : Char → Bool} {t before rest : Text}
    (h : cutAt? p t = some (before, rest)) : ∃ c, p c ∧ t = before ++ c :: rest := by
  induction t generalizing before with
  | nil => cases h
  | cons d t ih =>
    rw [cutAt?] at h
    split at h
    · next hd =>
      cases h
      exact ⟨d, hd, rfl⟩
    · obtain ⟨⟨before', rest'⟩, hcut, heq⟩ := Option.map_eq_some_iff.1 h
      cases heq
      obtain ⟨c, hc, rfl⟩ := ih hcut
      exact ⟨c, hc, rfl⟩

theorem takeWhile_append_of_head {p : Char → Bool} (t : Text) {rest : Text}
    (hrest : ∀ c ∈ rest.head?, ¬ p c) :
    (t ++ rest).takeWhile p = t.takeWhile p ∧ (t ++ rest).dropWhile p = t.dropWhile p ++ rest := by
  induction t with
  | nil =>
    cases rest with
    | nil => exact ⟨rfl, rfl⟩
    | cons c rest => simp [hrest c rfl]
  | cons c t ih =>
    rw [List.cons_append, List.takeWhile_cons, List.dropWhile_cons, List.takeWhile_cons,
      List.dropWhile_cons, ih.1, ih.2]
    split <;> exact ⟨rfl, rfl⟩

theorem takeWhile_append_stop {p : Char → Bool} {run rest : Text} (hrun : ∀ c ∈ run, p c)
    (hrest : ∀ c ∈ rest.head?, ¬ p c) :
    (run ++ rest).takeWhile p = run ∧ (run ++ rest).dropWhile p = rest := by
  rw [List.takeWhile_append_of_pos hrun, List.dropWhile_append_of_pos hrun]
  cases rest with
  | nil => simp
  | cons c rest => simp [hrest c rfl]

theorem isSome_dropStart? (start t : Text) :
    (dropStart? start t).isSome = start.isPrefixOf t := by
  induction start generalizing t with
  | nil => rfl
  | cons a start ih =>
    cases t with
    | nil => rfl
    | cons c t =>
      simp only [dropStart?, List.isPrefixOf]
      by_cases hac : a = c
      · rw [if_pos hac, ih, beq_iff_eq.2 hac, Bool.true_and]
      · rw [if_neg hac, beq_false_of_ne hac, Bool.false_and]
        rfl

theorem occurs_iff (part t : Text) : occurs part t ↔ part <:+: t := by
  induction t with
  | nil => simp [occurs]
  | cons c t ih => rw [occurs, Bool.or_eq_true, List.isPrefixOf_iff_prefix, ih, List.infix_cons_iff]

/-! ## Segments between dots -/

theorem not_mem_of_mem_splitOn {t segment : Text} (h : segment ∈ t.splitOn '.') :
    '.' ∉ segment := by
  induction t generalizing segment with
  | nil =>
    rw [List.splitOn_nil, List.mem_singleton] at h
    simp [h]
  | cons c t ih =>
    rw [List.splitOn_cons_eq_if_modifyHead] at h
    obtain ⟨first, more, hsplit⟩ := List.exists_cons_of_ne_nil (List.splitOn_ne_nil '.' t)
    rw [hsplit] at h ih
    split at h
    · rcases List.mem_cons.1 h with rfl | h
      · exact List.not_mem_nil
      · exact ih h
    · next hdot =>
      rw [List.modifyHead_cons] at h
      rcases List.mem_cons.1 h with rfl | h
      · intro hmem
        rcases List.mem_cons.1 hmem with rfl | hmem
        · exact hdot (beq_self_eq_true _)
        · exact ih List.mem_cons_self hmem
      · exact ih (List.mem_cons_of_mem _ h)

theorem intercalate_append {front back : List Text} (hfront : front ≠ []) (hback : back ≠ []) :
    ['.'].intercalate (front ++ back) = ['.'].intercalate front ++ '.' :: ['.'].intercalate back := by
  obtain ⟨next, more, rfl⟩ := List.exists_cons_of_ne_nil hback
  induction front with
  | nil => exact absurd rfl hfront
  | cons segment rest ih =>
    cases rest with
    | nil => simp [List.intercalate_cons_cons]
    | cons other rest =>
      have hrest := ih (List.cons_ne_nil _ _)
      simp only [List.cons_append, List.intercalate_cons_cons] at hrest ⊢
      rw [hrest]
      simp

theorem exists_of_splitOn_eq_append {t : Text} {front back : List Text}
    (h : t.splitOn '.' = front ++ back) (hfront : front ≠ []) (hback : back ≠ []) :
    ∃ before behind, t = before ++ '.' :: behind ∧ before.splitOn '.' = front := by
  have hdots : ∀ segment ∈ front, '.' ∉ segment := fun segment hsegment =>
    not_mem_of_mem_splitOn (h ▸ List.mem_append_left back hsegment)
  have hjoin : ['.'].intercalate (t.splitOn '.') = t := List.intercalate_splitOn '.'
  rw [h, intercalate_append hfront hback] at hjoin
  exact ⟨_, _, hjoin.symm, List.splitOn_intercalate '.' hdots hfront⟩

/-! ## Decimal numbers -/

theorem ofNat_ne_nil (n : Nat) : ofNat n ≠ [] := Nat.toDigits_ne_nil

theorem isDigit_of_mem_ofNat {n : Nat} {c : Char} (h : c ∈ ofNat n) : c.isDigit :=
  Nat.isDigit_of_mem_toDigits (by decide) (by decide) h

theorem not_isBlank_of_isDigit {c : Char} (h : c.isDigit) : ¬ isBlank c := by
  simp only [Char.isDigit, isBlank, Char.toNat] at h ⊢
  simp [UInt32.le_iff_toNat_le] at h ⊢
  omega

theorem digitsValue_ofNat (n : Nat) : digitsValue (ofNat n) = n := Nat.ofDigitChars_ten_toDigits

end RandomTables.Text
