import RandomTables.Proofs.Text.Case

/-! # Texts in lower case

A second lower case changes nothing, and it makes no difference in which case the ASCII letters were. A
capital is taken back by the lower case if its letter is.
-/

namespace RandomTables.Text

/-! ## ASCII letters -/

theorem toLower_eq_self {c : Char} (h : ¬ ('A'.toNat ≤ c.toNat ∧ c.toNat ≤ 'Z'.toNat)) :
    c.toLower = c := by
  unfold Char.toLower
  rw [dif_neg]
  rintro ⟨hge, hle⟩
  exact h ⟨UInt32.le_iff_toNat_le.1 hge, UInt32.le_iff_toNat_le.1 hle⟩

/-- What relates each code point to itself, and each ASCII letter to its capital, relates the lower case
of any code point to it. -/
theorem toLower_cases {p : Char → Char → Prop} (hself : ∀ c, p c c)
    (hletter : ∀ place : Fin 26,
      p (Char.ofNat ('A'.toNat + place)).toLower (Char.ofNat ('A'.toNat + place))) (c : Char) :
    p c.toLower c := by
  by_cases hc : 'A'.toNat ≤ c.toNat ∧ c.toNat ≤ 'Z'.toNat
  · have hspan : 'Z'.toNat = 'A'.toNat + 25 := rfl
    have hplace : 'A'.toNat + (c.toNat - 'A'.toNat) = c.toNat := by omega
    have hp := hletter ⟨c.toNat - 'A'.toNat, by omega⟩
    dsimp only at hp
    rwa [hplace, Char.ofNat_toNat] at hp
  · rw [toLower_eq_self hc]
    exact hself c

theorem lowerChar_toLower (c : Char) : lowerChar c.toLower = lowerChar c :=
  toLower_cases (p := fun d c => lowerChar d = lowerChar c) (fun _ => rfl) (by decide) c

theorem inRuns_ignorableRuns_of_letter {c : Char}
    (h : 'A'.toNat ≤ c.toNat ∧ c.toNat ≤ 'Z'.toNat ∨ 'a'.toNat ≤ c.toNat ∧ c.toNat ≤ 'z'.toNat) :
    inRuns Case.ignorableRuns c = false := by
  have hapart : Case.ignorableRuns.all fun run =>
      Nat.blt run.2 'A'.toNat ||
        Nat.blt 'Z'.toNat run.1 && (Nat.blt run.2 'a'.toNat || Nat.blt 'z'.toNat run.1) := by
    decide +kernel
  have horder : 'A'.toNat ≤ 'Z'.toNat ∧ 'Z'.toNat < 'a'.toNat := by decide
  refine List.any_eq_false.2 fun run hmem => ?_
  have hrun := List.all_eq_true.1 hapart run hmem
  simp only [Bool.or_eq_true, Bool.and_eq_true, Nat.blt_eq] at hrun
  simp only [Bool.and_eq_true, decide_eq_true_eq]
  omega

theorem inRuns_ignorableRuns_toLower (c : Char) :
    inRuns Case.ignorableRuns c.toLower = inRuns Case.ignorableRuns c := by
  refine toLower_cases (p := fun d c => inRuns Case.ignorableRuns d = inRuns Case.ignorableRuns c)
    (fun _ => rfl) (fun place => ?_) c
  have hplaces : (Char.ofNat ('A'.toNat + place)).toNat = 'A'.toNat + place ∧
      (Char.ofNat ('A'.toNat + place)).toLower.toNat = 'a'.toNat + place := by
    decide +revert
  have hends : 'Z'.toNat = 'A'.toNat + 25 ∧ 'z'.toNat = 'a'.toNat + 25 := by decide
  rw [inRuns_ignorableRuns_of_letter (.inr (by omega)),
    inRuns_ignorableRuns_of_letter (.inl (by omega))]

theorem meetsCased_map_toLower (t : Text) : meetsCased (t.map Char.toLower) = meetsCased t := by
  have hcased (c : Char) : inRuns Case.casedRuns c.toLower = inRuns Case.casedRuns c :=
    toLower_cases (p := fun d c => inRuns Case.casedRuns d = inRuns Case.casedRuns c) (fun _ => rfl)
      (by decide) c
  induction t with
  | nil => rfl
  | cons c t ih =>
    unfold meetsCased at ih ⊢
    rw [List.map_cons, List.dropWhile_cons, List.dropWhile_cons,
      inRuns_ignorableRuns_toLower]
    by_cases hc : inRuns Case.ignorableRuns c
    · rw [if_pos hc, if_pos hc]
      exact ih
    · rw [if_neg hc, if_neg hc]
      exact hcased c

theorem lowerAfter_map_toLower (before t : Text) :
    lowerAfter (before.map Char.toLower) (t.map Char.toLower) = lowerAfter before t := by
  have hsigma (c : Char) : c.toLower = '\u03a3' ↔ c = '\u03a3' :=
    toLower_cases (p := fun d c => d = '\u03a3' ↔ c = '\u03a3') (fun _ => Iff.rfl)
      (by decide) c
  induction t generalizing before with
  | nil => rfl
  | cons c t ih =>
    have hrest := ih (c :: before)
    rw [List.map_cons] at hrest
    rw [List.map_cons, lowerAfter, lowerAfter, hrest, meetsCased_map_toLower, meetsCased_map_toLower,
      lowerChar_toLower]
    simp only [hsigma]

theorem lower_eq_of_eqIgnoringAsciiCase {s t : Text} (h : eqIgnoringAsciiCase s t) :
    lower s = lower t := by
  have hsame : s.map Char.toLower = t.map Char.toLower := beq_iff_eq.1 h
  have hlower (t : Text) : lower (t.map Char.toLower) = lower t := lowerAfter_map_toLower [] t
  rw [← hlower s, hsame, hlower t]

/-! ## A second lower case -/

namespace Case

/-- None of the code points from the first to the last one, by these steps, is in one of the runs, which
are in ascending order. -/
def missesRuns (first last step : Nat) : List (Nat × Nat × Nat × Int) → Bool
  | [] => true
  | run :: runs =>
    bif Nat.blt run.2.1 first then missesRuns first last step runs
    else bif Nat.blt last run.1 then true
    else ((step % run.2.2.1 == 0 || first == last) && (first - run.1) % run.2.2.1 != 0) &&
      missesRuns first last step runs

theorem mod_ne_zero_of_steps {first last step n place width : Nat}
    (hsteps : step % width = 0 ∨ first = last) (hapart : (first - place) % width ≠ 0)
    (hfirst : first ≤ n) (hlast : n ≤ last) (hstep : (n - first) % step = 0) :
    (n - place) % width ≠ 0 := by
  intro hplace
  have hinside : place ≤ first := by
    by_contra hlate
    exact hapart (by rw [Nat.sub_eq_zero_of_le (by omega), Nat.zero_mod])
  have hmultiple : (n - first) % width = 0 := by
    rcases hsteps with hsteps | rfl
    · exact Nat.mod_eq_zero_of_dvd
        (Nat.dvd_trans (Nat.dvd_of_mod_eq_zero hsteps) (Nat.dvd_of_mod_eq_zero hstep))
    · rw [Nat.le_antisymm hlast hfirst, Nat.sub_self, Nat.zero_mod]
  apply hapart
  have hsplit : n - place = (first - place) + (n - first) := by omega
  rw [hsplit, Nat.add_mod, hmultiple, Nat.add_zero, Nat.mod_mod] at hplace
  exact hplace

theorem not_mem_of_missesRuns {first last step n : Nat} {runs : List (Nat × Nat × Nat × Int)}
    (hascending : runs.Pairwise fun run later => run.1 < later.1)
    (h : missesRuns first last step runs) (hfirst : first ≤ n) (hlast : n ≤ last)
    (hstep : (n - first) % step = 0) :
    ∀ run ∈ runs, ¬ (run.1 ≤ n ∧ n ≤ run.2.1 ∧ (n - run.1) % run.2.2.1 = 0) := by
  induction runs with
  | nil => exact List.forall_mem_nil _
  | cons run runs ih =>
    obtain ⟨hlater, hrest⟩ := List.pairwise_cons.1 hascending
    rw [missesRuns] at h
    cases hend : Nat.blt run.2.1 first with
    | true =>
      rw [hend, cond_true] at h
      rw [Nat.blt_eq] at hend
      exact List.forall_mem_cons.2 ⟨fun hmem => by omega, ih hrest h⟩
    | false =>
      rw [hend, cond_false] at h
      cases hstart : Nat.blt last run.1 with
      | true =>
        -- All later runs start behind this one.
        rw [Nat.blt_eq] at hstart
        refine List.forall_mem_cons.2 ⟨fun hmem => by omega, fun later hmem => ?_⟩
        have := hlater later hmem
        omega
      | false =>
        rw [hstart, cond_false, Bool.and_eq_true, Bool.and_eq_true, Bool.or_eq_true, beq_iff_eq,
          beq_iff_eq, bne_iff_ne] at h
        obtain ⟨⟨hsteps, hapart⟩, hmisses⟩ := h
        exact List.forall_mem_cons.2
          ⟨fun hmem => mod_ne_zero_of_steps hsteps hapart hfirst hlast hstep hmem.2.2,
            ih hrest hmisses⟩

theorem lowerRuns_ascending : lowerRuns.Pairwise fun run later => run.1 < later.1 := by
  have hchain : (lowerRuns.map fun run => run.1).IsChain (· < ·) := by decide +kernel
  exact List.pairwise_map.1 (List.isChain_iff_pairwise.1 hchain)

theorem lowerRuns_apart : (lowerRuns.all fun (first, last, step, shift) =>
    Nat.blt 'Z'.toNat (Int.toNat (first + shift)) &&
      missesRuns (Int.toNat (first + shift)) (Int.toNat (last + shift)) step lowerRuns) := by
  decide +kernel

end Case

theorem lowerChar_eq_self {c : Char} (hlater : 'Z'.toNat < c.toNat) (hplain : c ≠ dottedI)
    (hruns : ∀ run ∈ Case.lowerRuns,
      ¬ (run.1 ≤ c.toNat ∧ c.toNat ≤ run.2.1 ∧ (c.toNat - run.1) % run.2.2.1 = 0)) :
    lowerChar c = [c] := by
  unfold lowerChar
  split
  · rw [toLower_eq_self fun h => Nat.not_le.2 hlater h.2]
  · obtain ⟨codes, hmem, -⟩ | ⟨-, heq⟩ := Case.mapped_eq Case.lowerSpecial Case.lowerRuns c
    · exact absurd (Char.toNat_inj.1 (Prod.mk.inj (List.mem_singleton.1 hmem)).1) hplain
    · obtain ⟨first, last, step, shift, hrun, hplace⟩ | hself := Case.shifted_eq Case.lowerRuns c
      · exact absurd ⟨hplace.1, hplace.2.1, hplace.2.2.1⟩ (hruns _ hrun)
      · rw [heq, hself]

theorem lowerChar_of_mem_lowerChar {c d : Char} (h : d ∈ lowerChar c) : lowerChar d = [d] := by
  have hplain : d ≠ dottedI := fun hd => dottedI_not_mem_lowerChar c (hd ▸ h)
  unfold lowerChar at h
  split at h
  · next hascii =>
    rw [List.mem_singleton.1 h]
    exact forall_ascii (p := fun c => lowerChar c.toLower = [c.toLower]) (by decide) hascii
  · next hlater =>
    obtain ⟨codes, hcodes, heq⟩ | ⟨hnone, heq⟩ := Case.mapped_eq Case.lowerSpecial Case.lowerRuns c
    · have hspecial : ∀ entry ∈ Case.lowerSpecial, ∀ code ∈ entry.2,
          lowerChar (Char.ofNat code) = [Char.ofNat code] := by
        decide
      rw [heq] at h
      obtain ⟨code, hcode, rfl⟩ := List.mem_map.1 h
      exact hspecial _ hcodes code hcode
    · rw [heq, List.mem_singleton] at h
      obtain ⟨first, last, step, shift, hrun, hfirst, hlast, hstep, hshift⟩ | hself :=
        Case.shifted_eq Case.lowerRuns c
      · have hapart := List.all_eq_true.1 Case.lowerRuns_apart _ hrun
        rw [Bool.and_eq_true, Nat.blt_eq] at hapart
        by_cases hvalid : (Int.toNat (c.toNat + shift)).isValidChar
        · have hcode : d.toNat = Int.toNat (c.toNat + shift) := by
            rw [h, hshift]
            exact toNat_ofNat hvalid
          -- A code point keeps its place when its run is shifted.
          have hplace : d.toNat - Int.toNat (first + shift) = c.toNat - first := by omega
          exact lowerChar_eq_self (by omega) hplain
            (Case.not_mem_of_missesRuns Case.lowerRuns_ascending hapart.2 (by omega) (by omega)
              (hplace ▸ hstep))
        · have hzero : d = '\u0000' := (h.trans hshift).trans (dif_neg hvalid)
          rw [hzero]
          decide
      · rw [h, hself]
        unfold lowerChar
        rw [if_neg hlater, heq, hself]

/-! ## Capitals -/

/-- Each code point is its own lower case. -/
def IsLowered (t : Text) : Prop := ∀ c ∈ t, lowerChar c = [c]

theorem lowerAfter_eq_self {t : Text} (h : IsLowered t) (before : Text) : lowerAfter before t = t := by
  induction t generalizing before with
  | nil => rfl
  | cons c t ih =>
    obtain ⟨hc, ht⟩ := List.forall_mem_cons.1 h
    have hsigma : c ≠ '\u03a3' := by
      rintro rfl
      rw [lowerChar_sigma] at hc
      cases hc
    rw [lowerAfter, if_neg hsigma, hc, ih ht]
    rfl

theorem isLowered_lower (t : Text) : IsLowered (lower t) := by
  have hafter (before : Text) : IsLowered (lowerAfter before t) := by
    induction t generalizing before with
    | nil => exact List.forall_mem_nil _
    | cons c t ih =>
      rw [lowerAfter]
      refine List.forall_mem_append.2 ⟨?_, ih (c :: before)⟩
      split
      · rw [List.forall_mem_singleton]
        split <;> decide +kernel
      · exact fun d hd => lowerChar_of_mem_lowerChar hd
  exact hafter []

/-- The lower case takes back the capital of this letter. -/
def Returns (c : Char) : Prop := lowerEach (upperChar c) = [c]

instance (c : Char) : Decidable (Returns c) := inferInstanceAs (Decidable (_ = _))

theorem lowerBetween_of_returns {c : Char} (h : Returns c) (after : Text) :
    lowerBetween [] (upperChar c) after = [c] := by
  have hforms := lowerBetween_forms [] (upperChar c) after
  rw [h] at hforms
  obtain ⟨d, rest, hform, hrest, heq⟩ := List.forall₂_cons_right_iff.1 hforms
  obtain rfl := List.forall₂_nil_right_iff.1 hrest
  obtain rfl | ⟨rfl, rfl⟩ := hform
  · exact heq
  · -- Nothing stands before this sigma, so it cannot be in the form at the end of a word.
    have hupper : upperChar '\u03c3' = ['\u03a3'] := by decide +kernel
    rw [hupper]
    rfl

theorem lower_capitalize {c : Char} {t : Text} (hc : Returns c) (ht : IsLowered t) :
    lower (capitalize (c :: t)) = c :: t := by
  have hrest : lower t = t := lowerAfter_eq_self ht []
  rw [capitalize, hrest, lower, lowerAfter_append, lowerBetween_of_returns hc, lowerAfter_eq_self ht]
  rfl

/-! ## ASCII texts -/

def IsAscii (t : Text) : Prop := ∀ c ∈ t, c.toNat < 0x80

theorem lower_of_isAscii {t : Text} (h : IsAscii t) : lower t = t.map Char.toLower := by
  have hafter (before : Text) : lowerAfter before t = t.map Char.toLower := by
    induction t generalizing before with
    | nil => rfl
    | cons c t ih =>
      obtain ⟨hc, ht⟩ := List.forall_mem_cons.1 h
      have hsigma : c ≠ '\u03a3' := by
        rintro rfl
        exact absurd hc (by decide)
      rw [lowerAfter, if_neg hsigma, lowerChar, if_pos hc, ih ht]
      rfl
  exact hafter []

theorem returns_toLower {c : Char} (h : c.toNat < 0x80) : Returns c.toLower :=
  forall_ascii (p := fun c => Returns c.toLower) (by decide) h

theorem eqIgnoringAsciiCase_capitalize {t : Text} (h : IsAscii t) :
    eqIgnoringAsciiCase t (capitalize (lower t)) := by
  rw [lower_of_isAscii h]
  cases t with
  | nil => rfl
  | cons c t =>
    obtain ⟨hc, ht⟩ := List.forall_mem_cons.1 h
    have hrest : lower (t.map Char.toLower) = t.map Char.toLower :=
      (lowerAfter_map_toLower [] t).trans (lower_of_isAscii ht)
    have hfirst : (upperChar c.toLower).map Char.toLower = [c.toLower] :=
      forall_ascii (p := fun c => (upperChar c.toLower).map Char.toLower = [c.toLower])
        (by decide) hc
    have hmap : (t.map Char.toLower).map Char.toLower = t.map Char.toLower := by
      rw [List.map_map, List.map_inj_left]
      exact fun d hd => forall_ascii (p := fun d => d.toLower.toLower = d.toLower)
        (by decide) (ht d hd)
    rw [eqIgnoringAsciiCase, beq_iff_eq, List.map_cons, capitalize, hrest, List.map_append, hfirst, hmap]
    rfl

end RandomTables.Text
