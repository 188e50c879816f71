import Mathlib.Data.List.Forall2
import RandomTables.Proofs.Text
import RandomTables.Text.Case

/-! # Lower case

The lower case of a text is that of its code points, one after another, but for the capital sigma,
whose lower case has two forms.
-/

namespace RandomTables.Text

/-! ## In its place and by itself -/

/-- The lower case of a text between two others, the one before it given from its end. -/
def lowerBetween (before : Text) : (part after : Text) → Text
  | [], _ => []
  | c :: part, after =>
    (if c = '\u03a3' then
        [if meetsCased before && !meetsCased (part ++ after) then '\u03c2' else '\u03c3']
      else lowerChar c) ++ lowerBetween (c :: before) part after

theorem lowerAfter_append (before part after : Text) :
    lowerAfter before (part ++ after) =
      lowerBetween before part after ++ lowerAfter (part.reverse ++ before) after := by
  induction part generalizing before with
  | nil => rfl
  | cons c part ih => simp [lowerAfter, lowerBetween, ih]

theorem lower_eq (t : Text) : lower t = lowerBetween [] t [] := by
  have h := lowerAfter_append [] t []
  rw [List.append_nil, lowerAfter, List.append_nil] at h
  exact h

theorem lowerBetween_infix (before part after : Text) :
    lowerBetween before.reverse part after <:+: lower (before ++ part ++ after) := by
  rw [lower, List.append_assoc, lowerAfter_append, lowerAfter_append, List.append_nil]
  exact ⟨_, _, List.append_assoc _ _ _⟩

/-- The lower case of each code point by itself. -/
def lowerEach (t : Text) : Text := t.flatMap lowerChar

theorem lowerChar_sigma : lowerChar '\u03a3' = ['\u03c3'] := by decide

theorem lowerBetween_of_not_mem {part : Text} (h : '\u03a3' ∉ part) (before after : Text) :
    lowerBetween before part after = lowerEach part := by
  induction part generalizing before with
  | nil => rfl
  | cons c part ih =>
    have hc : c ≠ '\u03a3' := fun hc => h (hc ▸ List.mem_cons_self)
    rw [lowerBetween, if_neg hc, ih fun hmem => h (List.mem_cons_of_mem c hmem)]
    rfl

/-! ## The two forms of sigma -/

/-- The same code point, or the sigma at the end of a word in place of the other one. -/
def IsForm (formed plain : Char) : Prop := formed = plain ∨ formed = '\u03c2' ∧ plain = '\u03c3'

theorem lowerBetween_forms (before part after : Text) :
    List.Forall₂ IsForm (lowerBetween before part after) (lowerEach part) := by
  induction part generalizing before with
  | nil => exact .nil
  | cons c part ih =>
    have hsame (t : Text) : List.Forall₂ IsForm t t := by
      rw [List.forall₂_same]
      exact fun c _ => .inl rfl
    rw [lowerBetween, lowerEach, List.flatMap_cons]
    refine List.rel_append ?_ (ih _)
    split
    · next hc =>
      rw [hc, lowerChar_sigma, List.forall₂_cons]
      refine ⟨?_, .nil⟩
      split
      · exact .inr ⟨rfl, rfl⟩
      · exact .inl rfl
    · exact hsame _

/-- At some place one text has the sigma at the end of a word, and the other text the other one. -/
def SigmasDiffer (s t : Text) : Prop :=
  ∃ k : Nat, s[k]? = some '\u03c2' ∧ t[k]? = some '\u03c3' ∨
    s[k]? = some '\u03c3' ∧ t[k]? = some '\u03c2'

theorem eq_or_sigmasDiffer {s t plain : Text} (hs : List.Forall₂ IsForm s plain)
    (ht : List.Forall₂ IsForm t plain) : s = t ∨ SigmasDiffer s t := by
  induction hs generalizing t with
  | nil =>
    cases ht
    exact .inl rfl
  | @cons c p s plain hc _ ih =>
    cases ht with
    | @cons d _ t _ hd hrest =>
      rcases ih hrest with rfl | ⟨k, hk⟩
      · rcases hc with rfl | ⟨rfl, rfl⟩ <;> rcases hd with rfl | ⟨rfl, hp⟩
        · exact .inl rfl
        · exact .inr ⟨0, .inr ⟨by simp [hp], rfl⟩⟩
        · exact .inr ⟨0, .inl ⟨rfl, rfl⟩⟩
        · exact .inl rfl
      · exact .inr ⟨k + 1, hk⟩

theorem not_sigmasDiffer_self (t : Text) : ¬ SigmasDiffer t t := by
  rintro ⟨k, ⟨h, h'⟩ | ⟨h, h'⟩⟩ <;> simp [h] at h'

/-- Equal but for case, a part of a text and a text by itself have the same lower case, unless it
has a capital sigma in different forms. -/
theorem lowerBetween_eq_or {part word : Text} (h : lowerEach part = lowerEach word)
    (before after : Text) :
    lowerBetween before part after = lower word ∨
      ('\u03a3' ∈ part ∨ '\u03a3' ∈ word) ∧
        SigmasDiffer (lowerBetween before part after) (lower word) := by
  have hpart := lowerBetween_forms before part after
  have hword := lowerBetween_forms [] word []
  rw [h] at hpart
  rw [lower_eq]
  rcases eq_or_sigmasDiffer hpart hword with heq | hdiffer
  · exact .inl heq
  · refine .inr ⟨?_, hdiffer⟩
    by_contra hnone
    rw [not_or] at hnone
    rw [lowerBetween_of_not_mem hnone.1, lowerBetween_of_not_mem hnone.2, h] at hdiffer
    exact not_sigmasDiffer_self _ hdiffer

/-! ## Lengths -/

namespace Case

theorem mapped_eq (special : List (Nat × List Nat)) (runs : List (Nat × Nat × Nat × Int)) (c : Char) :
    (∃ codes, (c.toNat, codes) ∈ special ∧ mapped special runs c = codes.map Char.ofNat) ∨
      (∀ codes, (c.toNat, codes) ∉ special) ∧ mapped special runs c = [shifted runs c] := by
  cases hfind : special.find? (·.1 == c.toNat) with
  | some entry =>
    obtain ⟨code, codes⟩ := entry
    have hcode := List.find?_some hfind
    obtain rfl : code = c.toNat := beq_iff_eq.1 hcode
    refine .inl ⟨codes, List.mem_of_find?_eq_some hfind, ?_⟩
    rw [mapped, hfind]
  | none =>
    refine .inr ⟨fun codes hmem => ?_, ?_⟩
    · exact absurd (beq_self_eq_true c.toNat) (List.find?_eq_none.1 hfind _ hmem)
    · rw [mapped, hfind]

theorem shifted_eq (runs : List (Nat × Nat × Nat × Int)) (c : Char) :
    (∃ first last step shift, (first, last, step, shift) ∈ runs ∧ first ≤ c.toNat ∧
        c.toNat ≤ last ∧ (c.toNat - first) % step = 0 ∧
        shifted runs c = Char.ofNat (Int.toNat (c.toNat + shift))) ∨
      shifted runs c = c := by
  unfold shifted
  split
  · next first last step shift hfind =>
    have hrun := List.find?_some hfind
    simp only [Bool.and_eq_true, decide_eq_true_eq, beq_iff_eq] at hrun
    exact .inl ⟨first, last, step, shift, List.mem_of_find?_eq_some hfind, hrun.1.1, hrun.1.2,
      hrun.2, rfl⟩
  · exact .inr rfl

end Case

/-- The one code point whose lower case has two. -/
def dottedI : Char := '\u0130'

theorem length_lowerChar {c : Char} (hc : c ≠ dottedI) : (lowerChar c).length = 1 := by
  unfold lowerChar
  split
  · rfl
  · obtain ⟨codes, hmem, -⟩ | ⟨-, heq⟩ := Case.mapped_eq Case.lowerSpecial Case.lowerRuns c
    · refine absurd (Char.toNat_inj.1 ?_) hc
      exact (Prod.mk.inj (List.mem_singleton.1 hmem)).1
    · rw [heq]
      rfl

theorem length_lowerAfter {t : Text} (h : dottedI ∉ t) (before : Text) :
    (lowerAfter before t).length = t.length := by
  induction t generalizing before with
  | nil => rfl
  | cons c t ih =>
    have hc : c ≠ dottedI := fun hc => h (hc ▸ List.mem_cons_self)
    rw [lowerAfter, List.length_append, ih fun hmem => h (List.mem_cons_of_mem c hmem),
      List.length_cons, Nat.add_comm]
    split
    · rfl
    · rw [length_lowerChar hc]

theorem lowerRuns_dottedI : ∀ run ∈ Case.lowerRuns,
    ¬ (run.1 ≤ (0x130 - run.2.2.2).toNat ∧ (0x130 - run.2.2.2).toNat ≤ run.2.1 ∧
      ((0x130 - run.2.2.2).toNat - run.1) % run.2.2.1 = 0) := by
  decide +kernel

theorem toNat_ofNat {n : Nat} (h : n.isValidChar) : (Char.ofNat n).toNat = n := by
  have hcode : Char.ofNat n = Char.ofNatAux n h := dif_pos h
  rw [hcode]
  rfl

theorem ofNat_eq_dottedI {n : Nat} (h : Char.ofNat n = dottedI) : n = 0x130 := by
  by_cases hvalid : n.isValidChar
  · rw [← toNat_ofNat hvalid, h]
    rfl
  · have hzero : Char.ofNat n = '\u0000' := dif_neg hvalid
    exact absurd (hzero.symm.trans h) (by decide)

theorem dottedI_not_mem_lowerChar (c : Char) : dottedI ∉ lowerChar c := by
  intro hmem
  unfold lowerChar at hmem
  split at hmem
  · next hascii =>
    have hlower := forall_ascii (p := fun c => dottedI ∉ [c.toLower]) (by decide) hascii
    exact hlower hmem
  · obtain ⟨codes, hcodes, heq⟩ | ⟨hplain, heq⟩ := Case.mapped_eq Case.lowerSpecial Case.lowerRuns c
    · have hlower : ∀ entry ∈ Case.lowerSpecial, dottedI ∉ entry.2.map Char.ofNat := by
        decide
      rw [heq] at hmem
      exact hlower _ hcodes hmem
    · rw [heq, List.mem_singleton] at hmem
      obtain ⟨first, last, step, shift, hrun, hfirst, hlast, hstep, hshift⟩ | hself :=
        Case.shifted_eq Case.lowerRuns c
      · rw [hshift] at hmem
        have hcode := ofNat_eq_dottedI hmem.symm
        have hplace : c.toNat = (0x130 - shift).toNat := by omega
        rw [hplace] at hfirst hlast hstep
        exact lowerRuns_dottedI _ hrun ⟨hfirst, hlast, hstep⟩
      · rw [hself] at hmem
        subst hmem
        exact hplain _ List.mem_cons_self

theorem dottedI_not_mem_lowerAfter (before t : Text) : dottedI ∉ lowerAfter before t := by
  induction t generalizing before with
  | nil => exact List.not_mem_nil
  | cons c t ih =>
    rw [lowerAfter, List.mem_append, not_or]
    refine ⟨?_, ih _⟩
    split
    · rw [List.mem_singleton]
      split <;> decide
    · exact dottedI_not_mem_lowerChar c

theorem dottedI_not_mem_lower (t : Text) : dottedI ∉ lower t := dottedI_not_mem_lowerAfter [] t

theorem length_upperChar (c : Char) : 1 ≤ (upperChar c).length ∧ (upperChar c).length ≤ 3 := by
  have hspecial : ∀ entry ∈ Case.upperSpecial, 1 ≤ entry.2.length ∧ entry.2.length ≤ 3 := by decide
  unfold upperChar
  split
  · exact ⟨Nat.le_refl 1, Nat.le_add_left 1 2⟩
  · obtain ⟨codes, hcodes, heq⟩ | ⟨-, heq⟩ := Case.mapped_eq Case.upperSpecial Case.upperRuns c
    · rw [heq, List.length_map]
      exact hspecial _ hcodes
    · rw [heq]
      exact ⟨Nat.le_refl 1, Nat.le_add_left 1 2⟩

/-- How many code points a text in lower case gains with a capital. -/
def growth : Text → Nat
  | [] => 0
  | c :: _ => (upperChar c).length - 1

theorem growth_le (t : Text) : growth t ≤ 2 := by
  cases t with
  | nil => exact Nat.zero_le 2
  | cons c t => exact Nat.sub_le_of_le_add (length_upperChar c).2

theorem length_capitalize {t : Text} (h : dottedI ∉ t) :
    (capitalize t).length = t.length + growth t := by
  cases t with
  | nil => rfl
  | cons c t =>
    have hlower : (lower t).length = t.length :=
      length_lowerAfter (fun hmem => h (List.mem_cons_of_mem c hmem)) []
    have hupper := (length_upperChar c).1
    rw [capitalize, List.length_append, hlower, growth, List.length_cons]
    omega

end RandomTables.Text
