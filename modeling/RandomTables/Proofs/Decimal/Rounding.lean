import RandomTables.Proofs.Decimal.Nearest

/-! # Rounding to the nearest float

A mantissa is kept with what is known of the fraction behind it, which is enough to round it to the
nearest whole number. On the grid of the last kept bit that gives the nearest float.
-/

namespace RandomTables.Decimal

open Float Float.Model Float.Model.UnpackedFloat

/-! ## Binary logarithms -/

theorem two_pow_le_div {m k : Nat} (hm : 0 < m) (hk : k ≤ m.log2) :
    2 ^ (m.log2 - k) ≤ m / 2 ^ k := by
  rw [Nat.le_div_iff_mul_le (Nat.two_pow_pos k), ← Nat.pow_add, Nat.sub_add_cancel hk]
  exact Nat.log2_self_le hm.ne'

theorem div_two_pow_lt {m k : Nat} (hm : 0 < m) {n : Nat} (hn : m.log2 < n + k) :
    m / 2 ^ k < 2 ^ n := by
  rw [Nat.div_lt_iff_lt_mul (Nat.two_pow_pos k), ← Nat.pow_add]
  exact (Nat.log2_lt hm.ne').1 hn

theorem shiftLeft_pos {m : Nat} (hm : 0 < m) (n : Nat) : 0 < m <<< n := by
  rw [Nat.shiftLeft_eq]
  exact Nat.mul_pos hm (Nat.two_pow_pos n)

theorem log2_shiftLeft {m : Nat} (hm : 0 < m) (n : Nat) : (m <<< n).log2 = m.log2 + n := by
  have hlow := Nat.mul_le_mul_right (2 ^ n) (Nat.log2_self_le hm.ne')
  have hhigh := Nat.mul_lt_mul_of_pos_right (Nat.lt_log2_self (n := m)) (Nat.two_pow_pos n)
  rw [← Nat.pow_add, ← Nat.shiftLeft_eq] at hlow hhigh
  rw [Nat.log2_eq_iff (shiftLeft_pos hm n).ne', Nat.add_right_comm]
  exact ⟨hlow, hhigh⟩

theorem log2_add_log2_le {m n : Nat} (hm : 0 < m) (hn : 0 < n) :
    m.log2 + n.log2 ≤ (m * n).log2 := by
  rw [Nat.le_log2 (Nat.mul_pos hm hn).ne', Nat.pow_add]
  exact Nat.mul_le_mul (Nat.log2_self_le hm.ne') (Nat.log2_self_le hn.ne')

/-! ## Shifting mantissas -/

theorem mantissa_shiftRight (em : ExtendedMantissa) (n : Nat) :
    (em >>> n).mantissa = em.mantissa / 2 ^ n := by
  induction n with
  | zero => exact (Nat.div_one _).symm
  | succ n ih =>
    show (em >>> n).mantissa / 2 = _
    rw [ih, Nat.div_div_eq_div_mul, Nat.pow_succ]

theorem roundedMantissa_mem (em : ExtendedMantissa) :
    em.roundedMantissa = em.mantissa ∨ em.roundedMantissa = em.mantissa + 1 := by
  obtain ⟨m, half, sticky⟩ := em
  cases half <;> cases sticky
  · exact .inl rfl
  · exact .inl rfl
  · show m + m % 2 = m ∨ m + m % 2 = m + 1
    omega
  · exact .inr rfl

theorem targetExponent_eq (total : Int) :
    Format.binary64.targetExponent total = max (total - 53) (-1074) := by
  have hbits : (Format.binary64.mantissaBits : Int) = 53 := rfl
  have hleast : Format.binary64.minExponent = -1074 := rfl
  rw [Format.targetExponent, hbits, hleast]

/-- By how many bits a mantissa is shifted before it is rounded. -/
def excess (m : Nat) (e : Int) : Nat := (max ((m.log2 : Int) + e - 52) (-1074) - e).toNat

theorem shiftToTargetExponent_eq (m : Nat) (e : Int) (accuracy : Accuracy) :
    shiftToTargetExponent .binary64 m e accuracy =
      (ExtendedMantissa.ofMantissaAndAccuracy m accuracy >>> excess m e, e + excess m e) := by
  have htotal : totalExponent m e - 53 = m.log2 + e - 52 := by
    unfold totalExponent
    omega
  rw [shiftToTargetExponent, targetExponent_eq, htotal]
  rfl

theorem mantissa_ofMantissaAndAccuracy (m : Nat) (accuracy : Accuracy) :
    (ExtendedMantissa.ofMantissaAndAccuracy m accuracy).mantissa = m := by
  rcases accuracy with _ | order
  · rfl
  · cases order <;> rfl

theorem excess_eq_zero {r : ℕ} {e : ℤ} (hr : r < 2 ^ 53) (he : -1074 ≤ e) : excess r e = 0 := by
  have hlog : r.log2 < 53 := by
    obtain rfl | hne := eq_or_ne r 0
    · decide
    · exact (Nat.log2_lt hne).2 hr
  unfold excess
  omega

theorem excess_eq_one {e : ℤ} (he : -1074 ≤ e) : excess (2 ^ 53) e = 1 := by
  rw [excess, Nat.log2_two_pow]
  omega

/-! ## The nearest whole number -/

/-- The whole number nearest to `q`, of two the even one. -/
def IsRounded (q : ℚ) (n : ℕ) : Prop := |n - q| < 1 / 2 ∨ |n - q| = 1 / 2 ∧ Even n

section

variable {q : ℚ} {n : ℕ}

theorem IsRounded.le_half (h : IsRounded q n) : |n - q| ≤ 1 / 2 := h.elim le_of_lt fun h => h.1.le

theorem IsRounded.half_le (h : IsRounded q n) {k : ℤ} (hne : k ≠ n) : 1 / 2 ≤ |k - q| := by
  have hapart : (1 : ℚ) ≤ |(k : ℚ) - n| := by exact_mod_cast Int.one_le_abs (sub_ne_zero.2 hne)
  have hbetween := abs_sub_le (k : ℚ) q n
  rw [abs_sub_comm q] at hbetween
  linarith [h.le_half]

theorem IsRounded.least (h : IsRounded q n) (k : ℤ) : |n - q| ≤ |k - q| := by
  by_cases hne : k = n
  · rw [hne, Int.cast_natCast]
  · exact h.le_half.trans (h.half_le hne)

theorem IsRounded.even (h : IsRounded q n) {k : ℤ} (hne : k ≠ n) (hsame : |k - q| = |n - q|) :
    Even n := by
  have hhalf := h.half_le hne
  obtain hnear | ⟨-, heven⟩ := h
  · exact absurd hnear (not_lt.2 (hsame ▸ hhalf))
  · exact heven

end

/-! ## What is known behind a mantissa -/

/-- The mantissa with the bit behind it. -/
def doubled (em : ExtendedMantissa) : ℕ := 2 * em.mantissa + em.roundBit.toNat

/-- The mantissa and the bit behind it are those of this number, and the last bit tells whether
there is more. -/
def Keeps (em : ExtendedMantissa) (q : ℚ) : Prop :=
  if em.stickyBit then doubled em < 2 * q ∧ 2 * q < doubled em + 1 else 2 * q = doubled em

variable {q : ℚ} {em : ExtendedMantissa}

theorem doubled_shiftRightOne (em : ExtendedMantissa) :
    doubled em.shiftRightOne = em.mantissa := by
  show 2 * (em.mantissa / 2) + (em.mantissa % 2 != 0).toNat = em.mantissa
  obtain h | h := em.mantissa.mod_two_eq_zero_or_one <;> rw [h]
  · exact Nat.mul_div_cancel' (Nat.dvd_of_mod_eq_zero h)
  · show 2 * (em.mantissa / 2) + 1 = em.mantissa
    omega

theorem keeps_sticky {m : ℕ} {half : Bool} :
    Keeps ⟨m, half, true⟩ q ↔ 2 * m + half.toNat < 2 * q ∧ 2 * q < 2 * m + half.toNat + 1 := by
  simp [Keeps, doubled]

theorem keeps_clean {m : ℕ} {half : Bool} :
    Keeps ⟨m, half, false⟩ q ↔ 2 * q = 2 * m + half.toNat := by
  simp [Keeps, doubled]

theorem Keeps.shiftRightOne (h : Keeps em q) : Keeps em.shiftRightOne (q / 2) := by
  unfold Keeps
  rw [doubled_shiftRightOne, mul_div_cancel₀ q two_ne_zero]
  obtain ⟨m, half, sticky⟩ := em
  show if half || sticky then (m : ℚ) < q ∧ q < m + 1 else q = m
  cases sticky with
  | true =>
    have hhalf : (half.toNat : ℚ) ≤ 1 := by exact_mod_cast half.toNat_le
    obtain ⟨hlow, hhigh⟩ := keeps_sticky.1 h
    rw [Bool.or_true, if_pos rfl]
    constructor <;> linarith [half.toNat.cast_nonneg (α := ℚ)]
  | false =>
    rw [keeps_clean] at h
    cases half with
    | true =>
      rw [Bool.toNat_true, Nat.cast_one] at h
      rw [Bool.or_false, if_pos rfl]
      constructor <;> linarith
    | false =>
      rw [Bool.toNat_false, Nat.cast_zero] at h
      rw [Bool.or_false, if_neg Bool.false_ne_true]
      linarith

theorem Keeps.shiftRight (h : Keeps em q) (n : ℕ) : Keeps (em >>> n) (q / 2 ^ n) := by
  induction n with
  | zero =>
    rw [pow_zero, div_one]
    exact h
  | succ n ih =>
    rw [pow_succ, ← div_div]
    exact ih.shiftRightOne

theorem keeps_exact (m : ℕ) : Keeps (.ofMantissaAndAccuracy m .exact) m :=
  keeps_clean.2 (by simp)

theorem keeps_quotient {den : ℕ} (hden : 0 < den) (num : ℕ) :
    Keeps (.ofMantissaAndAccuracy (num / den) (accuracyOfFraction (num % den) den))
      (num / den) := by
  have hden' : (0 : ℚ) < den := by exact_mod_cast hden
  have hsplit : (num / den : ℚ) = (num / den : ℕ) + (num % den : ℕ) / den := by
    rw [← sub_eq_iff_eq_add', eq_div_iff hden'.ne', sub_mul, div_mul_cancel₀ _ hden'.ne',
      sub_eq_iff_eq_add']
    exact_mod_cast (Nat.div_add_mod' num den).symm
  have hlt : ((num % den : ℕ) : ℚ) / den < 1 :=
    (div_lt_one hden').2 (by exact_mod_cast Nat.mod_lt num hden)
  rw [hsplit, accuracyOfFraction]
  generalize num % den = rest at *
  generalize num / den = quotient
  by_cases hrest : rest = 0
  · rw [if_pos hrest, hrest, Nat.cast_zero, zero_div, add_zero]
    exact keeps_exact quotient
  · have hpos : (0 : ℚ) < rest / den :=
      div_pos (by exact_mod_cast Nat.pos_of_ne_zero hrest) hden'
    rw [if_neg hrest]
    cases hcompare : compare (2 * rest) den with
    | lt =>
      have hhalf : 2 * (rest / den : ℚ) < 1 := by
        rw [← mul_div_assoc, div_lt_one hden']
        exact_mod_cast Nat.compare_eq_lt.1 hcompare
      refine keeps_sticky.2 ?_
      rw [Bool.toNat_false, Nat.cast_zero]
      constructor <;> linarith
    | eq =>
      have hhalf : 2 * (rest / den : ℚ) = 1 := by
        rw [← mul_div_assoc, div_eq_one_iff_eq hden'.ne']
        exact_mod_cast Nat.compare_eq_eq.1 hcompare
      refine keeps_clean.2 ?_
      rw [Bool.toNat_true, Nat.cast_one]
      linarith
    | gt =>
      have hhalf : 1 < 2 * (rest / den : ℚ) := by
        rw [← mul_div_assoc, one_lt_div hden']
        exact_mod_cast Nat.compare_eq_gt.1 hcompare
      refine keeps_sticky.2 ?_
      rw [Bool.toNat_true, Nat.cast_one]
      constructor <;> linarith

theorem Keeps.isRounded (h : Keeps em q) : IsRounded q em.roundedMantissa := by
  obtain ⟨m, half, sticky⟩ := em
  cases half <;> cases sticky <;>
    simp only [keeps_clean, keeps_sticky, Bool.toNat_false, Bool.toNat_true, Nat.cast_zero,
      Nat.cast_one] at h
  · left
    show |(m : ℚ) - q| < 1 / 2
    rw [abs_lt]
    constructor <;> linarith
  · left
    show |(m : ℚ) - q| < 1 / 2
    rw [abs_lt]
    constructor <;> linarith
  · -- Half way between two whole numbers the even one is taken.
    right
    show |((m + m % 2 : ℕ) : ℚ) - q| = 1 / 2 ∧ Even (m + m % 2)
    rcases m.mod_two_eq_zero_or_one with hlast | hlast <;> rw [hlast]
    · refine ⟨?_, Nat.even_iff.2 hlast⟩
      rw [Nat.add_zero, abs_of_neg] <;> linarith
    · refine ⟨?_, Nat.even_iff.2 (by omega)⟩
      rw [Nat.cast_add_one, abs_of_pos] <;> linarith
  · left
    show |((m + 1 : ℕ) : ℚ) - q| < 1 / 2
    rw [abs_lt, Nat.cast_add_one]
    constructor <;> linarith

/-! ## Multiples of the last kept bit -/

theorem exists_multiple_or_lt {e : ℤ} (he : -1074 ≤ e) (y : Float) :
    (∃ k : ℤ, number y = k * 2 ^ e) ∨ -1074 < e ∧ number y < 2 ^ 52 * 2 ^ e := by
  obtain ⟨k, d, hk, hd, hnumber⟩ := exists_number_eq y
  rw [hnumber]
  obtain hle | hlt := le_or_gt e d
  · obtain ⟨n, hpow⟩ := exists_two_zpow_eq hle
    refine .inl ⟨k * (2 ^ n : ℕ), ?_⟩
    rw [hpow]
    push_cast
    ring
  · refine .inr ⟨by omega, ?_⟩
    have hk' : (k : ℚ) < 2 ^ 53 := by exact_mod_cast (le_abs_self k).trans_lt hk
    calc (k : ℚ) * 2 ^ d < 2 ^ 53 * 2 ^ d := mul_lt_mul_of_pos_right hk' (two_zpow_pos d)
      _ = 2 ^ 52 * (2 * 2 ^ d) := by ring
      _ ≤ 2 ^ 52 * 2 ^ e := mul_le_mul_of_nonneg_left (two_zpow_succ_le hlt) (by positivity)

/-- The number is nearest to `r` units of the last bit that floats of its size have. -/
structure RoundsTo (q : ℚ) (r : ℕ) (e : ℤ) : Prop where
  le : -1074 ≤ e
  full : 2 ^ 52 ≤ q / 2 ^ e ∨ e = -1074
  le_two_pow : r ≤ 2 ^ 53
  isRounded : IsRounded (q / 2 ^ e) r

section

variable {r : ℕ} {e : ℤ}

theorem abs_units_sub (k q : ℚ) (e : ℤ) : |k * 2 ^ e - q| = |k - q / 2 ^ e| * 2 ^ e := by
  have hunit := two_zpow_pos e
  rw [← abs_of_pos hunit, ← abs_mul, abs_of_pos hunit, sub_mul, div_mul_cancel₀ _ hunit.ne']

theorem RoundsTo.nearer_or_multiple (h : RoundsTo q r e) (y : Float) :
    |r * 2 ^ e - q| < |number y - q| ∨ ∃ k : ℤ, number y = k * 2 ^ e := by
  obtain hmultiple | ⟨he, hsmall⟩ := exists_multiple_or_lt h.le y
  · exact .inr hmultiple
  · left
    have hq : 2 ^ 52 * 2 ^ e ≤ q := (le_div_iff₀ (two_zpow_pos e)).1 (h.full.resolve_right he.ne')
    have hleast := h.isRounded.least (2 ^ 52)
    rw [Int.cast_pow, Int.cast_ofNat] at hleast
    calc |r * 2 ^ e - q| = |r - q / 2 ^ e| * 2 ^ e := abs_units_sub _ _ _
      _ ≤ |2 ^ 52 - q / 2 ^ e| * 2 ^ e := mul_le_mul_of_nonneg_right hleast (two_zpow_pos e).le
      _ = |2 ^ 52 * 2 ^ e - q| := (abs_units_sub _ _ _).symm
      _ = q - 2 ^ 52 * 2 ^ e := by rw [abs_sub_comm, abs_of_nonneg (sub_nonneg.2 hq)]
      _ < q - number y := sub_lt_sub_left hsmall q
      _ ≤ |number y - q| := by
        rw [abs_sub_comm]
        exact le_abs_self _

theorem RoundsTo.least (h : RoundsTo q r e) (y : Float) : |r * 2 ^ e - q| ≤ |number y - q| := by
  obtain hnearer | ⟨k, hk⟩ := h.nearer_or_multiple y
  · exact hnearer.le
  · rw [hk, abs_units_sub, abs_units_sub]
    exact mul_le_mul_of_nonneg_right (h.isRounded.least k) (two_zpow_pos e).le

theorem RoundsTo.even (h : RoundsTo q r e) {y : Float} (hne : number y ≠ r * 2 ^ e)
    (hsame : |number y - q| = |r * 2 ^ e - q|) : Even r := by
  obtain hnearer | ⟨k, hk⟩ := h.nearer_or_multiple y
  · exact absurd hsame hnearer.ne'
  · rw [hk] at hne hsame
    rw [abs_units_sub, abs_units_sub] at hsame
    refine h.isRounded.even (k := k) ?_ (mul_right_cancel₀ (two_zpow_pos e).ne' hsame)
    rintro rfl
    exact hne (by rw [Int.cast_natCast])

/-! ## Overflow -/

theorem RoundsTo.lt_limit_iff (h : RoundsTo q r e) (hr : r < 2 ^ 53) : q < limit ↔ e ≤ 971 := by
  have hunits : q / 2 ^ e * 2 ^ e = q := div_mul_cancel₀ _ (two_zpow_pos e).ne'
  constructor
  · intro hq
    by_contra he
    have hfull : 2 ^ 52 ≤ q / 2 ^ e := h.full.resolve_right (by omega)
    have hlarge : limit ≤ 2 * (q / 2 ^ e) * 2 ^ (e - 1) := limit_le (by linarith) (by omega)
    rw [mul_comm 2, mul_assoc, ← zpow_one_add₀ two_ne_zero, add_sub_cancel, hunits] at hlarge
    exact absurd hq hlarge.not_gt
  · intro he
    rw [← hunits]
    refine lt_limit ?_ he
    -- The greatest mantissa is odd, so the middle behind it is rounded up.
    have hr' : (r : ℚ) + 1 ≤ 2 ^ 53 := by exact_mod_cast hr
    obtain hnear | ⟨hhalf, heven⟩ := h.isRounded
    · linarith [(abs_lt.1 hnear).1]
    · have hodd : r + 2 ≤ 2 ^ 53 := by
        obtain ⟨k, rfl⟩ := heven
        omega
      have hodd' : (r : ℚ) + 2 ≤ 2 ^ 53 := by exact_mod_cast hodd
      linarith [(abs_le.1 hhalf.le).1]

theorem RoundsTo.lt_limit_iff_of_carried (h : RoundsTo q (2 ^ 53) e) :
    q < limit ↔ e + 1 ≤ 971 := by
  have hunits : q / 2 ^ e * 2 ^ e = q := div_mul_cancel₀ _ (two_zpow_pos e).ne'
  obtain ⟨hlow, hhigh⟩ := abs_le.1 h.isRounded.le_half
  rw [Nat.cast_pow, Nat.cast_ofNat] at hlow hhigh
  constructor
  · intro hq
    by_contra he
    have hlarge : limit ≤ q / 2 ^ e * 2 ^ e := limit_le (by linarith) (by omega)
    rw [hunits] at hlarge
    exact absurd hq hlarge.not_gt
  · intro he
    have hsmall : q / 2 ^ e / 2 * 2 ^ (e + 1) < limit := lt_limit (by linarith) he
    rwa [add_comm, zpow_one_add₀ two_ne_zero, ← mul_assoc, div_mul_cancel₀ _ two_ne_zero,
      hunits] at hsmall

/-! ## The rounded float -/

/-- A mantissa that rounding has carried to 54 bits is halved. -/
def carried (r : ℕ) (e : ℤ) : UnpackedFloat :=
  if r = 2 ^ 53 then made (2 ^ 52) (e + 1) else made r e

theorem RoundsTo.isNearest_made {m : ℕ} {d : ℤ} (h : RoundsTo q r e) (hcanonical : IsCanonical m d)
    (hnumber : (m * 2 ^ d : ℚ) = r * 2 ^ e) (heven : Even r → Even m)
    (hlimit : q < limit ↔ d ≤ 971) : IsNearest q (ofParts (made m d)) := by
  by_cases hle : d ≤ 971
  · have hmade := isMade_ofParts hcanonical hle
    refine .finite m d (hlimit.2 hle) hmade ?_ ?_ <;> rw [hmade.number_eq, hnumber]
    · exact fun y _ => h.least y
    · exact fun y _ hne hsame => heven (h.even hne hsame)
  · refine .infinite (not_lt.1 (mt hlimit.1 hle)) ?_
    have hpos : 0 < m := by
      have := hcanonical.full
      omega
    rw [made_of_pos hpos, parts_ofParts_finite hpos hcanonical, if_pos (not_le.1 hle)]

theorem RoundsTo.isNearest (h : RoundsTo q r e) : IsNearest q (ofParts (carried r e)) := by
  have hle := h.le
  unfold carried
  split
  · next hr =>
    subst hr
    refine h.isNearest_made ⟨by decide, by omega, .inl le_rfl⟩ ?_ (fun _ => by decide)
      h.lt_limit_iff_of_carried
    rw [add_comm e, zpow_one_add₀ two_ne_zero, ← mul_assoc]
    norm_num
  · next hr =>
    have hlt : r < 2 ^ 53 := lt_of_le_of_ne h.le_two_pow hr
    have hfull : 2 ^ 52 ≤ r ∨ e = -1074 := by
      refine h.full.imp_left fun hfull => ?_
      by_contra hsmall
      have hr' : (r : ℚ) + 1 ≤ 2 ^ 52 := by exact_mod_cast not_le.1 hsmall
      linarith [(abs_le.1 h.isRounded.le_half).1]
    exact h.isNearest_made ⟨hlt, hle, hfull⟩ rfl id (h.lt_limit_iff hlt)

end

theorem Keeps.mantissa_le (h : Keeps em q) : em.mantissa ≤ q := by
  obtain ⟨m, half, sticky⟩ := em
  have hhalf := half.toNat.cast_nonneg (α := ℚ)
  cases sticky with
  | true => linarith [(keeps_sticky.1 h).1]
  | false => linarith [keeps_clean.1 h]

theorem roundWithAccuracy_eq_carried {m : ℕ} {e : ℤ} {accuracy : Accuracy} {r : ℕ}
    (hr : (ExtendedMantissa.ofMantissaAndAccuracy m accuracy >>> excess m e).roundedMantissa = r)
    (hle : r ≤ 2 ^ 53) (he : -1074 ≤ e + excess m e) :
    roundWithAccuracy .binary64 .positive m e accuracy = carried r (e + excess m e) := by
  simp only [roundWithAccuracy, shiftToTargetExponent_eq, hr, mantissa_shiftRight,
    mantissa_ofMantissaAndAccuracy]
  obtain rfl | hlt := hle.eq_or_lt
  · simp only [excess_eq_one he]
    rfl
  · rw [carried, if_neg hlt.ne]
    simp only [excess_eq_zero hlt he, pow_zero, Nat.div_one, Nat.cast_zero, add_zero]
    cases r <;> rfl

theorem full_excess {m : ℕ} {e : ℤ} (hbits : 52 ≤ m.log2 ∨ e ≤ -1074) :
    2 ^ 52 ≤ m / 2 ^ excess m e ∨ e + excess m e = -1074 := by
  have hexcess : excess m e = (max ((m.log2 : ℤ) + e - 52) (-1074) - e).toNat := rfl
  refine or_iff_not_imp_right.2 fun hlarge => ?_
  have hpos : 0 < m := by
    have hlog : m.log2 ≠ 0 := by omega
    rw [Nat.pos_iff_ne_zero]
    rintro rfl
    exact hlog rfl
  have hfull := two_pow_le_div hpos (k := excess m e) (by omega)
  rwa [show m.log2 - excess m e = 52 by omega] at hfull

theorem div_excess_lt (m : ℕ) (e : ℤ) : m / 2 ^ excess m e < 2 ^ 53 := by
  obtain rfl | hpos := m.eq_zero_or_pos
  · rw [Nat.zero_div]
    decide
  · refine div_two_pow_lt hpos ?_
    unfold excess
    omega

/-- Rounding gives the nearest float, if the mantissa has enough bits. -/
theorem isNearest_roundWithAccuracy {m : ℕ} {e : ℤ} {accuracy : Accuracy}
    (hkeeps : Keeps (.ofMantissaAndAccuracy m accuracy) (q / 2 ^ e))
    (hbits : 52 ≤ m.log2 ∨ e ≤ -1074) :
    IsNearest q (ofParts (roundWithAccuracy .binary64 .positive m e accuracy)) := by
  have hunit : (2 : ℚ) ^ (e + excess m e) = 2 ^ e * 2 ^ excess m e := by
    rw [zpow_add₀ two_ne_zero, zpow_natCast]
  have hshifted := hkeeps.shiftRight (excess m e)
  rw [div_div, ← hunit] at hshifted
  have hmantissa :
      (ExtendedMantissa.ofMantissaAndAccuracy m accuracy >>> excess m e).mantissa =
        m / 2 ^ excess m e := by
    rw [mantissa_shiftRight, mantissa_ofMantissaAndAccuracy]
  have hfull := full_excess hbits
  have hlt := div_excess_lt m e
  rw [← hmantissa] at hfull hlt
  generalize hem : ExtendedMantissa.ofMantissaAndAccuracy m accuracy >>> excess m e = em at *
  have hrounds : RoundsTo q em.roundedMantissa (e + excess m e) := by
    refine ⟨?_, hfull.imp_left fun hfull => ?_, ?_, hshifted.isRounded⟩
    · unfold excess
      omega
    · have hfull' : (2 ^ 52 : ℚ) ≤ em.mantissa := by exact_mod_cast hfull
      exact hfull'.trans hshifted.mantissa_le
    · have := roundedMantissa_mem em
      omega
  rw [roundWithAccuracy_eq_carried (congrArg _ hem) hrounds.le_two_pow hrounds.le]
  exact hrounds.isNearest

end RandomTables.Decimal
