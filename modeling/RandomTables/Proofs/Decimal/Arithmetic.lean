import RandomTables.Proofs.Decimal.Rounding

/-! # Products, quotients and whole numbers

The operations on floats that are not negative give the float nearest to the exact result.
-/

namespace RandomTables.Decimal

open Float Float.Model Float.Model.UnpackedFloat

variable {x y : Float} {m n : ℕ} {d e : ℤ}

/-! ## Floats that are numbers already -/

theorem IsMade.isNearest (hx : IsMade x m e) : IsNearest (number x) x := by
  refine .finite m e ?_ hx (fun y _ => ?_) fun y _ hne hsame => ?_
  · have hm : (m : ℚ) + 1 ≤ 2 ^ 53 := by exact_mod_cast hx.canonical.lt
    rw [hx.number_eq]
    exact lt_limit (by linarith) hx.le
  · rw [sub_self, abs_zero]
    exact abs_nonneg _
  · rw [sub_self, abs_zero, abs_eq_zero, sub_eq_zero] at hsame
    exact absurd hsame hne

theorem isMade_zero : IsMade (ofParts (.zero .positive)) 0 (-1074) :=
  isMade_ofParts (m := 0) ⟨by decide, le_rfl, .inr rfl⟩ (by decide)

theorem IsMade.number_zero (hx : IsMade x 0 e) : number x = 0 := by
  rw [hx.number_eq, Nat.cast_zero, zero_mul]

theorem isNearest_zero : IsNearest 0 (ofParts (.zero .positive)) := by
  have hnearest := isMade_zero.isNearest
  rwa [isMade_zero.number_zero] at hnearest

theorem cast_shiftLeft (m k : ℕ) : ((m <<< k : ℕ) : ℚ) = m * 2 ^ k := by
  rw [Nat.shiftLeft_eq, Nat.cast_mul, Nat.cast_pow, Nat.cast_ofNat]

theorem shiftLeft_mul_two_zpow (m k : ℕ) (e : ℤ) :
    ((m <<< k : ℕ) : ℚ) * 2 ^ (e - k) = m * 2 ^ e := by
  rw [cast_shiftLeft, mul_assoc, ← zpow_natCast, ← zpow_add₀ two_ne_zero, add_sub_cancel]

/-- The float `m * 2 ^ e`, its mantissa widened to 53 bits. -/
def widened (m : ℕ) (e : ℤ) : Float :=
  ofParts (made (m <<< (52 - m.log2)) (e - (52 - m.log2 : ℕ)))

theorem isMade_widened (hm : 0 < m) (hlt : m < 2 ^ 53) (hlow : -1022 ≤ e) (hhigh : e ≤ 971) :
    IsMade (widened m e) (m <<< (52 - m.log2)) (e - (52 - m.log2 : ℕ)) := by
  have hlog : m.log2 < 53 := (Nat.log2_lt hm.ne').2 hlt
  have hwide := log2_shiftLeft hm (52 - m.log2)
  have hpos := (shiftLeft_pos hm (52 - m.log2)).ne'
  refine isMade_ofParts ⟨(Nat.log2_lt hpos).1 (by omega), by omega, .inl ?_⟩ (by omega)
  exact (Nat.le_log2 hpos).1 (by omega)

theorem number_widened (hm : 0 < m) (hlt : m < 2 ^ 53) (hlow : -1022 ≤ e) (hhigh : e ≤ 971) :
    number (widened m e) = m * 2 ^ e := by
  rw [(isMade_widened hm hlt hlow hhigh).number_eq, shiftLeft_mul_two_zpow]

/-! ## Products and quotients -/

theorem parts_of_isMade (hx : IsMade x m e) (hm : 0 < m) : parts x = .finite .positive m e hm :=
  hx.parts_eq.trans (made_of_pos hm e)

theorem parts_of_isMade_zero (hx : IsMade x 0 e) : parts x = .zero .positive := hx.parts_eq

theorem isNearest_product (hm : 0 < m) (hn : 0 < n) (hbits : 52 ≤ (m * n).log2 ∨ d + e ≤ -1074) :
    IsNearest (m * 2 ^ d * (n * 2 ^ e)) (ofParts
      (UnpackedFloat.mul .binary64 (.finite .positive m d hm) (.finite .positive n e hn))) := by
  refine isNearest_roundWithAccuracy ?_ hbits
  have hexact : (m * 2 ^ d * (n * 2 ^ e) / 2 ^ (d + e) : ℚ) = (m * n : ℕ) := by
    rw [zpow_add₀ two_ne_zero, mul_mul_mul_comm, Nat.cast_mul]
    exact mul_div_cancel_right₀ _ (mul_pos (two_zpow_pos d) (two_zpow_pos e)).ne'
  rw [hexact]
  exact keeps_exact _

theorem isNearest_mul (hx : IsMade x m d) (hy : IsMade y n e) :
    IsNearest (number x * number y) (x * y) := by
  show IsNearest _ (ofParts (UnpackedFloat.mul .binary64 (parts x) (parts y)))
  obtain rfl | hm := m.eq_zero_or_pos
  · rw [hx.number_zero, zero_mul, parts_of_isMade_zero hx, hy.parts_eq]
    cases n <;> exact isNearest_zero
  obtain rfl | hn := n.eq_zero_or_pos
  · rw [hy.number_zero, mul_zero, parts_of_isMade hx hm, parts_of_isMade_zero hy]
    exact isNearest_zero
  have hlog := log2_add_log2_le hm hn
  have hbits : 52 ≤ (m * n).log2 ∨ d + e ≤ -1074 := by
    obtain hfull | hleast := hx.canonical.full
    · have := (Nat.le_log2 hm.ne').2 hfull
      omega
    · obtain hfull' | hleast' := hy.canonical.full
      · have := (Nat.le_log2 hn.ne').2 hfull'
        omega
      · omega
  rw [hx.number_eq, hy.number_eq, parts_of_isMade hx hm, parts_of_isMade hy hn]
  exact isNearest_product hm hn hbits

theorem isNearest_quotient (hm : 0 < m) (hn : 0 < n) :
    IsNearest (m * 2 ^ d / (n * 2 ^ e)) (ofParts
      (UnpackedFloat.div .binary64 (.finite .positive m d hm) (.finite .positive n e hn))) := by
  rw [UnpackedFloat.div, divCore]
  dsimp only
  rw [targetExponent_eq, totalExponent, totalExponent]
  generalize hfine :
    min (d - e) (max ((m.log2 : ℤ) + 1 + d - (n.log2 + 1 + e) - 53) (-1074)) = fine
  generalize hshift : (d - e - fine).toNat = shift
  have hlog := log2_shiftLeft hm shift
  have hwide := Nat.log2_self_le (shiftLeft_pos hm shift).ne'
  refine isNearest_roundWithAccuracy ?_ ?_
  · have hunits : (2 : ℚ) ^ d = 2 ^ shift * (2 ^ e * 2 ^ fine) := by
      rw [← zpow_natCast, ← zpow_add₀ two_ne_zero, ← zpow_add₀ two_ne_zero]
      congr 1
      omega
    have hexact : (m * 2 ^ d / (n * 2 ^ e) / 2 ^ fine : ℚ) = (m <<< shift : ℕ) / n := by
      have hunit := mul_pos (two_zpow_pos e) (two_zpow_pos fine)
      rw [cast_shiftLeft, hunits, div_div, mul_assoc, ← mul_assoc (m : ℚ),
        mul_div_mul_right _ _ hunit.ne']
    rw [hexact]
    exact keeps_quotient hn _
  · -- The mantissa is widened, so the quotient has all the bits that are kept.
    refine or_iff_not_imp_right.2 fun hlarge => ?_
    have hquotient : 2 ^ 52 ≤ m <<< shift / n := by
      rw [Nat.le_div_iff_mul_le hn]
      calc 2 ^ 52 * n ≤ 2 ^ 52 * 2 ^ (n.log2 + 1) := Nat.mul_le_mul_left _ Nat.lt_log2_self.le
        _ = 2 ^ (52 + (n.log2 + 1)) := (Nat.pow_add 2 52 _).symm
        _ ≤ 2 ^ (m <<< shift).log2 := Nat.pow_le_pow_right two_pos (by omega)
        _ ≤ m <<< shift := hwide
    exact (Nat.le_log2 (Nat.pos_of_ne_zero fun h => by rw [h] at hquotient; omega).ne').2 hquotient

theorem isNearest_div (hx : IsMade x m d) (hy : IsMade y n e) (hn : 0 < n) :
    IsNearest (number x / number y) (x / y) := by
  show IsNearest _ (ofParts (UnpackedFloat.div .binary64 (parts x) (parts y)))
  rw [parts_of_isMade hy hn]
  obtain rfl | hm := m.eq_zero_or_pos
  · rw [hx.number_zero, zero_div, parts_of_isMade_zero hx]
    exact isNearest_zero
  · rw [hx.number_eq, hy.number_eq, parts_of_isMade hx hm]
    exact isNearest_quotient hm hn

/-! ## Whole numbers -/

theorem isNearest_toFloat (k : UInt64) : IsNearest k.toNat k.toFloat := by
  show IsNearest _ (ofParts (UnpackedFloat.ofInt .binary64 k.toNat))
  obtain hzero | hpos := k.toNat.eq_zero_or_pos
  · rw [hzero]
    exact_mod_cast isNearest_zero
  · have hcompare : compare (k.toNat : ℤ) 0 = .gt := Int.compare_eq_gt.2 (by omega)
    rw [UnpackedFloat.ofInt, UnpackedFloat.normalize, hcompare]
    dsimp only
    rw [Int.toNat_natCast, UnpackedFloat.round, targetExponent_eq]
    simp only [decreaseExponent, totalExponent]
    generalize hshift : (0 - max ((k.toNat.log2 : ℤ) + 1 + 0 - 53) (-1074)).toNat = shift
    have hlog := log2_shiftLeft hpos shift
    refine isNearest_roundWithAccuracy ?_ (by omega)
    have hexact : (k.toNat / 2 ^ (0 - shift : ℤ) : ℚ) = (k.toNat <<< shift : ℕ) := by
      rw [div_eq_iff (two_zpow_pos _).ne', shiftLeft_mul_two_zpow, zpow_zero, mul_one]
    rw [hexact]
    exact keeps_exact _

theorem exists_isMade_toFloat {k : UInt64} (hlt : k.toNat < 2 ^ 53) :
    ∃ n d, IsMade k.toFloat n d ∧ number k.toFloat = k.toNat := by
  have hnearest := isNearest_toFloat k
  obtain hzero | hpos := k.toNat.eq_zero_or_pos
  · rw [hzero, Nat.cast_zero] at hnearest ⊢
    rw [hnearest.unique isNearest_zero]
    exact ⟨0, -1074, isMade_zero, isMade_zero.number_zero⟩
  · have hmade := isMade_widened hpos hlt (e := 0) (by decide) (by decide)
    have hnumber := number_widened hpos hlt (e := 0) (by decide) (by decide)
    rw [zpow_zero, mul_one] at hnumber
    rw [← hnumber] at hnearest
    rw [hnearest.unique hmade.isNearest]
    exact ⟨_, _, hmade, hnumber⟩

end RandomTables.Decimal
