import RandomTables.Proofs.Decimal.Arithmetic

/-! # How small a product of floats can be

Rounding does not take a number below a power of two it has reached. So a product of floats that
are not too small is not rounded down to zero.
-/

namespace RandomTables.Decimal

open Float Float.Model Float.Model.UnpackedFloat

/-! ## Powers of two that are reached -/

/-- The float is at least this power of two. -/
def Reaches (n : Int) (x : Float) : Prop :=
  parts x = .infinity .positive ∨ ∃ m e h, parts x = .finite .positive m e h ∧ n ≤ m.log2 + e

variable {a b : Int} {x y : Float}

theorem Reaches.not_le_zero (h : Reaches a x) : ¬ x ≤ 0 := by
  rw [le_zero_iff]
  obtain hx | ⟨m, e, hm, hx, -⟩ := h
  · rw [hx]
    decide
  · rw [hx]
    exact Bool.false_ne_true

theorem reaches_infinity : Reaches a (ofParts (.infinity .positive)) :=
  .inl (parts_ofParts_infinity .positive)

theorem reaches_iff {m : ℕ} {e : ℤ} (hx : IsMade x m e) : Reaches a x ↔ 2 ^ a ≤ number x := by
  have hunit := two_zpow_pos e
  have hreaches : Reaches a x ↔ 0 < m ∧ a ≤ m.log2 + e := by
    rw [Reaches, hx.parts_eq]
    cases m <;> simp [made]
  rw [hreaches, hx.number_eq]
  constructor
  · rintro ⟨hm, ha⟩
    have hlog : (2 ^ m.log2 : ℚ) ≤ m := by exact_mod_cast Nat.log2_self_le hm.ne'
    calc (2 : ℚ) ^ a ≤ 2 ^ (m.log2 + e : ℤ) := zpow_le_zpow_right₀ one_le_two ha
      _ = 2 ^ m.log2 * 2 ^ e := by rw [zpow_add₀ two_ne_zero, zpow_natCast]
      _ ≤ m * 2 ^ e := mul_le_mul_of_nonneg_right hlog hunit.le
  · intro ha
    have hm : (0 : ℚ) < m := pos_of_mul_pos_left ((two_zpow_pos a).trans_le ha) hunit.le
    have hlog : (m : ℚ) < 2 ^ (m.log2 + 1) := by exact_mod_cast Nat.lt_log2_self
    have hlt : (2 : ℚ) ^ a < 2 ^ (m.log2 + 1 + e : ℤ) := by
      refine ha.trans_lt ((mul_lt_mul_of_pos_right hlog hunit).trans_eq ?_)
      rw [zpow_add₀ two_ne_zero, ← zpow_natCast, Nat.cast_add_one]
    rw [zpow_lt_zpow_iff_right₀ one_lt_two] at hlt
    exact ⟨Nat.cast_pos.1 hm, by omega⟩

theorem Reaches.infinite_or_made (h : Reaches a x) : parts x = .infinity .positive ∨
    ∃ m e, 0 < m ∧ IsMade x m e ∧ (2 : ℚ) ^ a ≤ number x := by
  have hreaches := h
  obtain hx | ⟨m, e, hm, hx, -⟩ := h
  · exact .inl hx
  · have hmade : IsMade x m e := ⟨isCanonical_parts hx, hx.trans (made_of_pos hm e).symm⟩
    exact .inr ⟨m, e, hm, hmade, (reaches_iff hmade).1 hreaches⟩

theorem exists_isMade_two_zpow (hlow : -1074 ≤ a) (hhigh : a ≤ 1023) :
    ∃ y m e, IsMade y m e ∧ number y = 2 ^ a := by
  obtain ⟨k, hk⟩ : ∃ k : ℕ, (k : ℤ) = min 52 (a + 1074) := ⟨(min 52 (a + 1074)).toNat, by omega⟩
  have hcanonical : IsCanonical (2 ^ k) (a - k) := by
    refine ⟨Nat.pow_lt_pow_right (by decide) (by omega), by omega, ?_⟩
    refine or_iff_not_imp_right.2 fun hlarge => Nat.pow_le_pow_right two_pos (by omega)
  have hmade := isMade_ofParts hcanonical (by omega)
  refine ⟨_, _, _, hmade, ?_⟩
  rw [hmade.number_eq, Nat.cast_pow, Nat.cast_ofNat, ← zpow_natCast, ← zpow_add₀ two_ne_zero,
    add_sub_cancel]

theorem IsNearest.reaches {q : ℚ} (h : IsNearest q x) (hleast : -1074 ≤ a) (hq : 2 ^ a ≤ q) :
    Reaches a x := by
  cases h with
  | infinite _ hx => exact .inl hx
  | finite m e hlimit hx hnearest _ =>
    have ha : a ≤ 1023 := by
      by_contra hlarge
      have hpow : (2 : ℚ) ^ (1024 : ℤ) ≤ 2 ^ a := zpow_le_zpow_right₀ one_le_two (by omega)
      rw [zpow_ofNat] at hpow
      exact absurd hlimit (limit_le_two_pow.trans (hpow.trans hq)).not_gt
    obtain ⟨y, _, _, hy, hnumber⟩ := exists_isMade_two_zpow hleast ha
    have hdistance := hnearest y hy.isFinite
    rw [hnumber, abs_of_nonpos (sub_nonpos.2 hq)] at hdistance
    rw [reaches_iff hx]
    linarith [neg_abs_le (number x - q)]

theorem Reaches.mul (hx : Reaches a x) (hy : Reaches b y) (hleast : -1074 ≤ a + b) :
    Reaches (a + b) (x * y) := by
  have hproduct : x * y = ofParts (UnpackedFloat.mul .binary64 (parts x) (parts y)) := rfl
  obtain hx | ⟨m, d, hm, hx, ha⟩ := hx.infinite_or_made
  · rw [hproduct, hx]
    obtain hy | ⟨n, e, hn, hy, -⟩ := hy.infinite_or_made
    · rw [hy]
      exact reaches_infinity
    · rw [parts_of_isMade hy hn]
      exact reaches_infinity
  · obtain hy | ⟨n, e, hn, hy, hb⟩ := hy.infinite_or_made
    · rw [hproduct, hy, parts_of_isMade hx hm]
      exact reaches_infinity
    · refine (isNearest_mul hx hy).reaches hleast ?_
      rw [zpow_add₀ two_ne_zero]
      exact mul_le_mul ha hb (two_zpow_pos b).le ((two_zpow_pos a).le.trans ha)

theorem reaches_toFloat {k : UInt64} (hk : k ≠ 0) : Reaches 0 k.toFloat := by
  have hpos : 0 < k.toNat := Nat.pos_of_ne_zero fun h => hk (UInt64.toNat_inj.1 h)
  refine (isNearest_toFloat k).reaches (by decide) ?_
  rw [zpow_zero]
  exact_mod_cast hpos

theorem Reaches.div (hx : Reaches a x) (hleast : -1074 ≤ a - 53) :
    Reaches (a - 53) (x / 9007199254740992) := by
  have hy : IsMade 9007199254740992 (2 ^ 52) 1 := ⟨⟨by decide, by decide, .inl le_rfl⟩, rfl⟩
  obtain hx | ⟨m, e, hm, hx, ha⟩ := hx.infinite_or_made
  · show Reaches _ (ofParts (UnpackedFloat.div .binary64 (parts x) (parts 9007199254740992)))
    rw [hx, parts_of_isMade hy (by decide)]
    exact reaches_infinity
  · refine (isNearest_div hx hy (by decide)).reaches hleast ?_
    rw [hy.number_eq, zpow_one, zpow_sub₀ two_ne_zero, zpow_ofNat]
    exact div_le_div₀ ((two_zpow_pos a).le.trans ha) ha (by norm_num) (by norm_num)

theorem parts_smallest : ∃ m h, parts 1e-300 = .finite .positive m (-1049) h := by
  have hbits : (1e-300 : Float).toBits = 0x01A56E1FC2F8F359 := by decide +kernel
  have hsame : (1e-300 : Float) = .ofBits 0x01A56E1FC2F8F359 := by
    rw [← hbits, Float.ofBits_toBits]
  rw [hsame]
  exact ⟨_, _, rfl⟩

theorem reaches_of_le (h : 1e-300 ≤ x) : Reaches (-997) x := by
  obtain ⟨m₀, h₀, hsmallest⟩ := parts_smallest
  have hle : UnpackedFloat.le (parts 1e-300) (parts x) := of_decide_eq_true h
  rw [hsmallest] at hle
  cases hx : parts x with
  | notANumber => rw [hx] at hle; cases hle
  | zero s => rw [hx] at hle; cases hle
  | infinity s =>
    cases s with
    | positive => exact .inl hx
    | negative => rw [hx] at hle; cases hle
  | finite s m e hm =>
    cases s with
    | negative => rw [hx] at hle; cases hle
    | positive =>
      rw [hx] at hle
      have he : -1049 ≤ e := by
        by_contra hlt
        have hcompare : compare (-1049) e = .gt := Int.compare_eq_gt.2 (by omega)
        simp [UnpackedFloat.le, UnpackedFloat.compare, hcompare] at hle
      obtain hfull | hleast := (isCanonical_parts hx).full
      · have := (Nat.le_log2 hm.ne').2 hfull
        exact .inr ⟨m, e, hm, hx, by omega⟩
      · omega

end RandomTables.Decimal
