import RandomTables.Proofs.Decimal.Parts

/-! # The float nearest to a number

The floats that are not negative are the numbers `m * 2 ^ e` with a mantissa and an exponent in
canonical form, zero included. One of them is nearest to a number, and where two are, one has an
even mantissa.
-/

namespace RandomTables.Decimal

open Float Float.Model Float.Model.UnpackedFloat

/-! ## The number that a float stands for -/

/-- The number that finite parts stand for. -/
def magnitude : UnpackedFloat → ℚ
  | .finite s m e _ => s.apply m * 2 ^ e
  | _ => 0

/-- The number that a finite float stands for. -/
def number (x : Float) : ℚ := magnitude (parts x)

/-- The parts of the float `m * 2 ^ e`. -/
def made : ℕ → ℤ → UnpackedFloat
  | 0, _ => .zero .positive
  | m + 1, e => .finite .positive (m + 1) e m.succ_pos

/-- The float has no negative sign, and this mantissa and this exponent. -/
structure IsMade (x : Float) (m : ℕ) (e : ℤ) : Prop where
  canonical : IsCanonical m e
  parts_eq : parts x = made m e

variable {x y : Float} {m n : ℕ} {d e : ℤ}

theorem made_of_pos (h : 0 < m) (e : ℤ) : made m e = .finite .positive m e h := by
  obtain ⟨m, rfl⟩ := Nat.exists_eq_succ_of_ne_zero h.ne'
  rfl

theorem magnitude_made (m : ℕ) (e : ℤ) : magnitude (made m e) = m * 2 ^ e := by
  cases m with
  | zero => simp [made, magnitude]
  | succ m => rfl

theorem parts_inj (h : parts x = parts y) : x = y := by
  rw [← ofParts_parts x, h, ofParts_parts]

theorem IsMade.number_eq (h : IsMade x m e) : number x = m * 2 ^ e := by
  rw [number, h.parts_eq, magnitude_made]

theorem IsMade.isFinite (h : IsMade x m e) : x.isFinite := by
  show (parts x).isFinite
  rw [h.parts_eq]
  cases m <;> rfl

theorem IsMade.le (h : IsMade x m e) : e ≤ 971 := by
  obtain ⟨hcanonical, hparts⟩ := h
  obtain rfl | hpos := m.eq_zero_or_pos
  · have := hcanonical.full
    omega
  · by_contra hlarge
    have hx := parts_ofParts_finite (s := .positive) hpos hcanonical
    rw [← made_of_pos hpos, ← hparts, ofParts_parts, hparts, made_of_pos hpos,
      if_pos (not_le.1 hlarge)] at hx
    cases hx

theorem isMade_ofParts (hcanonical : IsCanonical m e) (hle : e ≤ 971) :
    IsMade (ofParts (made m e)) m e := by
  refine ⟨hcanonical, ?_⟩
  obtain rfl | hpos := m.eq_zero_or_pos
  · exact parts_ofParts_zero .positive
  · rw [made_of_pos hpos, parts_ofParts_finite hpos hcanonical, if_neg (not_lt.2 hle)]

theorem exists_number_eq (x : Float) :
    ∃ (k : ℤ) (e : ℤ), |k| < 2 ^ 53 ∧ -1074 ≤ e ∧ number x = k * 2 ^ e := by
  have hzero : ∃ (k : ℤ) (e : ℤ), |k| < 2 ^ 53 ∧ -1074 ≤ e ∧ (0 : ℚ) = k * 2 ^ e :=
    ⟨0, 0, by decide, by decide, by simp⟩
  unfold number
  cases hx : parts x with
  | finite s m e h =>
    obtain ⟨hlt, hle, -⟩ := isCanonical_parts hx
    refine ⟨s.apply m, e, ?_, hle, rfl⟩
    cases s <;> simpa [Sign.apply] using hlt
  | zero => exact hzero
  | infinity => exact hzero
  | notANumber => exact hzero

/-! ## The order of canonical forms -/

theorem two_zpow_pos (e : ℤ) : (0 : ℚ) < 2 ^ e := zpow_pos two_pos e

theorem exists_two_zpow_eq (h : d ≤ e) : ∃ n : ℕ, (2 : ℚ) ^ e = (2 ^ n : ℕ) * 2 ^ d := by
  obtain ⟨n, rfl⟩ := Int.le.dest h
  refine ⟨n, ?_⟩
  rw [zpow_add₀ two_ne_zero, mul_comm, zpow_natCast, Nat.cast_pow, Nat.cast_ofNat]

theorem two_zpow_succ_le (h : d < e) : 2 * (2 : ℚ) ^ d ≤ 2 ^ e := by
  rw [mul_comm, ← zpow_add_one₀ two_ne_zero]
  exact zpow_le_zpow_right₀ one_le_two h

theorem IsCanonical.full_of_lt (h : IsCanonical m e) (hlt : d < e) (hd : -1074 ≤ d) :
    2 ^ 52 ≤ m := by
  have := h.full
  omega

theorem IsCanonical.lt_of_lt (hm : IsCanonical m d) (hn : IsCanonical n e) (h : d < e) :
    (m * 2 ^ d : ℚ) < n * 2 ^ e := by
  have hm' : (m : ℚ) < 2 ^ 53 := by exact_mod_cast hm.lt
  have hn' : (2 ^ 52 : ℚ) ≤ n := by exact_mod_cast hn.full_of_lt h hm.le
  calc (m * 2 ^ d : ℚ) < 2 ^ 53 * 2 ^ d := by
        exact mul_lt_mul_of_pos_right hm' (two_zpow_pos d)
    _ = 2 ^ 52 * (2 * 2 ^ d) := by ring
    _ ≤ 2 ^ 52 * 2 ^ e := mul_le_mul_of_nonneg_left (two_zpow_succ_le h) (by positivity)
    _ ≤ n * 2 ^ e := mul_le_mul_of_nonneg_right hn' (two_zpow_pos e).le

theorem IsMade.eq (hx : IsMade x m d) (hy : IsMade y n e) (h : number x = number y) : x = y := by
  rw [hx.number_eq, hy.number_eq] at h
  obtain hlt | rfl | hlt := lt_trichotomy d e
  · exact absurd h (hx.canonical.lt_of_lt hy.canonical hlt).ne
  · have hmn : (m : ℚ) = n := mul_right_cancel₀ (two_zpow_pos d).ne' h
    rw [Nat.cast_inj] at hmn
    subst hmn
    exact parts_inj (hx.parts_eq.trans hy.parts_eq.symm)
  · exact absurd h (hy.canonical.lt_of_lt hx.canonical hlt).ne'

/-! ## The nearest float -/

/-- Half a unit above the greatest float. -/
def limit : ℚ := 2 ^ 1024 - 2 ^ 970

theorem limit_le_two_pow : limit ≤ 2 ^ 1024 := sub_le_self _ (pow_pos two_pos 970).le

theorem limit_eq : limit = (2 ^ 53 - 1 / 2) * 2 ^ (971 : ℤ) := by
  have hhigh : (2 : ℚ) ^ 1024 = 2 ^ 53 * 2 ^ 971 := by rw [← pow_add]
  have hlow : (2 : ℚ) ^ 971 = 2 * 2 ^ 970 := pow_succ' 2 970
  rw [limit, zpow_ofNat, hhigh, sub_mul, hlow, ← mul_assoc (1 / 2), one_div_mul_cancel two_ne_zero,
    one_mul]

theorem lt_limit {t : ℚ} (ht : t < 2 ^ 53 - 1 / 2) (he : e ≤ 971) : t * 2 ^ e < limit := by
  rw [limit_eq]
  calc t * 2 ^ e < (2 ^ 53 - 1 / 2) * 2 ^ e := mul_lt_mul_of_pos_right ht (two_zpow_pos e)
    _ ≤ (2 ^ 53 - 1 / 2) * 2 ^ (971 : ℤ) :=
      mul_le_mul_of_nonneg_left (zpow_le_zpow_right₀ one_le_two he) (by norm_num)

theorem limit_le {t : ℚ} (ht : 2 ^ 53 - 1 / 2 ≤ t) (he : 971 ≤ e) : limit ≤ t * 2 ^ e := by
  rw [limit_eq]
  calc (2 ^ 53 - 1 / 2) * 2 ^ (971 : ℤ) ≤ (2 ^ 53 - 1 / 2) * 2 ^ e :=
      mul_le_mul_of_nonneg_left (zpow_le_zpow_right₀ one_le_two he) (by norm_num)
    _ ≤ t * 2 ^ e := mul_le_mul_of_nonneg_right ht (two_zpow_pos e).le

/-- The float nearest to a number that is not negative. Of two it is the one with the even mantissa,
and from half a unit above the greatest float on it is infinity. -/
inductive IsNearest (q : ℚ) (x : Float) : Prop where
  | infinite (hlimit : limit ≤ q) (hx : parts x = .infinity .positive)
  | finite (m : ℕ) (e : ℤ) (hlimit : q < limit) (hx : IsMade x m e)
      (hleast : ∀ y : Float, y.isFinite → |number x - q| ≤ |number y - q|)
      (heven : ∀ y : Float, y.isFinite → number y ≠ number x →
        |number y - q| = |number x - q| → Even m)

theorem not_lt_of_even {q : ℚ} (hx : IsMade x m d) (hy : IsMade y n e) (hm : Even m) (hn : Even n)
    (hleast : ∀ z : Float, z.isFinite → |number x - q| ≤ |number z - q|)
    (hsame : |number x - q| = |number y - q|) : ¬ number x < number y := by
  intro hlt
  have hmiddle : number y - q = q - number x := by
    obtain h | h := abs_eq_abs.1 hsame <;> linarith
  -- An even mantissa can be raised by one. The float made so is not nearer, so it lies behind `y`.
  have hcanonical : IsCanonical (m + 1) d := by
    obtain ⟨hm', hd, hfull⟩ := hx.canonical
    obtain ⟨k, rfl⟩ := hm
    exact ⟨by omega, hd, by omega⟩
  have hnext := isMade_ofParts hcanonical hx.le
  have hbehind := hleast _ hnext.isFinite
  have hunit := two_zpow_pos d
  rw [hnext.number_eq, Nat.cast_add_one, add_mul, one_mul, ← hx.number_eq] at hbehind
  have hstep : number y ≤ number x + 2 ^ d := by
    rw [abs_of_neg (by linarith)] at hbehind
    obtain h | h := le_abs'.1 hbehind <;> linarith
  rw [hx.number_eq, hy.number_eq] at hlt hstep
  obtain h | rfl | h := lt_trichotomy d e
  · have hover := hcanonical.lt_of_lt hy.canonical h
    push_cast at hover
    linarith
  · have hlow : m < n := by
      have := lt_of_mul_lt_mul_right hlt hunit.le
      exact_mod_cast this
    have hhigh : n ≤ m + 1 := by
      have := le_of_mul_le_mul_right (by linarith : (n * 2 ^ d : ℚ) ≤ (m + 1) * 2 ^ d) hunit
      exact_mod_cast this
    obtain ⟨k, rfl⟩ := hm
    obtain ⟨l, rfl⟩ := hn
    omega
  · exact absurd hlt (hy.canonical.lt_of_lt hx.canonical h).not_gt

theorem IsNearest.unique {q : ℚ} (hx : IsNearest q x) (hy : IsNearest q y) : x = y := by
  cases hx with
  | infinite hlimit hx =>
    cases hy with
    | infinite _ hy => exact parts_inj (hx.trans hy.symm)
    | finite _ _ hbelow => exact absurd hlimit hbelow.not_ge
  | finite m d hbelow hx hleast heven =>
    cases hy with
    | infinite hlimit => exact absurd hlimit hbelow.not_ge
    | finite n e _ hy hleast' heven' =>
      have hsame := le_antisymm (hleast y hy.isFinite) (hleast' x hx.isFinite)
      by_cases hnumber : number x = number y
      · exact hx.eq hy hnumber
      · have hm := heven y hy.isFinite (Ne.symm hnumber) hsame.symm
        have hn := heven' x hx.isFinite hnumber hsame
        obtain h | h := lt_or_gt_of_ne hnumber
        · exact absurd h (not_lt_of_even hx hy hm hn hleast hsame)
        · exact absurd h (not_lt_of_even hy hx hn hm hleast' hsame.symm)

end RandomTables.Decimal
