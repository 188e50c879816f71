import RandomTables.Decimal.Nearest
import RandomTables.Proofs.Decimal.Arithmetic
import RandomTables.Proofs.Text

/-! # Decimals are read as the nearest float

A whole number of digits is multiplied or divided by a power of ten. Where both are floats
themselves one operation rounds the result, and in all other cases it is rounded from the exact
number.
-/

namespace RandomTables.Decimal

open Float Float.Model Float.Model.UnpackedFloat

variable {m k : ℕ} {e : ℤ}

/-! ## Powers of ten -/

theorem powersOfTen_eq (hk : k < exactlyRepresentablePowersOfTen.size) :
    exactlyRepresentablePowersOfTen[k] = widened (5 ^ k) k := by
  have hall : ∀ k : Fin 23,
      exactlyRepresentablePowersOfTen[k].toBits = (widened (5 ^ k.val) k).toBits := by
    decide
  exact Float.toBits_inj.1 (hall ⟨k, hk⟩)

theorem exists_isMade_powersOfTen (hk : k < exactlyRepresentablePowersOfTen.size) :
    ∃ n d, IsMade exactlyRepresentablePowersOfTen[k] n d ∧ 0 < n ∧
      number exactlyRepresentablePowersOfTen[k] = 10 ^ k := by
  have hk' : k ≤ 22 := Nat.le_of_lt_succ hk
  have hlt : 5 ^ k < 2 ^ 53 := lt_of_le_of_lt (Nat.pow_le_pow_right (by decide) hk') (by decide)
  have hpos : 0 < 5 ^ k := Nat.pow_pos (by decide)
  have hmade := isMade_widened hpos hlt (e := k) (by omega) (by omega)
  rw [powersOfTen_eq hk, number_widened hpos hlt (by omega) (by omega), zpow_natCast, Nat.cast_pow,
    ← mul_pow]
  exact ⟨_, _, hmade, shiftLeft_pos hpos _, by norm_num⟩

/-! ## From the exact number -/

theorem limit_le_mul_ten_zpow (hm : 0 < m) (he : 2 ^ 11 < e) : limit ≤ m * 10 ^ e := by
  have hm' : (1 : ℚ) ≤ m := by exact_mod_cast hm
  calc limit ≤ 2 ^ 1024 := limit_le_two_pow
    _ ≤ 10 ^ 1024 := pow_le_pow_left₀ two_pos.le (by norm_num) 1024
    _ = 10 ^ (1024 : ℤ) := (zpow_ofNat 10 1024).symm
    _ ≤ 10 ^ e := zpow_le_zpow_right₀ (by norm_num) (by omega)
    _ ≤ m * 10 ^ e := le_mul_of_one_le_left (zpow_pos (by norm_num) e).le hm'

theorem isNearest_tiny (he : e < -(2 ^ 11 + (m.log2 : ℤ))) :
    IsNearest (m * 10 ^ e) (ofParts (.zero .positive)) := by
  obtain ⟨k, rfl⟩ : ∃ k : ℕ, e = -k := ⟨(-e).toNat, by omega⟩
  have hsmall (shift : ℕ) (hshift : m.log2 + 1 + shift ≤ k) : m * 2 ^ shift < 10 ^ k := by
    calc m * 2 ^ shift < 2 ^ (m.log2 + 1) * 2 ^ shift :=
          Nat.mul_lt_mul_of_pos_right Nat.lt_log2_self (Nat.two_pow_pos shift)
      _ = 2 ^ (m.log2 + 1 + shift) := (Nat.pow_add 2 _ shift).symm
      _ ≤ 2 ^ k := Nat.pow_le_pow_right two_pos hshift
      _ ≤ 10 ^ k := Nat.pow_le_pow_left (by decide) k
  have hten : (0 : ℚ) < 10 ^ k := by positivity
  have hhalf : (m * 10 ^ (-k : ℤ) / 2 ^ (-1074 : ℤ) : ℚ) < 1 / 2 := by
    rw [zpow_neg, zpow_natCast, ← div_eq_mul_inv, zpow_neg, div_inv_eq_mul, zpow_ofNat,
      div_mul_eq_mul_div, div_lt_div_iff₀ hten two_pos, one_mul, mul_assoc, ← pow_succ]
    exact_mod_cast hsmall (1074 + 1) (by omega)
  have hrounds : RoundsTo (m * 10 ^ (-k : ℤ)) 0 (-1074) := by
    refine ⟨le_rfl, .inr rfl, Nat.zero_le _, .inl ?_⟩
    rw [Nat.cast_zero, zero_sub, abs_neg, abs_of_nonneg (by positivity)]
    exact hhalf
  exact hrounds.isNearest

theorem isNearest_ofModel (m : ℕ) (e : ℤ) :
    IsNearest (m * 10 ^ e) (.ofModel (Model.ofScientific m e)) := by
  show IsNearest _ (ofParts (UnpackedFloat.ofScientific .binary64 m e))
  unfold UnpackedFloat.ofScientific
  split
  · next hm =>
    rw [hm, Nat.cast_zero, zero_mul]
    exact isNearest_zero
  · next hm =>
    have hpos := Nat.pos_of_ne_zero hm
    have hten (k : ℕ) : 0 < 10 ^ k := Nat.pow_pos (by decide)
    split
    · next he => exact .infinite (limit_le_mul_ten_zpow hpos he) (parts_ofParts_infinity _)
    · split
      · next he => exact isNearest_tiny he
      · split
        · next he =>
          have hwide := shiftLeft_pos hpos 53
          have hlog := log2_shiftLeft hpos 53
          have hbits := log2_add_log2_le hwide (hten e.toNat)
          have hexact : (m * 10 ^ e : ℚ) =
              (m <<< 53 : ℕ) * 2 ^ (-(53 : ℕ) : ℤ) * ((10 ^ e.toNat : ℕ) * 2 ^ (0 : ℤ)) := by
            rw [← zero_sub, shiftLeft_mul_two_zpow, zpow_zero, mul_one, mul_one, Nat.cast_pow,
              ← zpow_natCast, Int.toNat_of_nonneg he, Nat.cast_ofNat]
          rw [hexact]
          exact isNearest_product hwide (hten e.toNat) (.inl (by omega))
        · next he =>
          have hexact : (m * 10 ^ e : ℚ) =
              m * 2 ^ (0 : ℤ) / ((10 ^ (-e).toNat : ℕ) * 2 ^ (0 : ℤ)) := by
            rw [zpow_zero, mul_one, mul_one, Nat.cast_pow, ← zpow_natCast,
              Int.toNat_of_nonneg (by omega), Nat.cast_ofNat, zpow_neg, div_inv_eq_mul]
          rw [hexact]
          exact isNearest_quotient hpos (hten (-e).toNat)

/-! ## Digits and an exponent -/

theorem isNearest_ofScientific (m : ℕ) (negative : Bool) (k : ℕ) :
    IsNearest (if negative then m / 10 ^ k else m * 10 ^ k) (Float.ofScientific m negative k) := by
  rw [Float.ofScientific]
  by_cases h : m < 2 ^ 53 ∧ k ≤ 22
  · have hword : m.toUInt64.toNat = m := Nat.mod_eq_of_lt (h.1.trans (by decide))
    obtain ⟨n, d, hdigits, hm⟩ := exists_isMade_toFloat (hword.trans_lt h.1)
    obtain ⟨n', d', hpower, hpos, hten⟩ := exists_isMade_powersOfTen (Nat.lt_succ_of_le h.2)
    rw [hword] at hm
    rw [dif_pos h, ← hm, ← hten]
    cases negative with
    | true => exact isNearest_div hdigits hpower hpos
    | false => exact isNearest_mul hdigits hpower
  · rw [dif_neg h]
    cases negative with
    | true =>
      have hexact := isNearest_ofModel m (.negOfNat k)
      rwa [Int.negOfNat_eq, zpow_neg, Int.ofNat_eq_natCast, zpow_natCast,
        ← div_eq_mul_inv] at hexact
    | false =>
      have hexact := isNearest_ofModel m (.ofNat k)
      rwa [Int.ofNat_eq_natCast, zpow_natCast] at hexact

/-! ## Decimals in texts -/

/-- The text writes this number, in digits with at most one point among them. -/
inductive Writes : Text → ℚ → Prop where
  | whole {digits : Text} (hne : digits ≠ []) (hdigits : ∀ c ∈ digits, c.isDigit) :
      Writes digits (Text.digitsValue digits)
  | pointed {whole fraction : Text} (hne : whole ++ fraction ≠ [])
      (hdigits : ∀ c ∈ whole ++ fraction, c.isDigit) :
      Writes (whole ++ '.' :: fraction)
        (Text.digitsValue (whole ++ fraction) / 10 ^ fraction.length)

variable {t : Text} {q : ℚ}

theorem Writes.digit_or_point (h : Writes t q) : ∀ c ∈ t, c.isDigit ∨ c = '.' := by
  cases h with
  | whole _ hdigits => exact fun c hc => .inl (hdigits c hc)
  | pointed _ hdigits =>
    intro c hc
    simp only [List.mem_append, List.mem_cons] at hc hdigits
    grind

theorem Writes.exists_digit (h : Writes t q) : ∃ c ∈ t, c.isDigit := by
  cases h with
  | whole hne hdigits =>
    obtain ⟨c, hc⟩ := List.exists_mem_of_ne_nil _ hne
    exact ⟨c, hc, hdigits c hc⟩
  | pointed hne hdigits =>
    obtain ⟨c, hc⟩ := List.exists_mem_of_ne_nil _ hne
    refine ⟨c, ?_, hdigits c hc⟩
    simp only [List.mem_append, List.mem_cons] at hc ⊢
    tauto

theorem Writes.ne_nil (h : Writes t q) : t ≠ [] := by
  obtain ⟨c, hc, -⟩ := h.exists_digit
  exact List.ne_nil_of_mem hc

theorem count_point_eq_zero (hdigits : ∀ c ∈ t, c.isDigit) : t.count '.' = 0 :=
  List.count_eq_zero.2 fun h => absurd (hdigits '.' h) (by decide)

theorem Writes.count_point_le (h : Writes t q) : t.count '.' ≤ 1 := by
  cases h with
  | whole _ hdigits =>
    rw [count_point_eq_zero hdigits]
    exact Nat.zero_le 1
  | pointed _ hdigits =>
    have hzero := count_point_eq_zero hdigits
    rw [List.count_append] at hzero
    rw [List.count_append, List.count_cons_self]
    omega

theorem isNearest_places (m k : ℕ) :
    IsNearest (m / 10 ^ k) (Float.ofScientific m (-(k : ℤ) < 0) (-(k : ℤ)).natAbs) := by
  rw [Int.natAbs_neg, Int.natAbs_natCast]
  obtain rfl | hpos := k.eq_zero_or_pos
  · have hnearest := isNearest_ofScientific m false 0
    rwa [if_neg Bool.false_ne_true, pow_zero, mul_one, ← div_one (m : ℚ), ← pow_zero 10] at hnearest
  · rw [decide_eq_true (by omega : -(k : ℤ) < 0)]
    exact isNearest_ofScientific m true k

theorem places_within_bound {n k : ℕ} (h : k ≤ n) :
    max (-(400 + (n : ℤ))) (min (400 + (n : ℤ)) (0 - k)) = -k := by
  omega

/-- A written decimal is read, and as the float nearest to it. -/
theorem nearest?_of_writes (h : Writes t q) : ∃ x, nearest? t = some x ∧ IsNearest q x := by
  cases h with
  | whole hne hdigits =>
    have htake := List.takeWhile_eq_self_iff.2 hdigits
    have hdrop := List.dropWhile_eq_nil_iff.2 hdigits
    have hnearest := isNearest_places (Text.digitsValue t) 0
    rw [pow_zero, div_one] at hnearest
    refine ⟨_, ?_, hnearest⟩
    have hbound := places_within_bound (Nat.zero_le t.length)
    simp only [nearest?, htake, hdrop, exponent?, List.isEmpty_eq_false_iff.2 hne, Bool.false_and,
      Bool.false_eq_true, if_false, List.append_nil, List.length_nil, Nat.add_zero, Option.map_some,
      hbound]
  | @pointed whole fraction hne hdigits =>
    obtain ⟨hwhole, hfraction⟩ := List.forall_mem_append.1 hdigits
    have hstop : ∀ c ∈ ('.' :: fraction).head?, ¬ c.isDigit := by simp
    obtain ⟨htake, hdrop⟩ := Text.takeWhile_append_stop hwhole hstop
    have htake' := List.takeWhile_eq_self_iff.2 hfraction
    have hdrop' := List.dropWhile_eq_nil_iff.2 hfraction
    refine ⟨_, ?_, isNearest_places _ _⟩
    have hempty : (whole.isEmpty && fraction.isEmpty) = false := by
      cases whole with
      | nil => exact List.isEmpty_eq_false_iff.2 hne
      | cons => rfl
    have hbound := places_within_bound (Nat.le_add_left fraction.length whole.length)
    simp only [nearest?, htake, hdrop, htake', hdrop', exponent?, hempty, Bool.false_eq_true,
      if_false, Option.map_some, hbound]

end RandomTables.Decimal
