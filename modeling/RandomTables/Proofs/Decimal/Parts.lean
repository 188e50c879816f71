import Mathlib

/-! # The parts of a float

A float is a zero, a mantissa with an exponent, an infinity or not a number. Its 64 bits and these
parts say the same, so the order and the arithmetic can be read off the parts.
-/

namespace RandomTables.Decimal

open Float Float.Model Float.Model.UnpackedFloat

/-- What a float is made of. -/
def parts (x : Float) : UnpackedFloat := x.toModel.unpack

/-- The float made of these parts. -/
def ofParts (x : UnpackedFloat) : Float := .ofModel (Model.pack x)

theorem ofParts_parts (x : Float) : ofParts (parts x) = x := by
  rw [← Float.toBits_inj]
  show UInt64.ofBitVec (UnpackedFloat.pack .binary64
    (UnpackedFloat.unpack .binary64 x.toModel.toBits.toBitVec)) = x.toModel.toBits
  rw [pack_unpack_of_valid x.toModel.valid (by decide)]

theorem parts_ofParts_zero (s : Sign) : parts (ofParts (.zero s)) = .zero s := unpack_packedZero

theorem parts_ofParts_infinity (s : Sign) : parts (ofParts (.infinity s)) = .infinity s := by
  cases s <;> rfl

/-! ## Mantissas and exponents -/

theorem exponentBias_eq :
    (Format.binary64.exponentBias : Int) + Format.binary64.mantissaBitsWithoutImplicit = 1075 := rfl

/-- The mantissa has all its 53 bits, or the exponent is the least one. -/
structure IsCanonical (mantissa : Nat) (exponent : Int) : Prop where
  lt : mantissa < 2 ^ 53
  le : -1074 ≤ exponent
  full : 2 ^ 52 ≤ mantissa ∨ exponent = -1074

theorem toNat_one_append (m : BitVec 52) : (1#1 ++ m).toNat = 2 ^ 52 + m.toNat := by
  rw [BitVec.toNat_append, ← Nat.shiftLeft_add_eq_or_of_lt m.isLt]
  rfl

variable {s : Sign} {m : Nat} {e : Int}

theorem isCanonical_parts {x : Float} {h : 0 < m} (hx : parts x = .finite s m e h) :
    IsCanonical m e := by
  unfold parts Model.unpack UnpackedFloat.unpack at hx
  generalize x.toModel.toBits.toBitVec = bits at hx
  have hmantissa : (@unpackMantissa .binary64 bits).toNat < 2 ^ 52 := (unpackMantissa _).isLt
  dsimp only at hx
  split at hx
  · split at hx <;> cases hx
  · split at hx
    · next hfirst =>
      split at hx
      · cases hx
      · cases hx
        rw [hfirst]
        exact ⟨by omega, by decide, .inr (by decide)⟩
    · next hfirst =>
      cases hx
      have hpos : (@unpackExponent .binary64 bits).toNat ≠ 0 :=
        fun h0 => hfirst (BitVec.eq_of_toNat_eq h0)
      rw [exponentBias_eq]
      have hvalue : (1#1 ++ @unpackMantissa .binary64 bits).toNat =
        2 ^ 52 + (@unpackMantissa .binary64 bits).toNat := toNat_one_append _
      rw [hvalue]
      exact ⟨by omega, by omega, .inl (by omega)⟩

theorem pack_finite (h : 0 < m) (hcanonical : IsCanonical m e) :
    UnpackedFloat.pack .binary64 (.finite s m e h) =
      if 971 < e then packedInfinity .binary64 s
      else packComponents .binary64 s
        (BitVec.ofNat 11 (if 2 ^ 52 ≤ m then (e + 1075).toNat else 0)) (BitVec.ofNat 52 m) := by
  obtain ⟨hlt, hle, -⟩ := hcanonical
  have hlog : m.log2 + 1 = Format.binary64.mantissaBits ↔ 2 ^ 52 ≤ m := by
    rw [show Format.binary64.mantissaBits = 53 from rfl]
    constructor
    · intro hlog
      exact (Nat.le_log2 h.ne').1 (by omega)
    · intro hfull
      rw [(Nat.log2_eq_iff h.ne').2 ⟨hfull, hlt⟩]
  have hinfinite : 2 ^ Format.binary64.exponentBits ≤ (e + 1075).toNat + 1 ↔ 971 < e := by
    rw [show Format.binary64.exponentBits = 11 from rfl]
    omega
  rw [UnpackedFloat.pack, add_assoc, exponentBias_eq]
  simp only [hlog, hinfinite]
  split
  · rfl
  · split <;> rfl

theorem ne_of_toNat_ne {a b : BitVec 11} (h : a.toNat ≠ b.toNat) : a ≠ b :=
  fun hab => h (congrArg BitVec.toNat hab)

theorem parts_ofParts_finite (h : 0 < m) (hcanonical : IsCanonical m e) :
    parts (ofParts (.finite s m e h)) = if 971 < e then .infinity s else .finite s m e h := by
  show UnpackedFloat.unpack .binary64 (UnpackedFloat.pack .binary64 _) = _
  rw [pack_finite h hcanonical]
  obtain ⟨hlt, hle, hfull⟩ := hcanonical
  split
  · cases s <;> rfl
  · have hsign (exponent : BitVec 11) (mantissa : BitVec 52) : Sign.ofBitVec (unpackSign
        (packComponents .binary64 s exponent mantissa)) = s := by
      rw [unpackSign_packComponents, Sign.ofBitVec_toBitVec]
    have hbias : (Format.binary64.exponentBias : Int) = 1023 := rfl
    unfold UnpackedFloat.unpack
    simp only [unpackExponent_packComponents, unpackMantissa_packComponents, hsign]
    by_cases hnormal : 2 ^ 52 ≤ m
    · have hexponent : (BitVec.ofNat 11 (e + 1075).toNat).toNat = (e + 1075).toNat := by
        rw [BitVec.toNat_ofNat, Nat.mod_eq_of_lt (by omega)]
      have hlast : BitVec.ofNat 11 (e + 1075).toNat ≠ -1#11 := ne_of_toNat_ne (by
        rw [hexponent, show (-1#11).toNat = 2047 from rfl]
        omega)
      have hfirst : BitVec.ofNat 11 (e + 1075).toNat ≠ 0#11 := ne_of_toNat_ne (by
        rw [hexponent, show (0#11).toNat = 0 from rfl]
        omega)
      rw [if_pos hnormal, if_neg hlast, if_neg hfirst]
      congr 1
      · refine (toNat_one_append (BitVec.ofNat 52 m)).trans ?_
        rw [BitVec.toNat_ofNat]
        omega
      · rw [hexponent]
        omega
    · have hmantissa : (BitVec.ofNat 52 m).toNat = m := by
        rw [BitVec.toNat_ofNat, Nat.mod_eq_of_lt (Nat.lt_of_not_le hnormal)]
      have hne : BitVec.ofNat 52 m ≠ 0#52 := by
        intro h0
        rw [h0] at hmantissa
        exact h.ne hmantissa
      rw [if_neg hnormal, if_neg (by decide), if_pos rfl, dif_neg hne]
      congr 1
      rw [show (BitVec.ofNat 11 0).toNat = 0 from rfl]
      omega

/-! ## Comparisons with zero -/

theorem le_zero_iff (x : Float) : x ≤ 0 ↔ UnpackedFloat.le (parts x) (.zero .positive) :=
  decide_eq_true_iff

theorem beq_zero_iff (x : Float) : x == 0 ↔ ∃ s, parts x = .zero s := by
  show UnpackedFloat.beq (parts x) (.zero .positive) ↔ _
  cases parts x with
  | zero s => exact iff_of_true rfl ⟨s, rfl⟩
  | notANumber => exact iff_of_false Bool.false_ne_true (by rintro ⟨_, h⟩; cases h)
  | infinity s =>
    refine iff_of_false ?_ (by rintro ⟨_, h⟩; cases h)
    cases s <;> exact Bool.false_ne_true
  | finite s m e h =>
    refine iff_of_false ?_ (by rintro ⟨_, h⟩; cases h)
    cases s <;> exact Bool.false_ne_true

theorem le_zero_of_parts {x : Float} {s : Sign} (hx : parts x = .zero s) : x ≤ 0 := by
  rw [le_zero_iff, hx]
  rfl

theorem sub_le_zero_iff {x w : Float} (hw : w == 0) : x - w ≤ 0 ↔ x ≤ 0 := by
  obtain ⟨s, hw⟩ := (beq_zero_iff w).1 hw
  have hsub : x - w = ofParts (UnpackedFloat.sub .binary64 (parts x) (.zero s)) := by
    rw [← hw]
    rfl
  have hsame (h : UnpackedFloat.sub .binary64 (parts x) (.zero s) = parts x) :
      x - w ≤ 0 ↔ x ≤ 0 := by
    rw [hsub, h, ofParts_parts]
  cases hx : parts x with
  | notANumber => exact hsame (by rw [hx, UnpackedFloat.sub])
  | infinity s' => exact hsame (by rw [hx]; rfl)
  | finite s' m e h => exact hsame (by rw [hx]; rfl)
  | zero s' =>
    -- The sign of the difference may be another one, but it is a zero.
    have hzero : ∃ t, parts (x - w) = .zero t := by
      rw [hsub, hx, UnpackedFloat.sub]
      split <;> exact ⟨_, parts_ofParts_zero _⟩
    obtain ⟨t, ht⟩ := hzero
    exact iff_of_true (le_zero_of_parts ht) (le_zero_of_parts hx)

theorem exists_parts_of_pos {x : Float} (hpos : 0 < x) (hfinite : x.isFinite) :
    ∃ m e h, parts x = .finite .positive m e h := by
  have hlt : UnpackedFloat.lt (.zero .positive) (parts x) := of_decide_eq_true hpos
  have hfinite : (parts x).isFinite := hfinite
  cases hx : parts x with
  | notANumber => rw [hx] at hfinite; cases hfinite
  | infinity s => rw [hx] at hfinite; cases hfinite
  | zero s => rw [hx] at hlt; cases hlt
  | finite s m e h =>
    cases s with
    | positive => exact ⟨m, e, h, rfl⟩
    | negative => rw [hx] at hlt; cases hlt

theorem regular_of_pos {x : Float} (hpos : 0 < x) (hfinite : x.isFinite) :
    (x.isNaN || x ≤ 0 || x.isInf) = false := by
  obtain ⟨m, e, h, hx⟩ := exists_parts_of_pos hpos hfinite
  have hnan : x.isNaN = (parts x).isNaN := rfl
  have hinf : x.isInf = (parts x).isInf := rfl
  have hle : ¬ x ≤ 0 := by
    rw [le_zero_iff, hx]
    exact Bool.false_ne_true
  rw [hnan, hinf, hx, decide_eq_false hle]
  rfl

theorem zero_mul_le_zero {x : Float} (hpos : 0 < x) (hfinite : x.isFinite) : 0 * x ≤ 0 := by
  obtain ⟨m, e, h, hx⟩ := exists_parts_of_pos hpos hfinite
  have hzero : parts (0 * x) = .zero .positive := by
    show parts (ofParts (UnpackedFloat.mul .binary64 (.zero .positive) (parts x))) = _
    rw [hx]
    exact parts_ofParts_zero .positive
  exact le_zero_of_parts hzero

end RandomTables.Decimal
