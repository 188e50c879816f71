import RandomTables.Decimal.Binary

/-! # Decimals of a fixed number of places -/

namespace RandomTables.Decimal

/-- The whole number nearest to `num / den`; of two the even one. -/
def roundHalfEven (num den : Nat) : Nat :=
  let below := num / den
  let excess := num % den
  if 2 * excess < den ∨ (2 * excess = den ∧ below % 2 = 0) then below else below + 1

/-- The text of a finite float that is not negative, rounded to some decimal places. -/
def roundedText (places : Nat) (x : Float) : Text :=
  let b := Binary.ofFloat x
  let (num, den) := scaleByTwo b.mantissa b.exponent
  let unit := Nat.pow 10 places
  let n := roundHalfEven (num * unit) den
  let whole := Text.ofNat (n / unit)
  if places = 0 then whole
  else
    let fraction := Text.ofNat (n % unit)
    whole ++ '.' :: List.replicate (places - fraction.length) '0' ++ fraction

end RandomTables.Decimal
