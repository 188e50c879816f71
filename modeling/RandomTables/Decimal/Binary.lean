import RandomTables.Text.Basic

/-! # Floats as exact numbers -/

namespace RandomTables.Decimal

/-- The magnitude `mantissa · 2 ^ exponent` of a finite float, with its sign. -/
structure Binary where
  negative : Bool
  mantissa : Nat
  exponent : Int

/-- The exact value of a finite float. -/
def Binary.ofFloat (x : Float) : Binary :=
  let bits := x.toBits.toNat
  let fraction := bits % (1 <<< 52)
  let biased := (bits >>> 52) % (1 <<< 11)
  { negative := 1 <<< 63 ≤ bits
    mantissa := if biased = 0 then fraction else (1 <<< 52) + fraction
    exponent := (max biased 1 : Nat) - 1075 }

/-- A fraction equal to `n · 2 ^ exponent`. -/
def scaleByTwo (n : Nat) (exponent : Int) : Nat × Nat :=
  (n <<< exponent.toNat, 1 <<< (-exponent).toNat)

end RandomTables.Decimal
