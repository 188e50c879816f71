import RandomTables.Text.Radix

/-! # Reading decimals as floats -/

namespace RandomTables.Decimal

/-- The exponent behind the digits of a number. -/
def exponent? : Text → Option Int
  | [] => some 0
  | e :: t =>
    if e == 'e' || e == 'E' then
      match t with
      | '-' :: digits => (Text.radixNumber? 10 digits).map fun n => Int.neg n
      | '+' :: digits | digits => (Text.radixNumber? 10 digits).map Int.ofNat
    else none

/-- The float nearest to a decimal number without a sign. The point and the exponent are
optional, and digits may be missing on one side of the point. -/
def nearest? (t : Text) : Option Float :=
  let whole := t.takeWhile Char.isDigit
  let rest := t.dropWhile Char.isDigit
  let (fraction, rest) := match rest with
    | '.' :: rest => (rest.takeWhile Char.isDigit, rest.dropWhile Char.isDigit)
    | rest => ([], rest)
  if whole.isEmpty && fraction.isEmpty then none
  else (exponent? rest).map fun (exponent : Int) =>
    let exponent : Int := exponent - fraction.length
    -- Beyond this bound a number with so many digits overflows or vanishes.
    let bound : Int := 400 + (whole.length + fraction.length : Nat)
    let exponent := max (-bound) (min bound exponent)
    Float.ofScientific (Text.digitsValue (whole ++ fraction)) (exponent < 0) exponent.natAbs

end RandomTables.Decimal
