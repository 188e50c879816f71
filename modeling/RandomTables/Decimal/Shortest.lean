import RandomTables.Decimal.Binary

/-! # The shortest decimal of a float

The fewest digits that read back as the same float, and of those the nearest.
-/

namespace RandomTables.Decimal

/-- The number `digits · 10 ^ exponent`. -/
structure Shortest where
  digits : Nat
  exponent : Int

namespace Shortest

/-- The exponent of the first decimal digit of the positive fraction `num / den`. -/
def leadingExponent (num den : Nat) : Int :=
  if den ≤ num then ((Nat.toDigits 10 (num / den)).length : Int) - 1
  else
    let zeros := ((List.range 400).find? fun zeros => den ≤ num * Nat.pow 10 (zeros + 1)).getD 0
    Int.negSucc zeros

/-- The point of the grid of multiples of `10 ^ exponent` that is nearest to `value / den` and lies
between `low / den` and `high / den`, ends included if `closed`. -/
def nearestOnGrid? (low value high den : Nat) (closed : Bool) (exponent : Int) : Option Nat :=
  let up := Nat.pow 10 (-exponent).toNat
  let down := den * Nat.pow 10 exponent.toNat
  let inside (n : Nat) : Bool :=
    if closed then low * up ≤ n * down && n * down ≤ high * up
    else low * up < n * down && n * down < high * up
  let below := value * up / down
  let excess := value * up - below * down
  match inside below, inside (below + 1) with
  | true, true =>
    if 2 * excess < down || (2 * excess == down && below % 2 == 0) then some below
    else some (below + 1)
  | true, false => some below
  | false, true => some (below + 1)
  | false, false => none

/-- Takes trailing zeros off the digits. -/
def normalise : (fuel : Nat) → Shortest → Shortest
  | 0, s => s
  | fuel + 1, s =>
    if s.digits % 10 = 0 then normalise fuel ⟨s.digits / 10, s.exponent + 1⟩ else s

/-- The shortest decimal of `mantissa · 2 ^ exponent`, for a positive mantissa. The float below a
power of two is only half as far away as the one above. -/
def ofBinary (b : Binary) : Shortest :=
  let narrow := b.mantissa == 1 <<< 52 && b.exponent != -1074
  let (value, den) := scaleByTwo (4 * b.mantissa) (b.exponent - 2)
  let (low, _) := scaleByTwo (4 * b.mantissa - if narrow then 1 else 2) (b.exponent - 2)
  let (high, _) := scaleByTwo (4 * b.mantissa + 2) (b.exponent - 2)
  let leading := leadingExponent value den
  let found := (List.range 17).findSome? fun (more : Nat) =>
    let exponent := leading - more
    (nearestOnGrid? low value high den (b.mantissa % 2 == 0) exponent).map (⟨·, exponent⟩)
  normalise 400 (found.getD ⟨0, 0⟩)

/-! ## Text -/

/-- Numbers from 10^-5 to 10^16 are written with a point, and all others with an exponent. -/
def text (s : Shortest) : Text :=
  let digits := Text.ofNat s.digits
  let point := digits.length + s.exponent
  if 0 ≤ s.exponent ∧ point ≤ 16 then
    digits ++ List.replicate s.exponent.toNat '0' ++ ['.', '0']
  else if 0 < point ∧ point ≤ 16 then
    digits.take point.toNat ++ '.' :: digits.drop point.toNat
  else if -5 < point ∧ point ≤ 0 then
    '0' :: '.' :: List.replicate (-point).toNat '0' ++ digits
  else
    let power := point - 1
    digits.take 1 ++ (if digits.length = 1 then [] else '.' :: digits.drop 1) ++
      'e' :: (if power < 0 then ['-'] else []) ++ Text.ofNat power.natAbs

end Shortest

/-- The shortest text of a finite float. -/
def shortestText (x : Float) : Text :=
  let b := Binary.ofFloat x
  (if b.negative then ['-'] else []) ++
    if b.mantissa = 0 then ['0', '.', '0'] else (Shortest.ofBinary b).text

end RandomTables.Decimal
