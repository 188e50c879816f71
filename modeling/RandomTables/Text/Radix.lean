import RandomTables.Text.Basic

/-! # Numbers in other radices -/

namespace RandomTables.Text

/-- The value of a hexadecimal digit. -/
def hexValue? (c : Char) : Option Nat :=
  if c.isDigit then some (c.toNat - '0'.toNat)
  else if 'a' ≤ c && c ≤ 'f' then some (c.toNat - 'a'.toNat + 10)
  else if 'A' ≤ c && c ≤ 'F' then some (c.toNat - 'A'.toNat + 10)
  else none

/-- The number that a text writes in a radix of at most sixteen; it holds nothing but digits. -/
def radixNumber? (radix : Nat) (t : Text) : Option Nat :=
  if t.isEmpty then none
  else t.foldl (fun n c => do return (← n) * radix + (← (hexValue? c).filter (· < radix))) (some 0)

/-- The number written by the first `n` code points in hexadecimal. -/
def hexNumber? (n : Nat) (t : Text) : Option Nat :=
  if t.length < n then none else radixNumber? 16 (t.take n)

end RandomTables.Text
