import RandomTables.Text.Radix

/-! # What a tool leaves behind -/

namespace RandomTables.Tool

/-- The texts written to the two output streams, and the exit code. -/
structure Outcome where
  exit : UInt8 := 0
  output : Text := []
  errors : Text := []

/-- Texts of a tool are written as strings. -/
scoped instance : Coe String Text := ⟨String.toList⟩

/-- A line made of parts. -/
def line (parts : List Text) : Text := parts.flatten ++ ['\n']

/-- Success with some output. -/
def Outcome.success (output : Text) : Outcome := { output }

/-- Failure with some messages. -/
def Outcome.failure (errors : Text) : Outcome := { exit := 1, errors }

/-- A number as it is typed: decimal digits behind an optional plus sign, below 2^64. -/
def number? (t : Text) : Option Nat :=
  let digits := match t with
    | '+' :: digits => digits
    | digits => digits
  match Text.radixNumber? 10 digits with
  | some n => if n < UInt64.size then some n else none
  | none => none

end RandomTables.Tool
