import RandomTables.Random.Draw
import RandomTables.Text.Basic

/-! # Weighted entries

A list entry may end in its weight: `sword ^2`.
-/

namespace RandomTables

structure Weighted where
  value : Text
  weight : Float

namespace Weighted

/-! ## Reading -/

/-- The text before the last caret, and the text behind it. -/
def cutAtLastCaret? : Text → Option (Text × Text)
  | [] => none
  | c :: t =>
    match cutAtLastCaret? t with
    | some (before, number) => some (c :: before, number)
    | none => if c = '^' then some ([], t) else none

/-- ASCII digits, at least one, with at most one point among them. -/
def isDecimal (t : Text) : Bool :=
  t.all (fun c => c.isDigit || c == '.') && t.any Char.isDigit && t.count '.' ≤ 1

/-- The float nearest to a decimal number. -/
def decimalValue (t : Text) : Float :=
  Float.ofScientific (Text.digitsValue (t.filter (· ≠ '.'))) true
    ((t.dropWhile (· ≠ '.')).length - 1)

/-- Takes the weight off an entry. An entry without a well-formed weight is its own value and
weighs one. -/
def read (raw : Text) : Weighted :=
  match cutAtLastCaret? (Text.trimEnd raw) with
  | some (before, number) =>
    if before.getLast?.any Text.isBlank && isDecimal number then
      ⟨Text.trimEnd before, decimalValue number⟩
    else ⟨raw, 1⟩
  | none => ⟨raw, 1⟩

/-- The text of an entry without its weight. -/
def strip (raw : Text) : Text := (read raw).value

/-! ## Choosing -/

def total (items : List Weighted) : Float := items.foldl (fun sum item => sum + item.weight) 0

/-- The first item that uses up the remainder. -/
def crossing? (remaining : Float) : List Weighted → Option Weighted
  | [] => none
  | item :: rest =>
    let remaining := remaining - item.weight
    if remaining ≤ 0 then some item else crossing? remaining rest

/-- Picks an item with a chance proportional to its weight. Where the total is no positive finite
number, and where no item uses up the remainder, the last item is picked. -/
def choose {σ : Type} [WordSource σ] (items : List Weighted) : Draw σ (Option Weighted) :=
  match items.getLast? with
  | none => pure none
  | some last =>
    let sum := total items
    if sum.isNaN || sum ≤ 0 || sum.isInf then pure (some last)
    else do
      let share ← Draw.fraction
      pure (some ((crossing? (share * sum) items).getD last))

/-- Picks from raw entries and takes the weight off the pick. -/
def chooseText {σ : Type} [WordSource σ] (entries : List Text) : Draw σ (Option Text) := do
  return (← choose (entries.map read)).map (·.value)

end Weighted

end RandomTables
