import RandomTables.Random.Source

/-! # Draws

A draw takes words from a source. Some draws reject words until one fits, and such a draw has no
result on a source that never offers a fitting word.
-/

namespace RandomTables

/-- A computation that draws words; it has no result if one of its draws does not end. -/
abbrev Draw (σ : Type) := StateT σ Option

namespace Draw

variable {σ α : Type} [WordSource σ]

def word32 : Draw σ UInt32 := fun source => some (WordSource.next32 source)

def word64 : Draw σ UInt64 := fun source => some (WordSource.next64 source)

/-! ## Rejection -/

/-- Takes words until one is accepted. -/
def firstAccepted (next : Draw σ Nat) (accept : Nat → Option α) : Draw σ α := fun source =>
  match next source with
  | none => none
  | some (word, rest) =>
    match accept word with
    | some a => some (a, rest)
    | none => next |>.firstAccepted accept rest
partial_fixpoint

/-- How many words of this many bits there are. -/
def wordCount (bits : Nat) : Nat := 1 <<< bits

/-- Scales a word of `bits` bits to a number below `range`. The lower half of the product tells
whether the word belongs to an uneven rest, and such a word is rejected. -/
def scaled? (bits range zone word : Nat) : Option Nat :=
  let product := word * range
  if product % wordCount bits ≤ zone then some (product / wordCount bits) else none

/-- The zone for a range drawn once: the largest shift of the range that fits the word. -/
def shiftedZone (bits range : Nat) : Nat := (range <<< (bits - 1 - range.log2)) - 1

/-- The zone for a range drawn many times: the largest multiple of the range that fits the word. -/
def exactZone (bits range : Nat) : Nat := wordCount bits - 1 - wordCount bits % range

/-! ## Uniform numbers -/

/-- A number between two bounds, both included. The full range takes the word as it is. -/
def between64 (low high : UInt64) : Draw σ UInt64 :=
  let range := high - low + 1
  if range = 0 then word64
  else do
    let offset ← firstAccepted (UInt64.toNat <$> word64)
      (scaled? 64 range.toNat (shiftedZone 64 range.toNat))
    pure (low + UInt64.ofNat offset)

def between32 (low high : UInt32) : Draw σ UInt32 :=
  let range := high - low + 1
  if range = 0 then word32
  else do
    let offset ← firstAccepted (UInt32.toNat <$> word32)
      (scaled? 32 range.toNat (shiftedZone 32 range.toNat))
    pure (low + UInt32.ofNat offset)

/-- A place in a list of this length, from one 64-bit number. -/
def index64 (length : Nat) : Draw σ Nat := UInt64.toNat <$> between64 0 (UInt64.ofNat (length - 1))

/-- A place in a list of this length, from one 32-bit number if that suffices. -/
def index32 (length : Nat) : Draw σ Nat :=
  if length < UInt32.size then UInt32.toNat <$> between32 0 (UInt32.ofNat (length - 1))
  else index64 length

/-- A number below `total`, for one of many draws with the same total. -/
def below32 (total : Nat) : Draw σ Nat :=
  firstAccepted (UInt32.toNat <$> word32) (scaled? 32 total (exactZone 32 total))

/-! ## Coins and fractions -/

/-- True half of the time. -/
def coin : Draw σ Bool := do return (← word64) < 0x8000000000000000

/-- One of the 2^53 evenly spaced fractions from 0 up to, not including, 1. -/
def fraction : Draw σ Float := do return ((← word64) >>> 11).toFloat / 9007199254740992

end Draw

end RandomTables
