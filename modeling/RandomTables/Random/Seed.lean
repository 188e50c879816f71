import RandomTables.Text.Basic

/-! # Seeds from texts -/

namespace RandomTables.Random.Seed

/-- The little-endian number of some bytes. -/
def littleEndian (bytes : List UInt8) : UInt64 :=
  bytes.foldr (fun byte n => (n <<< 8) ||| byte.toUInt64) 0

/-- The two halves of the full product, folded together. -/
def foldedProduct (x y : UInt64) : UInt64 :=
  let product := x.toNat * y.toNat
  UInt64.ofNat product ^^^ UInt64.ofNat (product >>> 64)

def slice (bytes : List UInt8) (start length : Nat) : UInt64 :=
  littleEndian ((bytes.drop start).take length)

/-- Mixes whole chunks of sixteen bytes into a pair of words. -/
def mixChunks : (chunks : Nat) → List UInt8 → UInt64 × UInt64 → UInt64 × UInt64
  | 0, _, state => state
  | chunks + 1, bytes, (a, b) =>
    let mixed := foldedProduct (slice bytes 0 8 ^^^ a) (slice bytes 8 8 ^^^ 0xa4093822299f31d0)
    mixChunks chunks (bytes.drop 16) (b, mixed)

/-- The words that stand for some bytes. Short texts are read from both ends; long ones chunk by
chunk, and their last sixteen bytes once more. -/
def words (bytes : List UInt8) : UInt64 × UInt64 :=
  let n := bytes.length
  let a : UInt64 := 0x243f6a8885a308d3
  let b : UInt64 := 0x13198a2e03707344
  if n ≤ 16 then
    if 8 ≤ n then (a ^^^ slice bytes 0 8, b ^^^ slice bytes (n - 8) 8)
    else if 4 ≤ n then (a ^^^ slice bytes 0 4, b ^^^ slice bytes (n - 4) 4)
    else if 0 < n then
      (a ^^^ slice bytes 0 1, b ^^^ ((slice bytes (n - 1) 1 <<< 8) ||| slice bytes (n / 2) 1))
    else (a, b)
  else
    let (a, b) := mixChunks ((n - 1) / 16) bytes (a, b)
    (a ^^^ slice bytes (n - 16) 8, b ^^^ slice bytes (n - 8) 8)

/-- The 64-bit seed of a text. -/
def ofText (t : Text) : UInt64 :=
  let bytes := Text.bytes t
  let (a, b) := words bytes
  let hash := foldedProduct a b ^^^ UInt64.ofNat bytes.length
  let factor : UInt64 := 0xf1357aea2e62a9c5
  let state := (hash * factor + 0xff) * factor
  (state <<< 26) ||| (state >>> 38)

end RandomTables.Random.Seed
