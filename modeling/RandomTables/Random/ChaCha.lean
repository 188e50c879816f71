import RandomTables.Random.Source

/-! # The seeded word source

The keystream of ChaCha with twelve rounds. The key comes from a 64-bit seed.
-/

namespace RandomTables.Random

/-- A key, the number of the next block, and the words left of the block before it. -/
structure ChaCha where
  key : Vector UInt32 8
  block : UInt64
  pending : List UInt32

namespace ChaCha

def rotateLeft (x distance : UInt32) : UInt32 := (x <<< distance) ||| (x >>> (32 - distance))

/-! ## The block function -/

abbrev State := Vector UInt32 16

def quarterRound (s : State) (a b c d : Fin 16) : State :=
  let s := s.set a (s[a] + s[b])
  let s := s.set d (rotateLeft (s[d] ^^^ s[a]) 16)
  let s := s.set c (s[c] + s[d])
  let s := s.set b (rotateLeft (s[b] ^^^ s[c]) 12)
  let s := s.set a (s[a] + s[b])
  let s := s.set d (rotateLeft (s[d] ^^^ s[a]) 8)
  let s := s.set c (s[c] + s[d])
  s.set b (rotateLeft (s[b] ^^^ s[c]) 7)

/-- The columns, then the diagonals. -/
def quarters : List (Fin 16 × Fin 16 × Fin 16 × Fin 16) :=
  [(0, 4, 8, 12), (1, 5, 9, 13), (2, 6, 10, 14), (3, 7, 11, 15),
   (0, 5, 10, 15), (1, 6, 11, 12), (2, 7, 8, 13), (3, 4, 9, 14)]

def doubleRound (s : State) : State :=
  quarters.foldl (fun s (a, b, c, d) => quarterRound s a b c d) s

/-- Constants, key, block number, and an empty nonce. -/
def initial (key : Vector UInt32 8) (block : UInt64) : State :=
  let constants : Vector UInt32 4 := #v[0x61707865, 0x3320646e, 0x79622d32, 0x6b206574]
  let counter : Vector UInt32 4 := #v[block.toUInt32, (block >>> 32).toUInt32, 0, 0]
  constants ++ key ++ counter

def blockWords (key : Vector UInt32 8) (block : UInt64) : List UInt32 :=
  let start := initial key block
  let mixed := (List.range 6).foldl (fun s _ => doubleRound s) start
  (Vector.zipWith (· + ·) mixed start).toList

/-! ## The stream -/

def next32 (source : ChaCha) : UInt32 × ChaCha :=
  match source.pending with
  | word :: pending => (word, { source with pending })
  | [] =>
    match blockWords source.key source.block with
    | word :: pending => (word, { source with block := source.block + 1, pending })
    | [] => (0, source)

/-- Two words of the stream, the lower half first. -/
def next64 (source : ChaCha) : UInt64 × ChaCha :=
  let (low, source) := source.next32
  let (high, source) := source.next32
  ((high.toUInt64 <<< 32) ||| low.toUInt64, source)

instance : WordSource ChaCha where
  next32 := next32
  next64 := next64

/-! ## The key of a seed -/

/-- The key words of a seed: states of a congruential generator, shifted and rotated by their own
upper bits. -/
def keyWords : (count : Nat) → (state : UInt64) → List UInt32
  | 0, _ => []
  | count + 1, state =>
    let state := congruentialStep 11634580027462260723 state
    let word := (((state >>> 18) ^^^ state) >>> 27).toUInt32
    let turn := (state >>> 59).toUInt32
    ((word >>> turn) ||| (word <<< ((32 - turn) % 32))) :: keyWords count state

theorem keyWords_length (count : Nat) (state : UInt64) : (keyWords count state).length = count := by
  induction count generalizing state with
  | zero => rfl
  | succ count ih => simp [keyWords, ih]

def ofSeed (seed : UInt64) : ChaCha where
  key := ⟨(keyWords 8 seed).toArray, by simp [keyWords_length]⟩
  block := 0
  pending := []

end ChaCha

/-! ## Either source -/

/-- A seeded or a scripted source. -/
inductive Source where
  | seeded (source : ChaCha)
  | scripted (script : Script)

namespace Source

def next32 : Source → UInt32 × Source
  | .seeded source => let (word, source) := source.next32; (word, .seeded source)
  | .scripted script => let (word, script) := script.next32; (word, .scripted script)

def next64 : Source → UInt64 × Source
  | .seeded source => let (word, source) := source.next64; (word, .seeded source)
  | .scripted script => let (word, script) := script.next64; (word, .scripted script)

instance : WordSource Source where
  next32 := next32
  next64 := next64

end Source

end RandomTables.Random
