/-! # Word sources

Every random decision comes from a stream of 32-bit and 64-bit words. A source is anything that
hands out the next word together with the source that is left.
-/

namespace RandomTables

class WordSource (σ : Type) where
  next32 : σ → UInt32 × σ
  next64 : σ → UInt64 × σ

/-- A step of a linear congruential generator. -/
def congruentialStep (increment state : UInt64) : UInt64 := state * 6364136223846793005 + increment

namespace Random

/-! ## Scripted words -/

/-- A list of words, then the states of a congruential generator. -/
structure Script where
  words : List UInt64
  state : UInt64

namespace Script

def next64 (script : Script) : UInt64 × Script :=
  match script.words with
  | word :: words => (word, { script with words })
  | [] =>
    let state := congruentialStep 1442695040888963407 script.state
    (state, { script with state })

/-- The upper half of a 64-bit word. -/
def next32 (script : Script) : UInt32 × Script :=
  let (word, script) := script.next64
  ((word >>> 32).toUInt32, script)

instance : WordSource Script where
  next32 := next32
  next64 := next64

end Script

/-! ## Counting draws -/

/-- A source that counts the words it has handed out. -/
structure Counted (σ : Type) where
  source : σ
  drawn32 : Nat := 0
  drawn64 : Nat := 0

instance {σ : Type} [WordSource σ] : WordSource (Counted σ) where
  next32 counted :=
    let (word, source) := WordSource.next32 counted.source
    (word, { counted with source, drawn32 := counted.drawn32 + 1 })
  next64 counted :=
    let (word, source) := WordSource.next64 counted.source
    (word, { counted with source, drawn64 := counted.drawn64 + 1 })

end Random

end RandomTables
