import RandomTables.Template.Node

/-! # Clauses of a reference

The decorations behind the path: `!word`, `*N`, `*{N-M}` and `?`, in any order.
-/

namespace RandomTables

/-! ## Number ranges -/

/-- Reads `N-M`, both decimal and below 2^64, as written: the bounds keep their order. -/
def numberRange? (t : Text) : Option (UInt64 × UInt64) :=
  match Text.cutAt? (· == '-') t with
  | none => none
  | some (low, high) =>
    if low.isEmpty || high.isEmpty || !low.all Char.isDigit || !high.all Char.isDigit then none
    else
      let min := Text.digitsValue low
      let max := Text.digitsValue high
      if min < UInt64.size ∧ max < UInt64.size then some (UInt64.ofNat min, UInt64.ofNat max) else none

namespace Repetition

/-- No reference draws more often than this. -/
def limit : Nat := 1000

def clamp (count : Nat) : UInt32 := UInt32.ofNat (min count limit)

/-- Reads the count behind a `*`, and gives the text behind the count. A count in braces is used
up even if it is no range. -/
def read : Text → Option Repetition × Text
  | '{' :: t =>
    match Text.cutAt? (· == '}') t with
    | none => (none, '{' :: t)
    | some (body, rest) =>
      ((numberRange? body).map fun (min, max) => .range (clamp min.toNat) (clamp max.toNat), rest)
  | t =>
    let digits := t.takeWhile Char.isDigit
    if digits.isEmpty then (none, t)
    else (some (.fixed (clamp (Text.digitsValue digits))), t.dropWhile Char.isDigit)

end Repetition

/-! ## Clauses -/

inductive Clause where
  | optional
  | exclude (word : Text)
  | times (repetition : Repetition)

namespace Clause

/-- The code points that end the path of a reference. -/
def isMark (c : Char) : Bool := c == '!' || c == '?' || c == '*' || c == '^'

end Clause

theorem Repetition.read_length (t : Text) : (Repetition.read t).2.length ≤ t.length := by
  unfold Repetition.read
  split
  · split
    · exact Nat.le_refl _
    · next h =>
      have := Text.cutAt?_length h
      simp only [List.length_cons]
      omega
  · dsimp only
    split
    · exact Nat.le_refl _
    · exact (List.dropWhile_sublist _).length_le

namespace Clause

/-- Reads clauses. A `^` ends them, and whatever is no clause is skipped. -/
def readAll : Text → List Clause
  | [] => []
  | '?' :: t => .optional :: readAll t
  | '!' :: t =>
    let word := Text.trim (t.takeWhile (!isMark ·))
    let rest := readAll (t.dropWhile (!isMark ·))
    if word.isEmpty then rest else .exclude word :: rest
  | '*' :: t =>
    match Repetition.read t with
    | (none, _) => readAll (Repetition.read t).2
    | (some repetition, _) => .times repetition :: readAll (Repetition.read t).2
  | '^' :: _ => []
  | _ :: t => readAll t
termination_by t => t.length
decreasing_by
  all_goals simp only [List.length_cons]
  all_goals first
    | omega
    | exact Nat.lt_succ_of_le (List.dropWhile_sublist _).length_le
    | exact Nat.lt_succ_of_le (Repetition.read_length _)

def apply (ref : Reference) : Clause → Reference
  | .optional => { ref with isOptional := true }
  | .exclude word => { ref with exclusions := ref.exclusions ++ [word] }
  | .times repetition => { ref with repetition := repetition }

/-- Braces stand only around a count, right behind a `*`, and no other bracket but a parenthesis
occurs. -/
def bracesAreCounts : (behindStar inCount : Bool) → Text → Bool
  | _, inCount, [] => !inCount
  | _, true, c :: t => bracesAreCounts false (c != '}') t
  | behindStar, false, c :: t =>
    if c == '[' || c == ']' || c == '}' then false
    else if c == '{' then behindStar && bracesAreCounts false true t
    else bracesAreCounts (c == '*') false t

/-- The text behind a bracketed reference can be read as its clauses. -/
def isSuffix (t : Text) : Bool :=
  match t with
  | [] => false
  | c :: _ => isMark c && bracesAreCounts false false t

end Clause

end RandomTables
