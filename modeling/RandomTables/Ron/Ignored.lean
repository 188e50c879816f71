import RandomTables.Ron.Token

/-! # Ignored values

A field with an unknown name may hold any value. The value is read for its form alone, and dropped.
-/

namespace RandomTables.Ron

def floatWords : List String := ["inf", "+inf", "-inf", "NaN", "+NaN", "-NaN"]

/-- Drops a number of any size. One that is no whole number of 64 bits counts as a float. -/
def ignoredNumber? (t : Text) : Option Text :=
  let (sign, digits) := signed t
  let isFloat := (digits.takeWhile isIntChar).length < (digits.takeWhile isFloatChar).length
  let bound := match sign with
    | none => 1 <<< 64
    | some '-' => (1 <<< 63) + 1
    | some _ => 1 <<< 63
  match if isFloat then none else natural? bound digits with
  | some (_, rest) => some rest
  | none => (floatWords.findSome? (word? · t)).or ((float? t).map (·.2))

/-- Parentheses hold fields and not a tuple: a name and a colon come first. -/
def startsField? (t : Text) : Option Bool :=
  match name? t with
  | none => some false
  | some (_, t) => do
    match ← skip? t with
    | [] => none
    | c :: _ => return c == ':'

/-- Drops what stands in brackets. -/
def ignoredGroup? (value : Reader Unit) : Reader Unit
  | '(' :: t => do
    let t ← skip? t
    if ← startsField? t then elements? (fun _ => entry? name? fun _ => value) ')' () t
    else elements? (fun _ => value) ')' () t
  | '[' :: t => elements? (fun _ => value) ']' () t
  | '{' :: t => elements? (fun _ => entry? value fun _ => value) '}' () t
  | _ => none

/-- Drops a value, given how to drop one that starts with `Some` and a group. -/
def ignoredWith? (option group : Reader Unit) : Reader Unit := fun t =>
  if let some rest := ["true", "false", "None", "inf", "NaN"].findSome? (word? · t) then
    some ((), rest)
  else if (word? "Some" t).isSome then option t
  else if let some (_, rest) := name? t then do
    match ← skip? rest with
    | '(' :: rest => group ('(' :: rest)
    | rest => return ((), rest)
  else
    match t with
    | [] => none
    | '(' :: ')' :: rest => some ((), rest)
    | '\'' :: rest => (char? rest).map fun (_, rest) => ((), rest)
    | c :: _ =>
      if c == '"' || c == 'r' then (string? t).map fun (_, rest) => ((), rest)
      else if c.isDigit || c == '+' || c == '-' || c == '.' then (ignoredNumber? t).map ((), ·)
      else group t

/-- Drops a value. A group takes two levels of the room, one for itself and one for each of its
elements, and `Some` takes one. -/
def ignored? (implicit : Bool) : (room : Nat) → Reader Unit
  | 0, t => ignoredWith? (fun _ => none) (fun _ => none) t
  | 1, t => ignoredWith? (some? (ignored? implicit 0)) (ignoredGroup? fun _ => none) t
  | room + 2, t =>
    ignoredWith? (some? (ignored? implicit (room + 1))) (ignoredGroup? (ignored? implicit room)) t
where
  some? (value : Reader Unit) : Reader Unit := fun t =>
    (option? implicit value t).map fun (_, rest) => ((), rest)

end RandomTables.Ron
