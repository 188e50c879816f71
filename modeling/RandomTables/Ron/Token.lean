import RandomTables.Decimal.Nearest

/-! # The small parts of RON texts

RON is the notation of configuration files: `(max_depth: 4, seed: Some("x"))`.
-/

namespace RandomTables.Ron

/-- Reads the front of a text, and gives back the text behind it too. -/
abbrev Reader (α : Type) := Text → Option (α × Text)

/-! ## White space and comments -/

def isBlank (c : Char) : Bool := c == ' ' || c == '\t' || c == '\n' || c == '\r'

/-- The text behind a block comment; comments nest. -/
def comment? : (level : Nat) → Text → Option Text
  | 0, t => some t
  | _, [] => none
  | level + 1, '/' :: '*' :: t => comment? (level + 2) t
  | level + 1, '*' :: '/' :: t => comment? level t
  | level + 1, _ :: t => comment? (level + 1) t

def skipWithin? : (fuel : Nat) → Text → Option Text
  | 0, _ => none
  | fuel + 1, t =>
    match t.dropWhile isBlank with
    | '/' :: '/' :: t => skipWithin? fuel (t.dropWhile (· ≠ '\n'))
    | '/' :: '*' :: t => (comment? 1 t).bind (skipWithin? fuel)
    | '/' :: _ => none
    | t => some t

/-- The text behind white space and comments. -/
def skip? (t : Text) : Option Text := skipWithin? (t.length + 1) t

/-- Takes a comma, and tells whether there was one. -/
def comma? (t : Text) : Option (Bool × Text) := do
  match ← skip? t with
  | ',' :: t => return (true, ← skip? t)
  | t => return (false, t)

/-! ## Identifiers -/

def isNameStart (c : Char) : Bool := c.isAlpha || c == '_'

def isNameChar (c : Char) : Bool := c.isAlphanum || c == '_'

def isRawNameChar (c : Char) : Bool := isNameChar c || c == '.' || c == '+' || c == '-'

/-- Reads a name. A raw name starts with `r#` and may hold more characters. -/
def name? : Reader Text := fun t =>
  match t with
  | [] | ['r'] => none
  | 'r' :: '"' :: _ => none
  | 'r' :: '#' :: t =>
    let name := t.takeWhile isRawNameChar
    if name.isEmpty then none else some (name, t.drop name.length)
  | c :: _ =>
    let name := t.takeWhile isNameChar
    if !isNameStart c || name.length < (t.takeWhile isRawNameChar).length then none
    else some (name, t.drop name.length)

/-- The text behind a word that is not the start of a longer name. -/
def word? (word : String) (t : Text) : Option Text :=
  (Text.dropStart? word.toList t).filter fun rest => !rest.head?.any isNameChar

/-! ## Strings and characters -/

/-- Reads the digits of a code point in braces. -/
def codePoint? : Reader Char := fun t =>
  let digits := (t.take 6).takeWhile (· ≠ '}')
  match Text.hexNumber? digits.length t, t.drop digits.length with
  | some n, '}' :: rest =>
    if digits.isEmpty || !n.isValidChar then none else some (Char.ofNat n, rest)
  | _, _ => none

/-- Reads an escape from behind its backslash. -/
def escape? : Reader Char
  | '\'' :: t => some ('\'', t)
  | '"' :: t => some ('"', t)
  | '\\' :: t => some ('\\', t)
  | 'n' :: t => some ('\n', t)
  | 'r' :: t => some ('\r', t)
  | 't' :: t => some ('\t', t)
  | '0' :: t => some ('\x00', t)
  | 'x' :: t => (Text.hexNumber? 2 t).map fun n => (Char.ofNat n, t.drop 2)
  | 'u' :: '{' :: t => codePoint? t
  | _ => none

/-- Reads a string from behind its opening quote. -/
def stringFrom? : (fuel : Nat) → Reader Text
  | 0, _ => none
  | _, [] => none
  | _ + 1, '"' :: t => some ([], t)
  | fuel + 1, '\\' :: t => do
    let (c, t) ← escape? t
    let (text, t) ← stringFrom? fuel t
    return (c :: text, t)
  | fuel + 1, c :: t => do
    let (text, t) ← stringFrom? fuel t
    return (c :: text, t)

/-- The text before `ending` and the text behind it. -/
def cutAtText? (ending : Text) : Reader Text
  | [] => none
  | c :: t =>
    match Text.dropStart? ending (c :: t) with
    | some rest => some ([], rest)
    | none => (cutAtText? ending t).map fun (text, rest) => (c :: text, rest)

/-- Reads a string, with escapes or raw. -/
def string? : Reader Text
  | '"' :: t => stringFrom? (t.length + 1) t
  | 'r' :: t =>
    let hashes := t.takeWhile (· == '#')
    match t.drop hashes.length with
    | '"' :: t => cutAtText? ('"' :: hashes) t
    | _ => none
  | _ => none

/-- Reads a character from behind its opening quote. -/
def char? : Reader Char
  | '\\' :: t =>
    match escape? t with
    | some (c, '\'' :: t) => some (c, t)
    | _ => none
  | '\'' :: _ => none
  | c :: '\'' :: t => some (c, t)
  | _ => none

/-! ## Numbers and truth values -/

def isIntChar (c : Char) : Bool := (Text.hexValue? c).isSome || c == '_'

def isFloatChar (c : Char) : Bool :=
  c.isDigit || c == 'e' || c == 'E' || c == '.' || c == '+' || c == '-' || c == '_'

/-- Reads a whole number below a bound, without a sign. Underscores may separate its digits. -/
def natural? (bound : Nat) : Reader Nat := fun t =>
  let (radix, t) := match t with
    | '0' :: 'x' :: t => (16, t)
    | '0' :: 'o' :: t => (8, t)
    | '0' :: 'b' :: t => (2, t)
    | t => (10, t)
  let digits := t.takeWhile isIntChar
  if digits.isEmpty || digits.head? == '_' then none
  else do
    let n ← Text.radixNumber? radix (digits.filter (· ≠ '_'))
    if n < bound then return (n, t.drop digits.length) else none

/-- Takes the sign of a number. -/
def signed : Text → Option Char × Text
  | '+' :: t => (some '+', t)
  | '-' :: t => (some '-', t)
  | t => (none, t)

def float? : Reader Float := fun t =>
  let run := t.takeWhile isFloatChar
  let (sign, digits) := signed run
  (Decimal.nearest? digits).map fun x =>
    (if sign == some '-' then -x else x, t.drop run.length)

/-- Reads a truth value, whatever follows. -/
def bool? : Reader Bool := fun t =>
  match Text.dropStart? "true".toList t with
  | some rest => some (true, rest)
  | none => (Text.dropStart? "false".toList t).map (false, ·)

/-! ## Values that may be missing -/

/-- Reads `None`, or a value in `Some`. Where that is implicit, `Some` and its parentheses may be
left out. -/
def option? {α : Type} (implicit : Bool) (value : Reader α) : Reader (Option α) := fun t =>
  let bare := fun t => if implicit then (value t).map fun (a, rest) => (some a, rest) else none
  match Text.dropStart? "None".toList t, Text.dropStart? "Some".toList t with
  | some rest, _ => some (none, rest)
  | none, none => bare t
  | none, some rest => do
    match ← skip? rest with
    | '(' :: rest => do
      let (a, rest) ← value (← skip? rest)
      match ← comma? rest with
      | (_, ')' :: rest) => return (some a, rest)
      | _ => none
    | rest => bare rest

/-! ## Entries -/

/-- Reads a key and the value behind its colon. -/
def entry? {α β : Type} (key : Reader α) (value : α → Reader β) : Reader β := fun t => do
  let (a, rest) ← key t
  match ← skip? rest with
  | ':' :: rest => value a (← skip? rest)
  | _ => none

/-- Reads what stands before an end mark, one element after the other. Between two of them a comma
is needed, and one may follow the last. -/
def elementsWithin? {α : Type} (element : α → Reader α) (stop : Char) :
    (fuel : Nat) → (mayFollow : Bool) → α → Reader α
  | 0, _, _, _ => none
  | fuel + 1, mayFollow, a, t => do
    match ← skip? t with
    | [] => none
    | c :: rest =>
      if c == stop then return (a, rest)
      else if !mayFollow then none
      else do
        let (a, rest) ← element a (c :: rest)
        let (comma, rest) ← comma? rest
        elementsWithin? element stop fuel comma a rest

def elements? {α : Type} (element : α → Reader α) (stop : Char) (start : α) : Reader α := fun t =>
  elementsWithin? element stop (t.length + 1) true start t

end RandomTables.Ron
