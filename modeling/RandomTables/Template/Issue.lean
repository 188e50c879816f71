import RandomTables.Template.Parse

/-! # Structural issues of a template -/

namespace RandomTables

inductive Issue where
  | unclosed (bracket : Char) (position : Nat)
  | unexpectedClose (bracket : Char) (position : Nat)
  | emptyReference (position : Nat)
  | nestedReference (raw : Text)
  | missingCount (raw : Text)
  | emptyExclusion (raw : Text)
  | reversedRange (min max : UInt64)
  | emptyOperand (raw : Text)
  deriving DecidableEq

namespace Issue

def message : Issue → Text
  | .unclosed bracket position =>
    "unclosed '".toList ++ bracket :: "' at position ".toList ++ Text.ofNat position
  | .unexpectedClose bracket position =>
    "unexpected '".toList ++ bracket :: "' at position ".toList ++ Text.ofNat position
  | .emptyReference position => "empty table reference at position ".toList ++ Text.ofNat position
  | .nestedReference raw =>
    "nested table reference inside '".toList ++ raw ++ "' is not supported".toList
  | .missingCount raw => "repetition without a count in '".toList ++ raw ++ ['\'']
  | .emptyExclusion raw => "empty exclusion in '".toList ++ raw ++ ['\'']
  | .reversedRange min max =>
    "number range '\x7b".toList ++ Text.ofNat min.toNat ++ '-' :: Text.ofNat max.toNat ++
      "\x7d' is reversed".toList
  | .emptyOperand raw => "empty operand in '\x7b".toList ++ raw ++ "\x7d'".toList

/-! ## Balance -/

/-- The brackets without a partner. Parentheses are soft: one that stands alone is prose, and a
closing square bracket or brace discards those opened inside. `stack` holds the brackets open
before `position`, the innermost first. -/
def balance : (position : Nat) → (stack : List (Char × Nat)) → Text → List Issue
  | _, stack, [] =>
    (stack.reverse.filter (·.1 != '(')).map fun (bracket, position) => .unclosed bracket position
  | position, stack, c :: t =>
    if Bracket.isOpening c then balance (position + 1) ((c, position) :: stack) t
    else if c = ')' then
      match stack with
      | ('(', _) :: below => balance (position + 1) below t
      | _ => balance (position + 1) stack t
    else if c = ']' ∨ c = '}' then
      match stack.dropWhile (·.1 == '(') with
      | (bracket, start) :: below =>
        if bracket = (if c = ']' then '[' else '{') then balance (position + 1) below t
        else .unexpectedClose c position :: balance (position + 1) ((bracket, start) :: below) t
      | [] => .unexpectedClose c position :: balance (position + 1) [] t
    else balance (position + 1) stack t

/-! ## Regions -/

/-- The clauses of a reference that lack their count or their word. -/
def clauses (raw : Text) : Text → List Issue
  | [] => []
  | c :: t =>
    if c = '*' ∧ (Repetition.read t).1.isNone then .missingCount raw :: clauses raw t
    else if c = '!' ∧ (Text.trim (t.takeWhile (!Clause.isMark ·))).isEmpty then
      .emptyExclusion raw :: clauses raw t
    else clauses raw t

/-- The issues of what stands between `[` and `]`. -/
def reference (position : Nat) (body : Text) : List Issue :=
  let raw := '[' :: body ++ [']']
  if body.contains '[' then [.nestedReference raw]
  else if (Reference.parse? body).isNone then [.emptyReference position]
  else clauses raw body

/-- A split on this operator leaves an operand empty. -/
def hasEmptyOperand (sep : Char) (body : Text) : Bool :=
  let parts := (Bracket.pieces sep 0 body).length
  parts > 1 && (Bracket.operands sep body).length < parts

/-- The issues of what stands between `{` and `}`. -/
def expression (body : Text) : List Issue :=
  if hasEmptyOperand '&' body || hasEmptyOperand '|' body then [.emptyOperand body]
  else
    match numberRange? (Text.trim body) with
    | some (min, max) => if max < min then [.reversedRange min max] else []
    | none => []

/-- The issues of the matched regions. The inside of braces is searched for more regions, the
inside of square brackets is not. -/
def regions (position : Nat) : Text → List Issue
  | [] => []
  | c :: t =>
    match _h : if c = '[' then Bracket.enclosed? '[' ']' 0 t else none with
    | some (body, rest) => reference position body ++ regions (position + body.length + 2) rest
    | none =>
      match if c = '{' then Bracket.enclosed? '{' '}' 0 t else none with
      | some (body, _) => expression body ++ regions (position + 1) t
      | none => regions (position + 1) t
termination_by t => t.length
decreasing_by
  · split at _h
    · have := Bracket.enclosed?_length _h
      simp only [List.length_cons]
      omega
    · simp at _h
  · simp only [List.length_cons]; omega
  · simp only [List.length_cons]; omega

end Issue

/-- The issues of a template: first those of balance, then those of its regions. -/
def issues (template : Text) : List Issue :=
  Issue.balance 0 [] template ++ Issue.regions 0 template

/-- The answer to a check of a template. -/
structure Report where
  valid : Bool
  errors : List Text
  deriving DecidableEq

def check (template : Text) : Report :=
  { valid := (issues template).isEmpty, errors := (issues template).map Issue.message }

end RandomTables
