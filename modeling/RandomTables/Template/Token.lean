import RandomTables.Template.Parse

/-! # References in the text of a template

One pass over the text, without building a tree, for tools that show where each reference stands.
-/

namespace RandomTables

/-- A reference with its place in the template. -/
structure Token where
  reference : Reference
  /-- The text of the reference, with its brackets and the clauses behind them. -/
  raw : Text
  start : Nat

namespace Token

/-- The offset behind the last code point of the reference. -/
def stop (token : Token) : Nat := token.start + token.raw.length

/-- The text up to the end of an operand: an operator or a closing bracket at the depth where the
text starts. -/
def operandRest : (depth : Nat) → Text → Text
  | _, [] => []
  | depth, c :: t =>
    if Bracket.isOpening c then c :: operandRest (depth + 1) t
    else if Bracket.isClosing c then
      match depth with
      | 0 => []
      | depth + 1 => c :: operandRest depth t
    else if (c == '&' || c == '|') && depth == 0 then []
    else c :: operandRest depth t

/-- The clauses right behind a reference that opens an operand. -/
def clauseSuffix (rest : Text) : Text :=
  let suffix := Text.trimEnd (operandRest 0 rest)
  if Clause.isSuffix suffix then suffix else []

/-- An operand can start behind this code point. -/
def opensOperand : Option Char → Bool
  | some c => c == '{' || c == '&' || c == '|' || c == '('
  | none => false

/-- How far the braces that open here reach, if they are matched. -/
def bracedLength (t : Text) : Nat :=
  match t with
  | '{' :: t =>
    match Bracket.enclosed? '{' '}' 0 t with
    | some (body, _) => body.length + 2
    | none => 0
  | _ => 0

/-- Lists the references of a text that starts at `position`. Its first `braced` code points are
inside matched braces, and `last` is the last code point before it that is not white space. -/
def scan (position braced : Nat) (last : Option Char) : Text → List Token
  | [] => []
  | c :: t =>
    let braced := max braced (bracedLength (c :: t))
    match _h : if c = '[' then Bracket.enclosed? '[' ']' 0 t else none with
    | none => scan (position + 1) (braced - 1) (Text.lastSolid last [c]) t
    | some (body, rest) =>
      let suffix := if braced > 0 && opensOperand last then clauseSuffix rest else []
      let raw := '[' :: body ++ ']' :: suffix
      let later := scan (position + raw.length) (braced - raw.length) (Text.lastSolid last raw)
        (rest.drop suffix.length)
      match Reference.parse? (body ++ suffix) with
      | some reference => { reference, raw, start := position } :: later
      | none => later
termination_by t => t.length
decreasing_by
  · simp only [List.length_cons]; omega
  · split at _h
    · have := Bracket.enclosed?_length _h
      simp only [List.length_cons, List.length_drop]
      omega
    · simp at _h

end Token

/-- The references of a template, from left to right. -/
def tokens (template : Text) : List Token := Token.scan 0 0 none template

end RandomTables
