import RandomTables.Template.Reference

/-! # Reading templates

Reading never fails: what is no well-formed region stays literal text.
-/

namespace RandomTables

/-! ## Regions -/

/-- A template is cut into literal code points and matched regions. -/
inductive Piece where
  | literal (c : Char)
  | bracketed (body : Text)
  | braced (body : Text)

namespace Piece

def raw : Piece → Text
  | .literal c => [c]
  | .bracketed body => '[' :: body ++ [']']
  | .braced body => '{' :: body ++ ['}']

/-- The pieces of a template, from left to right. A bracket without a match is literal. -/
def split : Text → List Piece
  | [] => []
  | c :: t =>
    if c = '[' then
      match _h : Bracket.enclosed? '[' ']' 0 t with
      | some (body, rest) => .bracketed body :: split rest
      | none => .literal c :: split t
    else if c = '{' then
      match _h : Bracket.enclosed? '{' '}' 0 t with
      | some (body, rest) => .braced body :: split rest
      | none => .literal c :: split t
    else .literal c :: split t
termination_by t => t.length
decreasing_by
  all_goals simp only [List.length_cons]
  all_goals first
    | omega
    | have := Bracket.enclosed?_length _h; omega

/-- The node of a piece, with a reader for the text in braces. -/
def node (expression : Text → Node) : Piece → Node
  | .literal c => .text [c]
  | .bracketed body =>
    match Reference.parse? body with
    | some ref => .reference ref
    | none => .text (Piece.bracketed body).raw
  | .braced body => expression body

end Piece

/-! ## Trees -/

/-- Regions nested deeper than this stay literal text. -/
def nestingLimit : Nat := 64

/-- A bracketed reference with its clauses behind the bracket: `[b]?`. -/
def decorated? (t : Text) : Option Reference :=
  match t with
  | '[' :: t =>
    match Bracket.enclosed? '[' ']' 0 t with
    | some (body, suffix) => if Clause.isSuffix suffix then Reference.parse? (body ++ suffix) else none
    | none => none
  | _ => none

/-- The body of a text that is one parenthesis from end to end. -/
def parenthesised? (t : Text) : Option Text :=
  match t with
  | '(' :: t =>
    match Bracket.enclosed? '(' ')' 0 t with
    | some (body, []) => some body
    | _ => none
  | _ => none

mutual

/-- The tree of a template, with `depth` more levels of nesting allowed. -/
def readTemplate : (depth : Nat) → Text → Node
  | 0, t => Node.concat ((Piece.split t).map (Piece.node fun body => .text (Piece.braced body).raw))
  | depth + 1, t => Node.concat ((Piece.split t).map (Piece.node fun body => readExpression depth body))

/-- The tree of the text in braces: `&` binds looser than `|`, and a lone operand stands for
itself. -/
def readExpression : (depth : Nat) → Text → Node
  | 0, t => .text (Text.trim t)
  | depth + 1, t =>
    match Bracket.operands '&' (Text.trim t) with
    | first :: second :: more =>
      .all ((first :: second :: more).map fun part => readExpression depth part)
    | conjuncts =>
      let operand := conjuncts.headD (Text.trim t)
      match Bracket.operands '|' operand with
      | first :: second :: more =>
        .oneOf ((first :: second :: more).map fun option => readExpression depth option)
      | disjuncts =>
        let operand := disjuncts.headD operand
        match parenthesised? operand with
        | some body => .group (readExpression depth body)
        | none =>
          match numberRange? operand with
          | some (low, high) => .number (min low high) (max low high)
          | none =>
            if operand = ['a'] then .article
            else if operand.contains '[' || operand.contains '{' then
              match decorated? operand with
              | some ref => .reference ref
              | none => readTemplate depth operand
            else .text operand

end

/-- The tree of a template. -/
def parse (template : Text) : Node := readTemplate nestingLimit template

/-- The tree of what stands between the braces of an expression. -/
def parseInline (content : Text) : Node := readExpression nestingLimit content

end RandomTables
