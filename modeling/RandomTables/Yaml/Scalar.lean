import RandomTables.Text.Radix
import RandomTables.Yaml.Cursor

/-! # The text of a scalar -/

namespace RandomTables.Yaml

/-! ## Folding -/

/-- White space inside a scalar that is not yet known to belong to its text. -/
structure Gap where
  blanks : Text := []
  /-- The first line break and the ones that follow it. -/
  firstBreak : Text := []
  moreBreaks : Text := []
  broken : Bool := false

/-- The text that a gap stands for: a lone line break folds to a space, and of several the first is
dropped. -/
def Gap.text (gap : Gap) : Text :=
  if !gap.broken then gap.blanks
  else if gap.firstBreak == ['\n'] then
    if gap.moreBreaks.isEmpty then [' '] else gap.moreBreaks
  else gap.firstBreak ++ gap.moreBreaks

/-- Takes white space and line breaks. A tab before column `indent` of a later line is an error. -/
def takeGap? (indent : Int) : (fuel : Nat) → Gap → Cursor → Option (Gap × Cursor)
  | 0, gap, cursor => some (gap, cursor)
  | fuel + 1, gap, cursor =>
    match cursor.peek with
    | none => some (gap, cursor)
    | some c =>
      if isSpaceOrTab c then
        if gap.broken && cursor.column < indent && c == '\t' then none
        else
          let gap := if gap.broken then gap else { gap with blanks := gap.blanks ++ [c] }
          takeGap? indent fuel gap (cursor.advance 1)
      else if isBreak c then
        let (text, cursor) := cursor.takeBreak
        let gap :=
          if gap.broken then { gap with moreBreaks := gap.moreBreaks ++ text }
          else { gap with blanks := [], firstBreak := text, broken := true }
        takeGap? indent fuel gap cursor
      else some (gap, cursor)

/-! ## Plain scalars -/

def isFlowMark (c : Char) : Bool := c == ',' || c == '[' || c == ']' || c == '{' || c == '}'

/-- The code points of a plain scalar up to white space or to its end. Inside flow collections a
colon must not touch a flow mark. -/
def plainRun? (inFlow : Bool) : Text → Option Text
  | [] => some []
  | c :: t =>
    if endsWord (some c) then some []
    else if inFlow && c == ':' && t.head?.any (fun d => isFlowMark d || d == '?') then none
    else if (c == ':' && endsWord t.head?) || (inFlow && isFlowMark c) then some []
    else (plainRun? inFlow t).map (c :: ·)

/-- A scalar that has been read. `endsLine` tells that line breaks behind it were taken as well. -/
structure ScalarRead where
  text : Text
  cursor : Cursor
  endsLine : Bool := false

/-- Reads a plain scalar whose later lines are indented by `indent` at least. -/
def plain? (inFlow : Bool) (indent : Int) : (fuel : Nat) → Gap → Cursor → Option ScalarRead
  | 0, _, _ => none
  | fuel + 1, gap, cursor =>
    if cursor.atDocumentMark || cursor.peek == some '#' then
      some { text := [], cursor, endsLine := gap.broken }
    else do
      let run ← plainRun? inFlow cursor.rest
      let start := if run.isEmpty then [] else gap.text ++ run
      let gap := if run.isEmpty then gap else {}
      let cursor := cursor.advance run.length
      if cursor.atEnd || !endsWord cursor.peek then
        some { text := start, cursor, endsLine := gap.broken }
      else do
        let (gap, cursor) ← takeGap? indent (cursor.rest.length + 1) gap cursor
        if !inFlow && cursor.column < indent then
          some { text := start, cursor, endsLine := gap.broken }
        else do
          let more ← plain? inFlow indent fuel gap cursor
          some { more with text := start ++ more.text }

/-! ## Quoted scalars -/

/-- What the code point behind a backslash stands for: a text, or a code of some hexadecimal
digits. -/
def escape? : Char → Option (Char ⊕ Nat)
  | '0' => some (.inl '\x00')
  | 'a' => some (.inl '\x07')
  | 'b' => some (.inl '\x08')
  | 't' | '\t' => some (.inl '\t')
  | 'n' => some (.inl '\n')
  | 'v' => some (.inl '\x0b')
  | 'f' => some (.inl '\x0c')
  | 'r' => some (.inl '\r')
  | 'e' => some (.inl '\x1b')
  | ' ' => some (.inl ' ')
  | '"' => some (.inl '"')
  | '/' => some (.inl '/')
  | '\\' => some (.inl '\\')
  | 'N' => some (.inl '\u0085')
  | '_' => some (.inl '\u00a0')
  | 'L' => some (.inl '\u2028')
  | 'P' => some (.inl '\u2029')
  | 'x' => some (.inr 2)
  | 'u' => some (.inr 4)
  | 'U' => some (.inr 8)
  | _ => none

/-- Reads the part of a quoted scalar up to white space, the closing quote or an escaped line
break. -/
def quotedRun? (quote : Char) : (fuel : Nat) → Cursor → Option (Text × Cursor × Bool)
  | 0, _ => none
  | fuel + 1, cursor =>
    match cursor.rest with
    | [] => some ([], cursor, false)
    | c :: t =>
      if endsWord (some c) then some ([], cursor, false)
      else if quote == '\'' && c == '\'' && t.head? == some '\'' then do
        let (text, after) ← quotedRun? quote fuel (cursor.advance 2)
        some ('\'' :: text, after)
      else if c == quote then some ([], cursor, false)
      else if quote == '"' && c == '\\' then
        match t with
        | [] => none
        | d :: code =>
          if isBreak d then some ([], (cursor.advance 1).skipBreak, true)
          else do
            match ← escape? d with
            | .inl e => do
              let (text, after) ← quotedRun? quote fuel (cursor.advance 2)
              some (e :: text, after)
            | .inr digits => do
              let n ← Text.hexNumber? digits code
              if n.isValidChar then do
                let (text, after) ← quotedRun? quote fuel (cursor.advance (2 + digits))
                some (Char.ofNat n :: text, after)
              else none
      else do
        let (text, after) ← quotedRun? quote fuel (cursor.advance 1)
        some (c :: text, after)

/-- Reads a quoted scalar from behind its opening quote to behind the closing one. -/
def quoted? (quote : Char) : (fuel : Nat) → Cursor → Option (Text × Cursor)
  | 0, _ => none
  | fuel + 1, cursor =>
    if cursor.atDocumentMark || cursor.atEnd then none
    else do
      let (run, cursor, escapedBreak) ← quotedRun? quote (cursor.rest.length + 1) cursor
      if cursor.peek == some quote then some (run, cursor.advance 1)
      else do
        let (gap, cursor) ← takeGap? 0 (cursor.rest.length + 1) { broken := escapedBreak } cursor
        let (more, cursor) ← quoted? quote fuel cursor
        some (run ++ gap.text ++ more, cursor)

/-! ## Block scalars -/

/-- What happens to the line breaks at the end of a block scalar. -/
inductive Chomping where
  | strip
  | clip
  | keep

structure BlockHeader where
  chomping : Chomping := .clip
  /-- The indentation relative to the enclosing block, if it is given. -/
  increment : Option Nat := none

/-- Reads the indicators behind `|` or `>`; they come in either order. -/
def blockHeader? (cursor : Cursor) : Option (BlockHeader × Cursor) :=
  let chomping? : Cursor → Option Chomping := fun cursor =>
    match cursor.peek with
    | some '+' => some .keep
    | some '-' => some .strip
    | _ => none
  let digit? : Cursor → Option Nat := fun cursor =>
    (cursor.peek.filter Char.isDigit).map fun c => c.toNat - '0'.toNat
  let header : BlockHeader × Cursor :=
    match chomping? cursor with
    | some chomping =>
      let cursor := cursor.advance 1
      match digit? cursor with
      | some n => ({ chomping, increment := some n }, cursor.advance 1)
      | none => ({ chomping }, cursor)
    | none =>
      match digit? cursor with
      | some n =>
        let cursor := cursor.advance 1
        match chomping? cursor with
        | some chomping => ({ chomping, increment := some n }, cursor.advance 1)
        | none => ({ increment := some n }, cursor)
      | none => ({}, cursor)
  if header.1.increment == some 0 then none
  else header.2.finishLine?.map fun cursor => (header.1, cursor)

/-- Takes indentation and empty lines. While the indentation is not known it is the widest so far.
Gives the line breaks, the widest indentation and the place. -/
def takeEmptyLines? (indent : Option Int) :
    (fuel : Nat) → (widest : Nat) → Cursor → Option (Text × Nat × Cursor)
  | 0, _, _ => none
  | fuel + 1, widest, cursor =>
    let spaces := (cursor.rest.takeWhile (· == ' ')).length
    let cursor :=
      match indent with
      | none => cursor.advance spaces
      | some indent => cursor.advance (min spaces (Int.toNat (indent - cursor.column)))
    let widest := max widest cursor.column
    if indent.all (cursor.column < ·) && cursor.peek == some '\t' then none
    else if cursor.peek.any isBreak then do
      let (text, cursor) := cursor.takeBreak
      let (more, widest, cursor) ← takeEmptyLines? indent fuel widest cursor
      some (text ++ more, widest, cursor)
    else some ([], widest, cursor)

/-- Reads the lines of a block scalar. `lineBreak` and `emptyLines` are what stands between the
line before and the one at the cursor, and `wasIndented` tells that the line before started with
white space. Gives the text without its end, and the line breaks of the end. -/
def blockLines? (isFolded : Bool) (indent : Int) :
    (fuel : Nat) → (lineBreak emptyLines : Text) → (wasIndented : Bool) → Cursor →
      Option (Text × Text × Text × Cursor)
  | 0, _, _, _, _ => none
  | fuel + 1, lineBreak, emptyLines, wasIndented, cursor =>
    if cursor.column != indent || cursor.atEnd then some ([], lineBreak, emptyLines, cursor)
    else do
      let isIndented := cursor.peek.any isSpaceOrTab
      let folds := isFolded && lineBreak == ['\n'] && !wasIndented && !isIndented
      let before :=
        if folds then (if emptyLines.isEmpty then [' '] else emptyLines) else lineBreak ++ emptyLines
      let line := cursor.rest.takeWhile (!isBreak ·)
      let (lineBreak, cursor) := (cursor.advance line.length).takeBreak
      let (emptyLines, _, cursor) ←
        takeEmptyLines? (some indent) (cursor.rest.length + 1) 0 cursor
      let (text, tail) ← blockLines? isFolded indent fuel lineBreak emptyLines isIndented cursor
      some (before ++ line ++ text, tail)

/-- Reads a block scalar from behind its `|` or `>`, in a block that is indented by `parent`. -/
def block? (isFolded : Bool) (parent : Int) (cursor : Cursor) : Option (Text × Cursor) := do
  let (header, cursor) ← blockHeader? cursor
  let fuel := cursor.rest.length + 1
  let given : Option Int := header.increment.map fun (n : Nat) => max parent 0 + n
  let (emptyLines, widest, cursor) ← takeEmptyLines? given fuel 0 cursor
  let indent := given.getD (max (max widest (parent + 1)) 1)
  let (text, lineBreak, emptyLines, cursor) ←
    blockLines? isFolded indent fuel [] emptyLines false cursor
  let ending :=
    match header.chomping with
    | .strip => []
    | .clip => lineBreak
    | .keep => lineBreak ++ emptyLines
  some (text ++ ending, cursor)

end RandomTables.Yaml
