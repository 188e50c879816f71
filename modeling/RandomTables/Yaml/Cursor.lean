import RandomTables.Text.Basic

/-! # Reading places in a YAML text -/

namespace RandomTables.Yaml

/-! ## Characters -/

/-- The code points that a YAML text may hold. -/
def isAllowed (c : Char) : Bool :=
  let n := c.toNat
  n == 0x09 || n == 0x0A || n == 0x0D || (0x20 ≤ n && n ≤ 0x7E) || n == 0x85 ||
    (0xA0 ≤ n && n ≤ 0xD7FF) || (0xE000 ≤ n && n ≤ 0xFFFD) || 0x10000 ≤ n

def isSpaceOrTab (c : Char) : Bool := c == ' ' || c == '\t'

def isBreak (c : Char) : Bool :=
  c == '\r' || c == '\n' || c == '\u0085' || c == '\u2028' || c == '\u2029'

/-- White space, a line break, or the end of the text. -/
def endsWord : Option Char → Bool
  | none => true
  | some c => isSpaceOrTab c || isBreak c

def isWordChar (c : Char) : Bool := c.isAlphanum || c == '_' || c == '-'

def byteOrderMark : Char := '\ufeff'

/-! ## Cursors -/

/-- The text that is left, with the place where it starts. -/
structure Cursor where
  rest : Text
  /-- How many bytes of UTF-8 stand before the place. -/
  index : Nat := 0
  line : Nat := 0
  column : Nat := 0

namespace Cursor

def peek (cursor : Cursor) : Option Char := cursor.rest.head?

def peekAt (cursor : Cursor) (n : Nat) : Option Char := cursor.rest[n]?

def atEnd (cursor : Cursor) : Bool := cursor.rest.isEmpty

/-- The number of bytes of the next `n` code points. -/
def byteCount (cursor : Cursor) (n : Nat) : Nat :=
  (cursor.rest.take n).foldl (fun bytes c => bytes + c.utf8Size) 0

/-- Moves over `n` code points of one line. -/
def advance (cursor : Cursor) (n : Nat) : Cursor :=
  { cursor with
    rest := cursor.rest.drop n, index := cursor.index + cursor.byteCount n
    column := cursor.column + n }

/-- Moves over the code points of one line that satisfy `p`. -/
def skipWhile (cursor : Cursor) (p : Char → Bool) : Cursor :=
  cursor.advance (cursor.rest.takeWhile p).length

/-- Moves to the start of the next line, over `n` code points of a line break. -/
def newLine (cursor : Cursor) (n : Nat) : Cursor :=
  { rest := cursor.rest.drop n, index := cursor.index + cursor.byteCount n
    line := cursor.line + 1, column := 0 }

/-- Takes a line break, if there is one, in its normal form. -/
def takeBreak (cursor : Cursor) : Text × Cursor :=
  match cursor.rest with
  | '\r' :: '\n' :: _ => (['\n'], cursor.newLine 2)
  | c :: _ =>
    if c == '\u2028' || c == '\u2029' then ([c], cursor.newLine 1)
    else if isBreak c then (['\n'], cursor.newLine 1)
    else ([], cursor)
  | [] => ([], cursor)

def skipBreak (cursor : Cursor) : Cursor := cursor.takeBreak.2

/-- The cursor is at the start of a line with this mark of three code points. -/
def atMark (cursor : Cursor) (mark : Text) : Bool :=
  cursor.column == 0 && mark.isPrefixOf cursor.rest && endsWord (cursor.peekAt mark.length)

/-- A document starts or ends here. -/
def atDocumentMark (cursor : Cursor) : Bool :=
  cursor.atMark ['-', '-', '-'] || cursor.atMark ['.', '.', '.']

/-- Moves behind the white space and the comment at the end of a line, and over the line break.
Nothing else may stand there. -/
def finishLine? (cursor : Cursor) : Option Cursor :=
  let cursor := cursor.skipWhile isSpaceOrTab
  let cursor := if cursor.peek == some '#' then cursor.skipWhile (!isBreak ·) else cursor
  match cursor.peek with
  | none => some cursor
  | some c => if isBreak c then some cursor.skipBreak else none

end Cursor

end RandomTables.Yaml
