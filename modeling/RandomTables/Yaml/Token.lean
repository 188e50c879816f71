import RandomTables.Yaml.Scalar
import RandomTables.Yaml.Tag

/-! # YAML tokens

The tokens of a text, in order. A mapping key shows only by the colon behind it, so a token that may
start a key is held back until that is decided. A text that breaks the rules of tokens ends in
`invalid`, right behind the tokens that were decided before.
-/

namespace RandomTables.Yaml

/-- How a scalar is written. -/
inductive Style where
  | plain
  | quoted
  deriving DecidableEq

inductive Token where
  | version (major minor : Nat)
  | tagDirective (handle : Text) (start : Tag)
  | documentStart
  | documentEnd
  | blockSequence
  | blockMapping
  | blockEnd
  | flowSequence
  | flowSequenceEnd
  | flowMapping
  | flowMappingEnd
  | blockEntry
  | flowEntry
  | key
  | value
  | alias (name : Text)
  | anchor (name : Text)
  | tag (handle : Text) (suffix : Tag)
  | scalar (style : Style) (text : Text)
  | streamEnd
  | invalid
  deriving DecidableEq

/-- A place where a mapping key may have started. -/
structure KeyPlace where
  /-- The block leaves nothing but a key here. -/
  required : Bool
  /-- The number of the token that starts here. -/
  number : Nat
  cursor : Cursor

structure Scanner where
  cursor : Cursor
  /-- The column of the innermost block, or -1. -/
  indent : Int := -1
  outerIndents : List Int := []
  keyAllowed : Bool := true
  /-- The possible key at each level of flow collections, the innermost first. -/
  keys : List (Option KeyPlace) := [none]
  /-- Tokens that are not decided yet. -/
  pending : List Token := []
  /-- The number of the first pending token. -/
  released : Nat := 0

/-- A step of scanning; nothing if the text breaks the rules. -/
abbrev Scan := StateT Scanner Option

namespace Scan

def inFlow (scanner : Scanner) : Bool := 1 < scanner.keys.length

def invalid {α : Type} : Scan α := fun _ => none

def put (token : Token) : Scan Unit :=
  modify fun scanner => { scanner with pending := scanner.pending ++ [token] }

def move (f : Cursor → Cursor) : Scan Unit :=
  modify fun scanner => { scanner with cursor := f scanner.cursor }

def allowKey (allowed : Bool) : Scan Unit :=
  modify fun scanner => { scanner with keyAllowed := allowed }

/-- Reads something at the cursor. -/
def read {α : Type} (f : Scanner → Option (α × Cursor)) : Scan α := fun scanner =>
  (f scanner).map fun (a, cursor) => (a, { scanner with cursor })

/-! ## Possible keys -/

/-- A key ends on its line and within 1024 bytes. -/
def dropStaleKeys : Scan Unit := do
  let scanner ← get
  let isStale (place : KeyPlace) : Bool :=
    place.cursor.line < scanner.cursor.line || place.cursor.index + 1024 < scanner.cursor.index
  if scanner.keys.any fun key => key.any fun place => isStale place && place.required then invalid
  else set { scanner with keys := scanner.keys.map (Option.filter (!isStale ·)) }

/-- Gives up the possible key of the innermost level. -/
def dropKey : Scan Unit := do
  let scanner ← get
  match scanner.keys with
  | [] => pure ()
  | key :: keys =>
    if key.any (·.required) then invalid else set { scanner with keys := none :: keys }

/-- Notes that the next token may start a key. -/
def noteKey : Scan Unit := do
  let scanner ← get
  if scanner.keyAllowed then do
    dropKey
    let place : KeyPlace :=
      { required := !inFlow scanner && scanner.indent == scanner.cursor.column
        number := scanner.released + scanner.pending.length
        cursor := scanner.cursor }
    modify fun scanner => { scanner with keys := some place :: scanner.keys.tail }
  else pure ()

/-! ## Indentation -/

/-- Opens a block at a deeper column, its token before the pending token of this number. -/
def openBlock (column number : Nat) (token : Token) : Scan Unit :=
  modify fun scanner =>
    if inFlow scanner || column ≤ scanner.indent then scanner
    else
      let place := number - scanner.released
      { scanner with
        indent := column
        outerIndents := scanner.indent :: scanner.outerIndents
        pending := scanner.pending.take place ++ token :: scanner.pending.drop place }

/-- Opens a block at the cursor, its token behind the pending ones. -/
def openBlockHere (token : Token) : Scan Unit := do
  let scanner ← get
  openBlock scanner.cursor.column (scanner.released + scanner.pending.length) token

def closeBlocksFrom (column : Int) : (indent : Int) → (outer : List Int) → Nat × Int × List Int
  | indent, [] => (0, indent, [])
  | indent, next :: outer =>
    if column < indent then
      let (count, indent, outer) := closeBlocksFrom column next outer
      (count + 1, indent, outer)
    else (0, indent, next :: outer)

/-- Closes the blocks that are deeper than a column. -/
def closeBlocks (column : Int) : Scan Unit :=
  modify fun scanner =>
    if inFlow scanner then scanner
    else
      let (count, indent, outerIndents) :=
        closeBlocksFrom column scanner.indent scanner.outerIndents
      { scanner with
        indent, outerIndents, pending := scanner.pending ++ List.replicate count .blockEnd }

/-! ## White space -/

def skipToToken : (fuel : Nat) → Scan Unit
  | 0 => pure ()
  | fuel + 1 => do
    let scanner ← get
    let cursor := scanner.cursor
    let cursor :=
      if cursor.column == 0 && cursor.peek == some byteOrderMark then cursor.advance 1 else cursor
    let tabs := inFlow scanner || !scanner.keyAllowed
    let cursor := cursor.skipWhile fun c => c == ' ' || (tabs && c == '\t')
    let cursor := if cursor.peek == some '#' then cursor.skipWhile (!isBreak ·) else cursor
    if cursor.peek.any isBreak then do
      set { scanner with
        cursor := cursor.skipBreak, keyAllowed := scanner.keyAllowed || !inFlow scanner }
      skipToToken fuel
    else set { scanner with cursor }

/-! ## Directives, anchors and tags -/

def number? (cursor : Cursor) : Option (Nat × Cursor) :=
  let digits := cursor.rest.takeWhile Char.isDigit
  if digits.isEmpty || 9 < digits.length then none
  else some (Text.digitsValue digits, cursor.advance digits.length)

def directive? (cursor : Cursor) : Option (Token × Cursor) := do
  let (name, cursor) := Tag.word (cursor.advance 1)
  if name.isEmpty || !endsWord cursor.peek then none
  else do
    let cursor := cursor.skipWhile isSpaceOrTab
    let (token, cursor) ←
      if name == "YAML".toList then do
        let (major, cursor) ← number? cursor
        if cursor.peek != some '.' then none
        else do
          let (minor, cursor) ← number? (cursor.advance 1)
          some (Token.version major minor, cursor)
      else if name == "TAG".toList then do
        let (handle, cursor) ← Tag.handle? true cursor
        if !cursor.peek.any isSpaceOrTab then none
        else do
          let (start, cursor) ← Tag.someSuffix? true (cursor.skipWhile isSpaceOrTab)
          if endsWord cursor.peek then some (Token.tagDirective handle start, cursor) else none
      else none
    let cursor ← cursor.finishLine?
    some (token, cursor)

/-- Reads the name behind `*` or `&`. -/
def anchorName? (cursor : Cursor) : Option (Text × Cursor) :=
  let (name, cursor) := Tag.word (cursor.advance 1)
  let ends := endsWord cursor.peek || cursor.peek.any ("?:,]\x7d%@\x60".toList.contains ·)
  if name.isEmpty || !ends then none else some (name, cursor)

def tag? (inFlow : Bool) (cursor : Cursor) : Option (Token × Cursor) := do
  let (handle, suffix, cursor) ← Tag.read? cursor
  if endsWord cursor.peek || (inFlow && cursor.peek == some ',') then
    some (Token.tag handle suffix, cursor)
  else none

/-! ## Tokens -/

def documentMark (token : Token) : Scan Unit := do
  closeBlocks (-1)
  dropKey
  allowKey false
  move (·.advance 3)
  put token

def openFlow (token : Token) : Scan Unit := do
  noteKey
  modify fun scanner => { scanner with keys := none :: scanner.keys }
  allowKey true
  move (·.advance 1)
  put token

def closeFlow (token : Token) : Scan Unit := do
  dropKey
  modify fun scanner =>
    if inFlow scanner then { scanner with keys := scanner.keys.tail } else scanner
  allowKey false
  move (·.advance 1)
  put token

def entry (token : Token) : Scan Unit := do
  dropKey
  allowKey true
  move (·.advance 1)
  put token

def blockEntry : Scan Unit := do
  let scanner ← get
  if inFlow scanner then entry .blockEntry
  else if scanner.keyAllowed then do
    openBlockHere .blockSequence
    entry .blockEntry
  else invalid

def explicitKey : Scan Unit := do
  let scanner ← get
  if !inFlow scanner && !scanner.keyAllowed then invalid
  else do
    openBlockHere .blockMapping
    dropKey
    allowKey (!inFlow scanner)
    move (·.advance 1)
    put .key

/-- A colon makes a key of the place that was noted, or stands for an empty key. -/
def mappingValue : Scan Unit := do
  let scanner ← get
  match scanner.keys.head?.join with
  | some place => do
    let index := place.number - scanner.released
    set { scanner with
      pending := scanner.pending.take index ++ Token.key :: scanner.pending.drop index
      keys := none :: scanner.keys.tail }
    openBlock place.cursor.column place.number .blockMapping
    allowKey false
  | none => do
    if !inFlow scanner && !scanner.keyAllowed then invalid
    else do
      openBlockHere .blockMapping
      allowKey (!inFlow scanner)
  move (·.advance 1)
  put .value

/-- Reads a token that may start a key. -/
def keyToken (token : Scanner → Option (Token × Cursor)) : Scan Unit := do
  noteKey
  allowKey false
  put (← read token)

def plainScalar (scanner : Scanner) : Option ((Text × Bool) × Cursor) :=
  (plain? (inFlow scanner) (scanner.indent + 1) (scanner.cursor.rest.length + 1) {}
    scanner.cursor).map fun scalar => ((scalar.text, scalar.endsLine), scalar.cursor)

def quotedScalar (quote : Char) (scanner : Scanner) : Option (Token × Cursor) :=
  (quoted? quote (scanner.cursor.rest.length + 1) (scanner.cursor.advance 1)).map
    fun (text, cursor) => (.scalar .quoted text, cursor)

def blockScalar (isFolded : Bool) : Scan Unit := do
  dropKey
  allowKey true
  let text ← read fun scanner => block? isFolded scanner.indent (scanner.cursor.advance 1)
  put (.scalar .quoted text)

def endStream : Scan Unit := do
  move fun cursor => if cursor.column == 0 then cursor else cursor.newLine 0
  closeBlocks (-1)
  dropKey
  allowKey false
  put .streamEnd

/-- Marks that a plain scalar cannot start with. -/
def isIndicator (c : Char) : Bool := "-?:,[]\x7b\x7d#&*!|>'\"%@\x60".toList.contains c

/-- Reads the token at the cursor; `c` is its first code point. -/
def tokenAt (scanner : Scanner) (c : Char) : Scan Unit :=
  let cursor := scanner.cursor
  let inFlow := inFlow scanner
  let next := cursor.peekAt 1
  if cursor.column == 0 && c == '%' then do
    closeBlocks (-1)
    dropKey
    allowKey false
    put (← read fun scanner => directive? scanner.cursor)
  else if cursor.atMark ['-', '-', '-'] then documentMark .documentStart
  else if cursor.atMark ['.', '.', '.'] then documentMark .documentEnd
  else if c == '[' then openFlow .flowSequence
  else if c == '{' then openFlow .flowMapping
  else if c == ']' then closeFlow .flowSequenceEnd
  else if c == '}' then closeFlow .flowMappingEnd
  else if c == ',' then entry .flowEntry
  else if c == '-' && endsWord next then blockEntry
  else if c == '?' && (inFlow || endsWord next) then explicitKey
  else if c == ':' && (inFlow || endsWord next) then mappingValue
  else if c == '*' then keyToken fun scanner =>
    (anchorName? scanner.cursor).map fun (name, cursor) => (.alias name, cursor)
  else if c == '&' then keyToken fun scanner =>
    (anchorName? scanner.cursor).map fun (name, cursor) => (.anchor name, cursor)
  else if c == '!' then keyToken fun scanner => tag? inFlow scanner.cursor
  else if c == '|' && !inFlow then blockScalar false
  else if c == '>' && !inFlow then blockScalar true
  else if c == '\'' || c == '"' then keyToken (quotedScalar c)
  else if !(endsWord (some c) || isIndicator c) || (c == '-' && !next.any isSpaceOrTab) ||
      (!inFlow && (c == '?' || c == ':') && !endsWord next) then do
    noteKey
    allowKey false
    let (text, endsLine) ← read plainScalar
    if endsLine then allowKey true else pure ()
    put (.scalar .plain text)
  else invalid

/-- Reads the next token, and the block tokens that come with it. -/
def step : Scan Unit := do
  let scanner ← get
  skipToToken (scanner.cursor.rest.length + 1)
  dropStaleKeys
  let scanner ← get
  closeBlocks scanner.cursor.column
  let scanner ← get
  match scanner.cursor.peek with
  | none => endStream
  | some c => tokenAt scanner c

/-- The first pending token is decided: no possible key starts with it. -/
def isDecided (scanner : Scanner) : Bool :=
  !scanner.pending.isEmpty &&
    !scanner.keys.any fun key => key.any fun place => place.number == scanner.released

/-- Hands over the first pending token if it is decided. -/
def release? (scanner : Scanner) : Option (Token × Scanner) :=
  match scanner.pending with
  | token :: pending =>
    if isDecided scanner then
      some (token, { scanner with pending, released := scanner.released + 1 })
    else none
  | [] => none

/-- The tokens from a state on. -/
def tokens : (fuel : Nat) → Scanner → List Token
  | 0, _ => [.invalid]
  | fuel + 1, scanner =>
    match (if scanner.pending.isEmpty then pure () else dropStaleKeys).run scanner with
    | none => [.invalid]
    | some ((), scanner) =>
      match release? scanner with
      | some (token, scanner) =>
        if token = .streamEnd then [token] else token :: tokens fuel scanner
      | none =>
        match step.run scanner with
        | none => [.invalid]
        | some ((), scanner) => tokens fuel scanner

end Scan

/-- The tokens of a text. They end with `streamEnd` or `invalid`. -/
def Token.ofText (t : Text) : List Token :=
  if t.all isAllowed then Scan.tokens (8 * t.length + 16) { cursor := { rest := t } }
  else [.invalid]

end RandomTables.Yaml
