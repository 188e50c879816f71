import RandomTables.Yaml.Token

/-! # YAML documents -/

namespace RandomTables.Yaml

/-- What may stand in front of a node. -/
structure Properties where
  anchor : Option Text := none
  tag : Option Tag := none

/-- A node; `α` tells what an alias points at. -/
inductive Node (α : Type) where
  | alias (target : α)
  | scalar (properties : Properties) (style : Style) (text : Text)
  | sequence (properties : Properties) (items : List (Node α))
  | mapping (properties : Properties) (entries : List (Node α × Node α))

/-- A node as it is written. -/
abbrev NamedNode := Node Text

namespace Node

/-- The node that stands where nothing is written. -/
def empty : NamedNode := .scalar {} .plain []

/-- Reads an anchor and a tag, in either order. -/
def properties? (handles : Tag.Handles) : List Token → Option (Properties × List Token)
  | .anchor name :: .tag handle suffix :: rest
  | .tag handle suffix :: .anchor name :: rest =>
    (Tag.ofParts? handles handle suffix).map fun tag =>
      ({ anchor := some name, tag := some tag }, rest)
  | .anchor name :: rest => some ({ anchor := some name }, rest)
  | .tag handle suffix :: rest =>
    (Tag.ofParts? handles handle suffix).map fun tag => ({ tag := some tag }, rest)
  | tokens => some ({}, tokens)

def startsWithAny (marks : List Token) (tokens : List Token) : Bool :=
  tokens.head?.any (marks.contains ·)

/-- Takes the separator between two entries of a flow collection. -/
def separator? (isFirst : Bool) : List Token → Option (List Token)
  | tokens =>
    if isFirst then some tokens
    else match tokens with
      | .flowEntry :: rest => some rest
      | _ => none

mutual

/-- Reads a node. Block collections are allowed if `inBlock`, and a sequence without a block of its
own if `indentless`. -/
def read? (handles : Tag.Handles) :
    (fuel : Nat) → (inBlock indentless : Bool) → List Token → Option (NamedNode × List Token)
  | 0, _, _, _ => none
  | _ + 1, _, _, .alias name :: rest => some (.alias name, rest)
  | fuel + 1, inBlock, indentless, tokens => do
    let (properties, tokens) ← properties? handles tokens
    match tokens, inBlock, indentless with
    | .blockEntry :: _, _, true => do
      let (items, rest) ← indentlessItems? handles fuel tokens
      some (.sequence properties items, rest)
    | .scalar style text :: rest, _, _ => some (.scalar properties style text, rest)
    | .flowSequence :: rest, _, _ => do
      let (items, rest) ← flowItems? handles fuel true rest
      some (.sequence properties items, rest)
    | .flowMapping :: rest, _, _ => do
      let (entries, rest) ← flowEntries? handles fuel true rest
      some (.mapping properties entries, rest)
    | .blockSequence :: rest, true, _ => do
      let (items, rest) ← blockItems? handles fuel rest
      some (.sequence properties items, rest)
    | .blockMapping :: rest, true, _ => do
      let (entries, rest) ← blockEntries? handles fuel rest
      some (.mapping properties entries, rest)
    | _, _, _ =>
      if properties.anchor.isSome || properties.tag.isSome then
        some (.scalar properties .plain [], tokens)
      else none

/-- Reads a node, or the empty node if one of these marks comes next. -/
def readUnless? (handles : Tag.Handles) :
    (fuel : Nat) → (marks : List Token) → (inBlock indentless : Bool) → List Token →
      Option (NamedNode × List Token)
  | 0, _, _, _, _ => none
  | fuel + 1, marks, inBlock, indentless, tokens =>
    if startsWithAny marks tokens then some (empty, tokens)
    else read? handles fuel inBlock indentless tokens

/-- Reads the value behind a key; without a colon it is empty. -/
def valueUnless? (handles : Tag.Handles) :
    (fuel : Nat) → (marks : List Token) → (inBlock indentless : Bool) → List Token →
      Option (NamedNode × List Token)
  | fuel + 1, marks, inBlock, indentless, .value :: rest =>
    readUnless? handles fuel marks inBlock indentless rest
  | _, _, _, _, tokens => some (empty, tokens)

def blockItems? (handles : Tag.Handles) :
    (fuel : Nat) → List Token → Option (List NamedNode × List Token)
  | fuel + 1, .blockEntry :: rest => do
    let (item, rest) ← readUnless? handles fuel [.blockEntry, .blockEnd] true false rest
    let (items, rest) ← blockItems? handles fuel rest
    some (item :: items, rest)
  | _, .blockEnd :: rest => some ([], rest)
  | _, _ => none

def indentlessItems? (handles : Tag.Handles) :
    (fuel : Nat) → List Token → Option (List NamedNode × List Token)
  | fuel + 1, .blockEntry :: rest => do
    let (item, rest) ←
      readUnless? handles fuel [.blockEntry, .key, .value, .blockEnd] true false rest
    let (items, rest) ← indentlessItems? handles fuel rest
    some (item :: items, rest)
  | _, tokens => some ([], tokens)

def blockEntries? (handles : Tag.Handles) :
    (fuel : Nat) → List Token → Option (List (NamedNode × NamedNode) × List Token)
  | fuel + 1, .key :: rest => do
    let (key, rest) ← readUnless? handles fuel [.key, .value, .blockEnd] true true rest
    let (value, rest) ← valueUnless? handles fuel [.key, .value, .blockEnd] true true rest
    let (entries, rest) ← blockEntries? handles fuel rest
    some ((key, value) :: entries, rest)
  | _, .blockEnd :: rest => some ([], rest)
  | _, _ => none

/-- An item that starts like a mapping key is a mapping of one entry. Where its key is missing, the
mark in place of the key is skipped. -/
def flowItems? (handles : Tag.Handles) :
    (fuel : Nat) → (isFirst : Bool) → List Token → Option (List NamedNode × List Token)
  | 0, _, _ => none
  | _ + 1, _, .flowSequenceEnd :: rest => some ([], rest)
  | fuel + 1, isFirst, tokens => do
    let tokens ← separator? isFirst tokens
    match tokens with
    | .flowSequenceEnd :: rest => some ([], rest)
    | .key :: rest => do
      let (key, rest) ←
        if startsWithAny [.value, .flowEntry, .flowSequenceEnd] rest then some (empty, rest.drop 1)
        else read? handles fuel false false rest
      let (value, rest) ←
        valueUnless? handles fuel [.flowEntry, .flowSequenceEnd] false false rest
      let (items, rest) ← flowItems? handles fuel false rest
      some (.mapping {} [(key, value)] :: items, rest)
    | _ => do
      let (item, rest) ← read? handles fuel false false tokens
      let (items, rest) ← flowItems? handles fuel false rest
      some (item :: items, rest)

def flowEntries? (handles : Tag.Handles) :
    (fuel : Nat) → (isFirst : Bool) → List Token →
      Option (List (NamedNode × NamedNode) × List Token)
  | 0, _, _ => none
  | _ + 1, _, .flowMappingEnd :: rest => some ([], rest)
  | fuel + 1, isFirst, tokens => do
    let tokens ← separator? isFirst tokens
    match tokens with
    | .flowMappingEnd :: rest => some ([], rest)
    | .key :: rest => do
      let (key, rest) ←
        readUnless? handles fuel [.value, .flowEntry, .flowMappingEnd] false false rest
      let (value, rest) ←
        valueUnless? handles fuel [.flowEntry, .flowMappingEnd] false false rest
      let (entries, rest) ← flowEntries? handles fuel false rest
      some ((key, value) :: entries, rest)
    | _ => do
      let (key, rest) ← read? handles fuel false false tokens
      let (entries, rest) ← flowEntries? handles fuel false rest
      some ((key, empty) :: entries, rest)

end

/-! ## Streams -/

/-- Reads the directives of a document. A version may stand once and must be 1.1 or 1.2, and a
handle may be declared once. -/
def directives? (hasVersion : Bool) (handles : Tag.Handles) :
    List Token → Option (Tag.Handles × List Token)
  | .version major minor :: rest =>
    if hasVersion || major != 1 || !(minor == 1 || minor == 2) then none
    else directives? true handles rest
  | .tagDirective handle start :: rest =>
    if (handles.lookup handle).isSome then none
    else directives? hasVersion (handles ++ [(handle, start)]) rest
  | tokens => some (handles ++ Tag.defaultHandles, tokens)

def fuelFor (tokens : List Token) : Nat := 4 * tokens.length + 8

/-- Reads one document. Only the first of a stream may do without a start mark. -/
def document? (isFirst : Bool) (tokens : List Token) : Option (NamedNode × List Token) := do
  let (handles, content) ← directives? false [] tokens
  let (node, rest) ←
    match content with
    | .documentStart :: rest =>
      if startsWithAny [.documentStart, .documentEnd, .streamEnd] rest ||
          rest.head?.any (fun | .version .. | .tagDirective .. => true | _ => false) then
        some (empty, rest)
      else read? handles (fuelFor rest) true false rest
    | _ =>
      if isFirst && content.length == tokens.length then
        read? handles (fuelFor content) true false content
      else none
  match rest with
  | .invalid :: _ => none
  | .documentEnd :: rest => some (node, rest)
  | _ => some (node, rest)

/-- The documents of a stream. A document that cannot be read ends the stream with nothing. -/
def documents : (fuel : Nat) → (isFirst : Bool) → List Token → List (Option NamedNode)
  | 0, _, _ => [none]
  | fuel + 1, isFirst, tokens =>
    let tokens := if isFirst then tokens else tokens.dropWhile (· == .documentEnd)
    if startsWithAny [.streamEnd] tokens then []
    else
      match document? isFirst tokens with
      | none => [none]
      | some (node, rest) => some node :: documents fuel false rest

end Node

end RandomTables.Yaml
