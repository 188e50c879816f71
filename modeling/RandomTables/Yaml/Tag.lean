import RandomTables.Text.Radix
import RandomTables.Yaml.Cursor

/-! # YAML tags

A tag names the kind of a node. It is written as a handle, which stands for the start of the tag,
and a suffix.
-/

namespace RandomTables.Yaml

/-- A tag is a string of bytes, which need not be UTF-8. -/
abbrev Tag := List UInt8

namespace Tag

/-- The byte of `!`, which starts a local tag. -/
def mark : UInt8 := 0x21

/-- A zero byte ends a tag. -/
def ofBytes (bytes : List UInt8) : Tag := bytes.takeWhile (· ≠ 0)

/-- A tag of the YAML schemas. -/
def standard (name : String) : Tag := Text.bytes ("tag:yaml.org,2002:" ++ name).toList

def isLocal (tag : Tag) : Bool := tag.head? == some mark

/-- The name of a local tag: what stands behind the mark, or the mark if nothing does. A name that
is not UTF-8 does not count. -/
def localName? (tag : Tag) : Option Text :=
  if tag.isLocal then Text.ofBytes? (if tag.tail.isEmpty then tag else tag.tail) else none

/-! ## Reading -/

/-- Reads a word and the place behind it. -/
def word (cursor : Cursor) : Text × Cursor :=
  let text := cursor.rest.takeWhile isWordChar
  (text, cursor.advance text.length)

/-- Reads a handle. In a directive it must be closed by a second mark. -/
def handle? (inDirective : Bool) (cursor : Cursor) : Option (Text × Cursor) :=
  if cursor.peek != some '!' then none
  else
    let (text, cursor) := word (cursor.advance 1)
    if cursor.peek == some '!' then some ('!' :: text ++ ['!'], cursor.advance 1)
    else if inDirective && !text.isEmpty then none
    else some ('!' :: text, cursor)

/-- The code points of a suffix. A verbatim tag may hold some more. -/
def isSuffixChar (verbatim : Bool) (c : Char) : Bool :=
  isWordChar c || ";/?:@&=+$.%!~*'()".toList.contains c || (verbatim && ",[]".toList.contains c)

/-- Reads a byte that is escaped by a percent sign. -/
def escapedByte? (cursor : Cursor) : Option (UInt8 × Cursor) :=
  if cursor.peek == some '%' then
    (Text.hexNumber? 2 (cursor.advance 1).rest).map fun n => (UInt8.ofNat n, cursor.advance 3)
  else none

/-- How many bytes follow a first byte in UTF-8. -/
def followers? (first : UInt8) : Option Nat :=
  if first < 0x80 then some 0
  else if first &&& 0xE0 = 0xC0 then some 1
  else if first &&& 0xF0 = 0xE0 then some 2
  else if first &&& 0xF8 = 0xF0 then some 3
  else none

/-- Reads escaped bytes that follow a first byte. -/
def followersFrom? : (count : Nat) → Cursor → Option (List UInt8 × Cursor)
  | 0, cursor => some ([], cursor)
  | count + 1, cursor => do
    let (byte, cursor) ← escapedByte? cursor
    if byte &&& 0xC0 = 0x80 then
      let (bytes, cursor) ← followersFrom? count cursor
      some (byte :: bytes, cursor)
    else none

/-- Reads escaped bytes in the form of one code point. That form is all that is asked of them. -/
def escapedBytes? (cursor : Cursor) : Option (List UInt8 × Cursor) := do
  let (first, cursor) ← escapedByte? cursor
  let (bytes, cursor) ← followersFrom? (← followers? first) cursor
  some (first :: bytes, cursor)

def suffixFrom? (verbatim : Bool) : (fuel : Nat) → Cursor → Option (List UInt8 × Cursor)
  | 0, _ => none
  | fuel + 1, cursor =>
    match cursor.peek with
    | none => some ([], cursor)
    | some c =>
      if isSuffixChar verbatim c then do
        let (start, cursor) ←
          if c == '%' then escapedBytes? cursor else some (Text.bytes [c], cursor.advance 1)
        let (bytes, cursor) ← suffixFrom? verbatim fuel cursor
        some (start ++ bytes, cursor)
      else some ([], cursor)

/-- Reads the bytes of a suffix; there may be none. -/
def suffix? (verbatim : Bool) (cursor : Cursor) : Option (List UInt8 × Cursor) :=
  suffixFrom? verbatim (cursor.rest.length + 1) cursor

/-- Reads the bytes of a suffix that may not be missing. -/
def someSuffix? (verbatim : Bool) (cursor : Cursor) : Option (Tag × Cursor) := do
  let (bytes, cursor) ← suffix? verbatim cursor
  if bytes.isEmpty then none else some (ofBytes bytes, cursor)

/-- Reads a handle and a suffix. The handle is empty where the suffix is the whole tag. -/
def read? (cursor : Cursor) : Option (Text × Tag × Cursor) :=
  if cursor.peekAt 1 == some '<' then do
    let (tag, cursor) ← someSuffix? true (cursor.advance 2)
    if cursor.peek == some '>' then some ([], tag, cursor.advance 1) else none
  else do
    let (handle, cursor) ← handle? false cursor
    if 1 < handle.length && handle.getLast? == some '!' then do
      let (suffix, cursor) ← someSuffix? false cursor
      some (handle, suffix, cursor)
    else do
      let (bytes, cursor) ← suffix? false cursor
      let suffix := ofBytes (Text.bytes handle.tail ++ bytes)
      some (if suffix.isEmpty then ([], [mark], cursor) else (['!'], suffix, cursor))

/-! ## Handles -/

/-- The handles that tags may use, with what they stand for. -/
abbrev Handles := List (Text × Tag)

def defaultHandles : Handles := [(['!'], [mark]), (['!', '!'], standard "")]

/-- The tag of a handle and a suffix; an unknown handle is an error. -/
def ofParts? (handles : Handles) (handle : Text) (suffix : Tag) : Option Tag :=
  if handle.isEmpty then some suffix else (handles.lookup handle).map (· ++ suffix)

end Tag

end RandomTables.Yaml
