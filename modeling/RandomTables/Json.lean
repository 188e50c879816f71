import RandomTables.Text.Basic

/-! # JSON texts

Values are written without white space, fields in the order given.
-/

namespace RandomTables

inductive Json where
  | null
  | bool (value : Bool)
  | number (value : Nat)
  | string (value : Text)
  | array (items : List Json)
  | object (fields : List (Text × Json))

namespace Json

/-! ## Strings -/

def escape (c : Char) : Text :=
  if c = '"' ∨ c = '\\' then ['\\', c]
  else if c = '\x08' then ['\\', 'b']
  else if c = '\x0c' then ['\\', 'f']
  else if c = '\n' then ['\\', 'n']
  else if c = '\r' then ['\\', 'r']
  else if c = '\t' then ['\\', 't']
  else if c.toNat < 0x20 then
    '\\' :: 'u' :: '0' :: '0' :: [Nat.digitChar (c.toNat / 16), Nat.digitChar (c.toNat % 16)]
  else [c]

def quote (t : Text) : Text := '"' :: t.flatMap escape ++ ['"']

/-! ## Values -/

mutual

def render : Json → Text
  | .null => "null".toList
  | .bool true => "true".toList
  | .bool false => "false".toList
  | .number value => Text.ofNat value
  | .string value => quote value
  | .array items => '[' :: [','].intercalate (renderItems items) ++ [']']
  | .object fields => '{' :: [','].intercalate (renderFields fields) ++ ['}']

def renderItems : List Json → List Text
  | [] => []
  | item :: rest => render item :: renderItems rest

def renderFields : List (Text × Json) → List Text
  | [] => []
  | (name, value) :: rest => (quote name ++ ':' :: render value) :: renderFields rest

end

end Json

end RandomTables
