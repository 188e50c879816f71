import RandomTables.Text.Alphanumeric
import RandomTables.Text.Quoted.Table

/-! # Quoted texts

The form in which messages show a text: in double quotes, with escapes for what cannot be seen.
-/

namespace RandomTables.Text

namespace Quoted

def hex (n : Nat) : Text := Nat.toDigits 16 n

def escape (c : Char) : Text :=
  if c = '\x00' then ['\\', '0']
  else if c = '\t' then ['\\', 't']
  else if c = '\r' then ['\\', 'r']
  else if c = '\n' then ['\\', 'n']
  else if c = '"' || c = '\\' then ['\\', c]
  else if c.toNat < 0x20 || (0x7F ≤ c.toNat && inRuns hiddenRuns c) then
    "\\u\x7b".toList ++ hex c.toNat ++ ['}']
  else [c]

end Quoted

def quoted (t : Text) : Text := '"' :: t.flatMap Quoted.escape ++ ['"']

end RandomTables.Text
