import RandomTables.Text.Alphanumeric
import RandomTables.Text.Case.Table

/-! # Letter case -/

namespace RandomTables.Text

namespace Case

/-- The code point at the shift of its run, or the code point itself. -/
def shifted (runs : List (Nat × Nat × Nat × Int)) (c : Char) : Char :=
  match runs.find? fun (first, last, step, _) =>
      first ≤ c.toNat && c.toNat ≤ last && (c.toNat - first) % step == 0 with
  | some (_, _, _, shift) => Char.ofNat (Int.toNat (c.toNat + shift))
  | none => c

/-- The case mapping of one code point. -/
def mapped (special : List (Nat × List Nat)) (runs : List (Nat × Nat × Nat × Int)) (c : Char) :
    Text :=
  match special.find? (·.1 == c.toNat) with
  | some (_, codes) => codes.map Char.ofNat
  | none => [shifted runs c]

end Case

def lowerChar (c : Char) : Text :=
  if c.toNat < 0x80 then [c.toLower] else Case.mapped Case.lowerSpecial Case.lowerRuns c

def upperChar (c : Char) : Text :=
  if c.toNat < 0x80 then [c.toUpper] else Case.mapped Case.upperSpecial Case.upperRuns c

/-- Behind code points that case ignores comes a letter with case. -/
def meetsCased (t : Text) : Bool :=
  match t.dropWhile (inRuns Case.ignorableRuns) with
  | c :: _ => inRuns Case.casedRuns c
  | [] => false

/-- Lower case of a text with the text `before` it, the nearest code point first. A capital sigma
at the end of a word has a form of its own. -/
def lowerAfter (before : Text) : Text → Text
  | [] => []
  | c :: t =>
    (if c = '\u03a3' then [if meetsCased before && !meetsCased t then '\u03c2' else '\u03c3']
      else lowerChar c) ++ lowerAfter (c :: before) t

def lower (t : Text) : Text := lowerAfter [] t

/-- The first code point in upper case and the rest in lower case. -/
def capitalize : Text → Text
  | [] => []
  | c :: t => upperChar c ++ lower t

/-- Equality of texts where ASCII letters match in either case. -/
def eqIgnoringAsciiCase (s t : Text) : Bool := s.map Char.toLower == t.map Char.toLower

end RandomTables.Text
