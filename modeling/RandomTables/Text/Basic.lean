/-! # Texts

A text is the list of its code points, and every offset of this library counts code points.
-/

namespace RandomTables

abbrev Text := List Char

namespace Text

/-! ## White space -/

/-- The code points with the Unicode property White_Space. -/
def isBlank (c : Char) : Bool :=
  let n := c.toNat
  (9 ≤ n && n ≤ 13) || n == 0x20 || n == 0x85 || n == 0xA0 || n == 0x1680 ||
    (0x2000 ≤ n && n ≤ 0x200A) || n == 0x2028 || n == 0x2029 || n == 0x202F || n == 0x205F ||
    n == 0x3000

def trimStart (t : Text) : Text := t.dropWhile isBlank

def trimEnd : Text → Text
  | [] => []
  | c :: t =>
    match trimEnd t with
    | [] => if isBlank c then [] else [c]
    | kept => c :: kept

def trim (t : Text) : Text := trimEnd (trimStart t)

/-- The last code point that is not white space, or `before` where there is none. -/
def lastSolid (before : Option Char) (t : Text) : Option Char :=
  t.foldl (fun last c => if isBlank c then last else some c) before

/-! ## Searching -/

/-- `part` occurs somewhere in the text. -/
def occurs (part : Text) : Text → Bool
  | [] => part.isEmpty
  | c :: t => part.isPrefixOf (c :: t) || occurs part t

/-- The text with `start` taken off its front, if it begins with it. -/
def dropStart? : (start : Text) → Text → Option Text
  | [], t => some t
  | _ :: _, [] => none
  | a :: start, c :: t => if a = c then dropStart? start t else none

theorem dropStart?_eq {start t rest : Text} (h : dropStart? start t = some rest) :
    t = start ++ rest := by
  induction start generalizing t with
  | nil => simpa [dropStart?] using h
  | cons a start ih =>
    cases t with
    | nil => simp [dropStart?] at h
    | cons c t =>
      simp only [dropStart?] at h
      split at h
      · next hac => simp [hac, ih h]
      · simp at h

def endsWith (ending t : Text) : Bool := ending.reverse.isPrefixOf t.reverse

/-- The text before the first code point that satisfies `p`, and the text behind that code point. -/
def cutAt? (p : Char → Bool) : Text → Option (Text × Text)
  | [] => none
  | c :: t => if p c then some ([], t) else (cutAt? p t).map fun (before, rest) => (c :: before, rest)

theorem cutAt?_length {p : Char → Bool} {t before rest : Text}
    (h : cutAt? p t = some (before, rest)) : before.length + rest.length + 1 = t.length := by
  induction t generalizing before with
  | nil => simp [cutAt?] at h
  | cons c t ih =>
    simp only [cutAt?] at h
    split at h
    · cases h; simp
    · obtain ⟨⟨b, r⟩, hb, he⟩ := Option.map_eq_some_iff.1 h
      simp only [Prod.mk.injEq] at he
      obtain ⟨rfl, rfl⟩ := he
      have := ih hb
      simp only [List.length_cons]
      omega

/-! ## Decimal numbers -/

/-- The decimal digits of `n`, without leading zeros. -/
def ofNat (n : Nat) : Text := Nat.toDigits 10 n

/-- The value of a list of ASCII digits. -/
def digitsValue (digits : Text) : Nat := digits.foldl (fun n c => 10 * n + (c.toNat - '0'.toNat)) 0

/-! ## Bytes -/

/-- The UTF-8 bytes of a text. -/
def bytes (t : Text) : List UInt8 := t.flatMap String.utf8EncodeChar

/-- The text with these UTF-8 bytes; not all bytes are UTF-8. -/
def ofBytes? (bytes : List UInt8) : Option Text :=
  (String.fromUTF8? ⟨bytes.toArray⟩).map String.toList

end Text

end RandomTables
