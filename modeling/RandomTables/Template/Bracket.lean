import RandomTables.Text.Basic

/-! # Brackets

Two ways to read brackets. The match of an opening bracket counts brackets of its own kind only.
The depth of a place counts all three kinds together, and may be negative.
-/

namespace RandomTables.Bracket

def isOpening (c : Char) : Bool := c == '[' || c == '{' || c == '('

def isClosing (c : Char) : Bool := c == ']' || c == '}' || c == ')'

/-! ## Matching -/

/-- The text up to the match of a bracket that is already open, and the text behind that match.
`inner` counts the brackets of the same kind that were opened since. -/
def enclosed? (opening closing : Char) : (inner : Nat) → Text → Option (Text × Text)
  | _, [] => none
  | inner, c :: t =>
    if c = opening then
      (enclosed? opening closing (inner + 1) t).map fun (body, rest) => (c :: body, rest)
    else if c = closing then
      match inner with
      | 0 => some ([], t)
      | inner + 1 => (enclosed? opening closing inner t).map fun (body, rest) => (c :: body, rest)
    else
      (enclosed? opening closing inner t).map fun (body, rest) => (c :: body, rest)

/-- The body of a bracketed text that opens with `[`, `{` or `(`, and the text behind it. -/
def body? : Text → Option (Text × Text)
  | '[' :: t => enclosed? '[' ']' 0 t
  | '{' :: t => enclosed? '{' '}' 0 t
  | '(' :: t => enclosed? '(' ')' 0 t
  | _ => none

theorem enclosed?_eq {opening closing : Char} {inner : Nat} {t body rest : Text}
    (h : enclosed? opening closing inner t = some (body, rest)) : t = body ++ closing :: rest := by
  induction t generalizing inner body with
  | nil => simp [enclosed?] at h
  | cons c t ih =>
    simp only [enclosed?] at h
    split at h
    · obtain ⟨⟨b, r⟩, hb, he⟩ := Option.map_eq_some_iff.1 h
      cases he
      simp [ih hb]
    · split at h
      · subst_vars
        split at h
        · cases h; rfl
        · obtain ⟨⟨b, r⟩, hb, he⟩ := Option.map_eq_some_iff.1 h
          cases he
          simp [ih hb]
      · obtain ⟨⟨b, r⟩, hb, he⟩ := Option.map_eq_some_iff.1 h
        cases he
        simp [ih hb]

theorem enclosed?_length {opening closing : Char} {inner : Nat} {t body rest : Text}
    (h : enclosed? opening closing inner t = some (body, rest)) :
    body.length + rest.length + 1 = t.length := by
  rw [enclosed?_eq h]
  simp only [List.length_append, List.length_cons]
  omega

/-! ## Depth -/

/-- The depth behind a code point, from the depth before it. -/
def step (depth : Int) (c : Char) : Int :=
  if isOpening c then depth + 1 else if isClosing c then depth - 1 else depth

/-- The pieces of a text between the separators at depth zero. -/
def pieces (sep : Char) : (depth : Int) → Text → List Text
  | _, [] => [[]]
  | depth, c :: t =>
    if !isOpening c && !isClosing c && c == sep && depth == 0 then
      [] :: pieces sep depth t
    else
      match pieces sep (step depth c) t with
      | [] => [[c]]
      | piece :: more => (c :: piece) :: more

/-- The pieces of a text between the separators at depth zero, trimmed, without the empty ones. -/
def operands (sep : Char) (t : Text) : List Text :=
  ((pieces sep 0 t).map Text.trim).filter (!·.isEmpty)

/-- Cuts a text before the first code point at depth zero or below that satisfies `p`; a bracket
never does. -/
def cutOutside (p : Char → Bool) : (depth : Int) → Text → Text × Text
  | _, [] => ([], [])
  | depth, c :: t =>
    if !isOpening c && !isClosing c && depth ≤ 0 && p c then
      ([], c :: t)
    else
      let (before, rest) := cutOutside p (step depth c) t
      (c :: before, rest)

end RandomTables.Bracket
