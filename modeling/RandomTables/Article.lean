import RandomTables.Modifier

/-! # Indefinite articles

A tree puts a placeholder where an article belongs. It is resolved in the finished output, where
the word behind it is known.
-/

namespace RandomTables.Article

def placeholder : Text := ['{', 'a', '}']

/-- The article before this text; none if no word follows. -/
def before : Text → Text
  | [] => []
  | c :: _ => if Text.isAlphanumeric c then (if isVowel c then "an ".toList else "a ".toList) else []

/-- Replaces each placeholder, with the white space behind it, by the article of the word that
follows. -/
def resolve : Text → Text
  | [] => []
  | c :: t =>
    match _h : Text.dropStart? placeholder (c :: t) with
    | some rest => before (Text.trimStart rest) ++ resolve (Text.trimStart rest)
    | none => c :: resolve t
termination_by t => t.length
decreasing_by
  · have hrest := congrArg List.length (Text.dropStart?_eq _h)
    have htrim := (List.dropWhile_sublist Text.isBlank (l := rest)).length_le
    simp only [List.length_cons, List.length_append, placeholder] at hrest
    simp only [Text.trimStart, List.length_cons]
    omega
  · simp only [List.length_cons]; omega

end RandomTables.Article
