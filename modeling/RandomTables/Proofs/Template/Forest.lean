import RandomTables.Proofs.Text
import RandomTables.Template.Parse

/-! # Nested brackets

A text in which brackets of all three kinds are properly nested, as a forest. What the library
reads by counting brackets is read off the forest.
-/

namespace RandomTables

inductive Bracket.Kind where
  | square
  | curly
  | round
  deriving DecidableEq

namespace Bracket

def Kind.opening : Kind → Char
  | .square => '['
  | .curly => '{'
  | .round => '('

def Kind.closing : Kind → Char
  | .square => ']'
  | .curly => '}'
  | .round => ')'

def isPlain (c : Char) : Bool := !isOpening c && !isClosing c

theorem isOpening_opening (kind : Kind) : isOpening kind.opening := by
  cases kind <;> decide

theorem isClosing_closing (kind : Kind) : isClosing kind.closing := by
  cases kind <;> decide

theorem isOpening_closing (kind : Kind) : isOpening kind.closing = false := by
  cases kind <;> decide

theorem isPlain_opening (kind : Kind) : isPlain kind.opening = false := by
  cases kind <;> decide

theorem isPlain_closing (kind : Kind) : isPlain kind.closing = false := by
  cases kind <;> decide

theorem isOpening_of_plain {c : Char} (hc : isPlain c) : isOpening c = false := by
  simp only [isPlain, Bool.and_eq_true, Bool.not_eq_true'] at hc
  exact hc.1

theorem isClosing_of_plain {c : Char} (hc : isPlain c) : isClosing c = false := by
  simp only [isPlain, Bool.and_eq_true, Bool.not_eq_true'] at hc
  exact hc.2

theorem isOpening_of_closing {c : Char} (hc : isClosing c) : isOpening c = false := by
  simp only [isClosing, Bool.or_eq_true, beq_iff_eq] at hc
  rcases hc with (rfl | rfl) | rfl <;> rfl

theorem ne_opening_of_plain {c : Char} (hc : isPlain c) (kind : Kind) : c ≠ kind.opening := by
  rintro rfl
  rw [isPlain_opening] at hc
  cases hc

theorem ne_closing_of_plain {c : Char} (hc : isPlain c) (kind : Kind) : c ≠ kind.closing := by
  rintro rfl
  rw [isPlain_closing] at hc
  cases hc

theorem isPlain_of_brackets {p : Char → Bool}
    (hbrackets : ∀ kind : Kind, p kind.opening = false ∧ p kind.closing = false) {c : Char}
    (hc : p c) : isPlain c := by
  have hopening (kind : Kind) : c ≠ kind.opening := by
    rintro rfl
    rw [(hbrackets kind).1] at hc
    cases hc
  have hclosing (kind : Kind) : c ≠ kind.closing := by
    rintro rfl
    rw [(hbrackets kind).2] at hc
    cases hc
  simp only [isPlain, isOpening, isClosing, Bool.and_eq_true, Bool.not_eq_true',
    Bool.or_eq_false_iff, beq_eq_false_iff_ne]
  exact ⟨⟨⟨hopening .square, hopening .curly⟩, hopening .round⟩,
    ⟨hclosing .square, hclosing .curly⟩, hclosing .round⟩

theorem isPlain_of_isBlank {c : Char} (h : Text.isBlank c) : isPlain c :=
  isPlain_of_brackets (fun kind => by cases kind <;> decide) h

theorem opening_ne_closing (kind kind' : Kind) : kind.opening ≠ kind'.closing := by
  cases kind <;> cases kind' <;> decide

theorem opening_ne {kind kind' : Kind} (h : kind ≠ kind') : kind.opening ≠ kind'.opening := by
  revert h
  cases kind <;> cases kind' <;> decide

theorem closing_ne {kind kind' : Kind} (h : kind ≠ kind') : kind.closing ≠ kind'.closing := by
  revert h
  cases kind <;> cases kind' <;> decide

/-! ## Steps of cutting -/

/-- Puts a text in front of the first piece. -/
def glue (t : Text) : List Text → List Text
  | [] => [t]
  | piece :: more => (t ++ piece) :: more

theorem glue_glue (s t : Text) (cuts : List Text) : glue s (glue t cuts) = glue (s ++ t) cuts := by
  cases cuts with
  | nil => rfl
  | cons piece more => simp only [glue, List.append_assoc]

theorem pieces_ne_nil (sep : Char) (depth : Int) (t : Text) : pieces sep depth t ≠ [] := by
  cases t with
  | nil => exact List.cons_ne_nil _ _
  | cons c t =>
    rw [pieces]
    split
    · exact List.cons_ne_nil _ _
    · split <;> exact List.cons_ne_nil _ _

theorem glue_nil_pieces (sep : Char) (depth : Int) (t : Text) :
    glue [] (pieces sep depth t) = pieces sep depth t := by
  cases hcuts : pieces sep depth t with
  | nil => exact absurd hcuts (pieces_ne_nil sep depth t)
  | cons piece more => rfl

theorem pieces_separator {sep : Char} (hsep : isPlain sep) (t : Text) :
    pieces sep 0 (sep :: t) = [] :: pieces sep 0 t := by
  have hplain : (!isOpening sep && !isClosing sep) = true := hsep
  rw [pieces, hplain, beq_self_eq_true]
  rfl

theorem pieces_other {sep c : Char} {depth : Int} (t : Text)
    (h : isPlain c → c = sep → depth ≠ 0) :
    pieces sep depth (c :: t) = glue [c] (pieces sep (step depth c) t) := by
  have hother : (!isOpening c && !isClosing c && c == sep && depth == 0) = false := by
    rw [Bool.eq_false_iff]
    intro hall
    simp only [Bool.and_eq_true, beq_iff_eq] at hall
    exact h (by simpa [isPlain] using hall.1.1) hall.1.2 hall.2
  rw [pieces, hother]
  rfl

theorem step_plain {c : Char} (hc : isPlain c) (depth : Int) : step depth c = depth := by
  rw [step, isOpening_of_plain hc, isClosing_of_plain hc]
  rfl

theorem step_opening (kind : Kind) (depth : Int) : step depth kind.opening = depth + 1 := by
  rw [step, isOpening_opening]
  rfl

theorem step_closing (kind : Kind) (depth : Int) : step (depth + 1) kind.closing = depth := by
  rw [step, isOpening_closing, isClosing_closing]
  exact Int.add_sub_cancel depth 1

/-! ## Steps of matching -/

theorem enclosed?_opening (kind : Kind) (inner : Nat) (t : Text) :
    enclosed? kind.opening kind.closing inner (kind.opening :: t) =
      (enclosed? kind.opening kind.closing (inner + 1) t).map
        fun (body, rest) => (kind.opening :: body, rest) := by
  simp only [enclosed?, if_pos]

theorem enclosed?_closing (kind : Kind) (inner : Nat) (t : Text) :
    enclosed? kind.opening kind.closing (inner + 1) (kind.closing :: t) =
      (enclosed? kind.opening kind.closing inner t).map
        fun (body, rest) => (kind.closing :: body, rest) := by
  rw [enclosed?, if_neg (opening_ne_closing kind kind).symm, if_pos rfl]

theorem enclosed?_match (kind : Kind) (t : Text) :
    enclosed? kind.opening kind.closing 0 (kind.closing :: t) = some ([], t) := by
  rw [enclosed?, if_neg (opening_ne_closing kind kind).symm, if_pos rfl]

theorem enclosed?_other {kind : Kind} {c : Char} (hopening : c ≠ kind.opening)
    (hclosing : c ≠ kind.closing) (inner : Nat) (t : Text) :
    enclosed? kind.opening kind.closing inner (c :: t) =
      (enclosed? kind.opening kind.closing inner t).map fun (body, rest) => (c :: body, rest) := by
  simp only [enclosed?]
  rw [if_neg hopening, if_neg hclosing]

theorem enclosed?_length_lt {opening closing : Char} {inner inner' : Nat}
    (hlt : inner < inner') {t body rest body' rest' : Text}
    (h : enclosed? opening closing inner t = some (body, rest))
    (h' : enclosed? opening closing inner' t = some (body', rest')) :
    body.length < body'.length := by
  induction t generalizing inner inner' body body' with
  | nil => cases h
  | cons c t ih =>
    simp only [enclosed?] at h h'
    by_cases hopening : c = opening
    · rw [if_pos hopening] at h h'
      obtain ⟨⟨b, r⟩, hb, heq⟩ := Option.map_eq_some_iff.1 h
      obtain ⟨⟨b', r'⟩, hb', heq'⟩ := Option.map_eq_some_iff.1 h'
      cases heq
      cases heq'
      exact Nat.succ_lt_succ (ih (Nat.succ_lt_succ hlt) hb hb')
    · rw [if_neg hopening] at h h'
      by_cases hclosing : c = closing
      · rw [if_pos hclosing] at h h'
        cases inner' with
        | zero => exact absurd hlt (Nat.not_lt_zero _)
        | succ inner' =>
          obtain ⟨⟨b', r'⟩, hb', heq'⟩ := Option.map_eq_some_iff.1 h'
          cases heq'
          cases inner with
          | zero =>
            cases h
            exact Nat.succ_pos _
          | succ inner =>
            obtain ⟨⟨b, r⟩, hb, heq⟩ := Option.map_eq_some_iff.1 h
            cases heq
            exact Nat.succ_lt_succ (ih (Nat.lt_of_succ_lt_succ hlt) hb hb')
      · rw [if_neg hclosing] at h h'
        obtain ⟨⟨b, r⟩, hb, heq⟩ := Option.map_eq_some_iff.1 h
        obtain ⟨⟨b', r'⟩, hb', heq'⟩ := Option.map_eq_some_iff.1 h'
        cases heq
        cases heq'
        exact Nat.succ_lt_succ (ih hlt hb hb')

end Bracket

open RandomTables.Bracket

/-! ## Balanced texts -/

/-- The brackets of some kinds are nested, and all other code points may stand anywhere. -/
inductive Balanced (kinds : Kind → Prop) : Text → Prop where
  | nil : Balanced kinds []
  | soft {c : Char} {t : Text}
      (hc : ∀ kind, kinds kind → c ≠ kind.opening ∧ c ≠ kind.closing) (h : Balanced kinds t) :
      Balanced kinds (c :: t)
  | enclosed {kind : Kind} {inner rest : Text} (hkind : kinds kind) (hinner : Balanced kinds inner)
      (hrest : Balanced kinds rest) :
      Balanced kinds (kind.opening :: inner ++ kind.closing :: rest)

namespace Balanced

variable {kinds : Kind → Prop} {t : Text}

theorem enclosed?_append (h : Balanced kinds t) {kind : Kind} (hkind : kinds kind) (inner : Nat)
    (tail : Text) :
    enclosed? kind.opening kind.closing inner (t ++ tail) =
      (enclosed? kind.opening kind.closing inner tail).map
        fun (body, rest) => (t ++ body, rest) := by
  induction h generalizing inner tail with
  | nil => simp only [List.nil_append, Option.map_id']
  | soft hc _ ih =>
    obtain ⟨hopening, hclosing⟩ := hc kind hkind
    rw [List.cons_append, enclosed?_other hopening hclosing, ih, Option.map_map]
    rfl
  | @enclosed kind' body rest _ _ _ ihbody ihrest =>
    simp only [List.cons_append, List.append_assoc]
    by_cases heq : kind' = kind
    · subst heq
      rw [enclosed?_opening, ihbody, enclosed?_closing, ihrest]
      simp only [Option.map_map]
      rfl
    · rw [enclosed?_other (opening_ne heq) (opening_ne_closing kind' kind), ihbody,
        enclosed?_other (opening_ne_closing kind kind').symm (closing_ne heq), ihrest]
      simp only [Option.map_map]
      rfl

theorem enclosed?_eq (h : Balanced kinds t) {kind : Kind} (hkind : kinds kind) (rest : Text) :
    enclosed? kind.opening kind.closing 0 (t ++ kind.closing :: rest) = some (t, rest) := by
  rw [h.enclosed?_append hkind, enclosed?_match]
  exact congrArg (fun body => some (body, rest)) (List.append_nil _)

end Balanced

inductive Forest where
  | nil
  | plain (c : Char) (rest : Forest) (hc : isPlain c := by decide)
  | enclosed (kind : Kind) (inner rest : Forest)

namespace Forest

def text : Forest → Text
  | nil => []
  | plain c rest _ => c :: rest.text
  | enclosed kind inner rest => kind.opening :: inner.text ++ kind.closing :: rest.text

/-! ## Matching -/

theorem balanced_text (forest : Forest) : Balanced (fun _ => True) forest.text := by
  induction forest with
  | nil => exact .nil
  | plain c rest hc ih =>
    exact ih.soft fun kind _ => ⟨ne_opening_of_plain hc kind, ne_closing_of_plain hc kind⟩
  | enclosed kind inner rest ihinner ihrest => exact ihinner.enclosed trivial ihrest

theorem enclosed?_text (kind : Kind) (inner : Forest) (rest : Text) :
    enclosed? kind.opening kind.closing 0 (inner.text ++ kind.closing :: rest) =
      some (inner.text, rest) :=
  inner.balanced_text.enclosed?_eq trivial rest

/-! ## Trimming -/

def trimStart : Forest → Forest
  | nil => nil
  | plain c rest hc => if Text.isBlank c then rest.trimStart else plain c rest hc
  | enclosed kind inner rest => enclosed kind inner rest

def trimEnd : Forest → Forest
  | nil => nil
  | plain c rest hc =>
    match rest.trimEnd with
    | nil => if Text.isBlank c then nil else plain c nil hc
    | kept => plain c kept hc
  | enclosed kind inner rest => enclosed kind inner rest.trimEnd

def trim (forest : Forest) : Forest := forest.trimStart.trimEnd

theorem trimStart_blank {c : Char} {hc : isPlain c} (hblank : Text.isBlank c) (rest : Forest) :
    (plain c rest hc).trimStart = rest.trimStart := if_pos hblank

theorem trimStart_solid {c : Char} {hc : isPlain c} (hsolid : ¬ Text.isBlank c) (rest : Forest) :
    (plain c rest hc).trimStart = plain c rest hc := if_neg hsolid

theorem trimEnd_plain (c : Char) (rest : Forest) (hc : isPlain c) :
    (plain c rest hc).trimEnd = plain c rest.trimEnd hc ∨
      Text.isBlank c ∧ rest.trimEnd = nil ∧ (plain c rest hc).trimEnd = nil := by
  cases hrest : rest.trimEnd with
  | nil =>
    rw [trimEnd, hrest]
    dsimp only
    split
    · next hblank => exact .inr ⟨hblank, rfl, rfl⟩
    · exact .inl rfl
  | plain d kept hd =>
    rw [trimEnd, hrest]
    exact .inl rfl
  | enclosed kind inner kept =>
    rw [trimEnd, hrest]
    exact .inl rfl

theorem trimStart_text (forest : Forest) : Text.trimStart forest.text = forest.trimStart.text := by
  induction forest with
  | nil => rfl
  | plain c rest hc ih =>
    by_cases hblank : Text.isBlank c
    · rw [text, trimStart, if_pos hblank, ← ih, Text.trimStart, List.dropWhile_cons_of_pos hblank]
      rfl
    · rw [text, trimStart, if_neg hblank, text, Text.trimStart, List.dropWhile_cons_of_neg hblank]
  | enclosed kind inner rest _ _ =>
    have hsolid : ¬ Text.isBlank kind.opening := by cases kind <;> decide
    exact List.dropWhile_cons_of_neg hsolid

theorem trimEnd_text (forest : Forest) : Text.trimEnd forest.text = forest.trimEnd.text := by
  induction forest with
  | nil => rfl
  | plain c rest hc ih =>
    rw [text, trimEnd, Text.trimEnd, ih]
    cases rest.trimEnd with
    | nil =>
      simp only [text]
      split <;> rfl
    | plain d kept hd => rfl
    | enclosed kind inner kept => rfl
  | enclosed kind inner rest _ ih =>
    have hsolid : ¬ Text.isBlank kind.closing := by cases kind <;> decide
    rw [text, trimEnd, text, ← ih]
    exact Text.trimEnd_append_solid (kind.opening :: inner.text) hsolid rest.text

theorem trim_text (forest : Forest) : Text.trim forest.text = forest.trim.text := by
  rw [Text.trim, trimStart_text, trimEnd_text, trim]

/-- No white space stands at either end. -/
structure IsTrimmed (forest : Forest) : Prop where
  solid : ∀ {c : Char} {rest : Forest} {hc : isPlain c},
    forest = plain c rest hc → ¬ Text.isBlank c
  trimEnd : forest.trimEnd = forest

theorem solid_trimStart (forest : Forest) {c : Char} {rest : Forest} {hc : isPlain c}
    (h : forest.trimStart = plain c rest hc) : ¬ Text.isBlank c := by
  induction forest with
  | nil => cases h
  | plain d rest' hd ih =>
    unfold trimStart at h
    split at h
    · exact ih h
    · next hsolid =>
      cases h
      exact hsolid
  | enclosed kind inner rest' _ _ => cases h

theorem trimEnd_eq_plain {forest : Forest} {c : Char} {rest : Forest} {hc : isPlain c}
    (h : forest.trimEnd = plain c rest hc) : ∃ rest', forest = plain c rest' hc := by
  cases forest with
  | nil => cases h
  | plain d rest' hd =>
    rcases trimEnd_plain d rest' hd with hkept | ⟨-, -, hnil⟩
    · rw [hkept] at h
      cases h
      exact ⟨rest', rfl⟩
    · rw [hnil] at h
      cases h
  | enclosed kind inner rest' => cases h

theorem trimEnd_trimEnd (forest : Forest) : forest.trimEnd.trimEnd = forest.trimEnd := by
  induction forest with
  | nil => rfl
  | plain c rest hc ih =>
    rcases trimEnd_plain c rest hc with hkept | ⟨-, -, hnil⟩
    · rcases trimEnd_plain c rest.trimEnd hc with hagain | ⟨hblank, hrest, -⟩
      · rw [hkept, hagain, ih]
      · rw [ih] at hrest
        have hnil : (plain c rest hc).trimEnd = nil := by
          unfold trimEnd
          rw [hrest]
          exact if_pos hblank
        rw [hnil]
        rfl
    · rw [hnil]
      rfl
  | enclosed kind inner rest _ ih => rw [trimEnd, trimEnd, ih]

theorem isTrimmed_trim (forest : Forest) : forest.trim.IsTrimmed := by
  refine ⟨fun h => ?_, trimEnd_trimEnd _⟩
  obtain ⟨rest, hstart⟩ := trimEnd_eq_plain h
  exact forest.solid_trimStart hstart

/-! ## Pieces -/

/-- The forest before the first separator outside brackets, and those behind it. -/
def cut (sep : Char) : Forest → Forest × List Forest
  | nil => (nil, [])
  | plain c rest hc =>
    if c = sep then (nil, (rest.cut sep).1 :: (rest.cut sep).2)
    else (plain c (rest.cut sep).1 hc, (rest.cut sep).2)
  | enclosed kind inner rest => (enclosed kind inner (rest.cut sep).1, (rest.cut sep).2)

/-- The forests between the separators outside brackets. -/
def pieces (sep : Char) (forest : Forest) : List Forest := (forest.cut sep).1 :: (forest.cut sep).2

theorem cut_mem_pieces (sep : Char) (forest : Forest) : (forest.cut sep).1 ∈ forest.pieces sep :=
  List.mem_cons_self

theorem pieces_append_deep (sep : Char) (forest : Forest) (depth : Int) (hdepth : 0 < depth)
    (tail : Text) :
    Bracket.pieces sep depth (forest.text ++ tail) =
      glue forest.text (Bracket.pieces sep depth tail) := by
  have hne : depth ≠ 0 := by omega
  have hne' : depth + 1 ≠ 0 := by omega
  induction forest generalizing depth tail with
  | nil => exact (glue_nil_pieces sep depth tail).symm
  | plain c rest hc ih =>
    rw [text, List.cons_append, pieces_other _ fun _ _ => hne, step_plain hc,
      ih depth hdepth tail hne hne', glue_glue]
    rfl
  | enclosed kind inner rest ihinner ihrest =>
    have hinner := ihinner (depth + 1) (by omega) (kind.closing :: (rest.text ++ tail))
      hne' (by omega)
    have hrest := ihrest depth hdepth tail hne hne'
    rw [text, List.append_assoc, List.cons_append, List.cons_append,
      pieces_other _ fun _ _ => hne, step_opening, hinner, pieces_other _ fun _ _ => hne',
      step_closing, hrest, glue_glue, glue_glue, glue_glue]
    simp only [List.cons_append, List.nil_append, List.append_assoc]

theorem pieces_enclosed_append (sep : Char) (kind : Kind) (inner : Forest) (tail : Text) :
    Bracket.pieces sep 0 (kind.opening :: inner.text ++ kind.closing :: tail) =
      glue (kind.opening :: inner.text ++ [kind.closing]) (Bracket.pieces sep 0 tail) := by
  have hopening : isPlain kind.opening → kind.opening = sep → (0 : Int) ≠ 0 := by
    rw [isPlain_opening]
    intro h
    cases h
  have hclosing : isPlain kind.closing → kind.closing = sep → (0 + 1 : Int) ≠ 0 := fun _ _ => by
    decide
  rw [List.cons_append, pieces_other _ hopening, step_opening,
    pieces_append_deep sep inner _ (by decide), pieces_other _ hclosing, step_closing, glue_glue,
    glue_glue]
  simp only [List.cons_append, List.nil_append]

theorem pieces_text {sep : Char} (hsep : isPlain sep) (forest : Forest) :
    Bracket.pieces sep 0 forest.text = (forest.pieces sep).map text := by
  induction forest with
  | nil => rfl
  | plain c rest hc ih =>
    by_cases hcsep : c = sep
    · subst hcsep
      rw [text, pieces_separator hsep, ih]
      simp only [pieces, cut, if_pos]
      rfl
    · rw [text, pieces_other _ fun _ h => absurd h hcsep, step_plain hc, ih]
      simp only [pieces, cut, if_neg hcsep]
      rfl
  | enclosed kind inner rest _ ih =>
    rw [text, pieces_enclosed_append, ih]
    simp only [pieces, cut, List.map_cons, glue, text, List.cons_append, List.nil_append,
      List.append_assoc]

end Forest

end RandomTables
