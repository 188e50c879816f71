import RandomTables.Proofs.Template.Flat
import RandomTables.Proofs.Template.Shape

/-! # Texts with nested brackets

A text in which the brackets are nested is cut at the separators outside them, and the white space
around the operands does not matter.
-/

namespace RandomTables

open RandomTables.Bracket

/-! ## Nested texts -/

namespace Forest

def append : Forest → Forest → Forest
  | nil, behind => behind
  | plain c rest hc, behind => plain c (rest.append behind) hc
  | enclosed kind inner rest, behind => enclosed kind inner (rest.append behind)

theorem text_append (forest behind : Forest) :
    (forest.append behind).text = forest.text ++ behind.text := by
  induction forest with
  | nil => rfl
  | plain c rest hc ih => simp [append, text, ih]
  | enclosed kind inner rest _ ih => simp [append, text, ih]

theorem outside_append (forest behind : Forest) :
    (forest.append behind).outside = forest.outside ++ behind.outside := by
  induction forest with
  | nil => rfl
  | plain c rest hc ih => simp [append, outside, ih]
  | enclosed kind inner rest _ ih => simp [append, outside, ih]

end Forest

/-- The brackets of a text are nested, and outside them every code point has a property. -/
def IsNested (p : Char → Prop) (t : Text) : Prop :=
  ∃ forest : Forest, forest.text = t ∧ ∀ c ∈ forest.outside, p c

namespace IsNested

variable {p : Char → Prop} {t : Text}

theorem mono {q : Char → Prop} (h : IsNested p t) (hpq : ∀ c, p c → q c) : IsNested q t := by
  obtain ⟨forest, htext, houtside⟩ := h
  exact ⟨forest, htext, fun c hc => hpq c (houtside c hc)⟩

theorem plain (h : ∀ c ∈ t, isPlain c ∧ p c) : IsNested p t := by
  induction t with
  | nil => exact ⟨.nil, rfl, by simp [Forest.outside]⟩
  | cons c t ih =>
    obtain ⟨hc, hrest⟩ := List.forall_mem_cons.1 h
    obtain ⟨forest, rfl, houtside⟩ := ih hrest
    exact ⟨.plain c forest hc.1, rfl, by simpa [Forest.outside] using ⟨hc.2, houtside⟩⟩

theorem append {s : Text} (hs : IsNested p s) (ht : IsNested p t) : IsNested p (s ++ t) := by
  obtain ⟨forest, rfl, houtside⟩ := hs
  obtain ⟨behind, rfl, houtside'⟩ := ht
  refine ⟨forest.append behind, forest.text_append behind, ?_⟩
  rw [Forest.outside_append]
  intro c hc
  exact (List.mem_append.1 hc).elim (houtside c) (houtside' c)

theorem enclosed {q : Char → Prop} (kind : Kind) (h : IsNested q t) :
    IsNested p (kind.opening :: t ++ [kind.closing]) := by
  obtain ⟨forest, rfl, -⟩ := h
  exact ⟨.enclosed kind forest .nil, rfl, by simp [Forest.outside]⟩

theorem intercalate {sep : Char} (hsep : isPlain sep ∧ p sep)
    {parts : List Text} (h : ∀ part ∈ parts, IsNested p part) :
    IsNested p ([sep].intercalate parts) := by
  induction parts with
  | nil => exact IsNested.plain (by simp)
  | cons part rest ih =>
    obtain ⟨hpart, hrest⟩ := List.forall_mem_cons.1 h
    cases rest with
    | nil => simpa using hpart
    | cons next rest =>
      have hjoin : [sep].intercalate (part :: next :: rest) =
          part ++ ([sep] ++ [sep].intercalate (next :: rest)) := by
        simp [List.intercalate_cons_cons]
      rw [hjoin]
      have hseparator : IsNested p [sep] := IsNested.plain (List.forall_mem_singleton.2 hsep)
      exact hpart.append (hseparator.append (ih hrest))

theorem enclosed?_eq (h : IsNested p t) (kind : Kind) (rest : Text) :
    enclosed? kind.opening kind.closing 0 (t ++ kind.closing :: rest) = some (t, rest) := by
  obtain ⟨forest, rfl, -⟩ := h
  exact forest.enclosed?_text kind rest

end IsNested

/-! ## Cutting -/

namespace Bracket

theorem pieces_cons (sep : Char) (depth : Int) (c : Char) (t : Text) :
    pieces sep depth (c :: t) =
      if isPlain c ∧ c = sep ∧ depth = 0 then [] :: pieces sep depth t
      else glue [c] (pieces sep (step depth c) t) := by
  split
  · next h =>
    obtain ⟨hplain, rfl, rfl⟩ := h
    exact pieces_separator hplain t
  · next h =>
    exact pieces_other t fun hplain hsep hdepth => h ⟨hplain, hsep, hdepth⟩

theorem eq_of_pieces_singleton {sep : Char} {t piece : Text} {depth : Int}
    (h : pieces sep depth t = [piece]) : piece = t := by
  induction t generalizing piece depth with
  | nil =>
    rw [pieces] at h
    cases h
    rfl
  | cons c t ih =>
    rw [pieces_cons] at h
    split at h
    · injection h with _ h
      exact absurd h (pieces_ne_nil sep depth t)
    · obtain ⟨first, more, hcuts⟩ :=
        List.exists_cons_of_ne_nil (pieces_ne_nil sep (step depth c) t)
      rw [hcuts] at h
      injection h with hfirst hmore
      rw [hmore] at hcuts
      rw [← hfirst, ih hcuts]
      rfl

theorem pieces_append {sep : Char} {t : Text} (h : IsNested (· ≠ sep) t) (tail : Text) :
    pieces sep 0 (t ++ tail) = glue t (pieces sep 0 tail) := by
  obtain ⟨forest, rfl, houtside⟩ := h
  induction forest with
  | nil => exact (glue_nil_pieces sep 0 tail).symm
  | plain c rest hc ih =>
    obtain ⟨hcsep, hrest⟩ := List.forall_mem_cons.1 houtside
    rw [Forest.text, List.cons_append, pieces_other _ fun _ heq => absurd heq hcsep, step_plain hc,
      ih hrest, glue_glue]
    rfl
  | enclosed kind inner rest _ ih =>
    rw [Forest.text_enclosed_append, ← List.cons_append, Forest.pieces_enclosed_append, ih houtside,
      glue_glue]
    simp [Forest.text]

/-! ## White space at the ends -/

theorem map_trimEnd_glue {cuts cuts' : List Text}
    (h : cuts.map Text.trimEnd = cuts'.map Text.trimEnd) (c : Char) :
    (glue [c] cuts).map Text.trimEnd = (glue [c] cuts').map Text.trimEnd := by
  cases cuts with
  | nil =>
    obtain rfl := List.map_eq_nil_iff.1 h.symm
    rfl
  | cons piece more =>
    cases cuts' with
    | nil => cases h
    | cons piece' more' =>
      injection h with hfirst hmore
      simp only [glue, List.singleton_append, List.map_cons, Text.trimEnd, hfirst, hmore]

theorem map_trimEnd_pieces {sep : Char} (hsep : ¬ Text.isBlank sep) (t : Text) {blank : Text}
    (hblank : ∀ c ∈ blank, Text.isBlank c) (depth : Int) :
    (pieces sep depth (t ++ blank)).map Text.trimEnd =
      (pieces sep depth t).map Text.trimEnd := by
  induction t generalizing depth with
  | nil =>
    induction blank with
    | nil => rfl
    | cons c blank ih =>
      obtain ⟨hc, hrest⟩ := List.forall_mem_cons.1 hblank
      have hother : ¬ (isPlain c ∧ c = sep ∧ depth = 0) := by
        rintro ⟨-, rfl, -⟩
        exact hsep hc
      have hpieces := map_trimEnd_glue (ih hrest) c
      rw [List.nil_append] at hpieces ⊢
      rw [pieces_cons, if_neg hother, step_plain (isPlain_of_isBlank hc), hpieces]
      simp [pieces, glue, Text.trimEnd, hc]
  | cons c t ih =>
    rw [List.cons_append, pieces_cons, pieces_cons]
    split
    · rw [List.map_cons, List.map_cons, ih]
    · exact map_trimEnd_glue (ih _) c

theorem map_trim_pieces_append {sep : Char} (hsep : ¬ Text.isBlank sep) (t : Text) {blank : Text}
    (hblank : ∀ c ∈ blank, Text.isBlank c) :
    (pieces sep 0 (t ++ blank)).map Text.trim = (pieces sep 0 t).map Text.trim := by
  have htrim : Text.trim = Text.trim ∘ Text.trimEnd := by
    funext piece
    obtain ⟨after, hpiece, hafter⟩ := Text.trimEnd_append_blank piece
    conv => lhs; rw [hpiece, Text.trim_append_blank _ hafter]
    rfl
  rw [htrim, ← List.map_map, ← List.map_map, map_trimEnd_pieces hsep t hblank]

theorem map_trim_pieces_blank {sep : Char} (hsep : ¬ Text.isBlank sep) {blank : Text}
    (hblank : ∀ c ∈ blank, Text.isBlank c) (t : Text) :
    (pieces sep 0 (blank ++ t)).map Text.trim = (pieces sep 0 t).map Text.trim := by
  induction blank with
  | nil => rfl
  | cons c blank ih =>
    obtain ⟨hc, hrest⟩ := List.forall_mem_cons.1 hblank
    have hother : ¬ (isPlain c ∧ c = sep ∧ (0 : Int) = 0) := by
      rintro ⟨-, rfl, -⟩
      exact hsep hc
    rw [List.cons_append, pieces_cons, if_neg hother, step_plain (isPlain_of_isBlank hc), ← ih hrest]
    obtain ⟨piece, more, hcuts⟩ := List.exists_cons_of_ne_nil (pieces_ne_nil sep 0 (blank ++ t))
    have hpiece : Text.trim ([c] ++ piece) = Text.trim piece :=
      Text.trim_blank_append (by simpa using hc) piece
    rw [hcuts, glue, List.map_cons, List.map_cons, hpiece]

theorem map_trim_pieces_trim {sep : Char} (hsep : ¬ Text.isBlank sep) (t : Text) :
    (pieces sep 0 (Text.trim t)).map Text.trim = (pieces sep 0 t).map Text.trim := by
  obtain ⟨before, after, ht, hbefore, hafter⟩ := Text.trim_between t
  conv => rhs; rw [ht, map_trim_pieces_append hsep _ hafter, map_trim_pieces_blank hsep hbefore]

theorem operands_trim {sep : Char} (hsep : ¬ Text.isBlank sep) (t : Text) :
    operands sep (Text.trim t) = operands sep t := by
  rw [operands, operands, map_trim_pieces_trim hsep]

theorem trim_of_mem_operands {sep : Char} {t part : Text} (h : part ∈ operands sep t) :
    Text.trim part = part := by
  obtain ⟨piece, -, rfl⟩ := List.mem_map.1 (List.mem_filter.1 h).1
  exact Text.trim_trim piece

theorem trim_headD_operands (sep : Char) {t : Text} (h : Text.trim t = t) :
    Text.trim ((operands sep t).headD t) = (operands sep t).headD t := by
  cases hparts : operands sep t with
  | nil => exact h
  | cons part more =>
    have hpart : part ∈ operands sep t := hparts ▸ List.mem_cons_self
    exact trim_of_mem_operands hpart

/-! ## Operands -/

theorem operands_of_nested {sep : Char} {t : Text} (h : IsNested (· ≠ sep) t)
    (hne : Text.trim t ≠ []) : operands sep t = [Text.trim t] := by
  have hpieces := pieces_append h []
  rw [List.append_nil] at hpieces
  simp [operands, hpieces, pieces, glue, hne]

theorem operands_append {sep : Char} (hsep : isPlain sep) {t : Text} (h : IsNested (· ≠ sep) t)
    (hne : Text.trim t ≠ []) (rest : Text) :
    operands sep (t ++ sep :: rest) = Text.trim t :: operands sep rest := by
  unfold operands
  rw [pieces_append h, pieces_separator hsep]
  simp [glue, hne]

theorem operands_intercalate {sep : Char} (hsep : isPlain sep) {parts : List Text} (hne : parts ≠ [])
    (h : ∀ part ∈ parts, IsNested (· ≠ sep) part ∧ Text.trim part ≠ []) :
    operands sep ([sep].intercalate parts) = parts.map Text.trim := by
  induction parts with
  | nil => exact absurd rfl hne
  | cons part rest ih =>
    obtain ⟨hpart, hrest⟩ := List.forall_mem_cons.1 h
    cases rest with
    | nil =>
      rw [List.intercalate_singleton]
      exact operands_of_nested hpart.1 hpart.2
    | cons next rest =>
      have hjoin : [sep].intercalate (part :: next :: rest) =
          part ++ sep :: [sep].intercalate (next :: rest) := by
        simp [List.intercalate_cons_cons]
      rw [hjoin, operands_append hsep hpart.1 hpart.2, ih (List.cons_ne_nil _ _) hrest]
      rfl

end Bracket

theorem ne_of_not_isOperator {sep c : Char} (hsep : isOperator sep) (hc : ¬ isOperator c) :
    c ≠ sep := by
  rintro rfl
  exact hc hsep

theorem Shape.of_nested {t : Text} (h : IsNested (¬ isOperator ·) t) (hne : Text.trim t ≠ []) :
    Shape.of (Text.trim t) = .ofOperand (Text.trim t) := by
  have hone {sep : Char} (hsep : isOperator sep) : operands sep (Text.trim t) = [Text.trim t] := by
    rw [operands_trim (not_isBlank_of_isOperator hsep), operands_of_nested _ hne]
    exact h.mono fun _ => ne_of_not_isOperator hsep
  unfold Shape.of
  rw [hone (by decide : isOperator '&')]
  dsimp only
  rw [if_neg (by simp), List.headD_cons, hone (by decide : isOperator '|'), if_neg (by simp),
    List.headD_cons]

end RandomTables
