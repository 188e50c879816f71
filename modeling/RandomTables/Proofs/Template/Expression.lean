import RandomTables.Proofs.Template.Notation
import RandomTables.Proofs.Template.Tree

/-! # Written expressions

A grammar of expressions: which trees can stand for an operand, for a choice between operands and for
operands put together, and how each of them is written. Reading gives the tree back.
-/

namespace RandomTables

open RandomTables.Bracket

/-! ## The grammar -/

/-- Digits, a dash and digits, however large the numbers are. -/
def IsRange (t : Text) : Prop :=
  ∃ low high : Text, t = low ++ '-' :: high ∧ low ≠ [] ∧ high ≠ [] ∧
    ∀ c ∈ low ++ high, c.isDigit

/-- A text that is read as itself where an operand is read. -/
structure IsProse (t : Text) : Prop where
  ne_nil : t ≠ []
  trimmed : Text.trim t = t
  plain : ∀ c ∈ t, isPlain c ∧ ¬ isOperator c
  ne_article : t ≠ ['a']
  not_isRange : ¬ IsRange t

/-- A tree as it is written between two operators: with white space on both sides. -/
structure Padded where
  node : Node
  text : Text
  before : Text := []
  after : Text := []
  before_blank : before.all Text.isBlank := by decide
  after_blank : after.all Text.isBlank := by decide

def Padded.written (part : Padded) : Text := part.before ++ part.text ++ part.after

inductive Level where
  | operand
  | choice
  | expression

/-- The tree is written as this text: `&` binds looser than `|`, and parentheses hold any
expression. -/
inductive Spelled : Level → Node → Text → Prop where
  | reference {ref : Reference} {inside outside : List Clause} (h : ref.IsWritable)
      (hclauses : ref.IsSpelledBy (inside ++ outside)) :
      Spelled .operand (.reference ref) (ref.bracketed inside outside)
  | number {low high : UInt64} (h : low ≤ high) :
      Spelled .operand (.number low high) (rangeText low.toNat high.toNat)
  | article : Spelled .operand .article ['a']
  | text {value : Text} (h : IsProse value) : Spelled .operand (.text value) value
  | group {inner : Node} {t : Text} (h : Spelled .expression inner t) :
      Spelled .operand (.group inner) ('(' :: t ++ [')'])
  | oneOf {options : List Padded} (htwo : 2 ≤ options.length)
      (h : ∀ option ∈ options, Spelled .operand option.node option.text) :
      Spelled .choice (.oneOf (options.map Padded.node))
        (['|'].intercalate (options.map Padded.written))
  | lone {node : Node} {t : Text} (h : Spelled .operand node t) : Spelled .choice node t
  | all {parts : List Padded} (htwo : 2 ≤ parts.length)
      (h : ∀ part ∈ parts, Spelled .choice part.node part.text) :
      Spelled .expression (.all (parts.map Padded.node))
        (['&'].intercalate (parts.map Padded.written))
  | whole {node : Node} {t : Text} (h : Spelled .choice node t) : Spelled .expression node t

/-! ## Written texts -/

theorem mem_intercalate_of_two_le {sep : Char} {parts : List Text} (h : 2 ≤ parts.length) :
    sep ∈ [sep].intercalate parts := by
  match parts with
  | first :: second :: rest => simp [List.intercalate_cons_cons]

namespace Padded

variable (part : Padded)

theorem trim_written : Text.trim part.written = Text.trim part.text := by
  have hbefore := List.all_eq_true.1 part.before_blank
  have hafter := List.all_eq_true.1 part.after_blank
  unfold written
  rw [Text.trim_append_blank _ hafter, Text.trim_blank_append hbefore]

theorem isNested_written {p : Char → Prop} (hblank : ∀ c, Text.isBlank c → p c)
    (h : IsNested p part.text) : IsNested p part.written := by
  have hpad {pad : Text} (hpad : pad.all Text.isBlank) : IsNested p pad := by
    apply IsNested.plain
    intro c hc
    have hc := List.all_eq_true.1 hpad c hc
    exact ⟨isPlain_of_isBlank hc, hblank c hc⟩
  exact ((hpad part.before_blank).append h).append (hpad part.after_blank)

end Padded

/-- What can stand outside the brackets of a written tree. -/
def Level.Outside : Level → Char → Prop
  | .operand, c => ¬ isOperator c
  | .choice, c => c ≠ '&'
  | .expression, _ => True

theorem Level.outside_of_isBlank (level : Level) {c : Char} (h : Text.isBlank c) :
    level.Outside c := by
  have hoperator : ¬ isOperator c := fun hoperator => not_isBlank_of_isOperator hoperator h
  cases level with
  | operand => exact hoperator
  | choice => exact ne_of_not_isOperator (by decide) hoperator
  | expression => trivial

namespace Spelled

variable {level : Level} {node : Node} {t : Text}

theorem isNested (h : Spelled level node t) : IsNested level.Outside t := by
  induction h with
  | reference hwritable hclauses =>
    apply Reference.isNested_bracketed hwritable
    · intro clause hmem
      exact Reference.isWritable_of_mem hwritable hclauses (List.mem_append_left _ hmem)
    · intro clause hmem
      exact Reference.isWritable_of_mem hwritable hclauses (List.mem_append_right _ hmem)
  | number => exact IsNested.plain fun c hc => isPlain_of_mem_rangeText hc
  | article =>
    apply IsNested.plain
    rw [List.forall_mem_singleton]
    exact ⟨by decide, by simp [Level.Outside, isOperator]⟩
  | text h => exact IsNested.plain h.plain
  | group _ ih => exact ih.enclosed .round
  | oneOf _ _ ih =>
    apply IsNested.intercalate ⟨by decide, by simp [Level.Outside]⟩
    intro written hmem
    obtain ⟨option, hoption, rfl⟩ := List.mem_map.1 hmem
    apply option.isNested_written fun c => Level.outside_of_isBlank .choice
    exact (ih option hoption).mono fun _ => ne_of_not_isOperator (by decide)
  | lone _ ih => exact ih.mono fun _ => ne_of_not_isOperator (by decide)
  | all _ _ ih =>
    apply IsNested.intercalate ⟨by decide, trivial⟩
    intro written hmem
    obtain ⟨part, hpart, rfl⟩ := List.mem_map.1 hmem
    exact part.isNested_written (fun _ _ => trivial) ((ih part hpart).mono fun _ _ => trivial)
  | whole _ ih => exact ih.mono fun _ _ => trivial

theorem trim_ne_nil (h : Spelled level node t) : Text.trim t ≠ [] := by
  have hsolid {c : Char} (hmem : c ∈ t) (hc : ¬ Text.isBlank c) : Text.trim t ≠ [] :=
    List.ne_nil_of_mem (Text.mem_trim hc hmem)
  induction h with
  | reference => exact hsolid List.mem_cons_self (by decide)
  | number => exact hsolid (List.mem_append_right _ List.mem_cons_self) (by decide)
  | article => decide
  | text h =>
    rw [h.trimmed]
    exact h.ne_nil
  | group => exact hsolid List.mem_cons_self (by decide)
  | oneOf htwo =>
    exact hsolid (mem_intercalate_of_two_le (by rwa [List.length_map])) (by decide)
  | lone _ ih => exact ih hsolid
  | all htwo =>
    exact hsolid (mem_intercalate_of_two_le (by rwa [List.length_map])) (by decide)
  | whole _ ih => exact ih hsolid

end Spelled

/-! ## Reading -/

theorem numberRange?_eq_none {t : Text} (h : ¬ IsRange t) : numberRange? t = none := by
  unfold numberRange?
  split
  · rfl
  · next low high hcut =>
    split
    · rfl
    · next hdigits =>
      obtain ⟨dash, hdash, rfl⟩ := Text.cutAt?_eq hcut
      rw [beq_iff_eq] at hdash
      subst hdash
      simp only [Bool.or_eq_true, Bool.not_eq_true', not_or, Bool.not_eq_false,
        List.isEmpty_iff, List.all_eq_true] at hdigits
      obtain ⟨⟨⟨hlow, hhigh⟩, hlowDigits⟩, hhighDigits⟩ := hdigits
      refine absurd ⟨low, high, rfl, hlow, hhigh, ?_⟩ h
      intro c hc
      exact (List.mem_append.1 hc).elim (hlowDigits c) (hhighDigits c)

theorem trim_range {low high : Text} (hdigits : ∀ c ∈ low ++ high, c.isDigit) (hlow : low ≠ [])
    (hhigh : high ≠ []) : Text.trim (low ++ '-' :: high) = low ++ '-' :: high := by
  have hend : Text.EndsSolid high := Text.endsSolid_of_forall hhigh fun c hc =>
    Text.not_isBlank_of_isDigit (hdigits c (List.mem_append_right low hc))
  have hends := (hend.append ['-']).append low
  obtain ⟨c, digits, rfl⟩ := List.exists_cons_of_ne_nil hlow
  exact Text.trim_eq_self (Text.not_isBlank_of_isDigit (hdigits c List.mem_cons_self)) hends

theorem readExpression_trim (depth : Nat) (t : Text) :
    readExpression depth (Text.trim t) = readExpression depth t := by
  cases depth with
  | zero => rw [readExpression, readExpression, Text.trim_trim]
  | succ depth => rw [readExpression_succ, readExpression_succ, Text.trim_trim]

namespace Shape

theorem of_all {t : Text} {parts : List Text} (h : operands '&' t = parts)
    (htwo : 2 ≤ parts.length) : Shape.of t = .all parts := by
  subst h
  unfold Shape.of
  exact if_pos htwo

theorem of_oneOf {t : Text} {parts : List Text} (hlone : operands '&' t = [t])
    (h : operands '|' t = parts) (htwo : 2 ≤ parts.length) : Shape.of t = .oneOf parts := by
  subst h
  unfold Shape.of
  rw [hlone]
  exact if_pos htwo

theorem ofOperand_plain {t : Text} (h : ∀ c ∈ t, isPlain c) :
    ofOperand t =
      match numberRange? t with
      | some (low, high) => .leaf (.number (min low high) (max low high))
      | none => if t = ['a'] then .leaf .article else .leaf (.text t) := by
  have hgroup : parenthesised? t = none := by
    cases t with
    | nil => rfl
    | cons c t => exact parenthesised?_of_ne (ne_opening_of_plain (h c List.mem_cons_self) .round) t
  have hopening (kind : Kind) : t.contains kind.opening = false := by
    rw [Bool.eq_false_iff]
    intro hmem
    exact ne_opening_of_plain (h _ (List.contains_iff_mem.1 hmem)) kind rfl
  have hsquare : t.contains '[' = false := hopening .square
  have hcurly : t.contains '{' = false := hopening .curly
  unfold ofOperand
  rw [hgroup, hsquare, hcurly]
  rfl

end Shape

theorem readExpression_range {low high : Text} (hdigits : ∀ c ∈ low ++ high, c.isDigit)
    (hlow : low ≠ []) (hhigh : high ≠ []) (depth : Nat) :
    readExpression (depth + 1) (low ++ '-' :: high) =
      match numberRange? (low ++ '-' :: high) with
      | some (a, b) => .number (min a b) (max a b)
      | none => .text (low ++ '-' :: high) := by
  have htrim := trim_range hdigits hlow hhigh
  have hnested : IsNested (¬ isOperator ·) (low ++ '-' :: high) :=
    IsNested.plain fun c hc => isPlain_of_mem_range hdigits hc
  have hne : Text.trim (low ++ '-' :: high) ≠ [] := by
    rw [htrim]
    simp
  have harticle : low ++ '-' :: high ≠ ['a'] := by
    intro h
    have hmem : '-' ∈ ['a'] := h ▸ List.mem_append_right low List.mem_cons_self
    exact absurd hmem (by decide)
  rw [readExpression_succ, Shape.of_nested hnested hne, htrim,
    Shape.ofOperand_plain fun c hc => (isPlain_of_mem_range hdigits hc).1]
  cases numberRange? (low ++ '-' :: high) with
  | some bounds => rfl
  | none =>
    dsimp only
    rw [if_neg harticle]
    rfl

theorem operands_written {sep : Char} (hsep : isOperator sep) {parts : List Padded}
    (htwo : 2 ≤ parts.length)
    (h : ∀ part ∈ parts, IsNested (· ≠ sep) part.text ∧ Text.trim part.text ≠ []) :
    operands sep (Text.trim ([sep].intercalate (parts.map Padded.written))) =
      parts.map fun part => Text.trim part.text := by
  have hblank (c : Char) (hc : Text.isBlank c) : c ≠ sep := by
    rintro rfl
    exact not_isBlank_of_isOperator hsep hc
  have hne : parts.map Padded.written ≠ [] := by
    rintro hnil
    rw [List.map_eq_nil_iff.1 hnil] at htwo
    exact absurd htwo (by decide)
  rw [operands_trim (not_isBlank_of_isOperator hsep),
    operands_intercalate (isPlain_of_isOperator hsep) hne]
  · simp [List.map_map, Function.comp_def, Padded.trim_written]
  · intro written hmem
    obtain ⟨part, hpart, rfl⟩ := List.mem_map.1 hmem
    rw [part.trim_written]
    exact ⟨part.isNested_written hblank (h part hpart).1, (h part hpart).2⟩

theorem map_readExpression_trim {depth : Nat} {parts : List Padded}
    (h : ∀ part ∈ parts, readExpression depth part.text = part.node) :
    (parts.map fun part => Text.trim part.text).map (readExpression depth) =
      parts.map Padded.node := by
  rw [List.map_map]
  apply List.map_congr_left
  intro part hpart
  rw [Function.comp_apply, readExpression_trim, h part hpart]

namespace Spelled

variable {level : Level} {node : Node} {t : Text}

theorem readExpression_operand (h : Spelled .operand node t) (htrim : Text.trim t = t) (depth : Nat) :
    readExpression (depth + 1) t =
      (Shape.ofOperand t).node (readExpression depth) (readTemplate depth) := by
  rw [readExpression_succ, Shape.of_nested h.isNested h.trim_ne_nil, htrim]

theorem readExpression_number {low high : UInt64} (h : low ≤ high) (depth : Nat) :
    readExpression (depth + 1) (rangeText low.toNat high.toNat) = .number low high := by
  have hmin : min low high = low := if_pos h
  have hmax : max low high = high := if_pos h
  have hread := readExpression_range isDigit_of_mem_bounds (Text.ofNat_ne_nil low.toNat)
    (Text.ofNat_ne_nil high.toNat) depth
  rw [← rangeText, numberRange?_rangeText low.toNat_lt high.toNat_lt] at hread
  simpa only [UInt64.ofNat_toNat, hmin, hmax] using hread

theorem readExpression_text {value : Text} (h : IsProse value) (depth : Nat) :
    readExpression (depth + 1) value = .text value := by
  rw [(text h).readExpression_operand h.trimmed,
    Shape.ofOperand_plain fun c hc => (h.plain c hc).1, numberRange?_eq_none h.not_isRange]
  dsimp only
  rw [if_neg h.ne_article, Shape.node]

theorem readExpression_group {inner : Node} (h : Spelled .expression inner t) {depth : Nat}
    (hread : readExpression depth t = inner) :
    readExpression (depth + 1) ('(' :: t ++ [')']) = .group inner := by
  have htrim : Text.trim ('(' :: t ++ [')']) = '(' :: t ++ [')'] :=
    Text.trim_eq_self (by decide) ⟨'(' :: t, ')', rfl, by decide⟩
  have henclosed : enclosed? '(' ')' 0 (t ++ [')']) = some (t, []) :=
    h.isNested.enclosed?_eq .round []
  have hmatch : parenthesised? ('(' :: t ++ [')']) = some t := by
    simp only [parenthesised?, List.cons_append, henclosed]
  rw [(group h).readExpression_operand htrim, Shape.ofOperand_group hmatch, Shape.node, hread]

theorem readExpression_oneOf {options : List Padded} (htwo : 2 ≤ options.length)
    (h : ∀ option ∈ options, Spelled .operand option.node option.text) {depth : Nat}
    (hread : ∀ option ∈ options, readExpression depth option.text = option.node) :
    readExpression (depth + 1) (['|'].intercalate (options.map Padded.written)) =
      .oneOf (options.map Padded.node) := by
  have hspelled := oneOf htwo h
  have hlone := operands_of_nested hspelled.isNested hspelled.trim_ne_nil
  rw [← operands_trim (by decide)] at hlone
  have hoperands := operands_written (by decide : isOperator '|') htwo fun option hoption => by
    refine ⟨(h option hoption).isNested.mono fun _ => ?_, (h option hoption).trim_ne_nil⟩
    exact ne_of_not_isOperator (by decide)
  rw [readExpression_succ, Shape.of_oneOf hlone hoperands (by rwa [List.length_map]), Shape.node,
    map_readExpression_trim hread]

theorem readExpression_all {parts : List Padded} (htwo : 2 ≤ parts.length)
    (h : ∀ part ∈ parts, Spelled .choice part.node part.text) {depth : Nat}
    (hread : ∀ part ∈ parts, readExpression depth part.text = part.node) :
    readExpression (depth + 1) (['&'].intercalate (parts.map Padded.written)) =
      .all (parts.map Padded.node) := by
  have hoperands := operands_written (by decide : isOperator '&') htwo fun part hpart =>
    ⟨(h part hpart).isNested, (h part hpart).trim_ne_nil⟩
  rw [readExpression_succ, Shape.of_all hoperands (by rwa [List.length_map]), Shape.node,
    map_readExpression_trim hread]

/-- Every operator and every group takes one level, and a leaf needs one. -/
theorem readExpression_eq (h : Spelled level node t) {depth : Nat} (hdepth : node.nesting ≤ depth) :
    readExpression (depth + 1) t = node := by
  induction h generalizing depth with
  | reference hwritable hclauses =>
    exact Reference.readExpression_bracketed hwritable hclauses depth
  | number hle => exact readExpression_number hle depth
  | article =>
    rw [readExpression_succ]
    rfl
  | text hprose => exact readExpression_text hprose depth
  | @group inner t hinner ih =>
    obtain ⟨below, rfl, hbelow⟩ := Node.nesting_group hdepth
    exact readExpression_group hinner (ih hbelow)
  | oneOf htwo hoptions ih =>
    obtain ⟨below, rfl, hbelow⟩ := Node.nesting_oneOf hdepth
    apply readExpression_oneOf htwo hoptions
    exact fun option hoption => ih option hoption (hbelow _ (List.mem_map_of_mem hoption))
  | lone _ ih => exact ih hdepth
  | all htwo hparts ih =>
    obtain ⟨below, rfl, hbelow⟩ := Node.nesting_all hdepth
    apply readExpression_all htwo hparts
    exact fun part hpart => ih part hpart (hbelow _ (List.mem_map_of_mem hpart))
  | whole _ ih => exact ih hdepth

theorem ne_empty (h : Spelled level node t) : node ≠ .text [] := by
  induction h with
  | text hprose => exact fun hempty => hprose.ne_nil (Node.text.inj hempty)
  | lone _ ih => exact ih
  | whole _ ih => exact ih
  | _ => exact Node.noConfusion

/-- Reading is the inverse of writing, as long as the tree is not nested too deep. -/
theorem parse_written (h : Spelled .expression node t) (hnesting : node.nesting + 1 < nestingLimit) :
    parseInline t = node ∧ parse ('{' :: t ++ ['}']) = node := by
  obtain ⟨depth, hlimit⟩ := Nat.exists_eq_add_of_lt hnesting
  have hmatch : enclosed? '{' '}' 0 (t ++ ['}']) = some (t, []) := h.isNested.enclosed?_eq .curly []
  have hsplit := Piece.split_braced hmatch
  rw [Piece.split_nil] at hsplit
  rw [parseInline, parse, hlimit]
  constructor
  · exact h.readExpression_eq (by omega)
  · have hbody : readExpression (node.nesting + 1 + depth) t = node := by
      rw [Nat.add_right_comm]
      exact h.readExpression_eq (Nat.le_add_right _ depth)
    rw [readTemplate, List.cons_append, hsplit, List.map_singleton, Piece.node, hbody]
    exact Node.concat_singleton h.ne_empty

def npcTree : Node :=
  .all [.group (.oneOf [.number 2 5, .reference Reference.npcName]), .article]

def npcText : Text := "(2-5 | [npc.name.capitalize?]!old man*\x7b3-1\x7d)& a".toList

theorem parse_written_npc :
    Spelled .expression npcTree npcText ∧ npcTree.nesting + 1 < nestingLimit ∧
      parseInline npcText = npcTree ∧ parse ('{' :: npcText ++ ['}']) = npcTree := by
  have hreference : Spelled .operand (.reference Reference.npcName)
      "[npc.name.capitalize?]!old man*\x7b3-1\x7d".toList :=
    @reference _ [.optional] _ Reference.isWritable_npcName Reference.isSpelledBy_npcClauses
  have hnumber : Spelled .operand (.number 2 5) "2-5".toList := @number 2 5 (by decide)
  have hchoice : Spelled .choice (.oneOf [.number 2 5, .reference Reference.npcName])
      "2-5 | [npc.name.capitalize?]!old man*\x7b3-1\x7d".toList :=
    @oneOf [{ node := _, text := _, after := [' '] }, { node := _, text := _, before := [' '] }]
      (by decide) (List.forall_mem_cons.2 ⟨hnumber, List.forall_mem_singleton.2 hreference⟩)
  have htree : Spelled .expression npcTree npcText :=
    @all [{ node := _, text := _ }, { node := _, text := _, before := [' '] }] (by decide)
      (List.forall_mem_cons.2 ⟨hchoice.whole.group.lone, List.forall_mem_singleton.2 article.lone⟩)
  have hnesting : npcTree.nesting + 1 < nestingLimit := by decide
  exact ⟨htree, hnesting, parse_written htree hnesting⟩

end Spelled

end RandomTables
