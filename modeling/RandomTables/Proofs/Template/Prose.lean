import RandomTables.Proofs.Template.Inspection
import RandomTables.Proofs.Template.Tree

/-! # Prose

In a template without braces nothing is lost: its texts and the raw texts of its references, put
together in order, spell the template.
-/

namespace RandomTables

open RandomTables.Bracket RandomTables.Token

/-! ## Spelling -/

namespace Node

/-- The nodes of a tree that stand side by side in the template. -/
def row : Node → List Node
  | .sequence parts => parts
  | node => [node]

/-- Spells texts and references in order. A text is spelled as its value, a reference as the next
of the raw texts, and no raw text may be left over. -/
def spell? : List Node → List Text → Option Text
  | [], [] => some []
  | .text value :: nodes, raws => (spell? nodes raws).map (value ++ ·)
  | .reference _ :: nodes, raw :: raws => (spell? nodes raws).map (raw ++ ·)
  | _, _ => none

theorem spell?_text (value : Text) (nodes : List Node) (raws : List Text) :
    spell? (.text value :: nodes) raws = (spell? nodes raws).map (value ++ ·) := by
  cases nodes <;> cases raws <;> rfl

theorem spell?_cons_congr {nodes nodes' : List Node}
    (h : ∀ raws, spell? nodes raws = spell? nodes' raws) (node : Node) (raws : List Text) :
    spell? (node :: nodes) raws = spell? (node :: nodes') raws := by
  cases node with
  | text value => rw [spell?_text, spell?_text, h]
  | reference ref =>
    cases raws with
    | nil => rfl
    | cons raw raws => simp only [spell?, h]
  | _ => rfl

theorem spell?_joinTexts (nodes : List Node) (raws : List Text) :
    spell? (joinTexts nodes) raws = spell? nodes raws := by
  induction nodes generalizing raws with
  | nil => rfl
  | cons node rest ih =>
    cases node with
    | text s =>
      rcases joinTexts_text s rest with ⟨t, more, hjoin, heq⟩ | ⟨-, heq⟩
      · rw [heq, spell?_text, spell?_text, ← ih, hjoin, spell?_text, Option.map_map]
        simp [Function.comp_def]
      · rw [heq]
        split
        · next hempty => simp [spell?_text, ih, List.isEmpty_iff.1 hempty]
        · exact spell?_cons_congr ih _ raws
    | _ =>
      rw [joinTexts_of_not_isText rfl]
      exact spell?_cons_congr ih _ raws

theorem spell?_row_concat {nodes : List Node} (h : ∀ node ∈ nodes, node.row = [node])
    (raws : List Text) : spell? (concat nodes).row raws = spell? nodes raws := by
  rw [← spell?_joinTexts nodes, concat]
  split
  · next hjoin => simp [hjoin, row, spell?_text]
  · next node hjoin =>
    have hmem : node ∈ joinTexts nodes := by simp [hjoin]
    have hrow : node.row = [node] := by
      rcases mem_joinTexts hmem with htext | hmem
      · cases node <;> first | rfl | cases htext
      · exact h node hmem
    rw [hrow, hjoin]
  · rfl

end Node

/-! ## Pieces without braces -/

namespace Piece

/-- The reference of a piece outside braces, with the text that spells it. -/
def mark? : Piece → Option (Reference × Text)
  | .bracketed body => (Reference.parse? body).map (·, (Piece.bracketed body).raw)
  | _ => none

theorem not_braced {t : Text} (ht : '{' ∉ t) {piece : Piece} (h : piece ∈ split t) (body : Text) :
    piece ≠ .braced body := by
  rintro rfl
  have hmem : '{' ∈ (braced body).raw := by simp [raw]
  exact ht (raw_subset h hmem)

theorem spell?_node {reader : Text → Node} {pieces : List Piece}
    (h : ∀ piece ∈ pieces, ∀ body, piece ≠ .braced body) :
    Node.spell? (pieces.map (node reader)) ((pieces.filterMap mark?).map Prod.snd) =
      some (pieces.flatMap raw) := by
  induction pieces with
  | nil => rfl
  | cons piece pieces ih =>
    have hrest := ih fun other hother => h other (List.mem_cons_of_mem _ hother)
    cases piece with
    | literal c =>
      have hmark : (literal c :: pieces).filterMap mark? = pieces.filterMap mark? := rfl
      simp [hmark, node, Node.spell?_text, hrest, raw]
    | bracketed body =>
      cases href : Reference.parse? body with
      | none => simp [node, mark?, href, Node.spell?_text, hrest]
      | some ref => simp [node, mark?, href, Node.spell?, hrest]
    | braced body => exact absurd rfl (h _ List.mem_cons_self body)

theorem references_node {reader : Text → Node} {pieces : List Piece}
    (h : ∀ piece ∈ pieces, ∀ body, piece ≠ .braced body) :
    (pieces.flatMap fun piece => (piece.node reader).references) =
      (pieces.filterMap mark?).map Prod.fst := by
  induction pieces with
  | nil => rfl
  | cons piece pieces ih =>
    have hrest := ih fun other hother => h other (List.mem_cons_of_mem _ hother)
    rw [List.flatMap_cons, hrest]
    cases piece with
    | literal c => rfl
    | bracketed body =>
      rw [references_bracketed]
      cases href : Reference.parse? body <;> simp [mark?, href]
    | braced body => exact absurd rfl (h _ List.mem_cons_self body)

theorem row_node {reader : Text → Node} {piece : Piece} (h : ∀ body, piece ≠ .braced body) :
    (piece.node reader).row = [piece.node reader] := by
  cases piece with
  | literal c => rfl
  | bracketed body => cases href : Reference.parse? body <;> simp [node, href, Node.row]
  | braced body => exact absurd rfl (h body)

end Piece

/-! ## The scan without braces -/

theorem Token.scan_split {t : Text} (ht : '{' ∉ t) (position : Nat) (last : Option Char) :
    (scan position 0 last t).map (fun token => (token.reference, token.raw)) =
      (Piece.split t).filterMap Piece.mark? := by
  induction t using Piece.split.induct generalizing position last with
  | case1 => rw [scan_nil, Piece.split_nil]; rfl
  | case2 t body rest hmatch ih =>
    have hrest : '{' ∉ rest := by
      rw [enclosed?_eq hmatch] at ht
      simp_all
    rw [scan_match hmatch, Piece.split_bracketed hmatch, List.map_append, List.filterMap_cons]
    have htaken : taken 0 last rest = [] := rfl
    have hraw : withClauses body [] = (Piece.bracketed body).raw := rfl
    rw [htaken, List.append_nil, hraw, Nat.zero_sub, List.length_nil, List.drop_zero, ih hrest]
    cases href : Reference.parse? body <;> simp [Piece.mark?, href]
  | case3 t hmatch ih =>
    have hrest : '{' ∉ t := fun hmem => ht (List.mem_cons_of_mem _ hmem)
    rw [scan_step (by rw [if_pos rfl, hmatch]), bracedLength_of_ne (by decide),
      Piece.split_literal (fun _ => hmatch) (absurd · (by decide))]
    exact ih hrest _ _
  | case4 t => exact absurd List.mem_cons_self ht
  | case5 t => exact absurd List.mem_cons_self ht
  | case6 c t hsquare hcurly ih =>
    have hrest : '{' ∉ t := fun hmem => ht (List.mem_cons_of_mem _ hmem)
    rw [scan_step (if_neg hsquare), bracedLength_of_ne hcurly,
      Piece.split_literal (absurd · hsquare) (absurd · hcurly)]
    exact ih hrest _ _

/-! ## Lossless prose -/

/-- In a template without an opening brace the tokens are the references of the tree, and the row
of the tree spells the template. -/
theorem tokens_spell {template : Text} (h : '{' ∉ template) :
    (tokens template).map Token.reference = (parse template).references ∧
      Node.spell? (parse template).row ((tokens template).map Token.raw) = some template := by
  have hpieces : ∀ piece ∈ Piece.split template, ∀ body, piece ≠ .braced body :=
    fun _ => Piece.not_braced h
  have hmarks := Token.scan_split h 0 none
  rw [parse, nestingLimit, readTemplate]
  constructor
  · have hreferences : (tokens template).map Token.reference =
        ((Piece.split template).filterMap Piece.mark?).map Prod.fst := by
      rw [← hmarks, List.map_map]
      rfl
    rw [hreferences, Piece.references_concat, Piece.references_node hpieces]
  · have hraws : (tokens template).map Token.raw =
        ((Piece.split template).filterMap Piece.mark?).map Prod.snd := by
      rw [← hmarks, List.map_map]
      rfl
    rw [hraws, Node.spell?_row_concat, Piece.spell?_node hpieces, Piece.flatMap_raw_split]
    intro node hnode
    obtain ⟨piece, hpiece, rfl⟩ := List.mem_map.1 hnode
    exact Piece.row_node (hpieces piece hpiece)

/-- Brackets that are unmatched, nested, empty, or followed by what would be a clause in braces. -/
def raggedProse : Text := "]( [a|[b]] [] [owl]? [".toList

theorem tokens_spell_raggedProse :
    '{' ∉ raggedProse ∧
      (tokens raggedProse).map Token.reference = (parse raggedProse).references ∧
      Node.spell? (parse raggedProse).row ((tokens raggedProse).map Token.raw) =
        some raggedProse :=
  have hbraceless : '{' ∉ raggedProse := by decide
  ⟨hbraceless, tokens_spell hbraceless⟩

end RandomTables
