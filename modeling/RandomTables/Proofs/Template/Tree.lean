import RandomTables.Proofs.Template.Shape
import Mathlib.Data.List.Chain

/-! # Nodes of a tree

All nodes of a tree, and how many of them stand on one way from the root to a leaf.
-/

namespace RandomTables.Node

/-! ## All nodes -/

mutual

/-- The nodes of a tree, each before those below it. -/
def nodes : Node → List Node
  | .all parts => .all parts :: nodesOf parts
  | .oneOf options => .oneOf options :: nodesOf options
  | .sequence parts => .sequence parts :: nodesOf parts
  | .group inner => .group inner :: nodes inner
  | .reference ref => [.reference ref]
  | .text value => [.text value]
  | .number min max => [.number min max]
  | .article => [.article]

def nodesOf : List Node → List Node
  | [] => []
  | node :: rest => nodes node ++ nodesOf rest

end

theorem nodesOf_eq (parts : List Node) : nodesOf parts = parts.flatMap nodes := by
  induction parts with
  | nil => rfl
  | cons node rest ih => rw [nodesOf, ih, List.flatMap_cons]

/-- Something holds of every node of a tree. -/
def Everywhere (p : Node → Prop) (tree : Node) : Prop := ∀ node ∈ tree.nodes, p node

instance {p : Node → Prop} [DecidablePred p] (tree : Node) : Decidable (Everywhere p tree) :=
  inferInstanceAs (Decidable (∀ node ∈ tree.nodes, p node))

section Everywhere

variable {p : Node → Prop}

theorem everywhere_all {parts : List Node} :
    Everywhere p (.all parts) ↔ p (.all parts) ∧ ∀ part ∈ parts, Everywhere p part := by
  simp only [Everywhere, nodes, nodesOf_eq, List.forall_mem_cons, List.forall_mem_flatMap]

theorem everywhere_oneOf {options : List Node} :
    Everywhere p (.oneOf options) ↔
      p (.oneOf options) ∧ ∀ option ∈ options, Everywhere p option := by
  simp only [Everywhere, nodes, nodesOf_eq, List.forall_mem_cons, List.forall_mem_flatMap]

theorem everywhere_sequence {parts : List Node} :
    Everywhere p (.sequence parts) ↔
      p (.sequence parts) ∧ ∀ part ∈ parts, Everywhere p part := by
  simp only [Everywhere, nodes, nodesOf_eq, List.forall_mem_cons, List.forall_mem_flatMap]

theorem everywhere_group {inner : Node} :
    Everywhere p (.group inner) ↔ p (.group inner) ∧ Everywhere p inner := by
  simp only [Everywhere, nodes, List.forall_mem_cons]

theorem everywhere_text {value : Text} : Everywhere p (.text value) ↔ p (.text value) := by
  simp only [Everywhere, nodes, List.forall_mem_singleton]

theorem everywhere_reference {ref : Reference} :
    Everywhere p (.reference ref) ↔ p (.reference ref) := by
  simp only [Everywhere, nodes, List.forall_mem_singleton]

theorem everywhere_number {min max : UInt64} :
    Everywhere p (.number min max) ↔ p (.number min max) := by
  simp only [Everywhere, nodes, List.forall_mem_singleton]

theorem everywhere_article : Everywhere p .article ↔ p .article := by
  simp only [Everywhere, nodes, List.forall_mem_singleton]

end Everywhere

/-! ## Ways from the root to a leaf -/

mutual

/-- The most nodes with a property on one way from the root to a leaf. -/
def along (p : Node → Bool) : Node → Nat
  | .all parts => (p (.all parts)).toNat + alongOf p parts
  | .oneOf options => (p (.oneOf options)).toNat + alongOf p options
  | .sequence parts => (p (.sequence parts)).toNat + alongOf p parts
  | .group inner => (p (.group inner)).toNat + along p inner
  | .reference ref => (p (.reference ref)).toNat
  | .text value => (p (.text value)).toNat
  | .number min max => (p (.number min max)).toNat
  | .article => (p .article).toNat

def alongOf (p : Node → Bool) : List Node → Nat
  | [] => 0
  | node :: rest => max (along p node) (alongOf p rest)

end

theorem alongOf_le_iff {p : Node → Bool} {parts : List Node} {bound : Nat} :
    alongOf p parts ≤ bound ↔ ∀ part ∈ parts, along p part ≤ bound := by
  induction parts with
  | nil => simp [alongOf]
  | cons node rest ih => rw [alongOf, Nat.max_le, ih, List.forall_mem_cons]

/-- The most nodes on one way from the root to a leaf. -/
def height (tree : Node) : Nat := along (fun _ => true) tree

/-- The most operators and parentheses that are nested in each other. -/
def nesting (tree : Node) : Nat :=
  along (fun | .all _ => true | .oneOf _ => true | .group _ => true | _ => false) tree

theorem nesting_below {p : Node → Bool} {parts : List Node} {depth : Nat}
    (h : true.toNat + alongOf p parts ≤ depth) :
    ∃ below, depth = below + 1 ∧ ∀ part ∈ parts, along p part ≤ below := by
  obtain ⟨more, rfl⟩ := Nat.exists_eq_add_of_le h
  refine ⟨alongOf p parts + more, ?_, alongOf_le_iff.1 (Nat.le_add_right _ more)⟩
  rw [Bool.toNat_true]
  omega

theorem nesting_all {parts : List Node} {depth : Nat} (h : (all parts).nesting ≤ depth) :
    ∃ below, depth = below + 1 ∧ ∀ part ∈ parts, part.nesting ≤ below :=
  nesting_below h

theorem nesting_oneOf {options : List Node} {depth : Nat} (h : (oneOf options).nesting ≤ depth) :
    ∃ below, depth = below + 1 ∧ ∀ option ∈ options, option.nesting ≤ below :=
  nesting_below h

theorem nesting_group {inner : Node} {depth : Nat} (h : (group inner).nesting ≤ depth) :
    ∃ below, depth = below + 1 ∧ inner.nesting ≤ below := by
  obtain ⟨below, rfl⟩ := Nat.exists_eq_add_of_le' (Nat.le_trans (Nat.le_add_right 1 _) h)
  exact ⟨below, rfl, Nat.le_of_add_le_add_left (Nat.le_trans h (Nat.le_of_eq (Nat.add_comm _ _)))⟩

/-! ## Joined nodes -/

def isText : Node → Bool
  | .text _ => true
  | _ => false

/-- No text is empty, and none stands beside another. -/
structure TextsApart (parts : List Node) : Prop where
  ne_empty : .text [] ∉ parts
  isChain : parts.IsChain fun before node => ¬ (before.isText ∧ node.isText)

theorem textsApart_cons {node : Node} {parts : List Node} (hempty : node ≠ .text [])
    (hapart : ∀ next rest, parts = next :: rest → ¬ (node.isText ∧ next.isText))
    (h : TextsApart parts) : TextsApart (node :: parts) := by
  constructor
  · intro hmem
    rcases List.mem_cons.1 hmem with hnode | hmem
    · exact hempty hnode.symm
    · exact h.ne_empty hmem
  · cases parts with
    | nil => exact List.IsChain.singleton _
    | cons next rest => exact List.isChain_cons_cons.2 ⟨hapart next rest rfl, h.isChain⟩

theorem joinTexts_of_not_isText {node : Node} (htext : node.isText = false) (rest : List Node) :
    joinTexts (node :: rest) = node :: joinTexts rest := by
  cases node with
  | text value => cases htext
  | _ => rfl

theorem joinTexts_text (s : Text) (rest : List Node) :
    (∃ t more, joinTexts rest = .text t :: more ∧
      joinTexts (.text s :: rest) = .text (s ++ t) :: more) ∨
    (∀ next more, joinTexts rest = next :: more → next.isText = false) ∧
      joinTexts (.text s :: rest) =
        if s.isEmpty then joinTexts rest else .text s :: joinTexts rest := by
  rw [joinTexts]
  split
  · next t more hjoin => exact .inl ⟨t, more, hjoin, rfl⟩
  · next hother =>
    refine .inr ⟨fun next more hjoin => ?_, rfl⟩
    cases next with
    | text t => exact (hother t more hjoin).elim
    | _ => rfl

theorem textsApart_joinTexts (nodes : List Node) : TextsApart (joinTexts nodes) := by
  induction nodes with
  | nil => exact ⟨List.not_mem_nil, List.isChain_nil⟩
  | cons node rest ih =>
    cases node with
    | text s =>
      rcases joinTexts_text s rest with ⟨t, more, hjoin, heq⟩ | ⟨hnext, heq⟩
      · rw [hjoin] at ih
        rw [heq]
        have hmore : TextsApart more :=
          ⟨fun hmem => ih.ne_empty (List.mem_cons_of_mem _ hmem), ih.isChain.tail⟩
        refine textsApart_cons ?_ ?_ hmore
        · intro hempty
          injection hempty with hempty
          exact ih.ne_empty (by simp [(List.append_eq_nil_iff.1 hempty).2])
        · rintro next more' rfl
          exact (List.isChain_cons_cons.1 ih.isChain).1
      · rw [heq]
        split
        · exact ih
        · next hne =>
          refine textsApart_cons (by simpa using hne) ?_ ih
          rintro next more hjoin ⟨-, htext⟩
          rw [hnext next more hjoin] at htext
          cases htext
    | _ =>
      rw [joinTexts_of_not_isText rfl]
      exact textsApart_cons Node.noConfusion (fun _ _ _ htexts => Bool.noConfusion htexts.1) ih

theorem concat_singleton {node : Node} (h : node ≠ .text []) : concat [node] = node := by
  cases node with
  | text value =>
    have hne : value.isEmpty = false := by
      rw [List.isEmpty_eq_false_iff]
      rintro rfl
      exact h rfl
    simp [concat, joinTexts, hne]
  | _ => rfl

theorem mem_joinTexts {nodes : List Node} {node : Node} (h : node ∈ joinTexts nodes) :
    node.isText ∨ node ∈ nodes := by
  induction nodes with
  | nil => cases h
  | cons first rest ih =>
    have hrest (hmem : node ∈ joinTexts rest) : node.isText ∨ node ∈ first :: rest :=
      (ih hmem).imp_right fun hmem => List.mem_cons_of_mem first hmem
    cases first with
    | text s =>
      rcases joinTexts_text s rest with ⟨t, more, hjoin, heq⟩ | ⟨-, heq⟩
      · rw [heq] at h
        rcases List.mem_cons.1 h with rfl | hmem
        · exact .inl rfl
        · exact hrest (hjoin ▸ List.mem_cons_of_mem _ hmem)
      · rw [heq] at h
        split at h
        · exact hrest h
        · rcases List.mem_cons.1 h with rfl | hmem
          · exact .inl rfl
          · exact hrest hmem
    | _ =>
      rw [joinTexts_of_not_isText rfl] at h
      rcases List.mem_cons.1 h with rfl | hmem
      · exact .inr List.mem_cons_self
      · exact hrest hmem

end RandomTables.Node
