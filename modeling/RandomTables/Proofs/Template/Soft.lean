import RandomTables.Proofs.Template.Partner
import RandomTables.Proofs.Template.Repair

/-! # Soft parentheses

The check of the balance keeps parentheses on its stack and throws them away late. What it finds is
what it would find in the square brackets and braces alone.
-/

namespace RandomTables

open RandomTables.Bracket

/-- The square brackets and braces of a text. -/
def hardBrackets (t : Text) : Text := t.filter isHard

def withoutParentheses (t : Text) : Text := t.filter fun c => c != '(' && c != ')'

/-- The index that a bracket at this place has among the square brackets and braces. -/
def hardBefore (t : Text) (position : Nat) : Nat := (t.take position).countP isHard

/-- Square brackets and braces that are properly nested, and nothing else. -/
inductive IsNest : Text → Prop where
  | nil : IsNest []
  | square {inner rest : Text} (hinner : IsNest inner) (hrest : IsNest rest) :
      IsNest ('[' :: inner ++ ']' :: rest)
  | curly {inner rest : Text} (hinner : IsNest inner) (hrest : IsNest rest) :
      IsNest ('{' :: inner ++ '}' :: rest)

theorem IsNest.balanced {t : Text} (h : IsNest t) : Balanced Kind.IsHard t := by
  induction h with
  | nil => exact .nil
  | square _ _ hinner hrest => exact hinner.enclosed (by decide : Kind.IsHard .square) hrest
  | curly _ _ hinner hrest => exact hinner.enclosed (by decide : Kind.IsHard .curly) hrest

theorem isNest_of_balanced {t : Text} (h : Balanced Kind.IsHard t) (hhard : ∀ c ∈ t, isHard c) :
    IsNest t := by
  induction h with
  | nil => exact .nil
  | soft hc _ _ => exact absurd (hhard _ List.mem_cons_self) (not_isHard_iff.2 hc)
  | @enclosed kind inner rest hkind _ _ ihinner ihrest =>
    have hinner : IsNest inner := ihinner fun c hc => hhard c (by simp [hc])
    have hrest : IsNest rest := ihrest fun c hc => hhard c (by simp [hc])
    cases kind with
    | square => exact .square hinner hrest
    | curly => exact .curly hinner hrest
    | round => exact absurd rfl hkind

theorem isNest_iff {t : Text} (hhard : ∀ c ∈ t, isHard c) : IsNest t ↔ Balanced Kind.IsHard t :=
  ⟨IsNest.balanced, fun h => isNest_of_balanced h hhard⟩

theorem Bracket.exists_kind_of_isHard {c : Char} (hc : isHard c) :
    ∃ kind : Kind, kind.IsHard ∧ (c = kind.opening ∨ c = kind.closing) := by
  simp only [isHard, Bool.or_eq_true, beq_iff_eq] at hc
  rcases hc with ((rfl | rfl) | rfl) | rfl
  exacts [⟨.square, by decide, .inl rfl⟩, ⟨.square, by decide, .inr rfl⟩,
    ⟨.curly, by decide, .inl rfl⟩, ⟨.curly, by decide, .inr rfl⟩]

namespace Issue

/-- A bracket without a partner. -/
def IsUnmatched : Issue → Prop
  | .unclosed _ _ => True
  | .unexpectedClose _ _ => True
  | _ => False

instance : DecidablePred IsUnmatched
  | .unclosed _ _ | .unexpectedClose _ _ => inferInstanceAs (Decidable True)
  | .emptyReference _ | .nestedReference _ | .missingCount _ | .emptyExclusion _
  | .reversedRange _ _ | .emptyOperand _ => inferInstanceAs (Decidable False)

/-- The issue with another number for the place of its bracket. -/
def renumber (number : Nat → Nat) : Issue → Issue
  | .unclosed bracket position => .unclosed bracket (number position)
  | .unexpectedClose bracket position => .unexpectedClose bracket (number position)
  | issue => issue

/-- The bracket of the issue stands at its place in the text. -/
def IsPlaced (t : Text) : Issue → Prop
  | .unclosed bracket position => t[position]? = some bracket
  | .unexpectedClose bracket position => t[position]? = some bracket
  | _ => True

/-! ## The stack without parentheses -/

/-- The brackets on a stack that are no parentheses, with other numbers for their places. -/
def renumbered (number : Nat → Nat) (stack : List (Char × Nat)) : List (Char × Nat) :=
  (hardStack stack).map fun entry => (entry.1, number entry.2)

theorem hardStack_dropWhile (stack : List (Char × Nat)) :
    hardStack (stack.dropWhile (·.1 == '(')) = hardStack stack := by
  induction stack with
  | nil => rfl
  | cons entry below ih =>
    rw [List.dropWhile_cons]
    split
    · next hround =>
      rw [ih, hardStack, hardStack, List.filter_cons, if_neg (by simpa using hround)]
    · rfl

theorem renumbered_cons {bracket : Char} (hbracket : bracket ≠ '(') (number : Nat → Nat)
    (start : Nat) (below : List (Char × Nat)) :
    renumbered number ((bracket, start) :: below) =
      (bracket, number start) :: renumbered number below := by
  rw [renumbered, hardStack, List.filter_cons, if_pos (by simpa using hbracket)]
  rfl

theorem balance_closing_cases {kind : Kind} (hkind : kind.IsHard) (position : Nat)
    (stack : List (Char × Nat)) (t : Text) :
    balance position stack (kind.closing :: t) =
      match stack.dropWhile (·.1 == '(') with
      | (bracket, start) :: below =>
        if bracket = kind.opening then balance (position + 1) below t
        else .unexpectedClose kind.closing position ::
          balance (position + 1) ((bracket, start) :: below) t
      | [] => .unexpectedClose kind.closing position :: balance (position + 1) [] t := by
  cases kind with
  | round => exact absurd rfl hkind
  | _ =>
    rw [balance.eq_def]
    dsimp only
    rw [if_neg (by decide), if_neg (by decide), if_pos (by decide)]
    rfl

theorem dropWhile_cases (stack : List (Char × Nat)) :
    (stack.dropWhile (·.1 == '(') = [] ∧ hardStack stack = []) ∨
      ∃ bracket start below, bracket ≠ '(' ∧
        stack.dropWhile (·.1 == '(') = (bracket, start) :: below ∧
        hardStack stack = (bracket, start) :: hardStack below := by
  have hhard := hardStack_dropWhile stack
  have hhead := List.head?_dropWhile_not (·.1 == '(') stack
  cases hdrop : stack.dropWhile (·.1 == '(') with
  | nil =>
    rw [hdrop] at hhard
    exact .inl ⟨rfl, hhard.symm⟩
  | cons entry below =>
    obtain ⟨bracket, start⟩ := entry
    rw [hdrop] at hhard hhead
    have hbracket : bracket ≠ '(' := by simpa using hhead
    refine .inr ⟨bracket, start, below, hbracket, rfl, ?_⟩
    rw [← hhard, hardStack, List.filter_cons, if_pos (by simpa using hbracket)]
    rfl

/-- The run over a text, with its brackets numbered among the hard ones, is the run over the hard
ones. Its stack is the stack of that run with parentheses in between. -/
theorem balance_renumbered {text t : Text} {position : Nat} (h : text.drop position = t)
    (stack : List (Char × Nat)) :
    (balance position stack t).map (renumber (hardBefore text)) =
      balance (hardBefore text position) (renumbered (hardBefore text) stack) (hardBrackets t) := by
  induction t generalizing position stack with
  | nil =>
    simp [hardBrackets, balance, renumbered, hardStack, List.filter_map, Function.comp_def, renumber]
  | cons c t ih =>
    have hrest : text.drop (position + 1) = t := by
      rw [← List.drop_drop, h]
      rfl
    have hnumber : hardBefore text (position + 1) =
        hardBefore text position + if isHard c then 1 else 0 := by
      rw [hardBefore, List.take_add, List.countP_append, h]
      simp [hardBefore]
    by_cases hc : isHard c
    · rw [if_pos hc] at hnumber
      have hbrackets : hardBrackets (c :: t) = c :: hardBrackets t := List.filter_cons_of_pos hc
      rw [hbrackets]
      obtain ⟨kind, hkind, rfl | rfl⟩ := exists_kind_of_isHard hc
      · have hopening : kind.opening ≠ Kind.round.opening := opening_ne hkind
        rw [balance_opening, balance_opening, ih hrest, renumbered_cons hopening, hnumber]
      · rw [balance_closing_cases hkind, balance_closing_cases hkind]
        rcases dropWhile_cases stack with
          ⟨hdrop, hhard⟩ | ⟨bracket, start, below, hbracket, hdrop, hhard⟩
        · have hempty : renumbered (hardBefore text) stack = [] := by rw [renumbered, hhard]; rfl
          rw [hdrop, hempty, List.dropWhile_nil, List.map_cons, ih hrest, hnumber]
          rfl
        · have htop : renumbered (hardBefore text) stack =
              (bracket, hardBefore text start) :: renumbered (hardBefore text) below := by
            rw [renumbered, hhard]
            rfl
          rw [hdrop, htop, List.dropWhile_cons, if_neg (by simpa using hbracket)]
          dsimp only
          by_cases hmatch : bracket = kind.opening
          · rw [if_pos hmatch, if_pos hmatch, ih hrest, hnumber]
          · rw [if_neg hmatch, if_neg hmatch, List.map_cons, ih hrest, hnumber,
              renumbered_cons hbracket]
            rfl
    · rw [if_neg hc, Nat.add_zero] at hnumber
      have hbrackets : hardBrackets (c :: t) = hardBrackets t := List.filter_cons_of_neg hc
      obtain ⟨stack', hstack, hstep⟩ := balance_soft hc position stack t
      rw [hstep, ih hrest, hbrackets, hnumber, renumbered, hstack]
      rfl

/-! ## What is found -/

theorem isUnmatched_of_balance {position : Nat} {stack : List (Char × Nat)} {t : Text} :
    ∀ issue ∈ balance position stack t, issue.IsUnmatched := by
  fun_induction balance position stack t with
  | case1 position stack =>
    intro issue hissue
    obtain ⟨entry, -, rfl⟩ := List.mem_map.1 hissue
    trivial
  | case6 position stack c t _ _ _ bracket start below _ _ ih =>
    exact List.forall_mem_cons.2 ⟨trivial, ih⟩
  | case7 position stack c t _ _ _ _ ih => exact List.forall_mem_cons.2 ⟨trivial, ih⟩
  | _ => assumption

theorem not_isUnmatched_of_reference (position : Nat) (body : Text) :
    ∀ issue ∈ reference position body, ¬ issue.IsUnmatched := by
  intro issue hissue
  unfold reference at hissue
  dsimp only at hissue
  split at hissue
  · rw [List.mem_singleton.1 hissue]
    exact not_false
  · split at hissue
    · rw [List.mem_singleton.1 hissue]
      exact not_false
    · rcases of_mem_clauses hissue with rfl | rfl <;> exact not_false

theorem not_isUnmatched_of_expression (body : Text) :
    ∀ issue ∈ expression body, ¬ issue.IsUnmatched := by
  intro issue hissue
  unfold expression at hissue
  split at hissue
  · rw [List.mem_singleton.1 hissue]
    exact not_false
  · split at hissue
    · split at hissue
      · rw [List.mem_singleton.1 hissue]
        exact not_false
      · cases hissue
    · cases hissue

theorem not_isUnmatched_of_regions (position : Nat) (t : Text) :
    ∀ issue ∈ regions position t, ¬ issue.IsUnmatched := by
  fun_induction regions position t with
  | case1 => exact List.forall_mem_nil _
  | case2 position c t body rest _ ih =>
    exact List.forall_mem_append.2 ⟨not_isUnmatched_of_reference position body, ih⟩
  | case3 position c t _ body _ _ ih =>
    exact List.forall_mem_append.2 ⟨not_isUnmatched_of_expression body, ih⟩
  | case4 _ _ _ _ _ ih => exact ih

/-- The brackets without a partner, numbered among the square brackets and braces of the text. -/
def unmatched (t : Text) : List Issue :=
  ((issues t).filter (·.IsUnmatched)).map (renumber (hardBefore t))

theorem unmatched_eq (t : Text) : unmatched t = balance 0 [] (hardBrackets t) := by
  have hbalance : (balance 0 [] t).filter (·.IsUnmatched) = balance 0 [] t :=
    List.filter_eq_self.2 fun issue hissue => decide_eq_true (isUnmatched_of_balance issue hissue)
  have hregions : (regions 0 t).filter (·.IsUnmatched) = [] :=
    List.filter_eq_nil_iff.2 fun issue hissue hunmatched =>
      not_isUnmatched_of_regions 0 t issue hissue (of_decide_eq_true hunmatched)
  rw [unmatched, issues, List.filter_append, hbalance, hregions, List.append_nil]
  exact balance_renumbered List.drop_zero []

theorem isPlaced_of_not_isUnmatched {issue : Issue} (h : ¬ issue.IsUnmatched) (t : Text) :
    issue.IsPlaced t := by
  cases issue with
  | unclosed | unexpectedClose => exact absurd trivial h
  | _ => trivial

theorem isPlaced_of_balance {text t : Text} {position : Nat} {stack : List (Char × Nat)}
    (h : text.drop position = t) (hstack : ∀ entry ∈ stack, text[entry.2]? = some entry.1) :
    ∀ issue ∈ balance position stack t, issue.IsPlaced text := by
  have hrest {c : Char} {t : Text} {position : Nat} (h : text.drop position = c :: t) :
      text.drop (position + 1) = t := by
    rw [← List.drop_drop, h]
    rfl
  have hopen {stack opened : List (Char × Nat)} (hdrop : stack.dropWhile (·.1 == '(') = opened)
      (hstack : ∀ entry ∈ stack, text[entry.2]? = some entry.1) :
      ∀ entry ∈ opened, text[entry.2]? = some entry.1 := fun entry hentry =>
    hstack entry ((List.dropWhile_sublist _).mem (hdrop ▸ hentry))
  fun_induction balance position stack t with
  | case1 position stack =>
    intro issue hissue
    obtain ⟨entry, hentry, rfl⟩ := List.mem_map.1 hissue
    exact hstack entry (List.mem_reverse.1 (List.mem_filter.1 hentry).1)
  | case2 position stack c t _ ih =>
    exact ih (hrest h) (List.forall_mem_cons.2 ⟨getElem?_of_drop h, hstack⟩)
  | case3 position t start below _ ih => exact ih (hrest h) (List.forall_mem_cons.1 hstack).2
  | case4 position stack t _ _ ih => exact ih (hrest h) hstack
  | case5 position stack c t _ _ _ start below hdrop ih =>
    exact ih (hrest h) (List.forall_mem_cons.1 (hopen hdrop hstack)).2
  | case6 position stack c t _ _ _ bracket start below hdrop _ ih =>
    exact List.forall_mem_cons.2 ⟨getElem?_of_drop h, ih (hrest h) (hopen hdrop hstack)⟩
  | case7 position stack c t _ _ _ _ ih =>
    exact List.forall_mem_cons.2 ⟨getElem?_of_drop h, ih (hrest h) (List.forall_mem_nil _)⟩
  | case8 position stack c t _ _ _ ih => exact ih (hrest h) hstack

end Issue

/-- No bracket lacks its partner exactly if the square brackets and braces are properly nested. Those
that do stand where they are told, and taking the parentheses out of the text makes no difference to
which ones they are among the square brackets and braces. -/
theorem unmatched_withoutParentheses (t : Text) :
    ((∀ issue ∈ issues t, ¬ issue.IsUnmatched) ↔ IsNest (hardBrackets t)) ∧
    (∀ issue ∈ issues t, issue.IsPlaced t) ∧
    Issue.unmatched t = Issue.unmatched (withoutParentheses t) := by
  have hnone : (∀ issue ∈ issues t, ¬ issue.IsUnmatched) ↔ Issue.unmatched t = [] := by
    rw [Issue.unmatched, List.map_eq_nil_iff, List.filter_eq_nil_iff]
    simp only [decide_eq_true_eq]
  have hhard : ∀ c ∈ hardBrackets t, isHard c := fun c hc => (List.mem_filter.1 hc).2
  refine ⟨?_, ?_, ?_⟩
  · rw [hnone, Issue.unmatched_eq, Issue.balance_eq_nil_iff, isNest_iff hhard]
  · intro issue hissue
    rcases List.mem_append.1 hissue with hbalance | hregions
    · exact Issue.isPlaced_of_balance List.drop_zero (List.forall_mem_nil _) issue hbalance
    · exact Issue.isPlaced_of_not_isUnmatched (Issue.not_isUnmatched_of_regions 0 t issue hregions) t
  · have herased : hardBrackets (withoutParentheses t) = hardBrackets t := by
      rw [hardBrackets, withoutParentheses, List.filter_filter, hardBrackets]
      refine List.filter_congr fun c _ => ?_
      by_cases hc : isHard c
      · have hround : (c != '(' && c != ')') = true := by
          obtain ⟨kind, hkind, rfl | rfl⟩ := Bracket.exists_kind_of_isHard hc
          · cases kind <;> first | rfl | exact absurd rfl hkind
          · cases kind <;> first | rfl | exact absurd rfl hkind
        rw [hc, hround]
        rfl
      · rw [Bool.eq_false_iff.2 hc, Bool.false_and]
    rw [Issue.unmatched_eq, Issue.unmatched_eq, herased]

end RandomTables
