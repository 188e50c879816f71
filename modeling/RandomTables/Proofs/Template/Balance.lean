import RandomTables.Proofs.Template.Forest
import RandomTables.Template.Issue

/-! # Balanced texts

The check of a template demands that square brackets and braces are nested. Parentheses are soft and
may stand anywhere.
-/

namespace RandomTables

open RandomTables.Bracket

/-! ## Hard brackets -/

namespace Bracket

/-- The kinds of brackets that need a partner. -/
abbrev Kind.IsHard (kind : Kind) : Prop := kind ≠ .round

/-- A square bracket or a brace. -/
def isHard (c : Char) : Bool := c == '[' || c == ']' || c == '{' || c == '}'

theorem isHard_opening {kind : Kind} (hkind : kind.IsHard) : isHard kind.opening := by
  cases kind with
  | round => exact absurd rfl hkind
  | _ => decide

theorem isHard_closing {kind : Kind} (hkind : kind.IsHard) : isHard kind.closing := by
  cases kind with
  | round => exact absurd rfl hkind
  | _ => decide

theorem not_isHard_iff {c : Char} :
    ¬ isHard c ↔ ∀ kind : Kind, kind.IsHard → c ≠ kind.opening ∧ c ≠ kind.closing := by
  constructor
  · intro hc kind hkind
    constructor
    · rintro rfl
      exact hc (isHard_opening hkind)
    · rintro rfl
      exact hc (isHard_closing hkind)
  · intro hc
    have hsquare := hc .square (by decide)
    have hcurly := hc .curly (by decide)
    simp only [Kind.opening, Kind.closing] at hsquare hcurly
    simp [isHard, hsquare, hcurly]

end Bracket

/-! ## What the check of the balance finds -/

/-- The text closes these brackets, the innermost first. -/
def Closes : List Kind → Text → Prop
  | [], t => Balanced Kind.IsHard t
  | kind :: below, t =>
    ∃ inner rest, t = inner ++ kind.closing :: rest ∧ Balanced Kind.IsHard inner ∧ Closes below rest

theorem closes_soft {kinds : List Kind} {c : Char} (hc : ¬ isHard c) {t : Text}
    (h : Closes kinds t) : Closes kinds (c :: t) := by
  cases kinds with
  | nil => exact h.soft (not_isHard_iff.1 hc)
  | cons kind below =>
    obtain ⟨inner, rest, rfl, hinner, hrest⟩ := h
    exact ⟨c :: inner, rest, rfl, hinner.soft (not_isHard_iff.1 hc), hrest⟩

theorem closes_opening {kinds : List Kind} (kind : Kind) (hkind : kind.IsHard) {t : Text}
    (h : Closes (kind :: kinds) t) : Closes kinds (kind.opening :: t) := by
  obtain ⟨inner, rest, rfl, hinner, hrest⟩ := h
  cases kinds with
  | nil => exact hinner.enclosed hkind hrest
  | cons kind' below =>
    obtain ⟨inner', rest', rfl, hinner', hrest'⟩ := hrest
    refine ⟨kind.opening :: inner ++ kind.closing :: inner', rest', ?_, ?_, hrest'⟩
    · simp
    · exact hinner.enclosed hkind hinner'

theorem closes_closing {kinds : List Kind} (kind : Kind) {t : Text} (h : Closes kinds t) :
    Closes (kind :: kinds) (kind.closing :: t) :=
  ⟨[], t, rfl, .nil, h⟩

namespace Issue

def hardKind? (bracket : Char) : Option Kind :=
  if bracket = '[' then some .square else if bracket = '{' then some .curly else none

/-- The brackets on a stack that must be closed. -/
def openKinds (stack : List (Char × Nat)) : List Kind :=
  stack.filterMap fun entry => hardKind? entry.1

theorem openKinds_dropWhile (stack : List (Char × Nat)) :
    openKinds (stack.dropWhile (·.1 == '(')) = openKinds stack := by
  induction stack with
  | nil => rfl
  | cons entry below ih =>
    rw [List.dropWhile_cons]
    split
    · next hround =>
      have hkind : hardKind? entry.1 = none := by
        rw [beq_iff_eq.1 hround]
        rfl
      rw [ih, openKinds, openKinds, List.filterMap_cons, hkind]
    · rfl

theorem openKinds_of_unclosed {stack : List (Char × Nat)}
    (h : stack.reverse.filter (·.1 != '(') = []) : openKinds stack = [] := by
  rw [openKinds, List.filterMap_eq_nil_iff]
  intro entry hentry
  have hround := List.filter_eq_nil_iff.1 h entry (List.mem_reverse.2 hentry)
  rw [bne_iff_ne, ne_eq, Decidable.not_not] at hround
  rw [hround]
  rfl

theorem closes_of_balance {t : Text} {position : Nat} {stack : List (Char × Nat)}
    (h : balance position stack t = []) : Closes (openKinds stack) t := by
  fun_induction balance position stack t with
  | case1 position stack =>
    rw [openKinds_of_unclosed (List.map_eq_nil_iff.1 h)]
    exact .nil
  | case2 position stack c t hopening ih =>
    simp only [isOpening, Bool.or_eq_true, beq_iff_eq] at hopening
    rcases hopening with (rfl | rfl) | rfl
    · exact closes_opening .square (by decide) (ih h)
    · exact closes_opening .curly (by decide) (ih h)
    · exact closes_soft (by decide) (ih h)
  | case3 position t start below _ ih => exact closes_soft (by decide) (ih h)
  | case4 position stack t _ _ ih => exact closes_soft (by decide) (ih h)
  | case5 position stack c t _ _ hclosing start below hstack ih =>
    rw [← openKinds_dropWhile, hstack]
    rcases hclosing with rfl | rfl
    · exact closes_closing .square (ih h)
    · exact closes_closing .curly (ih h)
  | case6 => cases h
  | case7 => cases h
  | case8 position stack c t hopening hround hclosing ih =>
    refine closes_soft ?_ (ih h)
    simp only [isOpening, Bool.or_eq_true, beq_iff_eq, not_or] at hopening hclosing
    simp [isHard, hopening, hclosing]

theorem balanced_of_balance {t : Text} (h : balance 0 [] t = []) : Balanced Kind.IsHard t :=
  closes_of_balance h

/-! ## What the check of the balance passes over -/

/-- The brackets on a stack that are no parentheses. -/
def hardStack (stack : List (Char × Nat)) : List (Char × Nat) := stack.filter (·.1 != '(')

theorem hardStack_round (position : Nat) (stack : List (Char × Nat)) :
    hardStack (('(', position) :: stack) = hardStack stack := rfl

theorem hardStack_opening {kind : Kind} (hkind : kind.IsHard) (position : Nat)
    (stack : List (Char × Nat)) :
    hardStack ((kind.opening, position) :: stack) = (kind.opening, position) :: hardStack stack := by
  cases kind with
  | round => exact absurd rfl hkind
  | _ => rfl

theorem dropWhile_of_hardStack {stack hard : List (Char × Nat)} {entry : Char × Nat}
    (h : hardStack stack = entry :: hard) :
    ∃ below, stack.dropWhile (·.1 == '(') = entry :: below ∧ hardStack below = hard := by
  induction stack with
  | nil => cases h
  | cons first below ih =>
    unfold hardStack at h
    rw [List.filter_cons] at h
    rw [List.dropWhile_cons]
    by_cases hround : first.1 = '('
    · rw [if_neg (by simpa using hround)] at h
      rw [if_pos (by simpa using hround)]
      exact ih h
    · rw [if_pos (by simpa using hround)] at h
      rw [if_neg (by simpa using hround)]
      injection h with hfirst hhard
      exact ⟨below, by rw [hfirst], hhard⟩

theorem balance_soft {c : Char} (hc : ¬ isHard c) (position : Nat) (stack : List (Char × Nat))
    (t : Text) : ∃ stack', hardStack stack' = hardStack stack ∧
      balance position stack (c :: t) = balance (position + 1) stack' t := by
  simp only [isHard, Bool.or_eq_true, beq_iff_eq, not_or] at hc
  rw [balance.eq_def]
  dsimp only
  split
  · next hopening =>
    obtain rfl : c = '(' := by simpa [isOpening, hc] using hopening
    exact ⟨_, hardStack_round position stack, rfl⟩
  · split
    · split
      · exact ⟨_, (hardStack_round _ _).symm, rfl⟩
      · exact ⟨stack, rfl, rfl⟩
    · rw [if_neg (by simp [hc])]
      exact ⟨stack, rfl, rfl⟩

theorem balance_opening (kind : Kind) (position : Nat) (stack : List (Char × Nat)) (t : Text) :
    balance position stack (kind.opening :: t) =
      balance (position + 1) ((kind.opening, position) :: stack) t := by
  rw [balance.eq_def]
  exact if_pos (isOpening_opening kind)

theorem balance_closing {kind : Kind} (hkind : kind.IsHard) {stack below : List (Char × Nat)}
    {start : Nat} (h : stack.dropWhile (·.1 == '(') = (kind.opening, start) :: below)
    (position : Nat) (t : Text) :
    balance position stack (kind.closing :: t) = balance (position + 1) below t := by
  cases kind with
  | round => exact absurd rfl hkind
  | _ =>
    rw [balance.eq_def]
    dsimp only
    rw [if_neg (by decide), if_neg (by decide), if_pos (by decide), h]
    exact if_pos (by decide)

theorem balance_append {t : Text} (h : Balanced Kind.IsHard t) (position : Nat)
    (stack : List (Char × Nat)) (tail : Text) : ∃ stack', hardStack stack' = hardStack stack ∧
      balance position stack (t ++ tail) = balance (position + t.length) stack' tail := by
  induction h generalizing position stack tail with
  | nil => exact ⟨stack, rfl, rfl⟩
  | @soft c t hc _ ih =>
    obtain ⟨stack', hstack, hstep⟩ := balance_soft (not_isHard_iff.2 hc) position stack (t ++ tail)
    obtain ⟨stack'', hstack', hrest⟩ := ih (position + 1) stack' tail
    refine ⟨stack'', hstack'.trans hstack, ?_⟩
    rw [List.cons_append, hstep, hrest, List.length_cons, Nat.add_assoc, Nat.add_comm 1]
  | @enclosed kind body rest hkind _ _ ihbody ihrest =>
    obtain ⟨inside, hinside, hbody⟩ := ihbody (position + 1) ((kind.opening, position) :: stack)
      (kind.closing :: (rest ++ tail))
    rw [hardStack_opening hkind] at hinside
    obtain ⟨below, hdrop, hbelow⟩ := dropWhile_of_hardStack hinside
    obtain ⟨stack', hstack, hrest⟩ := ihrest (position + 1 + body.length + 1) below tail
    refine ⟨stack', hstack.trans hbelow, ?_⟩
    simp only [List.append_assoc, List.cons_append, List.length_cons, List.length_append]
    rw [balance_opening, hbody, balance_closing hkind hdrop, hrest]
    congr 1
    omega

/-- Nothing is found exactly where every bracket but a parenthesis has its partner. -/
theorem balance_eq_nil_iff (t : Text) : balance 0 [] t = [] ↔ Balanced Kind.IsHard t := by
  refine ⟨balanced_of_balance, fun h => ?_⟩
  obtain ⟨stack, hstack, hbalance⟩ := balance_append h 0 [] []
  rw [List.append_nil] at hbalance
  have hhard : stack.filter (·.1 != '(') = [] := hstack
  rw [hbalance, balance, List.filter_reverse, hhard]
  rfl

end Issue

end RandomTables
