import RandomTables.Article
import RandomTables.Proofs.Text

/-! # What articles change

Every placeholder is replaced by something else, so a text is its own resolution exactly if no
placeholder occurs in it.
-/

namespace RandomTables

namespace Article

open Text

theorem resolve_nil : resolve [] = [] := by
  unfold resolve
  rfl

theorem resolve_of_start {t rest : Text} (h : dropStart? placeholder t = some rest) :
    resolve t = before (trimStart rest) ++ resolve (trimStart rest) := by
  cases t with
  | nil => cases h
  | cons c t =>
    rw [resolve]
    split
    · next found hfound => rw [Option.some.inj (h.symm.trans hfound)]
    · next hnone => rw [h] at hnone; cases hnone

theorem resolve_cons {c : Char} {t : Text} (h : dropStart? placeholder (c :: t) = none) :
    resolve (c :: t) = c :: resolve t := by
  rw [resolve]
  split
  · next found hfound => rw [h] at hfound; cases hfound
  · rfl

theorem length_before_le (t : Text) : (before t).length ≤ placeholder.length := by
  cases t with
  | nil => decide
  | cons c t =>
    simp only [before]
    repeat' split
    all_goals decide

theorem length_resolve_le (t : Text) : (resolve t).length ≤ t.length := by
  induction t using resolve.induct with
  | case1 => exact Nat.le_of_eq (congrArg List.length resolve_nil)
  | case2 c t rest hstart ih =>
    have hsplit := congrArg List.length (dropStart?_eq hstart)
    have hbefore := length_before_le (trimStart rest)
    have htrim := length_trimStart_le rest
    rw [resolve_of_start hstart]
    rw [List.length_append] at hsplit ⊢
    omega
  | case3 c t hstart ih =>
    rw [resolve_cons hstart]
    exact Nat.succ_le_succ ih

theorem before_append_ne {t more rest : Text} (hmore : more.length ≤ rest.length) :
    before t ++ more ≠ placeholder ++ rest := by
  intro h
  have hne : before t ≠ [] := by
    intro hnil
    rw [hnil, List.nil_append] at h
    rw [h, List.length_append] at hmore
    simp only [placeholder, List.length_cons] at hmore
    omega
  cases t with
  | nil => exact hne rfl
  | cons c t =>
    simp only [before] at h hne
    repeat' split at h
    · exact absurd (List.cons.inj h).1 (by decide)
    · exact absurd (List.cons.inj h).1 (by decide)
    · next hword => exact hne (if_neg hword)

theorem resolve_eq_self_iff (t : Text) : resolve t = t ↔ ¬ occurs placeholder t := by
  induction t using resolve.induct with
  | case1 =>
    rw [resolve_nil]
    decide
  | case2 c t rest hstart ih =>
    have hprefix : placeholder.isPrefixOf (c :: t) := by
      rw [← isSome_dropStart?, hstart]
      rfl
    have hoccurs : occurs placeholder (c :: t) := by
      rw [occurs, hprefix, Bool.true_or]
    have hshort : (resolve (trimStart rest)).length ≤ rest.length :=
      Nat.le_trans (length_resolve_le _) (length_trimStart_le rest)
    have hchanged : resolve (c :: t) ≠ c :: t := by
      rw [resolve_of_start hstart, dropStart?_eq hstart]
      exact before_append_ne hshort
    exact ⟨fun h => absurd h hchanged, fun h => absurd hoccurs h⟩
  | case3 c t hstart ih =>
    have hprefix : placeholder.isPrefixOf (c :: t) = false := by
      rw [← isSome_dropStart?, hstart]
      rfl
    rw [resolve_cons hstart, occurs, hprefix, Bool.false_or, ← ih]
    exact ⟨fun h => (List.cons.inj h).2, fun h => congrArg (c :: ·) h⟩

end Article

end RandomTables
