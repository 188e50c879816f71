import Mathlib.Algebra.GroupWithZero.Nat
import Mathlib.Data.List.Count
import RandomTables.Proofs.Name.Training

/-! # The counts of a trained model

Training counts windows: what stands in the row of a context is how often each code point follows the
context in the padded words.
-/

namespace RandomTables.Name

/-! ## Rows -/

namespace Row

theorem nodup_ofList (nexts : Text) : ((ofList nexts).map Prod.fst).Nodup := by
  induction nexts using List.reverseRecOn with
  | nil => exact List.nodup_nil
  | append_singleton nexts c ih =>
    rw [ofList_concat, count_eq_upsert]
    exact nodup_upsert ih

theorem ofList_ne_nil {nexts : Text} (h : nexts ≠ []) : ofList nexts ≠ [] := by
  intro hnil
  have htotal := total_ofList nexts
  rw [hnil] at htotal
  exact h (List.eq_nil_of_length_eq_zero htotal.symm)

theorem lookup_ofList (nexts : Text) (c : Char) :
    (ofList nexts).lookup c = if nexts.count c = 0 then none else some (nexts.count c) := by
  induction nexts using List.reverseRecOn generalizing c with
  | nil => rfl
  | append_singleton nexts d ih =>
    rw [ofList_concat, count_eq_upsert, lookup_upsert, List.count_append, List.count_singleton]
    by_cases hc : c = d
    · rw [if_pos hc, hc, ih, beq_self_eq_true, if_pos rfl, if_neg (Nat.succ_ne_zero _)]
      split
      · next hzero => rw [hzero]; rfl
      · rfl
    · rw [if_neg hc, ih, beq_false_of_ne (Ne.symm hc)]
      rfl

theorem mem_ofList_iff {nexts : Text} {c : Char} {n : Nat} :
    (c, n) ∈ ofList nexts ↔ 1 ≤ n ∧ nexts.count c = n := by
  rw [mem_iff_lookup (nodup_ofList nexts), lookup_ofList]
  split
  · next hzero => simp only [reduceCtorEq, false_iff]; omega
  · next hpos => rw [Option.some.injEq]; omega

end Row

theorem count_following (context : Text) (c : Char) (transitions : List (Text × Char)) :
    (following context transitions).count c = transitions.count (context, c) := by
  induction transitions with
  | nil => rfl
  | cons transition transitions ih =>
    obtain ⟨window, d⟩ := transition
    rw [List.count_cons, ← ih]
    by_cases hwindow : window = context
    · subst hwindow
      simp [following, List.count_cons]
    · simp [following, hwindow]

/-! ## Windows -/

/-- The parts of this width, from place to place. -/
def windows (width : Nat) (t : Text) : List Text :=
  (List.range (t.length + 1 - width)).map fun place => (t.drop place).take width

theorem windows_of_short {width : Nat} {t : Text} (h : t.length < width) : windows width t = [] := by
  rw [windows, Nat.sub_eq_zero_of_le h]
  rfl

theorem windows_cons {width : Nat} {c : Char} {t : Text} (h : width ≤ (c :: t).length) :
    windows width (c :: t) = (c :: t).take width :: windows width t := by
  have hplaces : (c :: t).length + 1 - width = (t.length + 1 - width) + 1 := by
    rw [List.length_cons] at h ⊢
    omega
  rw [windows, hplaces, List.range_succ_eq_map, List.map_cons, List.map_map]
  rfl

theorem length_transitions (context t : Text) : (transitions context t).length = t.length := by
  induction t generalizing context with
  | nil => rfl
  | cons c t ih => rw [transitions, List.length_cons, ih, List.length_cons]

theorem windows_append {context : Text} (hcontext : context ≠ []) (t : Text) :
    windows (context.length + 1) (context ++ t) =
      (transitions context t).map fun transition => transition.1 ++ [transition.2] := by
  induction t generalizing context with
  | nil =>
    rw [List.append_nil]
    exact windows_of_short (Nat.lt_succ_self _)
  | cons c t ih =>
    obtain ⟨d, rest, rfl⟩ := List.exists_cons_of_ne_nil hcontext
    have hshift : shift (d :: rest) c = rest ++ [c] := rfl
    have hwidth : (d :: rest).length = (shift (d :: rest) c).length := by
      rw [hshift, List.length_cons, List.length_append, List.length_singleton]
    have hnext := @ih (shift (d :: rest) c) (by simp [hshift])
    rw [← hwidth, hshift, List.append_assoc] at hnext
    have hfirst : (d :: rest ++ c :: t).take ((d :: rest).length + 1) = d :: rest ++ [c] := by
      rw [List.append_cons]
      exact List.take_left' (by simp)
    rw [transitions, List.map_cons, hshift, ← hnext, ← hfirst]
    exact windows_cons (by simp)

/-- How often a window stands in the padded words, in all of them together. -/
def occurrences (words : List Text) (order : Nat) (window : Text) : Nat :=
  ((words.filter (!·.isEmpty)).map fun word =>
    (windows (order + 1) (padded order (Text.lower word))).count window).sum

theorem count_windows_padded {order : Nat} (horder : order ≠ 0) (word context : Text) (c : Char) :
    (windows (order + 1) (padded order word)).count (context ++ [c]) =
      (wordTransitions order word).count (context, c) := by
  have hinjective : Function.Injective fun transition : Text × Char =>
      transition.1 ++ [transition.2] := by
    rintro ⟨s, c⟩ ⟨t, d⟩ h
    obtain ⟨hwindow, hlast⟩ := List.append_inj' h rfl
    exact Prod.ext hwindow (List.singleton_inj.1 hlast)
  have hwindows := windows_append (startContext_ne_nil horder) (word ++ [wordEnd])
  rw [length_startContext, ← List.append_assoc] at hwindows
  rw [padded, hwindows]
  exact List.count_map_of_injective _ _ hinjective (context, c)

/-! ## Training -/

namespace Model

/-- The transitions that training counts. -/
def trained (words : List Text) (order : Nat) : List (Text × Char) :=
  ((words.filter (!·.isEmpty)).map Text.lower).flatMap (wordTransitions order)

theorem rows_train (words : List Text) (order : Nat) :
    (train words order).rows = (trained words (max order 1)).foldl countTransition [] := rfl

theorem count_trained {order : Nat} (horder : order ≠ 0) (words : List Text) (context : Text)
    (c : Char) :
    (trained words order).count (context, c) = occurrences words order (context ++ [c]) := by
  rw [trained, occurrences, List.count_flatMap, List.map_map]
  congr 1
  refine List.map_congr_left fun word _ => ?_
  exact (count_windows_padded horder (Text.lower word) context c).symm

/-- Behind this context the model has counted this code point this often. -/
def Counts (model : Model) (context : Text) (c : Char) (n : Nat) : Prop :=
  ∃ row, model.rows.lookup context = some row ∧ (c, n) ∈ row

theorem counts_train {words : List Text} {order : Nat} {context : Text} {c : Char} {n : Nat} :
    (train words order).Counts context c n ↔
      1 ≤ n ∧ (trained words (max order 1)).count (context, c) = n := by
  rw [Counts, rows_train, lookup_foldl_countTransition, ← count_following, ← Row.mem_ofList_iff]
  split
  · next hnone => simp [hnone, Row.ofList]
  · simp

/-- Each context has one row, which is not empty and holds each code point once. -/
structure IsTable (model : Model) : Prop where
  nodup : (model.rows.map Prod.fst).Nodup
  width {context : Text} {row : Row} : (context, row) ∈ model.rows → context.length = model.order
  ne_nil {context : Text} {row : Row} : (context, row) ∈ model.rows → row ≠ []
  row_nodup {context : Text} {row : Row} : (context, row) ∈ model.rows → (row.map Prod.fst).Nodup

theorem nodup_foldl_countTransition (transitions : List (Text × Char)) :
    ((transitions.foldl countTransition []).map Prod.fst).Nodup := by
  induction transitions using List.reverseRecOn with
  | nil => exact List.nodup_nil
  | append_singleton transitions transition ih =>
    rw [List.foldl_append, List.foldl_cons, List.foldl_nil, countTransition_eq_upsert]
    exact nodup_upsert ih

theorem length_of_mem_trained {words : List Text} {order : Nat} (horder : order ≠ 0)
    {context : Text} {c : Char} (h : (context, c) ∈ trained words order) :
    context.length = order := by
  obtain ⟨word, -, hmem⟩ := List.mem_flatMap.1 h
  obtain ⟨before, after, -, rfl⟩ := mem_transitions.1 hmem
  rw [foldl_shift (startContext_ne_nil horder), List.length_drop, List.length_append,
    Nat.add_sub_cancel, length_startContext]

theorem eq_of_mem_rows_train {words : List Text} {order : Nat} {context : Text} {row : Row}
    (h : (context, row) ∈ (train words order).rows) :
    following context (trained words (max order 1)) ≠ [] ∧
      row = Row.ofList (following context (trained words (max order 1))) := by
  rw [rows_train, mem_iff_lookup (nodup_foldl_countTransition _), lookup_foldl_countTransition] at h
  split at h
  · cases h
  · next hne => exact ⟨hne, (Option.some.inj h).symm⟩

theorem isTable_train (words : List Text) (order : Nat) : (train words order).IsTable where
  nodup := nodup_foldl_countTransition _
  width h := by
    have horder : max order 1 ≠ 0 := by omega
    obtain ⟨c, hc⟩ := List.exists_mem_of_ne_nil _ (eq_of_mem_rows_train h).1
    exact length_of_mem_trained horder (mem_following.1 hc)
  ne_nil h := by
    obtain ⟨hne, rfl⟩ := eq_of_mem_rows_train h
    exact Row.ofList_ne_nil hne
  row_nodup h := by
    obtain ⟨-, rfl⟩ := eq_of_mem_rows_train h
    exact Row.nodup_ofList _

/-! ## Sums -/

theorem sum_countTransition (rows : List (Text × Row)) (transition : Text × Char) :
    ((countTransition rows transition).map fun entry => entry.2.total).sum =
      (rows.map fun entry => entry.2.total).sum + 1 := by
  induction rows with
  | nil => rfl
  | cons entry rows ih =>
    obtain ⟨context, row⟩ := entry
    rw [countTransition]
    split
    · simp only [List.map_cons, List.sum_cons, Row.total_count]
      omega
    · simp only [List.map_cons, List.sum_cons, ih]
      omega

theorem sum_foldl_countTransition (transitions : List (Text × Char)) :
    ((transitions.foldl countTransition []).map fun entry => entry.2.total).sum =
      transitions.length := by
  induction transitions using List.reverseRecOn with
  | nil => rfl
  | append_singleton transitions transition ih =>
    rw [List.foldl_append, List.foldl_cons, List.foldl_nil, sum_countTransition, ih,
      List.length_append, List.length_singleton]

theorem length_trained (words : List Text) (order : Nat) :
    (trained words order).length =
      ((words.filter (!·.isEmpty)).map fun word => (Text.lower word).length + 1).sum := by
  rw [trained, List.length_flatMap, List.map_map]
  congr 1
  refine List.map_congr_left fun word _ => ?_
  show (transitions _ _).length = _
  rw [length_transitions, List.length_append, List.length_singleton]

/-- A trained model has counted each window of the padded words as often as it stands in them, so the
order of the words does not matter. Together the counts are the code points of the words in lower case
and one end for each. -/
theorem train_counts (words : List Text) (order : Nat) :
    (∀ context c n, (train words order).Counts context c n ↔
      1 ≤ n ∧ occurrences words (max order 1) (context ++ [c]) = n) ∧
    (train words order).IsTable ∧
    (∀ permuted : List Text, permuted.Perm words → ∀ context c n,
      (train permuted order).Counts context c n ↔ (train words order).Counts context c n) ∧
    ((train words order).rows.map fun entry => entry.2.total).sum =
      ((words.filter (!·.isEmpty)).map fun word => (Text.lower word).length + 1).sum := by
  refine ⟨fun context c n => ?_, isTable_train words order, fun permuted h context c n => ?_, ?_⟩
  · rw [counts_train, count_trained (by omega)]
  · have htrained : (trained permuted (max order 1)).Perm (trained words (max order 1)) :=
      ((h.filter _).map _).flatMap_right _
    rw [counts_train, counts_train, htrained.count_eq]
  · rw [rows_train, sum_foldl_countTransition, length_trained]

def fruits : List Text := ["banana".toList, [], "BAN".toList]

/-- The order zero is taken as one: an `a` before an `n` stands twice in one word and once in the other. -/
theorem train_counts_fruits :
    (train fruits 0).Counts ['a'] 'n' 3 ∧ (train fruits.reverse 0).Counts ['a'] 'n' 3 ∧
      ((train fruits 0).rows.map fun entry => entry.2.total).sum = 11 := by
  obtain ⟨hcounts, -, hpermuted, hsum⟩ := train_counts fruits 0
  have hn : (train fruits 0).Counts ['a'] 'n' 3 :=
    (hcounts ['a'] 'n' 3).2 (by decide)
  exact ⟨hn, (hpermuted _ fruits.reverse_perm _ _ _).2 hn, hsum.trans (by decide)⟩

end Model

end RandomTables.Name
