import Mathlib.Data.List.Induction
import Mathlib.Data.List.Nodup
import RandomTables.Name.Model

/-! # Trained models

The row of a context counts what follows the context in the training words, and the contexts of a
word are the windows of the word between its markers.
-/

namespace RandomTables.Name

/-! ## Tables -/

section

variable {κ ν : Type} [DecidableEq κ] {key k : κ} {first v : ν} {change : ν → ν}

/-- Changes the value of a key, or puts the key behind the others with a first value. -/
def upsert (key : κ) (first : ν) (change : ν → ν) : List (κ × ν) → List (κ × ν)
  | [] => [(key, first)]
  | (k, v) :: entries =>
    if k = key then (k, change v) :: entries else (k, v) :: upsert key first change entries

theorem keys_upsert (entries : List (κ × ν)) :
    (upsert key first change entries).map Prod.fst =
      if key ∈ entries.map Prod.fst then entries.map Prod.fst
      else entries.map Prod.fst ++ [key] := by
  induction entries with
  | nil => rfl
  | cons entry entries ih =>
    obtain ⟨k, v⟩ := entry
    rw [upsert]
    split
    · next heq =>
      subst heq
      simp
    · next hne =>
      rw [List.map_cons, ih, List.map_cons]
      simp only [List.mem_cons, Ne.symm hne, false_or]
      split <;> rfl

theorem nodup_upsert {entries : List (κ × ν)} (h : (entries.map Prod.fst).Nodup) :
    ((upsert key first change entries).map Prod.fst).Nodup := by
  rw [keys_upsert]
  split
  · exact h
  · next hnew => exact List.concat_eq_append ▸ List.Nodup.concat hnew h

variable [BEq κ] [LawfulBEq κ]

theorem lookup_upsert (entries : List (κ × ν)) :
    (upsert key first change entries).lookup k =
      if k = key then some ((entries.lookup key).elim first change) else entries.lookup k := by
  induction entries with
  | nil =>
    rw [upsert, List.lookup_cons]
    by_cases hk : k = key
    · rw [hk, beq_self_eq_true, if_pos rfl]
      rfl
    · rw [beq_false_of_ne hk, if_neg hk]
  | cons entry entries ih =>
    obtain ⟨d, v⟩ := entry
    rw [upsert]
    by_cases hd : d = key
    · subst hd
      rw [if_pos rfl]
      simp only [List.lookup_cons, beq_self_eq_true]
      by_cases hk : k = d
      · rw [hk, beq_self_eq_true, if_pos rfl]
        rfl
      · rw [beq_false_of_ne hk, if_neg hk]
    · rw [if_neg hd]
      simp only [List.lookup_cons, beq_false_of_ne (Ne.symm hd)]
      by_cases hk : k = d
      · rw [hk, beq_self_eq_true, if_neg hd]
      · rw [beq_false_of_ne hk, ih]

theorem mem_iff_lookup {entries : List (κ × ν)} (h : (entries.map Prod.fst).Nodup) :
    (k, v) ∈ entries ↔ entries.lookup k = some v := by
  induction entries with
  | nil => simp
  | cons entry entries ih =>
    obtain ⟨d, w⟩ := entry
    rw [List.map_cons, List.nodup_cons] at h
    rw [List.mem_cons, List.lookup_cons, Prod.mk.injEq, ih h.2]
    by_cases hk : k = d
    · subst hk
      have hnone : entries.lookup k = none := by
        rw [List.lookup_eq_none_iff]
        rintro ⟨d, w⟩ hentry
        refine bne_iff_ne.2 fun heq => h.1 ?_
        exact List.mem_map.2 ⟨(d, w), hentry, heq.symm⟩
      simp [hnone, eq_comm]
    · simp [hk, beq_false_of_ne hk]

end

/-! ## Rows -/

namespace Row

def ofList (nexts : Text) : Row := nexts.foldl (fun row c => count c row) []

def total : Row → Nat
  | [] => 0
  | (_, n) :: row => n + total row

theorem foldl_eq_total (row : Row) (n : Nat) :
    row.foldl (fun total (_, count) => total + count) n = n + total row := by
  induction row generalizing n with
  | nil => rfl
  | cons entry row ih => rw [List.foldl_cons, ih, total, Nat.add_assoc]

theorem count_eq_upsert (next : Char) (row : Row) : count next row = upsert next 1 (· + 1) row := by
  induction row with
  | nil => rfl
  | cons entry row ih => rw [count, upsert, ih]

theorem mem_count {next c : Char} {row : Row} :
    c ∈ (count next row).map Prod.fst ↔ c = next ∨ c ∈ row.map Prod.fst := by
  rw [count_eq_upsert, keys_upsert]
  split
  · next hmem =>
    refine ⟨.inr, ?_⟩
    rintro (rfl | h)
    · exact hmem
    · exact h
  · rw [List.mem_append, List.mem_singleton, or_comm]

theorem total_count (next : Char) (row : Row) : total (count next row) = total row + 1 := by
  induction row with
  | nil => rfl
  | cons entry row ih =>
    obtain ⟨d, n⟩ := entry
    rw [count]
    split
    · simp only [total]
      omega
    · simp only [total, ih]
      omega

theorem ofList_concat (nexts : Text) (c : Char) : ofList (nexts ++ [c]) = count c (ofList nexts) := by
  rw [ofList, List.foldl_append]
  rfl

theorem mem_ofList {nexts : Text} {c : Char} : c ∈ (ofList nexts).map Prod.fst ↔ c ∈ nexts := by
  induction nexts using List.reverseRecOn with
  | nil => rfl
  | append_singleton nexts d ih =>
    rw [ofList_concat, mem_count, ih, List.mem_append, List.mem_singleton, Or.comm]

theorem total_ofList (nexts : Text) : total (ofList nexts) = nexts.length := by
  induction nexts using List.reverseRecOn with
  | nil => rfl
  | append_singleton nexts c ih =>
    rw [ofList_concat, total_count, ih, List.length_append, List.length_singleton]

end Row

def following (context : Text) (transitions : List (Text × Char)) : Text :=
  (transitions.filter (·.1 = context)).map Prod.snd

theorem mem_following {context : Text} {c : Char} {transitions : List (Text × Char)} :
    c ∈ following context transitions ↔ (context, c) ∈ transitions := by
  simp [following]

theorem countTransition_eq_upsert (rows : List (Text × Row)) (transition : Text × Char) :
    countTransition rows transition =
      upsert transition.1 [(transition.2, 1)] (Row.count transition.2) rows := by
  induction rows with
  | nil => rfl
  | cons row rows ih => rw [countTransition, upsert, ih]

theorem lookup_countTransition (rows : List (Text × Row)) (transition : Text × Char)
    (context : Text) :
    (countTransition rows transition).lookup context =
      if transition.1 = context then
        some (Row.count transition.2 ((rows.lookup context).getD []))
      else rows.lookup context := by
  rw [countTransition_eq_upsert, lookup_upsert]
  by_cases hcontext : transition.1 = context
  · rw [if_pos hcontext.symm, if_pos hcontext, hcontext]
    cases rows.lookup context <;> rfl
  · rw [if_neg (Ne.symm hcontext), if_neg hcontext]

theorem lookup_foldl_countTransition (transitions : List (Text × Char)) (context : Text) :
    (transitions.foldl countTransition []).lookup context =
      if following context transitions = [] then none
      else some (Row.ofList (following context transitions)) := by
  induction transitions using List.reverseRecOn with
  | nil => rfl
  | append_singleton transitions transition ih =>
    rw [List.foldl_append, List.foldl_cons, List.foldl_nil, lookup_countTransition, ih]
    by_cases hcontext : transition.1 = context
    · have hfollowing : following context (transitions ++ [transition]) =
          following context transitions ++ [transition.2] := by
        simp [following, hcontext]
      have hsome : following context transitions ++ [transition.2] ≠ [] := by simp
      rw [if_pos hcontext, hfollowing, Row.ofList_concat, if_neg hsome]
      by_cases hnil : following context transitions = []
      · rw [if_pos hnil, hnil]
        rfl
      · rw [if_neg hnil]
        rfl
    · have hfollowing : following context (transitions ++ [transition]) =
          following context transitions := by
        simp [following, hcontext]
      rw [if_neg hcontext, hfollowing]

/-! ## Windows -/

theorem length_startContext (order : Nat) : (startContext order).length = order := by
  rw [startContext, List.length_replicate]

theorem startContext_ne_nil {order : Nat} (horder : order ≠ 0) : startContext order ≠ [] := by
  rw [startContext, ne_eq, List.replicate_eq_nil_iff]
  exact horder

/-- A word between its markers. -/
def padded (order : Nat) (word : Text) : Text := startContext order ++ word ++ [wordEnd]

theorem foldl_shift {context : Text} (hcontext : context ≠ []) (t : Text) :
    t.foldl shift context = (context ++ t).drop t.length := by
  induction t generalizing context with
  | nil => simp
  | cons c t ih =>
    obtain ⟨d, rest, rfl⟩ := List.exists_cons_of_ne_nil hcontext
    have hshift : shift (d :: rest) c = rest ++ [c] := rfl
    rw [List.foldl_cons, hshift, ih (by simp)]
    simp

theorem mem_transitions {context window : Text} {c : Char} {t : Text} :
    (window, c) ∈ transitions context t ↔
      ∃ before after, t = before ++ c :: after ∧ window = before.foldl shift context := by
  induction t generalizing context with
  | nil => simp [transitions]
  | cons d t ih =>
    rw [transitions, List.mem_cons, Prod.mk.injEq, ih]
    constructor
    · rintro (⟨rfl, rfl⟩ | ⟨before, after, rfl, rfl⟩)
      · exact ⟨[], t, rfl, rfl⟩
      · exact ⟨d :: before, after, rfl, rfl⟩
    · rintro ⟨before, after, htext, rfl⟩
      cases before with
      | nil =>
        obtain ⟨rfl, -⟩ := List.cons.inj htext
        exact .inl ⟨rfl, rfl⟩
      | cons e before =>
        obtain ⟨rfl, hrest⟩ := List.cons.inj htext
        exact .inr ⟨before, after, hrest, rfl⟩

theorem transitions_append (context s t : Text) :
    transitions context (s ++ t) = transitions context s ++ transitions (s.foldl shift context) t := by
  induction s generalizing context with
  | nil => rfl
  | cons c s ih => rw [List.cons_append, transitions, transitions, ih, List.foldl_cons, List.cons_append]

/-- The windows of a padded text that are one wider than a context are the transitions. -/
theorem infix_iff_mem_transitions {context window : Text} (hcontext : context ≠ []) {c : Char}
    (hlength : window.length = context.length) (t : Text) :
    window ++ [c] <:+: context ++ t ↔ (window, c) ∈ transitions context t := by
  rw [mem_transitions]
  constructor
  · rintro ⟨a, b, htext⟩
    -- The window begins in the context, so what stands before its last code point covers the context.
    have hsplit : (a ++ window) ++ c :: b = context ++ t := by simpa using htext
    rcases List.append_eq_append_iff.1 hsplit with ⟨between, hbefore, hafter⟩ | ⟨before, hbefore, hafter⟩
    · have hlengths := congrArg List.length hbefore
      simp only [List.length_append] at hlengths
      obtain rfl : between = [] := List.eq_nil_of_length_eq_zero (by omega)
      obtain rfl : a = [] := List.eq_nil_of_length_eq_zero (by omega)
      refine ⟨[], b, hafter.symm, ?_⟩
      simpa using hbefore.symm
    · refine ⟨before, b, hafter, ?_⟩
      have hlengths := congrArg List.length hbefore
      simp only [List.length_append] at hlengths
      have hbetween : before.length = a.length := by omega
      rw [foldl_shift hcontext, ← hbefore, hbetween, List.drop_left]
  · rintro ⟨before, after, rfl, rfl⟩
    refine ⟨(context ++ before).take before.length, after, ?_⟩
    rw [foldl_shift hcontext, ← List.append_assoc _ _ [c], List.take_append_drop]
    simp

theorem exists_mem_transitions_shift {context window : Text} {c last : Char} {t : Text}
    (h : (window, c) ∈ transitions context (t ++ [last])) (hc : c ≠ last) :
    ∃ d, (shift window c, d) ∈ transitions context (t ++ [last]) := by
  obtain ⟨before, after, htext, rfl⟩ := mem_transitions.1 h
  cases after with
  | nil =>
    obtain ⟨-, hlast⟩ := List.append_inj' htext rfl
    exact absurd (List.cons.inj hlast).1.symm hc
  | cons d after =>
    refine ⟨d, mem_transitions.2 ⟨before ++ [c], after, by simp [htext], ?_⟩⟩
    rw [List.foldl_append]
    rfl

/-! ## Training -/

namespace Model

/-- This code point follows this context in a training word. -/
def Follows (words : List Text) (order : Nat) (context : Text) (c : Char) : Prop :=
  ∃ word ∈ words, word ≠ [] ∧ (context, c) ∈ wordTransitions order (Text.lower word)

variable {words : List Text} {order : Nat} {context : Text} {c : Char}

theorem infix_padded_iff (horder : order ≠ 0) (hlength : context.length = order) (word : Text) :
    context ++ [c] <:+: padded order word ↔ (context, c) ∈ wordTransitions order word := by
  have hwidth : context.length = (startContext order).length := by
    rw [length_startContext, hlength]
  rw [padded, List.append_assoc, infix_iff_mem_transitions (startContext_ne_nil horder) hwidth]
  rfl

theorem infix_of_follows {word window : Text}
    (hfollows : ∀ context c, (context, c) ∈ wordTransitions order word →
      Follows words order context c)
    (horder : order ≠ 0) (hlength : window.length = order + 1)
    (hwindow : window <:+: padded order word) :
    ∃ known ∈ words, known ≠ [] ∧ window <:+: padded order (Text.lower known) := by
  obtain ⟨context, c, rfl⟩ : ∃ context c, window = context ++ [c] := by
    have hne : window ≠ [] := List.ne_nil_of_length_eq_add_one hlength
    exact ⟨window.dropLast, window.getLast hne, (List.dropLast_concat_getLast hne).symm⟩
  have hwidth : context.length = order := by simpa using hlength
  rw [infix_padded_iff horder hwidth] at hwindow
  obtain ⟨known, hknown, hne, htransition⟩ := hfollows context c hwindow
  exact ⟨known, hknown, hne, (infix_padded_iff horder hwidth _).2 htransition⟩

theorem exists_lookup_train (h : Follows words (max order 1) context c) :
    ∃ row, (train words order).rows.lookup context = some row ∧ 0 < row.total ∧
      ∀ d, d ∈ row.map Prod.fst ↔ Follows words (max order 1) context d := by
  have hmem (d : Char) :
      d ∈ following context (((words.filter (!·.isEmpty)).map Text.lower).flatMap
        (wordTransitions (max order 1))) ↔ Follows words (max order 1) context d := by
    simp [mem_following, Follows, and_assoc]
  have hne := List.ne_nil_of_mem ((hmem c).2 h)
  refine ⟨_, (lookup_foldl_countTransition _ context).trans (if_neg hne), ?_, ?_⟩
  · rw [Row.total_ofList]
    exact List.length_pos_iff.2 hne
  · intro d
    rw [Row.mem_ofList, hmem]

theorem exists_follows_start (hwords : ∃ word ∈ words, word ≠ []) :
    ∃ c, Follows words order (startContext order) c := by
  obtain ⟨word, hword, hne⟩ := hwords
  cases hlower : Text.lower word with
  | nil => exact ⟨wordEnd, word, hword, hne, by simp [hlower, wordTransitions, transitions]⟩
  | cons c t => exact ⟨c, word, hword, hne, by simp [hlower, wordTransitions, transitions]⟩

theorem Follows.exists_shift (h : Follows words order context c) (hc : c ≠ wordEnd) :
    ∃ d, Follows words order (shift context c) d := by
  obtain ⟨word, hword, hne, htransition⟩ := h
  obtain ⟨d, hd⟩ := exists_mem_transitions_shift htransition hc
  exact ⟨d, word, hword, hne, hd⟩

end Model

end RandomTables.Name
