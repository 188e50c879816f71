import Mathlib.Data.List.TakeWhile
import RandomTables.Proofs.Template.Notation

/-! # Spelled clauses

A text behind a path is read as the clauses that it spells, and the rest of it is skipped.
-/

namespace RandomTables

open RandomTables.Bracket

namespace Clause

/-! ## Spelling -/

/-- The ways to spell one clause. -/
inductive IsSpelling : Clause → Text → Prop where
  | optional : IsSpelling .optional ['?']
  | exclude {run : Text} (hrun : ∀ c ∈ run, ¬ isMark c) (hword : Text.trim run ≠ []) :
      IsSpelling (.exclude (Text.trim run)) ('!' :: run)
  | count {digits : Text} (hne : digits ≠ []) (hdigits : ∀ c ∈ digits, c.isDigit) :
      IsSpelling (.times (.fixed (Repetition.clamp (Text.digitsValue digits)))) ('*' :: digits)
  | range {body : Text} {low high : UInt64} (hrange : numberRange? body = some (low, high)) :
      IsSpelling (.times (.range (Repetition.clamp low.toNat) (Repetition.clamp high.toNat)))
        ('*' :: '{' :: body ++ ['}'])

/-- The text is these clauses, one spelled behind the other. -/
inductive Spells : List Clause → Text → Prop where
  | nil : Spells [] []
  | cons {clause : Clause} {clauses : List Clause} {s t : Text} (hclause : clause.IsSpelling s)
      (h : Spells clauses t) : Spells (clause :: clauses) (s ++ t)

/-- What `readAll` does not skip. -/
def kept : Text → Text
  | [] => []
  | '?' :: t => '?' :: kept t
  | '!' :: t =>
    let run := t.takeWhile (!isMark ·)
    let rest := kept (t.dropWhile (!isMark ·))
    if (Text.trim run).isEmpty then rest else '!' :: run ++ rest
  | '*' :: t =>
    match Repetition.read t with
    | (none, _) => kept (Repetition.read t).2
    | (some _, rest) => '*' :: t.take (t.length - rest.length) ++ kept (Repetition.read t).2
  | '^' :: _ => []
  | _ :: t => kept t
termination_by t => t.length
decreasing_by
  all_goals simp only [List.length_cons]
  all_goals first
    | omega
    | exact Nat.lt_succ_of_le (List.dropWhile_sublist _).length_le
    | exact Nat.lt_succ_of_le (Repetition.read_length _)

theorem IsSpelling.exists_cons {clause : Clause} {s : Text} (h : clause.IsSpelling s) :
    ∃ mark t, s = mark :: t ∧ isMark mark := by
  cases h with
  | optional => exact ⟨'?', _, rfl, by decide⟩
  | exclude => exact ⟨'!', _, rfl, by decide⟩
  | count => exact ⟨'*', _, rfl, by decide⟩
  | range => exact ⟨'*', _, rfl, by decide⟩

theorem Spells.isMark {clauses : List Clause} {t : Text} (h : Spells clauses t) {c : Char}
    (hc : c ∈ t.head?) : Clause.isMark c := by
  cases h with
  | nil => cases hc
  | cons hclause _ =>
    obtain ⟨mark, s, rfl, hmark⟩ := hclause.exists_cons
    cases hc
    exact hmark

end Clause

/-! ## Counts -/

namespace Repetition

theorem read_of_digits {digits rest : Text} (hne : digits ≠ []) (hdigits : ∀ c ∈ digits, c.isDigit)
    (hrest : ∀ c ∈ rest.head?, ¬ c.isDigit) :
    read (digits ++ rest) = (some (.fixed (clamp (Text.digitsValue digits))), rest) := by
  obtain ⟨htake, hdrop⟩ := Text.takeWhile_append_stop hdigits hrest
  obtain ⟨d, more, rfl⟩ := List.exists_cons_of_ne_nil hne
  unfold read
  split
  · next heq =>
    injection heq with hd
    have hdigit := hdigits d List.mem_cons_self
    rw [hd] at hdigit
    exact absurd hdigit (by decide)
  · dsimp only
    rw [htake, hdrop]
    rfl

theorem read_of_braces {body : Text} {low high : UInt64}
    (hrange : numberRange? body = some (low, high)) (rest : Text) :
    read ('{' :: body ++ '}' :: rest) =
      (some (.range (clamp low.toNat) (clamp high.toNat)), rest) := by
  have hbody : ∀ c ∈ body, ¬ (c == '}') := by
    intro c hc hbrace
    rcases isDigit_of_numberRange? hrange hc with hdigit | rfl
    · rw [beq_iff_eq.1 hbrace] at hdigit
      exact absurd hdigit (by decide)
    · exact absurd hbrace (by decide)
  have hcut := Text.cutAt?_append hbody (by decide : ('}' == '}') = true) rest
  rw [List.cons_append, read, hcut]
  dsimp only
  rw [hrange]
  rfl

theorem read_of_head {t : Text} (ht : ∀ c ∈ t.head?, c ≠ '{') :
    read t =
      if (t.takeWhile Char.isDigit).isEmpty then (none, t)
      else (some (.fixed (clamp (Text.digitsValue (t.takeWhile Char.isDigit)))),
        t.dropWhile Char.isDigit) := by
  unfold read
  split
  · exact absurd rfl (ht '{' rfl)
  · rfl

theorem read_append {s : Text} (hs : ∀ c ∈ s, isPlain c) {t : Text}
    (ht : ∀ c ∈ t.head?, c ≠ '{' ∧ ¬ c.isDigit) :
    read (s ++ t) = ((read s).1, (read s).2 ++ t) := by
  have hbrace (c : Char) (hc : c ∈ s) : c ≠ '{' := ne_opening_of_plain (hs c hc) .curly
  have hhead : ∀ c ∈ (s ++ t).head?, c ≠ '{' := by
    cases s with
    | nil => exact fun c hc => (ht c hc).1
    | cons d s =>
      rintro c hc
      cases hc
      exact hbrace d List.mem_cons_self
  obtain ⟨htake, hdrop⟩ := Text.takeWhile_append_of_head s fun c hc => (ht c hc).2
  rw [read_of_head hhead, read_of_head fun c hc => hbrace c (List.mem_of_mem_head? hc), htake, hdrop]
  split <;> rfl

theorem caret_mem_read {t : Text} (ht : ∀ c ∈ t, isPlain c) : '^' ∈ (read t).2 ↔ '^' ∈ t := by
  rw [read_of_head fun c hc => ne_opening_of_plain (ht c (List.mem_of_mem_head? hc)) .curly]
  split
  · rfl
  · exact Text.mem_dropWhile (by decide) t

theorem read_suffix (t : Text) : (read t).2 <:+ t := by
  unfold read
  split
  · split
    · exact List.suffix_rfl
    · next body rest hcut =>
      obtain ⟨c, -, rfl⟩ := Text.cutAt?_eq hcut
      exact ⟨'{' :: body ++ [c], by simp⟩
  · dsimp only
    split
    · exact List.suffix_rfl
    · exact List.dropWhile_suffix _

theorem isSpelling_of_read {t rest : Text} {repetition : Repetition}
    (h : read t = (some repetition, rest)) :
    ∃ s, t = s ++ rest ∧ (Clause.times repetition).IsSpelling ('*' :: s) := by
  unfold read at h
  split at h
  · split at h
    · cases h
    · next body rest' hcut =>
      injection h with hcount hrest
      obtain ⟨⟨low, high⟩, hrange, rfl⟩ := Option.map_eq_some_iff.1 hcount
      obtain ⟨c, hc, rfl⟩ := Text.cutAt?_eq hcut
      obtain rfl := beq_iff_eq.1 hc
      exact ⟨'{' :: body ++ ['}'], by simp [hrest], .range hrange⟩
  · dsimp only at h
    split at h
    · cases h
    · next hne =>
      injection h with hcount hrest
      cases hcount
      refine ⟨t.takeWhile Char.isDigit, ?_, .count (by simpa using hne) ?_⟩
      · rw [← hrest, List.takeWhile_append_dropWhile]
      · exact fun c hc => List.mem_takeWhile_imp hc

end Repetition

/-! ## Reading -/

namespace Clause

theorem kept_times {s rest : Text} {repetition : Repetition}
    (h : Repetition.read (s ++ rest) = (some repetition, rest)) :
    kept ('*' :: (s ++ rest)) = '*' :: s ++ kept rest := by
  have htake : (s ++ rest).take ((s ++ rest).length - rest.length) = s := by simp
  rw [kept, h]
  dsimp only
  rw [htake]

theorem read_spelling {clause : Clause} {s : Text} (h : clause.IsSpelling s) {rest : Text}
    (hrest : ∀ c ∈ rest.head?, isMark c) :
    readAll (s ++ rest) = clause :: readAll rest ∧ kept (s ++ rest) = s ++ kept rest := by
  cases h with
  | optional => exact ⟨readAll.eq_2 rest, kept.eq_2 rest⟩
  | @exclude run hrun hword =>
    have hbare : ∀ c ∈ run, !isMark c := fun c hc => by simpa using hrun c hc
    obtain ⟨htake, hdrop⟩ := Text.takeWhile_append_stop hbare (by simpa using hrest)
    have hne : (Text.trim run).isEmpty = false := by simpa using hword
    rw [List.cons_append, readAll, kept, htake, hdrop, hne]
    exact ⟨rfl, rfl⟩
  | count hne hdigits =>
    have hread := Repetition.read_of_digits hne hdigits fun c hc => not_isDigit_of_isMark (hrest c hc)
    rw [List.cons_append, readAll, kept_times hread, hread]
    exact ⟨rfl, rfl⟩
  | @range body low high hrange =>
    have hread : Repetition.read (('{' :: body ++ ['}']) ++ rest) =
        (some (.range (Repetition.clamp low.toNat) (Repetition.clamp high.toNat)), rest) := by
      simpa using Repetition.read_of_braces hrange rest
    have htext : '*' :: '{' :: body ++ ['}'] ++ rest = '*' :: (('{' :: body ++ ['}']) ++ rest) := rfl
    rw [htext, readAll, kept_times hread, hread]
    exact ⟨rfl, rfl⟩

theorem Spells.read {clauses : List Clause} {t : Text} (h : Spells clauses t) :
    readAll t = clauses ∧ kept t = t := by
  induction h with
  | nil => exact ⟨readAll.eq_1, kept.eq_1⟩
  | cons hclause hrest ih =>
    obtain ⟨hread, hkept⟩ := read_spelling hclause fun c hc => hrest.isMark hc
    rw [hread, hkept, ih.1, ih.2]
    exact ⟨rfl, rfl⟩

theorem spells_kept (t : Text) : Spells (readAll t) (kept t) := by
  fun_induction readAll t with
  | case1 =>
    rw [kept]
    exact .nil
  | case2 t ih =>
    rw [kept]
    exact .cons .optional ih
  | case3 t word rest hempty ih =>
    rw [kept, if_pos hempty]
    exact ih
  | case4 t word rest hempty ih =>
    have hrun : ∀ c ∈ t.takeWhile (!isMark ·), ¬ isMark c := fun c hc => by
      simpa using List.mem_takeWhile_imp hc
    rw [kept, if_neg hempty]
    exact .cons (.exclude hrun (by simpa [word] using hempty)) ih
  | case5 t rest hread ih =>
    rw [hread] at ih
    rw [kept, hread]
    exact ih
  | case6 t repetition rest hread ih =>
    obtain ⟨s, rfl, hspelling⟩ := Repetition.isSpelling_of_read hread
    rw [kept_times hread, hread]
    rw [hread] at ih
    exact .cons hspelling ih
  | case7 t =>
    rw [kept]
    exact .nil
  | case8 c t hoptional hexclude htimes hcaret ih =>
    rw [kept] <;> assumption

theorem kept_sublist (t : Text) : (kept t).Sublist t := by
  fun_induction kept t with
  | case1 => exact List.Sublist.refl _
  | case2 t ih => exact ih.cons_cons '?'
  | case3 t run rest hempty ih => exact (ih.trans (List.dropWhile_sublist _)).cons '!'
  | case4 t run rest hempty ih =>
    have htext : run ++ t.dropWhile (!isMark ·) = t := List.takeWhile_append_dropWhile
    have happend : (run ++ rest).Sublist (run ++ t.dropWhile (!isMark ·)) := ih.append_left run
    rw [htext] at happend
    exact happend.cons_cons '!'
  | case5 t rest hread ih =>
    exact (ih.trans (Repetition.read_suffix t).sublist).cons '*'
  | case6 t repetition rest hread ih =>
    obtain ⟨s, rfl, -⟩ := Repetition.isSpelling_of_read hread
    rw [hread] at ih ⊢
    have htake : (s ++ rest).take ((s ++ rest).length - rest.length) = s := by simp
    rw [htake]
    exact (ih.append_left s).cons_cons '*'
  | case7 t => exact List.nil_sublist _
  | case8 c t _ _ _ _ ih => exact ih.cons c

theorem kept_eq_self_iff (t : Text) : kept t = t ↔ ∃ clauses, Spells clauses t := by
  constructor
  · intro hkept
    have hspells := spells_kept t
    rw [hkept] at hspells
    exact ⟨_, hspells⟩
  · rintro ⟨clauses, hspells⟩
    exact hspells.read.2

/-! ## Clauses in two places -/

theorem readAll_exclude (t : Text) :
    readAll ('!' :: t) =
      (if Text.trim (t.takeWhile (!isMark ·)) = [] then []
        else [.exclude (Text.trim (t.takeWhile (!isMark ·)))]) ++
      readAll (t.dropWhile (!isMark ·)) := by
  rw [readAll]
  simp only [List.isEmpty_iff]
  split <;> rfl

theorem readAll_times (t : Text) :
    readAll ('*' :: t) =
      ((Repetition.read t).1.map .times).toList ++ readAll (Repetition.read t).2 := by
  rw [readAll]
  split
  · next hread => rw [hread]; rfl
  · next hread => rw [hread]; rfl

theorem readAll_skip {c : Char} (hc : ¬ isMark c) (t : Text) : readAll (c :: t) = readAll t := by
  simp only [isMark, Bool.or_eq_true, beq_iff_eq, not_or] at hc
  rw [readAll] <;> simp [hc]

theorem head_of_isMark {t : Text} (ht : ∀ c ∈ t.head?, isMark c) :
    ∀ c ∈ t.head?, c ≠ '{' ∧ ¬ c.isDigit := by
  intro c hc
  refine ⟨?_, not_isDigit_of_isMark (ht c hc)⟩
  rintro rfl
  exact absurd (ht '{' hc) (by decide)

theorem readAll_append {s : Text} (hs : ∀ c ∈ s, isPlain c) {t : Text}
    (ht : ∀ c ∈ t.head?, isMark c) :
    readAll (s ++ t) = readAll s ++ if '^' ∈ s then [] else readAll t := by
  induction s using readAll.induct with
  | case1 => simp [readAll]
  | case2 s ih =>
    rw [List.cons_append, readAll, readAll, ih (List.forall_mem_cons.1 hs).2]
    simp
  | case3 s _ _ ih | case4 s _ _ ih =>
    have hrest : ∀ c ∈ s.dropWhile (!isMark ·), isPlain c := fun c hc =>
      hs c (List.mem_cons_of_mem _ ((List.dropWhile_sublist _).subset hc))
    obtain ⟨htake, hdrop⟩ := Text.takeWhile_append_of_head (p := (!isMark ·)) s (by simpa using ht)
    rw [List.cons_append, readAll_exclude, readAll_exclude, htake, hdrop, ih hrest,
      List.append_assoc]
    have hcaret := Text.mem_dropWhile (p := (!isMark ·)) (c := '^') (by decide) s
    simp only [hcaret, List.mem_cons, show ¬ '^' = '!' by decide, false_or]
  | case5 s _ _ ih | case6 s _ _ _ ih =>
    have hplain := (List.forall_mem_cons.1 hs).2
    have hrest : ∀ c ∈ (Repetition.read s).2, isPlain c := fun c hc =>
      hplain c ((Repetition.read_suffix s).subset hc)
    rw [List.cons_append, readAll_times, readAll_times,
      Repetition.read_append hplain (head_of_isMark ht), ih hrest, List.append_assoc]
    simp only [Repetition.caret_mem_read hplain, List.mem_cons, show ¬ '^' = '*' by decide, false_or]
  | case7 s => simp [readAll]
  | case8 c s hoptional hexclude htimes hcaret ih =>
    have hmark : ¬ isMark c := by simpa [isMark] using ⟨⟨⟨hexclude, hoptional⟩, htimes⟩, hcaret⟩
    have hne : ¬ '^' = c := fun h => hcaret h.symm
    rw [List.cons_append, readAll_skip hmark, readAll_skip hmark, ih (List.forall_mem_cons.1 hs).2]
    simp only [List.mem_cons, hne, false_or]

theorem not_isMark_of_isBlank {c : Char} (hc : Text.isBlank c) : ¬ isMark c := by
  intro hmark
  simp only [isMark, Bool.or_eq_true, beq_iff_eq] at hmark
  rcases hmark with ((rfl | rfl) | rfl) | rfl <;> exact absurd hc (by decide)

theorem readAll_blank {blank : Text} (hblank : ∀ c ∈ blank, Text.isBlank c) : readAll blank = [] := by
  induction blank with
  | nil => exact readAll.eq_1
  | cons c blank ih =>
    obtain ⟨hc, hblank⟩ := List.forall_mem_cons.1 hblank
    rw [readAll_skip (not_isMark_of_isBlank hc), ih hblank]

theorem exclusion_append_blank (s : Text) {blank : Text} (hblank : ∀ c ∈ blank, Text.isBlank c) :
    Text.trim ((s ++ blank).takeWhile (!isMark ·)) = Text.trim (s.takeWhile (!isMark ·)) ∧
      ((s ++ blank).dropWhile (!isMark ·) = s.dropWhile (!isMark ·) ++ blank ∨
        (s ++ blank).dropWhile (!isMark ·) = [] ∧ s.dropWhile (!isMark ·) = []) := by
  have hbare : ∀ c ∈ blank, !isMark c := fun c hc => by
    simpa using not_isMark_of_isBlank (hblank c hc)
  rw [List.takeWhile_append, List.dropWhile_append, List.takeWhile_eq_self_iff.2 hbare,
    List.dropWhile_eq_nil_iff.2 hbare]
  constructor
  · split
    · next hlength =>
      rw [(List.takeWhile_prefix _).eq_of_length hlength, Text.trim_append_blank s hblank]
    · rfl
  · split
    · next hempty => exact .inr ⟨rfl, List.isEmpty_iff.1 hempty⟩
    · exact .inl rfl

theorem readAll_append_blank {s : Text} (hs : ∀ c ∈ s, isPlain c) {blank : Text}
    (hblank : ∀ c ∈ blank, Text.isBlank c) : readAll (s ++ blank) = readAll s := by
  induction s using readAll.induct with
  | case1 => rw [List.nil_append, readAll_blank hblank, readAll]
  | case2 s ih => rw [List.cons_append, readAll, readAll, ih (List.forall_mem_cons.1 hs).2]
  | case3 s _ _ ih | case4 s _ _ ih =>
    have hrest : ∀ c ∈ s.dropWhile (!isMark ·), isPlain c := fun c hc =>
      hs c (List.mem_cons_of_mem _ ((List.dropWhile_sublist _).subset hc))
    obtain ⟨hword, hbehind⟩ := exclusion_append_blank s hblank
    rw [List.cons_append, readAll_exclude, readAll_exclude, hword]
    rcases hbehind with hbehind | ⟨hnone, hbehind⟩
    · rw [hbehind, ih hrest]
    · rw [hnone, hbehind]
  | case5 s _ _ ih | case6 s _ _ _ ih =>
    have hplain := (List.forall_mem_cons.1 hs).2
    have hrest : ∀ c ∈ (Repetition.read s).2, isPlain c := fun c hc =>
      hplain c ((Repetition.read_suffix s).subset hc)
    have hhead : ∀ c ∈ blank.head?, c ≠ '{' ∧ ¬ c.isDigit := fun c hc => by
      have hc := hblank c (List.mem_of_mem_head? hc)
      refine ⟨?_, fun hdigit => Text.not_isBlank_of_isDigit hdigit hc⟩
      rintro rfl
      exact absurd hc (by decide)
    rw [List.cons_append, readAll_times, readAll_times, Repetition.read_append hplain hhead, ih hrest]
  | case7 s => simp [readAll]
  | case8 c s hoptional hexclude htimes hcaret ih =>
    have hmark : ¬ isMark c := by simpa [isMark] using ⟨⟨⟨hexclude, hoptional⟩, htimes⟩, hcaret⟩
    rw [List.cons_append, readAll_skip hmark, readAll_skip hmark, ih (List.forall_mem_cons.1 hs).2]

end Clause

namespace Reference

theorem path?_append_blank (t : Text) {blank : Text} (hblank : ∀ c ∈ blank, Text.isBlank c) :
    path? (t ++ blank) = path? t := by
  unfold path?
  rw [Text.trim_append_blank t hblank]

theorem parse?_append_blank (t : Text) {blank : Text} (hblank : ∀ c ∈ blank, Text.isBlank c) :
    parse? (t ++ blank) = parse? t := by
  unfold parse?
  rw [Text.trim_append_blank t hblank]

theorem exists_trim_append (x : Text) {t : Text} {mark : Char} (hsolid : ¬ Text.isBlank mark)
    (hend : Text.EndsSolid (mark :: t)) : ∃ blank : Text, (∀ c ∈ blank, Text.isBlank c) ∧
      Text.trim (x ++ mark :: t) = Text.trim x ++ (blank ++ mark :: t) := by
  obtain ⟨before, after, hx, hbefore, hafter⟩ := Text.trim_between x
  have htrim := Text.trim_trim x
  generalize Text.trim x = y at hx htrim ⊢
  subst hx
  rw [List.append_assoc, List.append_assoc, Text.trim_blank_append hbefore]
  cases y with
  | nil =>
    rw [List.nil_append, Text.trim_blank_append hafter, Text.trim_eq_self hsolid hend]
    exact ⟨[], List.forall_mem_nil _, rfl⟩
  | cons c y =>
    refine ⟨after, hafter, ?_⟩
    apply Text.trim_eq_self (Text.solid_of_trim_cons htrim)
    exact (hend.append after).append (c :: y)

theorem exists_path {t : Text} (ht : ∀ c ∈ t, isPlain c) : ∃ path clauses : Text,
    t = path ++ clauses ∧ (∀ c ∈ path, isPlain c ∧ ¬ Clause.isMark c) ∧
      (∀ c ∈ clauses, isPlain c) ∧ ∀ c ∈ clauses.head?, isPlain c ∧ Clause.isMark c := by
  have hclauses : ∀ c ∈ t.dropWhile (!Clause.isMark ·), isPlain c := fun c hc =>
    ht c ((List.dropWhile_sublist _).subset hc)
  refine ⟨t.takeWhile (!Clause.isMark ·), t.dropWhile (!Clause.isMark ·),
    List.takeWhile_append_dropWhile.symm, fun c hc => ⟨?_, ?_⟩, hclauses, fun c hc => ⟨?_, ?_⟩⟩
  · exact ht c ((List.takeWhile_sublist _).subset hc)
  · simpa using List.mem_takeWhile_imp hc
  · exact hclauses c (List.mem_of_mem_head? hc)
  · have hhead := List.head?_dropWhile_not (!Clause.isMark ·) t
    rw [hc] at hhead
    simpa using hhead

/-- Clauses behind the text of a reference are added to those in it, unless a `^` ends these. -/
theorem parse?_append {x : Text} (hx : ∀ c ∈ x, isPlain c) {mark : Char} (hmark : Clause.isMark mark)
    {t : Text} (hend : Text.EndsSolid (mark :: t)) :
    parse? (x ++ mark :: t) =
      (parse? x).map ((if '^' ∈ x then [] else Clause.readAll (mark :: t)).foldl Clause.apply) := by
  have hmarkPlain : isPlain mark := isPlain_of_brackets (fun kind => by cases kind <;> decide) hmark
  have hsolid : ¬ Text.isBlank mark := fun hblank => Clause.not_isMark_of_isBlank hblank hmark
  obtain ⟨blank, hblank, htrim⟩ := exists_trim_append x hsolid hend
  have hbare : ∀ c ∈ blank, isPlain c ∧ ¬ Clause.isMark c := fun c hc =>
    ⟨isPlain_of_isBlank (hblank c hc), Clause.not_isMark_of_isBlank (hblank c hc)⟩
  obtain ⟨path, clauses, hsplit, hpath, hclauses, hhead⟩ :=
    exists_path fun c hc => hx c (Text.trim_subset x hc)
  have hcaret : '^' ∈ x ↔ '^' ∈ clauses := by
    have hnone : '^' ∉ path := fun hmem => (hpath _ hmem).2 (by decide)
    rw [← or_iff_right hnone (b := '^' ∈ clauses), ← List.mem_append, ← hsplit]
    exact ⟨fun h => Text.mem_trim (by decide) h, fun h => Text.trim_subset x h⟩
  unfold parse?
  rw [htrim, hsplit, cutOutside_append hpath hhead, List.append_assoc]
  simp only [hcaret]
  -- The path ends at the first mark in the text, or else at the mark behind it.
  cases clauses with
  | nil =>
    rw [List.nil_append, ← List.append_assoc,
      cutOutside_append (List.forall_mem_append.2 ⟨hpath, hbare⟩)
        fun c hc => by cases hc; exact ⟨hmarkPlain, hmark⟩]
    dsimp only
    rw [path?_append_blank path hblank, Clause.readAll, if_neg List.not_mem_nil, Option.map_map]
    rfl
  | cons first clauses =>
    have hread : Clause.readAll (first :: clauses ++ (blank ++ mark :: t)) =
        Clause.readAll (first :: clauses) ++
          if '^' ∈ first :: clauses then [] else Clause.readAll (mark :: t) := by
      have hblankCaret : '^' ∉ blank := fun hmem => (hbare _ hmem).2 (by decide)
      rw [← List.append_assoc, Clause.readAll_append
        (List.forall_mem_append.2 ⟨hclauses, fun c hc => (hbare c hc).1⟩)
        (fun c hc => by cases hc; exact hmark), Clause.readAll_append_blank hclauses hblank]
      simp only [List.mem_append, hblankCaret, or_false]
    have hfirst : ∀ c ∈ (first :: clauses ++ (blank ++ mark :: t)).head?,
        isPlain c ∧ Clause.isMark c := fun c hc => hhead c hc
    rw [cutOutside_append hpath hfirst]
    dsimp only
    rw [hread, Option.map_map]
    simp only [List.foldl_append]
    rfl

end Reference

end RandomTables
