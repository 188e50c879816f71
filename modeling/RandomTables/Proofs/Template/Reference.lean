import RandomTables.Proofs.Text
import RandomTables.Template.Reference

/-! # References that are read

What is read between square brackets is always a reference in normal form: its path is trimmed and
not empty, no modifier is left at the end of the path, and its clauses are words and bounded counts.
-/

namespace RandomTables

/-! ## Words and counts -/

/-- A word that can stand behind `!`. -/
structure Clause.IsWord (word : Text) : Prop where
  ne_nil : word ≠ []
  trimmed : Text.trim word = word
  not_isMark : ∀ c ∈ word, ¬ isMark c

/-- No count is above the limit. -/
def Repetition.IsLimited : Repetition → Prop
  | .fixed count => count.toNat ≤ limit
  | .range min max => min.toNat ≤ limit ∧ max.toNat ≤ limit

instance : DecidablePred Repetition.IsLimited
  | .fixed count => inferInstanceAs (Decidable (count.toNat ≤ Repetition.limit))
  | .range min max =>
    inferInstanceAs (Decidable (min.toNat ≤ Repetition.limit ∧ max.toNat ≤ Repetition.limit))

/-- The word of an exclusion is one, and a count is limited. -/
def Clause.IsNormal : Clause → Prop
  | .optional => True
  | .exclude word => IsWord word
  | .times repetition => repetition.IsLimited

theorem Repetition.toNat_clamp (count : Nat) : (clamp count).toNat = min count limit := by
  have hlt : min count limit < UInt32.size :=
    Nat.lt_of_le_of_lt (Nat.min_le_right count limit) (by decide)
  exact UInt32.toNat_ofNat_of_lt' hlt

theorem Repetition.read_isLimited {t : Text} {repetition : Repetition}
    (h : (read t).1 = some repetition) : repetition.IsLimited := by
  have hclamp (count : Nat) : (clamp count).toNat ≤ limit := by
    rw [toNat_clamp]
    exact Nat.min_le_right _ _
  unfold read at h
  split at h
  · split at h
    · cases h
    · obtain ⟨bounds, -, rfl⟩ := Option.map_eq_some_iff.1 h
      exact ⟨hclamp _, hclamp _⟩
  · dsimp only at h
    split at h
    · cases h
    · cases h
      exact hclamp _

theorem Clause.isWord_of_takeWhile {t : Text}
    (h : Text.trim (t.takeWhile (!isMark ·)) ≠ []) :
    IsWord (Text.trim (t.takeWhile (!isMark ·))) := by
  refine ⟨h, Text.trim_trim _, ?_⟩
  intro c hc
  have hmem := Text.trim_subset _ hc
  have hmark := List.all_eq_true.1 List.all_takeWhile c hmem
  simpa using hmark

theorem Clause.readAll_isNormal {t : Text} {clause : Clause} (h : clause ∈ readAll t) :
    clause.IsNormal := by
  fun_induction readAll t with
  | case1 => cases h
  | case2 t ih =>
    rcases List.mem_cons.1 h with rfl | h
    · trivial
    · exact ih h
  | case3 t word rest hempty ih => exact ih h
  | case4 t word rest hempty ih =>
    rcases List.mem_cons.1 h with rfl | h
    · exact isWord_of_takeWhile (by simpa [word] using hempty)
    · exact ih h
  | case5 t rest hread ih => exact ih h
  | case6 t repetition rest hread ih =>
    rcases List.mem_cons.1 h with rfl | h
    · exact Repetition.read_isLimited (congrArg Prod.fst hread)
    · exact ih h
  | case7 t => cases h
  | case8 c t _ _ _ _ ih => exact ih h

/-! ## Paths -/

theorem Modifier.ofName?_eq_none {name : Text} (h : '.' ∈ name) : ofName? name = none := by
  cases hname : ofName? name with
  | none => rfl
  | some modifier =>
    have heq := List.find?_some hname
    rw [beq_iff_eq] at heq
    rw [← heq] at h
    cases modifier <;> exact absurd h (by decide)

namespace Reference

/-- The last dotted segment of a path is no modifier name, or it is all of the path. -/
def EndsBare (path : Text) : Prop :=
  ∀ before name, path = before ++ '.' :: name → Modifier.ofName? (Text.trim name) = none

theorem endsBare_trim {path : Text} (h : EndsBare path) : EndsBare (Text.trim path) := by
  intro before name hpath
  obtain ⟨start, blank, hsplit, -, hblank⟩ := Text.trim_between path
  have hlast : path = (start ++ before) ++ '.' :: (name ++ blank) := by
    rw [hsplit, hpath]
    simp
  rw [← Text.trim_append_blank name hblank]
  exact h _ _ hlast

theorem peel_path (segments : List Text) :
    (peel segments).1 <:+ segments ∧ (segments ≠ [] → (peel segments).1 ≠ []) ∧
      ∀ last segment rest, (peel segments).1 = last :: segment :: rest →
        Modifier.ofName? (Text.trim last) = none := by
  fun_induction peel segments with
  | case1 last segment rest modifier hname path modifiers hpeel ih =>
    rw [hpeel] at ih
    obtain ⟨hsuffix, hsome, hbare⟩ := ih
    exact ⟨hsuffix.trans (List.suffix_cons ..), fun _ => hsome (List.cons_ne_nil _ _), hbare⟩
  | case2 last segment rest hname =>
    refine ⟨List.suffix_rfl, fun _ => List.cons_ne_nil _ _, ?_⟩
    intro last' segment' rest' heq
    cases heq
    exact hname
  | case3 segments hshort =>
    exact ⟨List.suffix_rfl, id, fun last segment rest heq => (hshort last segment rest heq).elim⟩

theorem endsBare_intercalate {segments : List Text} (hdots : ∀ segment ∈ segments, '.' ∉ segment)
    (hne : segments ≠ [])
    (hbare : ∀ last segment rest, segments.reverse = last :: segment :: rest →
      Modifier.ofName? (Text.trim last) = none) :
    EndsBare (['.'].intercalate segments) := by
  intro before name hpath
  by_cases hdot : '.' ∈ name
  · exact Modifier.ofName?_eq_none (Text.mem_trim (by decide) hdot)
  · have hsplit := List.splitOn_intercalate '.' hdots hne
    rw [hpath, List.splitOn_append_cons_self, List.splitOn_eq_singleton hdot] at hsplit
    obtain ⟨segment, rest, hsegments⟩ :=
      List.exists_cons_of_ne_nil (mt List.reverse_eq_nil_iff.1 (List.splitOn_ne_nil '.' before))
    apply hbare name segment rest
    rw [← hsplit, List.reverse_append, hsegments]
    rfl

/-- What is read between square brackets. -/
structure IsNormal (ref : Reference) : Prop where
  path_ne_nil : ref.path ≠ []
  path_trimmed : Text.trim ref.path = ref.path
  endsBare : '[' ∉ ref.path → '{' ∉ ref.path → EndsBare ref.path
  modifiers_eq_nil : '[' ∈ ref.path ∨ '{' ∈ ref.path → ref.modifiers = []
  isWord : ∀ word ∈ ref.exclusions, Clause.IsWord word
  isLimited : ref.repetition.IsLimited

theorem mem_intercalate {c : Char} (hdot : c ≠ '.') (segments : List Text) :
    c ∈ ['.'].intercalate segments ↔ ∃ segment ∈ segments, c ∈ segment := by
  induction segments with
  | nil => simp
  | cons segment rest ih =>
    cases rest with
    | nil => simp
    | cons next rest =>
      rw [List.intercalate_cons_cons, List.mem_append, List.mem_append, ih, List.mem_singleton]
      simp [hdot]

theorem mem_of_mem_intercalate {t : Text} {segments : List Text}
    (hsegments : ∀ segment ∈ segments, segment ∈ t.splitOn '.') {c : Char} (hdot : c ≠ '.')
    (h : c ∈ ['.'].intercalate segments) : c ∈ t := by
  obtain ⟨segment, hsegment, hc⟩ := (mem_intercalate hdot segments).1 h
  have hjoin : ['.'].intercalate (t.splitOn '.') = t := List.intercalate_splitOn '.'
  rw [← hjoin]
  exact (mem_intercalate hdot _).2 ⟨segment, hsegments segment hsegment, hc⟩

theorem isNormal_of_path? {t path : Text} {modifiers : List Modifier}
    (h : path? t = some (path, modifiers)) : IsNormal { path, modifiers } := by
  have hlimited : Repetition.IsLimited (.fixed 1) := by decide
  unfold path? at h
  dsimp only at h
  split at h
  · next hbracket =>
    cases h
    simp only [Bool.or_eq_true, List.contains_iff_mem] at hbracket
    refine ⟨?_, Text.trim_trim t, ?_, fun _ => rfl, by simp, hlimited⟩
    · rcases hbracket with hsquare | hcurly
      · exact List.ne_nil_of_mem hsquare
      · exact List.ne_nil_of_mem hcurly
    · intro hsquare hcurly
      exact (hbracket.elim hsquare hcurly).elim
  · next hplain =>
    simp only [Bool.or_eq_true, List.contains_iff_mem, not_or] at hplain
    obtain ⟨hsuffix, hsome, hbare⟩ := peel_path ((Text.trim t).splitOn '.').reverse
    split at h
    · cases h
    · next hne =>
      cases h
      generalize (peel ((Text.trim t).splitOn '.').reverse).1 = segments at *
      have hsegments (segment : Text) (hmem : segment ∈ segments.reverse) :
          segment ∈ (Text.trim t).splitOn '.' :=
        List.mem_reverse.1 (hsuffix.subset (List.mem_reverse.1 hmem))
      have hmem {c : Char} (hdot : c ≠ '.')
          (hc : c ∈ Text.trim (['.'].intercalate segments.reverse)) : c ∈ Text.trim t :=
        mem_of_mem_intercalate hsegments hdot (Text.trim_subset _ hc)
      refine ⟨by simpa using hne, Text.trim_trim _, fun _ _ => ?_, ?_, by simp, hlimited⟩
      · apply endsBare_trim
        apply endsBare_intercalate
        · exact fun segment hsegment => Text.not_mem_of_mem_splitOn (hsegments segment hsegment)
        · simpa using hsome
        · simpa using hbare
      · rintro (hsquare | hcurly)
        · exact absurd (hmem (by decide) hsquare) hplain.1
        · exact absurd (hmem (by decide) hcurly) hplain.2

theorem isNormal_apply {ref : Reference} {clause : Clause} (h : ref.IsNormal)
    (hclause : clause.IsNormal) : (clause.apply ref).IsNormal := by
  cases clause with
  | optional => exact { h with }
  | exclude word =>
    refine { h with isWord := ?_ }
    intro word' hmem
    rcases List.mem_append.1 hmem with hmem | hmem
    · exact h.isWord word' hmem
    · rw [List.mem_singleton.1 hmem]
      exact hclause
  | times repetition => exact { h with isLimited := hclause }

theorem isNormal_foldl {clauses : List Clause} (hclauses : ∀ clause ∈ clauses, clause.IsNormal)
    {ref : Reference} (h : ref.IsNormal) : (clauses.foldl Clause.apply ref).IsNormal := by
  induction clauses generalizing ref with
  | nil => exact h
  | cons clause rest ih =>
    apply ih fun later hlater => hclauses later (List.mem_cons_of_mem _ hlater)
    exact isNormal_apply h (hclauses clause List.mem_cons_self)

theorem isNormal_of_parse? {t : Text} {ref : Reference} (h : parse? t = some ref) :
    ref.IsNormal := by
  unfold parse? at h
  obtain ⟨⟨path, modifiers⟩, hpath, rfl⟩ := Option.map_eq_some_iff.1 h
  exact isNormal_foldl (fun clause hclause => Clause.readAll_isNormal hclause)
    (isNormal_of_path? hpath)

end Reference

end RandomTables
