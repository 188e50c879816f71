import Mathlib.Data.List.TakeWhile
import Mathlib.Logic.ExistsUnique
import RandomTables.Proofs.Article

/-! # Runs of placeholders

A text falls in one way into prose and runs of placeholders, each with the white space behind it. Articles
take the places of the runs, and the prose stays as it is.
-/

namespace RandomTables.Article

open Text

/-! ## Runs -/

/-- One placeholder or more, each with white space behind it. -/
inductive IsRun : Text → Prop where
  | last {blank : Text} (hblank : ∀ c ∈ blank, isBlank c) : IsRun (placeholder ++ blank)
  | cons {blank run : Text} (hblank : ∀ c ∈ blank, isBlank c) (h : IsRun run) :
      IsRun (placeholder ++ (blank ++ run))

theorem IsRun.placeholder_prefix {run : Text} (h : IsRun run) : placeholder <+: run := by
  cases h with
  | last => exact List.prefix_append _ _
  | cons => exact List.prefix_append _ _

theorem IsRun.append {run run' : Text} (h : IsRun run) (h' : IsRun run') : IsRun (run ++ run') := by
  induction h with
  | last hblank =>
    rw [List.append_assoc]
    exact .cons hblank h'
  | cons hblank _ ih =>
    rw [List.append_assoc, List.append_assoc]
    exact .cons hblank ih

theorem IsRun.append_blank {run : Text} (h : IsRun run) {blank : Text}
    (hblank : ∀ c ∈ blank, isBlank c) : IsRun (run ++ blank) := by
  induction h with
  | last hfirst =>
    rw [List.append_assoc]
    exact .last (List.forall_mem_append.2 ⟨hfirst, hblank⟩)
  | cons hfirst _ ih =>
    rw [List.append_assoc, List.append_assoc]
    exact .cons hfirst ih

theorem IsRun.behind {t : Text} (h : IsRun (placeholder ++ t)) :
    ∃ blank rest, t = blank ++ rest ∧ (∀ c ∈ blank, isBlank c) ∧ (rest = [] ∨ IsRun rest) := by
  generalize hrun : placeholder ++ t = run at h
  cases h with
  | @last blank hblank =>
    obtain rfl := List.append_cancel_left hrun
    exact ⟨t, [], (List.append_nil t).symm, hblank, .inl rfl⟩
  | @cons blank rest hblank hrest =>
    obtain rfl := List.append_cancel_left hrun
    exact ⟨blank, rest, rfl, hblank, .inr hrest⟩

theorem placeholder_prefix_iff (t : Text) : placeholder <+: t ↔ dropStart? placeholder t ≠ none := by
  rw [← List.isPrefixOf_iff_prefix, ← isSome_dropStart?, Option.isSome_iff_ne_none]

theorem solid_of_placeholder_prefix {t : Text} (h : placeholder <+: t) :
    ∀ c ∈ t.head?, ¬ isBlank c := by
  obtain ⟨rest, rfl⟩ := h
  rintro c ⟨⟩
  decide

theorem append_inj_of_blank {blank blank' s s' : Text} (hblank : ∀ c ∈ blank, isBlank c)
    (hblank' : ∀ c ∈ blank', isBlank c) (hs : ∀ c ∈ s.head?, ¬ isBlank c)
    (hs' : ∀ c ∈ s'.head?, ¬ isBlank c) (h : blank ++ s = blank' ++ s') :
    blank = blank' ∧ s = s' := by
  obtain ⟨htake, hdrop⟩ := takeWhile_append_stop hblank hs
  obtain ⟨htake', hdrop'⟩ := takeWhile_append_stop hblank' hs'
  rw [h] at htake hdrop
  exact ⟨htake.symm.trans htake', hdrop.symm.trans hdrop'⟩

/-! ## Longest runs -/

/-- No longer run begins where this one does. -/
structure IsLongestRun (run behind : Text) : Prop where
  isRun : IsRun run
  longest {more : Text} : more <+: behind → IsRun (run ++ more) → more = []

/-- The text does not go on with white space or a placeholder. -/
structure Stops (behind : Text) : Prop where
  solid : ∀ c ∈ behind.head?, ¬ isBlank c
  prose : ¬ placeholder <+: behind

theorem stops_iff (behind : Text) :
    Stops behind ↔ ¬ behind.head?.any isBlank ∧ ¬ placeholder <+: behind := by
  rw [Option.any_eq_true, not_exists]
  exact ⟨fun h => ⟨fun c hc => h.solid c hc.1 hc.2, h.prose⟩,
    fun h => ⟨fun c hc hblank => h.1 c ⟨hc, hblank⟩, h.2⟩⟩

instance (behind : Text) : Decidable (Stops behind) := decidable_of_iff _ (stops_iff behind).symm

theorem Stops.of_prefix {more behind : Text} (h : Stops behind) (hmore : more <+: behind) :
    Stops more := by
  refine ⟨fun c hc => h.solid c ?_, fun hplaceholder => h.prose (hplaceholder.trans hmore)⟩
  obtain ⟨rest, rfl⟩ := hmore
  cases more with
  | nil => cases hc
  | cons d more => exact hc

theorem IsRun.eq_nil_of_stops {run more : Text} (h : IsRun run) (hmore : Stops more)
    (hlonger : IsRun (run ++ more)) : more = [] := by
  induction h with
  | last hblank =>
    rw [List.append_assoc] at hlonger
    obtain ⟨blank, rest, heq, hblank', hrest⟩ := hlonger.behind
    obtain rfl | hrest := hrest
    · exact (append_inj_of_blank hblank hblank' hmore.solid (fun c hc => by cases hc) heq).2
    · have hsolid := solid_of_placeholder_prefix hrest.placeholder_prefix
      obtain ⟨-, rfl⟩ := append_inj_of_blank hblank hblank' hmore.solid hsolid heq
      exact absurd hrest.placeholder_prefix hmore.prose
  | @cons _ run hblank hrun ih =>
    rw [List.append_assoc, List.append_assoc] at hlonger
    obtain ⟨blank, rest, heq, hblank', hrest⟩ := hlonger.behind
    have hstart : placeholder <+: run ++ more :=
      hrun.placeholder_prefix.trans (List.prefix_append _ _)
    have hsolid := solid_of_placeholder_prefix hstart
    obtain rfl | hrest := hrest
    · obtain ⟨-, hnil⟩ := append_inj_of_blank hblank hblank' hsolid (fun c hc => by cases hc) heq
      rw [hnil] at hstart
      exact absurd hstart (by decide)
    · have hsolid' := solid_of_placeholder_prefix hrest.placeholder_prefix
      obtain ⟨-, rfl⟩ := append_inj_of_blank hblank hblank' hsolid hsolid' heq
      exact ih hrest

theorem isLongestRun_iff {run behind : Text} (h : IsRun run) :
    IsLongestRun run behind ↔ Stops behind := by
  constructor
  · intro hlongest
    refine ⟨fun c hc hblank => ?_, fun hplaceholder => ?_⟩
    · have hprefix : [c] <+: behind := by
        obtain ⟨rest, rfl⟩ := List.head?_eq_some_iff.1 hc
        exact ⟨rest, rfl⟩
      have hrun : IsRun (run ++ [c]) := h.append_blank (by simpa using hblank)
      exact absurd (hlongest.longest hprefix hrun) (List.cons_ne_nil _ _)
    · have hrun : IsRun (run ++ placeholder) := h.append (@IsRun.last [] (by simp))
      exact absurd (hlongest.longest hplaceholder hrun) (by decide)
  · intro hstops
    exact ⟨h, fun hprefix hlonger => h.eq_nil_of_stops (hstops.of_prefix hprefix) hlonger⟩

/-! ## Cuts -/

/-- A text cut at its placeholders. -/
structure Cut where
  /-- The prose before the first run. -/
  first : Text
  /-- The runs, each with the prose behind it. -/
  parts : List (Text × Text)

def spelled (parts : List (Text × Text)) : Text := parts.flatMap fun part => part.1 ++ part.2

/-- Each run is the longest one at its place, and its prose holds no placeholder. -/
def AreCut : List (Text × Text) → Prop
  | [] => True
  | (run, prose) :: parts =>
    IsLongestRun run (prose ++ spelled parts) ∧ ¬ placeholder <:+: prose ∧ AreCut parts

namespace Cut

structure IsOf (cut : Cut) (t : Text) : Prop where
  text : cut.first ++ spelled cut.parts = t
  first : ¬ placeholder <:+: cut.first
  parts : AreCut cut.parts

/-- The article of a run with this prose behind it. -/
def article : Text → Text
  | [] => []
  | c :: _ =>
    if c ∈ "aeiouAEIOU".toList then "an ".toList
    else if isAlphanumeric c then "a ".toList
    else []

/-- The text with articles in place of the runs. -/
def resolved (cut : Cut) : Text :=
  cut.first ++ cut.parts.flatMap fun part => article part.2 ++ part.2

end Cut

/-- The prose before this text ends: nothing comes, or a placeholder. -/
def EndsProse (rest : Text) : Prop := rest = [] ∨ placeholder <+: rest

theorem endsProse_spelled {parts : List (Text × Text)} (h : AreCut parts) :
    EndsProse (spelled parts) := by
  cases parts with
  | nil => exact .inl rfl
  | cons part parts =>
    obtain ⟨run, prose⟩ := part
    refine .inr (h.1.isRun.placeholder_prefix.trans ?_)
    rw [spelled, List.flatMap_cons, List.append_assoc]
    exact List.prefix_append _ _

theorem placeholder_prefix_of_append {prose rest : Text} (hprose : prose ≠ [])
    (hrest : EndsProse rest) (h : placeholder <+: prose ++ rest) :
    placeholder <+: prose := by
  obtain rfl | ⟨later, rfl⟩ := hrest
  · rwa [List.append_nil] at h
  · obtain ⟨behind, heq⟩ := h
    match prose with
    | [] => exact absurd rfl hprose
    | [a] => cases heq
    | [a, b] => cases heq
    | a :: b :: c :: prose =>
      simp only [placeholder, List.cons_append, List.nil_append, List.cons.injEq] at heq
      obtain ⟨rfl, rfl, rfl, -⟩ := heq
      exact List.prefix_append placeholder prose

/-! ## One cut -/

theorem prose_append_ne {c : Char} {s rest rest' : Text} (hs : ¬ placeholder <:+: c :: s)
    (hrest : EndsProse rest) (hrest' : EndsProse rest') : c :: s ++ rest ≠ rest' := by
  rintro rfl
  obtain hnil | hstart := hrest'
  · cases hnil
  · have hprose := placeholder_prefix_of_append (List.cons_ne_nil c s) hrest hstart
    exact hs hprose.isInfix

theorem prose_unique {s t rest rest' : Text} (hs : ¬ placeholder <:+: s) (ht : ¬ placeholder <:+: t)
    (hrest : EndsProse rest) (hrest' : EndsProse rest') (h : s ++ rest = t ++ rest') :
    s = t ∧ rest = rest' := by
  induction s generalizing t with
  | nil =>
    cases t with
    | nil => exact ⟨rfl, h⟩
    | cons d t => exact absurd h.symm (prose_append_ne ht hrest' hrest)
  | cons c s ih =>
    cases t with
    | nil => exact absurd h (prose_append_ne hs hrest hrest')
    | cons d t =>
      obtain ⟨rfl, htail⟩ := List.cons.inj h
      obtain ⟨rfl, heq⟩ := ih (fun hmem => hs (hmem.trans (List.suffix_cons c s).isInfix))
        (fun hmem => ht (hmem.trans (List.suffix_cons c t).isInfix)) htail
      exact ⟨rfl, heq⟩

theorem IsLongestRun.eq {run run' behind behind' : Text} (h : IsLongestRun run behind)
    (h' : IsLongestRun run' behind') (heq : run ++ behind = run' ++ behind') :
    run = run' ∧ behind = behind' := by
  obtain ⟨more, rfl, rfl⟩ | ⟨more, rfl, rfl⟩ := List.append_eq_append_iff.1 heq
  · obtain rfl := h.longest (List.prefix_append _ _) h'.isRun
    exact ⟨(List.append_nil _).symm, rfl⟩
  · obtain rfl := h'.longest (List.prefix_append _ _) h.isRun
    exact ⟨List.append_nil _, rfl⟩

theorem spelled_cons_ne_nil {run : Text} (hrun : IsRun run) (prose : Text)
    (parts : List (Text × Text)) : spelled ((run, prose) :: parts) ≠ [] := by
  obtain ⟨rest, rfl⟩ := hrun.placeholder_prefix
  exact List.cons_ne_nil _ _

theorem parts_unique {parts parts' : List (Text × Text)} (h : AreCut parts) (h' : AreCut parts')
    (heq : spelled parts = spelled parts') : parts = parts' := by
  induction parts generalizing parts' with
  | nil =>
    cases parts' with
    | nil => rfl
    | cons part' parts' => exact absurd heq.symm (spelled_cons_ne_nil h'.1.isRun _ _)
  | cons part parts ih =>
    cases parts' with
    | nil => exact absurd heq (spelled_cons_ne_nil h.1.isRun _ _)
    | cons part' parts' =>
      obtain ⟨run, prose⟩ := part
      obtain ⟨run', prose'⟩ := part'
      obtain ⟨hrun, hprose, hparts⟩ := h
      obtain ⟨hrun', hprose', hparts'⟩ := h'
      rw [spelled, List.flatMap_cons, List.append_assoc, spelled, List.flatMap_cons,
        List.append_assoc] at heq
      obtain ⟨rfl, hbehind⟩ := hrun.eq hrun' heq
      obtain ⟨rfl, hrest⟩ :=
        prose_unique hprose hprose' (endsProse_spelled hparts) (endsProse_spelled hparts') hbehind
      rw [ih hparts hparts' hrest]

theorem Cut.IsOf.eq {cut cut' : Cut} {t : Text} (h : cut.IsOf t) (h' : cut'.IsOf t) : cut = cut' := by
  obtain ⟨hfirst, hparts⟩ := prose_unique h.first h'.first (endsProse_spelled h.parts)
    (endsProse_spelled h'.parts) (h.text.trans h'.text.symm)
  cases cut
  cases cut'
  congr
  exact parts_unique h.parts h'.parts hparts

/-! ## Articles -/

theorem isVowel_iff (c : Char) : isVowel c ↔ c ∈ "aeiouAEIOU".toList := by
  by_cases hascii : c.toNat < 0x80
  · refine forall_ascii (p := fun c => isVowel c ↔ c ∈ "aeiouAEIOU".toList) ?_ hascii
    decide +kernel
  · have hbig : ∀ v ∈ "aeiouAEIOU".toList, v.toNat < 0x80 := forall_of_all (by decide)
    have hlower : c.toLower = c := dif_neg fun hupper => hascii (Nat.lt_of_le_of_lt hupper.2 (by decide))
    rw [isVowel, hlower, List.contains_iff_mem]
    refine ⟨fun hmem => absurd (hbig c ?_) hascii, fun hmem => absurd (hbig c hmem) hascii⟩
    exact List.mem_append_left ['A', 'E', 'I', 'O', 'U'] hmem

theorem before_eq (t : Text) : before t = Cut.article t := by
  cases t with
  | nil => rfl
  | cons c t =>
    have hvowels : ∀ v ∈ "aeiouAEIOU".toList, isAlphanumeric v :=
      forall_of_all (by decide)
    rw [before, Cut.article]
    by_cases hc : c ∈ "aeiouAEIOU".toList
    · rw [if_pos (hvowels c hc), if_pos ((isVowel_iff c).2 hc), if_pos hc]
    · rw [if_neg hc, if_neg fun hvowel => hc ((isVowel_iff c).1 hvowel)]

/-! ## A placeholder more -/

theorem trimStart_spec (t : Text) : ∃ blank : Text, t = blank ++ trimStart t ∧
    (∀ c ∈ blank, isBlank c) ∧ ∀ c ∈ (trimStart t).head?, ¬ isBlank c := by
  refine ⟨t.takeWhile isBlank, List.takeWhile_append_dropWhile.symm, fun c hc => ?_, fun c hc => ?_⟩
  · exact List.mem_takeWhile_imp hc
  · have hhead := List.head?_dropWhile_not isBlank t
    rw [trimStart] at hc
    rw [hc] at hhead
    simpa using hhead

namespace Cut

theorem article_of_placeholder_prefix {t : Text} (h : placeholder <+: t) : article t = [] := by
  obtain ⟨rest, rfl⟩ := h
  have hvowel : '{' ∉ "aeiouAEIOU".toList := by decide
  have hword : ¬ isAlphanumeric '{' := by decide
  rw [placeholder, List.cons_append, article, if_neg hvowel, if_neg hword]

variable {cut : Cut} {blank t : Text}

theorem IsOf.join (h : cut.IsOf t) (hblank : ∀ c ∈ blank, isBlank c) (hstart : placeholder <+: t) :
    ∃ cut' : Cut, cut'.IsOf (placeholder ++ (blank ++ t)) ∧ cut'.resolved = cut.resolved := by
  obtain ⟨first, parts⟩ := cut
  obtain ⟨htext, hfirst, hparts⟩ := h
  obtain rfl : first = [] := by
    refine Decidable.byContradiction fun hne => hfirst ?_
    rw [← htext] at hstart
    exact (placeholder_prefix_of_append hne (endsProse_spelled hparts) hstart).isInfix
  cases parts with
  | nil =>
    rw [← htext] at hstart
    exact absurd hstart (by decide)
  | cons part parts =>
    obtain ⟨run, prose⟩ := part
    obtain ⟨hrun, hprose, hrest⟩ := hparts
    have hlonger : IsRun (placeholder ++ (blank ++ run)) := .cons hblank hrun.isRun
    have hstops := (isLongestRun_iff hrun.isRun).1 hrun
    refine ⟨⟨[], (placeholder ++ (blank ++ run), prose) :: parts⟩, ⟨?_, hfirst, ?_⟩, rfl⟩
    · rw [← htext]
      simp only [spelled, List.flatMap_cons, List.nil_append, List.append_assoc]
    · exact ⟨(isLongestRun_iff hlonger).2 hstops, hprose, hrest⟩

theorem IsOf.begin (h : cut.IsOf t) (hblank : ∀ c ∈ blank, isBlank c) (hstops : Stops t) :
    ∃ cut' : Cut, cut'.IsOf (placeholder ++ (blank ++ t)) ∧
      cut'.resolved = article t ++ cut.resolved := by
  obtain ⟨first, parts⟩ := cut
  obtain ⟨htext, hfirst, hparts⟩ := h
  have harticle : article first = article t := by
    rw [← htext]
    cases first with
    | cons c first => rfl
    | nil =>
      obtain hnil | hstart := endsProse_spelled hparts
      · rw [hnil, List.append_nil]
      · rw [← htext] at hstops
        exact absurd hstart hstops.prose
  have hnil : ¬ placeholder <:+: [] := by decide
  refine ⟨⟨[], (placeholder ++ blank, first) :: parts⟩, ⟨?_, hnil, ?_, hfirst, hparts⟩, ?_⟩
  · rw [← htext]
    simp only [spelled, List.flatMap_cons, List.nil_append, List.append_assoc]
  · rw [isLongestRun_iff (.last hblank), htext]
    exact hstops
  · rw [← harticle]
    simp only [resolved, List.flatMap_cons, List.nil_append, List.append_assoc]

theorem IsOf.cons {c : Char} (h : cut.IsOf t) (hstart : ¬ placeholder <+: c :: t) :
    (Cut.mk (c :: cut.first) cut.parts).IsOf (c :: t) := by
  refine ⟨congrArg (c :: ·) h.text, fun hmem => ?_, h.parts⟩
  obtain hhead | hlater := List.infix_cons_iff.1 hmem
  · rw [← h.text] at hstart
    exact hstart (hhead.trans (List.prefix_append (c :: cut.first) _))
  · exact h.first hlater

end Cut

/-! ## Resolution -/

theorem exists_cut (t : Text) : ∃ cut : Cut, cut.IsOf t ∧ resolve t = cut.resolved := by
  induction t using resolve.induct with
  | case1 => exact ⟨⟨[], []⟩, ⟨rfl, by decide, trivial⟩, resolve_nil⟩
  | case2 c t rest hstart ih =>
    obtain ⟨cut, hcut, hresolve⟩ := ih
    obtain ⟨blank, hrest, hblank, hsolid⟩ := trimStart_spec rest
    rw [resolve_of_start hstart, before_eq, hresolve, dropStart?_eq hstart]
    generalize trimStart rest = behind at *
    subst hrest
    -- Behind the placeholder and its white space stands another one, or prose.
    by_cases hrun : placeholder <+: behind
    · obtain ⟨cut', hcut', hresolved⟩ := hcut.join hblank hrun
      refine ⟨cut', hcut', ?_⟩
      rw [Cut.article_of_placeholder_prefix hrun, hresolved, List.nil_append]
    · obtain ⟨cut', hcut', hresolved⟩ := hcut.begin hblank ⟨hsolid, hrun⟩
      exact ⟨cut', hcut', hresolved.symm⟩
  | case3 c t hstart ih =>
    obtain ⟨cut, hcut, hresolve⟩ := ih
    refine ⟨_, hcut.cons fun hprefix => (placeholder_prefix_iff _).1 hprefix hstart, ?_⟩
    rw [resolve_cons hstart, hresolve]
    rfl

/-- A text has one cut, and resolving it puts articles in place of its runs. -/
theorem resolve_cut (t : Text) :
    (∃! cut : Cut, cut.IsOf t) ∧ ∀ cut : Cut, cut.IsOf t → resolve t = cut.resolved := by
  obtain ⟨cut, hcut, hresolve⟩ := exists_cut t
  refine ⟨⟨cut, hcut, fun cut' hcut' => hcut'.eq hcut⟩, fun cut' hcut' => ?_⟩
  rw [hresolve, hcut.eq hcut']

theorem resolve_cut_owls :
    (Cut.mk "See ".toList [("{a} {a}".toList, "owl, ".toList), ("{a}".toList, "bat, ".toList),
      ("{a} ".toList, "!".toList), ("{a}".toList, [])]).IsOf
      "See {a} {a}owl, {a}bat, {a} !{a}".toList ∧
    resolve "See {a} {a}owl, {a}bat, {a} !{a}".toList = "See an owl, a bat, !".toList := by
  have hone : IsRun "{a}".toList := @IsRun.last [] (List.forall_mem_nil _)
  have hspaced : IsRun "{a} ".toList := @IsRun.last [' '] (forall_of_all (by decide))
  have htwo : IsRun "{a} {a}".toList := @IsRun.cons [' '] _ (forall_of_all (by decide)) hone
  have hparts : AreCut [("{a} {a}".toList, "owl, ".toList), ("{a}".toList, "bat, ".toList),
      ("{a} ".toList, "!".toList), ("{a}".toList, [])] :=
    ⟨(isLongestRun_iff htwo).2 (by decide), by decide,
      (isLongestRun_iff hone).2 (by decide), by decide,
      (isLongestRun_iff hspaced).2 (by decide), by decide,
      (isLongestRun_iff hone).2 (by decide), by decide, trivial⟩
  have hcut : Cut.IsOf ⟨"See ".toList, _⟩ "See {a} {a}owl, {a}bat, {a} !{a}".toList :=
    ⟨by decide, by decide, hparts⟩
  refine ⟨hcut, ?_⟩
  rw [(resolve_cut _).2 _ hcut]
  decide

end RandomTables.Article
