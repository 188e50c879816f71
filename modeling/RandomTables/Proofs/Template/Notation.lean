import RandomTables.Proofs.Template.Nested
import RandomTables.Proofs.Template.Reference
import Mathlib.Data.List.Induction

/-! # Written references

How a reference is written: the path, the modifiers and then the clauses in any order, the last of
them inside the brackets or behind. Reading gives the reference back.
-/

namespace RandomTables

open RandomTables.Bracket

/-! ## Digits -/

theorem isPlain_of_isDigit {c : Char} (h : c.isDigit) : isPlain c :=
  isPlain_of_brackets (fun kind => by cases kind <;> decide) h

theorem not_isOperator_of_isDigit {c : Char} (h : c.isDigit) : ¬ isOperator c := by
  intro hoperator
  simp only [isOperator, Bool.or_eq_true, beq_iff_eq] at hoperator
  rcases hoperator with rfl | rfl <;> exact absurd h (by decide)

theorem Clause.not_isDigit_of_isMark {c : Char} (h : isMark c) : ¬ c.isDigit := by
  simp only [isMark, Bool.or_eq_true, beq_iff_eq] at h
  rcases h with ((rfl | rfl) | rfl) | rfl <;> decide

theorem numberRange?_digits {low high : Text} (hdigits : ∀ c ∈ low ++ high, c.isDigit)
    (hlow : low ≠ []) (hhigh : high ≠ []) :
    numberRange? (low ++ '-' :: high) =
      if Text.digitsValue low < UInt64.size ∧ Text.digitsValue high < UInt64.size then
        some (UInt64.ofNat (Text.digitsValue low), UInt64.ofNat (Text.digitsValue high))
      else none := by
  have hlowDigits : ∀ c ∈ low, c.isDigit := fun c hc => hdigits c (List.mem_append_left high hc)
  have hhighDigits : ∀ c ∈ high, c.isDigit := fun c hc => hdigits c (List.mem_append_right low hc)
  have hdash : ∀ c ∈ low, ¬ (c == '-') := by
    intro c hc hdash
    have hdigit := hlowDigits c hc
    rw [beq_iff_eq.1 hdash] at hdigit
    exact absurd hdigit (by decide)
  unfold numberRange?
  rw [Text.cutAt?_append hdash (by decide)]
  simp [hlow, hhigh, List.all_eq_true.2 hlowDigits, List.all_eq_true.2 hhighDigits]

theorem isPlain_of_mem_range {low high : Text} (hdigits : ∀ c ∈ low ++ high, c.isDigit) {c : Char}
    (h : c ∈ low ++ '-' :: high) : isPlain c ∧ ¬ isOperator c := by
  rcases List.mem_append.1 h with hlow | hrest
  · have hdigit := hdigits c (List.mem_append_left high hlow)
    exact ⟨isPlain_of_isDigit hdigit, not_isOperator_of_isDigit hdigit⟩
  · rcases List.mem_cons.1 hrest with rfl | hhigh
    · decide
    · have hdigit := hdigits c (List.mem_append_right low hhigh)
      exact ⟨isPlain_of_isDigit hdigit, not_isOperator_of_isDigit hdigit⟩

/-- A range of numbers as it is written. -/
def rangeText (low high : Nat) : Text := Text.ofNat low ++ '-' :: Text.ofNat high

theorem isDigit_of_mem_bounds {low high : Nat} : ∀ c ∈ Text.ofNat low ++ Text.ofNat high,
    c.isDigit := by
  intro c hc
  exact (List.mem_append.1 hc).elim Text.isDigit_of_mem_ofNat Text.isDigit_of_mem_ofNat

theorem numberRange?_rangeText {low high : Nat} (hlow : low < UInt64.size)
    (hhigh : high < UInt64.size) :
    numberRange? (rangeText low high) = some (UInt64.ofNat low, UInt64.ofNat high) := by
  rw [rangeText, numberRange?_digits isDigit_of_mem_bounds (Text.ofNat_ne_nil low)
    (Text.ofNat_ne_nil high), Text.digitsValue_ofNat, Text.digitsValue_ofNat, if_pos ⟨hlow, hhigh⟩]

theorem isPlain_of_mem_rangeText {low high : Nat} {c : Char} (h : c ∈ rangeText low high) :
    isPlain c ∧ ¬ isOperator c :=
  isPlain_of_mem_range isDigit_of_mem_bounds h

/-! ## Counts -/

namespace Repetition

def written : Repetition → Text
  | .fixed count => Text.ofNat count.toNat
  | .range min max => '{' :: rangeText min.toNat max.toNat ++ ['}']

theorem clamp_toNat {count : UInt32} (h : count.toNat ≤ limit) : clamp count.toNat = count := by
  apply UInt32.toNat_inj.1
  rw [toNat_clamp, Nat.min_eq_left h]

theorem read_written {repetition : Repetition} (h : repetition.IsLimited) {rest : Text}
    (hrest : ∀ c ∈ rest.head?, ¬ c.isDigit) :
    read (repetition.written ++ rest) = (some repetition, rest) := by
  cases repetition with
  | fixed count =>
    have hdigits : ∀ c ∈ Text.ofNat count.toNat, c.isDigit := fun c hc => Text.isDigit_of_mem_ofNat hc
    obtain ⟨htake, hdrop⟩ := Text.takeWhile_append_stop hdigits hrest
    unfold read
    split
    · next t hbrace =>
      obtain ⟨d, digits, hcount⟩ := List.exists_cons_of_ne_nil (Text.ofNat_ne_nil count.toNat)
      rw [written, hcount] at hbrace
      injection hbrace with hd
      have hdigit := hdigits d (hcount ▸ List.mem_cons_self)
      rw [hd] at hdigit
      exact absurd hdigit (by decide)
    · dsimp only
      rw [written, htake, hdrop, if_neg (by simp [Text.ofNat_ne_nil]), Text.digitsValue_ofNat,
        clamp_toNat h]
  | range min max =>
    obtain ⟨hmin, hmax⟩ := h
    have hsize (count : UInt32) : count.toNat < UInt64.size :=
      Nat.lt_of_lt_of_le count.toNat_lt (by decide)
    have hbody : ∀ c ∈ rangeText min.toNat max.toNat, ¬ (c == '}') := by
      intro c hc hbrace
      exact ne_closing_of_plain (isPlain_of_mem_rangeText hc).1 .curly (beq_iff_eq.1 hbrace)
    have hcut := Text.cutAt?_append hbody (by decide : ('}' == '}') = true) rest
    have htext : (Repetition.range min max).written ++ rest =
        '{' :: (rangeText min.toNat max.toNat ++ '}' :: rest) := by
      simp [written]
    have hnat (count : UInt32) : (UInt64.ofNat count.toNat).toNat = count.toNat :=
      UInt64.toNat_ofNat_of_lt' (hsize count)
    rw [htext, read, hcut]
    dsimp only
    rw [numberRange?_rangeText (hsize min) (hsize max), Option.map_some]
    simp only [hnat, clamp_toNat hmin, clamp_toNat hmax]

end Repetition

/-! ## Clauses -/

namespace Clause

def word? : Clause → Option Text
  | .exclude word => some word
  | _ => none

def count? : Clause → Option Repetition
  | .times repetition => some repetition
  | _ => none

def written : Clause → Text
  | .optional => ['?']
  | .exclude word => '!' :: word
  | .times repetition => '*' :: repetition.written

/-- The word of an exclusion is one outside brackets too, where operators end it. -/
def IsWritable : Clause → Prop
  | .optional => True
  | .exclude word => IsWord word ∧ ∀ c ∈ word, isPlain c ∧ ¬ isOperator c
  | .times repetition => repetition.IsLimited

theorem exists_written_eq (clause : Clause) : ∃ mark t, clause.written = mark :: t ∧ isMark mark := by
  cases clause with
  | optional => exact ⟨'?', [], rfl, rfl⟩
  | exclude word => exact ⟨'!', word, rfl, rfl⟩
  | times repetition => exact ⟨'*', repetition.written, rfl, rfl⟩

theorem isMark_of_head? {clauses : List Clause} {c : Char}
    (h : c ∈ (clauses.flatMap written).head?) : isMark c := by
  cases clauses with
  | nil => cases h
  | cons clause rest =>
    obtain ⟨mark, t, heq, hmark⟩ := clause.exists_written_eq
    rw [List.flatMap_cons, heq] at h
    cases h
    exact hmark

theorem readAll_written_append {clause : Clause} (h : clause.IsWritable) {rest : Text}
    (hrest : ∀ c ∈ rest.head?, isMark c) :
    readAll (clause.written ++ rest) = clause :: readAll rest := by
  cases clause with
  | optional => exact readAll.eq_2 rest
  | exclude word =>
    have hword : ∀ c ∈ word, !isMark c := fun c hc => by simpa using h.1.not_isMark c hc
    obtain ⟨htake, hdrop⟩ := Text.takeWhile_append_stop hword (by simpa using hrest)
    have hne : word.isEmpty = false := by simpa using h.1.ne_nil
    rw [written, List.cons_append, readAll, htake, hdrop, h.1.trimmed, hne]
    rfl
  | times repetition =>
    have hread := Repetition.read_written h fun c hc => not_isDigit_of_isMark (hrest c hc)
    rw [written, List.cons_append, readAll, hread]

theorem readAll_written {clauses : List Clause} (h : ∀ clause ∈ clauses, clause.IsWritable) :
    readAll (clauses.flatMap written) = clauses := by
  induction clauses with
  | nil => exact readAll.eq_1
  | cons clause rest ih =>
    obtain ⟨hclause, hrest⟩ := List.forall_mem_cons.1 h
    rw [List.flatMap_cons, readAll_written_append hclause fun c hc => isMark_of_head? hc, ih hrest]

/-! ### Clauses behind the brackets -/

theorem bracesAreCounts_plain {t : Text} (ht : ∀ c ∈ t, isPlain c) (behindStar : Bool) {rest : Text}
    (hrest : ∀ behindStar, bracesAreCounts behindStar false rest) :
    bracesAreCounts behindStar false (t ++ rest) := by
  induction t generalizing behindStar with
  | nil => exact hrest behindStar
  | cons c t ih =>
    obtain ⟨hc, ht⟩ := List.forall_mem_cons.1 ht
    have hsquare := ne_opening_of_plain hc .square
    have hsquare' := ne_closing_of_plain hc .square
    have hcurly := ne_opening_of_plain hc .curly
    have hcurly' := ne_closing_of_plain hc .curly
    simp only [Kind.opening, Kind.closing] at hsquare hsquare' hcurly hcurly'
    simp only [List.cons_append, bracesAreCounts, hsquare, hsquare', hcurly, hcurly', beq_iff_eq,
      Bool.or_eq_true, or_self, if_false]
    exact ih ht _

theorem bracesAreCounts_inCount {t : Text} (ht : ∀ c ∈ t, isPlain c) (rest : Text) :
    bracesAreCounts false true (t ++ '}' :: rest) = bracesAreCounts false false rest := by
  induction t with
  | nil => rfl
  | cons c t ih =>
    obtain ⟨hc, ht⟩ := List.forall_mem_cons.1 ht
    have hcurly : (c != '}') = true := bne_iff_ne.2 (ne_closing_of_plain hc .curly)
    rw [List.cons_append, bracesAreCounts, hcurly, ih ht]

theorem bracesAreCounts_written {clause : Clause} (h : clause.IsWritable) {rest : Text}
    (hrest : ∀ behindStar, bracesAreCounts behindStar false rest) (behindStar : Bool) :
    bracesAreCounts behindStar false (clause.written ++ rest) := by
  have hplain {mark : Char} {t : Text} (hmark : isPlain mark) (ht : ∀ c ∈ t, isPlain c) :
      bracesAreCounts behindStar false (mark :: t ++ rest) :=
    bracesAreCounts_plain (List.forall_mem_cons.2 ⟨hmark, ht⟩) behindStar hrest
  cases clause with
  | optional => exact hplain (by decide) (by simp)
  | exclude word => exact hplain (by decide) fun c hc => (h.2 c hc).1
  | times repetition =>
    cases repetition with
    | fixed count => exact hplain (by decide) fun c hc => isPlain_of_isDigit (Text.isDigit_of_mem_ofNat hc)
    | range min max =>
      have htext : (times (.range min max)).written ++ rest =
          '*' :: '{' :: (rangeText min.toNat max.toNat ++ '}' :: rest) := by
        simp [written, Repetition.written]
      have hcount := bracesAreCounts_inCount
        (fun c hc => (isPlain_of_mem_rangeText hc).1 :
          ∀ c ∈ rangeText min.toNat max.toNat, isPlain c) rest
      rw [htext, bracesAreCounts, bracesAreCounts]
      exact hcount.trans (hrest false)

theorem isSuffix_written {clauses : List Clause} (hne : clauses ≠ [])
    (h : ∀ clause ∈ clauses, clause.IsWritable) : isSuffix (clauses.flatMap written) := by
  have hcounts (behindStar : Bool) :
      bracesAreCounts behindStar false (clauses.flatMap written) := by
    clear hne
    induction clauses generalizing behindStar with
    | nil => rfl
    | cons clause rest ih =>
      obtain ⟨hclause, hrest⟩ := List.forall_mem_cons.1 h
      exact bracesAreCounts_written hclause (ih hrest) behindStar
  obtain ⟨clause, rest, rfl⟩ := List.exists_cons_of_ne_nil hne
  obtain ⟨mark, t, heq, hmark⟩ := clause.exists_written_eq
  have hsuffix := hcounts false
  rw [List.flatMap_cons, heq, List.cons_append] at hsuffix ⊢
  simp only [isSuffix, hmark, hsuffix, Bool.and_self]

/-! ### Clauses as texts -/

theorem isNested_written {clause : Clause} (h : clause.IsWritable) :
    IsNested (¬ isOperator ·) clause.written := by
  have hdigit {n : Nat} {c : Char} (hc : c ∈ Text.ofNat n) : isPlain c ∧ ¬ isOperator c := by
    have hdigit := Text.isDigit_of_mem_ofNat hc
    exact ⟨isPlain_of_isDigit hdigit, not_isOperator_of_isDigit hdigit⟩
  have hmark {mark : Char} {t : Text} (hmark : isPlain mark ∧ ¬ isOperator mark)
      (ht : ∀ c ∈ t, isPlain c ∧ ¬ isOperator c) : IsNested (¬ isOperator ·) (mark :: t) :=
    IsNested.plain (List.forall_mem_cons.2 ⟨hmark, ht⟩)
  cases clause with
  | optional => exact hmark (by decide) (by simp)
  | exclude word => exact hmark (by decide) h.2
  | times repetition =>
    cases repetition with
    | fixed count => exact hmark (by decide) fun c hc => hdigit hc
    | range min max =>
      have hrange : IsNested (fun _ => True) (rangeText min.toNat max.toNat) :=
        IsNested.plain fun c hc => ⟨(isPlain_of_mem_rangeText hc).1, trivial⟩
      exact IsNested.append (hmark (t := []) (by decide) (by simp)) (hrange.enclosed .curly)

theorem endsSolid_written {clause : Clause} (h : clause.IsWritable) :
    Text.EndsSolid clause.written := by
  cases clause with
  | optional => exact ⟨[], '?', rfl, by decide⟩
  | exclude word => exact (Text.endsSolid_of_trimmed h.1.trimmed h.1.ne_nil).append ['!']
  | times repetition =>
    cases repetition with
    | fixed count =>
      have hdigits : Text.EndsSolid (Text.ofNat count.toNat) := by
        refine Text.endsSolid_of_forall (Text.ofNat_ne_nil _) fun c hc => ?_
        exact Text.not_isBlank_of_isDigit (Text.isDigit_of_mem_ofNat hc)
      exact hdigits.append ['*']
    | range min max =>
      exact ⟨'*' :: '{' :: rangeText min.toNat max.toNat, '}', rfl,
        by decide⟩

end Clause

/-! ## References -/

namespace Reference

/-- The path with the names of the modifiers behind it. -/
def name (ref : Reference) : Text := ref.path ++ ref.modifiers.flatMap fun m => '.' :: m.name

/-- The clauses name the exclusions in their order, the count unless it is a single draw, and
whether the reference is optional. In which order is left open. -/
structure IsSpelledBy (ref : Reference) (clauses : List Clause) : Prop where
  exclusions : clauses.filterMap Clause.word? = ref.exclusions
  repetition : clauses.filterMap Clause.count? = [ref.repetition] ∨
    clauses.filterMap Clause.count? = [] ∧ ref.repetition = .fixed 1
  isOptional : .optional ∈ clauses ↔ ref.isOptional

/-- A reference in normal form without brackets or clause marks in its path, and without brackets or
operators in its exclusions. -/
structure IsWritable (ref : Reference) : Prop extends IsNormal ref where
  path_plain : ∀ c ∈ ref.path, isPlain c ∧ ¬ Clause.isMark c
  exclusions_plain : ∀ word ∈ ref.exclusions, ∀ c ∈ word, isPlain c ∧ ¬ isOperator c

/-! ### The path and the modifiers -/

theorem plain_of_mem_name (modifier : Modifier) {c : Char} (h : c ∈ '.' :: modifier.name) :
    isPlain c ∧ ¬ Clause.isMark c := by
  have hname : ∀ c ∈ '.' :: modifier.name, isPlain c ∧ ¬ Clause.isMark c := by
    apply Text.forall_of_all
    cases modifier <;> decide
  exact hname c h

theorem dot_not_mem_name (modifier : Modifier) : '.' ∉ modifier.name := by
  cases modifier <;> decide

theorem ofName?_trim_name (modifier : Modifier) :
    Modifier.ofName? (Text.trim modifier.name) = some modifier := by
  cases modifier <;> decide

theorem splitOn_append_names (modifiers : List Modifier) (path : Text) :
    (path ++ modifiers.flatMap fun m => '.' :: m.name).splitOn '.' =
      path.splitOn '.' ++ modifiers.map Modifier.name := by
  induction modifiers generalizing path with
  | nil => simp
  | cons modifier rest ih =>
    have hname := List.splitOn_eq_singleton (dot_not_mem_name modifier)
    rw [List.flatMap_cons, List.cons_append, List.splitOn_append_cons_self, ih, hname,
      List.map_cons]
    rfl

theorem peel_names (modifiers : List Modifier) {segments : List Text} (hne : segments ≠ [])
    (h : peel segments = (segments, [])) :
    peel ((modifiers.map Modifier.name).reverse ++ segments) = (segments, modifiers) := by
  induction modifiers using List.reverseRecOn with
  | nil => exact h
  | append_singleton modifiers modifier ih =>
    obtain ⟨segment, rest, hrest⟩ := List.exists_cons_of_ne_nil
      (List.append_ne_nil_of_right_ne_nil (modifiers.map Modifier.name).reverse hne)
    rw [hrest] at ih
    rw [List.map_append, List.reverse_append, List.append_assoc, hrest]
    simp only [List.map_cons, List.map_nil, List.reverse_singleton, List.singleton_append]
    rw [peel, ofName?_trim_name, ih]

theorem peel_splitOn {path : Text} (h : EndsBare path) :
    peel (path.splitOn '.').reverse = ((path.splitOn '.').reverse, []) := by
  match hsegments : (path.splitOn '.').reverse with
  | [] => rfl
  | [segment] => rfl
  | last :: segment :: rest =>
    have hsplit : path.splitOn '.' = (segment :: rest).reverse ++ [last] := by
      rw [← List.reverse_reverse (path.splitOn '.'), hsegments, List.reverse_cons]
    have hjoin : ['.'].intercalate (path.splitOn '.') = path := List.intercalate_splitOn '.'
    rw [hsplit, Text.intercalate_append (by simp) (List.cons_ne_nil _ _),
      List.intercalate_singleton] at hjoin
    rw [peel, h _ _ hjoin.symm]

theorem isPlain_of_mem_name {ref : Reference} (h : ref.IsWritable) {c : Char} (hc : c ∈ ref.name) :
    isPlain c ∧ ¬ Clause.isMark c := by
  rcases List.mem_append.1 hc with hpath | hmodifier
  · exact h.path_plain c hpath
  · obtain ⟨modifier, -, hname⟩ := List.mem_flatMap.1 hmodifier
    exact plain_of_mem_name modifier hname

theorem trim_name_append {ref : Reference} (h : ref.IsWritable) {clauses : List Clause}
    (hclauses : ∀ clause ∈ clauses, clause.IsWritable) :
    Text.trim (ref.name ++ clauses.flatMap Clause.written) =
      ref.name ++ clauses.flatMap Clause.written := by
  have hpath := h.path_trimmed
  have hname : Text.EndsSolid ref.name := by
    apply (Text.endsSolid_of_trimmed hpath h.path_ne_nil).append_flatMap
    rintro modifier -
    apply Text.endsSolid_of_forall (List.cons_ne_nil _ _)
    apply Text.forall_of_all
    cases modifier <;> decide
  have hend := hname.append_flatMap fun clause hclause =>
    Clause.endsSolid_written (hclauses clause hclause)
  obtain ⟨c, path, heq⟩ := List.exists_cons_of_ne_nil h.path_ne_nil
  rw [heq] at hpath
  rw [name, heq, List.cons_append, List.cons_append] at hend ⊢
  exact Text.trim_eq_self (Text.solid_of_trim_cons hpath) hend

theorem path?_name {ref : Reference} (h : ref.IsWritable) :
    path? ref.name = some (ref.path, ref.modifiers) := by
  have htrim : Text.trim ref.name = ref.name := by
    have := trim_name_append h (List.forall_mem_nil Clause.IsWritable)
    rwa [List.flatMap_nil, List.append_nil] at this
  have hplain : (ref.name.contains '[' || ref.name.contains '{') = false := by
    rw [Bool.eq_false_iff]
    intro hbracket
    rw [Bool.or_eq_true, List.contains_iff_mem, List.contains_iff_mem] at hbracket
    rcases hbracket with hsquare | hcurly
    · exact absurd (isPlain_of_mem_name h hsquare).1 (by decide)
    · exact absurd (isPlain_of_mem_name h hcurly).1 (by decide)
  have hbare : EndsBare ref.path := by
    apply h.endsBare
    · exact fun hsquare => absurd (h.path_plain _ hsquare).1 (by decide)
    · exact fun hcurly => absurd (h.path_plain _ hcurly).1 (by decide)
  have hpeel := peel_names ref.modifiers
    (mt List.reverse_eq_nil_iff.1 (List.splitOn_ne_nil '.' ref.path)) (peel_splitOn hbare)
  rw [← List.reverse_append, ← splitOn_append_names] at hpeel
  have hjoin : ['.'].intercalate (ref.path.splitOn '.') = ref.path := List.intercalate_splitOn '.'
  unfold path?
  dsimp only
  rw [htrim, hplain, name, hpeel]
  dsimp only
  rw [List.reverse_reverse, hjoin, h.path_trimmed, if_neg (by simp), if_neg (by simp [h.path_ne_nil])]

/-! ### The clauses -/

theorem cutOutside_append {p : Char → Bool} {t rest : Text} (ht : ∀ c ∈ t, isPlain c ∧ ¬ p c)
    (hrest : ∀ c ∈ rest.head?, isPlain c ∧ p c) : cutOutside p 0 (t ++ rest) = (t, rest) := by
  induction t with
  | nil =>
    cases rest with
    | nil => rfl
    | cons c rest =>
      obtain ⟨hplain, hc⟩ := hrest c rfl
      simp [cutOutside, isOpening_of_plain hplain, isClosing_of_plain hplain, hc]
  | cons c t ih =>
    obtain ⟨⟨hplain, hc⟩, ht⟩ := List.forall_mem_cons.1 ht
    rw [List.cons_append, cutOutside, step_plain hplain, ih ht]
    simp [hc]

theorem foldl_apply (clauses : List Clause) (ref : Reference) :
    clauses.foldl Clause.apply ref =
      { ref with
        exclusions := ref.exclusions ++ clauses.filterMap Clause.word?
        repetition := (clauses.filterMap Clause.count?).getLastD ref.repetition
        isOptional := ref.isOptional || clauses.any (· matches .optional) } := by
  induction clauses generalizing ref with
  | nil => simp
  | cons clause rest ih =>
    rw [List.foldl_cons, ih]
    cases clause <;>
      simp only [Clause.apply, Clause.word?, Clause.count?, List.filterMap_cons, List.any_cons,
        List.getLastD_cons, List.append_assoc, List.singleton_append, Bool.true_or, Bool.or_true,
        Bool.false_or]

theorem foldl_apply_of_isSpelledBy {ref : Reference} {clauses : List Clause}
    (h : ref.IsSpelledBy clauses) :
    clauses.foldl Clause.apply { path := ref.path, modifiers := ref.modifiers } = ref := by
  have hoptional : clauses.any (· matches .optional) = ref.isOptional := by
    rw [Bool.eq_iff_iff, ← h.isOptional, List.any_eq_true]
    constructor
    · rintro ⟨clause, hmem, hmatch⟩
      cases clause with
      | optional => exact hmem
      | _ => cases hmatch
    · exact fun hmem => ⟨_, hmem, rfl⟩
  have hrepetition : (clauses.filterMap Clause.count?).getLastD (.fixed 1) = ref.repetition := by
    rcases h.repetition with hone | ⟨hnone, hdefault⟩
    · rw [hone]
      rfl
    · rw [hnone, hdefault]
      rfl
  rw [foldl_apply, hoptional, hrepetition, h.exclusions]
  rfl

theorem isWritable_of_mem {ref : Reference} (h : ref.IsWritable) {clauses : List Clause}
    (hclauses : ref.IsSpelledBy clauses) {clause : Clause} (hmem : clause ∈ clauses) :
    clause.IsWritable := by
  cases clause with
  | optional => trivial
  | exclude word =>
    have hword : word ∈ ref.exclusions := by
      rw [← hclauses.exclusions]
      exact List.mem_filterMap.2 ⟨_, hmem, rfl⟩
    exact ⟨h.isWord word hword, h.exclusions_plain word hword⟩
  | times repetition =>
    have hcount : repetition ∈ clauses.filterMap Clause.count? :=
      List.mem_filterMap.2 ⟨_, hmem, rfl⟩
    rcases hclauses.repetition with hone | ⟨hnone, -⟩
    · rw [hone, List.mem_singleton] at hcount
      exact hcount ▸ h.isLimited
    · rw [hnone] at hcount
      cases hcount

/-- The clauses come in any order. -/
theorem parse?_written {ref : Reference} (h : ref.IsWritable) {clauses : List Clause}
    (hclauses : ref.IsSpelledBy clauses) :
    parse? (ref.name ++ clauses.flatMap Clause.written) = some ref := by
  have hwritable (clause : Clause) (hmem : clause ∈ clauses) : clause.IsWritable :=
    isWritable_of_mem h hclauses hmem
  have hcut : cutOutside Clause.isMark 0 (ref.name ++ clauses.flatMap Clause.written) =
      (ref.name, clauses.flatMap Clause.written) := by
    apply cutOutside_append
    · exact fun c hc => isPlain_of_mem_name h hc
    · intro c hc
      have hmark := Clause.isMark_of_head? hc
      exact ⟨isPlain_of_brackets (fun kind => by cases kind <;> decide) hmark, hmark⟩
  unfold parse?
  rw [trim_name_append h hwritable, hcut]
  dsimp only
  rw [path?_name h, Clause.readAll_written hwritable, Option.map_some]
  exact congrArg some (foldl_apply_of_isSpelledBy hclauses)

/-! ### In brackets -/

/-- The reference in brackets, with clauses in them and clauses behind. -/
def bracketed (ref : Reference) (inside outside : List Clause) : Text :=
  '[' :: (ref.name ++ inside.flatMap Clause.written) ++ ']' :: outside.flatMap Clause.written

section

variable {ref : Reference} {inside outside : List Clause}

theorem isNested_clauses {clauses : List Clause}
    (h : ∀ clause ∈ clauses, clause.IsWritable) :
    IsNested (¬ isOperator ·) (clauses.flatMap Clause.written) := by
  induction clauses with
  | nil => exact IsNested.plain (by simp)
  | cons clause rest ih =>
    obtain ⟨hclause, hrest⟩ := List.forall_mem_cons.1 h
    exact IsNested.append (Clause.isNested_written hclause) (ih hrest)

theorem isNested_body (h : ref.IsWritable) (hinside : ∀ clause ∈ inside, clause.IsWritable) :
    IsNested (fun _ => True) (ref.name ++ inside.flatMap Clause.written) := by
  have hname : IsNested (fun _ => True) ref.name :=
    IsNested.plain fun c hc => ⟨(isPlain_of_mem_name h hc).1, trivial⟩
  exact hname.append ((isNested_clauses hinside).mono fun _ _ => trivial)

theorem bracketed_eq : ref.bracketed inside outside =
    ('[' :: (ref.name ++ inside.flatMap Clause.written) ++ [']']) ++
      outside.flatMap Clause.written := by
  simp [bracketed]

theorem isNested_bracketed (h : ref.IsWritable) (hinside : ∀ clause ∈ inside, clause.IsWritable)
    (houtside : ∀ clause ∈ outside, clause.IsWritable) :
    IsNested (¬ isOperator ·) (ref.bracketed inside outside) := by
  rw [bracketed_eq]
  exact ((isNested_body h hinside).enclosed .square).append (isNested_clauses houtside)

theorem trim_bracketed (houtside : ∀ clause ∈ outside, clause.IsWritable) :
    Text.trim (ref.bracketed inside outside) = ref.bracketed inside outside := by
  have hbrackets : Text.EndsSolid ('[' :: (ref.name ++ inside.flatMap Clause.written) ++ [']']) :=
    ⟨_, ']', rfl, by decide⟩
  have hend := hbrackets.append_flatMap fun clause hclause =>
    Clause.endsSolid_written (houtside clause hclause)
  rw [← bracketed_eq] at hend
  exact Text.trim_eq_self (by decide) hend

theorem enclosed?_body (h : ref.IsWritable) (hinside : ∀ clause ∈ inside, clause.IsWritable)
    (rest : Text) :
    enclosed? '[' ']' 0 (ref.name ++ inside.flatMap Clause.written ++ ']' :: rest) =
      some (ref.name ++ inside.flatMap Clause.written, rest) :=
  (isNested_body h hinside).enclosed?_eq .square rest

theorem readTemplate_bracketed (h : ref.IsWritable) (hclauses : ref.IsSpelledBy inside)
    (depth : Nat) : readTemplate depth (ref.bracketed inside []) = .reference ref := by
  have hmatch := enclosed?_body h (fun clause hmem => isWritable_of_mem h hclauses hmem) []
  have hsplit : Piece.split (ref.bracketed inside []) =
      [.bracketed (ref.name ++ inside.flatMap Clause.written)] := by
    have := Piece.split_bracketed hmatch
    rwa [Piece.split_nil] at this
  cases depth <;>
    rw [readTemplate, hsplit, List.map_singleton, Piece.node, parse?_written h hclauses] <;> rfl

theorem decorated?_bracketed (h : ref.IsWritable)
    (hclauses : ref.IsSpelledBy (inside ++ outside)) (hne : outside ≠ []) :
    decorated? (ref.bracketed inside outside) = some ref := by
  have hwritable (clause : Clause) (hmem : clause ∈ inside ++ outside) : clause.IsWritable :=
    isWritable_of_mem h hclauses hmem
  have hmatch := enclosed?_body h (fun clause hmem => hwritable clause (List.mem_append_left _ hmem))
    (outside.flatMap Clause.written)
  have hsuffix := Clause.isSuffix_written hne fun clause hmem =>
    hwritable clause (List.mem_append_right _ hmem)
  simp only [decorated?, bracketed, List.cons_append, hmatch]
  rw [if_pos hsuffix, List.append_assoc, ← List.flatMap_append, parse?_written h hclauses]

theorem readExpression_bracketed (h : ref.IsWritable)
    (hclauses : ref.IsSpelledBy (inside ++ outside)) (depth : Nat) :
    readExpression (depth + 1) (ref.bracketed inside outside) = .reference ref := by
  have hwritable (clause : Clause) (hmem : clause ∈ inside ++ outside) : clause.IsWritable :=
    isWritable_of_mem h hclauses hmem
  have hinside (clause : Clause) (hmem : clause ∈ inside) :=
    hwritable clause (List.mem_append_left _ hmem)
  have houtside (clause : Clause) (hmem : clause ∈ outside) :=
    hwritable clause (List.mem_append_right _ hmem)
  have htrim : Text.trim (ref.bracketed inside outside) = ref.bracketed inside outside :=
    trim_bracketed houtside
  have hshape := Shape.of_nested (isNested_bracketed h hinside houtside)
    (by rw [htrim]; exact List.cons_ne_nil _ _)
  have hgroup : parenthesised? (ref.bracketed inside outside) = none :=
    parenthesised?_of_ne (by decide) _
  have hmem : '[' ∈ ref.bracketed inside outside := List.mem_cons_self
  rw [readExpression_succ, hshape, htrim, Shape.ofOperand_of_mem hgroup hmem]
  by_cases hne : outside = []
  · subst hne
    rw [List.append_nil] at hclauses
    have hnone : decorated? (ref.bracketed inside []) = none := by
      simp only [decorated?, bracketed, List.cons_append, enclosed?_body h hinside]
      rfl
    rw [hnone]
    exact readTemplate_bracketed h hclauses depth
  · rw [decorated?_bracketed h hclauses hne]
    rfl

/-- Reading gives a written reference back, in whatever order its clauses stand, and as an operand
wherever the bracket closes among them. -/
theorem parse_bracketed (h : ref.IsWritable) {clauses : List Clause}
    (hclauses : ref.IsSpelledBy clauses) :
    parse (ref.bracketed clauses []) = .reference ref ∧
      ∀ inside outside, clauses = inside ++ outside →
        parseInline (ref.bracketed inside outside) = .reference ref := by
  refine ⟨readTemplate_bracketed h hclauses nestingLimit, ?_⟩
  rintro inside outside rfl
  exact readExpression_bracketed h hclauses _

end

def npcName : Reference where
  path := "npc.name".toList
  modifiers := [.capitalize]
  isOptional := true
  exclusions := ["old man".toList]
  repetition := .range 3 1

def npcClauses : List Clause := [.optional, .exclude "old man".toList, .times (.range 3 1)]

theorem isWritable_npcName : npcName.IsWritable where
  path_ne_nil := by decide
  path_trimmed := by decide
  endsBare := by
    rintro - -
    apply endsBare_intercalate (by decide : ∀ segment ∈ ["npc".toList, "name".toList], '.' ∉ segment)
    · decide
    · rintro last segment rest heq
      injection heq with hlast
      rw [← hlast]
      decide
  modifiers_eq_nil := by decide
  isWord := List.forall_mem_singleton.2 ⟨by decide, by decide, Text.forall_of_all (by decide)⟩
  isLimited := by decide
  path_plain := Text.forall_of_all (by decide)
  exclusions_plain := List.forall_mem_singleton.2 (Text.forall_of_all (by decide))

theorem isSpelledBy_npcClauses : npcName.IsSpelledBy npcClauses :=
  ⟨rfl, .inl rfl, iff_of_true List.mem_cons_self rfl⟩

theorem parse_bracketed_npcName :
    npcName.IsWritable ∧ npcName.IsSpelledBy npcClauses ∧
      parse "[npc.name.capitalize?!old man*\x7b3-1\x7d]".toList = .reference npcName ∧
      parseInline "[npc.name.capitalize?]!old man*\x7b3-1\x7d".toList = .reference npcName := by
  obtain ⟨hinside, hcut⟩ := parse_bracketed isWritable_npcName isSpelledBy_npcClauses
  exact ⟨isWritable_npcName, isSpelledBy_npcClauses, hinside, hcut [.optional] _ rfl⟩

end Reference

end RandomTables
