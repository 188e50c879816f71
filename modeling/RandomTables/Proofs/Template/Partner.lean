import Mathlib.Data.List.Nodup
import RandomTables.Proofs.Template.Nested

/-! # Matched brackets

The depth at a place, counted in matched pairs: the pairs around it and the brackets before it that
match none. It tells where a separator cuts a text.
-/

namespace RandomTables.Bracket

/-! ## Partners -/

/-- The place of the closing bracket that matches the opening one at this place. -/
def partner? (t : Text) (i : Nat) : Option Nat :=
  (body? (t.drop i)).map fun (body, _) => i + body.length + 1

theorem body?_opening (kind : Kind) (t : Text) :
    body? (kind.opening :: t) = enclosed? kind.opening kind.closing 0 t := by
  cases kind <;> rfl

theorem exists_opening {c : Char} (h : isOpening c) : ∃ kind : Kind, c = kind.opening := by
  simp only [isOpening, Bool.or_eq_true, beq_iff_eq] at h
  rcases h with (rfl | rfl) | rfl
  exacts [⟨.square, rfl⟩, ⟨.curly, rfl⟩, ⟨.round, rfl⟩]

theorem body?_of_not_opening {c : Char} (h : isOpening c = false) (t : Text) :
    body? (c :: t) = none := by
  have hne (kind : Kind) : c ≠ kind.opening := by
    rintro rfl
    rw [isOpening_opening] at h
    cases h
  unfold body?
  split
  · next heq => exact absurd (List.cons.inj heq).1 (hne .square)
  · next heq => exact absurd (List.cons.inj heq).1 (hne .curly)
  · next heq => exact absurd (List.cons.inj heq).1 (hne .round)
  · rfl

theorem exists_of_partner? {t : Text} {i k : Nat} (h : partner? t i = some k) :
    ∃ (kind : Kind) (u body rest : Text), t.drop i = kind.opening :: u ∧
      enclosed? kind.opening kind.closing 0 u = some (body, rest) ∧ k = i + body.length + 1 := by
  obtain ⟨⟨body, rest⟩, hbody, rfl⟩ := Option.map_eq_some_iff.1 h
  cases hdrop : t.drop i with
  | nil =>
    rw [hdrop] at hbody
    cases hbody
  | cons c u =>
    rw [hdrop] at hbody
    cases hopening : isOpening c with
    | false =>
      rw [body?_of_not_opening hopening] at hbody
      cases hbody
    | true =>
      obtain ⟨kind, rfl⟩ := exists_opening hopening
      exact ⟨kind, u, body, rest, rfl, body?_opening kind u ▸ hbody, rfl⟩

theorem getElem?_of_drop {t u : Text} {i : Nat} {c : Char} (h : t.drop i = c :: u) :
    t[i]? = some c := by
  have hhead : (t.drop i)[0]? = some c := by rw [h]; rfl
  rwa [List.getElem?_drop, Nat.add_zero] at hhead

theorem drop_of_getElem? {t : Text} {i : Nat} {c : Char} (h : t[i]? = some c) :
    t.drop i = c :: t.drop (i + 1) := by
  obtain ⟨hlt, rfl⟩ := List.getElem?_eq_some_iff.1 h
  exact List.drop_eq_getElem_cons hlt

theorem getElem?_partner {t : Text} {i k : Nat} (h : partner? t i = some k) :
    i < k ∧ ∃ kind : Kind, t[i]? = some kind.opening ∧ t[k]? = some kind.closing := by
  obtain ⟨kind, u, body, rest, hdrop, hbody, rfl⟩ := exists_of_partner? h
  refine ⟨by omega, kind, getElem?_of_drop hdrop, ?_⟩
  have hclosing : (t.drop i)[body.length + 1]? = some kind.closing := by
    rw [hdrop, enclosed?_eq hbody]
    simp
  rwa [List.getElem?_drop, ← Nat.add_assoc] at hclosing

theorem enclosed?_pass {opening closing : Char} {inner : Nat} {s u body rest : Text}
    (h : enclosed? opening closing inner (s ++ u) = some (body, rest))
    (hlength : s.length ≤ body.length) :
    ∃ inner' body', enclosed? opening closing inner' u = some (body', rest) ∧ body = s ++ body' := by
  induction s generalizing inner body with
  | nil => exact ⟨inner, body, h, rfl⟩
  | cons c s ih =>
    simp only [List.cons_append, enclosed?] at h
    have hstep {depth : Nat}
        (hmap : (enclosed? opening closing depth (s ++ u)).map
          (fun (body, rest) => (c :: body, rest)) = some (body, rest)) :
        ∃ inner' body', enclosed? opening closing inner' u = some (body', rest) ∧
          body = c :: s ++ body' := by
      obtain ⟨⟨b, r⟩, hb, heq⟩ := Option.map_eq_some_iff.1 hmap
      cases heq
      obtain ⟨inner', body', hfound, rfl⟩ := ih hb (Nat.le_of_succ_le_succ hlength)
      exact ⟨inner', body', hfound, rfl⟩
    split at h
    · exact hstep h
    · split at h
      · cases inner with
        | zero =>
          cases h
          cases hlength
        | succ inner => exact hstep h
      · exact hstep h

theorem partner?_lt_of_lt {t : Text} {i j k l : Nat} (hi : partner? t i = some k) (hij : i < j)
    (hj : partner? t j = some l) (hkind : t[i]? = t[j]?) (hjk : j < k) : l < k := by
  obtain ⟨kind, u, body, rest, hdrop, hbody, rfl⟩ := exists_of_partner? hi
  obtain ⟨kind', u', body', rest', hdrop', hbody', rfl⟩ := exists_of_partner? hj
  obtain rfl : kind' = kind := by
    rw [getElem?_of_drop hdrop, getElem?_of_drop hdrop', Option.some_inj] at hkind
    exact Decidable.not_not.1 fun hne => opening_ne (Ne.symm hne) hkind
  -- The text between the two opening brackets is a part of the outer body.
  have hlater : u.drop (j - i - 1) = kind'.opening :: u' := by
    have hsum : i + 1 + (j - i - 1) = j := by omega
    have hsplit : (t.drop i).drop (1 + (j - i - 1)) = t.drop j := by
      rw [List.drop_drop, ← Nat.add_assoc, hsum]
    rw [hdrop, hdrop', Nat.add_comm] at hsplit
    exact hsplit
  have hlength : (u.take (j - i - 1)).length = j - i - 1 := by
    have := enclosed?_length hbody
    rw [List.length_take]
    omega
  rw [← List.take_append_drop (j - i - 1) u, hlater] at hbody
  obtain ⟨inner, body'', hpass, rfl⟩ := enclosed?_pass hbody (by omega)
  rw [enclosed?_opening] at hpass
  obtain ⟨⟨b, r⟩, hb, heq⟩ := Option.map_eq_some_iff.1 hpass
  cases heq
  have hshorter := enclosed?_length_lt (Nat.succ_pos inner) hbody' hb
  rw [List.length_append, hlength, List.length_cons]
  omega

theorem partner?_inj {t : Text} {i j k : Nat} (hi : partner? t i = some k)
    (hj : partner? t j = some k) : i = j := by
  obtain ⟨hik, kind, hopening, hclosing⟩ := getElem?_partner hi
  obtain ⟨hjk, kind', hopening', hclosing'⟩ := getElem?_partner hj
  obtain rfl : kind' = kind := by
    rw [hclosing, Option.some_inj] at hclosing'
    exact Decidable.not_not.1 fun hne => closing_ne (Ne.symm hne) hclosing'
  have hsame : t[i]? = t[j]? := hopening.trans hopening'.symm
  rcases Nat.lt_trichotomy i j with hlt | heq | hlt
  · exact absurd (partner?_lt_of_lt hi hlt hj hsame hjk) (Nat.lt_irrefl k)
  · exact heq
  · exact absurd (partner?_lt_of_lt hj hlt hi hsame.symm hik) (Nat.lt_irrefl k)

/-! ## Counts at a place -/

/-- A matched pair of brackets stands around the place, its opening bracket here. -/
def Encloses (t : Text) (i j : Nat) : Prop := ∃ k, partner? t i = some k ∧ i < j ∧ j < k

instance (t : Text) (i j : Nat) : Decidable (Encloses t i j) :=
  decidable_of_iff ((partner? t i).any fun k => i < j ∧ j < k) (by
    simp [Encloses, Option.any_eq_true])

/-- An opening bracket without a match. -/
def IsUnclosed (t : Text) (i : Nat) : Prop := t[i]?.any isOpening ∧ partner? t i = none

/-- A closing bracket that matches none. -/
def IsStray (t : Text) (k : Nat) : Prop := t[k]?.any isClosing ∧ ∀ i < k, partner? t i ≠ some k

instance (t : Text) (i : Nat) : Decidable (IsUnclosed t i) := inferInstanceAs (Decidable (_ ∧ _))

instance (t : Text) (k : Nat) : Decidable (IsStray t k) := inferInstanceAs (Decidable (_ ∧ _))

/-- How many matched pairs stand around the place. -/
def enclosing (t : Text) (j : Nat) : Nat := (List.range j).countP (Encloses t · j)

def unclosedBefore (t : Text) (j : Nat) : Nat := (List.range j).countP (IsUnclosed t ·)

def strayBefore (t : Text) (j : Nat) : Nat := (List.range j).countP (IsStray t ·)

/-- How many brackets before the place have their partner at the place or behind it. -/
def pending (t : Text) (j : Nat) : Nat := (List.range j).countP fun i => (partner? t i).any (j ≤ ·)

theorem countP_range_succ (p : Nat → Bool) (j : Nat) :
    (List.range (j + 1)).countP p = (List.range j).countP p + (p j).toNat := by
  rw [List.range_succ, List.countP_append, List.countP_singleton]
  cases p j <;> rfl

theorem unclosedBefore_succ (t : Text) (j : Nat) :
    unclosedBefore t (j + 1) = unclosedBefore t j + (decide (IsUnclosed t j)).toNat :=
  countP_range_succ _ j

theorem strayBefore_succ (t : Text) (j : Nat) :
    strayBefore t (j + 1) = strayBefore t j + (decide (IsStray t j)).toNat :=
  countP_range_succ _ j

theorem partner?_of_not_opening {t : Text} {i : Nat} (h : t[i]?.any isOpening = false) :
    partner? t i = none := by
  cases hpartner : partner? t i with
  | none => rfl
  | some k =>
    obtain ⟨-, kind, hopening, -⟩ := getElem?_partner hpartner
    simp [hopening, isOpening_opening] at h

theorem ne_partner_of_not_closing {t : Text} {k : Nat} (h : t[k]?.any isClosing = false) (i : Nat) :
    partner? t i ≠ some k := by
  intro hpartner
  obtain ⟨-, kind, -, hclosing⟩ := getElem?_partner hpartner
  simp [hclosing, isClosing_closing] at h

theorem toNat_isOpening (t : Text) (j : Nat) :
    (t[j]?.any isOpening).toNat =
      (partner? t j).isSome.toNat + (decide (IsUnclosed t j)).toNat := by
  cases hopening : t[j]?.any isOpening with
  | false => simp [IsUnclosed, hopening, partner?_of_not_opening hopening]
  | true => cases hpartner : partner? t j <;> simp [IsUnclosed, hopening, hpartner]

theorem toNat_isClosing (t : Text) (j : Nat) :
    (t[j]?.any isClosing).toNat =
      (List.range j).countP (fun i => partner? t i = some j) + (decide (IsStray t j)).toNat := by
  cases hclosing : t[j]?.any isClosing with
  | false =>
    have hnone := ne_partner_of_not_closing hclosing
    simp [IsStray, hclosing, hnone]
  | true =>
    by_cases hstray : ∀ i < j, partner? t i ≠ some j
    · have hcount : (List.range j).countP (fun i => partner? t i = some j) = 0 := by
        simpa [List.countP_eq_zero] using hstray
      have hfound : IsStray t j := ⟨hclosing, hstray⟩
      simp [hcount, hfound]
    · obtain ⟨i, hij, hpartner⟩ : ∃ i < j, partner? t i = some j := by
        simpa using hstray
      have hsame : ∀ i' ∈ List.range j, decide (partner? t i' = some j) = (i' == i) := by
        intro i' _
        by_cases heq : i' = i
        · simp [heq, hpartner]
        · have hother : partner? t i' ≠ some j := fun hother => heq (partner?_inj hother hpartner)
          simp [heq, hother]
      have hcount : (List.range j).countP (fun i => partner? t i = some j) = 1 := by
        rw [List.countP_congr fun i' hi' => by rw [hsame i' hi']]
        exact List.count_eq_one_of_mem List.nodup_range (List.mem_range.2 hij)
      have hfound : ¬ IsStray t j := fun h => h.2 i hij hpartner
      simp [hcount, hfound]

theorem pending_succ (t : Text) (j : Nat) :
    pending t (j + 1) + (List.range j).countP (fun i => partner? t i = some j) =
      pending t j + (partner? t j).isSome.toNat := by
  have hhere : ((partner? t j).any (j + 1 ≤ ·)) = (partner? t j).isSome := by
    cases hpartner : partner? t j with
    | none => rfl
    | some k => simpa [Nat.succ_le_iff] using (getElem?_partner hpartner).1
  have hrest (places : List Nat) :
      places.countP (fun i => (partner? t i).any (j + 1 ≤ ·)) +
        places.countP (fun i => partner? t i = some j) =
      places.countP fun i => (partner? t i).any (j ≤ ·) := by
    induction places with
    | nil => rfl
    | cons i places ih =>
      simp only [List.countP_cons, ← ih]
      cases partner? t i <;> grind
  have hearlier := hrest (List.range j)
  rw [pending, countP_range_succ, hhere, pending]
  omega

theorem step_eq (depth : Int) (c : Char) :
    step depth c = depth + (isOpening c).toNat - (isClosing c).toNat := by
  unfold step
  cases hopening : isOpening c with
  | true =>
    obtain ⟨kind, rfl⟩ := exists_opening hopening
    have hclosing : isClosing kind.opening = false := by cases kind <;> rfl
    simp [hclosing]
  | false => cases isClosing c <;> simp

/-- The depth at a place is the number of pairs that reach it, more by the unclosed brackets before
it and less by the stray ones. -/
theorem depth_take (t : Text) {j : Nat} (hj : j ≤ t.length) :
    (t.take j).foldl step 0 + strayBefore t j = (pending t j + unclosedBefore t j : Int) := by
  induction j with
  | zero => rfl
  | succ j ih =>
    have hc : t[j]? = some t[j] := List.getElem?_eq_getElem hj
    have hopening := toNat_isOpening t j
    have hclosing := toNat_isClosing t j
    have hpending := pending_succ t j
    rw [hc, Option.any_some] at hopening hclosing
    have hprevious := ih (Nat.le_of_succ_le hj)
    rw [List.take_add_one, hc, Option.toList_some, List.foldl_append, List.foldl_cons,
      List.foldl_nil, step_eq, strayBefore_succ, unclosedBefore_succ]
    omega

/-! ## Where separators cut -/

theorem pending_eq_enclosing {t : Text} {j : Nat} {c : Char} (hj : t[j]? = some c)
    (hc : isPlain c) : pending t j = enclosing t j := by
  refine List.countP_congr fun i hi => ?_
  have hne : partner? t i ≠ some j := by
    refine ne_partner_of_not_closing ?_ i
    rw [hj, Option.any_some, isClosing_of_plain hc]
  have hij := List.mem_range.1 hi
  cases hpartner : partner? t i with
  | none => simp [Encloses, hpartner]
  | some k =>
    have hkj : k ≠ j := fun hkj => hne (hkj ▸ hpartner)
    simp [Encloses, hpartner]
    omega

/-- The separator stands here, and of the brackets before it as many are stray as are unclosed or
reach around it. -/
def IsCut (sep : Char) (t : Text) (j : Nat) : Prop :=
  t[j]? = some sep ∧ enclosing t j + unclosedBefore t j = strayBefore t j

instance (sep : Char) (t : Text) (j : Nat) : Decidable (IsCut sep t j) :=
  inferInstanceAs (Decidable (_ ∧ _))

theorem isCut_iff {sep c : Char} (hsep : isPlain sep) {t : Text} {j : Nat} (hj : t[j]? = some c) :
    IsCut sep t j ↔ isPlain c ∧ c = sep ∧ (t.take j).foldl step 0 = 0 := by
  have hdepth := depth_take t (Nat.le_of_lt (List.getElem?_eq_some_iff.1 hj).1)
  rw [IsCut, hj, Option.some_inj]
  constructor
  · rintro ⟨rfl, hcount⟩
    rw [pending_eq_enclosing hj hsep] at hdepth
    exact ⟨hsep, rfl, by omega⟩
  · rintro ⟨-, rfl, hzero⟩
    rw [pending_eq_enclosing hj hsep] at hdepth
    exact ⟨rfl, by omega⟩

/-- The pieces of a text between the places that are marked, counted from where the text starts. -/
def cutAt (marked : Nat → Bool) (t : Text) (start : Nat) : List Text :=
  ((t.zipIdx start).splitOnP fun x => marked x.2).map fun piece => piece.map Prod.fst

theorem cutAt_cons (marked : Nat → Bool) (c : Char) (t : Text) (start : Nat) :
    cutAt marked (c :: t) start =
      if marked start then [] :: cutAt marked t (start + 1)
      else glue [c] (cutAt marked t (start + 1)) := by
  unfold cutAt
  rw [List.zipIdx_cons, List.splitOnP_cons_eq_if_modifyHead]
  split
  · rfl
  · cases hcuts : (t.zipIdx (start + 1)).splitOnP fun x => marked x.2 with
    | nil => exact absurd hcuts (List.splitOnP_ne_nil _ _)
    | cons piece more => rfl

theorem pieces_drop {sep : Char} (hsep : isPlain sep) {t rest : Text} {j : Nat}
    (hrest : t.drop j = rest) :
    pieces sep ((t.take j).foldl step 0) rest = cutAt (IsCut sep t ·) rest j := by
  induction rest generalizing j with
  | nil => rfl
  | cons c rest ih =>
    have hj := getElem?_of_drop hrest
    have htail : t.drop (j + 1) = rest := by
      rw [drop_of_getElem? hj] at hrest
      exact (List.cons.inj hrest).2
    have hdepth : (t.take (j + 1)).foldl step 0 = step ((t.take j).foldl step 0) c := by
      rw [List.take_add_one, hj, Option.toList_some, List.foldl_append]
      rfl
    have hlater := ih htail
    rw [hdepth] at hlater
    rw [pieces_cons, cutAt_cons, ← hlater]
    by_cases hcut : IsCut sep t j
    · have hopen := (isCut_iff hsep hj).1 hcut
      rw [if_pos hopen, if_pos (decide_eq_true hcut), step_plain hopen.1]
    · rw [if_neg (mt (isCut_iff hsep hj).2 hcut), if_neg (by simpa using hcut)]

theorem enclosing_eq_zero_iff {t : Text} {j : Nat} : enclosing t j = 0 ↔ ∀ i, ¬ Encloses t i j := by
  rw [enclosing, List.countP_eq_zero]
  constructor
  · intro hnone i hencloses
    have hij : i < j := hencloses.elim fun _ h => h.2.1
    exact hnone i (List.mem_range.2 hij) (decide_eq_true hencloses)
  · intro hnone i _ hencloses
    exact hnone i (of_decide_eq_true hencloses)

/-- The operands are the trimmed pieces between the cuts, without the empty ones, and a separator
with as many stray brackets before it as unclosed ones cuts if no matched pair encloses it. -/
theorem operands_cutAt {sep : Char} (hsep : isPlain sep) (t : Text) :
    operands sep t = ((cutAt (IsCut sep t ·) t 0).map Text.trim).filter (!·.isEmpty) ∧
      ∀ j, strayBefore t j = unclosedBefore t j →
        (IsCut sep t j ↔ t[j]? = some sep ∧ ∀ i, ¬ Encloses t i j) := by
  constructor
  · rw [operands, ← pieces_drop hsep List.drop_zero]
    rfl
  · intro j hequal
    rw [IsCut, hequal, Nat.add_eq_right, enclosing_eq_zero_iff]

example : operands '&' ") a & b".toList = [") a & b".toList] := by decide

/-- A square and a round pair that overlap, and brackets that match none. -/
def overlapping : Text := "[a&(b]&c)&d)(&e".toList

theorem operands_cutAt_overlapping :
    isPlain '&' ∧
      operands '&' overlapping =
        ((cutAt (IsCut '&' overlapping ·) overlapping 0).map Text.trim).filter (!·.isEmpty) ∧
      strayBefore overlapping 13 = unclosedBefore overlapping 13 ∧
        (IsCut '&' overlapping 13 ↔
          overlapping[13]? = some '&' ∧ ∀ i, ¬ Encloses overlapping i 13) := by
  have hplain : isPlain '&' := by decide
  have hequal : strayBefore overlapping 13 = unclosedBefore overlapping 13 := by decide
  obtain ⟨hpieces, hcuts⟩ := operands_cutAt hplain overlapping
  exact ⟨hplain, hpieces, hequal, hcuts 13 hequal⟩

end RandomTables.Bracket
