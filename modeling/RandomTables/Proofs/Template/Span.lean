import RandomTables.Proofs.Template.Partner

/-! # Where the tokens stand

The scan goes along the template and stops at every matched square bracket. From its steps follow the
spans of the tokens, the texts in them, and that no matched bracket is passed over.
-/

namespace RandomTables

open RandomTables.Bracket

namespace Token

/-! ## Clauses behind a bracket pair -/

theorem operandRest_prefix_self (depth : Nat) (t : Text) : operandRest depth t <+: t := by
  fun_induction operandRest depth t with
  | case1 => exact List.prefix_refl []
  | case2 depth c t _ ih => exact List.cons_prefix_cons.2 ⟨rfl, ih⟩
  | case3 => exact List.nil_prefix
  | case4 c t _ _ depth ih => exact List.cons_prefix_cons.2 ⟨rfl, ih⟩
  | case5 => exact List.nil_prefix
  | case6 depth c t _ _ _ ih => exact List.cons_prefix_cons.2 ⟨rfl, ih⟩

theorem taken_prefix_rest (braced : Nat) (last : Option Char) (rest : Text) :
    taken braced last rest <+: rest := by
  unfold taken clauseSuffix
  split
  · dsimp only
    split
    · obtain ⟨blank, hsplit, -⟩ := Text.trimEnd_append_blank (operandRest 0 rest)
      have htrim : Text.trimEnd (operandRest 0 rest) <+: operandRest 0 rest := ⟨blank, hsplit.symm⟩
      exact htrim.trans (operandRest_prefix_self 0 rest)
    · exact List.nil_prefix
  · exact List.nil_prefix

theorem taken_isSuffix (braced : Nat) (last : Option Char) (rest : Text) :
    taken braced last rest = [] ∨ Clause.isSuffix (taken braced last rest) := by
  unfold taken clauseSuffix
  split
  · dsimp only
    split
    · next hsuffix => exact .inr hsuffix
    · exact .inl rfl
  · exact .inl rfl

/-! ## Steps of the scan -/

/-- A square bracket stands at this place of the template, with this text up to its match, and behind
the match these clauses or nothing. -/
structure Stands (template : Text) (start : Nat) (inner suffix : Text) : Prop where
  spelled : withClauses inner suffix <+: template.drop start
  matched : partner? template start = some (start + inner.length + 1)
  clauses : suffix = [] ∨ Clause.isSuffix suffix

/-- An operand can start at this place of the template: matched braces reach over it, and it stands
behind a code point that opens one. -/
structure OpensAt (template : Text) (start : Nat) : Prop where
  braced : ∃ i < start, start < i + bracedLength (template.drop i)
  opens : opensOperand (Text.lastSolid none (template.take start))

/-- The clauses are those that the scan takes behind a bracket pair at this place, if it takes any. -/
def Takes (template : Text) (start : Nat) (inner suffix : Text) : Prop :=
  suffix = [] ∨
    OpensAt template start ∧ suffix = clauseSuffix (template.drop (start + inner.length + 2))

/-- The token of a bracket pair with its clauses, if they read as a reference. -/
def at? (start : Nat) (inner suffix : Text) : Option Token :=
  (Reference.parse? (inner ++ suffix)).map fun reference =>
    { reference, raw := withClauses inner suffix, start }

/-- A scan that is at a place of the template, and the tokens it finds from there on. -/
inductive Scans (template : Text) : Nat → List Token → Prop where
  | done : Scans template template.length []
  | pass {position : Nat} {found : List Token} :
      (template[position]? = some '[' → partner? template position = none) →
      Scans template (position + 1) found → Scans template position found
  | pair {position : Nat} {inner suffix : Text} {found : List Token} :
      Stands template position inner suffix → Takes template position inner suffix →
      Scans template (position + (withClauses inner suffix).length) found →
      Scans template position ((at? position inner suffix).toList ++ found)

/-- What a scan carries along is what stands before the place it is at. -/
structure Carries (template : Text) (position braced : Nat) (last : Option Char) : Prop where
  braced : 0 < braced → ∃ i < position, position + braced ≤ i + bracedLength (template.drop i)
  last : last = Text.lastSolid none (template.take position)

namespace Carries

variable {template : Text} {position braced : Nat} {last : Option Char}

theorem start (template : Text) : Carries template 0 0 none := ⟨fun h => absurd h (Nat.lt_irrefl 0), rfl⟩

theorem lastSolid_take (h : Carries template position braced last) {passed behind : Text}
    (hdrop : template.drop position = passed ++ behind) :
    Text.lastSolid last passed =
      Text.lastSolid none (template.take (position + passed.length)) := by
  rw [List.take_add, hdrop, List.take_left, h.last, ← Text.lastSolid_append]

theorem pass (h : Carries template position braced last) {passed behind : Text}
    (hdrop : template.drop position = passed ++ behind) :
    Carries template (position + passed.length) (braced - passed.length)
      (Text.lastSolid last passed) where
  braced hpos := by
    obtain ⟨i, hi, hreach⟩ := h.braced (by omega)
    exact ⟨i, by omega, by omega⟩
  last := h.lastSolid_take hdrop

theorem step (h : Carries template position braced last) {c : Char} {t : Text}
    (hdrop : template.drop position = c :: t) :
    Carries template (position + 1) (max braced (bracedLength (c :: t)) - 1)
      (Text.lastSolid last [c]) where
  braced hpos := by
    by_cases hlonger : bracedLength (c :: t) ≤ braced
    · obtain ⟨i, hi, hreach⟩ := h.braced (by omega)
      exact ⟨i, by omega, by omega⟩
    · exact ⟨position, Nat.lt_succ_self _, by rw [hdrop]; omega⟩
  last := h.lastSolid_take hdrop

theorem takes (h : Carries template position braced last) {body rest : Text}
    (hrest : template.drop (position + body.length + 2) = rest) :
    Takes template position body (taken braced last rest) := by
  unfold taken
  split
  · next hfolds =>
    obtain ⟨hpos, hopens⟩ : 0 < braced ∧ opensOperand last := by simpa using hfolds
    obtain ⟨i, hi, hreach⟩ := h.braced hpos
    exact .inr ⟨⟨⟨i, hi, by omega⟩, h.last ▸ hopens⟩, by rw [hrest]⟩
  · exact .inl rfl

end Carries

theorem partner?_of_drop {template t : Text} {position : Nat}
    (h : template.drop position = '[' :: t) :
    partner? template position =
      (enclosed? '[' ']' 0 t).map fun (body, _) => position + body.length + 1 := by
  unfold partner?
  rw [h]
  rfl

theorem stands_of_match {template t body rest : Text} {position : Nat}
    (h : template.drop position = '[' :: t) (hmatch : enclosed? '[' ']' 0 t = some (body, rest))
    (braced : Nat) (last : Option Char) :
    Stands template position body (taken braced last rest) ∧
      template.drop (position + body.length + 2) = rest ∧
      template.drop (position + (withClauses body (taken braced last rest)).length) =
        rest.drop (taken braced last rest).length := by
  obtain ⟨behind, hrest⟩ := taken_prefix_rest braced last rest
  have hclauses := taken_isSuffix braced last rest
  generalize taken braced last rest = suffix at hrest hclauses ⊢
  have hspelled : template.drop position = withClauses body suffix ++ behind := by
    rw [h, enclosed?_eq hmatch, ← hrest]
    simp [withClauses]
  refine ⟨⟨⟨behind, hspelled.symm⟩, ?_, hclauses⟩, ?_, ?_⟩
  · simp [partner?_of_drop h, hmatch]
  · have hsplit : template.drop position = ('[' :: body ++ [']']) ++ rest := by
      simp [h, enclosed?_eq hmatch]
    rw [Nat.add_assoc, ← List.drop_drop, hsplit, List.drop_left' (by simp)]
  · rw [← List.drop_drop, hspelled, List.drop_left, ← hrest, List.drop_left]

theorem Stands.length_le {template inner suffix : Text} {start : Nat}
    (h : Stands template start inner suffix) :
    start + (withClauses inner suffix).length ≤ template.length := by
  have hle := h.spelled.length_le
  have hlonger := length_withClauses inner suffix
  simp only [List.length_drop] at hle
  omega

theorem scans_scan {template t : Text} {position : Nat} (h : template.drop position = t)
    (hposition : position ≤ template.length) {braced : Nat} {last : Option Char}
    (hcarries : Carries template position braced last) :
    Scans template position (scan position braced last t) := by
  -- The induction is on the length, since the scan goes on behind the clauses it takes.
  induction hn : t.length using Nat.strongRecOn generalizing t position braced last with
  | _ n ih =>
    subst hn
    cases t with
    | nil =>
      have hend : position = template.length :=
        Nat.le_antisymm hposition (List.drop_eq_nil_iff.1 h)
      rw [scan_nil, hend]
      exact .done
    | cons c t =>
      have hlength := congrArg List.length h
      simp only [List.length_drop, List.length_cons] at hlength
      rcases square_cases c t with hnone | ⟨body, rest, rfl, hmatch⟩
      · have htail : template.drop (position + 1) = t := by
          rw [← List.drop_drop, h]
          rfl
        rw [scan_step hnone]
        apply Scans.pass
        · intro hopening
          rw [getElem?_of_drop h, Option.some_inj] at hopening
          subst hopening
          rw [if_pos rfl] at hnone
          simp [partner?_of_drop h, hnone]
        · exact ih _ (Nat.lt_succ_self _) htail (by omega) (hcarries.step h) rfl
      · obtain ⟨hstands, hrest, hbehind⟩ := stands_of_match h hmatch braced last
        have hshorter := enclosed?_length hmatch
        obtain ⟨behind, hspelled⟩ := hstands.spelled
        rw [scan_match hmatch]
        apply Scans.pair hstands (hcarries.takes hrest)
        apply ih _ _ hbehind hstands.length_le (hcarries.pass hspelled.symm) rfl
        simp only [List.length_drop, List.length_cons]
        omega

theorem scans_tokens (template : Text) : Scans template 0 (tokens template) :=
  scans_scan List.drop_zero (Nat.zero_le _) (.start template)

/-! ## Spans -/

/-- The token is what stands at its place. -/
def IsAt (template : Text) (token : Token) : Prop :=
  ∃ inner suffix, Stands template token.start inner suffix ∧
    token.raw = withClauses inner suffix ∧
    Reference.parse? (inner ++ suffix) = some token.reference

theorem mem_at?_iff {start : Nat} {inner suffix : Text} {token : Token} :
    token ∈ (at? start inner suffix).toList ↔
      token.start = start ∧ token.raw = withClauses inner suffix ∧
        Reference.parse? (inner ++ suffix) = some token.reference := by
  unfold at?
  simp only [Option.mem_toList, Option.map_eq_some_iff]
  constructor
  · rintro ⟨reference, href, rfl⟩
    exact ⟨rfl, rfl, href⟩
  · rintro ⟨rfl, hraw, href⟩
    exact ⟨token.reference, href, by rw [← hraw]⟩

namespace Scans

variable {template : Text} {position : Nat} {found : List Token}

theorem le_start (h : Scans template position found) : ∀ token ∈ found, position ≤ token.start := by
  induction h with
  | done => simp
  | pass _ _ ih =>
    intro token htoken
    have := ih token htoken
    omega
  | pair _ _ _ ih =>
    intro token htoken
    rcases List.mem_append.1 htoken with hhere | hlater
    · exact Nat.le_of_eq (mem_at?_iff.1 hhere).1.symm
    · have := ih token hlater
      omega

theorem pairwise (h : Scans template position found) :
    found.Pairwise fun token later => token.stop ≤ later.start := by
  induction h with
  | done => exact .nil
  | pass _ _ ih => exact ih
  | pair _ _ hlater ih =>
    apply List.pairwise_append.2
    refine ⟨?_, ih, ?_⟩
    · unfold at?
      cases Reference.parse? _ <;> simp
    · intro token htoken later hmem
      obtain ⟨hstart, hraw, -⟩ := mem_at?_iff.1 htoken
      have := hlater.le_start later hmem
      unfold stop
      rw [hstart, hraw]
      exact this

theorem isAt (h : Scans template position found) : ∀ token ∈ found, token.IsAt template := by
  induction h with
  | done => simp
  | pass _ _ ih => exact ih
  | pair hstands _ _ ih =>
    intro token htoken
    rcases List.mem_append.1 htoken with hhere | hlater
    · obtain ⟨hstart, hraw, href⟩ := mem_at?_iff.1 hhere
      exact ⟨_, _, hstart ▸ hstands, hraw, href⟩
    · exact ih token hlater

/-- No matched bracket is passed over: it is in a bracket pair, or in the clauses behind one, that is
found if it reads as a reference. -/
theorem covers (h : Scans template position found) {i : Nat} (hi : position ≤ i)
    (hopening : template[i]? = some '[') (hmatched : (partner? template i).isSome) :
    ∃ start inner suffix, Stands template start inner suffix ∧ Takes template start inner suffix ∧
      start ≤ i ∧ i < start + (withClauses inner suffix).length ∧
      ∀ token, at? start inner suffix = some token → token ∈ found := by
  induction h with
  | done =>
    have := (List.getElem?_eq_some_iff.1 hopening).1
    omega
  | @pass position found hnone _ ih =>
    have hne : position ≠ i := by
      rintro rfl
      simp [hnone hopening] at hmatched
    exact ih (by omega)
  | @pair position inner suffix found hstands htakes _ ih =>
    by_cases hinside : i < position + (withClauses inner suffix).length
    · refine ⟨position, inner, suffix, hstands, htakes, hi, hinside, ?_⟩
      intro token htoken
      simp [htoken]
    · obtain ⟨start, inner', suffix', hstands', htakes', hstart, hstop, hfound⟩ := ih (by omega)
      refine ⟨start, inner', suffix', hstands', htakes', hstart, hstop, ?_⟩
      intro token htoken
      exact List.mem_append_right _ (hfound token htoken)

end Scans

theorem IsAt.span {template : Text} {token : Token} (h : token.IsAt template) :
    token.start < token.stop ∧ token.stop ≤ template.length ∧
      template.extract token.start token.stop = token.raw := by
  obtain ⟨inner, suffix, hstands, hraw, -⟩ := h
  have hstop := hstands.length_le
  have hlonger := length_withClauses inner suffix
  obtain ⟨behind, hspelled⟩ := hstands.spelled
  unfold stop
  rw [hraw]
  refine ⟨by omega, hstop, ?_⟩
  rw [List.extract_eq_take_drop, ← hspelled, Nat.add_sub_cancel_left, List.take_left]

end Token

/-- The tokens stand one behind another in the template, each of them is the bracket pair at its place
with the clauses taken behind it, and every matched square bracket is in one of them or in a pair that
reads as no reference. -/
theorem tokens_located (template : Text) :
    (tokens template).Pairwise (fun token later => token.stop ≤ later.start) ∧
    (∀ token ∈ tokens template,
      (token.start < token.stop ∧ token.stop ≤ template.length ∧
        template.extract token.start token.stop = token.raw) ∧
      ∃ inner suffix, token.raw = '[' :: inner ++ ']' :: suffix ∧
        partner? template token.start = some (token.start + inner.length + 1) ∧
        (suffix = [] ∨ Clause.isSuffix suffix) ∧
        Reference.parse? (inner ++ suffix) = some token.reference) ∧
    ∀ i, template[i]? = some '[' → (partner? template i).isSome →
      ∃ start inner suffix, Token.Stands template start inner suffix ∧
        start ≤ i ∧ i < start + (Token.withClauses inner suffix).length ∧
        ∀ token, Token.at? start inner suffix = some token → token ∈ tokens template := by
  have hscans := Token.scans_tokens template
  refine ⟨hscans.pairwise, fun token htoken => ?_, fun i hopening hmatched => ?_⟩
  · have hat := hscans.isAt token htoken
    refine ⟨hat.span, ?_⟩
    obtain ⟨inner, suffix, hstands, hraw, href⟩ := hat
    exact ⟨inner, suffix, hraw, hstands.matched, hstands.clauses, href⟩
  · obtain ⟨start, inner, suffix, hstands, -, hcovers⟩ :=
      hscans.covers (Nat.zero_le i) hopening hmatched
    exact ⟨start, inner, suffix, hstands, hcovers⟩

end RandomTables
