import RandomTables.Proofs.Evaluation.Meaning

/-! # Evaluation keeps to the rules

Whatever an evaluation gives, with the budget it has spent, is a meaning of its tree.
-/

namespace RandomTables

/-! ## Steps of an evaluation -/

namespace Eval

variable {σ α β : Type}

/-- Each result of the computation, in a session with this limit that has spent at least this much,
keeps the limit, gives nothing back, and satisfies the relation between the budget spent before, the
value, and the budget spent after. -/
def Follows (maxDepth least : Nat) (m : Eval σ α) (spec : Nat → α → Nat → Prop) : Prop :=
  ∀ s a s', s.maxDepth = maxDepth → least ≤ s.depth → m s = some (a, s') →
    s'.maxDepth = maxDepth ∧ s.depth ≤ s'.depth ∧ spec s.depth a s'.depth

variable {maxDepth least : Nat} {m : Eval σ α} {k : α → Eval σ β}

theorem Follows.mono {p q : Nat → α → Nat → Prop} (h : Follows maxDepth least m p)
    (himp : ∀ depth a depth', p depth a depth' → q depth a depth') :
    Follows maxDepth least m q := by
  intro s a s' hs hleast hm
  obtain ⟨hmax, hle, hp⟩ := h s a s' hs hleast hm
  exact ⟨hmax, hle, himp _ _ _ hp⟩

theorem Follows.bind {p : Nat → α → Nat → Prop} {q : α → Nat → β → Nat → Prop}
    (hm : Follows maxDepth least m p) (hk : ∀ a, Follows maxDepth least (k a) (q a)) :
    Follows maxDepth least (m >>= k) fun depth b depth'' =>
      ∃ a depth', p depth a depth' ∧ q a depth' b depth'' := by
  intro s b s'' hs hleast h
  obtain ⟨a, s', hma, hkb⟩ := bind_eq_some.1 h
  obtain ⟨hmax, hle, hp⟩ := hm s a s' hs hleast hma
  obtain ⟨hmax', hle', hq⟩ := hk a s' b s'' hmax (Nat.le_trans hleast hle) hkb
  exact ⟨hmax', Nat.le_trans hle hle', a, s'.depth, hp, hq⟩

theorem follows_pure (a : α) :
    Follows maxDepth least (pure a : Eval σ α) fun depth b depth' => b = a ∧ depth' = depth := by
  intro s b s' hs _ h
  obtain ⟨rfl, rfl⟩ := pure_eq_some.1 h
  exact ⟨hs, Nat.le_refl _, rfl, rfl⟩

theorem follows_draw {d : Draw σ α} {p : α → Prop}
    (h : ∀ source a rest, d source = some (a, rest) → p a) :
    Follows maxDepth least (Eval.draw d) fun depth a depth' => p a ∧ depth' = depth := by
  intro s a s' hs _ hd
  obtain ⟨rest, hrest, rfl⟩ := draw_eq_some hd
  exact ⟨hs, Nat.le_refl _, h _ _ _ hrest, rfl⟩

theorem follows_report (evaluator : Evaluator) (event : Event) :
    Follows maxDepth least (evaluator.report event : Eval σ Unit)
      fun depth _ depth' => depth' = depth := by
  rintro s a s' hs _ ⟨⟩
  split <;> exact ⟨hs, Nat.le_refl _, rfl⟩

theorem Follows.map_draw {d : Draw σ α} {p : α → Prop} {f : α → β}
    (h : ∀ source a rest, d source = some (a, rest) → p a) :
    Follows maxDepth least (Eval.draw d >>= fun a => pure (f a)) fun depth b depth' =>
      (∃ a, p a ∧ b = f a) ∧ depth' = depth := by
  refine ((follows_draw h).bind fun a => follows_pure (f a)).mono ?_
  rintro depth b depth'' ⟨a, depth', ⟨hp, rfl⟩, rfl, rfl⟩
  exact ⟨⟨a, hp, rfl⟩, rfl⟩

theorem Follows.parts_cons {setting : Setting} {node : Node} {rest : List Node} {m k : Eval σ Text}
    (hnode : Follows setting.maxDepth least m (NodeGives setting node))
    (hrest : Follows setting.maxDepth least k (PartsGive setting rest)) :
    Follows setting.maxDepth least
      (do
        let first ← m
        let more ← k
        pure (first ++ more))
      (PartsGive setting (node :: rest)) := by
  refine (hnode.bind fun _ => hrest.bind fun _ => follows_pure _).mono ?_
  rintro depth text depth' ⟨first, _, hfirst, more, _, hmore, rfl, rfl⟩
  exact .cons hfirst hmore

end Eval

open Eval

/-! ## References -/

theorem Repetition.count_allows {σ : Type} [WordSource σ] {repetition : Repetition}
    {source rest : σ} {count : UInt32} (h : repetition.count source = some (count, rest)) :
    repetition.Allows count.toNat := by
  cases repetition with
  | fixed n =>
    obtain ⟨rfl, -⟩ := pure_eq_some.1 h
    rfl
  | range low high =>
    simp only [Repetition.count] at h
    split at h
    · next hle =>
      obtain ⟨hlow, hhigh⟩ := Draw.between32_mem hle h
      rw [UInt32.le_iff_toNat_le] at hle hlow hhigh
      exact ⟨by omega, by omega⟩
    · next hlt =>
      have hle := UInt32.le_of_lt (UInt32.not_le.1 hlt)
      obtain ⟨hhigh, hlow⟩ := Draw.between32_mem hle h
      rw [UInt32.le_iff_toNat_le] at hle hlow hhigh
      exact ⟨by omega, by omega⟩

theorem Reference.mem_candidates {ref : Reference} {entries : List Text} {entry : Text} :
    entry ∈ ref.candidates entries ↔
      entry ∈ entries ∧ ¬ isExcluded ref.exclusions (Weighted.strip entry) := by
  simp [Reference.candidates]

theorem Reference.candidates_eq_nil_iff {ref : Reference} {entries : List Text} :
    ref.candidates entries = [] ↔
      ∀ entry ∈ entries, isExcluded ref.exclusions (Weighted.strip entry) := by
  simp [Reference.candidates]

theorem follows_times {σ : Type} {setting : Setting} {least : Nat} {ref : Reference}
    {once : Eval σ Text}
    (honce : Follows setting.maxDepth least once (DrawGives setting ref)) (count : Nat) :
    Follows setting.maxDepth least (Eval.times count once) (DrawsGive setting ref count) := by
  induction count with
  | zero =>
    refine (follows_pure _).mono ?_
    rintro depth results depth' ⟨rfl, rfl⟩
    exact .zero ref _
  | succ count ih =>
    refine (honce.bind fun _ => ih.bind fun _ => follows_pure _).mono ?_
    rintro depth results depth' ⟨first, _, hfirst, rest, _, hrest, rfl, rfl⟩
    exact .succ hfirst hrest

/-- The tree has no reference with other modifiers than these. -/
def Node.Keeps (kept : List Modifier → Prop) (node : Node) : Prop :=
  ∀ ref ∈ node.references, kept ref.modifiers

/-- No entry of the store, read as a template, has a reference with other modifiers than these. -/
def Store.Keeps (kept : List Modifier → Prop) (tables : Store) : Prop :=
  ∀ path entries, tables.list? path = some entries →
    ∀ entry ∈ entries, (parse (Weighted.strip entry)).Keeps kept

section

variable {σ : Type} [WordSource σ] {evaluator : Evaluator} {expand : Text → Eval σ Text}
  {setting : Setting} {kept : List Modifier → Prop} {least : Nat}

/-- The rules are about the tables of the evaluator, whose references are all of the kept kind, and
admit every word that may be invented for a reference of this kind. -/
structure Setting.Fits (setting : Setting) (evaluator : Evaluator) (σ : Type) [WordSource σ]
    (kept : List Modifier → Prop) : Prop where
  tables : setting.tables = evaluator.tables
  store : evaluator.tables.Keeps kept
  invents : ∀ modifiers, kept modifiers → .markov ∈ modifiers →
    ∀ candidates (source : σ) word rest,
      Name.invent candidates evaluator.names source = some (word, rest) →
      setting.invents candidates word

/-- Expansion keeps to the rules on entries whose references are of the kept kind. -/
def Setting.Expands (setting : Setting) (kept : List Modifier → Prop) (least : Nat)
    (expand : Text → Eval σ Text) : Prop :=
  ∀ value, (parse value).Keeps kept →
    Follows setting.maxDepth least (expand value) (EntryGives setting value)

theorem follows_selectFrom (hfits : setting.Fits evaluator σ kept)
    (hexpand : setting.Expands kept least expand) {ref : Reference} (href : kept ref.modifiers)
    {entries : List Text} (hlist : evaluator.tables.list? ref.path = some entries)
    (hne : ref.candidates entries ≠ []) :
    Follows setting.maxDepth least (evaluator.selectFrom expand ref (ref.candidates entries))
      fun depth text depth' =>
        DrawGives setting ref depth (Modifier.applyAll ref.modifiers text) depth' := by
  have hlist' : setting.tables.list? ref.path = some entries := by rw [hfits.tables, hlist]
  unfold Evaluator.selectFrom
  split
  · next hmarkov =>
    have hmem := List.contains_iff_mem.1 hmarkov
    refine (follows_draw (hfits.invents _ href hmem _)).mono ?_
    rintro depth word depth' ⟨hword, rfl⟩
    exact .invented _ hlist' hne hmem hword
  · next hmarkov =>
    have hmem : .markov ∉ ref.modifiers := fun h => hmarkov (List.contains_iff_mem.2 h)
    intro s text s'' hs hleast h
    obtain ⟨picked, s', hpicked, hrest⟩ := bind_eq_some.1 h
    obtain ⟨source, hchoose, rfl⟩ := draw_eq_some hpicked
    rcases Weighted.chooseText_mem hchoose with ⟨hnil, -⟩ | ⟨entry, hentry, rfl⟩
    · exact absurd hnil hne
    · obtain ⟨hin, hopen⟩ := Reference.mem_candidates.1 hentry
      have hvalue := hfits.store _ _ hlist entry hin
      obtain ⟨hmax, hle, _, depth', rfl, hgives⟩ :=
        ((follows_report evaluator _).bind fun _ => hexpand _ hvalue) { s with source } _ _ hs
          hleast hrest
      exact ⟨hmax, hle, .selected hlist' hin hopen hmem hgives⟩

theorem follows_selectOnce (hfits : setting.Fits evaluator σ kept)
    (hexpand : setting.Expands kept least expand) {ref : Reference} (href : kept ref.modifiers) :
    Follows setting.maxDepth least (evaluator.selectOnce expand ref) (DrawGives setting ref) := by
  unfold Evaluator.selectOnce
  split
  · next hlist =>
    rw [← hfits.tables] at hlist
    refine ((follows_report evaluator _).bind fun _ => follows_pure _).mono ?_
    rintro depth text depth'' ⟨_, depth', rfl, rfl, rfl⟩
    exact .missing _ hlist
  · next entries hlist =>
    dsimp only
    split
    · next hempty =>
      have hall := Reference.candidates_eq_nil_iff.1 (List.isEmpty_iff.1 hempty)
      rw [← hfits.tables] at hlist
      refine ((follows_report evaluator _).bind fun _ => follows_pure _).mono ?_
      rintro depth text depth'' ⟨_, depth', rfl, rfl, rfl⟩
      exact .excluded _ hlist hall
    · next hempty =>
      have hne : ref.candidates entries ≠ [] := fun hnil => hempty (List.isEmpty_iff.2 hnil)
      refine ((follows_selectFrom hfits hexpand href hlist hne).bind
        fun _ => follows_pure _).mono ?_
      rintro depth text depth'' ⟨selected, depth', hgives, rfl, rfl⟩
      exact hgives

theorem follows_repeatReference (hfits : setting.Fits evaluator σ kept)
    (hexpand : setting.Expands kept least expand) {ref : Reference} (href : kept ref.modifiers) :
    Follows setting.maxDepth least (evaluator.repeatReference expand ref)
      (ReferenceGives setting ref) := by
  have honce := follows_selectOnce hfits hexpand href
  refine ((follows_draw fun _ _ _ => Repetition.count_allows).bind fun _ =>
    (follows_times honce _).bind fun _ => follows_pure _).mono ?_
  rintro depth text depth' ⟨count, _, ⟨hcount, rfl⟩, results, _, hresults, rfl, rfl⟩
  exact .drawn hcount hresults

theorem follows_evaluateReference (hfits : setting.Fits evaluator σ kept)
    (hexpand : setting.Expands kept least expand) {ref : Reference} (href : kept ref.modifiers) :
    Follows setting.maxDepth least (evaluator.evaluateReference expand ref)
      (ReferenceGives setting ref) := by
  have hrepeat := follows_repeatReference hfits hexpand href
  unfold Evaluator.evaluateReference
  split
  · next hoptional =>
    intro s text s'' hs hleast h
    obtain ⟨taken, s', htaken, hrest⟩ := bind_eq_some.1 h
    obtain ⟨source, -, rfl⟩ := draw_eq_some htaken
    split at hrest
    · exact hrepeat { s with source } _ _ hs hleast hrest
    · obtain ⟨rfl, rfl⟩ := pure_eq_some.1 hrest
      exact ⟨hs, Nat.le_refl _, .skipped _ hoptional⟩
  · exact hrepeat

/-! ## Trees -/

theorem follows_required (hfits : setting.Fits evaluator σ kept)
    (hexpand : setting.Expands kept least expand) {node : Node} (hkept : node.Keeps kept)
    (h : Follows setting.maxDepth least (evaluator.evaluateNode expand node)
      (NodeGives setting node)) :
    Follows setting.maxDepth least (evaluator.evaluateNode expand node.required)
      (NodeGives setting node.required) := by
  cases node with
  | reference ref =>
    have href : kept ref.required.modifiers := hkept ref List.mem_cons_self
    exact (follows_evaluateReference hfits hexpand href).mono fun _ _ _ => .reference
  | _ => exact h

theorem Node.keeps_cons {node : Node} {rest : List Node}
    (h : ∀ ref ∈ Node.referencesOf (node :: rest), kept ref.modifiers) :
    node.Keeps kept ∧ ∀ ref ∈ Node.referencesOf rest, kept ref.modifiers :=
  ⟨fun ref href => h ref (List.mem_append_left _ href),
    fun ref href => h ref (List.mem_append_right _ href)⟩

mutual

theorem follows_evaluateNode (hfits : setting.Fits evaluator σ kept)
    (hexpand : setting.Expands kept least expand) : ∀ node : Node, node.Keeps kept →
    Follows setting.maxDepth least (evaluator.evaluateNode expand node) (NodeGives setting node)
  | .text value, _ => by
    refine (follows_pure value).mono ?_
    rintro depth text depth' ⟨rfl, rfl⟩
    exact .text _ _
  | .reference ref, hkept =>
    (follows_evaluateReference hfits hexpand (hkept ref List.mem_cons_self)).mono
      fun _ _ _ => .reference
  | .all parts, hkept =>
    (follows_evaluateAll hfits hexpand parts hkept).mono fun _ _ _ => .all
  | .oneOf options, hkept => by
    have hoptions := follows_evaluateAt hfits hexpand options hkept
    simp only [Evaluator.evaluateNode]
    split
    · next hempty =>
      obtain rfl := List.isEmpty_iff.1 hempty
      refine (follows_pure _).mono ?_
      rintro depth text depth' ⟨rfl, rfl⟩
      exact .noOption _
    · next hempty =>
      have hpos : 0 < options.length :=
        List.length_pos_iff.2 fun hnil => hempty (List.isEmpty_iff.2 hnil)
      intro s text s'' hs hleast h
      obtain ⟨place, s', hplace, hrest⟩ := bind_eq_some.1 h
      obtain ⟨source, hindex, rfl⟩ := draw_eq_some hplace
      obtain ⟨hmax, hle, option, hmem, hgives⟩ :=
        hoptions place (Draw.index64_lt hpos hindex) { s with source } _ _ hs hleast hrest
      exact ⟨hmax, hle, .oneOf hmem hgives⟩
  | .group inner, hkept =>
    (follows_evaluateNode hfits hexpand inner hkept).mono fun _ _ _ => .group
  | .number low high, _ => by
    refine (Follows.map_draw fun _ _ _ => Draw.between64_mem ?_).mono ?_
    · rw [UInt64.le_iff_toNat_le, Draw.toNat_min, Draw.toNat_max]
      omega
    · rintro depth text _ ⟨⟨n, ⟨hlow, hhigh⟩, rfl⟩, rfl⟩
      rw [UInt64.le_iff_toNat_le, Draw.toNat_min] at hlow
      rw [UInt64.le_iff_toNat_le, Draw.toNat_max] at hhigh
      exact .number _ hlow hhigh
  | .article, _ => by
    refine (follows_pure _).mono ?_
    rintro depth text depth' ⟨rfl, rfl⟩
    exact .article _
  | .sequence parts, hkept =>
    (follows_evaluateSequence hfits hexpand parts hkept).mono fun _ _ _ => .sequence

theorem follows_evaluateSequence (hfits : setting.Fits evaluator σ kept)
    (hexpand : setting.Expands kept least expand) : ∀ parts : List Node,
    (∀ ref ∈ Node.referencesOf parts, kept ref.modifiers) →
    Follows setting.maxDepth least (evaluator.evaluateSequence expand parts)
      (PartsGive setting parts)
  | [], _ => by
    refine (follows_pure _).mono ?_
    rintro depth text depth' ⟨rfl, rfl⟩
    exact .nil _
  | node :: rest, hkept =>
    have ⟨hnode, hrest⟩ := Node.keeps_cons hkept
    (follows_evaluateNode hfits hexpand node hnode).parts_cons
      (follows_evaluateSequence hfits hexpand rest hrest)

theorem follows_evaluateAll (hfits : setting.Fits evaluator σ kept)
    (hexpand : setting.Expands kept least expand) : ∀ parts : List Node,
    (∀ ref ∈ Node.referencesOf parts, kept ref.modifiers) →
    Follows setting.maxDepth least (evaluator.evaluateAll expand parts)
      (PartsGive setting (parts.map Node.required))
  | [], _ => by
    refine (follows_pure _).mono ?_
    rintro depth text depth' ⟨rfl, rfl⟩
    exact .nil _
  | node :: rest, hkept => by
    obtain ⟨hnode, hrest⟩ := Node.keeps_cons hkept
    rw [Evaluator.evaluateAll_cons]
    have hfirst := follows_evaluateNode hfits hexpand node hnode
    exact (follows_required hfits hexpand hnode hfirst).parts_cons
      (follows_evaluateAll hfits hexpand rest hrest)

theorem follows_evaluateAt (hfits : setting.Fits evaluator σ kept)
    (hexpand : setting.Expands kept least expand) : ∀ options : List Node,
    (∀ ref ∈ Node.referencesOf options, kept ref.modifiers) → ∀ place, place < options.length →
    Follows setting.maxDepth least (evaluator.evaluateAt expand place options)
      fun depth text depth' => ∃ option ∈ options, NodeGives setting option depth text depth'
  | [], _, _, hlt => absurd hlt (Nat.not_lt_zero _)
  | node :: _, hkept, 0, _ =>
    (follows_evaluateNode hfits hexpand node (Node.keeps_cons hkept).1).mono
      fun _ _ _ h => ⟨node, List.mem_cons_self, h⟩
  | _ :: rest, hkept, place + 1, hlt =>
    (follows_evaluateAt hfits hexpand rest (Node.keeps_cons hkept).2 place
      (Nat.lt_of_succ_lt_succ hlt)).mono
      fun _ _ _ ⟨option, hmem, h⟩ => ⟨option, List.mem_cons_of_mem _ hmem, h⟩

end

/-! ## Entries -/

omit [WordSource σ] in
theorem follows_expandBy {resolve : Text → Eval σ Text} {value : Text}
    (hresolve : IsTemplate value → ∀ s text s', s.maxDepth = setting.maxDepth → least ≤ s.depth →
      s.depth < s.maxDepth → resolve value s = some (text, s') →
      s'.maxDepth = setting.maxDepth ∧ s.depth ≤ s'.depth ∧
        EntryGives setting value s.depth text s'.depth) :
    Follows setting.maxDepth least (Evaluator.expandBy evaluator.leaveUnresolved resolve value)
      (EntryGives setting value) := by
  intro s text s' hs hleast h
  cases hliteral : literal? value with
  | some inner =>
    rw [Evaluator.expandBy_literal hliteral] at h
    obtain ⟨rfl, rfl⟩ := pure_eq_some.1 h
    exact ⟨hs, Nat.le_refl _, .literal _ hliteral⟩
  | none =>
    by_cases hsigil : hasSigil value
    · rw [Evaluator.expandBy_template ⟨hliteral, hsigil⟩] at h
      have hopens := hasSigil_iff.1 hsigil
      split at h
      · next hspent =>
        rw [Evaluator.leaveUnresolved_apply] at h
        obtain ⟨rfl, rfl⟩ := Prod.mk.inj (Option.some.inj h)
        simp only [Evaluator.reported_maxDepth, Evaluator.reported_depth]
        exact ⟨hs, Nat.le_refl _, .unresolved hliteral hopens (hs ▸ hspent)⟩
      · next hleft => exact hresolve ⟨hliteral, hsigil⟩ s text s' hs hleast (by omega) h
    · rw [Evaluator.expandBy_plain hliteral hsigil] at h
      obtain ⟨rfl, rfl⟩ := pure_eq_some.1 h
      rw [hasSigil_iff, not_or] at hsigil
      exact ⟨hs, Nat.le_refl _, .plain _ hliteral hsigil.1 hsigil.2⟩

theorem follows_expandWithin (hfits : setting.Fits evaluator σ kept) :
    ∀ room least, setting.maxDepth ≤ least + room →
      setting.Expands kept least (evaluator.expandWithin room : Text → Eval σ Text) := by
  intro room
  induction room with
  | zero =>
    intro least hroom value _
    -- Without room the budget is spent, so no template is resolved.
    refine follows_expandBy fun _ s text s' hs hleast hleft _ => ?_
    omega
  | succ room ih =>
    intro least hroom value hkept
    unfold Evaluator.expandWithin Evaluator.expandWith
    refine follows_expandBy fun htemplate s text s' hs hleast hleft h => ?_
    obtain ⟨_, _, hspend, hrest⟩ := bind_eq_some.1 h
    obtain ⟨rfl, rfl⟩ := Prod.mk.inj (Option.some.inj hspend)
    obtain ⟨hmax, hle, hgives⟩ :=
      follows_evaluateNode hfits (ih (least + 1) (by omega)) (parse value) hkept
        { s with depth := s.depth + 1 } text s' hs (Nat.succ_le_succ hleast) hrest
    exact ⟨hmax, Nat.le_of_succ_le hle,
      .resolved htemplate.1 (hasSigil_iff.1 htemplate.2) (hs ▸ hleft) hgives⟩

/-! ## Whole evaluations -/

end

end RandomTables
