import RandomTables.Proofs.Evaluation.Budget
import RandomTables.Proofs.Evaluation.Soundness
import RandomTables.Proofs.Lint

/-! # Lists that only lead back to themselves

The linter reports a list if each of its entries has a reference to it somewhere, and takes the budget
for lost. It is, where no evaluation of an entry gets around such a reference.
-/

namespace RandomTables

/-! ## References that are always drawn -/

def Repetition.least : Repetition → Nat
  | .fixed count => count.toNat
  | .range low high => min low.toNat high.toNat

theorem Repetition.Allows.least_le {repetition : Repetition} {count : Nat}
    (h : repetition.Allows count) : repetition.least ≤ count := by
  cases repetition with
  | fixed n => exact Nat.le_of_eq h.symm
  | range low high => exact h.1

/-- The reference expands an entry of the table whenever it is taken. -/
def Reference.expands (tables : Store) (table : Text) (ref : Reference) : Bool :=
  ref.path == table && !ref.modifiers.contains .markov && 0 < ref.repetition.least &&
    (tables.list? table).all fun entries => !(ref.candidates entries).isEmpty

theorem Reference.expands_iff {tables : Store} {table : Text} {ref : Reference} :
    ref.expands tables table ↔
      ref.path = table ∧ .markov ∉ ref.modifiers ∧ 0 < ref.repetition.least ∧
        ∀ entries, tables.list? table = some entries → ref.candidates entries ≠ [] := by
  simp [expands, Option.all_eq_true, and_assoc]

namespace Node

mutual

/-- Every evaluation of the tree takes a reference of this kind. -/
def alwaysTakes (p : Reference → Bool) : Node → Bool
  | .reference ref => !ref.isOptional && p ref
  | .all parts => somePart p parts
  | .oneOf options => !options.isEmpty && eachOption p options
  | .group inner => alwaysTakes p inner
  | .sequence parts => someNode p parts
  | .text _ => false
  | .number _ _ => false
  | .article => false

def someNode (p : Reference → Bool) : List Node → Bool
  | [] => false
  | node :: rest => alwaysTakes p node || someNode p rest

/-- A reference that is a part of a conjunction is always taken. -/
def somePart (p : Reference → Bool) : List Node → Bool
  | [] => false
  | .reference ref :: rest => p ref.required || somePart p rest
  | node :: rest => alwaysTakes p node || somePart p rest

def eachOption (p : Reference → Bool) : List Node → Bool
  | [] => true
  | node :: rest => alwaysTakes p node && eachOption p rest

end

theorem someNode_required (p : Reference → Bool) (parts : List Node) :
    someNode p (parts.map required) = somePart p parts := by
  induction parts with
  | nil => rfl
  | cons node rest ih =>
    rw [List.map_cons, someNode, ih]
    cases node <;> rfl

theorem alwaysTakes_of_eachOption {p : Reference → Bool} {options : List Node}
    (h : eachOption p options) : ∀ option ∈ options, option.alwaysTakes p := by
  induction options with
  | nil => exact List.forall_mem_nil _
  | cons node rest ih =>
    rw [eachOption, Bool.and_eq_true] at h
    exact List.forall_mem_cons.2 ⟨h.1, ih h.2⟩

end Node

/-- Every evaluation of the value as an entry expands an entry of the table, as far as the budget
lasts. -/
def LeadsBack (tables : Store) (table value : Text) : Prop :=
  IsTemplate value ∧ (parse value).alwaysTakes (·.expands tables table)

instance (tables : Store) (table value : Text) : Decidable (LeadsBack tables table value) :=
  inferInstanceAs (Decidable (_ ∧ _))

/-! ## What is left of the budget -/

/-- The budget is not given back, and under this condition nothing of it is left. -/
def Setting.Exhausts (setting : Setting) (condition : Prop) (depth depth' : Nat) : Prop :=
  depth ≤ depth' ∧ (condition → setting.maxDepth ≤ depth')

/-- The table is a list whose entries all lead back to it. -/
structure Setting.Returns (setting : Setting) (table : Text) (entries : List Text) : Prop where
  list : setting.tables.list? table = some entries
  entries : ∀ entry ∈ entries, LeadsBack setting.tables table (Weighted.strip entry)

section

variable {setting : Setting} {table : Text} {entries : List Text}

mutual

theorem NodeGives.exhausts (hreturns : setting.Returns table entries) {node : Node}
    {depth depth' : Nat} {text : Text} : NodeGives setting node depth text depth' →
      setting.Exhausts (node.alwaysTakes (·.expands setting.tables table)) depth depth'
  | .text _ _ => ⟨Nat.le_refl _, fun h => by cases h⟩
  | .reference h => by
    obtain ⟨hle, hspent⟩ := ReferenceGives.exhausts hreturns h
    refine ⟨hle, fun htakes => hspent ?_⟩
    simpa [Node.alwaysTakes] using htakes
  | .all h => by
    obtain ⟨hle, hspent⟩ := PartsGive.exhausts hreturns h
    rw [Node.someNode_required] at hspent
    exact ⟨hle, hspent⟩
  | .noOption _ => ⟨Nat.le_refl _, fun h => by cases h⟩
  | .oneOf hmem h => by
    obtain ⟨hle, hspent⟩ := NodeGives.exhausts hreturns h
    refine ⟨hle, fun htakes => hspent ?_⟩
    rw [Node.alwaysTakes, Bool.and_eq_true] at htakes
    exact Node.alwaysTakes_of_eachOption htakes.2 _ hmem
  | .group h => by
    obtain ⟨hle, hspent⟩ := NodeGives.exhausts hreturns h
    exact ⟨hle, hspent⟩
  | .number _ _ _ => ⟨Nat.le_refl _, fun h => by cases h⟩
  | .article _ => ⟨Nat.le_refl _, fun h => by cases h⟩
  | .sequence h => by
    obtain ⟨hle, hspent⟩ := PartsGive.exhausts hreturns h
    exact ⟨hle, hspent⟩

theorem PartsGive.exhausts (hreturns : setting.Returns table entries) {parts : List Node}
    {depth depth' : Nat} {text : Text} : PartsGive setting parts depth text depth' →
      setting.Exhausts (Node.someNode (·.expands setting.tables table) parts) depth depth'
  | .nil _ => ⟨Nat.le_refl _, fun h => by cases h⟩
  | .cons hnode hrest => by
    obtain ⟨hle, hspent⟩ := NodeGives.exhausts hreturns hnode
    obtain ⟨hle', hspent'⟩ := PartsGive.exhausts hreturns hrest
    refine ⟨Nat.le_trans hle hle', fun h => ?_⟩
    rw [Node.someNode, Bool.or_eq_true] at h
    exact h.elim (fun h => Nat.le_trans (hspent h) hle') hspent'

theorem ReferenceGives.exhausts (hreturns : setting.Returns table entries) {ref : Reference}
    {depth depth' : Nat} {text : Text} : ReferenceGives setting ref depth text depth' →
      setting.Exhausts (ref.isOptional = false ∧ ref.expands setting.tables table) depth depth'
  | .skipped _ hoptional => ⟨Nat.le_refl _, fun h => absurd hoptional (by simp [h.1])⟩
  | .drawn hcount h => by
    obtain ⟨hle, hspent⟩ := DrawsGive.exhausts hreturns h
    refine ⟨hle, fun ⟨_, hexpands⟩ => hspent ⟨?_, hexpands⟩⟩
    obtain ⟨-, -, hleast, -⟩ := Reference.expands_iff.1 hexpands
    exact Nat.lt_min.2 ⟨Nat.lt_of_lt_of_le hleast hcount.least_le, by decide⟩

theorem DrawsGive.exhausts (hreturns : setting.Returns table entries) {ref : Reference}
    {count depth depth' : Nat} {results : List Text} :
    DrawsGive setting ref count depth results depth' →
      setting.Exhausts (0 < count ∧ ref.expands setting.tables table) depth depth'
  | .zero _ _ => ⟨Nat.le_refl _, fun h => absurd h.1 (Nat.lt_irrefl 0)⟩
  | .succ hfirst hrest => by
    obtain ⟨hle, hspent⟩ := DrawGives.exhausts hreturns hfirst
    obtain ⟨hle', -⟩ := DrawsGive.exhausts hreturns hrest
    exact ⟨Nat.le_trans hle hle', fun h => Nat.le_trans (hspent h.2) hle'⟩

theorem DrawGives.exhausts (hreturns : setting.Returns table entries) {ref : Reference}
    {depth depth' : Nat} {text : Text} : DrawGives setting ref depth text depth' →
      setting.Exhausts (ref.expands setting.tables table) depth depth'
  | .missing _ hnone => by
    refine ⟨Nat.le_refl _, fun hexpands => ?_⟩
    obtain ⟨rfl, -⟩ := Reference.expands_iff.1 hexpands
    rw [hreturns.list] at hnone
    cases hnone
  | .excluded _ hsome hall => by
    refine ⟨Nat.le_refl _, fun hexpands => ?_⟩
    obtain ⟨rfl, -, -, hcandidates⟩ := Reference.expands_iff.1 hexpands
    exact absurd (Reference.candidates_eq_nil_iff.2 hall) (hcandidates _ hsome)
  | .selected hsome hmem _ _ h => by
    obtain ⟨hle, hspent⟩ := EntryGives.exhausts hreturns h
    refine ⟨hle, fun hexpands => hspent ?_⟩
    obtain ⟨rfl, -⟩ := Reference.expands_iff.1 hexpands
    rw [hreturns.list, Option.some_inj] at hsome
    exact hreturns.entries _ (hsome ▸ hmem)
  | .invented _ _ _ hmarkov _ => by
    refine ⟨Nat.le_refl _, fun hexpands => ?_⟩
    obtain ⟨-, hkept, -⟩ := Reference.expands_iff.1 hexpands
    exact absurd hmarkov hkept

theorem EntryGives.exhausts (hreturns : setting.Returns table entries) {value : Text}
    {depth depth' : Nat} {text : Text} : EntryGives setting value depth text depth' →
      setting.Exhausts (LeadsBack setting.tables table value) depth depth'
  | .literal _ hliteral => ⟨Nat.le_refl _, fun h => by rw [h.1.1] at hliteral; cases hliteral⟩
  | .plain _ _ hsquare hcurly =>
    ⟨Nat.le_refl _, fun h => ((hasSigil_iff.1 h.1.2).elim hsquare hcurly).elim⟩
  | .unresolved _ _ hspent => ⟨Nat.le_refl _, fun _ => hspent⟩
  | .resolved _ _ _ h => by
    obtain ⟨hle, hspent⟩ := NodeGives.exhausts hreturns h
    exact ⟨Nat.le_of_succ_le hle, fun hback => hspent hback.2⟩

end

end

/-! ## Evaluations -/

namespace Evaluator

variable {σ : Type} [WordSource σ] {evaluator : Evaluator} {node : Node} {session : Session σ}

theorem gives_of_evaluate {later : Session σ} {text : Text}
    (h : evaluator.evaluate node session = some (text, later)) :
    later.maxDepth = session.maxDepth ∧
      NodeGives (evaluator.setting σ session.maxDepth) node session.depth text later.depth := by
  have hfits : (evaluator.setting σ session.maxDepth).Fits evaluator σ fun _ => True :=
    ⟨rfl, fun _ _ _ _ _ _ _ => trivial,
      fun _ _ _ _ source _ rest hinvent => ⟨source, rest, hinvent⟩⟩
  have hroom : session.maxDepth ≤ session.depth + (session.maxDepth - session.depth) := by omega
  have hexpand := follows_expandWithin hfits _ session.depth hroom
  obtain ⟨hmax, -, hgives⟩ := follows_evaluateNode hfits hexpand node (fun _ _ => trivial) session
    text later rfl (Nat.le_refl _) h
  exact ⟨hmax, hgives⟩

theorem isSome_evaluate (hdraws : DrawsEnd session.source) :
    (evaluator.evaluate node session).isSome := by
  have hempty : Tallied session.depth session [] := by
    refine ⟨hdraws, ?_, fun place visit h => ?_⟩
    · rw [List.length_nil, Nat.zero_min, Nat.add_zero]
    · cases h
  obtain ⟨text, later, visits, -, hrun, -⟩ := evaluator.recorded_answer hempty (.tree node)
  exact Option.isSome_iff_exists.2 ⟨(text, later), hrun⟩

end Evaluator

namespace Lint

theorem onlyRecursive_mem_errors_iff {tables : Store} {table : Text} :
    .onlyRecursive table ∈ (ofTables tables).errors ↔
      ∃ entries, (table, entries) ∈ tables.lists ∧ entries ≠ [] ∧
        ∀ entry ∈ entries, refersTo table entry := by
  rw [mem_errors_ofTables_iff]
  constructor
  · rintro ⟨⟨name, entries⟩, hlist, hmem⟩
    rcases mem_errors_ofList_iff.1 hmem with ⟨index, entry, -, hentry⟩ | ⟨hne, hall, heq⟩
    · obtain ⟨-, ⟨found, -, heq⟩ | ⟨token, -, -, heq⟩⟩ := mem_errors_ofTemplate_iff.1 hentry
      · cases heq
      · cases heq
    · cases heq
      exact ⟨entries, hlist, hne, hall⟩
  · rintro ⟨entries, hlist, hne, hall⟩
    exact ⟨(table, entries), hlist, mem_errors_ofList_iff.2 (.inr ⟨hne, hall, rfl⟩)⟩

/-- A list is reported if each entry has a token that always refers to it. If such an entry always
leads back to the list, evaluating a reference to it ends with nothing left of the budget, whatever the
budget and the words are. -/
theorem exhausted_of_onlyRecursive {σ : Type} [WordSource σ] (evaluator : Evaluator) {table : Text}
    (hreported : .onlyRecursive table ∈ (ofTables evaluator.tables).errors)
    (hname : ∀ entries, (table, entries) ∈ evaluator.tables.lists →
      evaluator.tables.list? table = some entries)
    (hback : ∀ entries, evaluator.tables.list? table = some entries → ∀ entry ∈ entries,
      refersTo table entry → LeadsBack evaluator.tables table (Weighted.strip entry))
    (maxDepth : Nat) (source : σ) :
    (∀ text later, evaluator.evaluate (.reference { path := table }) { maxDepth, source } =
      some (text, later) → later.exhausted) ∧
    (DrawsEnd source →
      (evaluator.evaluate (.reference { path := table }) { maxDepth, source }).isSome) := by
  obtain ⟨entries, hlisted, hne, hall⟩ := onlyRecursive_mem_errors_iff.1 hreported
  have hlist := hname entries hlisted
  refine ⟨fun text later h => ?_, fun hdraws => Evaluator.isSome_evaluate hdraws⟩
  obtain ⟨hmax, hgives⟩ := Evaluator.gives_of_evaluate h
  have hreturns : (evaluator.setting σ maxDepth).Returns table entries :=
    ⟨hlist, fun entry hentry => hback entries hlist entry hentry (hall entry hentry)⟩
  have hplain : ({ path := table } : Reference).expands evaluator.tables table := by
    refine Reference.expands_iff.2 ⟨rfl, List.not_mem_nil, Nat.one_pos, fun found hfound => ?_⟩
    rw [Evaluator.candidates_bare]
    rw [hlist, Option.some_inj] at hfound
    exact hfound ▸ hne
  rw [Session.exhausted_iff, hmax]
  exact (hgives.exhausts hreturns).2 hplain

def loop : List Text := ["[loop] again".toList, "\x7b[loop*2!owl]|x [loop]\x7d ^3".toList]

theorem exhausted_of_onlyRecursive_loop :
    let evaluator : Evaluator := { tables := .ofList [("loop".toList, .list loop)] }
    .onlyRecursive "loop".toList ∈ (ofTables evaluator.tables).errors ∧
      ∃ text later, evaluator.evaluate (.reference { path := "loop".toList })
        { maxDepth := 4, source := Zeros.zeros } = some (text, later) ∧ later.exhausted := by
  intro evaluator
  have hreported : .onlyRecursive "loop".toList ∈ (ofTables evaluator.tables).errors := by
    decide +kernel
  have hlists : evaluator.tables.lists = [("loop".toList, loop)] := by decide
  have hlist : evaluator.tables.list? "loop".toList = some loop := by decide
  have hback : ∀ entry ∈ loop, LeadsBack evaluator.tables "loop".toList (Weighted.strip entry) := by
    decide +kernel
  have hends := exhausted_of_onlyRecursive evaluator hreported
    (fun entries hmem => by
      rw [hlists, List.mem_singleton] at hmem
      cases hmem
      exact hlist)
    (fun entries hsome entry hentry _ => by
      rw [hlist, Option.some_inj] at hsome
      exact hback entry (hsome ▸ hentry))
    4 Zeros.zeros
  obtain ⟨⟨text, later⟩, hrun⟩ := Option.isSome_iff_exists.1 (hends.2 (drawsEnd_zeros _))
  exact ⟨hreported, text, later, hrun, hends.1 text later hrun⟩

/-- References that are drawn no times, or stand in quotes, count like one that is always taken. -/
theorem onlyRecursive_not_exhausted :
    let tables := Store.ofList [("t".toList, .list ["x [t*0]".toList, "'[t]'".toList])]
    .onlyRecursive "t".toList ∈ (ofTables tables).errors ∧
      (Evaluator.evaluate { tables } (.reference { path := "t".toList })
          { maxDepth := 5, source := Zeros.zeros }).map
        (fun (text, later) => (text, later.exhausted)) = some ("x ".toList, false) := by
  decide +kernel

end Lint

end RandomTables
