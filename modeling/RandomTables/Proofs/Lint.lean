import RandomTables.Evaluator
import RandomTables.Lint
import RandomTables.Proofs.Template.Paths

/-! # What the linter reports

The errors of a store are those of its lists, and these are those of their entries and one for a list
that only leads back to itself. A reference to no list is among them unless its entry is not searched.
-/

namespace RandomTables.Lint

/-! ## Findings -/

theorem Findings.errors_append (first second : Findings) :
    (first ++ second).errors = first.errors ++ second.errors := rfl

theorem Findings.errors_concat (all : List Findings) : (concat all).errors = all.flatMap (·.errors) := by
  have hfold (first : Findings) : (all.foldl Findings.append first).errors =
      first.errors ++ all.flatMap (·.errors) := by
    induction all generalizing first with
    | nil => simp
    | cons found all ih => simp [ih, Findings.append]
  exact hfold {}

variable {tables : Store} {problem : Problem}

theorem mem_errors_ofToken_iff {place : Place} {token : Token} :
    problem ∈ (ofToken tables place token).errors ↔
      tables.list? token.reference.path = none ∧
        problem = .missingTable place token.reference.path := by
  unfold ofToken
  split
  · next hnone => simp [hnone]
  · next entries hsome =>
    rw [hsome]
    split <;> simp

theorem mem_errors_ofTemplate_iff {place : Place} {template : Text} :
    problem ∈ (ofTemplate tables place template).errors ↔
      isQuoted template = false ∧
        ((∃ found ∈ issues template, problem = .issue place found) ∨
          ∃ token ∈ tokens template, tables.list? token.reference.path = none ∧
            problem = .missingTable place token.reference.path) := by
  unfold ofTemplate
  split
  · next hquoted => simp [hquoted]
  · next hquoted =>
    have hsearched : isQuoted template = false := by simpa using hquoted
    rw [Findings.errors_append, Findings.errors_concat, List.mem_append, List.mem_map, List.flatMap_map,
      List.mem_flatMap]
    simp only [mem_errors_ofToken_iff, hsearched, true_and, eq_comm]

theorem mem_errors_ofList_iff {name : Text} {entries : List Text} :
    problem ∈ (ofList tables name entries).errors ↔
      (∃ index entry, entries[index]? = some entry ∧
        problem ∈ (ofTemplate tables (.entry name index) (Weighted.strip entry)).errors) ∨
      (entries ≠ [] ∧ (∀ entry ∈ entries, refersTo name entry) ∧ problem = .onlyRecursive name) := by
  unfold ofList
  split
  · next hempty => simp [List.isEmpty_iff.1 hempty]
  · next hempty =>
    have hne : entries ≠ [] := by simpa using hempty
    rw [Findings.errors_append, Findings.errors_append, Findings.errors_concat, List.mem_append,
      List.nil_append, List.mem_flatMap]
    refine or_congr ⟨?_, ?_⟩ ?_
    · rintro ⟨found, hfound, hmem⟩
      obtain ⟨index, hindex, rfl⟩ := List.mem_mapIdx.1 hfound
      exact ⟨index, entries[index], List.getElem?_eq_getElem hindex, hmem⟩
    · rintro ⟨index, entry, hentry, hmem⟩
      obtain ⟨hindex, rfl⟩ := List.getElem?_eq_some_iff.1 hentry
      exact ⟨_, List.mem_mapIdx.2 ⟨index, hindex, rfl⟩, hmem⟩
    · dsimp only
      split
      · next hall =>
        rw [List.mem_singleton]
        exact ⟨fun h => ⟨hne, List.all_eq_true.1 hall, h⟩, fun h => h.2.2⟩
      · next hall =>
        have hsome : ¬ ∀ entry ∈ entries, refersTo name entry := fun h => hall (List.all_eq_true.2 h)
        simp [hsome]

theorem mem_errors_ofTables_iff :
    problem ∈ (ofTables tables).errors ↔
      ∃ list ∈ tables.lists, problem ∈ (ofList tables list.1 list.2).errors := by
  rw [ofTables, Findings.errors_concat, List.flatMap_map, List.mem_flatMap]

/-! ## References to no list -/

/-- The problem is one of this template and tells the path. -/
def Problem.Names (place : Place) (path : Text) : Problem → Prop
  | .missingTable place' path' => place' = place ∧ path' = path
  | .issue place' (.nestedReference raw) => place' = place ∧ path <:+: raw
  | _ => False

theorem of_names_mem_ofList {name path : Text} {entries : List Text} {index : Nat} {entry : Text}
    (hentry : entries[index]? = some entry) (hnames : problem.Names (.entry name index) path)
    (h : problem ∈ (ofList tables name entries).errors) :
    problem ∈ (ofTemplate tables (.entry name index) (Weighted.strip entry)).errors := by
  rcases mem_errors_ofList_iff.1 h with ⟨index', entry', hentry', hmem⟩ | ⟨-, -, rfl⟩
  · have hplace : Place.entry name index' = .entry name index := by
      obtain ⟨-, ⟨found, -, rfl⟩ | ⟨token, -, -, rfl⟩⟩ := mem_errors_ofTemplate_iff.1 hmem
      · cases found with
        | nestedReference raw => exact hnames.1
        | _ => exact hnames.elim
      · exact hnames.1
    cases hplace
    rw [hentry, Option.some_inj] at hentry'
    rwa [hentry']
  · exact hnames.elim

/-- A path in the tree of an entry that leads to no list is named by an error of that entry, exactly
if the entry does not open with a quote; and all errors of a list are errors of the store. -/
theorem dangling_named_iff {name : Text} {entries : List Text}
    (hlist : (name, entries) ∈ tables.lists) {index : Nat} {entry : Text}
    (hentry : entries[index]? = some entry)
    (hapart : Token.ClausesApart (Weighted.strip entry)) {ref : Reference}
    (href : ref ∈ (parse (Weighted.strip entry)).references)
    (hdangling : tables.list? ref.path = none) :
    ((∃ problem ∈ (ofList tables name entries).errors, problem.Names (.entry name index) ref.path) ↔
      isQuoted (Weighted.strip entry) = false) ∧
    (ofList tables name entries).errors ⊆ (ofTables tables).errors := by
  refine ⟨⟨?_, fun hsearched => ?_⟩, fun problem hproblem => ?_⟩
  · rintro ⟨problem, hproblem, hnames⟩
    exact (mem_errors_ofTemplate_iff.1 (of_names_mem_ofList hentry hnames hproblem)).1
  · have hreport {problem : Problem} (hmem : problem ∈
        (ofTemplate tables (.entry name index) (Weighted.strip entry)).errors) :
        problem ∈ (ofList tables name entries).errors :=
      mem_errors_ofList_iff.2 (.inl ⟨index, entry, hentry, hmem⟩)
    rcases path_of_mem_references hapart href with ⟨token, htoken, hpath⟩ | ⟨raw, hraw, hpart⟩
    · rw [← hpath] at hdangling ⊢
      exact ⟨_, hreport (mem_errors_ofTemplate_iff.2
        ⟨hsearched, .inr ⟨token, htoken, hdangling, rfl⟩⟩), rfl, rfl⟩
    · exact ⟨_, hreport (mem_errors_ofTemplate_iff.2
        ⟨hsearched, .inl ⟨_, hraw, rfl⟩⟩), rfl, hpart⟩
  · exact mem_errors_ofTables_iff.2 ⟨(name, entries), hlist, hproblem⟩

/-- Clause marks in prose, and a reference with clauses of its own before another one. -/
def haunted : Text := "[t]*\x7b[ghost]?|[t]\x7d".toList

theorem dangling_named_ghost :
    let entry := haunted ++ " ^2".toList
    let tables := Store.ofList [("t".toList, .list [entry])]
    (("t".toList, [entry]) ∈ tables.lists ∧ Token.ClausesApart haunted ∧
      tables.list? "ghost".toList = none) ∧
    ∃ problem ∈ (ofTables tables).errors, problem.Names (.entry "t".toList 0) "ghost".toList := by
  intro entry tables
  have hlist : ("t".toList, [entry]) ∈ tables.lists := by decide
  have hstrip : Weighted.strip entry = haunted := by decide +kernel
  have hapart : Token.ClausesApart haunted := by decide +kernel
  have hdangling : tables.list? "ghost".toList = none := by decide
  have href : ({ path := "ghost".toList, isOptional := true } : Reference) ∈
      (parse (Weighted.strip entry)).references := by
    decide +kernel
  have hentry : [entry][0]? = some entry := rfl
  obtain ⟨hnamed, hall⟩ := dangling_named_iff hlist hentry (hstrip ▸ hapart) href hdangling
  obtain ⟨problem, hproblem, hnames⟩ := hnamed.2 (by decide)
  exact ⟨⟨hlist, hapart, hdangling⟩, problem, hall hproblem, hnames⟩

/-- An entry that opens with an apostrophe is a template if none closes it, and nothing is reported. -/
theorem dangling_unsearched :
    let entry := "'tis [ghost]".toList
    let tables := Store.ofList [("t".toList, .list [entry])]
    ("t".toList, [entry]) ∈ tables.lists ∧ literal? (Weighted.strip entry) = none ∧
      (parse (Weighted.strip entry)).references = [{ path := "ghost".toList }] ∧
      tables.list? "ghost".toList = none ∧ (ofTables tables).errors = [] := by
  decide +kernel

end RandomTables.Lint
