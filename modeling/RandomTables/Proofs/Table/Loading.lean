import RandomTables.Engine.Setup
import RandomTables.Proofs.Table.Grouping
import Mathlib.Data.List.Basic

/-! # Loading in groups

The documents of a file are merged, the files of a folder, and what is found under some paths. So the
tables that are loaded are those of the documents, merged in groups.
-/

namespace RandomTables

namespace Loaded

open Store (Grouped Uninterrupted mergeAll)

/-! ## Documents -/

/-- The tables of a document. An empty one adds none; any other that is no mapping cannot be loaded. -/
def tables? : Option Yaml.Value → Option Store
  | some .null => some .empty
  | some (.mapping entries) => some (Store.withEntries .empty entries).1
  | _ => none

/-- What comes of loading some documents on top of some stores: a failure exactly if one of them cannot
be loaded. -/
inductive Gathers (before : List Store) (documents : List (Option Yaml.Value)) :
    Except LoadError Loaded → Prop where
  | ok {loaded : Loaded} {stores : List Store} :
      documents.mapM tables? = some stores → Grouped (before ++ stores) loaded.store →
      Gathers before documents (.ok loaded)
  | error (error : LoadError) :
      documents.mapM tables? = none → Gathers before documents (.error error)

namespace Gathers

variable {before stores : List Store} {documents more : List (Option Yaml.Value)}
  {outcome outcome' : Except LoadError Loaded}

theorem append (hstores : documents.mapM tables? = some stores)
    (h : Gathers (before ++ stores) more outcome) : Gathers before (documents ++ more) outcome := by
  cases h with
  | @ok loaded stores' hmore hgrouped =>
    have hall : (documents ++ more).mapM tables? = some (stores ++ stores') := by
      simp [List.mapM_append, hstores, hmore]
    exact .ok hall (by rwa [← List.append_assoc])
  | error error hmore =>
    refine .error error ?_
    simp [List.mapM_append, hstores, hmore]

theorem nil {loaded : Loaded} (h : Grouped before loaded.store) : Gathers before [] (.ok loaded) :=
  .ok List.mapM_nil (by simpa using h)

theorem failed (error : LoadError) (hdocuments : documents.mapM tables? = none)
    (more : List (Option Yaml.Value)) : Gathers before (documents ++ more) (.error error) := by
  refine .error error ?_
  simp [List.mapM_append, hdocuments]

theorem store_eq (h : Gathers before documents outcome) (h' : Gathers before documents outcome')
    (hstores : ∀ stores, documents.mapM tables? = some stores →
      (before ++ stores).Triplewise Uninterrupted) :
    outcome.toOption.map Loaded.store = outcome'.toOption.map Loaded.store := by
  cases h with
  | @ok loaded stores hsome hgrouped =>
    cases h' with
    | @ok loaded' stores' hsome' hgrouped' =>
      obtain rfl : stores = stores' := Option.some.inj (hsome.symm.trans hsome')
      have hstore := hgrouped.eq_mergeAll (hstores stores hsome)
      have hstore' := hgrouped'.eq_mergeAll (hstores stores hsome)
      simp [Except.toOption, hstore, hstore']
    | error error hnone => simp [hnone] at hsome
  | error error hnone =>
    cases h' with
    | ok hsome _ => simp [hnone] at hsome
    | error error' _ => rfl

end Gathers

theorem gathers_addDocuments {before : List Store} {loaded : Loaded}
    (h : Grouped before loaded.store) (index : Nat) (documents : List (Option Yaml.Value)) :
    Gathers before documents (addDocuments loaded index documents) := by
  fun_induction addDocuments loaded index documents generalizing before with
  | case1 loaded index => exact .nil h
  | case2 loaded index rest => exact .error _ (by simp [tables?])
  | case3 loaded index rest ih =>
    have hdocument : [some Yaml.Value.null].mapM tables? = some [.empty] := rfl
    exact .append hdocument (ih (h.merge (.one .empty)))
  | case4 loaded index entries rest store trace hentries ih =>
    have hstore : (Store.withEntries .empty entries).1 = store := by rw [hentries]
    have hdocument : [some (Yaml.Value.mapping entries)].mapM tables? = some [store] := by
      simp [tables?, hstore]
    exact .append hdocument (ih (h.merge (.one store)))
  | case5 loaded index value rest hnull hmapping =>
    refine .error _ ?_
    have hnone : tables? (some value) = none := by
      cases value with
      | null => exact (hnull rfl).elim
      | mapping entries => exact (hmapping entries rfl).elim
      | _ => rfl
    simp [hnone]

theorem gathers_ofText (t : Text) : Gathers [] (Yaml.documents t) (ofText t) :=
  gathers_addDocuments .none 0 _

/-! ## Files -/

theorem gathers_addFiles {before : List Store} {loaded : Loaded} (h : Grouped before loaded.store)
    (files : List (List Text × Text)) :
    Gathers before (files.flatMap fun file => Yaml.documents file.2) (addFiles loaded files) := by
  induction files generalizing before loaded with
  | nil => exact .nil h
  | cons file rest ih =>
    obtain ⟨path, content⟩ := file
    have hcontent := gathers_ofText content
    rw [List.flatMap_cons, addFiles]
    cases hfile : ofText content with
    | error error =>
      rw [hfile] at hcontent
      cases hcontent with
      | error _ hnone => exact .failed error hnone _
    | ok file =>
      rw [hfile] at hcontent
      cases hcontent with
      | ok hstores hgrouped => exact .append hstores (ih (h.merge hgrouped))

theorem tableFiles_of_sorted {tree : FileTree} (htables : ∀ file ∈ tree.files, isTableFile file.1)
    (hsorted : tree.files.Pairwise fun a b => !(b.1 < a.1 : Bool)) :
    tableFiles tree = tree.files := by
  rw [tableFiles, List.filter_eq_self.2 htables, List.mergeSort_of_pairwise hsorted]

/-- The documents of a file, or of the files with tables in a folder. -/
def documentsIn : FileTree → List (Option Yaml.Value)
  | .file content => Yaml.documents content
  | .folder entries => (tableFiles (.folder entries)).flatMap fun file => Yaml.documents file.2

theorem gathers_ofPath {files found : FileTree} {path : Text} (h : files.find path = .ok found) :
    Gathers [] (documentsIn found) (ofPath files path) := by
  rw [ofPath, h]
  cases found with
  | file content => exact gathers_ofText content
  | folder entries => exact gathers_addFiles .none _

end Loaded

/-! ## Paths -/

namespace Setup

open Store (Grouped Uninterrupted)

/-- The documents that are found under some paths; none if there is nothing under one of them. -/
def documentsAt? (files : FileTree) : List Text → Option (List (Option Yaml.Value))
  | [] => some []
  | path :: paths =>
    match files.find path with
    | .ok found => (documentsAt? files paths).map (Loaded.documentsIn found ++ ·)
    | .error _ => none

theorem gathers_loadAll {files : FileTree} {before : List Store} {loaded : Loaded}
    (h : Grouped before loaded.store) {paths : List Text} {documents : List (Option Yaml.Value)}
    (hdocuments : documentsAt? files paths = some documents) :
    Loaded.Gathers before documents (loadAll files loaded paths) := by
  induction paths generalizing before loaded documents with
  | nil =>
    cases hdocuments
    exact .nil h
  | cons path paths ih =>
    rw [documentsAt?] at hdocuments
    split at hdocuments
    · next found hfound =>
      obtain ⟨more, hmore, rfl⟩ := Option.map_eq_some_iff.1 hdocuments
      have hpath := Loaded.gathers_ofPath hfound
      rw [loadAll]
      cases hload : Loaded.ofPath files path with
      | error error =>
        rw [hload] at hpath
        cases hpath with
        | error _ hnone => exact .failed error hnone more
      | ok loaded' =>
        rw [hload] at hpath
        cases hpath with
        | ok hstores hgrouped => exact .append hstores (ih (h.merge hgrouped) hmore)
    · cases hdocuments

theorem loadAll_of_missing {files : FileTree} {loaded : Loaded} {paths : List Text}
    (h : documentsAt? files paths = none) : (loadAll files loaded paths).toOption = none := by
  induction paths generalizing loaded with
  | nil => cases h
  | cons path paths ih =>
    rw [documentsAt?] at h
    rw [loadAll]
    split at h
    · cases hload : Loaded.ofPath files path with
      | error error => rfl
      | ok loaded' => exact ih (by simpa using h)
    · next error hfound =>
      rw [Loaded.ofPath, hfound]
      rfl

/-- Merging from the left and from the right agree exactly where no value is interrupted. Where none of
the given tables and the documents is, the same documents give the same tables, in whatever files and
folders they are found. -/
theorem merge_in_groups :
    (∀ a b c : Store, (a.merge b).merge c = a.merge (b.merge c) ↔ Uninterrupted a b c) ∧
    ∀ (given : Store) (files files' : FileTree) (paths paths' : List Text),
      documentsAt? files paths = documentsAt? files' paths' →
      (∀ documents stores, documentsAt? files paths = some documents →
        documents.mapM Loaded.tables? = some stores →
        (given :: stores).Triplewise Uninterrupted) →
      (loadAll files { store := given } paths).toOption.map Loaded.store =
        (loadAll files' { store := given } paths').toOption.map Loaded.store := by
  refine ⟨Store.merge_assoc_iff, fun given files files' paths paths' hsame huninterrupted => ?_⟩
  cases hdocuments : documentsAt? files paths with
  | none => rw [loadAll_of_missing hdocuments, loadAll_of_missing (hsame ▸ hdocuments)]
  | some documents =>
    have hload : Loaded.Gathers [given] documents (loadAll files { store := given } paths) :=
      gathers_loadAll (.one given) hdocuments
    have hload' : Loaded.Gathers [given] documents (loadAll files' { store := given } paths') :=
      gathers_loadAll (.one given) (hsame ▸ hdocuments)
    exact hload.store_eq hload' fun stores => huninterrupted documents stores hdocuments

/-- Given tables whose only value is a scalar, which is never interrupted. -/
def rainy : Store := .ofList [("weather".toList, .scalar "rain".toList)]

theorem uninterrupted_rainy (b c : Store) : Uninterrupted rainy b c := by
  refine Value.uninterrupted_map.2 fun key x y z hx _ _ => ?_
  obtain rfl : x = .scalar "rain".toList := by
    replace hx : [("weather".toList, Value.scalar "rain".toList)].lookup key = some x := hx
    rw [Value.lookup_cons] at hx
    split at hx
    · exact (Option.some.inj hx).symm
    · cases hx
  have hnot : ¬ ((Value.scalar "rain".toList).IsMap ∧ y.IsMap ∧ z.IsMap) := fun hmaps => hmaps.1
  exact (Value.uninterrupted_iff_of_not_isMap hnot).2 fun hinterrupted => hinterrupted.1

def bears : Text := "beast: [bear]\nweather: snow\n".toList

def wolves : Text := "beast: [wolf]\n".toList

/-- A folder with two files. -/
def forest : FileTree :=
  .folder [("data".toList, .folder [("bears.yaml".toList, .file bears),
    ("wolves.yml".toList, .file wolves)])]

theorem merge_in_groups_forest :
    documentsAt? forest ["data".toList] =
        documentsAt? forest ["data/bears.yaml".toList, "data/wolves.yml".toList] ∧
      (loadAll forest { store := rainy } ["data".toList]).toOption.map Loaded.store =
        (loadAll forest { store := rainy }
          ["data/bears.yaml".toList, "data/wolves.yml".toList]).toOption.map Loaded.store ∧
      (loadAll forest { store := rainy }
          ["data/bears.yaml".toList, "data/wolves.yml".toList]).toOption.bind
        (·.store.list? "beast".toList) = some ["bear".toList, "wolf".toList] := by
  have hfiles : Loaded.tableFiles (.folder [("bears.yaml".toList, .file bears),
      ("wolves.yml".toList, .file wolves)]) =
        [(["bears.yaml".toList], bears), (["wolves.yml".toList], wolves)] :=
    Loaded.tableFiles_of_sorted (by decide) (by decide)
  have hfolder : documentsAt? forest ["data".toList] =
      some (Yaml.documents bears ++ Yaml.documents wolves) := by
    show some (((Loaded.tableFiles _).flatMap _) ++ []) = _
    rw [hfiles]
    simp
  have hpaths : documentsAt? forest ["data/bears.yaml".toList, "data/wolves.yml".toList] =
      some (Yaml.documents bears ++ Yaml.documents wolves) := by
    show some (Yaml.documents bears ++ (Yaml.documents wolves ++ [])) = _
    simp
  refine ⟨hfolder.trans hpaths.symm, ?_, by decide +kernel⟩
  refine merge_in_groups.2 rainy forest forest _ _ (hfolder.trans hpaths.symm) ?_
  intro documents stores hdocuments hstores
  obtain rfl := Option.some.inj (hfolder.symm.trans hdocuments)
  have hlength : (Yaml.documents bears ++ Yaml.documents wolves).length = 2 := by decide +kernel
  obtain ⟨first, second, hboth⟩ := List.length_eq_two.1 hlength
  rw [hboth] at hstores
  obtain ⟨a, -, b, -, rfl⟩ : ∃ a, Loaded.tables? first = some a ∧
      ∃ b, Loaded.tables? second = some b ∧ [a, b] = stores := by
    simpa [Option.bind_eq_some_iff] using hstores
  exact List.triplewise_triple.2 (uninterrupted_rainy a b)

/-! ## Values that are interrupted -/

/-- A store with one table. -/
def beast (table : Table) : Store := .ofList [("beast".toList, table)]

/-- A folder of files with numbers for names. -/
def numbered (contents : List Text) : FileTree :=
  .folder (contents.zipIdx.map fun (content, place) =>
    (Text.ofNat place ++ ".yaml".toList, .file content))

/-- What the files of a folder hold under `beast`. -/
def beastsIn (contents : List Text) : Option (List Text) :=
  (Loaded.ofFolder (numbered contents)).toOption.bind (·.store.list? "beast".toList)

/-- A scalar takes the place of a list, unless it is itself replaced by another list before: the two
lists are then joined. -/
theorem merge_in_groups_differ :
    ((beast (.list ["bear".toList])).merge (beast (.scalar "lion".toList))).merge
        (beast (.list ["wolf".toList])) ≠
      (beast (.list ["bear".toList])).merge
        ((beast (.scalar "lion".toList)).merge (beast (.list ["wolf".toList]))) ∧
    beastsIn ["beast: [bear]".toList, "beast: lion\n---\nbeast: [wolf]".toList] =
      some ["bear".toList, "wolf".toList] ∧
    beastsIn ["beast: [bear]".toList, "beast: lion".toList, "beast: [wolf]".toList] =
      some ["wolf".toList] := by
  refine ⟨fun heq => ?_, ?_, ?_⟩
  · have hlist := congrArg (fun store => Store.list? store "beast".toList) heq
    revert hlist
    decide
  · have hfiles : Loaded.tableFiles
        (numbered ["beast: [bear]".toList, "beast: lion\n---\nbeast: [wolf]".toList]) =
          [(["0.yaml".toList], "beast: [bear]".toList),
            (["1.yaml".toList], "beast: lion\n---\nbeast: [wolf]".toList)] :=
      Loaded.tableFiles_of_sorted (by decide) (by decide)
    rw [beastsIn, Loaded.ofFolder, hfiles]
    decide +kernel
  · have hfiles : Loaded.tableFiles
        (numbered ["beast: [bear]".toList, "beast: lion".toList, "beast: [wolf]".toList]) =
          [(["0.yaml".toList], "beast: [bear]".toList), (["1.yaml".toList], "beast: lion".toList),
            (["2.yaml".toList], "beast: [wolf]".toList)] :=
      Loaded.tableFiles_of_sorted (by decide) (by decide)
    rw [beastsIn, Loaded.ofFolder, hfiles]
    decide +kernel

end Setup

end RandomTables
