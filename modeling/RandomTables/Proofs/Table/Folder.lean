import Mathlib.Data.List.Nodup
import Mathlib.Data.List.TakeWhile
import RandomTables.Proofs.Table.Grouping
import RandomTables.Table.Load

/-! # Loading a folder

The files of a folder are found in the order in which its entries are listed, and merged in the order of
their paths. So the order of the listing does not matter.
-/

namespace RandomTables

/-! ## Trees -/

namespace FileTree

mutual

/-- No folder has two entries of one name. -/
def NamesDiffer : FileTree → Prop
  | .file _ => True
  | .folder entries => (entries.map Prod.fst).Nodup ∧ AllNamesDiffer entries

def AllNamesDiffer : List (Text × FileTree) → Prop
  | [] => True
  | (_, tree) :: rest => NamesDiffer tree ∧ AllNamesDiffer rest

end

/-- The same tree, with the entries of any of its folders listed in another order. -/
inductive Relisted : FileTree → FileTree → Prop where
  | refl (tree : FileTree) : Relisted tree tree
  | trans {a b c : FileTree} : Relisted a b → Relisted b c → Relisted a c
  | listing {entries entries' : List (Text × FileTree)} :
      entries.Perm entries' → Relisted (.folder entries) (.folder entries')
  | inside (before after : List (Text × FileTree)) {name : Text} {tree tree' : FileTree} :
      Relisted tree tree' →
      Relisted (.folder (before ++ (name, tree) :: after)) (.folder (before ++ (name, tree') :: after))

/-- A file with this content is found by these steps. -/
inductive HasFile : FileTree → List Text → Text → Prop where
  | file {content : Text} : HasFile (.file content) [] content
  | folder {entries : List (Text × FileTree)} {name content : Text} {tree : FileTree}
      {path : List Text} :
      (name, tree) ∈ entries → HasFile tree path content →
      HasFile (.folder entries) (name :: path) content

theorem filesIn_eq_flatMap (path : List Text) (entries : List (Text × FileTree)) :
    filesIn path entries = entries.flatMap fun entry => filesFrom (path ++ [entry.1]) entry.2 := by
  induction entries with
  | nil => rfl
  | cons entry rest ih =>
    obtain ⟨name, tree⟩ := entry
    rw [filesIn, ih, List.flatMap_cons]

theorem filesFrom_perm {tree tree' : FileTree} (h : Relisted tree tree') (path : List Text) :
    (filesFrom path tree).Perm (filesFrom path tree') := by
  induction h generalizing path with
  | refl => exact .refl _
  | trans _ _ ih ih' => exact (ih path).trans (ih' path)
  | listing hperm =>
    rw [filesFrom, filesFrom, filesIn_eq_flatMap, filesIn_eq_flatMap]
    exact hperm.flatMap_right _
  | @inside before after name tree tree' _ ih =>
    simp only [filesFrom, filesIn_eq_flatMap, List.flatMap_append, List.flatMap_cons]
    exact ((ih _).append_right _).append_left _

mutual

theorem mem_filesFrom_iff : ∀ (tree : FileTree) (path : List Text) (found : List Text)
    (content : Text), (found, content) ∈ filesFrom path tree ↔
      ∃ steps, found = path ++ steps ∧ HasFile tree steps content
  | .file held, path, found, content => by
    rw [filesFrom, List.mem_singleton, Prod.mk.injEq]
    constructor
    · rintro ⟨rfl, rfl⟩
      exact ⟨[], by simp, .file⟩
    · rintro ⟨_, rfl, ⟨⟩⟩
      simp
  | .folder entries, path, found, content => by
    rw [filesFrom, mem_filesIn_iff entries]
    constructor
    · rintro ⟨name, tree, steps, hmem, rfl, hfile⟩
      exact ⟨name :: steps, rfl, .folder hmem hfile⟩
    · rintro ⟨_, rfl, hfile⟩
      cases hfile with
      | folder hmem hfile => exact ⟨_, _, _, hmem, rfl, hfile⟩

theorem mem_filesIn_iff : ∀ (entries : List (Text × FileTree)) (path : List Text)
    (found : List Text) (content : Text), (found, content) ∈ filesIn path entries ↔
      ∃ name tree steps, (name, tree) ∈ entries ∧ found = path ++ name :: steps ∧
        HasFile tree steps content
  | [], path, found, content => by simp [filesIn]
  | (name, tree) :: rest, path, found, content => by
    rw [filesIn, List.mem_append, mem_filesFrom_iff tree, mem_filesIn_iff rest]
    constructor
    · rintro (⟨steps, rfl, hfile⟩ | ⟨name', tree', steps, hmem, rfl, hfile⟩)
      · exact ⟨name, tree, steps, List.mem_cons_self, by simp, hfile⟩
      · exact ⟨name', tree', steps, List.mem_cons_of_mem _ hmem, rfl, hfile⟩
    · rintro ⟨name', tree', steps, hmem, rfl, hfile⟩
      rcases List.mem_cons.1 hmem with heq | hmem
      · cases heq
        exact .inl ⟨steps, by simp, hfile⟩
      · exact .inr ⟨name', tree', steps, hmem, rfl, hfile⟩

end

mutual

theorem nodup_filesFrom : ∀ (tree : FileTree) (path : List Text), tree.NamesDiffer →
    ((filesFrom path tree).map Prod.fst).Nodup
  | .file content, path, _ => by simp [filesFrom]
  | .folder entries, path, h => nodup_filesIn entries path h.1 h.2

theorem nodup_filesIn : ∀ (entries : List (Text × FileTree)) (path : List Text),
    (entries.map Prod.fst).Nodup → AllNamesDiffer entries →
    ((filesIn path entries).map Prod.fst).Nodup
  | [], path, _, _ => by simp [filesIn]
  | (name, tree) :: rest, path, hnames, hall => by
    obtain ⟨hname, hrest⟩ := List.nodup_cons.1 hnames
    rw [filesIn, List.map_append]
    refine List.nodup_append.2
      ⟨nodup_filesFrom tree _ hall.1, nodup_filesIn rest path hrest hall.2, ?_⟩
    -- A path found twice would put two entries of one listing under one name.
    intro found hfound found' hfound' heq
    subst heq
    obtain ⟨⟨_, content⟩, hmem, rfl⟩ := List.mem_map.1 hfound
    obtain ⟨⟨_, content'⟩, hmem', hsame⟩ := List.mem_map.1 hfound'
    obtain ⟨steps, rfl, -⟩ := (mem_filesFrom_iff tree _ _ _).1 hmem
    obtain ⟨name', tree', steps', hentry, rfl, -⟩ := (mem_filesIn_iff rest _ _ _).1 hmem'
    simp only [List.append_assoc, List.singleton_append, List.append_cancel_left_eq,
      List.cons.injEq] at hsame
    have hsecond : name ∈ rest.map Prod.fst := hsame.1 ▸ List.mem_map_of_mem hentry
    exact hname hsecond

end

end FileTree

open FileTree (NamesDiffer Relisted HasFile)

/-! ## Files with tables -/

namespace Loaded

theorem extension?_eq_some_iff {name ending : Text} :
    extension? name = some ending ↔
      ∃ stem, stem ≠ [] ∧ '.' ∉ ending ∧ name = stem ++ '.' :: ending := by
  unfold extension?
  constructor
  · intro h
    dsimp only at h
    split at h
    · next hlength =>
      obtain rfl := Option.some.inj h
      have hsplit : name.reverse.takeWhile (· ≠ '.') ++ name.reverse.dropWhile (· ≠ '.') =
          name.reverse := List.takeWhile_append_dropWhile
      have hpoint := List.head?_dropWhile_not (· ≠ '.') name.reverse
      have hdot : '.' ∉ name.reverse.takeWhile (· ≠ '.') := fun hmem => by
        simpa using List.mem_takeWhile_imp hmem
      generalize name.reverse.takeWhile (· ≠ '.') = ending at hlength hsplit hdot ⊢
      have hcount := congrArg List.length hsplit
      simp only [List.length_append, List.length_reverse] at hlength hcount
      cases hrest : name.reverse.dropWhile (· ≠ '.') with
      | nil =>
        rw [hrest] at hcount
        simp only [List.length_nil] at hcount
        omega
      | cons c stem =>
        rw [hrest] at hcount hsplit hpoint
        obtain rfl : c = '.' := by simpa using hpoint
        refine ⟨stem.reverse, ?_, by simpa using hdot, ?_⟩
        · rintro hstem
          simp only [List.reverse_eq_nil_iff.1 hstem, List.length_cons, List.length_nil] at hcount
          omega
        · rw [← List.reverse_reverse name, ← hsplit]
          simp
    · cases h
  · rintro ⟨stem, hstem, hdot, rfl⟩
    have hrun : ∀ c ∈ ending.reverse, decide (c ≠ '.') := by
      intro c hc
      rw [decide_eq_true_iff]
      rintro rfl
      exact hdot (List.mem_reverse.1 hc)
    have hstop : ∀ c ∈ ('.' :: stem.reverse).head?, ¬ decide (c ≠ '.') := by simp
    have htake := (Text.takeWhile_append_stop hrun hstop).1
    have hpos := List.length_pos_of_ne_nil hstem
    simp only [List.reverse_append, List.reverse_cons, List.append_assoc, List.singleton_append,
      htake, List.reverse_reverse, List.length_append, List.length_cons]
    rw [if_pos (by omega)]

theorem isTableFile_iff {path : List Text} :
    isTableFile path ↔ ∃ above stem, stem ≠ [] ∧
      (path = above ++ [stem ++ ".yaml".toList] ∨ path = above ++ [stem ++ ".yml".toList]) := by
  constructor
  · intro h
    unfold isTableFile at h
    split at h
    · next ending hending =>
      obtain ⟨name, hname, hext⟩ := Option.bind_eq_some_iff.1 hending
      obtain ⟨above, rfl⟩ := List.getLast?_eq_some_iff.1 hname
      obtain ⟨stem, hstem, -, rfl⟩ := extension?_eq_some_iff.1 hext
      refine ⟨above, stem, hstem, ?_⟩
      rw [Bool.or_eq_true, beq_iff_eq, beq_iff_eq] at h
      rcases h with rfl | rfl
      · exact .inl rfl
      · exact .inr rfl
    · cases h
  · have hends {ending : Text} (hending : '.' ∉ ending) (above : List Text) {stem : Text}
        (hstem : stem ≠ []) : isTableFile (above ++ [stem ++ '.' :: ending]) =
          (ending == "yaml".toList || ending == "yml".toList) := by
      have hext := extension?_eq_some_iff.2 ⟨stem, hstem, hending, rfl⟩
      simp [isTableFile, hext]
    rintro ⟨above, stem, hstem, rfl | rfl⟩
    · exact hends (by decide : '.' ∉ "yaml".toList) above hstem
    · exact hends (by decide : '.' ∉ "yml".toList) above hstem

theorem tableFiles_perm (tree : FileTree) :
    (tableFiles tree).Perm (tree.files.filter fun file => isTableFile file.1) :=
  List.mergeSort_perm _ _

theorem pairwise_tableFiles {tree : FileTree} (h : (tree.files.map Prod.fst).Nodup) :
    (tableFiles tree).Pairwise fun file later => file.1 < later.1 := by
  have hle (a b : List Text × Text) : (!(b.1 < a.1 : Bool)) ↔ ¬ b.1 < a.1 := by
    rw [Bool.not_eq_true', decide_eq_false_iff_not]
  have hsorted : (tableFiles tree).Pairwise fun file later => ¬ later.1 < file.1 := by
    refine (List.pairwise_mergeSort ?_ ?_ _).imp (hle _ _).1
    · intro a b c
      rw [hle, hle, hle, List.not_lt, List.not_lt, List.not_lt]
      exact List.le_trans
    · intro a b
      rw [Bool.or_eq_true, hle, hle, List.not_lt, List.not_lt]
      exact List.le_total a.1 b.1
  have hnodup : ((tableFiles tree).map Prod.fst).Nodup := by
    have hsub : (tree.files.filter fun file => isTableFile file.1).Sublist tree.files :=
      List.filter_sublist
    exact ((tableFiles_perm tree).map Prod.fst).nodup_iff.2 (h.sublist (hsub.map Prod.fst))
  have hne : (tableFiles tree).Pairwise fun file later => file.1 ≠ later.1 :=
    List.pairwise_map.1 hnodup
  exact (hsorted.and hne).imp fun hboth =>
    (List.le_iff_lt_or_eq.1 (List.not_lt.1 hboth.1)).resolve_right hboth.2

theorem tableFiles_relisted {tree tree' : FileTree} (h : tree.NamesDiffer)
    (hlisted : Relisted tree tree') : tableFiles tree = tableFiles tree' := by
  have hfiles : tree.files.Perm tree'.files := FileTree.filesFrom_perm hlisted []
  have hnodup : (tree.files.map Prod.fst).Nodup := FileTree.nodup_filesFrom tree [] h
  have hnodup' : (tree'.files.map Prod.fst).Nodup := (hfiles.map Prod.fst).nodup_iff.1 hnodup
  apply List.Perm.eq_of_pairwise _ (pairwise_tableFiles hnodup) (pairwise_tableFiles hnodup')
  · exact (tableFiles_perm tree).trans ((hfiles.filter _).trans (tableFiles_perm tree').symm)
  · intro file file' _ _ hlt hgt
    exact absurd (List.lt_trans hlt hgt) (List.lt_irrefl _)

theorem mem_tableFiles_iff {tree : FileTree} {path : List Text} {content : Text} :
    (path, content) ∈ tableFiles tree ↔ HasFile tree path content ∧ isTableFile path := by
  have hfile := FileTree.mem_filesFrom_iff tree [] path content
  simp only [List.nil_append, exists_eq_left'] at hfile
  rw [(tableFiles_perm tree).mem_iff, List.mem_filter, FileTree.files, hfile]

/-! ## Merging files -/

/-- What comes of merging files in order on top of what is loaded: all of them, or the failure of the
first that fails. -/
inductive Adds (loaded : Loaded) (files : List (List Text × Text)) :
    Except LoadError Loaded → Prop where
  | merged (found : List Loaded) :
      files.map (fun file => ofText file.2) = found.map .ok →
      Adds loaded files (.ok {
        store := (found.map Loaded.store).foldl Store.merge loaded.store
        trace := loaded.trace ++ found.flatMap fun file => .loading :: file.trace })
  | failed (before after : List (List Text × Text)) {file : List Text × Text} {error : LoadError} :
      files = before ++ file :: after → (∀ earlier ∈ before, ∃ found, ofText earlier.2 = .ok found) →
      ofText file.2 = .error error → Adds loaded files (.error error)

theorem Adds.cons {loaded found : Loaded} {file : List Text × Text}
    {rest : List (List Text × Text)} {outcome : Except LoadError Loaded}
    (hfile : ofText file.2 = .ok found)
    (h : Adds (loaded.merge { found with trace := .loading :: found.trace }) rest outcome) :
    Adds loaded (file :: rest) outcome := by
  cases h with
  | merged more hmore =>
    have hfound : (file :: rest).map (fun file => ofText file.2) = (found :: more).map .ok := by
      rw [List.map_cons, List.map_cons, hfile, hmore]
    have hmerged : Adds loaded (file :: rest) _ := .merged (found :: more) hfound
    simpa [Loaded.merge] using hmerged
  | @failed before after later error hsplit hbefore hlater =>
    refine .failed (file :: before) after ?_ ?_ hlater
    · rw [hsplit, List.cons_append]
    · exact List.forall_mem_cons.2 ⟨⟨found, hfile⟩, hbefore⟩

theorem adds_addFiles (loaded : Loaded) (files : List (List Text × Text)) :
    Adds loaded files (addFiles loaded files) := by
  induction files generalizing loaded with
  | nil =>
    have hmerged : Adds loaded [] _ := .merged [] rfl
    simpa [addFiles] using hmerged
  | cons file rest ih =>
    obtain ⟨path, content⟩ := file
    rw [addFiles]
    cases hfile : ofText content with
    | error error => exact .failed [] rest rfl (by simp) hfile
    | ok found => exact .cons hfile (ih _)

/-- Loading a folder merges the files in it whose names end in `.yaml` or `.yml`, at any depth, in the
order of their paths compared step by step, up to the first that fails. The order in which the entries
of its folders are listed does not matter. -/
theorem ofFolder_sorted {entries : List (Text × FileTree)}
    (h : (FileTree.folder entries).NamesDiffer) :
    ∃ files : List (List Text × Text),
      files.Pairwise (fun file later => file.1 < later.1) ∧
      (∀ path content, (path, content) ∈ files ↔ HasFile (.folder entries) path content ∧
        ∃ above stem, stem ≠ [] ∧
          (path = above ++ [stem ++ ".yaml".toList] ∨ path = above ++ [stem ++ ".yml".toList])) ∧
      Adds { store := .empty } files (ofFolder (.folder entries)) ∧
      ∀ tree, Relisted (.folder entries) tree → ofFolder tree = ofFolder (.folder entries) := by
  refine ⟨tableFiles (.folder entries), ?_, ?_, adds_addFiles _ _, ?_⟩
  · exact pairwise_tableFiles (FileTree.nodup_filesFrom _ [] h)
  · intro path content
    rw [mem_tableFiles_iff, isTableFile_iff]
  · intro tree hlisted
    unfold ofFolder
    rw [tableFiles_relisted h hlisted]

example : ["a".toList, "z.yml".toList] < ["a.yaml".toList] := by decide

/-- A folder, and a file whose name goes on behind that of the folder. -/
def den : List (Text × FileTree) :=
  [("a.yaml".toList, .file "beast: wolf\n".toList),
    ("a".toList, .folder [("z.yml".toList, .file "beast: bear\n".toList),
      (".yaml".toList, .file "beast: [\n".toList)])]

/-- The same folder, with every listing turned around. -/
def turnedDen : List (Text × FileTree) :=
  [("a".toList, .folder [(".yaml".toList, .file "beast: [\n".toList),
      ("z.yml".toList, .file "beast: bear\n".toList)]),
    ("a.yaml".toList, .file "beast: wolf\n".toList)]

theorem ofFolder_sorted_den :
    (FileTree.folder den).NamesDiffer ∧ Relisted (.folder den) (.folder turnedDen) ∧
      ofFolder (.folder turnedDen) = ofFolder (.folder den) ∧
      ∃ files : List (List Text × Text),
        files.Pairwise (fun file later => file.1 < later.1) ∧
        (["a".toList, "z.yml".toList], "beast: bear\n".toList) ∈ files ∧
        Adds { store := .empty } files (ofFolder (.folder den)) := by
  have hnames : (FileTree.folder den).NamesDiffer := by
    simp [den, NamesDiffer, FileTree.AllNamesDiffer]
  have hlisted : Relisted (.folder den) (.folder turnedDen) :=
    .trans (.listing (List.Perm.swap _ _ _))
      (.inside [] _ (.listing (List.Perm.swap _ _ _)))
  obtain ⟨files, hsorted, hmem, hadds, hsame⟩ := ofFolder_sorted hnames
  refine ⟨hnames, hlisted, hsame _ hlisted, files, hsorted, ?_, hadds⟩
  rw [hmem]
  refine ⟨.folder (List.mem_cons_of_mem _ List.mem_cons_self) (.folder List.mem_cons_self .file), ?_⟩
  exact ⟨["a".toList], "z".toList, by simp, .inr rfl⟩

end Loaded

end RandomTables
