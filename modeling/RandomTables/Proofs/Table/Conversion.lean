import RandomTables.Proofs.Table.Grouping
import RandomTables.Proofs.Table.Listing
import RandomTables.Table.Load

/-! # The lists of a document

The sequences of a document become lists of the store. Keys that are different in the document can have
the same text; then the last of their entries takes the place of the others.
-/

namespace RandomTables

open Text (HasDot dotted)

/-! ## Sequences in a document -/

namespace Yaml.Value

/-- The texts of the scalars among some items. -/
def scalarTexts (items : List Value) : List Text := items.filterMap scalarText?

/-- The mapping has an entry of this value under a key with this text. -/
def HasEntry (entries : List (Value × Value)) (name : Text) (value : Value) : Prop :=
  ∃ key, key.scalarText? = some name ∧ (key, value) ∈ entries

/-- The last entry of the mapping under a key with this text has this value. -/
def HasLastEntry (entries : List (Value × Value)) (name : Text) (value : Value) : Prop :=
  ∃ before key after, entries = before ++ (key, value) :: after ∧ key.scalarText? = some name ∧
    ∀ entry ∈ after, entry.1.scalarText? ≠ some name

/-- Keys with these texts lead to a sequence. From a mapping they lead to those of its values that `via`
allows, and tags do not show. -/
inductive Reaches (via : List (Value × Value) → Text → Value → Prop) :
    Value → List Text → List Value → Prop where
  | sequence {items : List Value} : Reaches via (.sequence items) [] items
  | tagged {tag : Text} {value : Value} {keys : List Text} {items : List Value} :
      Reaches via value keys items → Reaches via (.tagged tag value) keys items
  | mapping {entries : List (Value × Value)} {name : Text} {value : Value} {keys : List Text}
      {items : List Value} :
      via entries name value → Reaches via value keys items →
      Reaches via (.mapping entries) (name :: keys) items

theorem Reaches.keys_ne_nil {via : List (Value × Value) → Text → Value → Prop}
    {entries : List (Value × Value)} {keys : List Text} {items : List Value}
    (h : Reaches via (.mapping entries) keys items) : keys ≠ [] := by
  cases h
  exact List.cons_ne_nil _ _

theorem exists_lastEntry (entries : List (Value × Value)) (name : Text) :
    (∃ value, HasLastEntry entries name value) ∨
      ∀ entry ∈ entries, entry.1.scalarText? ≠ some name := by
  induction entries with
  | nil => simp
  | cons entry rest ih =>
    obtain ⟨key, value⟩ := entry
    rcases ih with ⟨last, before, key', after, rfl, hname, hafter⟩ | hnone
    · exact .inl ⟨last, (key, value) :: before, key', after, rfl, hname, hafter⟩
    · by_cases hkey : key.scalarText? = some name
      · exact .inl ⟨value, [], key, rest, rfl, hkey, hnone⟩
      · exact .inr (List.forall_mem_cons.2 ⟨hkey, hnone⟩)

/-! ## Keys with the same text -/

/-- What a value becomes in a table. -/
inductive Form where
  | list
  | map
  | scalar
  deriving DecidableEq

def form : Value → Form
  | .sequence _ => .list
  | .mapping _ => .map
  | .tagged _ value => value.form
  | .null | .bool _ | .int _ | .float _ | .string _ => .scalar

mutual

/-- In every mapping, the values of two entries whose keys have the same text are related. -/
def Clashes (related : Value → Value → Prop) : Value → Prop
  | .mapping entries =>
    entries.Pairwise (fun entry later => ∀ name, entry.1.scalarText? = some name →
      later.1.scalarText? = some name → related entry.2 later.2) ∧ AllClash related entries
  | .tagged _ value => Clashes related value
  | .null | .bool _ | .int _ | .float _ | .string _ | .sequence _ => True

def AllClash (related : Value → Value → Prop) : List (Value × Value) → Prop
  | [] => True
  | (_, value) :: rest => Clashes related value ∧ AllClash related rest

end

/-- No two keys of one mapping have the same text. -/
def KeysDiffer (value : Value) : Prop := Clashes (fun _ _ => False) value

theorem AllClash.of_mem {related : Value → Value → Prop} {entries : List (Value × Value)}
    (h : AllClash related entries) {key value : Value} (hmem : (key, value) ∈ entries) :
    Clashes related value := by
  induction entries with
  | nil => cases hmem
  | cons entry rest ih =>
    obtain ⟨first, held⟩ := entry
    rcases List.mem_cons.1 hmem with heq | hmem
    · cases heq
      exact h.1
    · exact ih h.2 hmem

theorem Reaches.last_of_keysDiffer {value : Value} {keys : List Text} {items : List Value}
    (h : Reaches HasEntry value keys items) (hkeys : KeysDiffer value) :
    Reaches HasLastEntry value keys items := by
  induction h with
  | sequence => exact .sequence
  | tagged _ ih => exact .tagged (ih hkeys)
  | mapping hvia _ ih =>
    obtain ⟨key, hname, hmem⟩ := hvia
    obtain ⟨hpairs, hall⟩ := hkeys
    refine .mapping ?_ (ih (AllClash.of_mem hall hmem))
    -- No later entry has the text of this one, so it is the last of its text.
    obtain ⟨before, after, rfl⟩ := List.append_of_mem hmem
    have hafter := (List.pairwise_cons.1 (List.pairwise_append.1 hpairs).2.1).1
    exact ⟨before, key, after, rfl, hname, fun entry hentry => hafter entry hentry _ hname⟩

end Yaml.Value

open Yaml.Value (scalarTexts HasEntry HasLastEntry Reaches)

/-! ## Entries of a store -/

namespace Store

theorem lookup_set (store : Store) (name : Text) (table : Table) (key : Text) :
    (store.set name table).entries.lookup key =
      if key = name then some table.value else store.entries.lookup key := by
  unfold set
  exact Value.lookup_alter store.ordered.1 key

theorem withEntries_cons (store : Store) (key value : Yaml.Value)
    (rest : List (Yaml.Value × Yaml.Value)) :
    (withEntries store ((key, value) :: rest)).1 =
      (withEntries (key.scalarText?.elim store (store.set · (Table.ofYaml value).1)) rest).1 := by
  rw [withEntries]
  cases key.scalarText? <;> rfl

theorem withEntries_append (store : Store) (before after : List (Yaml.Value × Yaml.Value)) :
    (withEntries store (before ++ after)).1 =
      (withEntries (withEntries store before).1 after).1 := by
  induction before generalizing store with
  | nil => simp [withEntries]
  | cons entry before ih =>
    obtain ⟨key, value⟩ := entry
    rw [List.cons_append, withEntries_cons, withEntries_cons, ih]

theorem lookup_withEntries_of_not_mem {entries : List (Yaml.Value × Yaml.Value)} {name : Text}
    (h : ∀ entry ∈ entries, entry.1.scalarText? ≠ some name) (store : Store) :
    (withEntries store entries).1.entries.lookup name = store.entries.lookup name := by
  induction entries generalizing store with
  | nil => simp [withEntries]
  | cons entry rest ih =>
    obtain ⟨key, value⟩ := entry
    obtain ⟨hkey, hrest⟩ := List.forall_mem_cons.1 h
    rw [withEntries_cons, ih hrest]
    cases htext : key.scalarText? with
    | none => rfl
    | some other =>
      have hne : name ≠ other := by
        rintro rfl
        exact hkey htext
      rw [Option.elim_some, lookup_set, if_neg hne]

theorem lookup_withEntries_last {entries : List (Yaml.Value × Yaml.Value)} {name : Text}
    {value : Yaml.Value} (h : HasLastEntry entries name value) (store : Store) :
    (withEntries store entries).1.entries.lookup name = some (Table.ofYaml value).1.value := by
  obtain ⟨before, key, after, rfl, hname, hafter⟩ := h
  rw [withEntries_append, withEntries_cons, lookup_withEntries_of_not_mem hafter, hname,
    Option.elim_some, lookup_set, if_pos rfl]

theorem lookup_withEntries_iff {entries : List (Yaml.Value × Yaml.Value)} {name : Text}
    {found : Value} :
    (withEntries empty entries).1.entries.lookup name = some found ↔
      ∃ value, HasLastEntry entries name value ∧ found = (Table.ofYaml value).1.value := by
  constructor
  · intro h
    rcases Yaml.Value.exists_lastEntry entries name with ⟨value, hlast⟩ | hnone
    · rw [lookup_withEntries_last hlast] at h
      exact ⟨value, hlast, (Option.some.inj h).symm⟩
    · rw [lookup_withEntries_of_not_mem hnone] at h
      cases h
  · rintro ⟨value, hlast, rfl⟩
    exact lookup_withEntries_last hlast empty

end Store

/-! ## Lists of a store -/

namespace Table

theorem ofYaml_mapping (entries : List (Yaml.Value × Yaml.Value)) :
    (ofYaml (.mapping entries)).1 = (Store.withEntries .empty entries).1.toTable := by
  rw [ofYaml]

theorem descend?_of_reaches {value : Yaml.Value} {keys : List Text} {items : List Yaml.Value}
    (h : Reaches HasLastEntry value keys items) :
    (ofYaml value).1.value.descend? keys = some (.list (scalarTexts items)) := by
  induction h with
  | sequence => simp [ofYaml, list, Value.descend?, scalarTexts]
  | tagged _ ih => rwa [ofYaml]
  | mapping hvia _ ih =>
    rw [ofYaml_mapping, Store.toTable, Value.descend?, Store.lookup_withEntries_last hvia]
    exact ih

theorem reaches_of_descend? (value : Yaml.Value) (keys items : List Text)
    (h : (ofYaml value).1.value.descend? keys = some (.list items)) :
    ∃ found, Reaches HasLastEntry value keys found ∧ items = scalarTexts found := by
  match value, keys with
  | .tagged tag value, keys =>
    rw [ofYaml] at h
    obtain ⟨found, hfound, hitems⟩ := reaches_of_descend? value keys items h
    exact ⟨found, .tagged hfound, hitems⟩
  | .mapping entries, name :: keys =>
    rw [ofYaml_mapping, Store.toTable, Value.descend?, Option.bind_eq_some_iff] at h
    obtain ⟨below, hbelow, h⟩ := h
    obtain ⟨value, hlast, rfl⟩ := Store.lookup_withEntries_iff.1 hbelow
    obtain ⟨found, hfound, hitems⟩ := reaches_of_descend? value keys items h
    exact ⟨found, .mapping hlast hfound, hitems⟩
  | .sequence held, [] =>
    simp only [ofYaml, list, Value.descend?, Option.some_inj, Value.list.injEq] at h
    exact ⟨held, .sequence, h.symm⟩
  | .mapping entries, [] => simp [ofYaml_mapping, Store.toTable, Value.descend?] at h
  | .sequence held, _ :: _ | .null, [] | .bool _, [] | .int _, [] | .float _, [] | .string _, []
  | .null, _ :: _ | .bool _, _ :: _ | .int _, _ :: _ | .float _, _ :: _ | .string _, _ :: _ =>
    simp [ofYaml, list, scalar, Value.descend?] at h
-- A mapping uses up a key, a tag only makes the value smaller.
termination_by (keys.length, sizeOf value)

end Table

/-! ## Loading a document -/

theorem Store.list?_withEntries {entries : List (Yaml.Value × Yaml.Value)} {path : Text}
    {items : List Text} :
    (withEntries empty entries).1.list? path = some items ↔
      ∃ found, Reaches HasLastEntry (.mapping entries) (path.splitOn '.') found ∧
        items = scalarTexts found := by
  have hvalue : (Table.ofYaml (.mapping entries)).1.value =
      .map (withEntries empty entries).1.entries := by
    rw [Table.ofYaml_mapping, toTable]
  rw [list?_eq_some, raw?, ← hvalue]
  constructor
  · exact Table.reaches_of_descend? _ _ _
  · rintro ⟨found, hfound, rfl⟩
    exact Table.descend?_of_reaches hfound

namespace Loaded

theorem addDocuments_mapping (entries : List (Yaml.Value × Yaml.Value)) :
    ∃ loaded, addDocuments { store := .empty } 0 [some (.mapping entries)] = .ok loaded ∧
      loaded.store = (Store.withEntries .empty entries).1 := by
  refine ⟨_, rfl, ?_⟩
  exact Store.empty_merge _

/-- A document that is a mapping loads. Its lists are the sequences under the last entries with their
keys' texts, each with all its scalars in order. So the scalars of a sequence are kept exactly if they
are among those of the sequence under the last entries, and all of them are where no two keys of a
mapping have the same text. -/
theorem document_lists (entries : List (Yaml.Value × Yaml.Value)) :
    ∃ loaded, addDocuments { store := .empty } 0 [some (.mapping entries)] = .ok loaded ∧
      (∀ path items, loaded.store.list? path = some items ↔
        ∃ found, Reaches HasLastEntry (.mapping entries) (path.splitOn '.') found ∧
          items = scalarTexts found) ∧
      ∀ keys found, Reaches HasEntry (.mapping entries) keys found →
        (∀ key ∈ keys, ¬ HasDot key) →
        ((∃ items, loaded.store.list? (dotted keys) = some items ∧
            (scalarTexts found).Sublist items) ↔
          ∃ last, Reaches HasLastEntry (.mapping entries) keys last ∧
            (scalarTexts found).Sublist (scalarTexts last)) ∧
        (Yaml.Value.KeysDiffer (.mapping entries) →
          loaded.store.list? (dotted keys) = some (scalarTexts found)) := by
  obtain ⟨loaded, hloaded, hstore⟩ := addDocuments_mapping entries
  have hlists (path : Text) (items : List Text) : loaded.store.list? path = some items ↔
      ∃ found, Reaches HasLastEntry (.mapping entries) (path.splitOn '.') found ∧
        items = scalarTexts found := by
    rw [hstore]
    exact Store.list?_withEntries
  refine ⟨loaded, hloaded, hlists, ?_⟩
  intro keys found hfound hdots
  have hsplit := Text.splitOn_dotted hfound.keys_ne_nil hdots
  simp only [hlists, hsplit]
  constructor
  · constructor
    · rintro ⟨_, ⟨last, hlast, rfl⟩, hsub⟩
      exact ⟨last, hlast, hsub⟩
    · rintro ⟨last, hlast, hsub⟩
      exact ⟨_, ⟨last, hlast, rfl⟩, hsub⟩
  · intro hkeys
    exact ⟨found, hfound.last_of_keysDiffer hkeys, rfl⟩

/-- Nested mappings, a number for a key, and a tagged sequence with a collection in it. -/
def menagerie : List (Yaml.Value × Yaml.Value) :=
  [(.string "beast".toList, .mapping [(.int 1, .tagged "!tame".toList
    (.sequence [.string "bear".toList, .sequence [], .int 7, .null]))])]

theorem document_lists_menagerie :
    Yaml.Value.KeysDiffer (.mapping menagerie) ∧
      ∃ loaded, addDocuments { store := .empty } 0 [some (.mapping menagerie)] = .ok loaded ∧
        loaded.store.list? "beast.1".toList = some ["bear".toList, "7".toList, []] := by
  have hdiffer : Yaml.Value.KeysDiffer (.mapping menagerie) := by
    simp [Yaml.Value.KeysDiffer, menagerie, Yaml.Value.Clashes, Yaml.Value.AllClash]
  have hreaches : Reaches HasEntry (.mapping menagerie) ["beast".toList, "1".toList]
      [.string "bear".toList, .sequence [], .int 7, .null] :=
    .mapping ⟨_, rfl, List.mem_cons_self⟩ (.mapping ⟨_, rfl, List.mem_cons_self⟩
      (.tagged .sequence))
  have hdots : ∀ key ∈ ["beast".toList, "1".toList], ¬ HasDot key := by decide
  obtain ⟨loaded, hloaded, -, hlists⟩ := document_lists menagerie
  exact ⟨hdiffer, loaded, hloaded, (hlists _ _ hreaches hdots).2 hdiffer⟩

/-- A number and a quoted number with the same text, each with a list. -/
def numbers : List (Yaml.Value × Yaml.Value) :=
  [(.int 1, .sequence [.string "bear".toList]),
    (.string "1".toList, .sequence [.string "wolf".toList])]

/-- Two keys with the same text have lists both, and the list of the first is lost. -/
theorem document_overwrites :
    Yaml.Value.Clashes (fun a b => a.form = b.form) (.mapping numbers) ∧
      Reaches HasEntry (.mapping numbers) ["1".toList] [.string "bear".toList] ∧
      (∀ key ∈ ["1".toList], ¬ HasDot key) ∧
      (∃ loaded, addDocuments { store := .empty } 0 [some (.mapping numbers)] = .ok loaded ∧
        loaded.store.list? (dotted ["1".toList]) = some ["wolf".toList]) ∧
      ¬ (scalarTexts [.string "bear".toList]).Sublist ["wolf".toList] ∧
      (ofText "1: [bear]\n\"1\": [wolf]\n".toList).toOption.bind
        (·.store.list? (dotted ["1".toList])) = some ["wolf".toList] := by
  refine ⟨?_, .mapping ⟨_, rfl, List.mem_cons_self⟩ .sequence, by decide, ⟨_, rfl, ?_⟩, ?_, ?_⟩
  · simp [Yaml.Value.Clashes, Yaml.Value.AllClash, numbers, Yaml.Value.form]
  · decide
  · decide
  · decide +kernel

end Loaded

end RandomTables
