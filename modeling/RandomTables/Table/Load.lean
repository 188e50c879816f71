import RandomTables.Decimal.Shortest
import RandomTables.Event
import RandomTables.FileTree
import RandomTables.Table.Store
import RandomTables.Yaml.Value

/-! # Loading tables -/

namespace RandomTables

/-! ## Tables of values -/

/-- The text of a float in a table. -/
def floatText (x : Float) : Text :=
  if x.isNaN then ".nan".toList
  else if x.isInf then (if x < 0 then "-.inf".toList else ".inf".toList)
  else Decimal.shortestText x

/-- The text of a scalar; a collection has none. -/
def Yaml.Value.scalarText? : Yaml.Value → Option Text
  | .null => some []
  | .bool value => some (if value then "true".toList else "false".toList)
  | .int value => some ((if value < 0 then ['-'] else []) ++ Text.ofNat value.natAbs)
  | .float value => some (floatText value)
  | .string value => some value
  | .tagged _ value => value.scalarText?
  | .sequence _ | .mapping _ => none

mutual

/-- The table of a value. Tags do not show. Collections in lists and collections as keys are
skipped, which is reported. -/
def Table.ofYaml : Yaml.Value → Table × List Event
  | .mapping entries =>
    let (store, events) := Store.withEntries .empty entries
    (store.toTable, events)
  | .sequence items =>
    (Table.list (items.filterMap Yaml.Value.scalarText?),
      (items.filter (·.scalarText?.isNone)).map fun _ => .skippedItem)
  | .tagged _ value => Table.ofYaml value
  | .null => (.scalar [], [])
  | .bool value => (.scalar ((Yaml.Value.bool value).scalarText?.getD []), [])
  | .int value => (.scalar ((Yaml.Value.int value).scalarText?.getD []), [])
  | .float value => (.scalar ((Yaml.Value.float value).scalarText?.getD []), [])
  | .string value => (.scalar value, [])

/-- A store with the entries of a mapping added; of two keys with the same text the later stays. -/
def Store.withEntries (store : Store) : List (Yaml.Value × Yaml.Value) → Store × List Event
  | [] => (store, [])
  | (key, value) :: rest =>
    match key.scalarText? with
    | none =>
      let (store, events) := Store.withEntries store rest
      (store, .skippedKey :: events)
    | some name =>
      let (table, events) := Table.ofYaml value
      let (store, more) := Store.withEntries (store.set name table) rest
      (store, events ++ more)

end

/-! ## Texts -/

inductive LoadError where
  | io (error : FileError)
  | yaml
  /-- A document is neither empty nor a mapping. -/
  | invalidRoot (document : Nat)
  deriving DecidableEq

def LoadError.message : LoadError → Text
  | .io error => "IO error: ".toList ++ error.message
  | .yaml => "YAML deserialization error".toList
  | .invalidRoot document =>
    "document ".toList ++ Text.ofNat document ++ " is not a mapping at the top level".toList

/-- What loading gives if it succeeds. -/
structure Loaded where
  store : Store
  trace : List Event := []

namespace Loaded

/-- Merges what is loaded later. -/
def merge (mine theirs : Loaded) : Loaded where
  store := mine.store.merge theirs.store
  trace := mine.trace ++ theirs.trace

/-- Merges documents in order; `index` is the number of the first. -/
def addDocuments (loaded : Loaded) :
    (index : Nat) → List (Option Yaml.Value) → Except LoadError Loaded
  | _, [] => .ok loaded
  | _, none :: _ => .error .yaml
  | index, some .null :: rest => addDocuments loaded (index + 1) rest
  | index, some (.mapping entries) :: rest =>
    let (store, trace) := Store.withEntries .empty entries
    addDocuments (loaded.merge { store, trace }) (index + 1) rest
  | index, some _ :: _ => .error (.invalidRoot index)

/-- Loads every document of a text. -/
def ofText (t : Text) : Except LoadError Loaded :=
  addDocuments { store := .empty } 0 (Yaml.documents t)

/-! ## Files -/

/-- The part of a file name behind its last point, if there is something before the point. -/
def extension? (name : Text) : Option Text :=
  let ending := (name.reverse.takeWhile (· ≠ '.')).reverse
  if ending.length + 1 < name.length then some ending else none

/-- A file with tables is named `*.yaml` or `*.yml`. -/
def isTableFile (path : List Text) : Bool :=
  match path.getLast?.bind extension? with
  | some ending => ending == "yaml".toList || ending == "yml".toList
  | none => false

/-- The files with tables in a tree, in the order of their paths, compared step by step. -/
def tableFiles (tree : FileTree) : List (List Text × Text) :=
  (tree.files.filter fun (path, _) => isTableFile path).mergeSort fun a b => !(b.1 < a.1 : Bool)

/-- Merges files in order, up to the first that fails. -/
def addFiles (loaded : Loaded) : List (List Text × Text) → Except LoadError Loaded
  | [] => .ok loaded
  | (_, content) :: rest =>
    match ofText content with
    | .error error => .error error
    | .ok file => addFiles (loaded.merge { file with trace := .loading :: file.trace }) rest

/-- Loads all files with tables below a folder. -/
def ofFolder (tree : FileTree) : Except LoadError Loaded :=
  addFiles { store := .empty } (tableFiles tree)

/-- Loads the file or the folder under a path. -/
def ofPath (tree : FileTree) (path : Text) : Except LoadError Loaded :=
  match tree.find path with
  | .ok (.folder entries) => ofFolder (.folder entries)
  | .ok (.file content) => ofText content
  | .error error => .error (.io error)

end Loaded

end RandomTables
