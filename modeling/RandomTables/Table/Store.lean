import RandomTables.Table.Value

/-! # The table store -/

namespace RandomTables

/-! ## Tables -/

/-- A value whose maps are in order. -/
structure Table where
  value : Value
  ordered : value.Ordered

namespace Table

def list (items : List Text) : Table := ⟨.list items, trivial⟩

def scalar (text : Text) : Table := ⟨.scalar text, trivial⟩

/-- The empty map. -/
def empty : Table := ⟨.map [], by simp [Value.Ordered, Value.KeysAscend, Value.AllOrdered]⟩

end Table

/-! ## Stores -/

/-- The root of the table data: a map from names to values. -/
structure Store where
  entries : List (Text × Value)
  ordered : (Value.map entries).Ordered

namespace Store

def empty : Store := ⟨[], Table.empty.ordered⟩

/-- Puts a value under a name, in place of what was there. -/
def set (store : Store) (name : Text) (table : Table) : Store where
  entries := Value.alter name (fun _ => table.value) store.entries
  ordered := ⟨Value.keysAscend_alter store.ordered.1,
    Value.allOrdered_alter store.ordered.2 table.ordered fun _ _ => table.ordered⟩

/-- The store of some named tables; of two tables with one name the later stays. -/
def ofList (tables : List (Text × Table)) : Store :=
  tables.foldl (fun store (name, table) => store.set name table) empty

def toTable (store : Store) : Table := ⟨.map store.entries, store.ordered⟩

/-- Merges another store into this one; the later value wins where two do not merge. -/
def merge (mine theirs : Store) : Store where
  entries := Value.mergeEntries mine.entries theirs.entries
  ordered := Value.ordered_mergeEntries _ _ mine.ordered theirs.ordered

/-- Adds a table, merged with the one of the same name. -/
def insert (store : Store) (name : Text) (table : Table) : Store :=
  store.merge (ofList [(name, table)])

/-! ## Looking up -/

/-- The value at a dotted path. -/
def raw? (store : Store) (path : Text) : Option Value :=
  (Value.map store.entries).descend? (path.splitOn '.')

/-- The list at a dotted path. -/
def list? (store : Store) (path : Text) : Option (List Text) := (store.raw? path).bind Value.items?

def names (store : Store) : List Text := store.entries.map Prod.fst

/-- Every list with its dotted path, in the order of keys. -/
def lists (store : Store) : List (Text × List Text) :=
  store.entries.flatMap fun (name, value) => value.lists name

end Store

end RandomTables
