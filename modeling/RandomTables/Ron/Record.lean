import RandomTables.Ron.Ignored

/-! # Records -/

namespace RandomTables.Ron

/-! ## Attributes -/

/-- Reads these marks in order, with white space behind each. -/
def marks? : List String → Text → Option Text
  | [], t => some t
  | mark :: marks, t => do marks? marks (← skip? (← Text.dropStart? mark.toList t))

def extensionNames : List String := ["unwrap_newtypes", "implicit_some", "unwrap_variant_newtypes"]

/-- Reads the names of extensions, separated by commas. -/
def extensions? : (fuel : Nat) → Reader (List Text)
  | 0, _ => none
  | fuel + 1, t => do
    let (name, t) ← name? t
    if !extensionNames.any (·.toList == name) then none
    else do
      let (comma, t) ← comma? t
      if t.head?.any isNameChar then
        if comma then do
          let (names, t) ← extensions? fuel t
          return (name :: names, t)
        else none
      else return ([name], t)

/-- Reads the attributes at the start of a text, which name the extensions in use. -/
def attributes? : (fuel : Nat) → Reader (List Text)
  | 0, _ => none
  | fuel + 1, t =>
    if t.head? == '#' then do
      let t ← marks? ["#", "!", "[", "enable", "("] t
      let (names, t) ← extensions? (t.length + 1) t
      let t ← marks? [")", "]"] (← skip? t)
      let (more, t) ← attributes? fuel t
      return (names ++ more, t)
    else some ([], t)

/-! ## Fields -/

/-- How a record reads its fields: with the extensions in use, from the fields before, by name. -/
abbrev FieldReader (α : Type) := (extensions : List Text) → (before : α) → (name : Text) → Reader α

/-- Groups and elements may be 128 levels deep, and a field of a record is at level 2. -/
def fieldRoom : Nat := 126

/-- Drops the value of a field. -/
def ignoredField? {α : Type} : FieldReader α := fun extensions before _ t =>
  let implicit := extensions.contains "implicit_some".toList
  (ignored? implicit fieldRoom t).map fun (_, rest) => (before, rest)

/-- Reads a text that holds one record, which may start with its name. -/
def record? {α : Type} (recordName : Text) (field : FieldReader α) (start : α) (t : Text) :
    Option α := do
  let (extensions, t) ← attributes? (t.length + 1) (← skip? t)
  let t ←
    if t.head?.any isNameChar then do
      let (name, t) ← name? t
      if name == recordName then skip? t else none
    else some t
  match t with
  | '(' :: t => do
    let (a, t) ← elements? (fun a => entry? name? (field extensions a)) ')' start t
    match ← skip? t with
    | [] => return a
    | _ => none
  | _ => none

end RandomTables.Ron
