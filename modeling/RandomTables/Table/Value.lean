import RandomTables.Text.Basic

/-! # Table values

The data that templates select from: lists of raw entries in nested maps. The keys of a map ascend
by code points.
-/

namespace RandomTables

inductive Value where
  | list (items : List Text)
  | map (entries : List (Text × Value))
  | scalar (text : Text)

namespace Value

def items? : Value → Option (List Text)
  | .list items => some items
  | _ => none

/-- The value at the end of a path of keys. -/
def descend? : List Text → Value → Option Value
  | [], value => some value
  | key :: keys, .map entries => (entries.lookup key).bind (descend? keys)
  | _ :: _, _ => none

/-! ## Changing one key -/

/-- Changes the value under a key, or adds the key at its place. -/
def alter (key : Text) (change : Option Value → Value) :
    List (Text × Value) → List (Text × Value)
  | [] => [(key, change none)]
  | (k, value) :: rest =>
    if key < k then (key, change none) :: (k, value) :: rest
    else if key = k then (k, change (some value)) :: rest
    else (k, value) :: alter key change rest

/-! ## Merging -/

mutual

/-- Lists are concatenated and maps merged key by key; in any other case the later value wins. -/
def merge : (mine theirs : Value) → Value
  | .list mine, .list theirs => .list (mine ++ theirs)
  | .map mine, .map theirs => .map (mergeEntries mine theirs)
  | _, theirs => theirs

def mergeEntries : (mine theirs : List (Text × Value)) → List (Text × Value)
  | mine, [] => mine
  | mine, (key, theirs) :: rest =>
    mergeEntries
      (alter key (fun | some value => merge value theirs | none => theirs) mine) rest

end

/-! ## Listing -/

mutual

/-- Every list below a value, with the dotted path that leads to it from `path`. -/
def lists (path : Text) : Value → List (Text × List Text)
  | .list items => [(path, items)]
  | .map entries => listsBelow path entries
  | .scalar _ => []

def listsBelow (path : Text) : List (Text × Value) → List (Text × List Text)
  | [] => []
  | (key, value) :: rest => lists (path ++ '.' :: key) value ++ listsBelow path rest

end

/-! ## The order of keys -/

def KeysAscend (entries : List (Text × Value)) : Prop :=
  (entries.map Prod.fst).Pairwise (· < ·)

mutual

/-- In the maps of this value, at every depth, the keys ascend. -/
def Ordered : Value → Prop
  | .list _ => True
  | .map entries => KeysAscend entries ∧ AllOrdered entries
  | .scalar _ => True

def AllOrdered : List (Text × Value) → Prop
  | [] => True
  | (_, value) :: rest => Ordered value ∧ AllOrdered rest

end

theorem text_lt_of_not {a b : Text} (hlt : ¬ a < b) (hne : a ≠ b) : b < a := by
  rcases List.le_iff_lt_or_eq.1 (List.not_lt.1 hlt) with h | h
  · exact h
  · exact absurd h.symm hne

theorem mem_keys_alter {key k : Text} {change : Option Value → Value}
    {entries : List (Text × Value)} (h : k ∈ (alter key change entries).map Prod.fst) :
    k = key ∨ k ∈ entries.map Prod.fst := by
  induction entries with
  | nil => simpa [alter] using h
  | cons entry rest ih =>
    obtain ⟨k', value⟩ := entry
    simp only [alter] at h
    split at h
    · simpa using h
    · split at h
      · exact .inr (by simpa using h)
      · rcases List.mem_cons.1 h with rfl | h
        · simp
        · rcases ih h with rfl | h
          · exact .inl rfl
          · exact .inr (List.mem_cons_of_mem _ h)

theorem keysAscend_alter {key : Text} {change : Option Value → Value}
    {entries : List (Text × Value)} (h : KeysAscend entries) :
    KeysAscend (alter key change entries) := by
  induction entries with
  | nil => simp [KeysAscend, alter]
  | cons entry rest ih =>
    obtain ⟨k, value⟩ := entry
    obtain ⟨hk, hrest⟩ := List.pairwise_cons.1 h
    simp only [alter]
    split
    · next hlt =>
      refine List.pairwise_cons.2 ⟨fun k' hk' => ?_, h⟩
      rcases List.mem_cons.1 hk' with rfl | hk'
      · exact hlt
      · exact List.lt_trans hlt (hk k' hk')
    · next hlt =>
      split
      · exact List.pairwise_cons.2 ⟨hk, hrest⟩
      · next hne =>
        refine List.pairwise_cons.2 ⟨fun k' hk' => ?_, ih hrest⟩
        rcases mem_keys_alter hk' with rfl | hk'
        · exact text_lt_of_not hlt hne
        · exact hk k' hk'

theorem allOrdered_alter {key : Text} {change : Option Value → Value}
    {entries : List (Text × Value)} (h : AllOrdered entries)
    (hnone : Ordered (change none)) (hsome : ∀ value, Ordered value → Ordered (change (some value))) :
    AllOrdered (alter key change entries) := by
  induction entries with
  | nil => exact ⟨hnone, trivial⟩
  | cons entry rest ih =>
    obtain ⟨k, value⟩ := entry
    obtain ⟨hvalue, hrest⟩ := h
    simp only [alter]
    split
    · exact ⟨hnone, hvalue, hrest⟩
    · split
      · exact ⟨hsome value hvalue, hrest⟩
      · exact ⟨hvalue, ih hrest⟩

mutual

theorem ordered_merge : ∀ (mine theirs : Value), Ordered mine → Ordered theirs →
    Ordered (merge mine theirs)
  | .list _, .list _, _, _ => trivial
  | .map mine, .map theirs, hmine, htheirs => ordered_mergeEntries mine theirs hmine htheirs
  | .list _, .map _, _, h | .list _, .scalar _, _, h | .map _, .list _, _, h
  | .map _, .scalar _, _, h | .scalar _, .list _, _, h | .scalar _, .map _, _, h
  | .scalar _, .scalar _, _, h => h

theorem ordered_mergeEntries : ∀ (mine theirs : List (Text × Value)), Ordered (.map mine) →
    Ordered (.map theirs) → Ordered (.map (mergeEntries mine theirs))
  | _, [], hmine, _ => hmine
  | _, (_, theirs) :: rest, hmine, htheirs =>
    ordered_mergeEntries _ rest
      ⟨keysAscend_alter hmine.1,
        allOrdered_alter hmine.2 htheirs.2.1 fun value h => ordered_merge value theirs h htheirs.2.1⟩
      ⟨(List.pairwise_cons.1 htheirs.1).2, htheirs.2.2⟩

end

end Value

end RandomTables
