import RandomTables.Proofs.Text
import RandomTables.Table.Store

/-! # Merged stores

What a merged store holds at a dotted path, in terms of what the two stores hold at the path and
above it.
-/

namespace RandomTables

namespace Value

/-! ## One key -/

theorem lookup_cons (key k : Text) (value : Value) (rest : List (Text × Value)) :
    ((key, value) :: rest).lookup k = if k = key then some value else rest.lookup k := by
  rw [List.lookup_cons]
  by_cases hk : k = key
  · simp [hk]
  · simp [hk, beq_eq_false_iff_ne.2 hk]

theorem lookup_eq_none_of_forall_lt {key : Text} {entries : List (Text × Value)}
    (h : ∀ k ∈ entries.map Prod.fst, key < k) : entries.lookup key = none := by
  rw [List.lookup_eq_none_iff]
  intro entry hentry
  have hlt := h entry.1 (List.mem_map_of_mem hentry)
  have hne : key ≠ entry.1 := fun heq => List.lt_irrefl _ (heq ▸ hlt)
  simpa using hne

theorem KeysAscend.tail {entry : Text × Value} {rest : List (Text × Value)}
    (h : KeysAscend (entry :: rest)) : KeysAscend rest := (List.pairwise_cons.1 h).2

theorem KeysAscend.lookup_tail {key : Text} {value : Value} {rest : List (Text × Value)}
    (h : KeysAscend ((key, value) :: rest)) : rest.lookup key = none :=
  lookup_eq_none_of_forall_lt (List.pairwise_cons.1 h).1

theorem AllOrdered.lookup {entries : List (Text × Value)} {key : Text} {value : Value}
    (h : AllOrdered entries) (hlookup : entries.lookup key = some value) : value.Ordered := by
  induction entries with
  | nil => cases hlookup
  | cons entry rest ih =>
    obtain ⟨k, first⟩ := entry
    rw [lookup_cons] at hlookup
    split at hlookup
    · obtain rfl := Option.some.inj hlookup
      exact h.1
    · exact ih h.2 hlookup

theorem lookup_alter {key : Text} {change : Option Value → Value} {entries : List (Text × Value)}
    (h : KeysAscend entries) (k : Text) :
    (alter key change entries).lookup k =
      if k = key then some (change (entries.lookup key)) else entries.lookup k := by
  induction entries with
  | nil => simp [alter, lookup_cons]
  | cons entry rest ih =>
    obtain ⟨first, value⟩ := entry
    simp only [alter]
    split
    · next hlt =>
      have hnone : ((first, value) :: rest).lookup key = none := by
        refine lookup_eq_none_of_forall_lt fun other hother => ?_
        rcases List.mem_cons.1 hother with rfl | hother
        · exact hlt
        · exact List.lt_trans hlt ((List.pairwise_cons.1 h).1 other hother)
      rw [lookup_cons, hnone]
    · split
      · next heq =>
        subst heq
        simp only [lookup_cons]
        split <;> simp
      · next hne =>
        simp only [lookup_cons, ih h.tail, if_neg hne]
        -- The new value stands behind the first key, which is another one.
        by_cases hk : k = first
        · rw [if_pos hk, if_pos hk, if_neg (hk ▸ Ne.symm hne)]
        · rw [if_neg hk, if_neg hk]

theorem lookup_mergeEntries {mine theirs : List (Text × Value)} (hmine : KeysAscend mine)
    (htheirs : KeysAscend theirs) (key : Text) :
    (mergeEntries mine theirs).lookup key =
      Option.merge merge (mine.lookup key) (theirs.lookup key) := by
  induction theirs generalizing mine with
  | nil => cases h : mine.lookup key <;> simp [mergeEntries, h]
  | cons entry rest ih =>
    obtain ⟨k, value⟩ := entry
    rw [mergeEntries, ih (keysAscend_alter hmine) htheirs.tail, lookup_alter hmine, lookup_cons]
    by_cases hkey : key = k
    · subst hkey
      rw [if_pos rfl, if_pos rfl, htheirs.lookup_tail]
      cases mine.lookup key <;> rfl
    · rw [if_neg hkey, if_neg hkey]

/-! ## A path of keys -/

def IsMap : Value → Prop
  | .map _ => True
  | .list _ | .scalar _ => False

theorem isMap_iff {value : Value} : value.IsMap ↔ ∃ entries, value = .map entries := by
  cases value <;> simp [IsMap]

/-- A list or a scalar stands where the path of keys goes on. -/
def Blocks (value : Value) (keys : List Text) : Prop :=
  ∃ above below found, keys = above ++ below ∧ below ≠ [] ∧
    value.descend? above = some found ∧ ¬ found.IsMap

theorem blocks_cons_of_not_isMap {value : Value} (h : ¬ value.IsMap) (key : Text)
    (keys : List Text) : value.Blocks (key :: keys) :=
  ⟨[], key :: keys, value, rfl, List.cons_ne_nil _ _, by rw [descend?], h⟩

theorem blocks_map_cons {entries : List (Text × Value)} {key : Text} {keys : List Text} :
    (Value.map entries).Blocks (key :: keys) ↔
      ∃ value, entries.lookup key = some value ∧ value.Blocks keys := by
  constructor
  · rintro ⟨above, below, found, hkeys, hbelow, hfound, hmap⟩
    cases above with
    | nil =>
      rw [descend?] at hfound
      obtain rfl := Option.some.inj hfound
      exact absurd trivial hmap
    | cons first above =>
      obtain ⟨rfl, rfl⟩ := List.cons.inj hkeys
      obtain ⟨value, hvalue, hrest⟩ := Option.bind_eq_some_iff.1 hfound
      exact ⟨value, hvalue, above, below, found, rfl, hbelow, hrest, hmap⟩
  · rintro ⟨value, hvalue, above, below, found, rfl, hbelow, hfound, hmap⟩
    exact ⟨key :: above, below, found, rfl, hbelow,
      Option.bind_eq_some_iff.2 ⟨value, hvalue, hfound⟩, hmap⟩

theorem descend?_of_not_isMap {value : Value} (h : ¬ value.IsMap) (key : Text)
    (keys : List Text) : value.descend? (key :: keys) = none := by
  cases value with
  | map entries => exact absurd trivial h
  | list items => rfl
  | scalar text => rfl

/-- What a path of keys leads to in a merged value, by what it leads to in the two. -/
structure Merged (mine theirs merged : Option Value) (blocked : Prop) : Prop where
  later : ∀ value, theirs = some value →
    merged = some (mine.elim value fun held => held.merge value)
  cut : theirs = none → blocked → merged = none
  kept : theirs = none → ¬ blocked → merged = mine

theorem merged_none (found : Option Value) (blocked : Prop) : Merged none found found blocked :=
  ⟨fun _ h => h, fun h _ => h, fun h _ => h⟩

theorem descend?_merge_of_not_isMap {mine theirs : Value} (h : ¬ (mine.IsMap ∧ theirs.IsMap))
    (key : Text) (keys : List Text) :
    (merge mine theirs).descend? (key :: keys) = theirs.descend? (key :: keys) := by
  cases mine with
  | map entries =>
    cases theirs with
    | map more => exact absurd ⟨trivial, trivial⟩ h
    | _ => rfl
  | list items => cases theirs <;> rfl
  | scalar text => cases theirs <;> rfl

theorem descend?_merge {mine theirs : Value} (hmine : mine.Ordered) (htheirs : theirs.Ordered)
    (keys : List Text) :
    Merged (mine.descend? keys) (theirs.descend? keys) ((merge mine theirs).descend? keys)
      (theirs.Blocks keys) := by
  induction keys generalizing mine theirs with
  | nil =>
    rw [descend?, descend?, descend?]
    refine ⟨?_, nofun, nofun⟩
    rintro value ⟨⟩
    rfl
  | cons key keys ih =>
    by_cases hmaps : mine.IsMap ∧ theirs.IsMap
    · obtain ⟨mine, rfl⟩ := isMap_iff.1 hmaps.1
      obtain ⟨theirs, rfl⟩ := isMap_iff.1 hmaps.2
      rw [merge, blocks_map_cons, descend?, descend?, descend?,
        lookup_mergeEntries hmine.1 htheirs.1]
      -- The key is in both maps, or in one of them, or in none.
      cases ha : mine.lookup key with
      | none =>
        rw [Option.merge_none_left]
        exact merged_none _ _
      | some a =>
        cases hb : theirs.lookup key with
        | none =>
          rw [Option.merge_none_right]
          exact ⟨nofun, fun _ ⟨_, hvalue, _⟩ => (nomatch hvalue), fun _ _ => rfl⟩
        | some b =>
          have hbelow := ih (hmine.2.lookup ha) (htheirs.2.lookup hb)
          simpa using hbelow
    · rw [descend?_merge_of_not_isMap hmaps]
      by_cases htheirsMap : theirs.IsMap
      · have hmineMap : ¬ mine.IsMap := fun hmineMap => hmaps ⟨hmineMap, htheirsMap⟩
        rw [descend?_of_not_isMap hmineMap]
        exact merged_none _ _
      · rw [descend?_of_not_isMap htheirsMap]
        have hblocks := blocks_cons_of_not_isMap htheirsMap key keys
        exact ⟨nofun, fun _ _ => rfl, fun _ hnot => absurd hblocks hnot⟩

/-- Two lists, or two maps. -/
def Alike : Value → Value → Prop
  | .list _, .list _ | .map _, .map _ => True
  | _, _ => False

theorem merge_of_not_alike {mine theirs : Value} (h : ¬ mine.Alike theirs) :
    merge mine theirs = theirs := by
  cases mine with
  | list items =>
    cases theirs with
    | list more => exact absurd trivial h
    | _ => rfl
  | map entries =>
    cases theirs with
    | map more => exact absurd trivial h
    | _ => rfl
  | scalar text => cases theirs <;> rfl

end Value

/-! ## A dotted path -/

namespace Store

/-- Above the path, at one of its dots, the store has a list or a scalar. -/
def Blocks (store : Store) (path : Text) : Prop :=
  ∃ above below found, path = above ++ '.' :: below ∧ store.raw? above = some found ∧ ¬ found.IsMap

theorem blocks_iff {store : Store} {path : Text} :
    store.Blocks path ↔ (Value.map store.entries).Blocks (path.splitOn '.') := by
  constructor
  · rintro ⟨above, below, found, rfl, hfound, hmap⟩
    exact ⟨above.splitOn '.', below.splitOn '.', found, List.splitOn_append_cons_self _ _,
      List.splitOn_ne_nil _ _, hfound, hmap⟩
  · rintro ⟨above, below, found, hkeys, hbelow, hfound, hmap⟩
    have habove : above ≠ [] := by
      rintro rfl
      rw [Value.descend?] at hfound
      obtain rfl := Option.some.inj hfound
      exact hmap trivial
    obtain ⟨before, behind, hpath, hbefore⟩ :=
      Text.exists_of_splitOn_eq_append hkeys habove hbelow
    exact ⟨before, behind, found, hpath, by rw [raw?, hbefore, hfound], hmap⟩

theorem merged_raw? (mine theirs : Store) (path : Text) :
    Value.Merged (mine.raw? path) (theirs.raw? path) ((mine.merge theirs).raw? path)
      (theirs.Blocks path) := by
  rw [blocks_iff]
  have hmerged := Value.descend?_merge mine.ordered theirs.ordered (path.splitOn '.')
  rwa [Value.merge] at hmerged

theorem list?_eq_some {store : Store} {path : Text} {items : List Text} :
    store.list? path = some items ↔ store.raw? path = some (.list items) := by
  unfold list?
  cases store.raw? path with
  | none => simp
  | some value => cases value <;> simp [Value.items?]

/-- Lists are joined, maps merged, and any other value of the later store wins. Where the later store
has a list or a scalar above the path, nothing stays below it; else the path leads where it led. -/
theorem raw?_merge (mine theirs : Store) (path : Text) :
    (∀ xs ys, mine.list? path = some xs → theirs.list? path = some ys →
      (mine.merge theirs).list? path = some (xs ++ ys)) ∧
    (∀ xs ys, mine.raw? path = some (.map xs) → theirs.raw? path = some (.map ys) →
      (mine.merge theirs).raw? path = some (.map (Value.mergeEntries xs ys))) ∧
    (∀ value, theirs.raw? path = some value →
      (∀ held, mine.raw? path = some held → ¬ held.Alike value) →
      (mine.merge theirs).raw? path = some value) ∧
    (theirs.raw? path = none → theirs.Blocks path → (mine.merge theirs).raw? path = none) ∧
    (theirs.raw? path = none → ¬ theirs.Blocks path →
      (mine.merge theirs).raw? path = mine.raw? path) := by
  have hmerged := mine.merged_raw? theirs path
  refine ⟨fun xs ys hxs hys => ?_, fun xs ys hxs hys => ?_, fun value hvalue halike => ?_,
    hmerged.cut, hmerged.kept⟩
  · rw [list?_eq_some] at hxs hys ⊢
    rw [hmerged.later _ hys, hxs]
    rfl
  · rw [hmerged.later _ hys, hxs]
    rfl
  · rw [hmerged.later _ hvalue]
    cases hmine : mine.raw? path with
    | none => rfl
    | some held =>
      rw [Option.elim_some, Value.merge_of_not_alike (halike held hmine)]

/-- A list, a scalar, and a map with a map in it. -/
def beasts : Store :=
  ofList [("beast".toList, (ofList [
      ("bear".toList, (ofList [("cub".toList, .list ["brown cub".toList])]).toTable),
      ("wolf".toList, .list ["grey wolf".toList])]).toTable),
    ("weather".toList, .scalar "rain".toList)]

/-- A list where the other store has a map. -/
def moreBeasts : Store :=
  ofList [("beast".toList, (ofList [("bear".toList, .list ["black bear".toList]),
    ("wolf".toList, .list ["white wolf".toList])]).toTable)]

theorem raw?_merge_beasts :
    (beasts.merge moreBeasts).list? "beast.wolf".toList =
        some ["grey wolf".toList, "white wolf".toList] ∧
      (∃ entries, (beasts.merge moreBeasts).raw? "beast".toList = some (.map entries)) ∧
      (beasts.merge moreBeasts).raw? "beast.bear".toList =
        some (.list ["black bear".toList]) ∧
      (beasts.merge moreBeasts).raw? "beast.bear.cub".toList = none ∧
      (beasts.merge moreBeasts).raw? "weather".toList = some (.scalar "rain".toList) := by
  refine ⟨?_, ?_, ?_, ?_, ?_⟩
  · exact (raw?_merge beasts moreBeasts "beast.wolf".toList).1 _ _ rfl rfl
  · exact ⟨_, (raw?_merge beasts moreBeasts "beast".toList).2.1 _ _ rfl rfl⟩
  · refine (raw?_merge beasts moreBeasts "beast.bear".toList).2.2.1 _ rfl ?_
    rintro held ⟨⟩
    exact id
  · refine (raw?_merge beasts moreBeasts "beast.bear.cub".toList).2.2.2.1 rfl ?_
    exact ⟨"beast.bear".toList, "cub".toList, _, rfl, rfl, id⟩
  · refine ((raw?_merge beasts moreBeasts "weather".toList).2.2.2.2 rfl ?_).trans rfl
    rintro ⟨above, below, found, hpath, -⟩
    have hdot : '.' ∈ "weather".toList := by
      rw [hpath]
      exact List.mem_append_right above List.mem_cons_self
    exact absurd hdot (by decide)

end Store

end RandomTables
