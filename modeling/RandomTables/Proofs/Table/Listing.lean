import Mathlib.Data.List.Nodup
import RandomTables.Proofs.Table.Merge

/-! # Listed tables

The listing of a store goes down its maps and joins the keys with dots, the lookup cuts a path at its
dots and goes down by the segments. They agree as far as the keys hold no dots themselves.
-/

namespace RandomTables

/-! ## Dotted keys -/

namespace Text

def HasDot (key : Text) : Prop := '.' ∈ key

instance (key : Text) : Decidable (HasDot key) := inferInstanceAs (Decidable ('.' ∈ key))

/-- The path of some keys. -/
def dotted (keys : List Text) : Text := ['.'].intercalate keys

theorem dotted_cons (key : Text) (keys : List Text) :
    dotted (key :: keys) = key ++ keys.flatMap ('.' :: ·) := by
  unfold dotted
  induction keys generalizing key with
  | nil => simp
  | cons next keys ih =>
    rw [List.intercalate_cons_cons, ih]
    simp

theorem splitOn_dotted {keys : List Text} (hne : keys ≠ []) (hkeys : ∀ key ∈ keys, ¬ HasDot key) :
    (dotted keys).splitOn '.' = keys :=
  List.splitOn_intercalate '.' hkeys hne

theorem dotted_splitOn (path : Text) : dotted (path.splitOn '.') = path :=
  List.intercalate_splitOn '.'

end Text

open Text (HasDot dotted)

/-! ## Visits -/

namespace Value

mutual

/-- Every list below a value with the keys that lead to it. -/
def visits : Value → List (List Text × List Text)
  | .list items => [([], items)]
  | .map entries => visitsIn entries
  | .scalar _ => []

def visitsIn : List (Text × Value) → List (List Text × List Text)
  | [] => []
  | (key, value) :: rest =>
    (visits value).map (fun visit => (key :: visit.1, visit.2)) ++ visitsIn rest

end

mutual

theorem lists_eq : ∀ (path : Text) (value : Value),
    lists path value = (visits value).map fun visit =>
      (path ++ visit.1.flatMap ('.' :: ·), visit.2)
  | path, .list items => by simp [lists, visits]
  | path, .map entries => listsBelow_eq path entries
  | path, .scalar text => rfl

theorem listsBelow_eq : ∀ (path : Text) (entries : List (Text × Value)),
    listsBelow path entries = (visitsIn entries).map fun visit =>
      (path ++ visit.1.flatMap ('.' :: ·), visit.2)
  | path, [] => rfl
  | path, (key, value) :: rest => by
    simp [listsBelow, visitsIn, lists_eq _ value, listsBelow_eq path rest]

end

theorem mem_visitsIn_iff {entries : List (Text × Value)} {keys items : List Text} :
    (keys, items) ∈ visitsIn entries ↔
      ∃ key value below, (key, value) ∈ entries ∧ (below, items) ∈ visits value ∧
        keys = key :: below := by
  induction entries with
  | nil => simp [visitsIn]
  | cons entry rest ih =>
    obtain ⟨key, value⟩ := entry
    rw [visitsIn, List.mem_append, ih]
    constructor
    · rintro (hhere | ⟨k, v, below, hmem, hbelow, rfl⟩)
      · obtain ⟨⟨below, items'⟩, hbelow, heq⟩ := List.mem_map.1 hhere
        cases heq
        exact ⟨key, value, below, List.mem_cons_self, hbelow, rfl⟩
      · exact ⟨k, v, below, List.mem_cons_of_mem _ hmem, hbelow, rfl⟩
    · rintro ⟨k, v, below, hmem, hbelow, rfl⟩
      rcases List.mem_cons.1 hmem with heq | hmem
      · cases heq
        exact .inl (List.mem_map_of_mem hbelow)
      · exact .inr ⟨k, v, below, hmem, hbelow, rfl⟩

theorem KeysAscend.lookup_iff {entries : List (Text × Value)} (h : KeysAscend entries) {key : Text}
    {value : Value} : entries.lookup key = some value ↔ (key, value) ∈ entries := by
  rw [List.lookup_eq_some_iff]
  constructor
  · rintro ⟨before, after, rfl, -⟩
    simp
  · intro hmem
    obtain ⟨before, after, rfl⟩ := List.append_of_mem hmem
    refine ⟨before, after, rfl, fun entry hentry => bne_iff_ne.2 ?_⟩
    rintro rfl
    unfold KeysAscend at h
    rw [List.map_append, List.map_cons] at h
    have hlt := (List.pairwise_append.1 h).2.2 _ (List.mem_map_of_mem hentry) _ List.mem_cons_self
    exact List.lt_irrefl _ hlt

/-- The visits of a value are the lists that its keys lead to. -/
theorem mem_visits_iff {value : Value} (h : value.Ordered) {keys items : List Text} :
    (keys, items) ∈ value.visits ↔ value.descend? keys = some (.list items) := by
  induction keys generalizing value with
  | nil =>
    cases value with
    | list held => simp [visits, descend?, eq_comm]
    | map entries => simp [visits, descend?, mem_visitsIn_iff]
    | scalar text => simp [visits, descend?]
  | cons key keys ih =>
    cases value with
    | list held => simp [visits, descend?]
    | map entries =>
      rw [visits, mem_visitsIn_iff, descend?, Option.bind_eq_some_iff]
      constructor
      · rintro ⟨_, value, _, hmem, hbelow, heq⟩
        cases heq
        have hvalue := h.1.lookup_iff.2 hmem
        exact ⟨value, hvalue, (ih (h.2.lookup hvalue)).1 hbelow⟩
      · rintro ⟨value, hvalue, hbelow⟩
        exact ⟨key, value, keys, h.1.lookup_iff.1 hvalue,
          (ih (h.2.lookup hvalue)).2 hbelow, rfl⟩
    | scalar text => simp [visits, descend?]

mutual

theorem nodup_visits : ∀ value : Value, value.Ordered → (value.visits.map Prod.fst).Nodup
  | .list items, _ => by simp [visits]
  | .map entries, h => nodup_visitsIn entries h.1 h.2
  | .scalar text, _ => by simp [visits]

theorem nodup_visitsIn : ∀ entries : List (Text × Value), KeysAscend entries → AllOrdered entries →
    ((visitsIn entries).map Prod.fst).Nodup
  | [], _, _ => by simp [visitsIn]
  | (key, value) :: rest, hascend, hall => by
    have hhere := nodup_visits value hall.1
    have hrest := nodup_visitsIn rest hascend.tail hall.2
    have hkeys : ((visits value).map fun visit => (key :: visit.1, visit.2)).map Prod.fst =
        ((visits value).map Prod.fst).map (key :: ·) := by
      simp [Function.comp_def]
    rw [visitsIn, List.map_append, hkeys]
    refine List.nodup_append.2 ⟨hhere.map (List.cons_injective), hrest, ?_⟩
    intro keys hmem keys' hmem' heq
    subst heq
    obtain ⟨below, -, rfl⟩ := List.mem_map.1 hmem
    obtain ⟨⟨_, items⟩, hvisit, hfst⟩ := List.mem_map.1 hmem'
    obtain ⟨k, v, _, hentry, -, rfl⟩ := mem_visitsIn_iff.1 hvisit
    cases hfst
    rw [← hascend.tail.lookup_iff, hascend.lookup_tail] at hentry
    cases hentry

end

end Value

/-! ## Listing and lookup -/

namespace Store

/-- Every list of a store with the keys that lead to it. -/
def visits (store : Store) : List (List Text × List Text) := store.toTable.value.visits

theorem keys_ne_nil {store : Store} {visit : List Text × List Text} (h : visit ∈ store.visits) :
    visit.1 ≠ [] := by
  obtain ⟨keys, items⟩ := visit
  obtain ⟨key, value, below, -, -, rfl⟩ := Value.mem_visitsIn_iff.1 h
  exact List.cons_ne_nil key below

theorem lists_eq (store : Store) :
    store.lists = store.visits.map fun visit => (dotted visit.1, visit.2) := by
  unfold lists visits toTable
  rw [Value.visits]
  induction store.entries with
  | nil => rfl
  | cons entry rest ih =>
    obtain ⟨name, value⟩ := entry
    rw [List.flatMap_cons, ih, Value.visitsIn, List.map_append, List.map_map]
    simp [Value.lists_eq, Function.comp_def, Text.dotted_cons]

theorem list?_eq_some_iff {store : Store} {path : Text} {items : List Text} :
    store.list? path = some items ↔ (path.splitOn '.', items) ∈ store.visits := by
  rw [list?_eq_some]
  exact (Value.mem_visits_iff store.ordered).symm

theorem nodup_dotted {store : Store} {visits : List (List Text × List Text)}
    (hsub : visits.Sublist store.visits) (hdots : ∀ visit ∈ visits, ∀ key ∈ visit.1, ¬ HasDot key) :
    (visits.map fun visit => dotted visit.1).Nodup := by
  have hkeys : (visits.map Prod.fst).Nodup :=
    (Value.nodup_visits _ store.ordered).sublist (hsub.map Prod.fst)
  have hpaths : (visits.map fun visit => dotted visit.1) = (visits.map Prod.fst).map dotted := by
    simp
  rw [hpaths]
  apply hkeys.map_on
  intro keys hmem keys' hmem' heq
  obtain ⟨visit, hvisit, rfl⟩ := List.mem_map.1 hmem
  obtain ⟨visit', hvisit', rfl⟩ := List.mem_map.1 hmem'
  have hsplit := congrArg (List.splitOn '.') heq
  rwa [Text.splitOn_dotted (keys_ne_nil (hsub.subset hvisit)) (hdots visit hvisit),
    Text.splitOn_dotted (keys_ne_nil (hsub.subset hvisit')) (hdots visit' hvisit')] at hsplit

/-- What the lookup finds is listed. The listing is that of the visits, each to a list that its keys
lead to. Where the keys hold no dot, the lookup finds it at its path, and no other such visit has that
path, so that without dotted keys the listing is the graph of the lookup. -/
theorem lists_agree (store : Store) :
    (∀ path items, store.list? path = some items → (path, items) ∈ store.lists) ∧
    store.lists = store.visits.map (fun visit => (dotted visit.1, visit.2)) ∧
    (∀ keys items, (keys, items) ∈ store.visits ↔
      store.toTable.value.descend? keys = some (.list items)) ∧
    (∀ keys items, (keys, items) ∈ store.visits → (∀ key ∈ keys, ¬ HasDot key) →
      store.list? (dotted keys) = some items) ∧
    ((store.visits.filter fun visit => ∀ key ∈ visit.1, ¬ HasDot key).map fun visit =>
      dotted visit.1).Nodup ∧
    ((∀ visit ∈ store.visits, ∀ key ∈ visit.1, ¬ HasDot key) →
      (store.lists.map Prod.fst).Nodup ∧
      ∀ path items, (path, items) ∈ store.lists ↔ store.list? path = some items) := by
  have hlookup (keys items : List Text) (hvisit : (keys, items) ∈ store.visits)
      (hdots : ∀ key ∈ keys, ¬ HasDot key) : store.list? (dotted keys) = some items := by
    rw [list?_eq_some_iff, Text.splitOn_dotted (keys_ne_nil hvisit) hdots]
    exact hvisit
  have hlisted (path : Text) (items : List Text) (hfound : store.list? path = some items) :
      (path, items) ∈ store.lists := by
    rw [lists_eq]
    exact List.mem_map.2 ⟨_, list?_eq_some_iff.1 hfound, by simp [Text.dotted_splitOn]⟩
  refine ⟨hlisted, lists_eq store, fun keys items => Value.mem_visits_iff store.ordered, hlookup,
    ?_, ?_⟩
  · apply nodup_dotted List.filter_sublist
    intro visit hvisit
    simpa using (List.mem_filter.1 hvisit).2
  · intro hdots
    constructor
    · have hnodup := nodup_dotted (List.Sublist.refl store.visits) hdots
      rw [lists_eq, List.map_map]
      exact hnodup
    · intro path items
      refine ⟨fun hmem => ?_, hlisted path items⟩
      rw [lists_eq] at hmem
      obtain ⟨⟨keys, items'⟩, hvisit, heq⟩ := List.mem_map.1 hmem
      cases heq
      exact hlookup _ _ hvisit (hdots _ hvisit)

/-- Two lists that share a path, one of them under a key with a dot, and a list under an empty key. -/
def roost : Store :=
  ofList [("owl".toList, (ofList [([], .list ["nest".toList]),
      ("barn".toList, .list ["barn owl".toList])]).toTable),
    ("owl.barn".toList, .list ["empty barn".toList])]

theorem lists_agree_roost :
    roost.list? "owl.barn".toList = some ["barn owl".toList] ∧
      ("owl.barn".toList, ["barn owl".toList]) ∈ roost.lists ∧
      (["owl".toList, []], ["nest".toList]) ∈ roost.visits ∧
      roost.list? "owl.".toList = some ["nest".toList] ∧
      (∀ visit ∈ beasts.visits, ∀ key ∈ visit.1, ¬ HasDot key) ∧
      ∀ path items, (path, items) ∈ beasts.lists ↔ beasts.list? path = some items := by
  have hfound : roost.list? "owl.barn".toList = some ["barn owl".toList] := by decide
  have hvisit : (["owl".toList, []], ["nest".toList]) ∈ roost.visits := by decide
  have hkeys : ∀ key ∈ ["owl".toList, []], ¬ HasDot key := by decide
  have hdots : ∀ visit ∈ beasts.visits, ∀ key ∈ visit.1, ¬ HasDot key := by decide
  obtain ⟨hlisted, -, -, hlookup, -, -⟩ := lists_agree roost
  obtain ⟨-, -, -, -, -, hgraph⟩ := lists_agree beasts
  exact ⟨hfound, hlisted _ _ hfound, hvisit, hlookup _ _ hvisit hkeys, hdots, (hgraph hdots).2⟩

end Store

end RandomTables
