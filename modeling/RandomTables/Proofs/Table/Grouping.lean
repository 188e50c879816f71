import RandomTables.Proofs.Table.Merge
import Mathlib.Data.List.Triplewise
import Mathlib.Tactic.ByContra

/-! # Merging in groups

Some stores are merged one by one, or neighbours among them first. The grouping shows only where two
lists, or two maps, have something else between them.
-/

namespace RandomTables

namespace Value

/-! ## Values of one sort -/

theorem Alike.symm {a b : Value} (h : a.Alike b) : b.Alike a := by
  cases a <;> cases b <;> exact h

theorem Alike.trans {a b c : Value} (hab : a.Alike b) (hbc : b.Alike c) : a.Alike c := by
  cases a <;> cases b <;> cases c <;> trivial

theorem alike_iff {a b : Value} :
    a.Alike b ↔ (∃ xs ys, a = .list xs ∧ b = .list ys) ∨ (a.IsMap ∧ b.IsMap) := by
  cases a <;> cases b <;> simp [Alike, IsMap]

theorem alike_merge {a b c : Value} : (merge a b).Alike c ↔ b.Alike c := by
  cases a <;> cases b <;> cases c <;> simp [merge, Alike]

theorem alike_merge_right {a b c : Value} : a.Alike (merge b c) ↔ a.Alike c :=
  ⟨fun h => (alike_merge.1 h.symm).symm, fun h => (alike_merge.2 h.symm).symm⟩

/-! ## Keys that ascend -/

theorem KeysAscend.lt_of_lookup {first key : Text} {value found : Value}
    {rest : List (Text × Value)} (h : KeysAscend ((first, value) :: rest))
    (hfound : rest.lookup key = some found) : first < key := by
  have hmem : key ∈ rest.map Prod.fst := by
    by_contra hnot
    have hnone : rest.lookup key = none := List.lookup_eq_none_iff.2 fun entry hentry =>
      bne_iff_ne.2 fun heq => hnot (heq ▸ List.mem_map_of_mem hentry)
    rw [hnone] at hfound
    cases hfound
  exact (List.pairwise_cons.1 h).1 key hmem

theorem KeysAscend.first_eq {key key' : Text} {value value' : Value}
    {rest rest' : List (Text × Value)} (h : KeysAscend ((key, value) :: rest))
    (h' : KeysAscend ((key', value') :: rest'))
    (hlookup : ∀ k, ((key, value) :: rest).lookup k = ((key', value') :: rest').lookup k) :
    key = key' := by
  by_contra hne
  have hfirst := hlookup key
  have hsecond := hlookup key'
  rw [lookup_cons, lookup_cons, if_pos rfl, if_neg hne] at hfirst
  rw [lookup_cons, lookup_cons, if_pos rfl, if_neg (Ne.symm hne)] at hsecond
  exact List.lt_irrefl _ (List.lt_trans (h'.lt_of_lookup hfirst.symm) (h.lt_of_lookup hsecond))

theorem eq_of_lookup_eq {xs ys : List (Text × Value)} (hxs : KeysAscend xs) (hys : KeysAscend ys)
    (h : ∀ key, xs.lookup key = ys.lookup key) : xs = ys := by
  induction xs generalizing ys with
  | nil =>
    cases ys with
    | nil => rfl
    | cons entry ys =>
      have hfound := h entry.1
      rw [lookup_cons, if_pos rfl] at hfound
      cases hfound
  | cons entry xs ih =>
    obtain ⟨key, value⟩ := entry
    cases ys with
    | nil =>
      have hfound := h key
      rw [lookup_cons, if_pos rfl] at hfound
      cases hfound
    | cons entry' ys =>
      obtain ⟨key', value'⟩ := entry'
      obtain rfl := hxs.first_eq hys h
      have hvalue : value = value' := by simpa [lookup_cons] using h key
      have hrest : xs = ys := by
        refine ih hxs.tail hys.tail fun k => ?_
        by_cases hk : k = key
        · rw [hk, hxs.lookup_tail, hys.lookup_tail]
        · simpa [lookup_cons, hk] using h k
      rw [hvalue, hrest]

/-! ## Three values -/

/-- The first value would add something to the last one of its sort, but the value between them is of
another sort. -/
def Interrupted (first between last : Value) : Prop :=
  first.Alike last ∧ ¬ first.Alike between ∧ merge first last ≠ last

/-- At no path of keys is a value of the first interrupted. -/
def Uninterrupted (a b c : Value) : Prop :=
  ∀ keys x y z, a.descend? keys = some x → b.descend? keys = some y → c.descend? keys = some z →
    ¬ Interrupted x y z

theorem uninterrupted_map {xs ys zs : List (Text × Value)} :
    Uninterrupted (.map xs) (.map ys) (.map zs) ↔
      ∀ key x y z, xs.lookup key = some x → ys.lookup key = some y → zs.lookup key = some z →
        Uninterrupted x y z := by
  constructor
  · intro h key x y z hx hy hz keys x' y' z' hx' hy' hz'
    exact h (key :: keys) x' y' z' (by simp [descend?, hx, hx']) (by simp [descend?, hy, hy'])
      (by simp [descend?, hz, hz'])
  · intro h keys x y z hx hy hz
    cases keys with
    | nil =>
      cases hx
      cases hy
      exact fun hinterrupted => hinterrupted.2.1 trivial
    | cons key keys =>
      obtain ⟨x', hx', hx⟩ := Option.bind_eq_some_iff.1 hx
      obtain ⟨y', hy', hy⟩ := Option.bind_eq_some_iff.1 hy
      obtain ⟨z', hz', hz⟩ := Option.bind_eq_some_iff.1 hz
      exact h key x' y' z' hx' hy' hz' keys x y z hx hy hz

theorem uninterrupted_iff_of_not_isMap {a b c : Value} (h : ¬ (a.IsMap ∧ b.IsMap ∧ c.IsMap)) :
    Uninterrupted a b c ↔ ¬ Interrupted a b c := by
  constructor
  · exact fun hall => hall [] a b c rfl rfl rfl
  · intro hself keys x y z hx hy hz
    cases keys with
    | nil =>
      cases hx
      cases hy
      cases hz
      exact hself
    | cons key keys =>
      have hmap {value found : Value} (hfound : value.descend? (key :: keys) = some found) :
          value.IsMap := by
        by_contra hnot
        simp [descend?_of_not_isMap hnot] at hfound
      exact absurd ⟨hmap hx, hmap hy, hmap hz⟩ h

theorem merge_assoc_of_alike {a b c : Value} (h : ¬ (a.IsMap ∧ b.IsMap ∧ c.IsMap))
    (hab : a.Alike b) (hbc : b.Alike c) : merge (merge a b) c = merge a (merge b c) := by
  rcases alike_iff.1 hab with ⟨xs, ys, rfl, rfl⟩ | ⟨ha, hb⟩
  · rcases alike_iff.1 hbc with ⟨_, zs, -, rfl⟩ | ⟨hb, -⟩
    · simp [merge]
    · exact False.elim hb
  · rcases alike_iff.1 hbc with ⟨ys, _, rfl, -⟩ | ⟨-, hc⟩
    · exact False.elim hb
    · exact absurd ⟨ha, hb, hc⟩ h

theorem merge_assoc_iff_of_not_isMap {a b c : Value} (h : ¬ (a.IsMap ∧ b.IsMap ∧ c.IsMap)) :
    merge (merge a b) c = merge a (merge b c) ↔ ¬ Interrupted a b c := by
  by_cases hab : a.Alike b
  · have hnot : ¬ Interrupted a b c := fun hinterrupted => hinterrupted.2.1 hab
    refine ⟨fun _ => hnot, fun _ => ?_⟩
    by_cases hbc : b.Alike c
    · exact merge_assoc_of_alike h hab hbc
    · have hac : ¬ a.Alike c := fun hac => hbc (hab.symm.trans hac)
      rw [merge_of_not_alike hbc, merge_of_not_alike hac,
        merge_of_not_alike (mt alike_merge.1 hbc)]
  · rw [merge_of_not_alike hab]
    by_cases hbc : b.Alike c
    · have hac : ¬ a.Alike c := fun hac => hab (hac.trans hbc.symm)
      rw [merge_of_not_alike (mt alike_merge_right.1 hac)]
      exact ⟨fun _ hinterrupted => hac hinterrupted.1, fun _ => rfl⟩
    · -- Only here the last value stays alone, and the first one may be added to it or not.
      rw [merge_of_not_alike hbc]
      constructor
      · exact fun heq hinterrupted => hinterrupted.2.2 heq.symm
      · intro hnot
        by_cases hac : a.Alike c
        · by_contra hne
          exact hnot ⟨hac, hab, Ne.symm hne⟩
        · exact (merge_of_not_alike hac).symm

theorem merge_merge_option {x y z : Option Value} :
    Option.merge merge (Option.merge merge x y) z = Option.merge merge x (Option.merge merge y z) ↔
      ∀ a b c, x = some a → y = some b → z = some c →
        merge (merge a b) c = merge a (merge b c) := by
  cases x <;> cases y <;> cases z <;> simp

theorem sizeOf_lookup_lt {entries : List (Text × Value)} {key : Text} {value : Value}
    (h : entries.lookup key = some value) : sizeOf value < sizeOf (Value.map entries) := by
  induction entries with
  | nil => cases h
  | cons entry rest ih =>
    obtain ⟨k, first⟩ := entry
    rw [lookup_cons] at h
    split at h
    · obtain rfl := Option.some.inj h
      simp
      omega
    · have := ih h
      simp at this ⊢
      omega

/-- Merging from the left and from the right agree exactly where no value is interrupted. -/
theorem merge_assoc_iff {a b c : Value} (ha : a.Ordered) (hb : b.Ordered) (hc : c.Ordered) :
    merge (merge a b) c = merge a (merge b c) ↔ Uninterrupted a b c := by
  induction hn : sizeOf a using Nat.strongRecOn generalizing a b c with
  | _ n ih =>
    subst hn
    by_cases hmaps : a.IsMap ∧ b.IsMap ∧ c.IsMap
    · obtain ⟨hamap, hbmap, hcmap⟩ := hmaps
      obtain ⟨xs, rfl⟩ := isMap_iff.1 hamap
      obtain ⟨ys, rfl⟩ := isMap_iff.1 hbmap
      obtain ⟨zs, rfl⟩ := isMap_iff.1 hcmap
      have hxy := ordered_mergeEntries xs ys ha hb
      have hyz := ordered_mergeEntries ys zs hb hc
      have hlookup (key : Text) :
          ((mergeEntries (mergeEntries xs ys) zs).lookup key =
            (mergeEntries xs (mergeEntries ys zs)).lookup key) ↔
          ∀ x y z, xs.lookup key = some x → ys.lookup key = some y → zs.lookup key = some z →
            Uninterrupted x y z := by
        rw [lookup_mergeEntries hxy.1 hc.1, lookup_mergeEntries ha.1 hb.1,
          lookup_mergeEntries ha.1 hyz.1, lookup_mergeEntries hb.1 hc.1, merge_merge_option]
        refine forall_congr' fun x => forall_congr' fun y => forall_congr' fun z =>
          forall_congr' fun hx => forall_congr' fun hy => forall_congr' fun hz => ?_
        exact ih _ (sizeOf_lookup_lt hx) (ha.2.lookup hx) (hb.2.lookup hy) (hc.2.lookup hz) rfl
      rw [uninterrupted_map, merge, merge, merge, merge, map.injEq]
      constructor
      · intro heq key
        exact (hlookup key).1 (by rw [heq])
      · intro hall
        exact eq_of_lookup_eq (ordered_mergeEntries _ _ hxy hc).1
          (ordered_mergeEntries _ _ ha hyz).1 fun key => (hlookup key).2 (hall key)
    · rw [merge_assoc_iff_of_not_isMap hmaps, uninterrupted_iff_of_not_isMap hmaps]

/-! ## Values that add nothing -/

theorem Ordered.descend? {value found : Value} {keys : List Text} (h : value.Ordered)
    (hfound : value.descend? keys = some found) : found.Ordered := by
  induction keys generalizing value with
  | nil =>
    cases hfound
    exact h
  | cons key keys ih =>
    cases value with
    | map entries =>
      obtain ⟨below, hbelow, hfound⟩ := Option.bind_eq_some_iff.1 hfound
      exact ih (h.2.lookup hbelow) hfound
    | list items => cases hfound
    | scalar text => cases hfound

theorem merge_eq_of_descend? {a b x y : Value} (ha : a.Ordered) (hb : b.Ordered)
    (hmerge : merge a b = b) {keys : List Text} (hx : a.descend? keys = some x)
    (hy : b.descend? keys = some y) : merge x y = y := by
  have hlater := (descend?_merge ha hb keys).later y hy
  rw [hmerge, hx, hy] at hlater
  exact (Option.some.inj hlater).symm

theorem merge_merge_of_eq {a b c : Value} (ha : a.Ordered) (hb : b.Ordered) (hc : c.Ordered)
    (hac : merge a c = c) (hbc : merge b c = c) : merge (merge a b) c = c := by
  rw [(merge_assoc_iff ha hb hc).2, hbc, hac]
  intro keys x y z hx hy hz hinterrupted
  exact hinterrupted.2.2 (merge_eq_of_descend? ha hc hac hx hz)

theorem not_interrupted_merge {x y b c : Value} (hx : x.Ordered) (hy : y.Ordered)
    (hc : c.Ordered) (hxb : ¬ Interrupted x b c) (hyb : ¬ Interrupted y b c) :
    ¬ Interrupted (merge x y) b c := by
  rintro ⟨halike, hother, hadds⟩
  have hyc : y.Alike c := alike_merge.1 halike
  have hnotyb : ¬ y.Alike b := mt alike_merge.2 hother
  have hmergey : merge y c = c := by
    by_contra hne
    exact hyb ⟨hyc, hnotyb, hne⟩
  by_cases hxy : x.Alike y
  · have hmergex : merge x c = c := by
      by_contra hne
      exact hxb ⟨hxy.trans hyc, fun hxb => hnotyb (hxy.symm.trans hxb), hne⟩
    exact hadds (merge_merge_of_eq hx hy hc hmergex hmergey)
  · rw [merge_of_not_alike hxy] at hadds
    exact hadds hmergey

theorem descend?_merge_cases {a b found : Value} (ha : a.Ordered) (hb : b.Ordered)
    {keys : List Text} (h : (merge a b).descend? keys = some found) :
    a.descend? keys = some found ∨ b.descend? keys = some found ∨
      ∃ x y, a.descend? keys = some x ∧ b.descend? keys = some y ∧ found = merge x y := by
  have hmerged := descend?_merge ha hb keys
  cases hy : b.descend? keys with
  | some y =>
    have hfound := hmerged.later y hy
    rw [h] at hfound
    cases hx : a.descend? keys with
    | some x =>
      rw [hx] at hfound
      exact .inr (.inr ⟨x, y, rfl, rfl, Option.some.inj hfound⟩)
    | none =>
      rw [hx] at hfound
      exact .inr (.inl hfound.symm)
  | none =>
    by_cases hblocks : b.Blocks keys
    · have hnone := hmerged.cut hy hblocks
      rw [h] at hnone
      cases hnone
    · exact .inl ((hmerged.kept hy hblocks).symm.trans h)

theorem uninterrupted_merge {a b c d : Value} (ha : a.Ordered) (hb : b.Ordered) (hd : d.Ordered)
    (hac : Uninterrupted a c d) (hbc : Uninterrupted b c d) : Uninterrupted (merge a b) c d := by
  intro keys x y z hx hy hz
  rcases descend?_merge_cases ha hb hx with hx | hx | ⟨x', y', hx', hy', rfl⟩
  · exact hac keys x y z hx hy hz
  · exact hbc keys x y z hx hy hz
  · exact not_interrupted_merge (ha.descend? hx') (hb.descend? hy') (hd.descend? hz)
      (hac keys x' y z hx' hy hz) (hbc keys y' y z hy' hy hz)

theorem uninterrupted_merge_between {a b c d : Value} (hb : b.Ordered) (hc : c.Ordered)
    (hab : Uninterrupted a b d) (hac : Uninterrupted a c d) : Uninterrupted a (merge b c) d := by
  intro keys x y z hx hy hz
  rcases descend?_merge_cases hb hc hy with hy | hy | ⟨x', y', -, hy', rfl⟩
  · exact hab keys x y z hx hy hz
  · exact hac keys x y z hx hy hz
  · rintro ⟨halike, hother, hadds⟩
    exact hac keys x y' z hx hy' hz ⟨halike, mt alike_merge_right.2 hother, hadds⟩

end Value

/-! ## Stores in groups -/

namespace Store

theorem empty_merge (store : Store) : empty.merge store = store := by
  have hentries : Value.mergeEntries [] store.entries = store.entries := by
    refine Value.eq_of_lookup_eq (Value.ordered_mergeEntries [] _ empty.ordered store.ordered).1
      store.ordered.1 fun key => ?_
    rw [Value.lookup_mergeEntries Table.empty.ordered.1 store.ordered.1]
    exact Option.merge_none_left
  show Store.mk (Value.mergeEntries [] store.entries) _ = store
  simp only [hentries]

/-- At no path of keys the first two stores and the last one hold a list, something else and a list, or a
map, something else and a map. Where the first of them would add nothing to the last, they may. -/
def Uninterrupted (a b c : Store) : Prop :=
  Value.Uninterrupted a.toTable.value b.toTable.value c.toTable.value

theorem merge_assoc_iff (a b c : Store) :
    (a.merge b).merge c = a.merge (b.merge c) ↔ Uninterrupted a b c := by
  refine Iff.trans ?_ (Value.merge_assoc_iff a.ordered b.ordered c.ordered)
  simp only [merge, toTable, Value.merge, Store.mk.injEq, Value.map.injEq]

theorem uninterrupted_empty (b c : Store) : Uninterrupted empty b c := by
  refine Value.uninterrupted_map.2 fun key x y z hx => ?_
  cases hx

theorem uninterrupted_empty_between (a c : Store) : Uninterrupted a empty c := by
  refine Value.uninterrupted_map.2 fun key x y z hx hy => ?_
  cases hy

/-- The stores one after another. -/
def mergeAll (stores : List Store) : Store := stores.foldl merge empty

theorem uninterrupted_foldl {stores : List Store} {acc b c : Store} (hacc : Uninterrupted acc b c)
    (h : ∀ store ∈ stores, Uninterrupted store b c) : Uninterrupted (stores.foldl merge acc) b c := by
  induction stores generalizing acc with
  | nil => exact hacc
  | cons store rest ih =>
    obtain ⟨hstore, hrest⟩ := List.forall_mem_cons.1 h
    exact ih (Value.uninterrupted_merge acc.ordered store.ordered c.ordered hacc hstore) hrest

theorem merge_foldl {base acc : Store} {stores : List Store}
    (hacc : ∀ store ∈ stores, Uninterrupted base acc store)
    (h : stores.Pairwise (Uninterrupted base)) :
    base.merge (stores.foldl merge acc) = stores.foldl merge (base.merge acc) := by
  induction stores generalizing acc with
  | nil => rfl
  | cons store rest ih =>
    obtain ⟨hstore, hrest⟩ := List.forall_mem_cons.1 hacc
    obtain ⟨hnext, hpairs⟩ := List.pairwise_cons.1 h
    have hmerged : ∀ later ∈ rest, Uninterrupted base (acc.merge store) later := fun later hlater =>
      Value.uninterrupted_merge_between acc.ordered store.ordered (hrest later hlater)
        (hnext later hlater)
    rw [List.foldl_cons, List.foldl_cons, ih hmerged hpairs, (merge_assoc_iff _ _ _).2 hstore]

/-- Made of some stores by merging neighbours, in any order. -/
inductive Grouped : List Store → Store → Prop where
  | none : Grouped [] empty
  | one (store : Store) : Grouped [store] store
  | merge {stores more : List Store} {a b : Store} :
      Grouped stores a → Grouped more b → Grouped (stores ++ more) (a.merge b)

theorem Grouped.eq_mergeAll {stores : List Store} {store : Store} (h : Grouped stores store)
    (hstores : stores.Triplewise Uninterrupted) : store = mergeAll stores := by
  induction h with
  | none => rfl
  | one store => exact (empty_merge store).symm
  | @merge stores more a b _ _ iha ihb =>
    obtain ⟨hfirst, hsecond, hacross, -⟩ := List.triplewise_append.1 hstores
    have hpairs : more.Pairwise (Uninterrupted (mergeAll stores)) :=
      List.pairwise_iff_forall_sublist.2 fun hsub =>
        uninterrupted_foldl (uninterrupted_empty _ _) fun store hstore =>
          List.pairwise_iff_forall_sublist.1 (hacross store hstore) hsub
    have happend : mergeAll (stores ++ more) = more.foldl Store.merge (mergeAll stores) :=
      List.foldl_append
    rw [iha hfirst, ihb hsecond, happend]
    exact merge_foldl (fun store _ => uninterrupted_empty_between _ store) hpairs

end Store

end RandomTables
