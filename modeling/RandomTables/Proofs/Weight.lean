import RandomTables.Proofs.Decimal.Reach
import RandomTables.Proofs.Random.Bounds

/-! # Items that weigh nothing

The walk along the items starts at a share of the total weight and takes off one weight after the
other until nothing remains. An item that weighs zero takes nothing off, so it is passed by, but for
the two ends of the walk: it may start at zero, and rounding may leave something at its end.
-/

namespace RandomTables.Weighted

/-! ## The walk -/

/-- What is left of `start` behind these items. -/
def remainder (start : Float) (items : List Weighted) : Float :=
  items.foldl (fun left item => left - item.weight) start

/-- Something is left behind each of the items. -/
def Remains (start : Float) (items : List Weighted) : Prop :=
  ∀ front, front ≠ [] → front <+: items → ¬ remainder start front ≤ 0

theorem remains_cons_iff {start : Float} {item : Weighted} {items : List Weighted} :
    Remains start (item :: items) ↔
      ¬ start - item.weight ≤ 0 ∧ Remains (start - item.weight) items := by
  constructor
  · intro h
    refine ⟨h [item] (List.cons_ne_nil _ _) (List.prefix_append _ items), fun front _ hfront => ?_⟩
    exact h (item :: front) (List.cons_ne_nil _ _) (List.cons_prefix_cons.2 ⟨rfl, hfront⟩)
  · rintro ⟨hfirst, hrest⟩ front hne hfront
    obtain ⟨_, front, rfl⟩ := List.exists_cons_of_ne_nil hne
    obtain ⟨rfl, htail⟩ := List.cons_prefix_cons.1 hfront
    by_cases hnil : front = []
    · rw [hnil]
      exact hfirst
    · exact hrest front hnil htail

theorem crossing?_eq_none_iff {start : Float} {items : List Weighted} :
    crossing? start items = none ↔ Remains start items := by
  induction items generalizing start with
  | nil =>
    refine iff_of_true rfl fun front hne hfront => ?_
    exact absurd (List.prefix_nil.1 hfront) hne
  | cons item items ih =>
    rw [remains_cons_iff, ← ih, crossing?]
    split
    · next h => exact iff_of_false (fun h => by cases h) fun hleft => hleft.1 h
    · next h => exact ⟨fun hrest => ⟨h, hrest⟩, And.right⟩

theorem crossing?_weightless {start : Float} {items : List Weighted} {item : Weighted}
    (h : crossing? start items = some item) (hweight : item.weight == 0) :
    items.head? = some item ∧ start ≤ 0 := by
  induction items generalizing start with
  | nil => cases h
  | cons first rest ih =>
    rw [crossing?] at h
    split at h
    · next hleft =>
      cases h
      exact ⟨rfl, (Decimal.sub_le_zero_iff hweight).1 hleft⟩
    · next hleft =>
      -- A later item that weighs nothing would find nothing left, and the walk would be over.
      exact absurd (ih h).2 hleft

theorem crossing?_of_le_zero {start : Float} {first : Weighted} (hweight : first.weight == 0)
    (hstart : start ≤ 0) (rest : List Weighted) : crossing? start (first :: rest) = some first := by
  rw [crossing?]
  exact if_pos ((Decimal.sub_le_zero_iff hweight).2 hstart)

/-! ## The start of the walk -/

/-- The share of the total at which the walk starts, for a drawn word. -/
def start (word : UInt64) (items : List Weighted) : Float :=
  (word >>> 11).toFloat / 9007199254740992 * total items

variable {items : List Weighted}

theorem shiftRight_eq_zero_iff (word : UInt64) : word >>> 11 = 0 ↔ word < 2048 := by
  rw [← UInt64.toNat_inj, UInt64.lt_iff_toNat_lt, UInt64.toNat_shiftRight, Nat.shiftRight_eq_div_pow]
  show word.toNat / 2 ^ 11 = 0 ↔ word.toNat < 2048
  omega

theorem start_le_zero {word : UInt64} (hpos : 0 < total items) (hfinite : (total items).isFinite)
    (hword : word < 2048) : start word items ≤ 0 := by
  have hshare : (0 : UInt64).toFloat / 9007199254740992 = 0 := rfl
  rw [start, (shiftRight_eq_zero_iff word).2 hword, hshare]
  exact Decimal.zero_mul_le_zero hpos hfinite

theorem lt_of_start_le_zero {word : UInt64} (htotal : 1e-300 ≤ total items)
    (hstart : start word items ≤ 0) : word < 2048 := by
  by_contra hword
  have hdrawn : word >>> 11 ≠ 0 := fun h => hword ((shiftRight_eq_zero_iff word).1 h)
  have hshare := (Decimal.reaches_toFloat hdrawn).div (by decide)
  exact (hshare.mul (Decimal.reaches_of_le htotal) (by decide)).not_le_zero hstart

/-! ## The choice -/

section

variable {start : Float} {last : Weighted}

theorem getD_crossing?_weightless_iff (hlast : items.getLast? = some last) :
    ((crossing? start items).getD last).weight == 0 ↔
      (∃ first, items.head? = some first ∧ first.weight == 0 ∧ start ≤ 0) ∨
      (last.weight == 0 ∧ Remains start items) := by
  constructor
  · intro hweight
    cases hcross : crossing? start items with
    | none =>
      rw [hcross] at hweight
      exact .inr ⟨hweight, crossing?_eq_none_iff.1 hcross⟩
    | some item =>
      rw [hcross] at hweight
      obtain ⟨hhead, hstart⟩ := crossing?_weightless hcross hweight
      exact .inl ⟨item, hhead, hweight, hstart⟩
  · rintro (⟨first, hhead, hweight, hstart⟩ | ⟨hweight, hremains⟩)
    · obtain ⟨rest, rfl⟩ := List.head?_eq_some_iff.1 hhead
      rw [crossing?_of_le_zero hweight hstart]
      exact hweight
    · rw [crossing?_eq_none_iff.2 hremains]
      exact hweight

end

variable {σ : Type} [WordSource σ]

/-- With a total that is positive and finite, the choice takes one word and walks. -/
theorem choose_walk {last : Weighted} (hlast : items.getLast? = some last)
    (hpos : 0 < total items) (hfinite : (total items).isFinite) (source : σ) :
    choose items source = some
      (some ((crossing? (start (WordSource.next64 source).1 items) items).getD last),
        (WordSource.next64 source).2) := by
  unfold choose
  rw [hlast]
  dsimp only
  rw [Decimal.regular_of_pos hpos hfinite]
  rfl

/-- An item is picked at the cost of one word. It weighs nothing in two cases only: the walk starts
with nothing left, at a first item that weighs nothing, or something remains behind the last item,
which weighs nothing. Words from 2^11 on start the walk with something left, unless the total is
tiny. -/
theorem choose_weightless (items : List Weighted) (hpos : 0 < total items)
    (hfinite : (total items).isFinite) (source : σ) :
    let word := (WordSource.next64 source).1
    ∃ item ∈ items,
      choose items source = some (some item, (WordSource.next64 source).2) ∧
      (∀ entries : List Text, entries.map read = items →
        chooseText entries source = some (some item.value, (WordSource.next64 source).2)) ∧
      (item.weight == 0 ↔
        (∃ first, items.head? = some first ∧ first.weight == 0 ∧ start word items ≤ 0) ∨
        (∃ last, items.getLast? = some last ∧ last.weight == 0 ∧
          Remains (start word items) items)) ∧
      (word < 2048 → start word items ≤ 0) ∧
      (1e-300 ≤ total items → start word items ≤ 0 → word < 2048) := by
  intro word
  have hne : items ≠ [] := by
    rintro rfl
    exact absurd hpos (by decide)
  obtain ⟨last, hlast⟩ := Option.ne_none_iff_exists'.1 (mt List.getLast?_eq_none_iff.1 hne)
  have hchoose := choose_walk hlast hpos hfinite source
  refine ⟨_, getD_crossing?_mem hlast, hchoose, ?_, ?_, start_le_zero hpos hfinite,
    lt_of_start_le_zero⟩
  · rintro entries rfl
    exact bind_of_some hchoose
  · simpa only [hlast, Option.some.injEq, exists_eq_left'] using
      getD_crossing?_weightless_iff hlast

/-- Two entries, of which the first weighs nothing. -/
def skewed : List Weighted := ["a ^0".toList, "b ^100".toList].map read

/-- Weights that are taken off a little less than they are summed up to, before one of zero. -/
def rounded : List Weighted :=
  ["a ^0.4".toList, "b ^0.8".toList, "c ^0.3".toList, "z ^0".toList].map read

/-- With the least word that leaves something to walk, the item that weighs nothing is passed by. -/
theorem choose_skewed : 0 < total skewed ∧ (total skewed).isFinite ∧
    ∃ item ∈ skewed,
      choose skewed ({ words := [2048], state := 0 } : Random.Script) =
        some (some item, { words := [], state := 0 }) ∧
      ¬ item.weight == 0 := by
  have hpos : 0 < total skewed := by decide
  have hfinite : (total skewed).isFinite := by decide
  obtain ⟨item, hmem, hchoose, -, hweight, -, hword⟩ :=
    choose_weightless skewed hpos hfinite ({ words := [2048], state := 0 } : Random.Script)
  refine ⟨hpos, hfinite, item, hmem, hchoose, ?_⟩
  rw [hweight]
  rintro (⟨first, -, -, hstart⟩ | ⟨last, hlast, hnothing, -⟩)
  · exact absurd (hword (by decide +kernel) hstart) (by decide)
  · cases hlast
    exact absurd hnothing (by decide)

/-- Both ends of the walk do pick an item that weighs nothing. -/
theorem choose_picks_weightless :
    (0 < total skewed ∧ (total skewed).isFinite ∧ ∃ item,
      choose skewed ({ words := [0], state := 0 } : Random.Script) =
        some (some item, { words := [], state := 0 }) ∧
      item.weight == 0 ∧ item.value = "a".toList) ∧
    (0 < total rounded ∧ (total rounded).isFinite ∧ ∃ item,
      choose rounded ({ words := [18446744073709551615], state := 0 } : Random.Script) =
        some (some item, { words := [], state := 0 }) ∧
      item.weight == 0 ∧ item.value = "z".toList) := by
  refine ⟨⟨by decide, by decide, _, rfl, ?_, ?_⟩,
    ⟨by decide, by decide, _, rfl, ?_, ?_⟩⟩ <;> decide +kernel

end RandomTables.Weighted
