import RandomTables.Random.Draw
import RandomTables.Weight

/-! # What draws can give

A drawn number lies between its bounds, and a weighted choice picks an entry of the list. The
weights and the words of the source decide how often, never which.
-/

namespace RandomTables

/-! ## Steps of a computation that may have no result -/

theorem bind_eq_some {σ α β : Type} {m : StateT σ Option α} {k : α → StateT σ Option β}
    {s s' : σ} {b : β} :
    (m >>= k) s = some (b, s') ↔ ∃ a t, m s = some (a, t) ∧ k a t = some (b, s') := by
  constructor
  · intro h
    obtain ⟨⟨a, t⟩, hm, hk⟩ := Option.bind_eq_some_iff.1 h
    exact ⟨a, t, hm, hk⟩
  · rintro ⟨a, t, hm, hk⟩
    exact Option.bind_eq_some_iff.2 ⟨(a, t), hm, hk⟩

theorem bind_of_some {σ α β : Type} {m : StateT σ Option α} {k : α → StateT σ Option β} {s t : σ}
    {a : α} (h : m s = some (a, t)) : (m >>= k) s = k a t := by
  show (m s).bind _ = _
  rw [h, Option.bind_some]

theorem bind_of_none {σ α β : Type} {m : StateT σ Option α} {k : α → StateT σ Option β} {s : σ}
    (h : m s = none) : (m >>= k) s = none := by
  show (m s).bind _ = none
  rw [h, Option.bind_none]

theorem pure_eq_some {σ α : Type} {a b : α} {s s' : σ} :
    (pure a : StateT σ Option α) s = some (b, s') ↔ a = b ∧ s = s' := by
  show some (a, s) = some (b, s') ↔ _
  rw [Option.some.injEq, Prod.mk.injEq]

theorem map_eq_some {σ α β : Type} {f : α → β} {m : StateT σ Option α} {s s' : σ} {b : β} :
    (f <$> m) s = some (b, s') ↔ ∃ a, m s = some (a, s') ∧ f a = b := by
  rw [map_eq_pure_bind, bind_eq_some]
  constructor
  · rintro ⟨a, t, hm, hp⟩
    obtain ⟨rfl, rfl⟩ := pure_eq_some.1 hp
    exact ⟨a, hm, rfl⟩
  · rintro ⟨a, hm, rfl⟩
    exact ⟨a, s', hm, rfl⟩

namespace Draw

/-! ## Rejection -/

theorem firstAccepted_eq_some {σ α : Type} {next : Draw σ Nat} {accept : Nat → Option α}
    {source rest : σ} {a : α} (h : firstAccepted next accept source = some (a, rest)) :
    ∃ word before, next before = some (word, rest) ∧ accept word = some a := by
  refine firstAccepted.partial_correctness next accept
    (fun _ r => ∃ word before, next before = some (word, r.2) ∧ accept word = some r.1)
    (fun later ih source r hr => ?_) source (a, rest) h
  split at hr
  · cases hr
  · next word rest hnext =>
    split at hr
    · next a haccept =>
      cases hr
      exact ⟨word, source, hnext, haccept⟩
    · exact ih rest r hr

theorem wordCount_pos (bits : Nat) : 0 < wordCount bits := by
  unfold wordCount
  rw [Nat.one_shiftLeft]
  exact Nat.two_pow_pos bits

theorem scaled?_lt {bits range zone word n : Nat} (hword : word < wordCount bits)
    (hrange : 0 < range) (h : scaled? bits range zone word = some n) : n < range := by
  simp only [scaled?, Option.ite_none_right_eq_some, Option.some.injEq] at h
  rw [← h.2, Nat.div_lt_iff_lt_mul (wordCount_pos bits), Nat.mul_comm range]
  exact Nat.mul_lt_mul_of_pos_right hword hrange

/-! ## Numbers between bounds -/

variable {σ : Type} [WordSource σ]

theorem between64_mem {low high n : UInt64} {source rest : σ} (hle : low ≤ high)
    (h : between64 low high source = some (n, rest)) : low ≤ n ∧ n ≤ high := by
  have hle' := UInt64.le_iff_toNat_le.1 hle
  have hhigh := high.toNat_lt
  have hn := n.toNat_lt
  have hrange : (high - low + 1).toNat = (high.toNat - low.toNat + 1) % 2 ^ 64 := by
    rw [UInt64.toNat_add, UInt64.toNat_sub_of_le _ _ hle]; rfl
  simp only [between64] at h
  split at h
  · next hfull =>
    -- The range wraps, so the bounds are the least and the greatest word.
    rw [hfull] at hrange
    simp only [UInt64.toNat_zero] at hrange
    rw [UInt64.le_iff_toNat_le, UInt64.le_iff_toNat_le]
    omega
  · next hpart =>
    obtain ⟨offset, t, ho, hp⟩ := bind_eq_some.1 h
    obtain ⟨hsum, rfl⟩ := pure_eq_some.1 hp
    obtain ⟨word, before, hword, haccept⟩ := firstAccepted_eq_some ho
    obtain ⟨w, -, rfl⟩ := map_eq_some.1 hword
    have hpos : 0 < (high - low + 1).toNat :=
      Nat.pos_of_ne_zero fun h0 => hpart (UInt64.toNat_inj.1 h0)
    have hlt := scaled?_lt w.toNat_lt hpos haccept
    have hsum' : n.toNat = (low.toNat + offset % 2 ^ 64) % 2 ^ 64 := by
      rw [← hsum, UInt64.toNat_add, UInt64.toNat_ofNat']
    rw [UInt64.le_iff_toNat_le, UInt64.le_iff_toNat_le]
    omega

theorem between32_mem {low high n : UInt32} {source rest : σ} (hle : low ≤ high)
    (h : between32 low high source = some (n, rest)) : low ≤ n ∧ n ≤ high := by
  have hle' := UInt32.le_iff_toNat_le.1 hle
  have hhigh := high.toNat_lt
  have hn := n.toNat_lt
  have hrange : (high - low + 1).toNat = (high.toNat - low.toNat + 1) % 2 ^ 32 := by
    rw [UInt32.toNat_add, UInt32.toNat_sub_of_le _ _ hle]; rfl
  simp only [between32] at h
  split at h
  · next hfull =>
    rw [hfull] at hrange
    simp only [UInt32.toNat_zero] at hrange
    rw [UInt32.le_iff_toNat_le, UInt32.le_iff_toNat_le]
    omega
  · next hpart =>
    obtain ⟨offset, t, ho, hp⟩ := bind_eq_some.1 h
    obtain ⟨hsum, rfl⟩ := pure_eq_some.1 hp
    obtain ⟨word, before, hword, haccept⟩ := firstAccepted_eq_some ho
    obtain ⟨w, -, rfl⟩ := map_eq_some.1 hword
    have hpos : 0 < (high - low + 1).toNat :=
      Nat.pos_of_ne_zero fun h0 => hpart (UInt32.toNat_inj.1 h0)
    have hlt := scaled?_lt w.toNat_lt hpos haccept
    have hsum' : n.toNat = (low.toNat + offset % 2 ^ 32) % 2 ^ 32 := by
      rw [← hsum, UInt32.toNat_add, UInt32.toNat_ofNat']
    rw [UInt32.le_iff_toNat_le, UInt32.le_iff_toNat_le]
    omega

theorem toNat_min (a b : UInt64) : (min a b).toNat = min a.toNat b.toNat := by
  show (if a ≤ b then a else b).toNat = _
  split <;> next h => rw [UInt64.le_iff_toNat_le] at h; omega

theorem toNat_max (a b : UInt64) : (max a b).toNat = max a.toNat b.toNat := by
  show (if a ≤ b then b else a).toNat = _
  split <;> next h => rw [UInt64.le_iff_toNat_le] at h; omega

theorem min_ofNat {a b : Nat} (ha : a < UInt64.size) (hb : b < UInt64.size) :
    min (UInt64.ofNat a) (UInt64.ofNat b) = UInt64.ofNat (min a b) := by
  have hmin : min a b < UInt64.size := by omega
  rw [← UInt64.toNat_inj, toNat_min, UInt64.toNat_ofNat_of_lt' ha, UInt64.toNat_ofNat_of_lt' hb,
    UInt64.toNat_ofNat_of_lt' hmin]

theorem max_ofNat {a b : Nat} (ha : a < UInt64.size) (hb : b < UInt64.size) :
    max (UInt64.ofNat a) (UInt64.ofNat b) = UInt64.ofNat (max a b) := by
  have hmax : max a b < UInt64.size := by omega
  rw [← UInt64.toNat_inj, toNat_max, UInt64.toNat_ofNat_of_lt' ha, UInt64.toNat_ofNat_of_lt' hb,
    UInt64.toNat_ofNat_of_lt' hmax]

theorem index64_lt {length place : Nat} {source rest : σ} (hlength : 0 < length)
    (h : index64 length source = some (place, rest)) : place < length := by
  obtain ⟨n, hn, rfl⟩ := map_eq_some.1 h
  obtain ⟨-, hmax⟩ := between64_mem (UInt64.le_iff_toNat_le.2 (Nat.zero_le _)) hn
  rw [UInt64.le_iff_toNat_le, UInt64.toNat_ofNat'] at hmax
  have := Nat.mod_le (length - 1) (2 ^ 64)
  omega

theorem index32_lt {length place : Nat} {source rest : σ} (hlength : 0 < length)
    (h : index32 length source = some (place, rest)) : place < length := by
  unfold index32 at h
  split at h
  · obtain ⟨n, hn, rfl⟩ := map_eq_some.1 h
    obtain ⟨-, hmax⟩ := between32_mem (UInt32.le_iff_toNat_le.2 (Nat.zero_le _)) hn
    rw [UInt32.le_iff_toNat_le, UInt32.toNat_ofNat'] at hmax
    have := Nat.mod_le (length - 1) (2 ^ 32)
    omega
  · exact index64_lt hlength h

theorem below32_lt {total n : Nat} {source rest : σ} (htotal : 0 < total)
    (h : below32 total source = some (n, rest)) : n < total := by
  obtain ⟨word, before, hword, haccept⟩ := firstAccepted_eq_some h
  obtain ⟨w, -, rfl⟩ := map_eq_some.1 hword
  exact scaled?_lt w.toNat_lt htotal haccept

end Draw

/-! ## Weighted choice -/

namespace Weighted

variable {σ : Type} [WordSource σ]

theorem crossing?_mem {remaining : Float} {items : List Weighted} {item : Weighted}
    (h : crossing? remaining items = some item) : item ∈ items := by
  induction items generalizing remaining with
  | nil => simp [crossing?] at h
  | cons first rest ih =>
    simp only [crossing?] at h
    split at h
    · cases h
      exact List.mem_cons_self
    · exact List.mem_cons_of_mem _ (ih h)

theorem getD_crossing?_mem {remaining : Float} {items : List Weighted} {last : Weighted}
    (hlast : items.getLast? = some last) : (crossing? remaining items).getD last ∈ items := by
  cases hcross : crossing? remaining items with
  | none => exact List.mem_of_getLast? hlast
  | some item => exact crossing?_mem hcross

theorem choose_mem {items : List Weighted} {source rest : σ} {picked : Option Weighted}
    (h : choose items source = some (picked, rest)) :
    (items = [] ∧ picked = none) ∨ ∃ item ∈ items, picked = some item := by
  cases hlast : items.getLast? with
  | none =>
    simp only [choose, hlast] at h
    obtain ⟨rfl, -⟩ := pure_eq_some.1 h
    exact .inl ⟨List.getLast?_eq_none_iff.1 hlast, rfl⟩
  | some last =>
    simp only [choose, hlast] at h
    split at h
    · obtain ⟨rfl, -⟩ := pure_eq_some.1 h
      exact .inr ⟨last, List.mem_of_getLast? hlast, rfl⟩
    · obtain ⟨share, t, -, hp⟩ := bind_eq_some.1 h
      obtain ⟨rfl, -⟩ := pure_eq_some.1 hp
      exact .inr ⟨_, getD_crossing?_mem hlast, rfl⟩

theorem chooseText_mem {entries : List Text} {source rest : σ} {picked : Option Text}
    (h : chooseText entries source = some (picked, rest)) :
    (entries = [] ∧ picked = none) ∨ ∃ entry ∈ entries, picked = some (strip entry) := by
  obtain ⟨item, t, hitem, hp⟩ := bind_eq_some.1 h
  obtain ⟨rfl, rfl⟩ := pure_eq_some.1 hp
  rcases choose_mem hitem with ⟨hnil, rfl⟩ | ⟨item, hmem, rfl⟩
  · exact .inl ⟨List.map_eq_nil_iff.1 hnil, rfl⟩
  · obtain ⟨entry, hentry, rfl⟩ := List.mem_map.1 hmem
    exact .inr ⟨entry, hentry, rfl⟩

theorem exists_choose {items : List Weighted} (hne : items ≠ []) (source : σ) :
    ∃ item ∈ items, ∃ rest, choose items source = some (some item, rest) := by
  obtain ⟨last, hlast⟩ := Option.ne_none_iff_exists'.1 (mt List.getLast?_eq_none_iff.1 hne)
  have hends : (choose items source).isSome := by
    simp only [choose, hlast]
    split <;> rfl
  obtain ⟨⟨picked, rest⟩, hchoose⟩ := Option.isSome_iff_exists.1 hends
  rcases choose_mem hchoose with ⟨hnil, -⟩ | ⟨item, hmem, rfl⟩
  · exact absurd hnil hne
  · exact ⟨item, hmem, rest, hchoose⟩

theorem exists_chooseText {entries : List Text} (hne : entries ≠ []) (source : σ) :
    ∃ entry ∈ entries, ∃ rest, chooseText entries source = some (some (strip entry), rest) := by
  obtain ⟨item, hmem, rest, hchoose⟩ := exists_choose (mt List.map_eq_nil_iff.1 hne) source
  obtain ⟨entry, hentry, rfl⟩ := List.mem_map.1 hmem
  exact ⟨entry, hentry, rest, bind_of_some hchoose⟩

end Weighted

end RandomTables
