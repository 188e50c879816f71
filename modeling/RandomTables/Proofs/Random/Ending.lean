import RandomTables.Proofs.Random.Bounds
import RandomTables.Proofs.Random.Congruence

/-! # Sources on which draws end

A draw that rejects words goes on for as long as no word fits. Draws do nothing to a source but take
words from it, so it is enough that each one ends after any number of words.
-/

namespace RandomTables

variable {σ : Type} [WordSource σ]

/-- A source that is left after some words were taken. -/
inductive Later (source : σ) : σ → Prop where
  | refl : Later source source
  | next32 {later : σ} : Later source later → Later source (WordSource.next32 later).2
  | next64 {later : σ} : Later source later → Later source (WordSource.next64 later).2

/-- Each single draw ends, now and after any words were taken. -/
structure DrawsEnd (source : σ) : Prop where
  between64 {later : σ} {low high : UInt64} : Later source later → low ≤ high →
    (Draw.between64 low high later).isSome
  between32 {later : σ} {low high : UInt32} : Later source later → low ≤ high →
    (Draw.between32 low high later).isSome
  below32 {later : σ} {total : Nat} : Later source later → 0 < total → total < UInt32.size →
    (Draw.below32 total later).isSome

theorem Later.trans {a b c : σ} (hab : Later a b) (hbc : Later b c) : Later a c := by
  induction hbc with
  | refl => exact hab
  | next32 _ ih => exact ih.next32
  | next64 _ ih => exact ih.next64

theorem DrawsEnd.later {source later : σ} (h : DrawsEnd source) (hlater : Later source later) :
    DrawsEnd later where
  between64 hstep := h.between64 (hlater.trans hstep)
  between32 hstep := h.between32 (hlater.trans hstep)
  below32 hstep := h.below32 (hlater.trans hstep)

/-! ## What a draw leaves of a source -/

namespace Draw

/-- The draw takes words from a source and does nothing else to it. -/
def Takes {α : Type} (d : Draw σ α) : Prop :=
  ∀ source a rest, d source = some (a, rest) → Later source rest

variable {α β : Type}

theorem takes_pure (a : α) : Takes (pure a : Draw σ α) := by
  intro source b rest h
  obtain ⟨-, rfl⟩ := pure_eq_some.1 h
  exact .refl

theorem Takes.bind {d : Draw σ α} {k : α → Draw σ β} (hd : Takes d) (hk : ∀ a, Takes (k a)) :
    Takes (d >>= k) := by
  intro source b rest h
  obtain ⟨a, middle, ha, hb⟩ := bind_eq_some.1 h
  exact (hd _ _ _ ha).trans (hk a _ _ _ hb)

theorem Takes.map {d : Draw σ α} (f : α → β) (hd : Takes d) : Takes (f <$> d) := by
  rw [map_eq_pure_bind]
  exact hd.bind fun a => takes_pure (f a)

theorem Takes.firstAccepted {next : Draw σ Nat} {accept : Nat → Option α} (hnext : Takes next) :
    Takes (firstAccepted next accept) := by
  intro source a rest h
  refine firstAccepted.partial_correctness next accept (fun source r => Later source r.2)
    (fun later ih source r hr => ?_) source (a, rest) h
  split at hr
  · cases hr
  · next word left hword =>
    have hleft := hnext _ _ _ hword
    split at hr
    · cases hr
      exact hleft
    · exact hleft.trans (ih _ _ hr)

theorem takes_word32 : Takes (word32 : Draw σ UInt32) := by
  intro source word rest h
  obtain rfl := congrArg Prod.snd (Option.some.inj h)
  exact Later.refl.next32

theorem takes_word64 : Takes (word64 : Draw σ UInt64) := by
  intro source word rest h
  obtain rfl := congrArg Prod.snd (Option.some.inj h)
  exact Later.refl.next64

theorem takes_between64 (low high : UInt64) : Takes (between64 low high : Draw σ UInt64) := by
  unfold between64
  dsimp only
  split
  · exact takes_word64
  · exact (takes_word64.map _).firstAccepted.bind fun _ => takes_pure _

theorem takes_between32 (low high : UInt32) : Takes (between32 low high : Draw σ UInt32) := by
  unfold between32
  dsimp only
  split
  · exact takes_word32
  · exact (takes_word32.map _).firstAccepted.bind fun _ => takes_pure _

theorem takes_below32 (total : Nat) : Takes (below32 total : Draw σ Nat) :=
  (takes_word32.map _).firstAccepted

/-! ## Draws put together -/

/-- The draw ends on every source on which each single draw ends. -/
structure Ends (d : Draw σ α) : Prop where
  takes : Takes d
  isSome {source : σ} : DrawsEnd source → (d source).isSome

theorem ends_pure (a : α) : Ends (pure a : Draw σ α) := ⟨takes_pure a, fun _ => rfl⟩

theorem Ends.bind {d : Draw σ α} {k : α → Draw σ β} (hd : Ends d) (hk : ∀ a, Ends (k a)) :
    Ends (d >>= k) := by
  refine ⟨hd.takes.bind fun a => (hk a).takes, fun hsource => ?_⟩
  obtain ⟨⟨a, middle⟩, ha⟩ := Option.isSome_iff_exists.1 (hd.isSome hsource)
  rw [bind_of_some ha]
  exact (hk a).isSome (hsource.later (hd.takes _ _ _ ha))

theorem ends_congruence : Congruence fun {α} (d : Draw σ α) (_ : Draw σ α) => Ends d where
  pure := ends_pure
  bind := Ends.bind
  word64 := ⟨takes_word64, fun _ => rfl⟩
  between64 hle := ⟨takes_between64 _ _, fun hsource => hsource.between64 .refl hle⟩
  between32 hle := ⟨takes_between32 _ _, fun hsource => hsource.between32 .refl hle⟩
  below32 hpos hlt := ⟨takes_below32 _, fun hsource => hsource.below32 .refl hpos hlt⟩

end Draw

/-! ## Zeros -/

/-- The source that hands out zeros. -/
inductive Zeros where
  | zeros

instance : WordSource Zeros where
  next32 source := (0, source)
  next64 source := (0, source)

omit [WordSource σ] in
theorem Draw.firstAccepted_of_accept {α : Type} {next : Draw σ Nat} {accept : Nat → Option α}
    {source rest : σ} {word : Nat} {a : α} (hnext : next source = some (word, rest))
    (haccept : accept word = some a) : firstAccepted next accept source = some (a, rest) := by
  rw [Draw.firstAccepted, hnext]
  dsimp only
  rw [haccept]

theorem Draw.scaled?_zero (bits range zone : Nat) : scaled? bits range zone 0 = some 0 := by
  simp [scaled?]

theorem drawsEnd_zeros (source : Zeros) : DrawsEnd source := by
  refine ⟨?_, ?_, ?_⟩
  · intro later low high _ _
    unfold Draw.between64
    split
    · rfl
    · rw [bind_of_some (Draw.firstAccepted_of_accept rfl (Draw.scaled?_zero _ _ _))]
      rfl
  · intro later low high _ _
    unfold Draw.between32
    split
    · rfl
    · rw [bind_of_some (Draw.firstAccepted_of_accept rfl (Draw.scaled?_zero _ _ _))]
      rfl
  · intro later total _ _ _
    unfold Draw.below32
    rw [Draw.firstAccepted_of_accept rfl (Draw.scaled?_zero _ _ _)]
    rfl

end RandomTables
