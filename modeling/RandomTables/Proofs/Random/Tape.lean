import RandomTables.Proofs.Random.Bounds
import RandomTables.Proofs.Random.Congruence

/-! # Draws on tape

A source may keep the words that it hands out. No draw notices, for draws depend on nothing but the
words.
-/

namespace RandomTables

/-! ## The same computation in the image of a state -/

/-- In the image of a state the second computation does what the first does in the state. -/
def Mirrors {s t α : Type} (f : s → t) (m : StateT s Option α) (m' : StateT t Option α) : Prop :=
  ∀ state, m' (f state) = (m state).map fun (a, later) => (a, f later)

section

variable {s t α β : Type} {f : s → t}

theorem mirrors_pure (a : α) : Mirrors f (pure a) (pure a) := fun _ => rfl

theorem Mirrors.bind {m : StateT s Option α} {m' : StateT t Option α} {k : α → StateT s Option β}
    {k' : α → StateT t Option β} (hm : Mirrors f m m') (hk : ∀ a, Mirrors f (k a) (k' a)) :
    Mirrors f (m >>= k) (m' >>= k') := by
  intro state
  have hfirst := hm state
  cases hrun : m state with
  | none =>
    rw [hrun] at hfirst
    rw [bind_of_none hrun, bind_of_none hfirst]
    rfl
  | some step =>
    obtain ⟨a, middle⟩ := step
    rw [hrun] at hfirst
    rw [bind_of_some hrun, bind_of_some hfirst]
    exact hk a middle

theorem Mirrors.map {m : StateT s Option α} {m' : StateT t Option α} (g : α → β)
    (hm : Mirrors f m m') : Mirrors f (g <$> m) (g <$> m') := by
  rw [map_eq_pure_bind, map_eq_pure_bind]
  exact hm.bind fun a => mirrors_pure (g a)

end

/-! ## The same words from another source -/

/-- The image of a source hands out the words of the source. -/
structure Embedding {σ τ : Type} [WordSource σ] [WordSource τ] (f : σ → τ) : Prop where
  next32 (source : σ) :
    WordSource.next32 (f source) =
      ((WordSource.next32 source).1, f (WordSource.next32 source).2)
  next64 (source : σ) :
    WordSource.next64 (f source) =
      ((WordSource.next64 source).1, f (WordSource.next64 source).2)

namespace Draw

variable {σ τ α : Type} {f : σ → τ}

theorem firstAccepted_image {next : Draw σ Nat} {next' : Draw τ Nat} {accept : Nat → Option α}
    (hnext : Mirrors f next next') {source rest : σ} {a : α}
    (h : firstAccepted next accept source = some (a, rest)) :
    firstAccepted next' accept (f source) = some (a, f rest) := by
  refine firstAccepted.partial_correctness next accept
    (fun source r => firstAccepted next' accept (f source) = some (r.1, f r.2))
    (fun later ih source r hr => ?_) source (a, rest) h
  rw [firstAccepted, hnext source]
  split at hr
  · cases hr
  · next word left hword =>
    rw [hword]
    dsimp only [Option.map_some]
    split at hr
    · cases hr
      rfl
    · exact ih _ _ hr

theorem firstAccepted_preimage {next : Draw σ Nat} {next' : Draw τ Nat} {accept : Nat → Option α}
    (hnext : Mirrors f next next') {source : σ} {r : α × τ}
    (h : firstAccepted next' accept (f source) = some r) :
    (firstAccepted next accept source).isSome := by
  refine firstAccepted.partial_correctness next' accept
    (fun image _ => ∀ source, f source = image → (firstAccepted next accept source).isSome)
    (fun later ih image r hr source himage => ?_) (f source) r h source rfl
  subst himage
  rw [firstAccepted]
  rw [hnext source] at hr
  cases hword : next source with
  | none =>
    rw [hword] at hr
    cases hr
  | some step =>
    rw [hword] at hr
    dsimp only [Option.map_some] at hr ⊢
    split at hr
    · rfl
    · exact ih _ _ hr _ rfl

theorem mirrors_firstAccepted {next : Draw σ Nat} {next' : Draw τ Nat} {accept : Nat → Option α}
    (hnext : Mirrors f next next') :
    Mirrors f (firstAccepted next accept) (firstAccepted next' accept) := by
  intro source
  cases hrun : firstAccepted next accept source with
  | some step => exact firstAccepted_image hnext hrun
  | none =>
    cases hrun' : firstAccepted next' accept (f source) with
    | none => rfl
    | some step =>
      have hsome := firstAccepted_preimage hnext hrun'
      rw [hrun] at hsome
      cases hsome

variable [WordSource σ] [WordSource τ]

theorem mirrors_word64 (hf : Embedding f) : Mirrors f word64 word64 := by
  intro source
  show some (WordSource.next64 (f source)) = _
  rw [hf.next64]
  rfl

theorem mirrors_word32 (hf : Embedding f) : Mirrors f word32 word32 := by
  intro source
  show some (WordSource.next32 (f source)) = _
  rw [hf.next32]
  rfl

theorem mirrors_congruence (hf : Embedding f) :
    Congruence fun {α} (d : Draw σ α) (d' : Draw τ α) => Mirrors f d d' where
  pure := mirrors_pure
  bind := Mirrors.bind
  word64 := mirrors_word64 hf
  between64 _ := by
    unfold between64
    dsimp only
    split
    · exact mirrors_word64 hf
    · exact (mirrors_firstAccepted ((mirrors_word64 hf).map _)).bind fun _ => mirrors_pure _
  between32 _ := by
    unfold between32
    dsimp only
    split
    · exact mirrors_word32 hf
    · exact (mirrors_firstAccepted ((mirrors_word32 hf).map _)).bind fun _ => mirrors_pure _
  below32 _ _ := mirrors_firstAccepted ((mirrors_word32 hf).map _)

end Draw

/-! ## The tape -/

inductive Word where
  | short (value : UInt32)
  | long (value : UInt64)
  deriving DecidableEq

/-- A source with the words it has handed out, in order. -/
structure Taped (σ : Type) where
  source : σ
  words : List Word := []

instance {σ : Type} [WordSource σ] : WordSource (Taped σ) where
  next32 taped :=
    let (word, source) := WordSource.next32 taped.source
    (word, { source, words := taped.words ++ [.short word] })
  next64 taped :=
    let (word, source) := WordSource.next64 taped.source
    (word, { source, words := taped.words ++ [.long word] })

theorem embedding_taped {σ : Type} [WordSource σ] : Embedding (Taped.source : Taped σ → σ) where
  next32 _ := rfl
  next64 _ := rfl

/-- The words that a draw takes, in order. -/
def Draw.words {σ α : Type} (d : Draw (Taped σ) α) (source : σ) : Option (List Word) :=
  (d { source }).map fun (_, rest) => rest.words

end RandomTables
