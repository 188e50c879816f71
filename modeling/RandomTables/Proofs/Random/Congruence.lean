import RandomTables.Name.Invention
import RandomTables.Weight

/-! # Relations between draws

Every draw is put together from four: a word, a number between two bounds in two widths, and a
number below a total. What relates these relates all of them.
-/

namespace RandomTables.Draw

variable {σ τ : Type} [WordSource σ] [WordSource τ]

/-- A relation between draws from two kinds of sources that holds of the four basic draws and is
kept when draws are put together. -/
structure Congruence (Rel : ∀ {α : Type}, Draw σ α → Draw τ α → Prop) : Prop where
  pure {α : Type} (a : α) : Rel (pure a) (pure a)
  bind {α β : Type} {d : Draw σ α} {d' : Draw τ α} {k : α → Draw σ β} {k' : α → Draw τ β} :
    Rel d d' → (∀ a, Rel (k a) (k' a)) → Rel (d >>= k) (d' >>= k')
  word64 : Rel word64 word64
  between64 {low high : UInt64} : low ≤ high → Rel (between64 low high) (between64 low high)
  between32 {low high : UInt32} : low ≤ high → Rel (between32 low high) (between32 low high)
  below32 {total : Nat} : 0 < total → total < UInt32.size → Rel (below32 total) (below32 total)

namespace Congruence

variable {Rel : ∀ {α : Type}, Draw σ α → Draw τ α → Prop} (h : Congruence Rel)

include h

theorem map {α β : Type} {d : Draw σ α} {d' : Draw τ α} (f : α → β) (hd : Rel d d') :
    Rel (f <$> d) (f <$> d') := by
  rw [map_eq_pure_bind, map_eq_pure_bind]
  exact h.bind hd fun a => h.pure (f a)

/-! ## Coins, fractions and places -/

theorem coin : Rel Draw.coin Draw.coin := h.bind h.word64 fun _ => h.pure _

theorem fraction : Rel Draw.fraction Draw.fraction := h.bind h.word64 fun _ => h.pure _

theorem index64 (length : Nat) : Rel (Draw.index64 length) (Draw.index64 length) :=
  h.map _ (h.between64 (UInt64.le_iff_toNat_le.2 (Nat.zero_le _)))

theorem index32 (length : Nat) : Rel (Draw.index32 length) (Draw.index32 length) := by
  unfold Draw.index32
  split
  · exact h.map _ (h.between32 (UInt32.le_iff_toNat_le.2 (Nat.zero_le _)))
  · exact h.index64 length

/-! ## Weighted choice -/

theorem choose (items : List Weighted) : Rel (Weighted.choose items) (Weighted.choose items) := by
  unfold Weighted.choose
  split
  · exact h.pure none
  · dsimp only
    split
    · exact h.pure _
    · exact h.bind h.fraction fun _ => h.pure _

theorem chooseText (entries : List Text) :
    Rel (Weighted.chooseText entries) (Weighted.chooseText entries) :=
  h.bind (h.choose _) fun _ => h.pure _

/-! ## Invented words -/

open Name

theorem pick (row : Row) : Rel (Model.pick row) (Model.pick row) := by
  unfold Model.pick
  dsimp only
  split
  · exact h.pure none
  · next htotal =>
    have hsize : 0 < UInt32.size := by decide
    exact h.bind (h.below32 (Nat.pos_of_ne_zero htotal) (by omega)) fun _ => h.pure _

theorem next (model : Model) (context : Text) : Rel (model.next context) (model.next context) := by
  unfold Model.next
  split
  · exact h.pure none
  · exact h.pick _

theorem walkFrom (model : Model) (room : Nat) (context : Text) :
    Rel (model.walkFrom room context) (model.walkFrom room context) := by
  induction room generalizing context with
  | zero =>
    refine h.bind (h.next model context) fun c => ?_
    cases c with
    | none => exact h.pure none
    | some c => exact h.pure _
  | succ room ih =>
    refine h.bind (h.next model context) fun c => ?_
    cases c with
    | none => exact h.pure none
    | some c =>
      dsimp only
      split
      · exact h.pure _
      · exact h.bind (ih _) fun _ => h.pure _

theorem walk (model : Model) (options : Options) :
    Rel (model.walk options) (model.walk options) := by
  refine h.bind (h.walkFrom model _ _) fun word => ?_
  cases word with
  | none => exact h.pure none
  | some word => exact h.pure _

theorem originWithin (model : Model) (options : Options) (attempts : Nat) (known : Option Text) :
    Rel (model.originWithin options attempts known) (model.originWithin options attempts known) := by
  induction attempts generalizing known with
  | zero => exact h.pure _
  | succ attempts ih =>
    refine h.bind (h.walk model options) fun letters => ?_
    cases letters with
    | none => exact ih known
    | some letters =>
      dsimp only
      split
      · exact ih _
      · exact h.pure _

theorem origin? (entries : List Text) (options : Options) :
    Rel (Name.origin? entries options) (Name.origin? entries options) := by
  unfold Name.origin?
  split
  · exact h.pure _
  · dsimp only
    split
    · exact h.pure _
    · refine h.bind (h.originWithin _ options _ none) fun origin => ?_
      cases origin with
      | some origin => exact h.pure _
      | none =>
        refine h.bind (h.index32 _) fun place => ?_
        split <;> exact h.pure _

theorem invent? (entries : List Text) (options : Options) :
    Rel (Name.invent? entries options) (Name.invent? entries options) :=
  h.map _ (h.origin? entries options)

theorem invent (entries : List Text) (options : Options) :
    Rel (Name.invent entries options) (Name.invent entries options) := by
  refine h.bind (h.invent? entries options) fun outcome => ?_
  cases outcome with
  | ok word => exact h.pure word
  | error failure => exact h.pure _

end Congruence

end RandomTables.Draw
