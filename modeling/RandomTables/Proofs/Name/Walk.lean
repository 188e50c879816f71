import RandomTables.Proofs.Name.Training
import RandomTables.Proofs.Random.Ending

/-! # Walks of a trained model

A walk draws what follows its context in the training words, so it never comes to a context without a
row, and each window of the word it gives is one of a training word.
-/

namespace RandomTables.Name

/-! ## Draws from a row -/

theorem exists_entryAt? {n : Nat} {row : Row} (h : n < row.total) :
    ∃ c ∈ row.map Prod.fst, Model.entryAt? n row = some c := by
  induction row generalizing n with
  | nil => cases h
  | cons entry row ih =>
    obtain ⟨c, count⟩ := entry
    rw [Model.entryAt?]
    split
    · exact ⟨c, List.mem_cons_self, rfl⟩
    · next hlater =>
      rw [Row.total] at h
      obtain ⟨d, hd, hentry⟩ := ih (n := n - count) (by omega)
      exact ⟨d, List.mem_cons_of_mem c hd, hentry⟩

/-- The total that a draw from the row has. -/
def Row.drawTotal (row : Row) : Nat := min row.total (UInt32.size - 1)

theorem Row.drawTotal_le (row : Row) : row.drawTotal ≤ row.total := Nat.min_le_left _ _

theorem Row.drawTotal_pos {row : Row} (h : 0 < row.total) : 0 < row.drawTotal :=
  Nat.lt_min.2 ⟨h, by decide⟩

namespace Model

variable {σ : Type} [WordSource σ]

theorem pick_eq {row : Row} (hrow : 0 < row.drawTotal) :
    (pick row : Draw σ (Option Char)) = do return entryAt? (← Draw.below32 row.drawTotal) row := by
  unfold pick
  rw [Row.foldl_eq_total, Nat.zero_add]
  exact if_neg (Nat.ne_of_gt hrow)

theorem pick_eq_some {row : Row} (hrow : 0 < row.total) {source rest : σ} {picked : Option Char}
    (h : pick row source = some (picked, rest)) :
    ∃ c ∈ row.map Prod.fst, picked = some c := by
  have hdrawn := Row.drawTotal_pos hrow
  rw [pick_eq hdrawn] at h
  obtain ⟨n, middle, hdraw, hentry⟩ := bind_eq_some.1 h
  obtain ⟨rfl, rfl⟩ := pure_eq_some.1 hentry
  exact exists_entryAt? (Nat.lt_of_lt_of_le (Draw.below32_lt hdrawn hdraw) row.drawTotal_le)

theorem next_of_accepted {model : Model} {context : Text} {row : Row} {source : σ} {n : Nat}
    {c : Char} (hrow : model.rows.lookup context = some row) (htotal : 0 < row.total)
    (haccept : Draw.scaled? 32 row.drawTotal (Draw.exactZone 32 row.drawTotal)
      (WordSource.next32 source).1.toNat = some n) (hentry : entryAt? n row = some c) :
    model.next context source = some (some c, (WordSource.next32 source).2) := by
  unfold next
  rw [hrow]
  show pick row source = _
  rw [pick_eq (Row.drawTotal_pos htotal)]
  refine (bind_of_some (Draw.firstAccepted_of_accept rfl haccept)).trans ?_
  rw [hentry]
  rfl

variable {words : List Text} {order : Nat}

theorem next_eq_some {context : Text} (h : ∃ c, Follows words (max order 1) context c)
    {source rest : σ} {drawn : Option Char}
    (hnext : (train words order).next context source = some (drawn, rest)) :
    ∃ c, drawn = some c ∧ Follows words (max order 1) context c := by
  obtain ⟨c, hc⟩ := h
  obtain ⟨row, hrow, htotal, hmem⟩ := exists_lookup_train hc
  unfold next at hnext
  rw [hrow] at hnext
  obtain ⟨d, hd, rfl⟩ := pick_eq_some htotal hnext
  exact ⟨d, rfl, (hmem d).1 hd⟩

/-! ## Letters -/

/-- Drawing from a context on gives these letters, none of them the end marker. -/
inductive Letters (model : Model) : (context : Text) → (source : σ) → Text → (rest : σ) → Prop where
  | nil {context : Text} {source : σ} : Letters model context source [] source
  | cons {context letters : Text} {source middle rest : σ} {c : Char}
      (hnext : model.next context source = some (some c, middle)) (hc : c ≠ wordEnd)
      (h : Letters model (shift context c) middle letters rest) :
      Letters model context source (c :: letters) rest

theorem Letters.walkFrom {model : Model} {context letters : Text} {source middle rest : σ}
    (h : Letters model context source letters middle)
    (hend : model.next (letters.foldl shift context) middle = some (some wordEnd, rest)) {room : Nat}
    (hroom : letters.length ≤ room) :
    model.walkFrom room context source = some (some letters, rest) := by
  induction h generalizing room with
  | nil =>
    cases room with
    | zero => exact bind_of_some hend
    | succ room => exact bind_of_some hend
  | @cons context letters source middle' middle c hnext hc _ ih =>
    cases room with
    | zero => cases hroom
    | succ room =>
      refine (bind_of_some hnext).trans ?_
      dsimp only
      rw [if_neg hc]
      exact bind_of_some (ih hend (Nat.le_of_succ_le_succ hroom))

theorem walkFrom_eq_some {room : Nat} {context : Text}
    (hcontext : ∃ c, Follows words (max order 1) context c) {source rest : σ} {word : Option Text}
    (h : (train words order).walkFrom room context source = some (word, rest)) :
    (∃ letters middle, Letters (train words order) context source letters middle ∧
        letters.length ≤ room ∧ word = some letters ∧
        (train words order).next (letters.foldl shift context) middle = some (some wordEnd, rest)) ∨
      ∃ letters, Letters (train words order) context source letters rest ∧
        letters.length = room + 1 ∧ word = none := by
  induction room generalizing context source word with
  | zero =>
    obtain ⟨drawn, middle, hnext, hword⟩ := bind_eq_some.1 h
    obtain ⟨c, rfl, -⟩ := next_eq_some hcontext hnext
    obtain ⟨rfl, rfl⟩ := pure_eq_some.1 hword
    by_cases hc : c = wordEnd
    · subst hc
      exact .inl ⟨[], source, .nil, Nat.le_refl 0, if_pos rfl, hnext⟩
    · exact .inr ⟨[c], .cons hnext hc .nil, rfl, if_neg hc⟩
  | succ room ih =>
    obtain ⟨drawn, middle, hnext, hword⟩ := bind_eq_some.1 h
    obtain ⟨c, rfl, hfollows⟩ := next_eq_some hcontext hnext
    dsimp only at hword
    split at hword
    · next hc =>
      subst hc
      obtain ⟨rfl, rfl⟩ := pure_eq_some.1 hword
      exact .inl ⟨[], source, .nil, Nat.zero_le _, rfl, hnext⟩
    · next hc =>
      obtain ⟨later, middle', hlater, hresult⟩ := bind_eq_some.1 hword
      obtain ⟨rfl, rfl⟩ := pure_eq_some.1 hresult
      rcases ih (hfollows.exists_shift hc) hlater with
        ⟨letters, last, hletters, hlength, rfl, hend⟩ | ⟨letters, hletters, hlength, rfl⟩
      · exact .inl ⟨c :: letters, last, .cons hnext hc hletters, Nat.succ_le_succ hlength, rfl, hend⟩
      · exact .inr ⟨c :: letters, .cons hnext hc hletters, congrArg Nat.succ hlength, rfl⟩

theorem Letters.follows {context letters : Text} {source rest : σ}
    (h : Letters (train words order) context source letters rest)
    (hcontext : ∃ c, Follows words (max order 1) context c) :
    (∀ window c, (window, c) ∈ transitions context letters → Follows words (max order 1) window c) ∧
      ∃ c, Follows words (max order 1) (letters.foldl shift context) c := by
  induction h with
  | nil => exact ⟨fun _ _ hmem => absurd hmem List.not_mem_nil, hcontext⟩
  | @cons context letters source middle rest c hnext hc _ ih =>
    obtain ⟨d, hd, hfollows⟩ := next_eq_some hcontext hnext
    obtain rfl : c = d := Option.some.inj hd
    obtain ⟨hlater, hlast⟩ := ih (hfollows.exists_shift hc)
    refine ⟨fun window d hmem => ?_, hlast⟩
    rcases List.mem_cons.1 hmem with heq | hmem
    · cases heq
      exact hfollows
    · exact hlater window d hmem

/-! ## Walks -/

theorem walk_eq_some (hwords : ∃ word ∈ words, word ≠ []) {options : Options} {source rest : σ}
    {outcome : Option Text}
    (h : (train words order).walk options source = some (outcome, rest)) :
    (∃ letters middle,
        Letters (train words order) (startContext (max order 1)) source letters middle ∧
        letters.length ≤ options.maxLength ∧
        outcome = (if letters.length < options.minLength then none else some letters) ∧
        (train words order).next (letters.foldl shift (startContext (max order 1))) middle =
          some (some wordEnd, rest)) ∨
      ∃ letters, Letters (train words order) (startContext (max order 1)) source letters rest ∧
        letters.length = options.maxLength + 1 ∧ outcome = none := by
  obtain ⟨drawn, middle, hwalk, hresult⟩ := bind_eq_some.1 h
  rcases walkFrom_eq_some (exists_follows_start hwords) hwalk with
    ⟨letters, last, hletters, hlength, rfl, hend⟩ | ⟨letters, hletters, hlength, rfl⟩
  · obtain ⟨rfl, rfl⟩ := pure_eq_some.1 hresult
    exact .inl ⟨letters, last, hletters, hlength, rfl, hend⟩
  · obtain ⟨rfl, rfl⟩ := pure_eq_some.1 hresult
    exact .inr ⟨letters, hletters, hlength, rfl⟩

/-- A walk gives a word within the bounds whose windows are all windows of training words, or nothing,
because it ran over the upper bound or ended below the lower one. It never comes to a context that
nothing follows. -/
theorem walk_within_training (hwords : ∃ word ∈ words, word ≠ []) {options : Options}
    {source rest : σ} {outcome : Option Text}
    (h : (train words order).walk options source = some (outcome, rest)) :
    (∀ word, outcome = some word → options.minLength ≤ word.length ∧
      word.length ≤ options.maxLength ∧
      ∀ window : Text, window.length = max order 1 + 1 → window <:+: padded (max order 1) word →
        ∃ known ∈ words, known ≠ [] ∧ window <:+: padded (max order 1) (Text.lower known)) ∧
    (outcome = none →
      (∃ letters, Letters (train words order) (startContext (max order 1)) source letters rest ∧
        options.maxLength < letters.length) ∨
      ∃ letters middle,
        Letters (train words order) (startContext (max order 1)) source letters middle ∧
        letters.length < options.minLength ∧
        (train words order).next (letters.foldl shift (startContext (max order 1))) middle =
          some (some wordEnd, rest)) ∧
    ∀ letters middle last,
      Letters (train words order) (startContext (max order 1)) source letters middle →
      (train words order).next (letters.foldl shift (startContext (max order 1))) middle ≠
        some (none, last) := by
  have horder : max order 1 ≠ 0 := by omega
  have hstart : ∃ c, Follows words (max order 1) (startContext (max order 1)) c :=
    exists_follows_start hwords
  refine ⟨?_, ?_, fun letters middle last hletters hnone => ?_⟩
  · rintro word rfl
    rcases walk_eq_some hwords h with ⟨letters, middle, hletters, hmax, hword, hend⟩ | ⟨-, -, -, hnone⟩
    · split at hword
      · cases hword
      · next hmin =>
        obtain rfl := Option.some.inj hword
        obtain ⟨hfollows, hlast⟩ := hletters.follows hstart
        obtain ⟨d, hd, hended⟩ := next_eq_some hlast hend
        obtain rfl := Option.some.inj hd
        refine ⟨Nat.le_of_not_lt hmin, hmax, fun window hlength hwindow => ?_⟩
        refine infix_of_follows (fun context c hmem => ?_) horder hlength hwindow
        rw [wordTransitions, transitions_append, List.mem_append] at hmem
        rcases hmem with hmem | hmem
        · exact hfollows context c hmem
        · cases List.mem_singleton.1 hmem
          exact hended
    · cases hnone
  · rintro rfl
    rcases walk_eq_some hwords h with ⟨letters, middle, hletters, -, hword, hend⟩ | ⟨letters, hletters, hlength, -⟩
    · split at hword
      · next hmin => exact .inr ⟨letters, middle, hletters, hmin, hend⟩
      · cases hword
    · exact .inl ⟨letters, hletters, by omega⟩
  · obtain ⟨c, hc, -⟩ := next_eq_some (hletters.follows hstart).2 hnone
    cases hc

def pair : List Text := ["an".toList, "na".toList]

/-- The first entry of a row twice, and then the second one twice. -/
def pairScript : Random.Script := { words := [0, 0, 0x8000000000000000, 0x8000000000000000], state := 0 }

theorem walk_within_training_pair :
    (∃ word ∈ pair, word ≠ []) ∧
      (train pair 1).walk { minLength := 3 } pairScript =
        some (some "ana".toList, { words := [], state := 0 }) ∧
      ∀ window : Text, window.length = 2 → window <:+: padded 1 "ana".toList →
        ∃ known ∈ pair, known ≠ [] ∧ window <:+: padded 1 (Text.lower known) := by
  have hwords : ∃ word ∈ pair, word ≠ [] := ⟨"an".toList, by decide, by decide⟩
  have hstart : (train pair 1).rows.lookup [wordStart] = some [('a', 1), ('n', 1)] := by decide
  have ha : (train pair 1).rows.lookup ['a'] = some [('n', 1), (wordEnd, 1)] := by decide
  have hn : (train pair 1).rows.lookup ['n'] = some [(wordEnd, 1), ('a', 1)] := by decide
  have hletters : Letters (train pair 1) [wordStart] pairScript "ana".toList
      { words := [0x8000000000000000], state := 0 } :=
    .cons (next_of_accepted hstart (by decide) (by decide : _ = some 0) rfl) (by decide)
      (.cons (next_of_accepted ha (by decide) (by decide : _ = some 0) rfl) (by decide)
        (.cons (next_of_accepted hn (by decide) (by decide : _ = some 1) rfl) (by decide) .nil))
  have hend : (train pair 1).next ['a'] ({ words := [0x8000000000000000], state := 0 } : Random.Script) =
      some (some wordEnd, { words := [], state := 0 }) :=
    next_of_accepted ha (by decide) (by decide : _ = some 1) rfl
  have hwalk : (train pair 1).walk { minLength := 3 } pairScript =
      some (some "ana".toList, { words := [], state := 0 }) :=
    bind_of_some (hletters.walkFrom hend (by decide))
  exact ⟨hwords, hwalk, ((walk_within_training hwords hwalk).1 _ rfl).2.2⟩

end Model

end RandomTables.Name
