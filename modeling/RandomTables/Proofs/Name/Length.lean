import RandomTables.Proofs.Name.Attempts
import RandomTables.Proofs.Text.Case

/-! # The length of an invented word

A walk keeps to the bounds before its word gets a capital, and a capital can be longer than the letter
that it stands for.
-/

namespace RandomTables.Name

variable {σ : Type} [WordSource σ]

namespace Model

/-! ## The letters of a walk -/

theorem Letters.ne_wordEnd {model : Model} {context letters : Text} {source rest : σ}
    (h : Letters model context source letters rest) : ∀ c ∈ letters, c ≠ wordEnd := by
  induction h with
  | nil => exact fun _ hmem => absurd hmem List.not_mem_nil
  | cons _ hc _ ih => exact List.forall_mem_cons.2 ⟨hc, ih⟩

theorem Follows.mem_lower {words : List Text} {order : Nat} {context : Text} {c : Char}
    (h : Follows words order context c) (hc : c ≠ wordEnd) : ∃ known ∈ words, c ∈ Text.lower known := by
  obtain ⟨known, hknown, -, htransition⟩ := h
  obtain ⟨before, after, hsplit, -⟩ := mem_transitions.1 htransition
  have hmem : c ∈ Text.lower known ++ [wordEnd] := by simp [hsplit]
  refine ⟨known, hknown, (List.mem_append.1 hmem).resolve_right fun hend => hc ?_⟩
  exact List.mem_singleton.1 hend

theorem letters_of_walk {words : List Text} (hwords : ∃ word ∈ words, word ≠ []) {order : Nat}
    {options : Options} {source rest : σ} {letters : Text}
    (h : (train words order).walk options source = some (some letters, rest)) :
    options.minLength ≤ letters.length ∧ letters.length ≤ options.maxLength ∧
      ∀ c ∈ letters, ∃ known ∈ words, c ∈ Text.lower known := by
  obtain ⟨drawn, middle, hletters, hmax, houtcome, -⟩ | ⟨_, -, -, hnone⟩ := walk_eq_some hwords h
  · split at houtcome
    · cases houtcome
    · next hmin =>
      obtain rfl := Option.some.inj houtcome
      refine ⟨Nat.le_of_not_lt hmin, hmax, fun c hc => ?_⟩
      obtain ⟨before, after, hsplit⟩ := List.append_of_mem hc
      have hfollows := (hletters.follows (exists_follows_start hwords)).1
      exact (hfollows _ c (mem_transitions.2 ⟨before, after, hsplit, rfl⟩)).mem_lower
        (hletters.ne_wordEnd c hc)
  · cases hnone

theorem Walks.exists_walk {model : Model} {options : Options} {source rest : σ}
    {outcomes : List (Option Text)} (h : Walks model options source outcomes rest)
    {outcome : Option Text} (hmem : outcome ∈ outcomes) :
    ∃ before after : σ, model.walk options before = some (outcome, after) := by
  induction h with
  | nil => cases hmem
  | cons hwalk _ ih =>
    rcases List.mem_cons.1 hmem with rfl | hmem
    · exact ⟨_, _, hwalk⟩
    · exact ih hmem

end Model

/-! ## The word -/

theorem exists_mem_cleanWords {entries : List Text} (h : cleanWords entries ≠ []) :
    ∃ word ∈ cleanWords entries, word ≠ [] := by
  obtain ⟨word, hword⟩ := List.exists_mem_of_ne_nil _ h
  exact ⟨word, hword, by simpa using (List.mem_filter.1 hword).2⟩

theorem Invents.mem_or_capitalize {words : List Text} {options : Options} {source rest : σ}
    {word : Text} (h : Invents words options source word rest) :
    word ∈ words ∨ ∃ (letters : Text) (before after : σ),
      (Model.train words options.order).walk options before = some (some letters, after) ∧
        word = Text.capitalize letters := by
  cases h with
  | @new outcomes letters _ hwalks hroom hknown hnew =>
    obtain ⟨before, after, hwalk⟩ := hwalks.exists_walk (List.mem_append_right _ List.mem_cons_self)
    exact .inr ⟨letters, before, after, hwalk, rfl⟩
  | @known outcomes letters _ hwalks hlength hknown hfirst =>
    obtain ⟨outcome, hmem, heq⟩ := List.exists_of_findSome?_eq_some hfirst
    obtain rfl : outcome = some letters := heq
    obtain ⟨before, after, hwalk⟩ := hwalks.exists_walk hmem
    exact .inr ⟨letters, before, after, hwalk, rfl⟩
  | drawn hwalks hlength hfailed hdraw hword => exact .inl (List.mem_of_getElem? hword)

/-- An invention from a usable entry returns a training word as it is, or a word within the bounds that
got a capital. It is longer than the letters of its walk by what the capital takes, which is nothing
where each letter of the training words has a capital of its own, and two code points at most. -/
theorem invent?_length {entries : List Text}
    (husable : ∃ entry ∈ entries, Text.trim (Weighted.strip entry) ≠ []) (options : Options)
    (source : σ) :
    (DrawsEnd source → (invent? entries options source).isSome) ∧
    ∀ outcome rest, invent? entries options source = some (outcome, rest) →
      ∃ word, outcome = .ok word ∧
        (word ∈ cleanWords entries ∨ ∃ letters, word = Text.capitalize letters ∧
          options.minLength ≤ letters.length ∧ letters.length ≤ options.maxLength ∧
          word.length = letters.length + Text.growth letters ∧ Text.growth letters ≤ 2) ∧
        ((∀ known ∈ cleanWords entries, ∀ c ∈ Text.lower known, (Text.upperChar c).length = 1) →
          word ∈ cleanWords entries ∨
            options.minLength ≤ word.length ∧ word.length ≤ options.maxLength) := by
  refine ⟨(Draw.ends_congruence.invent? entries options).isSome, fun outcome rest h => ?_⟩
  have hclean := cleanWords_ne_nil_iff.2 husable
  obtain ⟨word, rfl, hinvents⟩ := invents_of_invent? hclean h
  refine ⟨word, rfl, ?_⟩
  obtain hmem | ⟨letters, before, after, hwalk, rfl⟩ := hinvents.mem_or_capitalize
  · exact ⟨.inl hmem, fun _ => .inl hmem⟩
  · obtain ⟨hmin, hmax, hletters⟩ := Model.letters_of_walk (exists_mem_cleanWords hclean) hwalk
    have hlower : Text.dottedI ∉ letters := fun hmem => by
      obtain ⟨known, -, hknown⟩ := hletters _ hmem
      exact Text.dottedI_not_mem_lower known hknown
    have hlength := Text.length_capitalize hlower
    refine ⟨.inr ⟨letters, rfl, hmin, hmax, hlength, Text.growth_le letters⟩, fun hsingle => .inr ?_⟩
    have hgrowth : Text.growth letters = 0 := by
      cases letters with
      | nil => rfl
      | cons c rest =>
        obtain ⟨known, hknown, hc⟩ := hletters c List.mem_cons_self
        rw [Text.growth, hsingle known hknown c hc]
    rw [hlength, hgrowth]
    exact ⟨hmin, hmax⟩

theorem invent?_length_ash : ∃ word rest,
    invent? ["Ash ^2".toList] {} Zeros.zeros = some (.ok word, rest) ∧
      (word ∈ cleanWords ["Ash ^2".toList] ∨ 3 ≤ word.length ∧ word.length ≤ 12) := by
  have husable : ∃ entry ∈ ["Ash ^2".toList], Text.trim (Weighted.strip entry) ≠ [] :=
    ⟨_, List.mem_cons_self, by decide⟩
  obtain ⟨hends, hlength⟩ := invent?_length husable {} Zeros.zeros
  obtain ⟨⟨outcome, rest⟩, hrun⟩ := Option.isSome_iff_exists.1 (hends (drawsEnd_zeros _))
  obtain ⟨word, rfl, -, hbounds⟩ := hlength outcome rest hrun
  have hwords : cleanWords ["Ash ^2".toList] = ["Ash".toList] := by decide
  refine ⟨word, rest, hrun, hbounds ?_⟩
  rw [hwords]
  exact List.forall_mem_singleton.2 (Text.forall_of_all (by decide))

/-! ## A capital of two letters -/

def sharp : List Text := ["ß".toList]

/-- Exactly one letter, from one walk. -/
def oneLetter : Options := { order := 1, minLength := 1, maxLength := 1, maxAttempts := 1 }

theorem walk_sharp : (Model.train sharp 1).walk oneLetter Zeros.zeros = some (some "ß".toList, .zeros) := by
  have hstart : (Model.train sharp 1).rows.lookup [wordStart] = some [('ß', 1)] := by decide
  have hsharp : (Model.train sharp 1).rows.lookup ['ß'] = some [(wordEnd, 1)] := by decide
  have hletters : Model.Letters (Model.train sharp 1) [wordStart] Zeros.zeros "ß".toList .zeros :=
    .cons (Model.next_of_accepted hstart (by decide) (by decide : _ = some 0) rfl) (by decide) .nil
  have hend : (Model.train sharp 1).next ['ß'] Zeros.zeros = some (some wordEnd, .zeros) :=
    Model.next_of_accepted hsharp (by decide) (by decide : _ = some 0) rfl
  exact bind_of_some (hletters.walkFrom hend (by decide))

/-- The bounds are not kept where the capital of a letter is two letters. -/
theorem invent?_outgrows : invent? sharp oneLetter Zeros.zeros = some (.ok "SS".toList, .zeros) ∧
    "SS".toList ∉ cleanWords sharp ∧ oneLetter.maxLength < "SS".toList.length := by
  have hinvents : Invents (cleanWords sharp) oneLetter Zeros.zeros
      (Text.capitalize "ß".toList) .zeros := by
    have hclean : cleanWords sharp = sharp := by decide
    have hlower : "ß".toList ∈ sharp.map Text.lower := by decide
    rw [hclean]
    refine .known (.cons walk_sharp .nil) rfl (fun known hmem => ?_) rfl
    rwa [Option.some.inj (List.mem_singleton.1 hmem)]
  have hcapital : Text.capitalize "ß".toList = "SS".toList := by decide
  have hclean : cleanWords sharp ≠ [] := by decide
  exact ⟨hcapital ▸ hinvents.invent? hclean, by decide, by decide⟩

end RandomTables.Name
