import RandomTables.Proofs.Evaluation.Entry

/-! # What a tree can mean

The texts that a tree may give, without a source of words: every choice is open. A rule leads from
a tree and the budget spent before it to a text and the budget spent after it.
-/

namespace RandomTables

/-- A reference may draw this many times, in whichever order its bounds come. -/
def Repetition.Allows : Repetition → Nat → Prop
  | .fixed count, n => n = count.toNat
  | .range low high, n => min low.toNat high.toNat ≤ n ∧ n ≤ max low.toNat high.toNat

/-- What the rules of meaning depend on. -/
structure Setting where
  tables : Store
  maxDepth : Nat
  /-- The word may be invented from these candidates. -/
  invents : List Text → Text → Prop

/-- The tables of an evaluator, and the words that a source of this kind lets it invent. -/
def Evaluator.setting (evaluator : Evaluator) (σ : Type) [WordSource σ] (maxDepth : Nat) :
    Setting where
  tables := evaluator.tables
  maxDepth
  invents := fun candidates word =>
    ∃ source rest : σ, Name.invent candidates evaluator.names source = some (word, rest)

mutual

/-- The tree gives the text, and the spent budget goes from the first number to the second. -/
inductive NodeGives (setting : Setting) : Node → Nat → Text → Nat → Prop where
  | text (value : Text) (depth : Nat) : NodeGives setting (.text value) depth value depth
  | reference {ref depth text depth'} :
      ReferenceGives setting ref depth text depth' →
      NodeGives setting (.reference ref) depth text depth'
  | all {parts depth text depth'} :
      PartsGive setting (parts.map Node.required) depth text depth' →
      NodeGives setting (.all parts) depth text depth'
  | noOption (depth : Nat) : NodeGives setting (.oneOf []) depth [] depth
  | oneOf {options option depth text depth'} :
      option ∈ options →
      NodeGives setting option depth text depth' →
      NodeGives setting (.oneOf options) depth text depth'
  | group {inner depth text depth'} :
      NodeGives setting inner depth text depth' →
      NodeGives setting (.group inner) depth text depth'
  | number {low high : UInt64} {n : Nat} (depth : Nat) :
      min low.toNat high.toNat ≤ n →
      n ≤ max low.toNat high.toNat →
      NodeGives setting (.number low high) depth (Text.ofNat n) depth
  | article (depth : Nat) : NodeGives setting .article depth Article.placeholder depth
  | sequence {parts depth text depth'} :
      PartsGive setting parts depth text depth' →
      NodeGives setting (.sequence parts) depth text depth'

/-- Some trees give the text together, one after another. -/
inductive PartsGive (setting : Setting) : List Node → Nat → Text → Nat → Prop where
  | nil (depth : Nat) : PartsGive setting [] depth [] depth
  | cons {node rest depth first depth' more depth''} :
      NodeGives setting node depth first depth' →
      PartsGive setting rest depth' more depth'' →
      PartsGive setting (node :: rest) depth (first ++ more) depth''

inductive ReferenceGives (setting : Setting) : Reference → Nat → Text → Nat → Prop where
  | skipped {ref : Reference} (depth : Nat) :
      ref.isOptional → ReferenceGives setting ref depth [] depth
  | drawn {ref : Reference} {count depth results depth'} :
      ref.repetition.Allows count →
      DrawsGive setting ref (min count Repetition.limit) depth results depth' →
      ReferenceGives setting ref depth
        ([',', ' '].intercalate (results.filter (!·.isEmpty))) depth'

/-- So many draws of a reference give these results. -/
inductive DrawsGive (setting : Setting) : Reference → Nat → Nat → List Text → Nat → Prop where
  | zero (ref : Reference) (depth : Nat) : DrawsGive setting ref 0 depth [] depth
  | succ {ref count depth first depth' rest depth''} :
      DrawGives setting ref depth first depth' →
      DrawsGive setting ref count depth' rest depth'' →
      DrawsGive setting ref (count + 1) depth (first :: rest) depth''

/-- One draw of a reference gives the text. -/
inductive DrawGives (setting : Setting) : Reference → Nat → Text → Nat → Prop where
  | missing {ref : Reference} (depth : Nat) :
      setting.tables.list? ref.path = none →
      DrawGives setting ref depth [] depth
  | excluded {ref : Reference} {entries : List Text} (depth : Nat) :
      setting.tables.list? ref.path = some entries →
      (∀ entry ∈ entries, isExcluded ref.exclusions (Weighted.strip entry)) →
      DrawGives setting ref depth [] depth
  | selected {ref : Reference} {entries : List Text} {entry depth text depth'} :
      setting.tables.list? ref.path = some entries →
      entry ∈ entries →
      ¬ isExcluded ref.exclusions (Weighted.strip entry) →
      .markov ∉ ref.modifiers →
      EntryGives setting (Weighted.strip entry) depth text depth' →
      DrawGives setting ref depth (Modifier.applyAll ref.modifiers text) depth'
  | invented {ref : Reference} {entries : List Text} {word : Text} (depth : Nat) :
      setting.tables.list? ref.path = some entries →
      ref.candidates entries ≠ [] →
      .markov ∈ ref.modifiers →
      setting.invents (ref.candidates entries) word →
      DrawGives setting ref depth (Modifier.applyAll ref.modifiers word) depth

/-- An entry without its weight gives the text. -/
inductive EntryGives (setting : Setting) : Text → Nat → Text → Nat → Prop where
  | literal {value inner : Text} (depth : Nat) :
      literal? value = some inner → EntryGives setting value depth inner depth
  | plain {value : Text} (depth : Nat) :
      literal? value = none → '[' ∉ value → '{' ∉ value →
      EntryGives setting value depth value depth
  | unresolved {value : Text} {depth : Nat} :
      literal? value = none → '[' ∈ value ∨ '{' ∈ value → setting.maxDepth ≤ depth →
      EntryGives setting value depth value depth
  | resolved {value depth text depth'} :
      literal? value = none → '[' ∈ value ∨ '{' ∈ value → depth < setting.maxDepth →
      NodeGives setting (parse value) (depth + 1) text depth' →
      EntryGives setting value depth text depth'

end

end RandomTables
