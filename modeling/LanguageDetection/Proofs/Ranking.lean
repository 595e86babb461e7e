import Mathlib.Data.Prod.Lex
import Mathlib.Data.String.Basic
import LanguageDetection.Proofs.Features
import LanguageDetection.Proofs.Sorting

/-!
# The ranking

The features of a text are put into the order of a key that tells any two languages apart, and over
the rational numbers the scores themselves decide.
-/

namespace LanguageDetection

/-!
## Features in order

`LanguageFeatures.ranksBefore` is the order of a key: the score key and the strong hits descending,
then the identifier ascending.  It is total and transitive, and it tells any two languages apart,
because no two languages share an identifier.  None of this depends on the kind of numbers.

A text is blank, binary or scored (`classify_cases`), and a scored text has every supported language
among its candidates, once.
-/

section Generic

variable {α : Type} [Scalar α]

/-! ### Identifiers -/

namespace Language

/-- The identifier leads back to its language. -/
lemma ofId?_id (language : Language) : ofId? language.id = some language := by
  cases language <;> decide +kernel

/-- No two languages share an identifier. -/
lemma id_injective : Function.Injective id := by
  intro a b h
  have hsome : some a = some b := by
    rw [← ofId?_id a, ← ofId?_id b, h]
  exact Option.some.inj hsome

lemma nodup_supported : supported.Nodup := by
  decide

@[simp] lemma mem_supported {language : Language} : language ∈ supported ↔ language ≠ unknown := by
  cases language <;> decide

end Language

/-! ### The order of the features -/

namespace LanguageFeatures

/-- What the ranking compares, the greatest first but for the identifier. -/
def rankKey (found : LanguageFeatures α) : Intᵒᵈ ×ₗ Natᵒᵈ ×ₗ String :=
  toLex (OrderDual.toDual found.scoreKey,
    toLex (OrderDual.toDual found.strongHits, found.language.id))

/-- The ranking is the order of the keys. -/
theorem ranksBefore_iff {a b : LanguageFeatures α} :
    a.ranksBefore b = true ↔ a.rankKey ≤ b.rankKey := by
  unfold ranksBefore rankKey
  rw [Prod.Lex.toLex_le_toLex, Prod.Lex.toLex_le_toLex]
  split
  · next hscore =>
    simp [OrderDual.toDual_lt_toDual, hscore]
  · next hscore =>
    rw [not_not] at hscore
    split
    · next hstrong =>
      simp [hscore, OrderDual.toDual_lt_toDual, hstrong]
    · next hstrong =>
      rw [not_not] at hstrong
      simp [hscore, hstrong]

/-- The score key decides, then the strong hits, then the identifier. -/
lemma ranksBefore_iff_lex {a b : LanguageFeatures α} :
    a.ranksBefore b = true ↔ b.scoreKey < a.scoreKey ∨ a.scoreKey = b.scoreKey ∧
      (b.strongHits < a.strongHits ∨ a.strongHits = b.strongHits ∧
        a.language.id ≤ b.language.id) := by
  rw [ranksBefore_iff, rankKey, rankKey, Prod.Lex.toLex_le_toLex, Prod.Lex.toLex_le_toLex]
  exact Iff.rfl

/-- The order of the features is transitive. -/
lemma ranksBefore_trans (a b c : LanguageFeatures α) (hab : a.ranksBefore b = true)
    (hbc : b.ranksBefore c = true) : a.ranksBefore c = true := by
  rw [ranksBefore_iff] at hab hbc ⊢
  exact hab.trans hbc

/-- Of two languages one ranks before the other. -/
lemma ranksBefore_total (a b : LanguageFeatures α) :
    a.ranksBefore b = true ∨ b.ranksBefore a = true := by
  rw [ranksBefore_iff, ranksBefore_iff]
  exact le_total _ _

/-- The ranking does not go against the score keys. -/
lemma scoreKey_le_of_ranksBefore {a b : LanguageFeatures α} (h : a.ranksBefore b = true) :
    b.scoreKey ≤ a.scoreKey := by
  rw [ranksBefore_iff] at h
  rcases Prod.Lex.toLex_le_toLex.mp h with hlt | ⟨heq, -⟩
  · exact le_of_lt (OrderDual.toDual_lt_toDual.mp hlt)
  · exact le_of_eq (OrderDual.toDual_inj.mp heq).symm

/-- Features that rank before each other are of one language. -/
theorem language_eq_of_ranksBefore {a b : LanguageFeatures α} (hab : a.ranksBefore b = true)
    (hba : b.ranksBefore a = true) : a.language = b.language := by
  rw [ranksBefore_iff] at hab hba
  have hkey : a.rankKey = b.rankKey := le_antisymm hab hba
  exact Language.id_injective (congrArg (fun key => (ofLex (ofLex key).2).2) hkey)

end LanguageFeatures

/-! ### Sorted features -/

/-- The features in the order of the ranking. -/
def ranking (languages : List (LanguageFeatures α)) : List (LanguageFeatures α) :=
  sortBy LanguageFeatures.ranksBefore languages

lemma ranking_perm (languages : List (LanguageFeatures α)) : (ranking languages).Perm languages :=
  sortBy_perm languages

/-- The ranking is in order. -/
lemma ranking_pairwise (languages : List (LanguageFeatures α)) :
    (ranking languages).Pairwise (fun a b => a.ranksBefore b = true) :=
  sortBy_pairwise LanguageFeatures.ranksBefore_trans LanguageFeatures.ranksBefore_total languages

/-- The first of a ranking has the greatest score key. -/
lemma scoreKey_le_of_ranking_eq_cons {languages rest : List (LanguageFeatures α)}
    {first found : LanguageFeatures α} (h : ranking languages = first :: rest)
    (hfound : found ∈ languages) : found.scoreKey ≤ first.scoreKey := by
  have hmem := (ranking_perm languages).mem_iff.mpr hfound
  have hsorted := ranking_pairwise languages
  rw [h] at hmem hsorted
  rcases List.mem_cons.mp hmem with rfl | hrest
  · exact le_rfl
  · have hbefore := (List.pairwise_cons.mp hsorted).1 found hrest
    exact LanguageFeatures.scoreKey_le_of_ranksBefore hbefore

/-- The order in which the features are listed has no influence on the ranking. -/
theorem ranking_eq_of_perm {languages languages' : List (LanguageFeatures α)}
    (hperm : languages.Perm languages') (hnodup : (languages.map (·.language)).Nodup) :
    ranking languages = ranking languages' := by
  refine sortBy_eq_of_perm LanguageFeatures.ranksBefore_trans LanguageFeatures.ranksBefore_total
    hperm ?_
  intro a ha b hb hab hba
  exact List.inj_on_of_nodup_map hnodup ha hb (LanguageFeatures.language_eq_of_ranksBefore hab hba)

/-! ### Scored texts -/

/-- A text that is neither blank nor binary is scored. -/
def IsScored (thresholds : Thresholds α) (text : List Char) : Prop :=
  Characters.trim text ≠ [] ∧ looksBinary text thresholds.binaryRatioThreshold = false

/-- A text is blank, binary or scored. -/
lemma classify_cases (catalog : Catalog) (thresholds : Thresholds α) (text : List Char)
    (hint : Option String) :
    (Characters.trim text = [] ∧
      classify catalog thresholds text hint = .ofReason .emptyInput [] 0) ∨
    ((Characters.trim text ≠ [] ∧ looksBinary text thresholds.binaryRatioThreshold = true) ∧
      classify catalog thresholds text hint = .ofReason .binaryInput [] 0) ∨
    (IsScored thresholds text ∧
      classify catalog thresholds text hint =
        .rank thresholds (features catalog thresholds text hint)) := by
  unfold classify
  by_cases hblank : Characters.trim text = []
  · exact Or.inl ⟨hblank, if_pos (by simp [hblank])⟩
  · rw [if_neg (by simpa using hblank)]
    cases hbinary : looksBinary text thresholds.binaryRatioThreshold with
    | true => exact Or.inr (Or.inl ⟨⟨hblank, rfl⟩, rfl⟩)
    | false => exact Or.inr (Or.inr ⟨⟨hblank, hbinary⟩, rfl⟩)

/-- A scored text is classified by its ranking. -/
lemma classify_of_isScored {thresholds : Thresholds α} {text : List Char}
    (h : IsScored thresholds text) (catalog : Catalog) (hint : Option String) :
    classify catalog thresholds text hint =
      .rank thresholds (features catalog thresholds text hint) := by
  rcases classify_cases catalog thresholds text hint with
    ⟨hblank, -⟩ | ⟨⟨-, hbinary⟩, -⟩ | ⟨-, hrank⟩
  · exact absurd hblank h.1
  · rw [h.2] at hbinary
    exact absurd hbinary Bool.false_ne_true
  · exact hrank

/-- A hint cannot matter to a text that is not scored. -/
lemma classify_eq_of_not_isScored {thresholds : Thresholds α} {text : List Char}
    (h : ¬ IsScored thresholds text) (catalog : Catalog) (hint hint' : Option String) :
    classify catalog thresholds text hint = classify catalog thresholds text hint' := by
  unfold classify
  by_cases hblank : Characters.trim text = []
  · rw [if_pos (by simp [hblank]), if_pos (by simp [hblank])]
  · have hbinary : looksBinary text thresholds.binaryRatioThreshold = true := by
      by_contra hprints
      exact h ⟨hblank, by simpa using hprints⟩
    rw [if_pos hbinary, if_pos hbinary]

/-- The candidates are the features in order, whether or not one of them is named. -/
lemma rank_ranked (thresholds : Thresholds α) (found : Features α) :
    (Classification.rank thresholds found).ranked = (ranking found.languages).map
      (Classification.candidateOf found.positiveTotal
        (Classification.lengthFactor thresholds found.tokenCount)) := by
  unfold Classification.rank
  dsimp only
  split <;> rfl

/-- A ranking has as many tokens as the features. -/
@[simp] lemma rank_tokenCount (thresholds : Thresholds α) (found : Features α) :
    (Classification.rank thresholds found).tokenCount = found.tokenCount := by
  unfold Classification.rank
  dsimp only
  split <;> rfl

/-- Below the score resolution no candidate is named. -/
lemma rank_of_le {found : Features α} (h : found.positiveTotal ≤ (scoreResolution : α))
    (thresholds : Thresholds α) :
    (Classification.rank thresholds found).inconclusive = some .noEvidence ∧
      (Classification.rank thresholds found).top = .unknown := by
  unfold Classification.rank
  dsimp only
  rw [if_pos h]
  exact ⟨rfl, rfl⟩

/-- Above the score resolution the first candidate is named. -/
lemma rank_of_not_le {found : Features α} (h : ¬ found.positiveTotal ≤ (scoreResolution : α))
    (hsome : found.languages ≠ []) (thresholds : Thresholds α) :
    (Classification.rank thresholds found).inconclusive = none ∧
      (Classification.rank thresholds found).ranked.head? =
        some (Classification.rank thresholds found).top := by
  have hranked : (Classification.rank thresholds found).ranked ≠ [] := by
    rw [rank_ranked, Ne, List.map_eq_nil_iff]
    intro hnil
    have hlength := (ranking_perm found.languages).length_eq
    rw [hnil] at hlength
    exact hsome (List.length_eq_zero_iff.mp hlength.symm)
  obtain ⟨first, hfirst⟩ := Option.isSome_iff_exists.mp (List.isSome_head?.mpr hranked)
  rw [hfirst]
  unfold Classification.rank at hfirst ⊢
  dsimp only at hfirst ⊢
  rw [if_neg h] at hfirst ⊢
  dsimp only at hfirst ⊢
  rw [hfirst]
  exact ⟨rfl, rfl⟩

/-- A result for lack of anything else than evidence is not a ranking. -/
lemma not_isScored_of_inconclusive {thresholds : Thresholds α} {text : List Char}
    {catalog : Catalog} {hint : Option String} {reason : Inconclusive} (hne : reason ≠ .noEvidence)
    (h : (classify catalog thresholds text hint).inconclusive = some reason) :
    ¬ IsScored thresholds text := by
  intro hscored
  rw [classify_of_isScored hscored] at h
  unfold Classification.rank at h
  dsimp only at h
  split at h
  · exact hne (Option.some.inj h).symm
  · cases h

/-- The languages of the candidates are those of the features in order. -/
lemma map_language_rank_ranked (thresholds : Thresholds α) (found : Features α) :
    (Classification.rank thresholds found).ranked.map (·.language) =
      (ranking found.languages).map (·.language) := by
  rw [rank_ranked, List.map_map]
  rfl

/-- A scored text has every supported language in its ranking, once. -/
theorem map_language_classify_ranked_perm {thresholds : Thresholds α} {text : List Char}
    (h : IsScored thresholds text) (hint : Option String) :
    ((classify .builtin thresholds text hint).ranked.map (·.language)).Perm Language.supported := by
  rw [classify_of_isScored h, map_language_rank_ranked]
  have hperm := (ranking_perm (features .builtin thresholds text hint).languages).map (·.language)
  rwa [builtin_features_map_language] at hperm

end Generic

/-!
## Ranking by exact scores

The ranking compares scores in units of the score resolution, so the candidates are strictly ordered
in these units (`Candidate.RanksBefore`).  Over the rational numbers the units are fine enough below
a cap of a thousand million: there the scores themselves decide (`Candidate.Outranks`), and the
candidates can be arranged in one way only.
-/

/-- The score of a candidate in units of the resolution. -/
def Candidate.scoreKey (candidate : Candidate Rat) : Int :=
  Scalar.round64 (candidate.rawScore / scoreResolution)

/-- A candidate is ranked before another one: by its score key, then its strong hits, then its
identifier. -/
def Candidate.RanksBefore (a b : Candidate Rat) : Prop :=
  b.scoreKey < a.scoreKey ∨ a.scoreKey = b.scoreKey ∧
    (b.strongHits < a.strongHits ∨ a.strongHits = b.strongHits ∧ a.language.id < b.language.id)

/-- A candidate stands before another one: by its score, then its strong hits, then its
identifier. -/
def Candidate.Outranks (a b : Candidate Rat) : Prop :=
  b.rawScore < a.rawScore ∨ a.rawScore = b.rawScore ∧
    (b.strongHits < a.strongHits ∨ a.strongHits = b.strongHits ∧ a.language.id < b.language.id)

/-- No two candidates stand before each other. -/
lemma Candidate.Outranks.asymm {a b : Candidate Rat} (hab : a.Outranks b) : ¬ b.Outranks a := by
  rintro (hscore' | ⟨hscore', hrest'⟩)
  · rcases hab with hscore | ⟨hscore, -⟩ <;> linarith
  · rcases hab with hscore | ⟨-, hstrong | ⟨hstrong, hid⟩⟩
    · linarith
    · rcases hrest' with hstrong' | ⟨hstrong', -⟩ <;> omega
    · rcases hrest' with hstrong' | ⟨-, hid'⟩
      · omega
      · exact lt_asymm hid hid'

/-- Every candidate of a scored text ranks before all those behind it, whatever the cap. -/
theorem pairwise_ranksBefore_classify {thresholds : Thresholds Rat} {text : List Char}
    (hscored : IsScored thresholds text) (hint : Option String) :
    (classify .builtin thresholds text hint).ranked.Pairwise Candidate.RanksBefore := by
  rw [classify_of_isScored hscored, rank_ranked, List.pairwise_map]
  have hlanguages : ((ranking (features .builtin thresholds text hint).languages).map
      (·.language)).Nodup := by
    rw [((ranking_perm _).map _).nodup_iff, builtin_features_map_language]
    exact Language.nodup_supported
  refine ((ranking_pairwise _).and (List.pairwise_map.mp hlanguages)).imp ?_
  rintro a b ⟨hbefore, hlanguage⟩
  have hid : a.language.id ≠ b.language.id := fun h => hlanguage (Language.id_injective h)
  rcases LanguageFeatures.ranksBefore_iff_lex.mp hbefore with
    hscore | ⟨hscore, hstrong | ⟨hstrong, hle⟩⟩
  · exact Or.inl hscore
  · exact Or.inr ⟨hscore, Or.inl hstrong⟩
  · exact Or.inr ⟨hscore, Or.inr ⟨hstrong, lt_of_le_of_ne hle hid⟩⟩

/-- Below the cap of a thousand million the scores themselves decide. -/
lemma outranks_of_ranksBefore {cap : Nat} (hcap : cap ≤ 10 ^ 9) {a b : LanguageFeatures Rat}
    (ha : a.Accounted cap) (hb : b.Accounted cap) {positiveTotal lengthFactor : Rat}
    (hbefore : (Classification.candidateOf positiveTotal lengthFactor a).RanksBefore
      (Classification.candidateOf positiveTotal lengthFactor b)) :
    (Classification.candidateOf positiveTotal lengthFactor a).Outranks
      (Classification.candidateOf positiveTotal lengthFactor b) := by
  rcases hbefore with hscore | ⟨hscore, hrest⟩
  · exact Or.inl ((hb.scoreKey_lt_iff ha hcap).mp hscore)
  · exact Or.inr ⟨(ha.scoreKey_eq_iff hb hcap).mp hscore, hrest⟩

/-- Every candidate of a scored text outranks all those behind it. -/
theorem pairwise_outranks_classify {thresholds : Thresholds Rat} {text : List Char}
    (hscored : IsScored thresholds text) (hint : Option String) (hcap : thresholds.cap ≤ 10 ^ 9) :
    (classify .builtin thresholds text hint).ranked.Pairwise Candidate.Outranks := by
  refine (pairwise_ranksBefore_classify hscored hint).imp_of_mem ?_
  intro a b ha hb hbefore
  rw [classify_of_isScored hscored, rank_ranked] at ha hb
  obtain ⟨l, hl, rfl⟩ := List.mem_map.mp ha
  obtain ⟨l', hl', rfl⟩ := List.mem_map.mp hb
  exact outranks_of_ranksBefore hcap (accounted_of_mem_features ((ranking_perm _).mem_iff.mp hl))
    (accounted_of_mem_features ((ranking_perm _).mem_iff.mp hl')) hbefore

/-- The features may be listed in any order. -/
lemma rank_ranked_eq_of_perm {found : Features Rat} {languages : List (LanguageFeatures Rat)}
    (hperm : languages.Perm found.languages) (hnodup : (found.languages.map (·.language)).Nodup)
    (thresholds : Thresholds Rat) :
    ranking languages = ranking found.languages ∧
      (Classification.rank thresholds { found with languages }).ranked =
        (Classification.rank thresholds found).ranked := by
  have hranking : ranking languages = ranking found.languages :=
    (ranking_eq_of_perm hperm.symm hnodup).symm
  refine ⟨hranking, ?_⟩
  rw [rank_ranked, rank_ranked, positiveTotal_eq_sum, positiveTotal_eq_sum, hranking,
    (hperm.map _).sum_eq]

/-- A ranking in the order of the scores, and what makes it the only one. -/
structure Classification.StrictlyRanked (thresholds : Thresholds Rat) (found : Features Rat)
    (result : Classification Rat) : Prop where
  /-- Every supported language is ranked, and each only once. -/
  perm_supported : (result.ranked.map (·.language)).Perm Language.supported
  length_eq : result.ranked.length = 15
  unknown_notMem : Language.unknown ∉ result.ranked.map (·.language)
  /-- Every candidate outranks all those behind it. -/
  pairwise_outranks : result.ranked.Pairwise Candidate.Outranks
  /-- The candidates can be arranged in this way only. -/
  eq_of_pairwise : ∀ candidates : List (Candidate Rat), candidates.Perm result.ranked →
    candidates.Pairwise Candidate.Outranks → candidates = result.ranked
  /-- Counting in millionths neither merges two scores nor separates equal ones. -/
  scoreKey_eq_iff : ∀ a ∈ found.languages, ∀ b ∈ found.languages,
    (a.scoreKey = b.scoreKey ↔ a.rawScore = b.rawScore) ∧
      (a.scoreKey < b.scoreKey ↔ a.rawScore < b.rawScore)
  /-- The features may be listed in any order. -/
  eq_of_perm : ∀ languages : List (LanguageFeatures Rat), languages.Perm found.languages →
    sortBy LanguageFeatures.ranksBefore languages =
        sortBy LanguageFeatures.ranksBefore found.languages ∧
      (Classification.rank thresholds { found with languages }).ranked = result.ranked

/-- Below the cap of a thousand million occurrences, a scored text has a ranking that is strictly
ordered by the exact scores, and only one. -/
theorem strictlyRanked_classify (thresholds : Thresholds Rat) (text : List Char)
    (hint : Option String) (hscored : IsScored thresholds text)
    (hcap : thresholds.maxOccurrencesPerSignature ≤ 10 ^ 9) :
    (classify .builtin thresholds text hint).StrictlyRanked thresholds
      (features .builtin thresholds text hint) := by
  have hcap' : thresholds.cap ≤ 10 ^ 9 := max_le hcap (by norm_num)
  have hperm := map_language_classify_ranked_perm hscored hint
  have houtranks := pairwise_outranks_classify hscored hint hcap'
  refine ⟨hperm, ?_, ?_, houtranks, ?_, ?_, ?_⟩
  · have hlength := hperm.length_eq
    rwa [List.length_map] at hlength
  · rw [hperm.mem_iff]
    simp
  · intro candidates hcandidates hpairwise
    refine hcandidates.eq_of_pairwise ?_ hpairwise houtranks
    intro a b _ _ hab hba
    exact absurd hba hab.asymm
  · intro a ha b hb
    have ha' := accounted_of_mem_features ha
    have hb' := accounted_of_mem_features hb
    exact ⟨ha'.scoreKey_eq_iff hb' hcap', ha'.scoreKey_lt_iff hb' hcap'⟩
  · intro languages hlanguages
    rw [classify_of_isScored hscored]
    refine rank_ranked_eq_of_perm hlanguages ?_ thresholds
    rw [builtin_features_map_language]
    exact Language.nodup_supported

/-- The default thresholds are far below the bound on the cap. -/
theorem strictlyRanked_main :
    IsScored (Thresholds.default : Thresholds Rat) "fn main() {}".toList ∧
      (Thresholds.default : Thresholds Rat).maxOccurrencesPerSignature ≤ 10 ^ 9 ∧
      (classify .builtin Thresholds.default "fn main() {}".toList none).StrictlyRanked
        Thresholds.default (features .builtin Thresholds.default "fn main() {}".toList none) := by
  have hscored : IsScored (Thresholds.default : Thresholds Rat) "fn main() {}".toList :=
    ⟨by decide +kernel, by decide +kernel⟩
  have hcap : (Thresholds.default : Thresholds Rat).maxOccurrencesPerSignature ≤ 10 ^ 9 := by
    decide
  exact ⟨hscored, hcap, strictlyRanked_classify _ _ none hscored hcap⟩

end LanguageDetection
