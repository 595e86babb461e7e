import LanguageDetection.Proofs.Candidate
import LanguageDetection.Proofs.Ranking
import LanguageDetection.Proofs.Text

/-!
# The outcome of a classification

Whatever the thresholds are, a classification has one of four outcomes: the text is blank, it is
binary, it has no evidence, or a language is named.  `Classification.Outcome` says when each of them
occurs and what the result is then like.

The language named has the greatest score key, and a key is positive exactly if its score is.  So
it has a positive score, although keys need not be exact where the cap is out of bounds.
-/

namespace LanguageDetection

/-! ## Evidence -/

/-- A candidate with a positive score has evidence to show. -/
lemma evidence_candidateOf_ne_nil {cap : Nat} {found : LanguageFeatures Rat}
    (h : found.Accounted cap) (hpos : 0 < found.rawScore) (positiveTotal lengthFactor : Rat) :
    (Classification.candidateOf positiveTotal lengthFactor found).evidence ≠ [] := by
  obtain ⟨hit, hhit, hcontribution⟩ := h.exists_pos_of_rawScore_pos hpos
  have hitem : Evidence.ofHit hit ∈ found.evidence.filter Evidence.speaksFor :=
    List.mem_filter.mpr ⟨mem_sortBy.mpr (List.mem_map_of_mem hhit), decide_eq_true hcontribution⟩
  rw [Classification.evidence_candidateOf]
  exact List.ne_nil_of_mem hitem

/-! ## The language that is named -/

/-- The candidate that stands first where some score is positive. -/
structure Candidate.Named (candidate : Candidate Rat) : Prop where
  language_ne : candidate.language ≠ .unknown
  rawScore_pos : 0 < candidate.rawScore
  evidence_ne_nil : candidate.evidence ≠ []
  confidence_pos : 0 < candidate.confidence
  confidence_le_one : candidate.confidence ≤ 1

/-- The first of the candidates is one that can be named, if some score is positive. -/
theorem named_of_head?_ranked {thresholds : Thresholds Rat} {text : List Char}
    {hint : Option String} {candidate : Candidate Rat}
    (htokens : 1 ≤ (features .builtin thresholds text hint).tokenCount)
    (hpos : ∃ l ∈ (features .builtin thresholds text hint).languages, 0 < l.rawScore)
    (hhead : (Classification.rank thresholds
      (features .builtin thresholds text hint)).ranked.head? = some candidate) :
    candidate.Named := by
  have htotal := (scoreResolution_lt_positiveTotal_features_iff thresholds text hint).mpr hpos
  rw [rank_ranked, List.head?_map, Option.map_eq_some_iff] at hhead
  obtain ⟨first, hfirst, rfl⟩ := hhead
  obtain ⟨rest, hranking⟩ := List.head?_eq_some_iff.mp hfirst
  have hmem : first ∈ (features .builtin thresholds text hint).languages := by
    rw [← (ranking_perm _).mem_iff, hranking]
    exact List.mem_cons_self
  have hfirstAccounted := accounted_of_mem_features hmem
  -- the first key is positive because it is not below that of the positive score
  have hscore : 0 < first.rawScore := by
    obtain ⟨l, hl, hlpos⟩ := hpos
    have hkey := (accounted_of_mem_features hl).scoreKey_pos_iff.mpr hlpos
    have hle := scoreKey_le_of_ranking_eq_cons hranking hl
    exact hfirstAccounted.scoreKey_pos_iff.mp (lt_of_lt_of_le hkey hle)
  have hle := Features.max_rawScore_le_positiveTotal hmem
  have hshare := LanguageFeatures.share_pos htotal hle hscore
  refine ⟨?_, hscore, evidence_candidateOf_ne_nil hfirstAccounted hscore _ _, ?_, ?_⟩
  · change first.language ≠ .unknown
    rw [← Language.mem_supported, ← builtin_features_map_language thresholds text hint]
    exact List.mem_map_of_mem hmem
  · exact mul_pos hshare (Classification.lengthFactor_pos thresholds htokens)
  · exact (confidence_candidateOf_mem_Icc hmem).2

/-! ## Outcomes -/

/-- The outcome of a classification is the reason that it gives, or none.  This says which texts
have which outcome, and what a result with that outcome is like. -/
structure Classification.Outcome (thresholds : Thresholds Rat) (text : List Char)
    (found : Features Rat) (result : Classification Rat) : Prop where
  emptyInput_iff : result.inconclusive = some .emptyInput ↔ Characters.trim text = []
  binaryInput_iff : result.inconclusive = some .binaryInput ↔
    Characters.trim text ≠ [] ∧ looksBinary text thresholds.binaryRatioThreshold = true
  noEvidence_iff : result.inconclusive = some .noEvidence ↔
    IsScored thresholds text ∧ ∀ l ∈ found.languages, l.rawScore ≤ 0
  conclusive_iff : result.inconclusive = none ↔
    IsScored thresholds text ∧ ∃ l ∈ found.languages, 0 < l.rawScore
  /-- A text that is not scored has no ranking. -/
  skipped : result.inconclusive = some .emptyInput ∨ result.inconclusive = some .binaryInput →
    result.ranked = [] ∧ result.tokenCount = 0
  /-- A text that is scored has all languages in its ranking, with the scores found. -/
  scored : IsScored thresholds text → 1 ≤ result.tokenCount ∧ result.ranked.length = 15 ∧
    (result.ranked.map fun c => (c.language, c.rawScore)).Perm
      (found.languages.map fun l => (l.language, l.rawScore)) ∧
    found.languages.map (·.language) = Language.supported
  noEvidence : result.inconclusive = some .noEvidence →
    ∀ candidate ∈ result.ranked, candidate.confidence = 0
  conclusive : result.inconclusive = none →
    result.ranked.head? = some result.top ∧ result.top.Named
  inconclusive : result.inconclusive ≠ none →
    result.top = .unknown ∧ result.top.confidence = 0 ∧ result.top.evidence = []

namespace Classification

variable {thresholds : Thresholds Rat} {text : List Char}

/-- A result without a language has nothing on top. -/
lemma top_ofReason (reason : Inconclusive) (ranked : List (Candidate Rat)) (tokenCount : Nat) :
    (ofReason reason ranked tokenCount).top = .unknown ∧
      (ofReason reason ranked tokenCount).top.confidence = 0 ∧
      (ofReason reason ranked tokenCount).top.evidence = [] :=
  ⟨rfl, rfl, rfl⟩

/-- The outcome of a blank text is that of an empty one. -/
lemma outcome_of_blank (hblank : Characters.trim text = []) (found : Features Rat) :
    (ofReason .emptyInput [] 0).Outcome thresholds text found := by
  have hscored : ¬ IsScored thresholds text := fun h => h.1 hblank
  exact {
    emptyInput_iff := by simp [ofReason, hblank]
    binaryInput_iff := by simp [ofReason, hblank]
    noEvidence_iff := by simp [ofReason, hscored]
    conclusive_iff := by simp [ofReason, hscored]
    skipped := fun _ => ⟨rfl, rfl⟩
    scored := fun h => absurd h hscored
    noEvidence := by simp [ofReason]
    conclusive := by simp [ofReason]
    inconclusive := fun _ => top_ofReason _ _ _ }

/-- The outcome of binary data does not depend on what is found in it. -/
lemma outcome_of_binary (htext : Characters.trim text ≠ [])
    (hbinary : looksBinary text thresholds.binaryRatioThreshold = true) (found : Features Rat) :
    (ofReason .binaryInput [] 0).Outcome thresholds text found := by
  have hscored : ¬ IsScored thresholds text := by
    intro h
    rw [h.2] at hbinary
    exact Bool.false_ne_true hbinary
  exact {
    emptyInput_iff := by simp [ofReason, htext]
    binaryInput_iff := by simp [ofReason, htext, hbinary]
    noEvidence_iff := by simp [ofReason, hscored]
    conclusive_iff := by simp [ofReason, hscored]
    skipped := fun _ => ⟨rfl, rfl⟩
    scored := fun h => absurd h hscored
    noEvidence := by simp [ofReason]
    conclusive := by simp [ofReason]
    inconclusive := fun _ => top_ofReason _ _ _ }

/-- A ranking has the tokens and the scores of the features. -/
lemma scored_rank (hscored : IsScored thresholds text) (hint : Option String) :
    let found := features .builtin thresholds text hint
    1 ≤ (rank thresholds found).tokenCount ∧ (rank thresholds found).ranked.length = 15 ∧
      ((rank thresholds found).ranked.map fun c => (c.language, c.rawScore)).Perm
        (found.languages.map fun l => (l.language, l.rawScore)) ∧
      found.languages.map (·.language) = Language.supported := by
  intro found
  have hlanguages : found.languages.map (·.language) = Language.supported :=
    builtin_features_map_language thresholds text hint
  have hlength : found.languages.length = 15 := by
    have hlength := congrArg List.length hlanguages
    rwa [List.length_map] at hlength
  refine ⟨?_, ?_, ?_, hlanguages⟩
  · rw [rank_tokenCount, features_tokenCount]
    exact one_le_tokenCount_trim hscored.1
  · rw [rank_ranked, List.length_map, (ranking_perm _).length_eq, hlength]
  · rw [rank_ranked, List.map_map]
    exact (ranking_perm _).map _

/-- A scored text without a positive score names no language. -/
lemma outcome_of_forall_le (hscored : IsScored thresholds text) {hint : Option String}
    (hnone : ∀ l ∈ (features .builtin thresholds text hint).languages, l.rawScore ≤ 0) :
    (rank thresholds (features .builtin thresholds text hint)).Outcome thresholds text
      (features .builtin thresholds text hint) := by
  have htotal : (features .builtin thresholds text hint).positiveTotal ≤ scoreResolution := by
    rw [Features.positiveTotal_eq_zero hnone]
    exact le_of_lt scoreResolution_pos
  obtain ⟨hreason, htop⟩ := rank_of_le htotal thresholds
  exact {
    emptyInput_iff := by simp [hreason, hscored.1]
    binaryInput_iff := by simp [hreason, hscored.2]
    noEvidence_iff := by simpa [hreason, hscored] using hnone
    conclusive_iff := by simpa [hreason, hscored] using hnone
    skipped := by simp [hreason]
    scored := fun _ => scored_rank hscored hint
    noEvidence := by
      intro _ candidate hcandidate
      rw [rank_ranked] at hcandidate
      obtain ⟨l, -, rfl⟩ := List.mem_map.mp hcandidate
      change l.share _ * _ = 0
      rw [LanguageFeatures.share_eq_zero l htotal, zero_mul]
    conclusive := by simp [hreason]
    inconclusive := fun _ => by
      rw [htop]
      exact ⟨rfl, rfl, rfl⟩ }

/-- A scored text with a positive score names the first of the ranking. -/
lemma outcome_of_exists_pos (hscored : IsScored thresholds text) {hint : Option String}
    (hsome : ∃ l ∈ (features .builtin thresholds text hint).languages, 0 < l.rawScore) :
    (rank thresholds (features .builtin thresholds text hint)).Outcome thresholds text
      (features .builtin thresholds text hint) := by
  have htotal := (scoreResolution_lt_positiveTotal_features_iff thresholds text hint).mpr hsome
  have htokens := (scored_rank hscored hint).1
  rw [rank_tokenCount] at htokens
  have hlanguages := builtin_features_languages_ne_nil thresholds text hint
  obtain ⟨hreason, hhead⟩ := rank_of_not_le (not_le.mpr htotal) hlanguages thresholds
  exact {
    emptyInput_iff := by simp [hreason, hscored.1]
    binaryInput_iff := by simp [hreason, hscored.2]
    noEvidence_iff := by simpa [hreason, hscored] using hsome
    conclusive_iff := by simpa [hreason, hscored] using hsome
    skipped := by simp [hreason]
    scored := fun _ => scored_rank hscored hint
    noEvidence := by simp [hreason]
    conclusive := fun _ => ⟨hhead, named_of_head?_ranked htokens hsome hhead⟩
    inconclusive := fun h => absurd hreason h }

end Classification

/-- Every classification has its outcome. -/
theorem outcome_classify (thresholds : Thresholds Rat) (text : List Char) (hint : Option String) :
    (classify .builtin thresholds text hint).Outcome thresholds text
      (features .builtin thresholds text hint) := by
  rcases classify_cases .builtin thresholds text hint with
    ⟨hblank, heq⟩ | ⟨⟨htext, hbinary⟩, heq⟩ | ⟨hscored, heq⟩ <;> rw [heq]
  · exact Classification.outcome_of_blank hblank _
  · exact Classification.outcome_of_binary htext hbinary _
  · by_cases hsome : ∃ l ∈ (features .builtin thresholds text hint).languages, 0 < l.rawScore
    · exact Classification.outcome_of_exists_pos hscored hsome
    · push Not at hsome
      exact Classification.outcome_of_forall_le hscored hsome

end LanguageDetection
