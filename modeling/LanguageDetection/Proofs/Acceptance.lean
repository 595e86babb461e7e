import LanguageDetection.Proofs.Outcome
import LanguageDetection.Verdict

/-!
# The verdict on a declared language

A verdict follows from the classification of the same text and hint.  `Verdict.Decided` says how:
which declarations match, what is reported as detected, and what a mismatch is explained by.

All of this holds for every kind of numbers.  Only that a mismatch has a marker to quote is a matter
of exact scores, which a named language cannot have without evidence.
-/

namespace LanguageDetection

variable {α : Type} [Scalar α]

/-! ## Conclusive classifications -/

namespace Classification

variable {thresholds : Thresholds α} {text : List Char} {hint : Option String}

/-- Only a scored text can be conclusive. -/
lemma isScored_of_conclusive
    (h : (classify .builtin thresholds text hint).inconclusive = none) :
    IsScored thresholds text := by
  rcases classify_cases .builtin thresholds text hint with
    ⟨-, heq⟩ | ⟨-, heq⟩ | ⟨hscored, -⟩
  · rw [heq] at h
    cases h
  · rw [heq] at h
    cases h
  · exact hscored

/-- A classification without a language has nothing on top. -/
lemma top_eq_unknown_of_inconclusive {reason : Inconclusive}
    (h : (classify .builtin thresholds text hint).inconclusive = some reason) :
    (classify .builtin thresholds text hint).top = .unknown := by
  rcases classify_cases .builtin thresholds text hint with
    ⟨-, heq⟩ | ⟨-, heq⟩ | ⟨-, heq⟩ <;> rw [heq] at h ⊢
  · rfl
  · rfl
  · by_cases htotal : (features .builtin thresholds text hint).positiveTotal ≤
        (scoreResolution : α)
    · exact (rank_of_le htotal thresholds).2
    · rw [(rank_of_not_le htotal (builtin_features_languages_ne_nil thresholds text hint)
        thresholds).1] at h
      cases h

/-- A conclusive classification names its first candidate, and there is a second one. -/
lemma exists_ranked_eq_of_conclusive
    (h : (classify .builtin thresholds text hint).inconclusive = none) :
    ∃ second rest, (classify .builtin thresholds text hint).ranked =
      (classify .builtin thresholds text hint).top :: second :: rest := by
  have hscored := isScored_of_conclusive h
  have hlength := (map_language_classify_ranked_perm hscored hint).length_eq
  have hlanguages := builtin_features_languages_ne_nil thresholds text hint
  rw [classify_of_isScored hscored] at h hlength ⊢
  have htotal : ¬ (features .builtin thresholds text hint).positiveTotal ≤
      (scoreResolution : α) := by
    intro hle
    rw [(rank_of_le hle thresholds).1] at h
    cases h
  obtain ⟨-, hhead⟩ := rank_of_not_le htotal hlanguages thresholds
  obtain ⟨others, hranked⟩ := List.head?_eq_some_iff.mp hhead
  rw [hranked] at hlength ⊢
  cases others with
  | nil => cases hlength
  | cons second rest => exact ⟨second, rest, rfl⟩

end Classification

/-- Over exact numbers the language that is named has evidence. -/
lemma Classification.named_top_of_conclusive {thresholds : Thresholds Rat} {text : List Char}
    {hint : Option String} (h : (classify .builtin thresholds text hint).inconclusive = none) :
    (classify .builtin thresholds text hint).top.Named := by
  have hscored := isScored_of_conclusive h
  obtain ⟨second, rest, hranked⟩ := exists_ranked_eq_of_conclusive h
  rw [classify_of_isScored hscored] at h hranked ⊢
  have hpos : ∃ l ∈ (features .builtin thresholds text hint).languages, 0 < l.rawScore := by
    rw [← scoreResolution_lt_positiveTotal_features_iff, ← not_le]
    intro hle
    rw [(rank_of_le hle thresholds).1] at h
    cases h
  have htokens := (scored_rank hscored hint).1
  rw [rank_tokenCount] at htokens
  exact named_of_head?_ranked htokens hpos (by rw [hranked, List.head?_cons])

namespace Verdict

/-! ## Acceptance -/

/-- The first language is accepted, the second one within the tolerance, and no other. -/
theorem accepts_iff (declared : Language) {result : Classification α}
    {first second : Candidate α} {rest : List (Candidate α)}
    (hranked : result.ranked = first :: second :: rest) (hne : first.language ≠ second.language)
    (tolerance : α) :
    accepts declared result tolerance = true ↔ declared = first.language ∨
      declared = second.language ∧
        tolerance * result.top.rawScore - scoreResolution ≤ second.rawScore := by
  unfold accepts Classification.rankOf? Classification.candidate?
  rw [hranked, List.findIdx?_cons, List.findIdx?_cons]
  by_cases hfirst : declared = first.language
  · simp [hfirst]
  · by_cases hsecond : declared = second.language
    · simp [hsecond, hne, hne.symm]
    · rw [if_neg (by simpa using Ne.symm hfirst), if_neg (by simpa using Ne.symm hsecond)]
      -- a position behind the second one is never accepted
      cases hrest : rest.findIdx? (fun candidate => decide (candidate.language = declared)) with
      | none => simp [hfirst, hsecond]
      | some position => simp [hfirst, hsecond]

/-! ## Verdicts -/

/-- How a verdict follows from the classification of the text. -/
structure Decided (thresholds : Thresholds α) (declared : Language) (result : Classification α)
    (verdict : Verdict α) : Prop where
  declared_eq : verdict.declared = declared
  detected_eq : verdict.detected = result.language
  confidence_eq : verdict.confidence = result.confidence
  /-- Whatever is detected may be declared. -/
  isMatch_of_eq : declared = result.language → verdict.isMatch = true
  emptyInput : result.inconclusive = some .emptyInput → verdict.isMatch = true
  binaryInput : result.inconclusive = some .binaryInput →
    (verdict.isMatch = true ↔ declared = .unknown)
  noEvidence : result.inconclusive = some .noEvidence →
    (verdict.isMatch = true ↔ declared = .unknown)
  /-- The first two of the ranking are all that can match. -/
  conclusive : result.inconclusive = none → ∃ second rest,
    result.ranked = result.top :: second :: rest ∧
      (verdict.isMatch = true ↔ declared = result.top.language ∨ declared = second.language ∧
        thresholds.matchTolerance * result.top.rawScore - scoreResolution ≤ second.rawScore)
  ne_unknown : result.inconclusive = none → verdict.isMatch = true → declared ≠ .unknown
  suggestions_eq_nil_iff : verdict.suggestions = [] ↔ verdict.isMatch = true
  /-- A text without a language has a single suggestion. -/
  suggestions_of_inconclusive : verdict.isMatch = false → result.inconclusive ≠ none →
    verdict.suggestions = [noClearMatch]
  /-- A language that is named instead is explained by its first two markers. -/
  suggestions_of_conclusive : verdict.isMatch = false → result.inconclusive = none →
    verdict.suggestions = headline declared result thresholds ::
        (result.top.evidence.take 2).map (quote result.top.language) ∧
      verdict.suggestions.length = 1 + min 2 result.top.evidence.length

/-- A blank text is of every language. -/
lemma decided_judge_of_emptyInput {result : Classification α}
    (hreason : result.inconclusive = some .emptyInput) (htop : result.top = .unknown)
    (thresholds : Thresholds α) (declared : Language) :
    (judge declared result thresholds).Decided thresholds declared result := by
  have hjudge : judge declared result thresholds =
      { isMatch := true, declared, detected := .unknown, confidence := Scalar.ofNat 0,
        suggestions := [] } := by
    unfold judge
    rw [hreason]
  rw [hjudge]
  constructor <;> simp [hreason, Classification.language, Classification.confidence, htop,
    Candidate.unknown]

/-- A text that no language could be told of, without being blank, is of the unknown one. -/
lemma decided_judge_of_reason {result : Classification α} {reason : Inconclusive}
    (hreason : result.inconclusive = some reason) (hne : reason ≠ .emptyInput)
    (htop : result.top = .unknown) (thresholds : Thresholds α) (declared : Language) :
    (judge declared result thresholds).Decided thresholds declared result := by
  have hjudge : judge declared result thresholds =
      { isMatch := declared.isUnknown, declared, detected := .unknown,
        confidence := Scalar.ofNat 0,
        suggestions := if declared.isUnknown then [] else [noClearMatch] } := by
    unfold judge
    rw [hreason]
    cases reason with
    | emptyInput => exact absurd rfl hne
    | binaryInput => rfl
    | noEvidence => rfl
  have hunknown : declared.isUnknown = true ↔ declared = .unknown := by
    cases declared <;> decide
  rw [hjudge]
  exact {
    declared_eq := rfl
    detected_eq := by simp [Classification.language, htop, Candidate.unknown]
    confidence_eq := by simp [Classification.confidence, htop, Candidate.unknown]
    isMatch_of_eq := by simp [Classification.language, htop, Candidate.unknown, hunknown]
    emptyInput := by simp [hreason, hne]
    binaryInput := fun _ => hunknown
    noEvidence := fun _ => hunknown
    conclusive := by simp [hreason]
    ne_unknown := by simp [hreason]
    suggestions_eq_nil_iff := by simp
    suggestions_of_inconclusive := by
      intro hmatch _
      dsimp only at hmatch ⊢
      rw [hmatch]
      rfl
    suggestions_of_conclusive := by simp [hreason] }

/-- A text with a language is of the first two of its ranking at most. -/
lemma decided_judge_of_conclusive {result : Classification α} {second : Candidate α}
    {rest : List (Candidate α)} (hreason : result.inconclusive = none)
    (hranked : result.ranked = result.top :: second :: rest)
    (hnodup : (result.ranked.map (·.language)).Nodup)
    (hunknown : Language.unknown ∉ result.ranked.map (·.language))
    (thresholds : Thresholds α) (declared : Language) :
    (judge declared result thresholds).Decided thresholds declared result := by
  have hjudge : judge declared result thresholds =
      { isMatch := accepts declared result thresholds.matchTolerance, declared
        detected := result.language, confidence := result.confidence
        suggestions :=
          if accepts declared result thresholds.matchTolerance then []
          else mismatchSuggestions declared result thresholds } := by
    unfold judge
    rw [hreason]
  have hne : result.top.language ≠ second.language := by
    rw [hranked, List.map_cons, List.map_cons, List.nodup_cons] at hnodup
    intro heq
    exact hnodup.1 (by simp [heq])
  have haccepts := accepts_iff declared hranked hne thresholds.matchTolerance
  rw [hjudge]
  exact {
    declared_eq := rfl
    detected_eq := rfl
    confidence_eq := rfl
    isMatch_of_eq := fun heq => haccepts.mpr (Or.inl heq)
    emptyInput := by simp [hreason]
    binaryInput := by simp [hreason]
    noEvidence := by simp [hreason]
    conclusive := fun _ => ⟨second, rest, hranked, haccepts⟩
    ne_unknown := by
      intro _ hmatch heq
      refine hunknown ?_
      rw [← heq, hranked]
      rcases haccepts.mp hmatch with hfirst | ⟨hsecond, -⟩
      · simp [hfirst]
      · simp [hsecond]
    suggestions_eq_nil_iff := by simp [mismatchSuggestions]
    suggestions_of_inconclusive := fun _ h => absurd hreason h
    suggestions_of_conclusive := by
      intro hmatch _
      dsimp only at hmatch ⊢
      rw [hmatch, if_neg Bool.false_ne_true]
      refine ⟨rfl, ?_⟩
      unfold mismatchSuggestions
      rw [List.length_cons, List.length_map, List.length_take, Nat.add_comm]
      rfl }

/-- The verdict on a text follows from its classification, whatever numbers scores are made of. -/
theorem decided_validate (thresholds : Thresholds α) (declared : Language) (text : List Char)
    (hint : Option String) :
    (validate .builtin thresholds declared text hint).Decided thresholds declared
      (classify .builtin thresholds text hint) := by
  unfold validate
  cases hreason : (classify .builtin thresholds text hint).inconclusive with
  | none =>
    have hscored := Classification.isScored_of_conclusive hreason
    have hperm := map_language_classify_ranked_perm hscored hint
    obtain ⟨second, rest, hranked⟩ := Classification.exists_ranked_eq_of_conclusive hreason
    refine decided_judge_of_conclusive hreason hranked ?_ ?_ thresholds declared
    · exact hperm.nodup_iff.mpr Language.nodup_supported
    · rw [hperm.mem_iff]
      simp
  | some reason =>
    have htop : (classify .builtin thresholds text hint).top = .unknown :=
      Classification.top_eq_unknown_of_inconclusive hreason
    by_cases hempty : reason = .emptyInput
    · rw [hempty] at hreason
      exact decided_judge_of_emptyInput hreason htop thresholds declared
    · exact decided_judge_of_reason hreason hempty htop thresholds declared

/-- The verdict on a text follows from its classification, and where the scores are exact a mismatch
with a conclusive classification has a marker to quote. -/
theorem decided_validate_and_evidence :
    (∀ {α : Type} [Scalar α] (thresholds : Thresholds α) (declared : Language) (text : List Char)
      (hint : Option String),
      (validate .builtin thresholds declared text hint).Decided thresholds declared
        (classify .builtin thresholds text hint)) ∧
    ∀ (thresholds : Thresholds Rat) (text : List Char) (hint : Option String),
      (classify .builtin thresholds text hint).inconclusive = none →
        1 ≤ (classify .builtin thresholds text hint).top.evidence.length := by
  refine ⟨decided_validate, ?_⟩
  intro thresholds text hint hreason
  exact List.length_pos_iff.mpr (Classification.named_top_of_conclusive hreason).evidence_ne_nil

end Verdict

end LanguageDetection
