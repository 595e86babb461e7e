import LanguageDetection.Proofs.Candidate
import LanguageDetection.Proofs.FloatingPoint.Features
import LanguageDetection.Proofs.Text.Tokenization

/-!
# The ranking that runs

The program classifies a text as exact arithmetic does (`agree_classify`): the same languages in the
same order, with the exact scores and on the same evidence.  Only the confidences are rounded, once
for the share of the positive scores, once for the length of the text and once for their product, so
that each is off by less than a unit of the fifteenth decimal (`Candidate.Agree`).

The keys of the program compare as the exact ones do, so both insertion sorts make the same choices
(`Features.Faithful.forall₂_ranking`).
-/

namespace LanguageDetection

open FloatingPoint

/-! ## Evidence -/

/-- The program shows the same evidence. -/
structure Evidence.Agree (a : Evidence Float) (b : Evidence Rat) : Prop where
  label_eq : a.label = b.label
  markerClass_eq : a.markerClass = b.markerClass
  kind_eq : a.kind = b.kind
  count_eq : a.count = b.count
  contribution : StandsFor a.contribution b.contribution

namespace Evidence

/-- Hits that agree are shown as evidence that agrees. -/
lemma agree_ofHit {a : Hit Float} {b : Hit Rat} (h : a.Agree b) : (ofHit a).Agree (ofHit b) := by
  obtain ⟨hsignature, hcount, hcontribution⟩ := h
  unfold ofHit
  rw [hsignature]
  exact ⟨rfl, rfl, rfl, hcount, hcontribution⟩

/-- Evidence that agrees is ordered alike. -/
lemma precedes_eq {a a' : Evidence Float} {b b' : Evidence Rat} (h : a.Agree b)
    (h' : a'.Agree b') : precedes a a' = precedes b b' := by
  unfold precedes
  simp only [h'.contribution.lt_iff h.contribution, h.contribution.lt_iff h'.contribution,
    h.label_eq, h'.label_eq]

end Evidence

/-- The program orders the evidence as exact arithmetic does. -/
lemma LanguageFeatures.Agree.forall₂_evidence {a : LanguageFeatures Float}
    {b : LanguageFeatures Rat} (h : a.Agree b) :
    List.Forall₂ Evidence.Agree a.evidence b.evidence := by
  have hhits : List.Forall₂ Evidence.Agree (a.hits.map Evidence.ofHit)
      (b.hits.map Evidence.ofHit) := by
    rw [List.forall₂_map_left_iff, List.forall₂_map_right_iff]
    exact h.hits.imp fun _ _ => Evidence.agree_ofHit
  unfold LanguageFeatures.evidence
  exact forall₂_sortBy (R := Evidence.Agree) Evidence.precedes_eq hhits

/-! ## Totals -/

/-- Features of the program that agree with those of exact arithmetic. -/
structure Features.Faithful (cap : Nat) (a : Features Float) (b : Features Rat) : Prop where
  tokenCount_eq : a.tokenCount = b.tokenCount
  languages : List.Forall₂ (LanguageFeatures.Faithful cap) a.languages b.languages
  length_le : b.languages.length ≤ 100

namespace Features.Faithful

variable {cap : Nat} {a : Features Float} {b : Features Rat} (h : Faithful cap a b)

include h

/-- The exact features account for their scores. -/
lemma accounted {found : LanguageFeatures Rat} (hmem : found ∈ b.languages) :
    found.Accounted cap := by
  obtain ⟨i, hi, rfl⟩ := List.getElem_of_mem hmem
  have hlength := h.languages.length_eq
  exact ((List.forall₂_iff_get.mp h.languages).2 i (by omega) hi).accounted

/-- The sum of the positive scores is a half-integer. -/
lemma isHalfInteger_positiveTotal : IsHalfInteger b.positiveTotal := by
  rw [positiveTotal_eq_sum]
  refine IsHalfInteger.sum fun r hr => ?_
  obtain ⟨found, hfound, rfl⟩ := List.mem_map.mp hr
  exact (h.accounted hfound).isHalfInteger_rawScore.max_zero

/-- The sum of the positive scores is exact. -/
theorem positiveTotal (hcap : cap ≤ 10 ^ 9) : StandsFor a.positiveTotal b.positiveTotal := by
  have hlength : (b.languages.length : ℚ) ≤ 100 := by exact_mod_cast h.length_le
  have hscores : List.Forall₂ StandsFor
      (a.languages.map fun l => Scalar.max l.rawScore (Scalar.ofNat 0))
      (b.languages.map fun l => max l.rawScore 0) := by
    rw [List.forall₂_map_left_iff, List.forall₂_map_right_iff]
    exact h.languages.imp fun _ _ hl => hl.agree.rawScore.max standsFor_zero
  have hhalf : ∀ r ∈ b.languages.map fun l => max l.rawScore 0, IsHalfInteger r := by
    intro r hr
    obtain ⟨l, hl, rfl⟩ := List.mem_map.mp hr
    exact (h.accounted hl).isHalfInteger_rawScore.max_zero
  have hle : ∀ r ∈ b.languages.map fun l => max l.rawScore 0, |r| ≤ 6 * 10 ^ 11 := by
    intro r hr
    obtain ⟨l, hl, rfl⟩ := List.mem_map.mp hr
    have hcap' : (cap : ℚ) ≤ 10 ^ 9 := by exact_mod_cast hcap
    have hscore := (le_abs_self _).trans (h.accounted hl).abs_rawScore_le
    rw [abs_of_nonneg (le_max_right _ _)]
    exact max_le (by linarith) (by norm_num)
  have htotal : |(0 : ℚ)| + (b.languages.map fun l => max l.rawScore 0).length * (6 * 10 ^ 11) ≤
      2 ^ 51 := by
    rw [List.length_map, abs_zero]
    linarith
  have hsum := StandsFor.foldl_add hscores standsFor_zero (.intCast 0) hhalf hle htotal
  rwa [List.foldl_map, zero_add, ← positiveTotal_eq_sum] at hsum

/-- The program puts the languages into the same order. -/
theorem forall₂_ranking (hcap : cap ≤ 10 ^ 9) :
    List.Forall₂ (LanguageFeatures.Faithful cap) (ranking a.languages) (ranking b.languages) :=
  forall₂_sortBy (R := LanguageFeatures.Faithful cap) (fun hl hl' => hl.ranksBefore_eq hl' hcap)
    h.languages

end Features.Faithful

/-! ## Candidates -/

/-- The program gives a language the same score, on the same evidence, and a confidence that is off
by three roundings at most. -/
structure Candidate.Agree (a : Candidate Float) (b : Candidate Rat) : Prop where
  language_eq : a.language = b.language
  rawScore : StandsFor a.rawScore b.rawScore
  strongHits_eq : a.strongHits = b.strongHits
  evidence : List.Forall₂ Evidence.Agree a.evidence b.evidence
  confidence : IsCloseTo a.confidence b.confidence (3 / 2 ^ 54)

lemma Candidate.agree_unknown : (unknown : Candidate Float).Agree unknown :=
  ⟨rfl, standsFor_zero, rfl, .nil, isCloseTo_zero (by norm_num)⟩

/-- A share is off by one rounding. -/
lemma LanguageFeatures.Faithful.isCloseTo_share {cap : Nat} {a : LanguageFeatures Float}
    {b : LanguageFeatures Rat} (h : Faithful cap a b) {x : Float} {total : ℚ}
    (hx : StandsFor x total) (hhalf : IsHalfInteger total) (hle : max b.rawScore 0 ≤ total) :
    IsCloseTo (a.share x) (b.share total) (1 / 2 ^ 54) := by
  by_cases hlt : scoreResolution < total
  · have hpos := scoreResolution_pos.trans hlt
    have hmem : max b.rawScore 0 / total ∈ Set.Icc 0 1 :=
      ⟨div_nonneg (le_max_right _ _) hpos.le, (div_le_one hpos).mpr hle⟩
    rw [share_eq_div hlt hle]
    unfold share
    rw [if_pos ((hx.scoreResolution_lt_iff hhalf).mpr hlt)]
    exact (isCloseTo_div (h.agree.rawScore.max standsFor_zero) hx hpos hmem).clamp
  · rw [share_eq_zero b (not_lt.mp hlt)]
    unfold share
    rw [if_neg ((hx.scoreResolution_lt_iff hhalf).not.mpr hlt)]
    exact isCloseTo_zero (by norm_num)

namespace Classification

/-- What a text is too short for is off by one rounding. -/
lemma isCloseTo_lengthFactor {a : Thresholds Float} {b : Thresholds Rat}
    (htokens : a.minTokensForFullConfidence = b.minTokensForFullConfidence)
    (hsmall : b.minTokensForFullConfidence < 2 ^ 53) {tokenCount : Nat}
    (hcount : tokenCount < 2 ^ 53) :
    IsCloseTo (lengthFactor a tokenCount) (lengthFactor b tokenCount) (1 / 2 ^ 54) := by
  have hwhole : 0 < max b.minTokensForFullConfidence 1 :=
    lt_of_lt_of_le one_pos (le_max_right _ _)
  have hwhole' : (1 : ℚ) ≤ (max b.minTokensForFullConfidence 1 : Nat) := by exact_mod_cast hwhole
  have hratio : |(tokenCount : ℚ) / (max b.minTokensForFullConfidence 1 : Nat)| ≤ 2 ^ 53 := by
    rw [abs_of_nonneg (by positivity)]
    exact (div_le_self (Nat.cast_nonneg _) hwhole').trans (by exact_mod_cast hcount.le)
  have hquotient := StandsFor.div (by norm_num) (standsFor_ofNat hcount)
    (standsFor_ofNat (max_lt hsmall (by norm_num))) (zero_lt_one.trans_le hwhole').ne' hratio
  have hmin := hquotient.min standsFor_one
  rw [min_closest_one (by positivity)] at hmin
  have hmem : lengthFactor b tokenCount ∈ Set.Icc 0 1 :=
    ⟨lengthFactor_nonneg b tokenCount, lengthFactor_le_one b tokenCount⟩
  have hexact : lengthFactor b tokenCount =
      min ((tokenCount : ℚ) / (max b.minTokensForFullConfidence 1 : Nat)) 1 := by
    unfold lengthFactor
    rw [Scalar.rat_min, Scalar.rat_ofNat, Scalar.rat_ofNat, Scalar.rat_ofNat, Nat.cast_one]
  rw [← hexact] at hmin
  refine ⟨closest (lengthFactor b tokenCount), ?_, closest_mem hmem,
    abs_closest_sub_le_of_mem hmem⟩
  unfold lengthFactor
  rw [htokens]
  exact hmin

/-- A candidate of the program agrees. -/
theorem agree_candidateOf {cap : Nat} {a : LanguageFeatures Float} {b : LanguageFeatures Rat}
    (h : LanguageFeatures.Faithful cap a b) {x y : Float} {total factor : ℚ}
    (hx : StandsFor x total) (hhalf : IsHalfInteger total) (hle : max b.rawScore 0 ≤ total)
    (hy : IsCloseTo y factor (1 / 2 ^ 54)) :
    (candidateOf x y a).Agree (candidateOf total factor b) where
  language_eq := h.agree.language_eq
  rawScore := h.agree.rawScore
  strongHits_eq := h.agree.strongHits_eq
  evidence := by
    refine List.rel_filter ?_ h.agree.forall₂_evidence
    intro e e' he
    dsimp only
    rw [decide_eq_true_iff, decide_eq_true_iff, standsFor_zero.lt_iff he.contribution,
      Scalar.rat_ofNat, Nat.cast_zero]
  confidence := by
    have hshare := h.isCloseTo_share hx hhalf hle
    have hmem := (⟨LanguageFeatures.share_nonneg hle, LanguageFeatures.share_le_one hle⟩ :
      b.share total ∈ Set.Icc 0 1)
    have hproduct := hshare.mul hy hmem
    have herror : (1 / 2 ^ 54 + 1 / 2 ^ 54 + 1 / 2 ^ 54 : ℚ) = 3 / 2 ^ 54 := by norm_num
    rwa [herror] at hproduct

/-- The program ranks as exact arithmetic does. -/
structure Agree (a : Classification Float) (b : Classification Rat) : Prop where
  inconclusive_eq : a.inconclusive = b.inconclusive
  tokenCount_eq : a.tokenCount = b.tokenCount
  top : a.top.Agree b.top
  ranked : List.Forall₂ Candidate.Agree a.ranked b.ranked

/-- Without a ranking there is nothing to compute. -/
lemma agree_ofReason (reason : Inconclusive) {ranked : List (Candidate Float)}
    {ranked' : List (Candidate Rat)} (h : List.Forall₂ Candidate.Agree ranked ranked')
    (tokenCount : Nat) :
    (ofReason reason ranked tokenCount).Agree (ofReason reason ranked' tokenCount) :=
  ⟨rfl, rfl, Candidate.agree_unknown, h⟩

/-- The first candidates of rankings that agree do so. -/
lemma agree_head?_getD {ranked : List (Candidate Float)} {ranked' : List (Candidate Rat)}
    (h : List.Forall₂ Candidate.Agree ranked ranked') :
    (ranked.head?.getD .unknown).Agree (ranked'.head?.getD .unknown) := by
  cases h with
  | nil => exact Candidate.agree_unknown
  | cons hhead _ => exact hhead

section Rank

variable {cap : Nat} {a : Thresholds Float} {b : Thresholds Rat} {found : Features Float}
  {found' : Features Rat} (h : Features.Faithful cap found found') (hcap : cap ≤ 10 ^ 9)

include h hcap

/-- Features that agree are ranked in the same way. -/
theorem agree_rank (htokens : a.minTokensForFullConfidence = b.minTokensForFullConfidence)
    (hsmall : b.minTokensForFullConfidence < 2 ^ 53) (hcount : found'.tokenCount < 2 ^ 53) :
    (rank a found).Agree (rank b found') := by
  have htotal := h.positiveTotal hcap
  have hhalf := h.isHalfInteger_positiveTotal
  have hranked : List.Forall₂ Candidate.Agree
      ((ranking found.languages).map
        (candidateOf found.positiveTotal (lengthFactor a found.tokenCount)))
      ((ranking found'.languages).map
        (candidateOf found'.positiveTotal (lengthFactor b found'.tokenCount))) := by
    have hmem := (List.forall₂_and_left _ _).mpr
      ⟨fun _ hl => (ranking_perm found'.languages).mem_iff.mp hl, (h.forall₂_ranking hcap).flip⟩
    rw [List.forall₂_map_left_iff, List.forall₂_map_right_iff, h.tokenCount_eq]
    exact hmem.flip.imp fun l l' hl => agree_candidateOf hl.2 htotal hhalf
      (Features.max_rawScore_le_positiveTotal hl.1) (isCloseTo_lengthFactor htokens hsmall hcount)
  unfold rank
  dsimp only
  rw [h.tokenCount_eq] at hranked ⊢
  by_cases hle : found'.positiveTotal ≤ scoreResolution
  · rw [if_pos hle, if_pos ((htotal.le_scoreResolution_iff hhalf).mpr hle)]
    exact agree_ofReason .noEvidence hranked _
  · rw [if_neg hle, if_neg ((htotal.le_scoreResolution_iff hhalf).not.mpr hle)]
    exact ⟨rfl, rfl, agree_head?_getD hranked, hranked⟩

end Rank

end Classification

/-! ## Texts -/

/-- A text has no more tokens than characters. -/
lemma tokenCount_trim_le (text : List Char) :
    tokenCount (Characters.trim text) ≤ text.length := by
  have hsublist : (Characters.trim text).Sublist text :=
    (Characters.trimEnd_prefix _).sublist.trans (List.dropWhile_sublist _)
  calc tokenCount (Characters.trim text)
      ≤ (Characters.trim text).countP (!Characters.isBlank ·) := tokenCount_le_countP _
    _ ≤ (Characters.trim text).length := List.countP_le_length
    _ ≤ text.length := hsublist.length_le

section Texts

variable {a : Thresholds Float} {b : Thresholds Rat} {text : List Char}

/-- The program finds the same in a text for every language. -/
theorem faithful_features (hcap : a.cap = b.cap) (hbound : b.cap ≤ 10 ^ 9) (text : List Char)
    (hint : Option String) :
    (features .builtin a text hint).Faithful b.cap (features .builtin b text hint) where
  tokenCount_eq := by rw [features_tokenCount, features_tokenCount]
  languages := by
    rw [builtin_features_languages, builtin_features_languages, List.forall₂_map_left_iff,
      List.forall₂_map_right_iff, List.forall₂_same, hcap]
    intro language hlanguage
    exact ⟨LanguageFeatures.agree_ofHint hlanguage _ b.one_le_cap hbound hint,
      LanguageFeatures.accounted_ofHint hlanguage _ b.one_le_cap hint⟩
  length_le := by
    rw [builtin_features_languages, List.length_map]
    decide

/-- The program classifies a text as exact arithmetic does, provided that the text looks binary to
both or to none. -/
theorem agree_classify (hcap : a.cap = b.cap) (hbound : b.cap ≤ 10 ^ 9)
    (htokens : a.minTokensForFullConfidence = b.minTokensForFullConfidence)
    (hsmall : b.minTokensForFullConfidence < 2 ^ 53) (hlength : text.length < 2 ^ 53)
    (hbinary : looksBinary text a.binaryRatioThreshold = looksBinary text b.binaryRatioThreshold)
    (hint : Option String) :
    (classify .builtin a text hint).Agree (classify .builtin b text hint) := by
  unfold classify
  rw [hbinary]
  split
  · exact Classification.agree_ofReason .emptyInput .nil 0
  split
  · exact Classification.agree_ofReason .binaryInput .nil 0
  · have hcount : (features .builtin b text hint).tokenCount < 2 ^ 53 := by
      rw [features_tokenCount]
      exact (tokenCount_trim_le text).trans_lt hlength
    exact Classification.agree_rank (faithful_features hcap hbound text hint) hbound htokens hsmall
      hcount

end Texts

end LanguageDetection
