import LanguageDetection.Proofs.Dialects.PlainJavaScript

/-!
# The tolerance

The tolerance says which part of the score on top the second language of a ranking must have to be
accepted.  The lower it is, the more is accepted.  The test leaves a slack of the score resolution,
which does not count between scores, since these are half-integers
(`IsHalfInteger.sub_scoreResolution_le_iff`): at a tolerance of one only a tie is accepted.  Two
millionths of the score on top are no less than the resolution, because that score is at least one
half, so two millionths above zero and above one the slack is used up.
-/

namespace LanguageDetection

/-- Between half-integers the score resolution does not count. -/
lemma IsHalfInteger.sub_scoreResolution_le_iff {a b : Rat} (ha : IsHalfInteger a)
    (hb : IsHalfInteger b) : a - scoreResolution ≤ b ↔ a ≤ b := by
  have hpos : (0 : Rat) < scoreResolution := scoreResolution_pos
  constructor
  · intro h
    by_contra hlt
    have hhalf := (ha.add hb.neg).half_le (by linarith)
    have hresolution : (scoreResolution : Rat) < 1 / 2 := by norm_num [scoreResolution]
    linarith
  · intro h
    linarith

section Conclusive

variable {thresholds : Thresholds Rat} {text : List Char} {hint : Option String}
  (hconclusive : (classify .builtin thresholds text hint).inconclusive = none)

include hconclusive

/-! ## The second score -/

section Ranked

variable {second : Candidate Rat} {rest : List (Candidate Rat)}
  (hranked : (classify .builtin thresholds text hint).ranked =
    (classify .builtin thresholds text hint).top :: second :: rest)

include hranked

/-- Nobody has a better score than the top. -/
lemma second_rawScore_le (hcap : thresholds.cap ≤ 10 ^ 9) :
    second.rawScore ≤ (classify .builtin thresholds text hint).top.rawScore := by
  have hscored := Classification.isScored_of_conclusive hconclusive
  have hsorted := pairwise_outranks_classify hscored hint hcap
  rw [hranked] at hsorted
  rcases (List.pairwise_cons.mp hsorted).1 second List.mem_cons_self with hlt | ⟨heq, -⟩
  · exact le_of_lt hlt
  · exact ge_of_eq heq

/-- The first language is accepted, and the second one within the tolerance. -/
lemma accepts_classify_iff (declared : Language) (tolerance : Rat) :
    Verdict.accepts declared (classify .builtin thresholds text hint) tolerance = true ↔
      declared = (classify .builtin thresholds text hint).language ∨
        declared = second.language ∧
          tolerance * (classify .builtin thresholds text hint).top.rawScore - scoreResolution ≤
            second.rawScore :=
  Verdict.accepts_iff declared hranked (second_eq_candidateFor hconclusive hranked).2.1.symm
    tolerance

/-- At a tolerance of one the second language is accepted if its score is that of the top. -/
theorem accepts_second_one_iff (hcap : thresholds.cap ≤ 10 ^ 9) :
    Verdict.accepts second.language (classify .builtin thresholds text hint) 1 = true ↔
      second.rawScore = (classify .builtin thresholds text hint).top.rawScore := by
  obtain ⟨hsupported, hne, hsecond⟩ := second_eq_candidateFor hconclusive hranked
  obtain ⟨hsupported', htop⟩ := top_eq_candidateFor hconclusive
  have hhalf : IsHalfInteger second.rawScore := by
    rw [hsecond]
    exact isHalfInteger_candidateFor _ _ _ hsupported
  have hhalf' : IsHalfInteger (classify .builtin thresholds text hint).top.rawScore := by
    rw [htop]
    exact isHalfInteger_candidateFor _ _ _ hsupported'
  have hle := second_rawScore_le hconclusive hranked hcap
  rw [accepts_classify_iff hconclusive hranked, one_mul, hhalf'.sub_scoreResolution_le_iff hhalf]
  constructor
  · intro h
    exact le_antisymm hle (h.resolve_left hne).2
  · intro heq
    exact Or.inr ⟨rfl, ge_of_eq heq⟩

end Ranked

/-! ## The tolerance -/

/-- The score on top is at least one half, and two millionths of it are no less than the
resolution. -/
lemma scoreResolution_le_top :
    scoreResolution ≤ 2 / 10 ^ 6 * (classify .builtin thresholds text hint).top.rawScore := by
  have hhalf := half_le_rawScore_top hconclusive
  norm_num [scoreResolution]
  linarith

/-- What is accepted is accepted with every lower tolerance. -/
theorem accepts_of_le {declared : Language} {lower upper : Rat} (hle : lower ≤ upper)
    (h : Verdict.accepts declared (classify .builtin thresholds text hint) upper = true) :
    Verdict.accepts declared (classify .builtin thresholds text hint) lower = true := by
  obtain ⟨second, rest, hranked⟩ := Classification.exists_ranked_eq_of_conclusive hconclusive
  have hpos := (Classification.named_top_of_conclusive hconclusive).rawScore_pos
  have hproduct := mul_le_mul_of_nonneg_right hle (le_of_lt hpos)
  rw [accepts_classify_iff hconclusive hranked] at h ⊢
  exact h.imp_right fun ⟨hsecond, hwithin⟩ => ⟨hsecond, by linarith⟩

/-- Above two millionths a language that is accepted has a positive score and evidence. -/
theorem candidate_of_accepts {declared : Language} {tolerance : Rat}
    (htolerance : 2 / 10 ^ 6 < tolerance)
    (h : Verdict.accepts declared (classify .builtin thresholds text hint) tolerance = true) :
    ∃ candidate, (classify .builtin thresholds text hint).candidate? declared = some candidate ∧
      0 < candidate.rawScore ∧ candidate.evidence ≠ [] := by
  obtain ⟨second, rest, hranked⟩ := Classification.exists_ranked_eq_of_conclusive hconclusive
  obtain ⟨hsupported, -, hsecond⟩ := second_eq_candidateFor hconclusive hranked
  obtain ⟨hsupported', htop⟩ := top_eq_candidateFor hconclusive
  have hpos := (Classification.named_top_of_conclusive hconclusive).rawScore_pos
  have hslack := scoreResolution_le_top hconclusive
  have hspec : declared ∈ Language.supported ∧
      0 < (candidateFor thresholds text hint declared).rawScore := by
    rcases (accepts_classify_iff hconclusive hranked declared tolerance).mp h with
      rfl | ⟨rfl, hwithin⟩
    · exact ⟨hsupported', htop ▸ hpos⟩
    · have hproduct := mul_lt_mul_of_pos_right htolerance hpos
      rw [← hsecond]
      exact ⟨hsupported, by linarith⟩
  have hscored := Classification.isScored_of_conclusive hconclusive
  exact ⟨_, candidate?_classify hint hscored hspec.1, hspec.2,
    evidence_candidateFor_ne_nil hint hspec.1 hspec.2⟩

/-- Two millionths above one nothing but the top is accepted. -/
theorem accepts_iff_of_lt (hcap : thresholds.cap ≤ 10 ^ 9) {tolerance : Rat}
    (htolerance : 1 + 2 / 10 ^ 6 < tolerance) (declared : Language) :
    Verdict.accepts declared (classify .builtin thresholds text hint) tolerance = true ↔
      declared = (classify .builtin thresholds text hint).language := by
  obtain ⟨second, rest, hranked⟩ := Classification.exists_ranked_eq_of_conclusive hconclusive
  have hle := second_rawScore_le hconclusive hranked hcap
  have hpos := (Classification.named_top_of_conclusive hconclusive).rawScore_pos
  have hslack := scoreResolution_le_top hconclusive
  have hproduct := mul_lt_mul_of_pos_right htolerance hpos
  rw [accepts_classify_iff hconclusive hranked, or_iff_left]
  rintro ⟨-, hwithin⟩
  linarith

end Conclusive

/-! ## The law of the tolerance -/

/-- How the tolerance bears on what a conclusive text is accepted as. -/
structure ToleranceLaw (thresholds : Thresholds Rat) (text : List Char) (hint : Option String) :
    Prop where
  /-- A verdict is what the tolerance accepts of the same classification. -/
  isMatch_eq : ∀ (tolerance : Rat) (declared : Language),
    (Verdict.validate .builtin { thresholds with matchTolerance := tolerance } declared text
      hint).isMatch = Verdict.accepts declared (classify .builtin thresholds text hint) tolerance
  /-- What is accepted is accepted with every lower tolerance. -/
  accepts_of_le : ∀ (declared : Language) (lower upper : Rat), lower ≤ upper →
    Verdict.accepts declared (classify .builtin thresholds text hint) upper = true →
      Verdict.accepts declared (classify .builtin thresholds text hint) lower = true
  /-- At a tolerance of one the second language is accepted if its score is that of the top. -/
  second_accepts_iff : ∃ second rest,
    (classify .builtin thresholds text hint).ranked =
      (classify .builtin thresholds text hint).top :: second :: rest ∧
    (Verdict.accepts second.language (classify .builtin thresholds text hint) 1 = true ↔
      second.rawScore = (classify .builtin thresholds text hint).top.rawScore)
  /-- Above two millionths a language that is accepted has a positive score and evidence. -/
  exists_candidate : ∀ (declared : Language) (tolerance : Rat), 2 / 10 ^ 6 < tolerance →
    Verdict.accepts declared (classify .builtin thresholds text hint) tolerance = true →
      ∃ candidate, (classify .builtin thresholds text hint).candidate? declared = some candidate ∧
        0 < candidate.rawScore ∧ candidate.evidence ≠ []
  /-- Two millionths above one nothing but the top is accepted. -/
  accepts_iff : ∀ (declared : Language) (tolerance : Rat), 1 + 2 / 10 ^ 6 < tolerance →
    (Verdict.accepts declared (classify .builtin thresholds text hint) tolerance = true ↔
      declared = (classify .builtin thresholds text hint).language)

/-- The law holds of every conclusive text, below the cap of a thousand million. -/
theorem toleranceLaw_classify (thresholds : Thresholds Rat) (text : List Char)
    (hint : Option String) (hcap : thresholds.maxOccurrencesPerSignature ≤ 10 ^ 9)
    (hconclusive : (classify .builtin thresholds text hint).inconclusive = none) :
    ToleranceLaw thresholds text hint := by
  have hcap' : thresholds.cap ≤ 10 ^ 9 := max_le hcap (by norm_num)
  obtain ⟨second, rest, hranked⟩ := Classification.exists_ranked_eq_of_conclusive hconclusive
  refine ⟨?_, ?_, ⟨second, rest, hranked, accepts_second_one_iff hconclusive hranked hcap'⟩, ?_, ?_⟩
  · intro tolerance declared
    have hsame : classify .builtin { thresholds with matchTolerance := tolerance } text hint =
        classify .builtin thresholds text hint := rfl
    unfold Verdict.validate Verdict.judge
    rw [hsame, hconclusive]
  · intro declared lower upper hle h
    exact accepts_of_le hconclusive hle h
  · intro declared tolerance htolerance h
    exact candidate_of_accepts hconclusive htolerance h
  · intro declared tolerance htolerance
    exact accepts_iff_of_lt hconclusive hcap' htolerance declared

/-- A tie of three languages, two of which are accepted up to a tolerance of one. -/
theorem toleranceLaw_dollarCall :
    (Thresholds.default : Thresholds Rat).maxOccurrencesPerSignature ≤ 10 ^ 9 ∧
      (classify .builtin (Thresholds.default : Thresholds Rat) dollarCall none).inconclusive =
        none ∧
      ToleranceLaw Thresholds.default dollarCall none := by
  have hcap : (Thresholds.default : Thresholds Rat).maxOccurrencesPerSignature ≤ 10 ^ 9 := by
    decide
  have hconclusive := dollarCall.conclusive_and_top.1
  exact ⟨hcap, hconclusive, toleranceLaw_classify _ _ _ hcap hconclusive⟩

end LanguageDetection
