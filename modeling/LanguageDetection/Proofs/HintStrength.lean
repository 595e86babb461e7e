import LanguageDetection.Proofs.RuleScore
import LanguageDetection.Proofs.Standing

/-!
# What a hint can outvote

A hint adds two points to its language.  Where the text has a strong marker of the language on top,
and nothing in it speaks for the language of the hint, the top stays if and only if its score is at
least two points ahead (`HintAgainstText.top_language_eq_top_iff`).  A strong marker weighs more
than two points, but disqualifiers can leave less than that, and then the hint outvotes the text.
-/

namespace LanguageDetection

/-! ## Languages without evidence -/

section NoEvidence

variable {text : List Char} {cap : Nat} {language : Language} {positiveTotal lengthFactor : Rat}

/-- Without evidence no hit speaks for the language. -/
lemma contribution_nonpos_of_evidence_eq_nil {found : LanguageFeatures Rat}
    (h : (Classification.candidateOf positiveTotal lengthFactor found).evidence = []) :
    ∀ hit ∈ found.hits, hit.contribution ≤ 0 := by
  intro hit hhit
  rw [Classification.evidence_candidateOf, List.filter_eq_nil_iff] at h
  have hitem : Evidence.ofHit hit ∈ found.evidence := mem_sortBy.mpr (List.mem_map_of_mem hhit)
  exact not_lt.mp fun hpos => h _ hitem (decide_eq_true hpos)

/-- A hit of a strong rule speaks for the language. -/
lemma contribution_pos_of_strong {hit : Hit Rat}
    (h : hit ∈ (LanguageFeatures.ofEntry text cap (.builtin language)).hits)
    (hstrong : hit.signature.markerClass = .strong) : 0 < hit.contribution := by
  obtain ⟨signature, hmem, rfl, hcount⟩ := LanguageFeatures.exists_of_mem_hits_ofEntry h
  have hweight := (CatalogEntry.weight_of_mem_builtin hmem).2.1
  have hsigned : signature.signedWeight = signature.weight := by
    apply Signature.signedWeight_of_ne
    change signature.markerClass = .strong at hstrong
    simp [hstrong]
  change 0 < signature.signedWeight * ((min (signature.countIn text) cap : Nat) : Rat)
  rw [hsigned]
  exact mul_pos hweight (by exact_mod_cast hcount)

/-- A language without evidence has no strong hits and no positive score. -/
lemma strongHits_eq_zero_of_evidence_eq_nil (hlanguage : language ∈ Language.supported)
    (h : (Classification.candidateOf positiveTotal lengthFactor
      (.ofEntry text cap (.builtin language))).evidence = []) :
    (LanguageFeatures.ofEntry text cap (.builtin language) : LanguageFeatures Rat).strongHits = 0 ∧
      (LanguageFeatures.ofEntry text cap (.builtin language)).rawScore ≤ (0 : Rat) := by
  have hnonpos := contribution_nonpos_of_evidence_eq_nil h
  constructor
  · have hnone : (LanguageFeatures.ofEntry text cap (.builtin language) :
        LanguageFeatures Rat).hits.filter (·.signature.markerClass = .strong) = [] := by
      rw [List.filter_eq_nil_iff]
      intro hit hhit hstrong
      have hpos := contribution_pos_of_strong hhit (of_decide_eq_true hstrong)
      exact not_lt.mpr (hnonpos hit hhit) hpos
    have hfold : (LanguageFeatures.ofEntry text cap (.builtin language) :
        LanguageFeatures Rat).strongHits = ((LanguageFeatures.ofEntry text cap
          (.builtin language)).hits.filter (·.signature.markerClass = .strong)).foldr
            (fun (hit : Hit Rat) total => hit.count + total) 0 := rfl
    rw [hfold, hnone, List.foldr_nil]
  · by_contra hpos
    obtain ⟨hit, hhit, hcontribution⟩ := (LanguageFeatures.accounted_ofEntry hlanguage text
      cap).exists_pos_of_rawScore_pos (not_le.mp hpos)
    exact not_lt.mpr (hnonpos hit hhit) hcontribution

end NoEvidence

/-! ## A hint against the text -/

/-- The text has a strong marker of the language on top, and the hint names another language, for
which nothing in the text speaks. -/
structure HintAgainstText (thresholds : Thresholds Rat) (text : List Char) (extension : String)
    (owner : Language) (candidate : Candidate Rat) : Prop where
  conclusive : (classify .builtin thresholds text none).inconclusive = none
  strong : 1 ≤ (classify .builtin thresholds text none).top.strongHits
  named : Catalog.builtin.languageForExtension extension = some owner
  owner_ne : owner ≠ (classify .builtin thresholds text none).top.language
  candidate_eq : (classify .builtin thresholds text none).candidate? owner = some candidate
  evidence_eq_nil : candidate.evidence = []

namespace HintAgainstText

variable {thresholds : Thresholds Rat} {text : List Char} {extension : String} {owner : Language}
  {candidate : Candidate Rat}

/-- The candidate of the language that the hint names. -/
lemma candidate_spec (h : HintAgainstText thresholds text extension owner candidate) :
    owner ∈ Language.supported ∧ candidate = candidateFor thresholds text none owner ∧
      candidate.strongHits = 0 ∧ candidate.rawScore ≤ 0 := by
  have hscored := Classification.isScored_of_conclusive h.conclusive
  have howner := (Catalog.languageForExtension_builtin_eq_some_iff.mp h.named).1
  have hcandidate := h.candidate_eq
  rw [candidate?_classify none hscored howner, Option.some.injEq] at hcandidate
  have hevidence := h.evidence_eq_nil
  rw [← hcandidate] at hevidence ⊢
  exact ⟨howner, rfl, strongHits_eq_zero_of_evidence_eq_nil howner hevidence⟩

/-- Only the score of the language that the hint names changes, and it gains two points. -/
lemma hinted_candidate (h : HintAgainstText thresholds text extension owner candidate)
    {language : Language} (hlanguage : language ∈ Language.supported) :
    (candidateFor thresholds text (some extension) language).rawScore =
        (candidateFor thresholds text none language).rawScore +
          (if language = owner then 2 else 0) ∧
      (candidateFor thresholds text (some extension) language).strongHits =
        (candidateFor thresholds text none language).strongHits := by
  constructor
  · rw [candidateFor_rawScore _ _ _ hlanguage, candidateFor_rawScore _ _ _ hlanguage,
      hintBonus_none, add_zero, hintBonus, namedBy_some, h.named]
    simp only [Option.some.injEq, eq_comm]
  · rw [candidateFor_strongHits _ _ _ hlanguage, candidateFor_strongHits _ _ _ hlanguage]

/-- The score on top is positive, with the hint as without it, so a language is named. -/
lemma hinted_conclusive (h : HintAgainstText thresholds text extension owner candidate) :
    (classify .builtin thresholds text (some extension)).inconclusive = none :=
  conclusive_of_conclusive_none h.conclusive (some extension)

/-- Which of the two languages outranks the other with the hint. -/
lemma outranks_owner_iff (h : HintAgainstText thresholds text extension owner candidate) :
    (candidateFor thresholds text (some extension)
        (classify .builtin thresholds text none).top.language).Outranks
          (candidateFor thresholds text (some extension) owner) ↔
      candidate.rawScore + 2 ≤ (classify .builtin thresholds text none).top.rawScore := by
  obtain ⟨hsupported, htop⟩ := top_eq_candidateFor h.conclusive
  obtain ⟨howner, hcandidate, hzero, -⟩ := h.candidate_spec
  obtain ⟨hscore, hstrong⟩ := h.hinted_candidate hsupported
  obtain ⟨hscore', hstrong'⟩ := h.hinted_candidate howner
  have hone := h.strong
  rw [if_neg (Ne.symm h.owner_ne), add_zero, ← htop] at hscore
  rw [← htop] at hstrong
  rw [if_pos rfl, ← hcandidate] at hscore'
  rw [← hcandidate, hzero] at hstrong'
  constructor
  · rintro (hlt | ⟨heq, -⟩) <;> linarith
  · intro hle
    -- with equal scores the strong marker decides
    rcases lt_or_eq_of_le hle with hlt | heq
    · exact Or.inl (by linarith)
    · exact Or.inr ⟨by linarith, Or.inl (by omega)⟩

/-- The language on top still outranks every language that the hint does not name. -/
lemma outranks_other (hcap : thresholds.cap ≤ 10 ^ 9)
    (h : HintAgainstText thresholds text extension owner candidate) {other : Language}
    (hother : other ∈ Language.supported)
    (hne : other ≠ (classify .builtin thresholds text none).top.language) (howner : other ≠ owner) :
    (candidateFor thresholds text (some extension)
      (classify .builtin thresholds text none).top.language).Outranks
        (candidateFor thresholds text (some extension) other) := by
  obtain ⟨hsupported, -⟩ := top_eq_candidateFor h.conclusive
  obtain ⟨hscore, hstrong⟩ := h.hinted_candidate hsupported
  obtain ⟨hscore', hstrong'⟩ := h.hinted_candidate hother
  have hplain := (top_language_eq_iff hcap h.conclusive hsupported).mp rfl other hother hne
  rw [if_neg (Ne.symm h.owner_ne), add_zero] at hscore
  rw [if_neg howner, add_zero] at hscore'
  unfold Candidate.Outranks at hplain ⊢
  rw [hscore, hscore', hstrong, hstrong', candidateFor_language, candidateFor_language]
  rwa [candidateFor_language, candidateFor_language] at hplain

/-- The top stays exactly if it is two points ahead of the language that the hint names. -/
lemma top_language_eq_top_iff (hcap : thresholds.cap ≤ 10 ^ 9)
    (h : HintAgainstText thresholds text extension owner candidate) :
    (classify .builtin thresholds text (some extension)).top.language =
        (classify .builtin thresholds text none).top.language ↔
      candidate.rawScore + 2 ≤ (classify .builtin thresholds text none).top.rawScore := by
  obtain ⟨hsupported, -⟩ := top_eq_candidateFor h.conclusive
  obtain ⟨howner, -⟩ := h.candidate_spec
  rw [top_language_eq_iff hcap h.hinted_conclusive hsupported, ← h.outranks_owner_iff]
  constructor
  · intro hall
    exact hall owner howner h.owner_ne
  · intro houtranks other hother hne
    by_cases heq : other = owner
    · rwa [heq]
    · exact h.outranks_other hcap hother hne heq

/-- Otherwise the language that the hint names takes its place. -/
lemma top_language_eq_owner_iff (hcap : thresholds.cap ≤ 10 ^ 9)
    (h : HintAgainstText thresholds text extension owner candidate) :
    (classify .builtin thresholds text (some extension)).top.language = owner ↔
      (classify .builtin thresholds text none).top.rawScore < candidate.rawScore + 2 := by
  obtain ⟨hsupported, htop⟩ := top_eq_candidateFor h.conclusive
  obtain ⟨howner, hcandidate, -, -⟩ := h.candidate_spec
  rw [← not_le, ← h.top_language_eq_top_iff hcap]
  constructor
  · intro hhinted heq
    exact h.owner_ne (hhinted.symm.trans heq)
  · intro hne
    rw [top_language_eq_iff hcap h.hinted_conclusive howner]
    rw [h.top_language_eq_top_iff hcap, not_le] at hne
    have hscore := (h.hinted_candidate howner).1
    rw [if_pos rfl, ← hcandidate] at hscore
    intro other hother hother_ne
    -- nobody else scores above the former top, which is less than two points ahead
    have hle : (candidateFor thresholds text (some extension) other).rawScore ≤
        (classify .builtin thresholds text none).top.rawScore := by
      have hplain := (h.hinted_candidate hother).1
      rw [if_neg hother_ne, add_zero] at hplain
      by_cases heq : other = (classify .builtin thresholds text none).top.language
      · rw [hplain, heq, ← htop]
      · have houtranks :=
          (top_language_eq_iff hcap h.conclusive hsupported).mp rfl other hother heq
        rw [← htop] at houtranks
        rw [hplain]
        rcases houtranks with hlt | ⟨hequal, -⟩ <;> linarith
    exact Or.inl (by linarith)

end HintAgainstText

/-- A hint for a language without evidence outvotes a strong marker exactly if the score on top is
less than two points ahead. -/
theorem top_language_hinted_iff (thresholds : Thresholds Rat) (text : List Char)
    (extension : String) (owner : Language) (candidate : Candidate Rat)
    (hcap : thresholds.maxOccurrencesPerSignature ≤ 10 ^ 9)
    (h : HintAgainstText thresholds text extension owner candidate) :
    (classify .builtin thresholds text (some extension)).inconclusive = none ∧
      candidate.rawScore ≤ 0 ∧
      ((classify .builtin thresholds text (some extension)).top.language =
          (classify .builtin thresholds text none).top.language ↔
        candidate.rawScore + 2 ≤ (classify .builtin thresholds text none).top.rawScore) ∧
      ((classify .builtin thresholds text (some extension)).top.language = owner ↔
        (classify .builtin thresholds text none).top.rawScore < candidate.rawScore + 2) := by
  have hcap' : thresholds.cap ≤ 10 ^ 9 := max_le hcap (by norm_num)
  obtain ⟨-, -, -, hnonpos⟩ := h.candidate_spec
  exact ⟨h.hinted_conclusive, hnonpos, h.top_language_eq_top_iff hcap',
    h.top_language_eq_owner_iff hcap'⟩

/-! ## A length and a statement keyword -/

/-- A length, which is a strong marker of style sheets, behind a keyword that speaks against
them. -/
def returnLength : List Char := "return 5px".toList

namespace returnLength

lemma isScored : IsScored (Thresholds.default : Thresholds Rat) returnLength :=
  ⟨by decide +kernel, by decide +kernel⟩

lemma trim_eq : Characters.trim returnLength = returnLength := by
  decide +kernel

/-- One point is left for style sheets, JSON loses six, and nobody else has any. -/
lemma score_eq : ∀ language ∈ Language.supported,
    Rules.score (Rules.ofLanguage language) returnLength 5 =
      if language = .css then 1 else if language = .json then -6 else 0 := by
  have hspelled : ∀ language ∈ Language.supported,
      (Rules.spellingOf language).score returnLength 5 =
        if language = .css then 1 else if language = .json then -6 else 0 := by
    decide +kernel
  intro language hlanguage
  rw [Spelling.score_eq returnLength 5 (Rules.spellingOf language)]
  exact hspelled language hlanguage

/-- The scores of the candidates without a hint. -/
lemma rawScore_eq {language : Language} (h : language ∈ Language.supported) :
    (candidateFor Thresholds.default returnLength none language).rawScore =
      if language = .css then 1 else if language = .json then -6 else 0 := by
  rw [candidateFor_rawScore _ _ _ h, hintBonus_none, add_zero, trim_eq]
  exact score_eq language h

/-- The length is the one strong hit for CSS. -/
lemma strongHits_css :
    (candidateFor Thresholds.default returnLength none .css).strongHits = 1 := by
  rw [candidateFor_strongHits _ _ _ (by decide), trim_eq,
    Spelling.strongHits_eq _ _ (Rules.spellingOf .css)]
  decide +kernel

/-- Nothing in the text speaks for Python. -/
lemma evidence_python :
    (candidateFor Thresholds.default returnLength none .python).evidence = [] := by
  have hnone : ∀ rule ∈ Rules.ofLanguage .python, ¬ rule.Occurs returnLength :=
    Spelling.not_occurs_of_all returnLength (Rules.spellingOf .python) (by decide +kernel)
  refine evidence_candidateFor_eq_nil ?_
  rwa [trim_eq]

/-- Style sheets are on top, by one point. -/
lemma conclusive_and_top :
    (classify .builtin (Thresholds.default : Thresholds Rat) returnLength none).inconclusive =
        none ∧
      (classify .builtin Thresholds.default returnLength none).top =
        candidateFor Thresholds.default returnLength none .css := by
  have hcss : Language.css ∈ Language.supported := by decide
  have hscore : (candidateFor Thresholds.default returnLength none .css).rawScore = 1 :=
    rawScore_eq hcss
  have hconclusive : (classify .builtin (Thresholds.default : Thresholds Rat) returnLength
      none).inconclusive = none :=
    conclusive_of_rawScore_pos none isScored hcss (lt_of_lt_of_eq one_pos hscore.symm)
  have htop : (classify .builtin (Thresholds.default : Thresholds Rat) returnLength
      none).top.language = .css := by
    rw [top_language_eq_iff (by decide) hconclusive hcss]
    intro other hother hne
    refine Or.inl ?_
    rw [rawScore_eq hother, if_neg hne, hscore]
    split <;> norm_num
  refine ⟨hconclusive, ?_⟩
  rw [(top_eq_candidateFor hconclusive).2, htop]

/-- A hint for Python goes against the text. -/
lemma hintAgainstText : HintAgainstText Thresholds.default returnLength "py" .python
    (candidateFor Thresholds.default returnLength none .python) where
  conclusive := conclusive_and_top.1
  strong := by
    rw [conclusive_and_top.2, strongHits_css]
  named := by
    rw [Catalog.languageForExtension_builtin_eq_some_iff]
    decide +kernel
  owner_ne := by
    rw [conclusive_and_top.2, candidateFor_language]
    decide
  candidate_eq := candidate?_classify none isScored (by decide)
  evidence_eq_nil := evidence_python

end returnLength

/-- One point ahead is not enough. -/
theorem top_language_hinted_iff_returnLength :
    (Thresholds.default : Thresholds Rat).maxOccurrencesPerSignature ≤ 10 ^ 9 ∧
      ∃ candidate, HintAgainstText Thresholds.default returnLength "py" .python candidate ∧
        (classify .builtin (Thresholds.default : Thresholds Rat) returnLength
          (some "py")).inconclusive = none ∧
        candidate.rawScore ≤ 0 ∧
        ((classify .builtin (Thresholds.default : Thresholds Rat) returnLength
            (some "py")).top.language =
          (classify .builtin (Thresholds.default : Thresholds Rat) returnLength none).top.language ↔
          candidate.rawScore + 2 ≤
            (classify .builtin Thresholds.default returnLength none).top.rawScore) ∧
        ((classify .builtin (Thresholds.default : Thresholds Rat) returnLength
            (some "py")).top.language = .python ↔
          (classify .builtin Thresholds.default returnLength none).top.rawScore <
            candidate.rawScore + 2) := by
  have hcap : (Thresholds.default : Thresholds Rat).maxOccurrencesPerSignature ≤ 10 ^ 9 := by
    decide
  exact ⟨hcap, _, returnLength.hintAgainstText,
    top_language_hinted_iff _ _ _ _ _ hcap returnLength.hintAgainstText⟩

/-- A hint does outvote a strong marker: it is not so that the language on top always stays. -/
theorem not_forall_top_language_hinted_eq :
    ¬ ∀ (text : List Char) (extension : String) (owner : Language) (candidate : Candidate Rat),
      HintAgainstText Thresholds.default text extension owner candidate →
        (classify .builtin (Thresholds.default : Thresholds Rat) text
            (some extension)).top.language =
          (classify .builtin (Thresholds.default : Thresholds Rat) text none).top.language := by
  intro hall
  have htop := hall _ _ _ _ returnLength.hintAgainstText
  rw [returnLength.hintAgainstText.top_language_eq_top_iff (by decide),
    returnLength.conclusive_and_top.2, returnLength.rawScore_eq (by decide),
    returnLength.rawScore_eq (by decide), if_neg (by decide), if_neg (by decide),
    if_pos rfl] at htop
  norm_num at htop

end LanguageDetection
