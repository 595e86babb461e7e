import LanguageDetection.Proofs.Acceptance
import LanguageDetection.Proofs.ExtensionHint
import LanguageDetection.Proofs.RuleScore
import LanguageDetection.Proofs.Ranking

/-!
# Where a language stands

A scored text has one candidate for each supported language, and its score and strong hits are sums
over the rules of the language, with two more points for the language that a hint names
(`candidateFor`).  Which of two languages stands before the other in the ranking, and which language
is on top, are then questions about these sums (`standsBefore_classify_iff`,
`top_language_eq_iff`).
-/

namespace LanguageDetection

/-! ## Positions in a ranking -/

namespace Classification

/-- Both languages are ranked, and `a` stands before `b`. -/
def StandsBefore (result : Classification Rat) (a b : Language) : Prop :=
  ∃ i j, result.rankOf? a = some i ∧ result.rankOf? b = some j ∧ i < j

section Ranked

variable {result : Classification Rat} (hnodup : (result.ranked.map (·.language)).Nodup)

include hnodup

/-- A candidate is found by its language where it is listed. -/
lemma candidate?_and_rankOf?_of_getElem {candidate : Candidate Rat} {i : Nat}
    (h : result.ranked[i]? = some candidate) :
    result.candidate? candidate.language = some candidate ∧
      result.rankOf? candidate.language = some i := by
  obtain ⟨hlt, hget⟩ := List.getElem?_eq_some_iff.mp h
  have hsplit : result.ranked =
      result.ranked.take i ++ candidate :: result.ranked.drop (i + 1) := by
    rw [← hget, ← List.drop_eq_getElem_cons hlt, List.take_append_drop]
  have hothers : ∀ other ∈ result.ranked.take i ++ result.ranked.drop (i + 1),
      other.language ≠ candidate.language := by
    rw [hsplit, List.map_append, List.map_cons, List.nodup_middle, List.nodup_cons,
      ← List.map_append] at hnodup
    intro other hother heq
    exact hnodup.1 (heq ▸ List.mem_map_of_mem hother)
  obtain ⟨hfind, hrank, -⟩ := candidate?_of_ranked_eq hsplit rfl hothers
  rw [List.length_take_of_le (le_of_lt hlt)] at hrank
  exact ⟨hfind, hrank⟩

/-- A ranked candidate is the one that is found for its language. -/
lemma candidate?_of_mem {candidate : Candidate Rat} (h : candidate ∈ result.ranked) :
    result.candidate? candidate.language = some candidate := by
  obtain ⟨i, hi⟩ := List.getElem?_of_mem h
  exact (candidate?_and_rankOf?_of_getElem hnodup hi).1

/-- In a strict ranking the positions say who outranks whom. -/
theorem standsBefore_iff_outranks (hsorted : result.ranked.Pairwise Candidate.Outranks)
    {a b : Candidate Rat} (ha : a ∈ result.ranked) (hb : b ∈ result.ranked) (hne : a ≠ b) :
    result.StandsBefore a.language b.language ↔ a.Outranks b := by
  obtain ⟨i, hi⟩ := List.getElem?_of_mem ha
  obtain ⟨j, hj⟩ := List.getElem?_of_mem hb
  have hrank := (candidate?_and_rankOf?_of_getElem hnodup hi).2
  have hrank' := (candidate?_and_rankOf?_of_getElem hnodup hj).2
  obtain ⟨hlti, hgeti⟩ := List.getElem?_eq_some_iff.mp hi
  obtain ⟨hltj, hgetj⟩ := List.getElem?_eq_some_iff.mp hj
  have hforward : i < j → a.Outranks b := by
    intro hlt
    have hpair := List.pairwise_iff_getElem.mp hsorted i j hlti hltj hlt
    rwa [hgeti, hgetj] at hpair
  constructor
  · rintro ⟨i', j', hi', hj', hlt⟩
    rw [hrank, Option.some.injEq] at hi'
    rw [hrank', Option.some.injEq] at hj'
    exact hforward (by omega)
  · intro houtranks
    refine ⟨i, j, hrank, hrank', ?_⟩
    by_contra hle
    rcases Nat.lt_or_eq_of_le (not_lt.mp hle) with hlt | heq
    · have hpair := List.pairwise_iff_getElem.mp hsorted j i hltj hlti hlt
      rw [hgeti, hgetj] at hpair
      exact houtranks.asymm hpair
    · rw [heq, hi, Option.some.injEq] at hj
      exact hne hj

end Ranked

end Classification

/-! ## Hints -/

/-- The language that a hint names, if it belongs to one. -/
def namedBy (hint : Option String) : Option Language :=
  hint.bind Catalog.builtin.languageForExtension

@[simp] lemma namedBy_none : namedBy none = none := rfl

/-- An extension names what the catalog finds for it. -/
@[simp] lemma namedBy_some (extension : String) :
    namedBy (some extension) = Catalog.builtin.languageForExtension extension := by
  unfold namedBy
  rw [Option.bind_some]

/-- The language that a hint names is supported, and the hint is one of its extensions. -/
lemma spec_of_namedBy_eq_some {hint : Option String} {language : Language}
    (h : namedBy hint = some language) : language ∈ Language.supported ∧
      ∃ extension, hint = some extension ∧ language.hasExtension extension = true := by
  cases hint with
  | none => cases h
  | some extension =>
    rw [namedBy_some, Catalog.languageForExtension_builtin_eq_some_iff] at h
    exact ⟨h.1, extension, rfl, h.2⟩

/-- What a hint adds to the score of a language. -/
def hintBonus (hint : Option String) (language : Language) : Rat :=
  if namedBy hint = some language then 2 else 0

lemma hintBonus_of_eq {hint : Option String} {language : Language}
    (h : namedBy hint = some language) : hintBonus hint language = 2 := if_pos h

lemma hintBonus_of_ne {hint : Option String} {language : Language}
    (h : namedBy hint ≠ some language) : hintBonus hint language = 0 := if_neg h

/-- A hint takes nothing from any language. -/
lemma hintBonus_nonneg (hint : Option String) (language : Language) :
    0 ≤ hintBonus hint language := by
  unfold hintBonus
  split <;> norm_num

@[simp] lemma hintBonus_none (language : Language) : hintBonus none language = 0 :=
  hintBonus_of_ne (by simp)

namespace LanguageFeatures

variable {language : Language}

/-- A hint is credited to the language that it names, and the strong hits are those of the text. -/
lemma rawScore_and_strongHits_ofHint (h : language ∈ Language.supported) (text : List Char)
    (cap : Nat) (hint : Option String) :
    (ofHint text cap hint (.builtin language)).rawScore =
        Rules.score (Rules.ofLanguage language) text cap + hintBonus hint language ∧
      (ofHint text cap hint (.builtin language) : LanguageFeatures Rat).strongHits =
        Rules.strongHits (Rules.ofLanguage language) text cap := by
  have hplain := rawScore_ofEntry text cap language
  have hstrong := strongHits_ofEntry text cap language
  cases hint with
  | none => exact ⟨by rw [hintBonus_none, add_zero]; exact hplain, hstrong⟩
  | some extension =>
    have hnamed : namedBy (some extension) = some language ↔
        language.hasExtension extension = true := by
      rw [namedBy_some, Catalog.languageForExtension_builtin_eq_some_iff]
      exact and_iff_right h
    cases hextension : language.hasExtension extension with
    | true =>
      obtain ⟨listed, hcredit⟩ := @exists_ofHint_eq_credit Rat _ _ _ hextension text cap
      rw [hcredit, hintBonus_of_eq (hnamed.mpr hextension), ← hplain]
      exact ⟨rawScore_credit_ofExtension _ _ _, hstrong⟩
    | false =>
      have hne : namedBy (some extension) ≠ some language := by
        rw [Ne, hnamed, hextension]
        exact Bool.false_ne_true
      rw [ofHint_of_hasExtension_eq_false hextension, hintBonus_of_ne hne, add_zero]
      exact ⟨hplain, hstrong⟩

end LanguageFeatures

/-! ## Candidates -/

/-- The candidate of a language for a scored text. -/
def candidateFor (thresholds : Thresholds Rat) (text : List Char) (hint : Option String)
    (language : Language) : Candidate Rat :=
  Classification.candidateOf (features .builtin thresholds text hint).positiveTotal
    (Classification.lengthFactor thresholds (tokenCount (Characters.trim text)))
    (.ofHint (Characters.trim text) thresholds.cap hint (.builtin language))

section Candidates

variable (thresholds : Thresholds Rat) (text : List Char) (hint : Option String)
  {language : Language}

@[simp] lemma candidateFor_language (language : Language) :
    (candidateFor thresholds text hint language).language = language :=
  LanguageFeatures.ofHint_language _ _ _ _

/-- The score of a candidate is the sum over its rules and what the hint adds. -/
theorem candidateFor_rawScore (h : language ∈ Language.supported) :
    (candidateFor thresholds text hint language).rawScore =
      Rules.score (Rules.ofLanguage language) (Characters.trim text) thresholds.cap +
        hintBonus hint language :=
  (LanguageFeatures.rawScore_and_strongHits_ofHint h _ _ hint).1

/-- The strong hits of a candidate are the sum over its rules. -/
theorem candidateFor_strongHits (h : language ∈ Language.supported) :
    (candidateFor thresholds text hint language).strongHits =
      Rules.strongHits (Rules.ofLanguage language) (Characters.trim text) thresholds.cap :=
  (LanguageFeatures.rawScore_and_strongHits_ofHint h _ _ hint).2

/-- A score is a half-integer. -/
lemma isHalfInteger_candidateFor (h : language ∈ Language.supported) :
    IsHalfInteger (candidateFor thresholds text hint language).rawScore :=
  (LanguageFeatures.accounted_ofHint h _ thresholds.one_le_cap hint).isHalfInteger_rawScore

variable {thresholds text}

/-- A language without a rule that occurs has no evidence but the hint. -/
lemma evidence_candidateFor_eq_nil
    (h : ∀ rule ∈ Rules.ofLanguage language, ¬ rule.Occurs (Characters.trim text)) :
    (candidateFor thresholds text none language).evidence = [] := by
  have hhits := LanguageFeatures.hits_ofEntry_eq_nil h thresholds.cap
  change List.filter _ (sortBy _ (List.map _ (LanguageFeatures.ofEntry (Characters.trim text)
    thresholds.cap (.builtin language)).hits)) = []
  rw [hhits]
  rfl

/-- A language with a positive score has evidence. -/
lemma evidence_candidateFor_ne_nil (h : language ∈ Language.supported)
    (hpos : 0 < (candidateFor thresholds text hint language).rawScore) :
    (candidateFor thresholds text hint language).evidence ≠ [] := by
  have haccounted :=
    LanguageFeatures.accounted_ofHint h (Characters.trim text) thresholds.one_le_cap hint
  exact evidence_candidateOf_ne_nil haccounted hpos _ _

variable (hscored : IsScored thresholds text)

include hscored

/-- A text with a positive score is conclusive. -/
lemma conclusive_of_rawScore_pos (h : language ∈ Language.supported)
    (hpos : 0 < (candidateFor thresholds text hint language).rawScore) :
    (classify .builtin thresholds text hint).inconclusive = none := by
  refine (outcome_classify thresholds text hint).conclusive_iff.mpr ⟨hscored, ?_⟩
  refine ⟨_, ?_, hpos⟩
  rw [builtin_features_languages]
  exact List.mem_map_of_mem h

/-- Every supported language is ranked, with what the text and the hint give it. -/
lemma candidateFor_mem_ranked (h : language ∈ Language.supported) :
    candidateFor thresholds text hint language ∈
      (classify .builtin thresholds text hint).ranked := by
  rw [classify_of_isScored hscored, rank_ranked, features_tokenCount]
  refine List.mem_map_of_mem ((ranking_perm _).mem_iff.mpr ?_)
  rw [builtin_features_languages]
  exact List.mem_map_of_mem h

lemma nodup_map_language_ranked :
    ((classify .builtin thresholds text hint).ranked.map (·.language)).Nodup :=
  (map_language_classify_ranked_perm hscored hint).nodup_iff.mpr Language.nodup_supported

/-- Every supported language has its candidate. -/
theorem candidate?_classify (h : language ∈ Language.supported) :
    (classify .builtin thresholds text hint).candidate? language =
      some (candidateFor thresholds text hint language) := by
  have hfind := Classification.candidate?_of_mem (nodup_map_language_ranked hint hscored)
    (candidateFor_mem_ranked hint hscored h)
  rwa [candidateFor_language] at hfind

/-- Every candidate is that of its language, which is supported. -/
lemma eq_candidateFor_of_mem {candidate : Candidate Rat}
    (h : candidate ∈ (classify .builtin thresholds text hint).ranked) :
    candidate.language ∈ Language.supported ∧
      candidate = candidateFor thresholds text hint candidate.language := by
  have hsupported : candidate.language ∈ Language.supported :=
    (map_language_classify_ranked_perm hscored hint).mem_iff.mp (List.mem_map_of_mem h)
  have hfind := Classification.candidate?_of_mem (nodup_map_language_ranked hint hscored) h
  rw [candidate?_classify hint hscored hsupported, Option.some.injEq] at hfind
  exact ⟨hsupported, hfind.symm⟩

/-- Which of two languages stands first is decided by their candidates. -/
theorem standsBefore_classify_iff (hcap : thresholds.cap ≤ 10 ^ 9) {a b : Language}
    (ha : a ∈ Language.supported) (hb : b ∈ Language.supported) (hne : a ≠ b) :
    (classify .builtin thresholds text hint).StandsBefore a b ↔
      (candidateFor thresholds text hint a).Outranks (candidateFor thresholds text hint b) := by
  have hne' : candidateFor thresholds text hint a ≠ candidateFor thresholds text hint b := by
    intro heq
    refine hne ?_
    rw [← candidateFor_language thresholds text hint a, heq, candidateFor_language]
  have hiff := Classification.standsBefore_iff_outranks (nodup_map_language_ranked hint hscored)
    (pairwise_outranks_classify hscored hint hcap) (candidateFor_mem_ranked hint hscored ha)
    (candidateFor_mem_ranked hint hscored hb) hne'
  rwa [candidateFor_language, candidateFor_language] at hiff

/-- A language with nobody between it and one that it outranks stands right before it. -/
theorem exists_rankOf?_eq_succ (hcap : thresholds.cap ≤ 10 ^ 9) {a b : Language}
    (ha : a ∈ Language.supported) (hb : b ∈ Language.supported)
    (houtranks : (candidateFor thresholds text hint a).Outranks
      (candidateFor thresholds text hint b))
    (hbetween : ∀ other ∈ Language.supported,
      (candidateFor thresholds text hint a).Outranks (candidateFor thresholds text hint other) →
        ¬ (candidateFor thresholds text hint other).Outranks
          (candidateFor thresholds text hint b)) :
    ∃ i, (classify .builtin thresholds text hint).rankOf? a = some i ∧
      (classify .builtin thresholds text hint).rankOf? b = some (i + 1) := by
  have hne : a ≠ b := by
    rintro rfl
    exact houtranks.asymm houtranks
  have hsorted := pairwise_outranks_classify hscored hint hcap
  obtain ⟨i, j, hi, hj, hlt⟩ :=
    (standsBefore_classify_iff hint hscored hcap ha hb hne).mpr houtranks
  refine ⟨i, hi, ?_⟩
  rcases Nat.lt_or_eq_of_le (show i + 1 ≤ j from hlt) with hfar | hnext
  · obtain ⟨hlti, hlanguage, -⟩ := List.findIdx?_eq_some_iff_getElem.mp hi
    obtain ⟨hltj, hlanguage', -⟩ := List.findIdx?_eq_some_iff_getElem.mp hj
    have hmiddle : i + 1 < (classify .builtin thresholds text hint).ranked.length :=
      hfar.trans hltj
    have hbefore := List.pairwise_iff_getElem.mp hsorted i (i + 1) hlti hmiddle (Nat.lt_succ_self i)
    have hbehind := List.pairwise_iff_getElem.mp hsorted (i + 1) j hmiddle hltj hfar
    obtain ⟨hother, heq⟩ := eq_candidateFor_of_mem hint hscored (List.getElem_mem hmiddle)
    rw [(eq_candidateFor_of_mem hint hscored (List.getElem_mem hlti)).2,
      of_decide_eq_true hlanguage, heq] at hbefore
    rw [(eq_candidateFor_of_mem hint hscored (List.getElem_mem hltj)).2,
      of_decide_eq_true hlanguage', heq] at hbehind
    exact absurd hbehind (hbetween _ hother hbefore)
  · rwa [hnext]

end Candidates

/-! ## The top -/

section Top

variable {thresholds : Thresholds Rat} {text : List Char} {hint : Option String}

/-- A conclusive text has a top that is the candidate of its language. -/
theorem top_eq_candidateFor
    (hconclusive : (classify .builtin thresholds text hint).inconclusive = none) :
    (classify .builtin thresholds text hint).top.language ∈ Language.supported ∧
      (classify .builtin thresholds text hint).top =
        candidateFor thresholds text hint
          (classify .builtin thresholds text hint).top.language := by
  have hscored := Classification.isScored_of_conclusive hconclusive
  obtain ⟨second, rest, hranked⟩ := Classification.exists_ranked_eq_of_conclusive hconclusive
  refine eq_candidateFor_of_mem hint hscored ?_
  rw [hranked]
  exact List.mem_cons_self

/-- The score on top is at least one half. -/
lemma half_le_rawScore_top
    (hconclusive : (classify .builtin thresholds text hint).inconclusive = none) :
    1 / 2 ≤ (classify .builtin thresholds text hint).top.rawScore := by
  obtain ⟨hsupported, htop⟩ := top_eq_candidateFor hconclusive
  have hpos := (Classification.named_top_of_conclusive hconclusive).rawScore_pos
  rw [htop] at hpos ⊢
  exact (isHalfInteger_candidateFor _ _ _ hsupported).half_le hpos

/-- With a hint a conclusive text is conclusive still. -/
lemma conclusive_of_conclusive_none
    (hconclusive : (classify .builtin thresholds text none).inconclusive = none)
    (hint : Option String) : (classify .builtin thresholds text hint).inconclusive = none := by
  have hscored := Classification.isScored_of_conclusive hconclusive
  obtain ⟨hsupported, htop⟩ := top_eq_candidateFor hconclusive
  have hpos := (Classification.named_top_of_conclusive hconclusive).rawScore_pos
  have hbonus := hintBonus_nonneg hint
    (classify .builtin thresholds text none).top.language
  refine conclusive_of_rawScore_pos hint hscored hsupported ?_
  rw [htop, candidateFor_rawScore _ _ _ hsupported, hintBonus_none] at hpos
  rw [candidateFor_rawScore _ _ _ hsupported]
  linarith

/-- The language on top is the one whose candidate outranks all others. -/
theorem top_language_eq_iff (hcap : thresholds.cap ≤ 10 ^ 9)
    (hconclusive : (classify .builtin thresholds text hint).inconclusive = none) {a : Language}
    (ha : a ∈ Language.supported) :
    (classify .builtin thresholds text hint).top.language = a ↔ ∀ b ∈ Language.supported, b ≠ a →
      (candidateFor thresholds text hint a).Outranks (candidateFor thresholds text hint b) := by
  have hscored := Classification.isScored_of_conclusive hconclusive
  have hsorted := pairwise_outranks_classify hscored hint hcap
  obtain ⟨second, rest, hranked⟩ := Classification.exists_ranked_eq_of_conclusive hconclusive
  obtain ⟨hsupported, hcandidate⟩ := top_eq_candidateFor hconclusive
  have hfirst : ∀ b ∈ Language.supported,
      b ≠ (classify .builtin thresholds text hint).top.language →
        (classify .builtin thresholds text hint).top.Outranks
          (candidateFor thresholds text hint b) := by
    intro b hb hne
    have hmem := candidateFor_mem_ranked hint hscored hb
    rw [hranked] at hmem hsorted
    rcases List.mem_cons.mp hmem with heq | hrest
    · rw [← heq, candidateFor_language] at hne
      exact absurd rfl hne
    · exact (List.pairwise_cons.mp hsorted).1 _ hrest
  constructor
  · intro htopLanguage b hb hne
    have houtranks := hfirst b hb (htopLanguage ▸ hne)
    rwa [hcandidate, htopLanguage] at houtranks
  · intro hall
    by_contra hne
    have hless := hall _ hsupported hne
    rw [← hcandidate] at hless
    exact hless.asymm (hfirst a ha (Ne.symm hne))

end Top

end LanguageDetection
