import LanguageDetection.Proofs.RuleScore
import LanguageDetection.Proofs.RunnerUp

/-!
# What a hint does to a verdict

A hint adds two points to the score of one language and moves it forward in the ranking; the others
keep their scores and their order (`exists_ranking_hint_eq`).  Only the first two of a ranking can
match, so the language that is named keeps its match (`IsAccepted.credit`), and no other language
gains one from a text that is conclusive without the hint (`IsAccepted.of_credit`).

A text without evidence is different.  The hint alone can put its language on top, with two points
at most.  The next language has a score of zero at best, and it matches exactly if zero is within
the tolerance: the tolerated part of the score on top does not exceed the score resolution
(`HintVerdictLaw`).
-/

namespace LanguageDetection

/-! ## The ranking with and without a hint -/

/-- The language of the extension moves forward, past those in the middle. -/
theorem exists_ranking_hint_eq {extension : String} {owner : Language}
    (h : Catalog.builtin.languageForExtension extension = some owner) (thresholds : Thresholds Rat)
    (text : List Char) :
    ∃ front middle back found credited,
      ranking (features .builtin thresholds text none).languages =
        front ++ (middle ++ found :: back) ∧
      ranking (features .builtin thresholds text (some extension)).languages =
        front ++ credited :: (middle ++ back) ∧
      (credited : LanguageFeatures Rat).language = owner ∧ found.language = owner ∧
      credited.rawScore = found.rawScore + 2 ∧ ∀ l ∈ front ++ middle, l.language ≠ owner := by
  obtain ⟨left, right, found, listed, hplain, hhinted, hlanguage, hdistinct⟩ :=
    exists_features_hint_eq h thresholds text
  have hscore : found.rawScore ≤ (found.credit (.ofExtension owner listed)).rawScore := by
    rw [LanguageFeatures.rawScore_credit_ofExtension]
    linarith
  have hcredited : (found.credit (.ofExtension owner listed)).language = found.language := rfl
  obtain ⟨before, after, before', after', hranking, hranking', hperm, hsame, hposition⟩ :=
    exists_ranking_split hcredited rfl hscore (by rwa [hlanguage])
  have hprefix : before' <+: before := by
    refine List.prefix_of_prefix_length_le (List.prefix_append before' after') ?_ hposition
    rw [hsame]
    exact List.prefix_append before after
  obtain ⟨middle, rfl⟩ := hprefix
  rw [List.append_assoc, List.append_cancel_left_eq] at hsame
  refine ⟨before', middle, after, found, found.credit (.ofExtension owner listed), ?_, ?_,
    hlanguage, hlanguage, rfl, ?_⟩
  · rw [hplain, hranking, List.append_assoc]
  · rw [hhinted, hranking', hsame]
  · intro l hl
    exact hdistinct l (hperm.mem_iff.mp (List.mem_append_left after hl))

/-! ## Acceptance -/

namespace IsAccepted

variable {tolerance : Rat} {owner declared : Language}
  {front middle back : List (LanguageFeatures Rat)} {found credited : LanguageFeatures Rat}

/-- A language that moves forward with a better score is accepted if it was before. -/
theorem credit (hlanguage : credited.language = owner)
    (hscore : found.rawScore ≤ credited.rawScore)
    (hothers : ∀ l ∈ front ++ middle, l.language ≠ owner)
    (h : IsAccepted tolerance owner (front ++ (middle ++ found :: back))) :
    IsAccepted tolerance owner (front ++ credited :: (middle ++ back)) := by
  match front with
  | [] =>
    have hrest : middle ++ back ≠ [] := by
      intro hnil
      obtain ⟨rfl, rfl⟩ := List.append_eq_nil_iff.mp hnil
      exact h
    rw [← hlanguage]
    exact first hrest
  | [ahead] =>
    have hahead : ahead.language ≠ owner := hothers ahead (by simp)
    match middle with
    | [] =>
      obtain ⟨-, hle⟩ := h.resolve_left hahead.symm
      exact Or.inr ⟨hlanguage.symm, hle.trans hscore⟩
    | second :: _ =>
      have hsecond : second.language ≠ owner := hothers second (by simp)
      exact absurd (h.resolve_left hahead.symm).1.symm hsecond
  | _ :: _ :: _ => exact h

/-- A language that does not move forward is accepted only if it was before. -/
theorem of_credit (htolerance : 0 ≤ tolerance) (hlanguage : credited.language ≠ declared)
    (hscore : found.rawScore ≤ credited.rawScore)
    (h : IsAccepted tolerance declared (front ++ credited :: (middle ++ back))) :
    IsAccepted tolerance declared (front ++ (middle ++ found :: back)) := by
  match front with
  | [] =>
    match middle, back with
    | [], [] => exact h
    | [], _ :: _ =>
      obtain ⟨hsecond, hle⟩ := h.resolve_left hlanguage.symm
      have hproduct := mul_le_mul_of_nonneg_left hscore htolerance
      exact Or.inr ⟨hsecond, by linarith⟩
    | _ :: _, _ =>
      -- the second one was first
      obtain ⟨rfl, -⟩ := h.resolve_left hlanguage.symm
      exact first (by simp)
  | [_] =>
    rcases h with rfl | ⟨hsecond, -⟩
    · exact first (by simp)
    · exact absurd hsecond.symm hlanguage
  | _ :: _ :: _ => exact h

end IsAccepted

/-! ## Texts without evidence -/

section NoEvidence

variable {thresholds : Thresholds Rat} {text : List Char} {extension : String} {owner : Language}

/-- The declared language matches a text because a hint names another one: nothing in the text
speaks for any language, the hint puts its own on top, and the declared one comes second with a
score of zero, which is within the tolerance. -/
structure MatchedByHint (thresholds : Thresholds Rat) (text : List Char) (extension : String)
    (owner declared : Language) : Prop where
  noEvidence : (classify .builtin thresholds text none).inconclusive = some .noEvidence
  conclusive : (classify .builtin thresholds text (some extension)).inconclusive = none
  top_language : (classify .builtin thresholds text (some extension)).top.language = owner
  exists_second : ∃ second rest,
    (classify .builtin thresholds text (some extension)).ranked =
      (classify .builtin thresholds text (some extension)).top :: second :: rest ∧
    second.language = declared ∧ second.rawScore = 0
  tolerated : thresholds.matchTolerance *
    (classify .builtin thresholds text (some extension)).top.rawScore ≤ scoreResolution

/-- Without evidence no language scores above zero, and a hint helps its own language only. -/
lemma rawScore_nonpos_of_noEvidence
    (hreason : (classify .builtin thresholds text none).inconclusive = some .noEvidence)
    (howner : Catalog.builtin.languageForExtension extension = some owner) {language : Language}
    (h : language ∈ Language.supported) (hne : language ≠ owner) :
    (candidateFor thresholds text (some extension) language).rawScore ≤ 0 := by
  obtain ⟨-, hnone⟩ := (outcome_classify thresholds text none).noEvidence_iff.mp hreason
  have hplain : (candidateFor thresholds text none language).rawScore ≤ 0 := by
    refine hnone (.ofHint (Characters.trim text) thresholds.cap none (.builtin language)) ?_
    rw [builtin_features_languages]
    exact List.mem_map_of_mem h
  have hnamed : namedBy (some extension) ≠ some language := by
    rw [namedBy_some, howner]
    exact fun heq => hne (Option.some.inj heq).symm
  rw [candidateFor_rawScore _ _ _ h, hintBonus_none] at hplain
  rwa [candidateFor_rawScore _ _ _ h, hintBonus_of_ne hnamed]

/-- If a hint makes a text without evidence conclusive, it puts its own language on top, and the
second language scores zero or loses by at least one half. -/
lemma top_and_second_of_noEvidence
    (hreason : (classify .builtin thresholds text none).inconclusive = some .noEvidence)
    (howner : Catalog.builtin.languageForExtension extension = some owner)
    (hconclusive : (classify .builtin thresholds text (some extension)).inconclusive = none)
    {second : Candidate Rat} {rest : List (Candidate Rat)}
    (hranked : (classify .builtin thresholds text (some extension)).ranked =
      (classify .builtin thresholds text (some extension)).top :: second :: rest) :
    (classify .builtin thresholds text (some extension)).top.language = owner ∧
      (second.rawScore = 0 ∨ second.rawScore ≤ -(1 / 2)) := by
  have hscored := Classification.isScored_of_conclusive hconclusive
  obtain ⟨hsupported, htop⟩ := top_eq_candidateFor hconclusive
  have hlanguage : (classify .builtin thresholds text (some extension)).top.language = owner := by
    by_contra hne
    have hpos := (Classification.named_top_of_conclusive hconclusive).rawScore_pos
    have hnonpos := rawScore_nonpos_of_noEvidence hreason howner hsupported hne
    rw [← htop] at hnonpos
    linarith
  obtain ⟨hsupported', hne, hcandidate⟩ := second_eq_candidateFor hconclusive hranked
  rw [hlanguage] at hne
  have hnonpos := rawScore_nonpos_of_noEvidence hreason howner hsupported' hne
  rw [← hcandidate] at hnonpos
  refine ⟨hlanguage, ?_⟩
  rcases lt_or_eq_of_le hnonpos with hneg | hzero
  · have hhalf : IsHalfInteger second.rawScore := by
      rw [hcandidate]
      exact isHalfInteger_candidateFor _ _ _ hsupported'
    have hle := hhalf.neg.half_le (neg_pos.mpr hneg)
    exact Or.inr (by linarith)
  · exact Or.inl hzero

/-- Without evidence a language that a hint does not name can match only in second place. -/
theorem isMatch_iff_matchedByHint (htolerance : 0 ≤ thresholds.matchTolerance)
    (hreason : (classify .builtin thresholds text none).inconclusive = some .noEvidence)
    (howner : Catalog.builtin.languageForExtension extension = some owner) {declared : Language}
    (hdeclared : declared ∈ Language.supported) (hne : owner ≠ declared) :
    (Verdict.validate .builtin thresholds declared text (some extension)).isMatch = true ↔
      MatchedByHint thresholds text extension owner declared := by
  have hdecided := Verdict.decided_validate thresholds declared text (some extension)
  constructor
  · intro hmatch
    have hscored := ((outcome_classify thresholds text none).noEvidence_iff.mp hreason).1
    have hblank : (classify .builtin thresholds text (some extension)).inconclusive ≠
        some .emptyInput := by
      intro hempty
      exact not_isScored_of_inconclusive (by decide) hempty hscored
    have hconclusive := conclusive_of_isMatch hdeclared hblank hmatch
    obtain ⟨second, rest, hranked, hiff⟩ := hdecided.conclusive hconclusive
    obtain ⟨htop, hscore⟩ := top_and_second_of_noEvidence hreason howner hconclusive hranked
    have hpos := (Classification.named_top_of_conclusive hconclusive).rawScore_pos
    obtain ⟨hsecond, hle⟩ := (hiff.mp hmatch).resolve_left fun heq => hne (htop.symm.trans heq.symm)
    have hproduct := mul_nonneg htolerance (le_of_lt hpos)
    have hresolution : (scoreResolution : Rat) < 1 / 2 := by norm_num [scoreResolution]
    have hzero : second.rawScore = 0 := hscore.resolve_right fun hneg => by linarith
    exact ⟨hreason, hconclusive, htop, ⟨second, rest, hranked, hsecond.symm, hzero⟩, by linarith⟩
  · intro h
    obtain ⟨second, rest, hranked, hsecond, hzero⟩ := h.exists_second
    obtain ⟨second', rest', hranked', hiff⟩ := hdecided.conclusive h.conclusive
    rw [hranked, List.cons.injEq, List.cons.injEq] at hranked'
    obtain ⟨-, rfl, -⟩ := hranked'
    have htolerated := h.tolerated
    exact hiff.mpr (Or.inr ⟨hsecond.symm, by linarith⟩)

/-- Zero is within a tolerance of two millionths at most, because the score on top is at least one
half. -/
lemma MatchedByHint.matchTolerance_le {declared : Language}
    (h : MatchedByHint thresholds text extension owner declared)
    (htolerance : 0 ≤ thresholds.matchTolerance) : thresholds.matchTolerance ≤ 2 / 10 ^ 6 := by
  have hproduct := mul_le_mul_of_nonneg_left (half_le_rawScore_top h.conclusive) htolerance
  have htolerated := h.tolerated
  norm_num [scoreResolution] at htolerated ⊢
  linarith

end NoEvidence

/-! ## The law of verdicts -/

/-- What a hint can do to the verdict on a declared language. -/
structure HintVerdictLaw (thresholds : Thresholds Rat) (text : List Char) (extension : String)
    (declared : Language) : Prop where
  /-- A hint for the declared language does not cost it the match. -/
  isMatch_of_named : Catalog.builtin.languageForExtension extension = some declared →
    (Verdict.validate .builtin thresholds declared text none).isMatch = true →
      (Verdict.validate .builtin thresholds declared text (some extension)).isMatch = true
  /-- A hint for another language makes no match, but for a second place without evidence. -/
  isMatch_iff_of_other : ∀ owner,
    Catalog.builtin.languageForExtension extension = some owner → owner ≠ declared →
    (Verdict.validate .builtin thresholds declared text none).isMatch = false →
      ((Verdict.validate .builtin thresholds declared text (some extension)).isMatch = true ↔
        MatchedByHint thresholds text extension owner declared)
  /-- Above a tolerance of two millionths there is no such place. -/
  isMatch_eq_false_of_other : 2 / 10 ^ 6 < thresholds.matchTolerance → ∀ owner,
    Catalog.builtin.languageForExtension extension = some owner → owner ≠ declared →
    (Verdict.validate .builtin thresholds declared text none).isMatch = false →
      (Verdict.validate .builtin thresholds declared text (some extension)).isMatch = false

section Law

variable {thresholds : Thresholds Rat} {text : List Char} {extension : String}
  {declared : Language}

/-- A hint for the declared language does not cost it the match. -/
theorem isMatch_of_named (hdeclared : declared ∈ Language.supported)
    (hnamed : Catalog.builtin.languageForExtension extension = some declared)
    (h : (Verdict.validate .builtin thresholds declared text none).isMatch = true) :
    (Verdict.validate .builtin thresholds declared text (some extension)).isMatch = true := by
  by_cases hblank : (classify .builtin thresholds text none).inconclusive = some .emptyInput
  · have heq := (hintLaw_classify thresholds text extension).eq_of_emptyInput hblank
    exact (Verdict.decided_validate _ _ _ _).emptyInput (by rwa [heq])
  · have hconclusive := conclusive_of_isMatch hdeclared hblank h
    have hconclusive' := conclusive_of_conclusive_none hconclusive (some extension)
    obtain ⟨front, middle, back, found, credited, hplain, hhinted, hlanguage, -, hscore, hothers⟩ :=
      exists_ranking_hint_eq hnamed thresholds text
    rw [isMatch_iff_isAccepted hconclusive, hplain] at h
    rw [isMatch_iff_isAccepted hconclusive', hhinted]
    exact h.credit hlanguage (by linarith) hothers

/-- A hint for another language makes no match, but for a second place without evidence. -/
theorem isMatch_iff_of_other {owner : Language} (htolerance : 0 ≤ thresholds.matchTolerance)
    (hdeclared : declared ∈ Language.supported)
    (howner : Catalog.builtin.languageForExtension extension = some owner) (hne : owner ≠ declared)
    (h : (Verdict.validate .builtin thresholds declared text none).isMatch = false) :
    (Verdict.validate .builtin thresholds declared text (some extension)).isMatch = true ↔
      MatchedByHint thresholds text extension owner declared := by
  by_cases hreason : (classify .builtin thresholds text none).inconclusive = some .noEvidence
  · exact isMatch_iff_matchedByHint htolerance hreason howner hdeclared hne
  refine iff_of_false ?_ fun hmatched => hreason hmatched.noEvidence
  intro hmatch
  cases hcase : (classify .builtin thresholds text none).inconclusive with
  | none =>
    have hconclusive := conclusive_of_conclusive_none hcase (some extension)
    obtain ⟨front, middle, back, found, credited, hplain, hhinted, hlanguage, -, hscore, -⟩ :=
      exists_ranking_hint_eq howner thresholds text
    rw [isMatch_iff_isAccepted hconclusive, hhinted] at hmatch
    have haccepted := hmatch.of_credit htolerance (by rwa [hlanguage])
      (show found.rawScore ≤ credited.rawScore by linarith)
    rw [← hplain, ← isMatch_iff_isAccepted hcase, h] at haccepted
    exact Bool.false_ne_true haccepted
  | some reason =>
    cases reason with
    | emptyInput =>
      rw [(Verdict.decided_validate thresholds declared text none).emptyInput hcase] at h
      cases h
    | binaryInput =>
      have hsame : Verdict.validate .builtin thresholds declared text (some extension) =
          Verdict.validate .builtin thresholds declared text none := by
        unfold Verdict.validate
        rw [(hintLaw_classify thresholds text extension).eq_of_binaryInput hcase]
      rw [hsame, h] at hmatch
      exact Bool.false_ne_true hmatch
    | noEvidence => exact hreason hcase

end Law

/-- A hint helps its own language only, but for a second place without evidence. -/
theorem hintVerdictLaw_validate (thresholds : Thresholds Rat) (text : List Char)
    (extension : String) (declared : Language) (hdeclared : declared ∈ Language.supported)
    (htolerance : 0 ≤ thresholds.matchTolerance) :
    HintVerdictLaw thresholds text extension declared := by
  refine ⟨isMatch_of_named hdeclared, ?_, ?_⟩
  · intro owner howner hne h
    exact isMatch_iff_of_other htolerance hdeclared howner hne h
  · intro hlarge owner howner hne h
    by_contra hmatch
    rw [Bool.not_eq_false, isMatch_iff_of_other htolerance hdeclared howner hne h] at hmatch
    have hle := hmatch.matchTolerance_le htolerance
    linarith

/-! ## A closing brace -/

/-- A text in which nothing is found but a rule that speaks against Python. -/
def closingBrace : List Char := "\x7d".toList

/-- Thresholds for which a score of one on top tolerates a score of zero. -/
def resolutionTolerance : Thresholds Rat :=
  { (Thresholds.default : Thresholds Rat) with matchTolerance := scoreResolution }

namespace closingBrace

lemma isScored : IsScored resolutionTolerance closingBrace :=
  ⟨by decide +kernel, by decide +kernel⟩

lemma trim_eq : Characters.trim closingBrace = closingBrace := by
  decide +kernel

lemma languageForExtension_py : Catalog.builtin.languageForExtension "py" = some .python := by
  rw [Catalog.languageForExtension_builtin_eq_some_iff]
  decide +kernel

/-- No other language has a rule that occurs. -/
lemma not_occurs : ∀ language ∈ Language.supported, language ≠ .python →
    ∀ rule ∈ Rules.ofLanguage language, ¬ rule.Occurs closingBrace := by
  have hspelled : ∀ language ∈ Language.supported, language ≠ .python →
      ((Rules.spellingOf language).all fun _ matcher => matcherCount matcher closingBrace = 0) =
        true := by
    decide +kernel
  intro language hlanguage hne
  exact Spelling.not_occurs_of_all closingBrace (Rules.spellingOf language)
    (hspelled language hlanguage hne)

lemma score_python : Rules.score (Rules.ofLanguage .python) closingBrace 5 = -1 := by
  rw [Spelling.score_eq closingBrace 5 (Rules.spellingOf .python)]
  decide +kernel

/-- The hint leaves one point for Python. -/
lemma rawScore_python (hint : Option String) :
    (candidateFor resolutionTolerance closingBrace hint .python).rawScore =
      -1 + hintBonus hint .python := by
  rw [candidateFor_rawScore _ _ _ (by decide), trim_eq]
  exact congrArg (· + hintBonus hint .python) score_python

/-- All others have nothing. -/
lemma candidateFor_of_ne {hint : Option String} {language : Language}
    (h : language ∈ Language.supported) (hne : language ≠ .python)
    (hhint : namedBy hint ≠ some language) :
    (candidateFor resolutionTolerance closingBrace hint language).rawScore = 0 ∧
      (candidateFor resolutionTolerance closingBrace hint language).strongHits = 0 := by
  have hnone := not_occurs language h hne
  constructor
  · rw [candidateFor_rawScore _ _ _ h, hintBonus_of_ne hhint, trim_eq,
      Rules.score_eq_zero hnone, add_zero]
  · rw [candidateFor_strongHits _ _ _ h, trim_eq, Rules.strongHits_eq_zero hnone]

/-- Without a hint nothing speaks for any language. -/
lemma noEvidence : (classify .builtin resolutionTolerance closingBrace none).inconclusive =
    some .noEvidence := by
  refine (outcome_classify _ _ none).noEvidence_iff.mpr ⟨isScored, ?_⟩
  intro l hl
  rw [builtin_features_languages] at hl
  obtain ⟨language, hlanguage, rfl⟩ := List.mem_map.mp hl
  change (candidateFor resolutionTolerance closingBrace none language).rawScore ≤ 0
  by_cases hpython : language = .python
  · rw [hpython, rawScore_python, hintBonus_none]
    norm_num
  · exact le_of_eq (candidateFor_of_ne hlanguage hpython (by simp)).1

/-- With the hint Python has a score of one. -/
lemma rawScore_python_py :
    (candidateFor resolutionTolerance closingBrace (some "py") .python).rawScore = 1 := by
  rw [rawScore_python, hintBonus_of_eq (by rw [namedBy_some, languageForExtension_py])]
  norm_num

/-- With the hint Python is found. -/
lemma conclusive_py :
    (classify .builtin resolutionTolerance closingBrace (some "py")).inconclusive = none :=
  conclusive_of_rawScore_pos _ isScored (by decide)
    (lt_of_lt_of_eq one_pos rawScore_python_py.symm)

/-- Of the others C comes first, by its identifier. -/
lemma second_py {second : Candidate Rat} {rest : List (Candidate Rat)}
    (hranked : (classify .builtin resolutionTolerance closingBrace (some "py")).ranked =
      (classify .builtin resolutionTolerance closingBrace (some "py")).top :: second :: rest) :
    second.language = .c ∧ second.rawScore = 0 := by
  have htop := (top_and_second_of_noEvidence noEvidence languageForExtension_py conclusive_py
    hranked).1
  have hnamed : ∀ language : Language, language ≠ .python →
      namedBy (some "py") ≠ some language := by
    intro language hne heq
    rw [namedBy_some, languageForExtension_py] at heq
    exact hne (Option.some.inj heq).symm
  have hleast : ∀ language ∈ Language.supported, language ≠ .c → Language.c.id < language.id := by
    decide +kernel
  have hc : Language.c ∈ Language.supported := by decide
  have hlanguage : second.language = .c := by
    rw [second_language_eq_iff conclusive_py hranked hc (by rw [htop]; decide)]
    intro other hother hne hne'
    rw [htop] at hne
    obtain ⟨hscore, hstrong⟩ := candidateFor_of_ne hother hne (hnamed other hne)
    obtain ⟨hscore', hstrong'⟩ := candidateFor_of_ne hc (by decide) (hnamed .c (by decide))
    have hlevel := Candidate.Level.of_eq (hscore'.trans hscore.symm) (hstrong'.trans hstrong.symm)
    refine hlevel.ranksBefore ?_
    rw [candidateFor_language, candidateFor_language]
    exact hleast other hother hne'
  refine ⟨hlanguage, ?_⟩
  rw [(second_eq_candidateFor conclusive_py hranked).2.2, hlanguage]
  exact (candidateFor_of_ne hc (by decide) (hnamed .c (by decide))).1

/-- The hint for Python puts C in a second place that is tolerated. -/
lemma matchedByHint : MatchedByHint resolutionTolerance closingBrace "py" .python .c := by
  obtain ⟨second, rest, hranked⟩ := Classification.exists_ranked_eq_of_conclusive conclusive_py
  have htop := (top_and_second_of_noEvidence noEvidence languageForExtension_py conclusive_py
    hranked).1
  refine ⟨noEvidence, conclusive_py, htop, ⟨second, rest, hranked, second_py hranked⟩, ?_⟩
  rw [(top_eq_candidateFor conclusive_py).2, htop, rawScore_python_py, mul_one]
  exact le_rfl

/-- Without a hint the text matches no language. -/
lemma isMatch_none :
    (Verdict.validate .builtin resolutionTolerance .c closingBrace none).isMatch = false := by
  have hiff := (Verdict.decided_validate resolutionTolerance .c closingBrace none).noEvidence
    noEvidence
  rw [← Bool.not_eq_true, hiff]
  decide

end closingBrace

/-- A closing brace is of no language, and a hint for Python makes it match C if the tolerance is
the score resolution. -/
theorem hintVerdictLaw_closingBrace :
    Language.c ∈ Language.supported ∧ 0 ≤ resolutionTolerance.matchTolerance ∧
      MatchedByHint resolutionTolerance closingBrace "py" .python .c ∧
      HintVerdictLaw resolutionTolerance closingBrace "py" .c := by
  have hdeclared : Language.c ∈ Language.supported := by decide
  have htolerance : 0 ≤ resolutionTolerance.matchTolerance := le_of_lt scoreResolution_pos
  exact ⟨hdeclared, htolerance, closingBrace.matchedByHint,
    hintVerdictLaw_validate _ _ _ _ hdeclared htolerance⟩

/-- From a tolerance of one millionth on, a hint for another language does make a match
somewhere. -/
theorem not_forall_isMatch_eq_false_of_other :
    ¬ ∀ (thresholds : Thresholds Rat) (text : List Char) (extension : String)
      (owner declared : Language),
      1 / 10 ^ 6 ≤ thresholds.matchTolerance → thresholds.matchTolerance ≤ 1 →
      thresholds.maxOccurrencesPerSignature ≤ 10 ^ 9 → declared ∈ Language.supported →
      Catalog.builtin.languageForExtension extension = some owner → owner ≠ declared →
      (Verdict.validate .builtin thresholds declared text none).isMatch = false →
        (Verdict.validate .builtin thresholds declared text (some extension)).isMatch = false := by
  intro hall
  have hmismatch := hall resolutionTolerance closingBrace "py" .python .c
    (by norm_num [resolutionTolerance, scoreResolution])
    (by norm_num [resolutionTolerance, scoreResolution]) (by decide) (by decide)
    closingBrace.languageForExtension_py (by decide) closingBrace.isMatch_none
  have hmatch := (isMatch_iff_matchedByHint (le_of_lt scoreResolution_pos)
    closingBrace.noEvidence closingBrace.languageForExtension_py (by decide) (by decide)).mpr
    closingBrace.matchedByHint
  rw [hmatch] at hmismatch
  exact Bool.false_ne_true hmismatch.symm

end LanguageDetection
