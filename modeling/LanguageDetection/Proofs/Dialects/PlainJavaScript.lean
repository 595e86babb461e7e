import LanguageDetection.Proofs.RuleScore
import LanguageDetection.Proofs.Dialects.TypeScript
import LanguageDetection.Proofs.RunnerUp

/-!
# Plain JavaScript declared as TypeScript

Where JavaScript is on top, no rule of TypeScript's own occurs, so TypeScript has the same score and
the same strong hits (`candidates_level_of_top`).  The score is within every tolerance, and
TypeScript matches if it comes second.  A third language can take that place only by a tie, with an
identifier between the two (`isMatch_typeScript_iff`).
-/

namespace LanguageDetection

/-! ## Level candidates -/

section PlainJavaScript

variable {thresholds : Thresholds Rat} {text : List Char}

/-- A text with a supported language on top is conclusive. -/
lemma conclusive_of_top_language {hint : Option String} {language : Language}
    (h : language ∈ Language.supported)
    (htop : (classify .builtin thresholds text hint).top.language = language) :
    (classify .builtin thresholds text hint).inconclusive = none := by
  cases hreason : (classify .builtin thresholds text hint).inconclusive with
  | none => rfl
  | some reason =>
    rw [Classification.top_eq_unknown_of_inconclusive hreason] at htop
    exact absurd htop.symm (Language.mem_supported.mp h)

variable (htop : (classify .builtin thresholds text none).top.language = .javaScript)

include htop

/-- The top is the candidate of JavaScript. -/
lemma top_eq_candidateFor_javaScript :
    (classify .builtin thresholds text none).top =
      candidateFor thresholds text none .javaScript := by
  have hconclusive := conclusive_of_top_language (by decide) htop
  rw [(top_eq_candidateFor hconclusive).2, htop]

/-- Where JavaScript is on top, TypeScript has the same score and the same strong hits. -/
theorem candidates_level_of_top :
    (candidateFor thresholds text none .typeScript).rawScore =
        (classify .builtin thresholds text none).top.rawScore ∧
      (candidateFor thresholds text none .typeScript).strongHits =
        (classify .builtin thresholds text none).top.strongHits := by
  have hconclusive := conclusive_of_top_language (by decide) htop
  obtain ⟨hscore, hstrong, hscore_iff, hstrong_iff⟩ := candidates_level_iff thresholds text
  have hbefore := top_ranksBefore hconclusive
    (show Language.typeScript ∈ Language.supported by decide) (by rw [htop]; decide)
  rw [top_eq_candidateFor_javaScript htop] at hbefore ⊢
  -- TypeScript is not behind in either count, so it ranks lower only if both are equal
  have hkey := Candidate.scoreKey_mono hscore
  have hequal : (candidateFor thresholds text none .javaScript).strongHits =
      (candidateFor thresholds text none .typeScript).strongHits := by
    rcases hbefore with hlt | ⟨-, hlt | ⟨heq, -⟩⟩ <;> omega
  exact ⟨(hscore_iff.mpr (hstrong_iff.mp hequal)).symm, hequal.symm⟩

/-! ## The verdict -/

/-- TypeScript is within every tolerance, and it matches if it comes second. -/
theorem isMatch_typeScript_iff (htolerance : thresholds.matchTolerance ≤ 1) :
    (Verdict.validate .builtin thresholds .typeScript text none).isMatch = true ↔
      ∀ candidate ∈ (classify .builtin thresholds text none).ranked,
        Language.javaScript.id < candidate.language.id →
        candidate.language.id < Language.typeScript.id →
          ¬ candidate.Level (classify .builtin thresholds text none).top := by
  have htypeScript : Language.typeScript ∈ Language.supported := by decide
  have hconclusive := conclusive_of_top_language (by decide) htop
  have hne : Language.typeScript ≠ (classify .builtin thresholds text none).top.language := by
    rw [htop]
    decide
  obtain ⟨hscore, hstrong⟩ := candidates_level_of_top htop
  obtain ⟨second, rest, hranked, hmatch⟩ :=
    (Verdict.decided_validate thresholds .typeScript text none).conclusive hconclusive
  have hpos := (Classification.named_top_of_conclusive hconclusive).rawScore_pos
  have htolerated : thresholds.matchTolerance *
      (classify .builtin thresholds text none).top.rawScore - scoreResolution ≤
        (classify .builtin thresholds text none).top.rawScore := by
    have hproduct := mul_le_of_le_one_left (le_of_lt hpos) htolerance
    have hresolution : (0 : Rat) < scoreResolution := scoreResolution_pos
    linarith
  have hlevel : (classify .builtin thresholds text none).top.Level
      (candidateFor thresholds text none .typeScript) :=
    Candidate.Level.of_eq hscore.symm hstrong.symm
  have hplace := second_language_eq_iff_of_level hconclusive hranked htypeScript hne hlevel
  rw [htop] at hplace
  rw [hmatch, ← hplace]
  constructor
  · intro haccepted
    exact (haccepted.resolve_left hne).1.symm
  · intro hsecond
    refine Or.inr ⟨hsecond.symm, ?_⟩
    rwa [(second_eq_candidateFor hconclusive hranked).2.2, hsecond, hscore]

end PlainJavaScript

/-- What the verdict is where TypeScript is declared and JavaScript is on top. -/
structure PlainJavaScriptLaw (thresholds : Thresholds Rat) (text : List Char) : Prop where
  /-- TypeScript has the same score and the same strong hits. -/
  candidate_level : ∃ typeScript,
    (classify .builtin thresholds text none).candidate? .typeScript = some typeScript ∧
    typeScript.rawScore = (classify .builtin thresholds text none).top.rawScore ∧
    typeScript.strongHits = (classify .builtin thresholds text none).top.strongHits
  /-- It matches unless a third language ties with both, with an identifier between theirs. -/
  isMatch_iff : (Verdict.validate .builtin thresholds .typeScript text none).isMatch = true ↔
    ∀ candidate ∈ (classify .builtin thresholds text none).ranked,
      Language.javaScript.id < candidate.language.id →
      candidate.language.id < Language.typeScript.id →
        ¬ candidate.Level (classify .builtin thresholds text none).top
  /-- Below the cap of a thousand million a tie is one of the exact scores. -/
  level_iff : thresholds.maxOccurrencesPerSignature ≤ 10 ^ 9 →
    ∀ candidate ∈ (classify .builtin thresholds text none).ranked,
      (candidate.Level (classify .builtin thresholds text none).top ↔
        candidate.rawScore = (classify .builtin thresholds text none).top.rawScore ∧
          candidate.strongHits = (classify .builtin thresholds text none).top.strongHits)

/-- JavaScript that is declared as TypeScript matches unless a third language ties with both. -/
theorem plainJavaScriptLaw_validate (thresholds : Thresholds Rat) (text : List Char)
    (htolerance : thresholds.matchTolerance ≤ 1)
    (htop : (classify .builtin thresholds text none).top.language = .javaScript) :
    PlainJavaScriptLaw thresholds text := by
  have htypeScript : Language.typeScript ∈ Language.supported := by decide
  have hconclusive := conclusive_of_top_language (by decide) htop
  have hscored := Classification.isScored_of_conclusive hconclusive
  obtain ⟨hscore, hstrong⟩ := candidates_level_of_top htop
  refine ⟨⟨_, candidate?_classify none hscored htypeScript, hscore, hstrong⟩,
    isMatch_typeScript_iff htop htolerance, ?_⟩
  intro hcap candidate hmem
  obtain ⟨hsupported, heq⟩ := eq_candidateFor_of_mem none hscored hmem
  obtain ⟨hsupported', heq'⟩ := top_eq_candidateFor hconclusive
  rw [heq, heq']
  exact level_candidateFor_iff (max_le hcap (by norm_num)) hsupported hsupported'

/-! ## A tie with a shell script -/

/-- The strict comparison is a marker of JavaScript, and a dollar in front of a parenthesis one of
shell scripts. -/
def dollarCall : List Char := "$(a)===b".toList

namespace dollarCall

lemma isScored : IsScored (Thresholds.default : Thresholds Rat) dollarCall :=
  ⟨by decide +kernel, by decide +kernel⟩

lemma trim_eq : Characters.trim dollarCall = dollarCall := by
  decide +kernel

/-- Three languages have six points each. -/
lemma score_eq : ∀ language ∈ Language.supported,
    Rules.score (Rules.ofLanguage language) dollarCall 5 =
      if language ∈ [.javaScript, .shell, .typeScript] then 6 else 0 := by
  have hspelled : ∀ language ∈ Language.supported,
      (Rules.spellingOf language).score dollarCall 5 =
        if language ∈ [.javaScript, .shell, .typeScript] then 6 else 0 := by
    decide +kernel
  intro language hlanguage
  rw [Spelling.score_eq dollarCall 5 (Rules.spellingOf language)]
  exact hspelled language hlanguage

/-- They have them from one strong marker. -/
lemma strongHits_eq : ∀ language ∈ [.javaScript, .shell, .typeScript],
    Rules.strongHits (Rules.ofLanguage language) dollarCall 5 = 1 := by
  have hspelled : ∀ language ∈ [.javaScript, .shell, .typeScript],
      (Rules.spellingOf language).strongHits dollarCall 5 = 1 := by
    decide +kernel
  intro language hlanguage
  rw [Spelling.strongHits_eq dollarCall 5 (Rules.spellingOf language)]
  exact hspelled language hlanguage

/-- The scores of the candidates. -/
lemma rawScore_eq {language : Language} (h : language ∈ Language.supported) :
    (candidateFor Thresholds.default dollarCall none language).rawScore =
      if language ∈ [.javaScript, .shell, .typeScript] then 6 else 0 := by
  rw [candidateFor_rawScore _ _ _ h, hintBonus_none, add_zero, trim_eq]
  exact score_eq language h

/-- The three candidates are level with that of JavaScript. -/
lemma rawScore_and_strongHits_eq {language : Language}
    (h : language ∈ [.javaScript, .shell, .typeScript]) :
    (candidateFor Thresholds.default dollarCall none language).rawScore =
        (candidateFor Thresholds.default dollarCall none .javaScript).rawScore ∧
      (candidateFor Thresholds.default dollarCall none language).strongHits =
        (candidateFor Thresholds.default dollarCall none .javaScript).strongHits := by
  have hsupported : ∀ language ∈ [.javaScript, .shell, .typeScript],
      language ∈ Language.supported := by
    decide
  constructor
  · rw [rawScore_eq (hsupported language h), rawScore_eq (by decide), if_pos h,
      if_pos (by decide)]
  · rw [candidateFor_strongHits _ _ _ (hsupported language h),
      candidateFor_strongHits _ _ _ (by decide), trim_eq]
    exact (strongHits_eq language h).trans (strongHits_eq .javaScript (by decide)).symm

/-- JavaScript is on top, by its identifier. -/
lemma conclusive_and_top :
    (classify .builtin (Thresholds.default : Thresholds Rat) dollarCall none).inconclusive =
        none ∧
      (classify .builtin (Thresholds.default : Thresholds Rat) dollarCall none).top.language =
        .javaScript := by
  have hjavaScript : Language.javaScript ∈ Language.supported := by decide
  have hscore : (candidateFor Thresholds.default dollarCall none .javaScript).rawScore = 6 :=
    rawScore_eq hjavaScript
  have hconclusive : (classify .builtin (Thresholds.default : Thresholds Rat) dollarCall
      none).inconclusive = none :=
    conclusive_of_rawScore_pos none isScored hjavaScript (by rw [hscore]; norm_num)
  have hleast : ∀ language : Language, language ∈ [.javaScript, .shell, .typeScript] →
      language ≠ .javaScript → Language.javaScript.id < language.id := by
    decide +kernel
  refine ⟨hconclusive, ?_⟩
  rw [top_language_eq_iff (by decide) hconclusive hjavaScript]
  intro other hother hne
  by_cases hmarked : other ∈ [.javaScript, .shell, .typeScript]
  · obtain ⟨hequal, hstrong⟩ := rawScore_and_strongHits_eq hmarked
    refine Or.inr ⟨hequal.symm, Or.inr ⟨hstrong.symm, ?_⟩⟩
    rw [candidateFor_language, candidateFor_language]
    exact hleast other hmarked hne
  · refine Or.inl ?_
    rw [rawScore_eq hother, if_neg hmarked, hscore]
    norm_num

/-- The shell comes second, so TypeScript does not match. -/
lemma isMatch_typeScript :
    (Verdict.validate .builtin (Thresholds.default : Thresholds Rat) .typeScript dollarCall
      none).isMatch = false := by
  obtain ⟨hconclusive, htop⟩ := conclusive_and_top
  have hshell : Language.shell ∈ Language.supported := by decide
  rw [← Bool.not_eq_true, isMatch_typeScript_iff htop (by decide +kernel)]
  intro hnone
  obtain ⟨hscore, hstrong⟩ := rawScore_and_strongHits_eq (show Language.shell ∈
    [Language.javaScript, .shell, .typeScript] by decide)
  refine hnone _ (candidateFor_mem_ranked none isScored hshell) ?_ ?_ ?_
  · rw [candidateFor_language]
    decide +kernel
  · rw [candidateFor_language]
    decide +kernel
  · rw [top_eq_candidateFor_javaScript htop]
    exact Candidate.Level.of_eq hscore hstrong

end dollarCall

/-- A tie of three languages. -/
theorem plainJavaScriptLaw_dollarCall :
    (Thresholds.default : Thresholds Rat).matchTolerance ≤ 1 ∧
      (classify .builtin (Thresholds.default : Thresholds Rat) dollarCall none).top.language =
        .javaScript ∧
      PlainJavaScriptLaw Thresholds.default dollarCall := by
  have htolerance : (Thresholds.default : Thresholds Rat).matchTolerance ≤ 1 := by
    decide +kernel
  have htop := dollarCall.conclusive_and_top.2
  exact ⟨htolerance, htop, plainJavaScriptLaw_validate _ _ htolerance htop⟩

/-- It is not so that JavaScript is always accepted as TypeScript. -/
theorem not_forall_isMatch_typeScript :
    ¬ ∀ (thresholds : Thresholds Rat) (text : List Char),
      0 ≤ thresholds.matchTolerance → thresholds.matchTolerance ≤ 1 →
      (classify .builtin thresholds text none).top.language = .javaScript →
        (Verdict.validate .builtin thresholds .typeScript text none).isMatch = true := by
  intro hall
  have hmatch := hall Thresholds.default dollarCall (by decide +kernel) (by decide +kernel)
    dollarCall.conclusive_and_top.2
  rw [dollarCall.isMatch_typeScript] at hmatch
  exact Bool.false_ne_true hmatch

end LanguageDetection
