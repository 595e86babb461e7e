import LanguageDetection.Proofs.RuleScore
import LanguageDetection.Proofs.Pattern.LineEnding
import LanguageDetection.Proofs.Standing

/-!
# Line endings and the ranking

Most rules find the same in a text whose lines end with a carriage return and a line feed as in the
text with line feeds alone: their patterns are blind to the carriage return.  Not so the rules that
ask for the end of a line with a dollar sign, which stands in front of a line feed only, and one
rule of JSON, whose character classes take a carriage return for any other character
(`Rule.TellsLineEnding`).

`LineEndingLaw` says what is left of a classification when the line endings change.  Where the rules
that tell line endings apart are found equally often, nothing changes; otherwise the scores of five
languages can change, and with them the ranking.
-/

namespace LanguageDetection

/-! ## Rules that tell line endings apart -/

/-- Whether the pattern asks for the end of a line. -/
def Pattern.hasLineEnd : Pattern → Bool
  | empty => false
  | one _ => false
  | anchor condition => condition = .lineEnd
  | seq p q => p.hasLineEnd || q.hasLineEnd
  | alt p q => p.hasLineEnd || q.hasLineEnd
  | star _ p => p.hasLineEnd

namespace Rule

/-- The test for `Rule.TellsLineEnding` on a rule and its matcher. -/
def tellsLineEnding (rule : Rule) (matcher : Except PatternError (Option Pattern)) : Bool :=
  matcher.toOption.join.any Pattern.hasLineEnd || rule.label = "assignment"

/-- A rule that asks for the end of a line, or the one for assignments in JSON. -/
def TellsLineEnding (rule : Rule) : Prop :=
  rule.tellsLineEnding rule.matcher = true

/-- Whether the matcher is blind to carriage returns in front of line feeds. -/
def isBlind (matcher : Except PatternError (Option Pattern)) : Bool :=
  matcher.toOption.join.any Pattern.isBlind

end Rule

namespace Rules

/-- A rule tells line endings apart, or it is blind to them. -/
lemma isBlind_of_mem {rule : Rule} (hrule : rule ∈ groups.flatten)
    (htells : ¬ rule.TellsLineEnding) : Rule.isBlind rule.matcher = true := by
  have hall : (spelling.all fun rule matcher =>
      rule.tellsLineEnding matcher || Rule.isBlind matcher) = true := by
    decide +kernel
  have hcheck := spelling.forall_of_all _ hall rule hrule
  exact (Bool.or_eq_true_iff.mp hcheck).resolve_left htells

/-- The languages without a rule that tells line endings apart. -/
def lineEndingBlind : List Language :=
  [.javaScript, .typeScript, .java, .c, .cpp, .rust, .php, .sql, .html, .css]

/-- No rule of these languages tells line endings apart. -/
lemma not_tellsLineEnding : ∀ language ∈ lineEndingBlind, ∀ rule ∈ ofLanguage language,
    ¬ rule.TellsLineEnding := by
  have hall : ∀ language ∈ lineEndingBlind,
      ((spellingOf language).all fun rule matcher => !rule.tellsLineEnding matcher) = true := by
    decide +kernel
  intro language hlanguage rule hrule htells
  have hcheck := (spellingOf language).forall_of_all _ (hall language hlanguage) rule hrule
  rw [htells] at hcheck
  exact Bool.false_ne_true hcheck

/-- A rule that does not tell line endings apart is found equally often. -/
theorem countIn_crlf {language : Language} {rule : Rule} (hrule : rule ∈ ofLanguage language)
    (htells : ¬ rule.TellsLineEnding) {text : List Char} (hreturn : '\r' ∉ text) :
    rule.countIn (crlf text) = rule.countIn text := by
  obtain ⟨row, hrow, hflatten⟩ := List.mem_flatMap.mp hrule
  obtain ⟨group, hgroup, hmem⟩ := List.mem_flatten.mp hflatten
  have hblind := isBlind_of_mem
    (mem_flatten_groups (List.mem_of_mem_filter hrow) hgroup hmem) htells
  rw [Rule.countIn_eq_matcherCount, Rule.countIn_eq_matcherCount]
  unfold Rule.isBlind at hblind
  cases hmatcher : rule.matcher with
  | error fault => rfl
  | ok matcher =>
    cases matcher with
    | none => rfl
    | some pattern =>
      rw [hmatcher] at hblind
      exact Pattern.count_crlf hblind hreturn

end Rules

/-! ## Features -/

section Features

variable {α : Type} [Scalar α]

namespace LanguageFeatures

variable {language : Language} {text text' : List Char}

/-- The features of a language depend on the counts of its rules only. -/
lemma ofEntry_congr
    (h : ∀ rule ∈ Rules.ofLanguage language, rule.countIn text' = rule.countIn text) (cap : Nat) :
    (ofEntry text' cap (.builtin language) : LanguageFeatures α) =
      ofEntry text cap (.builtin language) := by
  have hcount : ∀ signature ∈ (CatalogEntry.builtin language).signatures,
      signature.countIn text' = signature.countIn text := by
    intro signature hsignature
    rcases CatalogEntry.mem_builtin_signatures.mp hsignature with
      ⟨rule, hrule, rfl⟩ | ⟨extension, -, rfl⟩
    · exact h rule hrule
    · rfl
  have hhits : ((CatalogEntry.builtin language).signatures.filterMap fun signature =>
        let count := min (signature.countIn text') cap
        if 0 < count then some (Hit.ofCount signature count : Hit α) else none) =
      (CatalogEntry.builtin language).signatures.filterMap fun signature =>
        let count := min (signature.countIn text) cap
        if 0 < count then some (Hit.ofCount signature count) else none := by
    refine List.filterMap_congr fun signature hsignature => ?_
    rw [hcount signature hsignature]
  unfold ofEntry
  rw [hhits]

/-- The features of a language depend on the counts of its rules only. -/
lemma ofHint_congr
    (h : ∀ rule ∈ Rules.ofLanguage language, rule.countIn text' = rule.countIn text) (cap : Nat)
    (hint : Option String) :
    (ofHint text' cap hint (.builtin language) : LanguageFeatures α) =
      ofHint text cap hint (.builtin language) := by
  unfold ofHint
  rw [ofEntry_congr h cap]

end LanguageFeatures

/-- The other languages and the length of the text bear on the confidence only. -/
lemma Classification.candidateOf_agree (positiveTotal lengthFactor positiveTotal' lengthFactor' : α)
    (found : LanguageFeatures α) :
    (candidateOf positiveTotal lengthFactor found).rawScore =
        (candidateOf positiveTotal' lengthFactor' found).rawScore ∧
      (candidateOf positiveTotal lengthFactor found).strongHits =
        (candidateOf positiveTotal' lengthFactor' found).strongHits ∧
      (candidateOf positiveTotal lengthFactor found).evidence =
        (candidateOf positiveTotal' lengthFactor' found).evidence :=
  ⟨rfl, rfl, rfl⟩

end Features

/-! ## Classifications -/

section Classifications

variable {text : List Char} (hreturn : '\r' ∉ text)

include hreturn

/-- A rule that does not tell line endings apart is found equally often in the trimmed texts. -/
lemma countIn_trim_crlf {language : Language} {rule : Rule}
    (hrule : rule ∈ Rules.ofLanguage language) (htells : ¬ rule.TellsLineEnding) :
    rule.countIn (Characters.trim (crlf text)) = rule.countIn (Characters.trim text) := by
  rw [trim_crlf]
  exact Rules.countIn_crlf hrule htells (notMem_trim hreturn)

omit hreturn in
/-- Neither the blanks at the ends nor the control characters depend on the line endings. -/
lemma isScored_crlf_iff {thresholds : Thresholds Rat}
    (hbinary : looksBinary text thresholds.binaryRatioThreshold = false) :
    IsScored thresholds (crlf text) ↔ IsScored thresholds text := by
  unfold IsScored
  rw [looksBinary_crlf hbinary, hbinary, trim_crlf, Ne, crlf_eq_nil_iff]

/-- With equal counts the features are equal. -/
lemma features_crlf (thresholds : Thresholds Rat) (hint : Option String)
    (hcounts : ∀ language ∈ Language.supported, ∀ rule ∈ Rules.ofLanguage language,
      rule.TellsLineEnding →
        rule.countIn (Characters.trim (crlf text)) = rule.countIn (Characters.trim text)) :
    features .builtin thresholds (crlf text) hint = features .builtin thresholds text hint := by
  have hlanguages : (features .builtin thresholds (crlf text) hint).languages =
      (features .builtin thresholds text hint).languages := by
    rw [builtin_features_languages, builtin_features_languages]
    refine List.map_congr_left fun language hlanguage => ?_
    refine LanguageFeatures.ofHint_congr (fun rule hrule => ?_) _ _
    by_cases htells : rule.TellsLineEnding
    · exact hcounts language hlanguage rule hrule htells
    · exact countIn_trim_crlf hreturn hrule htells
  have htokens : (features .builtin thresholds (crlf text) hint).tokenCount =
      (features .builtin thresholds text hint).tokenCount := by
    rw [features_tokenCount, features_tokenCount, trim_crlf, tokenCount_crlf]
  exact Features.ext hlanguages htokens

/-- With equal counts nothing changes. -/
lemma classify_crlf {thresholds : Thresholds Rat}
    (hbinary : looksBinary text thresholds.binaryRatioThreshold = false) (hint : Option String)
    (hcounts : ∀ language ∈ Language.supported, ∀ rule ∈ Rules.ofLanguage language,
      rule.TellsLineEnding →
        rule.countIn (Characters.trim (crlf text)) = rule.countIn (Characters.trim text)) :
    classify .builtin thresholds (crlf text) hint = classify .builtin thresholds text hint := by
  have hblank : (Characters.trim (crlf text)).isEmpty = (Characters.trim text).isEmpty := by
    rw [Bool.eq_iff_iff, List.isEmpty_iff, List.isEmpty_iff, trim_crlf, crlf_eq_nil_iff]
  unfold classify
  rw [hblank, looksBinary_crlf hbinary, hbinary, features_crlf hreturn thresholds hint hcounts]

/-- A language whose rules do not tell line endings apart keeps its score and its evidence. -/
lemma candidateFor_crlf {language : Language} (hlanguage : language ∈ Rules.lineEndingBlind)
    (thresholds : Thresholds Rat) (hint : Option String) :
    (candidateFor thresholds (crlf text) hint language).rawScore =
        (candidateFor thresholds text hint language).rawScore ∧
      (candidateFor thresholds (crlf text) hint language).strongHits =
        (candidateFor thresholds text hint language).strongHits ∧
      (candidateFor thresholds (crlf text) hint language).evidence =
        (candidateFor thresholds text hint language).evidence := by
  have hfeatures : (LanguageFeatures.ofHint (Characters.trim (crlf text)) thresholds.cap hint
      (.builtin language) : LanguageFeatures Rat) =
        .ofHint (Characters.trim text) thresholds.cap hint (.builtin language) :=
    LanguageFeatures.ofHint_congr (fun rule hrule => countIn_trim_crlf hreturn hrule
      (Rules.not_tellsLineEnding language hlanguage rule hrule)) _ _
  unfold candidateFor
  rw [hfeatures]
  exact Classification.candidateOf_agree _ _ _ _ _

end Classifications

/-! ## The law of line endings -/

/-- What the classification of a text has in common with that of the text with carriage returns. -/
structure LineEndingLaw (thresholds : Thresholds Rat) (text : List Char) (hint : Option String)
    (plain returned : Classification Rat) : Prop where
  /-- Only rules that tell line endings apart can be found more or less often. -/
  countIn_eq : ∀ language, ∀ rule ∈ Rules.ofLanguage language, ¬ rule.TellsLineEnding →
    rule.countIn (Characters.trim (crlf text)) = rule.countIn (Characters.trim text)
  isScored_iff : IsScored thresholds (crlf text) ↔ IsScored thresholds text
  tokenCount_eq : returned.tokenCount = plain.tokenCount
  /-- Ten languages keep their scores and their evidence. -/
  candidate : IsScored thresholds text → ∀ language ∈ Rules.lineEndingBlind, ∃ before after,
    plain.candidate? language = some before ∧ returned.candidate? language = some after ∧
      after.rawScore = before.rawScore ∧ after.strongHits = before.strongHits ∧
      after.evidence = before.evidence
  /-- Where the other rules are found equally often, nothing changes at all. -/
  eq_of_counts : (∀ language ∈ Language.supported, ∀ rule ∈ Rules.ofLanguage language,
    rule.TellsLineEnding →
      rule.countIn (Characters.trim (crlf text)) = rule.countIn (Characters.trim text)) →
    returned = plain

/-- The token count does not depend on the line endings. -/
lemma classify_crlf_tokenCount {thresholds : Thresholds Rat} {text : List Char}
    (hbinary : looksBinary text thresholds.binaryRatioThreshold = false) (hint : Option String) :
    (classify .builtin thresholds (crlf text) hint).tokenCount =
      (classify .builtin thresholds text hint).tokenCount := by
  have hscored := isScored_crlf_iff hbinary
  by_cases h : IsScored thresholds text
  · rw [classify_of_isScored (hscored.mpr h), classify_of_isScored h, rank_tokenCount,
      rank_tokenCount, features_tokenCount, features_tokenCount, trim_crlf, tokenCount_crlf]
  · have hblank : Characters.trim text = [] := by
      by_contra htext
      exact h ⟨htext, hbinary⟩
    have hzero : ∀ other, Characters.trim other = [] →
        (classify .builtin thresholds other hint).tokenCount = 0 := by
      intro other hother
      have houtcome := outcome_classify thresholds other hint
      exact (houtcome.skipped (Or.inl (houtcome.emptyInput_iff.mpr hother))).2
    rw [hzero text hblank, hzero (crlf text) (by rw [trim_crlf, hblank, crlf_nil])]

/-- Longer line endings change a classification through the rules that tell them apart, and in no
other way. -/
theorem lineEndingLaw_classify (thresholds : Thresholds Rat) (text : List Char)
    (hint : Option String) (hreturn : '\r' ∉ text)
    (hbinary : looksBinary text thresholds.binaryRatioThreshold = false) :
    LineEndingLaw thresholds text hint (classify .builtin thresholds text hint)
      (classify .builtin thresholds (crlf text) hint) := by
  refine ⟨?_, isScored_crlf_iff hbinary, classify_crlf_tokenCount hbinary hint, ?_, ?_⟩
  · intro language rule hrule htells
    exact countIn_trim_crlf hreturn hrule htells
  · intro hscored language hlanguage
    have hsupported : language ∈ Language.supported := by
      rw [Language.mem_supported]
      rintro rfl
      exact absurd hlanguage (by decide)
    exact ⟨_, _, candidate?_classify hint hscored hsupported,
      candidate?_classify hint ((isScored_crlf_iff hbinary).mpr hscored) hsupported,
      candidateFor_crlf hreturn hlanguage thresholds hint⟩
  · exact classify_crlf hreturn hbinary hint

/-- The beginning of a program in Go. -/
def packageClause : List Char := "package main\n\nx".toList

/-- The law at the beginning of a program in Go. -/
theorem lineEndingLaw_packageClause :
    '\r' ∉ packageClause ∧
      looksBinary packageClause (Thresholds.default : Thresholds Rat).binaryRatioThreshold =
        false ∧
      LineEndingLaw Thresholds.default packageClause none
        (classify .builtin Thresholds.default packageClause none)
        (classify .builtin Thresholds.default (crlf packageClause) none) := by
  have hreturn : '\r' ∉ packageClause := by decide +kernel
  have hbinary : looksBinary packageClause
      (Thresholds.default : Thresholds Rat).binaryRatioThreshold = false := by
    decide +kernel
  exact ⟨hreturn, hbinary, lineEndingLaw_classify _ _ none hreturn hbinary⟩

/-- A score that depends on the line endings changes the classification. -/
lemma score_eq_of_classify_eq {thresholds : Thresholds Rat} {text : List Char}
    (hscored : IsScored thresholds text)
    (heq : classify .builtin thresholds (crlf text) none = classify .builtin thresholds text none)
    {language : Language} (hlanguage : language ∈ Language.supported) :
    Rules.score (Rules.ofLanguage language) (Characters.trim (crlf text)) thresholds.cap =
      Rules.score (Rules.ofLanguage language) (Characters.trim text) thresholds.cap := by
  have hscored' := (isScored_crlf_iff hscored.2).mpr hscored
  have hcandidate := candidate?_classify none hscored' hlanguage
  rw [heq, candidate?_classify none hscored hlanguage, Option.some.injEq] at hcandidate
  have hscore := congrArg Candidate.rawScore hcandidate
  rw [candidateFor_rawScore _ _ _ hlanguage, candidateFor_rawScore _ _ _ hlanguage,
    hintBonus_none, add_zero, add_zero] at hscore
  exact hscore.symm

/-- Line endings do change classifications: the package clause of Go is not found where the line
ends with a carriage return. -/
theorem not_forall_classify_crlf_eq :
    ¬ ∀ (thresholds : Thresholds Rat) (text : List Char) (hint : Option String), '\r' ∉ text →
      looksBinary text thresholds.binaryRatioThreshold = false →
        classify .builtin thresholds (crlf text) hint =
          classify .builtin thresholds text hint := by
  intro hall
  have hreturn : '\r' ∉ packageClause := by decide +kernel
  have hscored : IsScored (Thresholds.default : Thresholds Rat) packageClause :=
    ⟨by decide +kernel, by decide +kernel⟩
  have hgo : Language.go ∈ Language.supported := by decide
  have hscore := score_eq_of_classify_eq hscored
    (hall Thresholds.default packageClause none hreturn hscored.2) hgo
  have hvalues : (Rules.spellingOf .go).score (Characters.trim packageClause) 5 = 8 ∧
      (Rules.spellingOf .go).score (Characters.trim (crlf packageClause)) 5 = 0 := by
    decide +kernel
  have hcap : (Thresholds.default : Thresholds Rat).cap = 5 := rfl
  rw [Spelling.score_eq _ _ (Rules.spellingOf .go), Spelling.score_eq _ _ (Rules.spellingOf .go),
    hcap, hvalues.1, hvalues.2] at hscore
  norm_num at hscore

end LanguageDetection
