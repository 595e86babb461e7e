import LanguageDetection.Proofs.Standing

/-!
# TypeScript and JavaScript

TypeScript has all rules of JavaScript and some of its own, which are strong and weigh at least
five.  It therefore never scores below JavaScript, and it scores above it by more than a hint can
make up for as soon as one of its own rules occurs.
-/

namespace LanguageDetection

/-! ## The rules of both languages -/

namespace Rules

/-- JavaScript has the rules of the core and of the C family. -/
lemma ofLanguage_javaScript : ofLanguage .javaScript = javaScriptCore ++ cFamily := by
  simp [ofLanguage, table]

/-- TypeScript has the same rules and its own. -/
lemma ofLanguage_typeScript :
    ofLanguage .typeScript = javaScriptCore ++ (typeScriptOnly ++ cFamily) := by
  simp [ofLanguage, table]

lemma typeScriptOnly_strong : ∀ rule ∈ typeScriptOnly, rule.markerClass = .strong := by
  decide

lemma five_le_of_mem_typeScriptOnly : ∀ rule ∈ typeScriptOnly, 5 ≤ rule.signedWeight := by
  decide

/-- The rules of TypeScript alone speak for it. -/
lemma typeScriptOnly_pos {rule : Rule} (h : rule ∈ typeScriptOnly) : 0 < rule.signedWeight := by
  have hfive := five_le_of_mem_typeScriptOnly rule h
  linarith

variable (text : List Char) (cap : Nat)

/-- The languages differ by the rules that TypeScript has for itself. -/
lemma score_typeScript :
    score (ofLanguage .typeScript) text cap =
      score (ofLanguage .javaScript) text cap + score typeScriptOnly text cap := by
  rw [ofLanguage_typeScript, ofLanguage_javaScript, score_append, score_append, score_append]
  ring

/-- The strong hits of TypeScript are those of JavaScript and those of its own rules. -/
lemma strongHits_typeScript :
    strongHits (ofLanguage .typeScript) text cap =
      strongHits (ofLanguage .javaScript) text cap + strongHits typeScriptOnly text cap := by
  rw [ofLanguage_typeScript, ofLanguage_javaScript, strongHits_append, strongHits_append,
    strongHits_append]
  omega

/-- The rules that TypeScript has for itself add nothing, or more than a hint. -/
lemma score_typeScriptOnly_cases {cap : Nat} (hcap : 1 ≤ cap) :
    (∀ rule ∈ typeScriptOnly, ¬ rule.Occurs text) ∧ score typeScriptOnly text cap = 0 ∧
        strongHits typeScriptOnly text cap = 0 ∨
      (¬ ∀ rule ∈ typeScriptOnly, ¬ rule.Occurs text) ∧ 5 ≤ score typeScriptOnly text cap ∧
        1 ≤ strongHits typeScriptOnly text cap := by
  by_cases hnone : ∀ rule ∈ typeScriptOnly, ¬ rule.Occurs text
  · exact Or.inl ⟨hnone, score_eq_zero hnone, strongHits_eq_zero hnone⟩
  · obtain ⟨rule, hrule, hoccurs⟩ : ∃ rule ∈ typeScriptOnly, rule.Occurs text := by
      by_contra habsent
      exact hnone fun rule hrule hoccurs => habsent ⟨rule, hrule, hoccurs⟩
    have hscore := signedWeight_le_score (fun _ h => typeScriptOnly_pos h) hrule hoccurs hcap
    have hweight := five_le_of_mem_typeScriptOnly rule hrule
    exact Or.inr ⟨hnone, hweight.trans hscore,
      one_le_strongHits hrule (typeScriptOnly_strong rule hrule) hoccurs hcap⟩

end Rules

/-! ## Shares -/

/-- The scores of two languages are both part of the sum. -/
lemma Features.max_add_max_le_positiveTotal {found : Features Rat} {a b : LanguageFeatures Rat}
    {rest : List (LanguageFeatures Rat)} (h : found.languages = a :: b :: rest) :
    max a.rawScore 0 + max b.rawScore 0 ≤ found.positiveTotal := by
  have hrest : 0 ≤ (rest.map fun l => max l.rawScore 0).sum := by
    refine List.sum_nonneg fun r hr => ?_
    obtain ⟨l, -, rfl⟩ := List.mem_map.mp hr
    exact le_max_right _ _
  rw [positiveTotal_eq_sum, h, List.map_cons, List.map_cons, List.sum_cons, List.sum_cons]
  linarith

/-- A language whose score is at most half of the sum has at most half of the share. -/
lemma LanguageFeatures.share_le_half {found : LanguageFeatures Rat} {positiveTotal : Rat}
    (h : max found.rawScore 0 + max found.rawScore 0 ≤ positiveTotal) :
    found.share positiveTotal ≤ 1 / 2 := by
  have hnonneg : 0 ≤ max found.rawScore 0 := le_max_right _ _
  rcases le_or_gt positiveTotal scoreResolution with hsmall | hlarge
  · rw [share_eq_zero found hsmall]
    norm_num
  · rw [share_eq_div hlarge (by linarith), div_le_iff₀ (scoreResolution_pos.trans hlarge)]
    linarith

/-! ## The two candidates -/

section Candidates

variable {thresholds : Thresholds Rat} {text : List Char} {hint : Option String}

/-- The candidates differ by the rules of TypeScript and by the hint. -/
lemma rawScore_typeScript (thresholds : Thresholds Rat) (text : List Char)
    (hint : Option String) :
    (candidateFor thresholds text hint .typeScript).rawScore =
      (candidateFor thresholds text hint .javaScript).rawScore +
        Rules.score Rules.typeScriptOnly (Characters.trim text) thresholds.cap +
          (hintBonus hint .typeScript - hintBonus hint .javaScript) := by
  rw [candidateFor_rawScore _ _ _ (by decide), candidateFor_rawScore _ _ _ (by decide),
    Rules.score_typeScript]
  ring

/-- The TypeScript candidate has the strong hits of the JavaScript one and those of its own rules.
-/
lemma strongHits_typeScript (thresholds : Thresholds Rat) (text : List Char)
    (hint : Option String) :
    (candidateFor thresholds text hint .typeScript).strongHits =
      (candidateFor thresholds text hint .javaScript).strongHits +
        Rules.strongHits Rules.typeScriptOnly (Characters.trim text) thresholds.cap := by
  rw [candidateFor_strongHits _ _ _ (by decide), candidateFor_strongHits _ _ _ (by decide),
    Rules.strongHits_typeScript]

/-- Unless the hint names TypeScript, JavaScript comes first where no rule of TypeScript occurs. -/
lemma javaScript_outranks_typeScript_iff (hhint : namedBy hint ≠ some .typeScript) :
    (candidateFor thresholds text hint .javaScript).Outranks
        (candidateFor thresholds text hint .typeScript) ↔
      ∀ rule ∈ Rules.typeScriptOnly, ¬ rule.Occurs (Characters.trim text) := by
  have hscore := rawScore_typeScript thresholds text hint
  have hstrong := strongHits_typeScript thresholds text hint
  have hbonus := hintBonus_nonneg hint .javaScript
  have hbonus' : hintBonus hint .javaScript ≤ 2 := by
    unfold hintBonus
    split <;> norm_num
  rw [hintBonus_of_ne hhint] at hscore
  rcases Rules.score_typeScriptOnly_cases (Characters.trim text) thresholds.one_le_cap with
    ⟨hnone, hzero, hzero'⟩ | ⟨hsome, hfive, -⟩
  · refine iff_of_true ?_ hnone
    rcases lt_or_eq_of_le hbonus with hpos | hbonusZero
    · exact Or.inl (by linarith)
    · refine Or.inr ⟨by linarith, Or.inr ⟨by omega, ?_⟩⟩
      rw [candidateFor_language, candidateFor_language]
      decide
  · refine iff_of_false ?_ hsome
    intro houtranks
    have hreverse : (candidateFor thresholds text hint .typeScript).Outranks
        (candidateFor thresholds text hint .javaScript) := Or.inl (by linarith)
    exact hreverse.asymm houtranks

/-- A hint that names TypeScript puts it first. -/
lemma typeScript_outranks_javaScript (hhint : namedBy hint = some .typeScript) :
    (candidateFor thresholds text hint .typeScript).Outranks
      (candidateFor thresholds text hint .javaScript) := by
  have hscore := rawScore_typeScript thresholds text hint
  have hother : namedBy hint ≠ some .javaScript := by
    rw [hhint]
    decide
  have hnonneg : 0 ≤ Rules.score Rules.typeScriptOnly (Characters.trim text) thresholds.cap :=
    Rules.score_nonneg fun _ h => Rules.typeScriptOnly_pos h
  rw [hintBonus_of_eq hhint, hintBonus_of_ne hother] at hscore
  exact Or.inl (by linarith)

/-- Unless the hint names it, JavaScript shares what it has with TypeScript. -/
lemma confidence_javaScript_le (hhint : namedBy hint ≠ some .javaScript) :
    (candidateFor thresholds text hint .javaScript).confidence ≤ 1 / 2 := by
  have hscore := rawScore_typeScript thresholds text hint
  have hbonus := hintBonus_nonneg hint .typeScript
  have hnonneg : 0 ≤ Rules.score Rules.typeScriptOnly (Characters.trim text) thresholds.cap :=
    Rules.score_nonneg fun _ h => Rules.typeScriptOnly_pos h
  rw [hintBonus_of_ne hhint] at hscore
  have hle : (candidateFor thresholds text hint .javaScript).rawScore ≤
      (candidateFor thresholds text hint .typeScript).rawScore := by linarith
  have hlanguages := builtin_features_languages thresholds text hint
  have htotal := Features.max_add_max_le_positiveTotal hlanguages
  have hmax := max_le_max_right 0 hle
  have hshare := LanguageFeatures.share_le_half ((add_le_add_right hmax _).trans htotal)
  have hfactor := Classification.lengthFactor_nonneg thresholds
    (tokenCount (Characters.trim text))
  have hfactor' := Classification.lengthFactor_le_one thresholds
    (tokenCount (Characters.trim text))
  calc (candidateFor thresholds text hint .javaScript).confidence
      ≤ 1 / 2 * Classification.lengthFactor thresholds (tokenCount (Characters.trim text)) :=
        mul_le_mul_of_nonneg_right hshare hfactor
    _ ≤ 1 / 2 := by linarith

end Candidates

/-! ## Dominance -/

/-- How TypeScript and JavaScript compare on a text. -/
structure TypeScriptDominates (thresholds : Thresholds Rat) (text : List Char) : Prop where
  /-- Before any hint TypeScript is not behind in either count, and it is level exactly where none
  of its own rules occurs. -/
  plain : ∃ javaScript typeScript,
    (classify .builtin thresholds text none).candidate? .javaScript = some javaScript ∧
    (classify .builtin thresholds text none).candidate? .typeScript = some typeScript ∧
    javaScript.rawScore ≤ typeScript.rawScore ∧ javaScript.strongHits ≤ typeScript.strongHits ∧
    (javaScript.rawScore = typeScript.rawScore ↔
      ∀ rule ∈ Rules.typeScriptOnly, ¬ rule.Occurs (Characters.trim text)) ∧
    (javaScript.strongHits = typeScript.strongHits ↔
      ∀ rule ∈ Rules.typeScriptOnly, ¬ rule.Occurs (Characters.trim text))
  javaScript_first_iff : ∀ hint, namedBy hint ≠ some .typeScript →
    ((classify .builtin thresholds text hint).StandsBefore .javaScript .typeScript ↔
      ∀ rule ∈ Rules.typeScriptOnly, ¬ rule.Occurs (Characters.trim text))
  typeScript_first : ∀ hint, namedBy hint = some .typeScript →
    (classify .builtin thresholds text hint).StandsBefore .typeScript .javaScript
  confidence_le : ∀ hint, namedBy hint ≠ some .javaScript → ∃ javaScript,
    (classify .builtin thresholds text hint).candidate? .javaScript = some javaScript ∧
      javaScript.confidence ≤ 1 / 2

/-- Without a hint the candidates are level exactly where no rule of TypeScript occurs. -/
lemma candidates_level_iff (thresholds : Thresholds Rat) (text : List Char) :
    (candidateFor thresholds text none .javaScript).rawScore ≤
        (candidateFor thresholds text none .typeScript).rawScore ∧
      (candidateFor thresholds text none .javaScript).strongHits ≤
        (candidateFor thresholds text none .typeScript).strongHits ∧
      ((candidateFor thresholds text none .javaScript).rawScore =
          (candidateFor thresholds text none .typeScript).rawScore ↔
        ∀ rule ∈ Rules.typeScriptOnly, ¬ rule.Occurs (Characters.trim text)) ∧
      ((candidateFor thresholds text none .javaScript).strongHits =
          (candidateFor thresholds text none .typeScript).strongHits ↔
        ∀ rule ∈ Rules.typeScriptOnly, ¬ rule.Occurs (Characters.trim text)) := by
  have hscore := rawScore_typeScript thresholds text none
  have hstrong := strongHits_typeScript thresholds text none
  rw [hintBonus_none, hintBonus_none, sub_zero, add_zero] at hscore
  rcases Rules.score_typeScriptOnly_cases (Characters.trim text) thresholds.one_le_cap with
    ⟨hnone, hzero, hzero'⟩ | ⟨hsome, hfive, hone⟩
  · exact ⟨by linarith, by omega, iff_of_true (by linarith) hnone, iff_of_true (by omega) hnone⟩
  · refine ⟨by linarith, by omega, iff_of_false ?_ hsome, iff_of_false ?_ hsome⟩
    · intro heq
      linarith
    · intro heq
      omega

/-- TypeScript dominates JavaScript on every scored text. -/
theorem typeScriptDominates_classify (thresholds : Thresholds Rat) (text : List Char)
    (hscored : IsScored thresholds text) (hcap : thresholds.maxOccurrencesPerSignature ≤ 10 ^ 9) :
    TypeScriptDominates thresholds text := by
  have hcap' : thresholds.cap ≤ 10 ^ 9 := max_le hcap (by norm_num)
  have hjavaScript : Language.javaScript ∈ Language.supported := by decide
  have htypeScript : Language.typeScript ∈ Language.supported := by decide
  refine ⟨?_, ?_, ?_, ?_⟩
  · exact ⟨_, _, candidate?_classify none hscored hjavaScript,
      candidate?_classify none hscored htypeScript, candidates_level_iff thresholds text⟩
  · intro hint hhint
    rw [standsBefore_classify_iff hint hscored hcap' hjavaScript htypeScript (by decide)]
    exact javaScript_outranks_typeScript_iff hhint
  · intro hint hhint
    rw [standsBefore_classify_iff hint hscored hcap' htypeScript hjavaScript (by decide)]
    exact typeScript_outranks_javaScript hhint
  · intro hint hhint
    exact ⟨_, candidate?_classify hint hscored hjavaScript, confidence_javaScript_le hhint⟩

/-- A line that both languages share. -/
theorem typeScriptDominates_let :
    IsScored (Thresholds.default : Thresholds Rat) "let x = 1;".toList ∧
      (Thresholds.default : Thresholds Rat).maxOccurrencesPerSignature ≤ 10 ^ 9 ∧
      TypeScriptDominates Thresholds.default "let x = 1;".toList := by
  have hscored : IsScored (Thresholds.default : Thresholds Rat) "let x = 1;".toList :=
    ⟨by decide +kernel, by decide +kernel⟩
  have hcap : (Thresholds.default : Thresholds Rat).maxOccurrencesPerSignature ≤ 10 ^ 9 := by
    decide
  exact ⟨hscored, hcap, typeScriptDominates_classify _ _ hscored hcap⟩

end LanguageDetection
