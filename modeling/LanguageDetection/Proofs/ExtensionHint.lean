import LanguageDetection.Proofs.Catalog
import LanguageDetection.Proofs.Candidate
import LanguageDetection.Proofs.Ranking

/-!
# File extensions as hints

A file extension is credited to the language it belongs to, and to no other one.  The features of
that language change at one place of the list; the others stay as they are, and so does their order
in the ranking.  Only the shares of the others can shrink, because the sum of the positive scores
may grow.

The first half follows the features and the ranking, for every kind of numbers.  The second half is
about exact scores: `Candidate.Credited` is what happens to the language of the extension and
`Candidate.Diluted` what happens to the others.
-/

namespace LanguageDetection

section Features

variable {α : Type} [Scalar α]

/-! ## Features with a hint -/

namespace LanguageFeatures

/-- A language does not profit from an extension that it does not list. -/
lemma ofHint_of_hasExtension_eq_false {language : Language} {extension : String}
    (h : language.hasExtension extension = false) (text : List Char) (cap : Nat) :
    (ofHint text cap (some extension) (.builtin language) : LanguageFeatures α) =
      ofHint text cap none (.builtin language) :=
  creditExtension_of_find?_eq_none
    (CatalogEntry.find?_matchesExtension_builtin_eq_none h) _

/-- A language is credited for an extension that it lists. -/
lemma exists_ofHint_eq_credit {language : Language} {extension : String}
    (h : language.hasExtension extension = true) (text : List Char) (cap : Nat) :
    ∃ listed, (ofHint text cap (some extension) (.builtin language) : LanguageFeatures α) =
      (ofHint text cap none (.builtin language)).credit (.ofExtension language listed) := by
  obtain ⟨listed, hfind⟩ := CatalogEntry.find?_matchesExtension_builtin h
  exact ⟨listed, creditExtension_of_find? hfind _⟩

end LanguageFeatures

/-- An extension that belongs to no language makes no difference. -/
theorem features_hint_eq_of_none {extension : String}
    (h : Catalog.builtin.languageForExtension extension = none) (thresholds : Thresholds α)
    (text : List Char) :
    features .builtin thresholds text (some extension) =
      features .builtin thresholds text none := by
  have hlanguages : (features .builtin thresholds text (some extension)).languages =
      (features .builtin thresholds text none).languages := by
    rw [builtin_features_languages, builtin_features_languages]
    refine List.map_congr_left fun language hmem => ?_
    exact LanguageFeatures.ofHint_of_hasExtension_eq_false
      (Catalog.hasExtension_eq_false h hmem) _ _
  have htokens := features_tokenCount .builtin thresholds text (some extension)
  rw [← features_tokenCount .builtin thresholds text none] at htokens
  exact Features.ext hlanguages htokens

/-- An extension is credited to the features of the language it belongs to. -/
theorem exists_features_hint_eq {extension : String} {owner : Language}
    (h : Catalog.builtin.languageForExtension extension = some owner) (thresholds : Thresholds α)
    (text : List Char) :
    ∃ left right found listed,
      (features .builtin thresholds text none).languages = left ++ found :: right ∧
      (features .builtin thresholds text (some extension)).languages =
        left ++ found.credit (.ofExtension owner listed) :: right ∧
      found.language = owner ∧ ∀ l ∈ left ++ right, l.language ≠ owner := by
  obtain ⟨hmem, hextension⟩ := Catalog.languageForExtension_builtin_eq_some_iff.mp h
  obtain ⟨front, back, hsupported⟩ := List.append_of_mem hmem
  have hnotMem : owner ∉ front ++ back := by
    have hnodup := Language.nodup_supported
    rw [hsupported] at hnodup
    exact (List.nodup_middle.mp hnodup).notMem
  have hother : ∀ language ∈ front ++ back, language.hasExtension extension = false := by
    intro language hlanguage
    have hsupported' : language ∈ Language.supported := by
      rw [hsupported]
      exact List.perm_middle.mem_iff.mpr (List.mem_cons_of_mem _ hlanguage)
    by_contra hlisted
    rw [Bool.not_eq_false] at hlisted
    exact hnotMem (Language.eq_of_hasExtension hsupported' hmem hlisted hextension ▸ hlanguage)
  let plain : Language → LanguageFeatures α := fun language =>
    .ofHint (Characters.trim text) thresholds.cap none (.builtin language)
  let hinted : Language → LanguageFeatures α := fun language =>
    .ofHint (Characters.trim text) thresholds.cap (some extension) (.builtin language)
  obtain ⟨listed, hcredit⟩ : ∃ listed,
      hinted owner = (plain owner).credit (.ofExtension owner listed) :=
    LanguageFeatures.exists_ofHint_eq_credit hextension _ _
  have hfront : front.map hinted = front.map plain :=
    List.map_congr_left fun language hlanguage =>
      LanguageFeatures.ofHint_of_hasExtension_eq_false
        (hother language (List.mem_append_left _ hlanguage)) _ _
  have hback : back.map hinted = back.map plain :=
    List.map_congr_left fun language hlanguage =>
      LanguageFeatures.ofHint_of_hasExtension_eq_false
        (hother language (List.mem_append_right _ hlanguage)) _ _
  refine ⟨front.map plain, back.map plain, plain owner, listed, ?_, ?_, rfl, ?_⟩
  · rw [builtin_features_languages, hsupported, List.map_append, List.map_cons]
  · rw [builtin_features_languages, hsupported, List.map_append, List.map_cons]
    change front.map hinted ++ hinted owner :: back.map hinted = _
    rw [hfront, hback, hcredit]
  · rw [← List.map_append]
    intro l hl heq
    obtain ⟨language, hlanguage, rfl⟩ := List.mem_map.mp hl
    rw [LanguageFeatures.ofHint_language] at heq
    exact hnotMem (heq ▸ hlanguage)

/-! ## The ranking of the others -/

/-- Ranking with a language and ranking without it give the same list but for that language. -/
lemma exists_ranking_append_cons (left right : List (LanguageFeatures α))
    (found : LanguageFeatures α) :
    ∃ before after, ranking (left ++ found :: right) = before ++ found :: after ∧
      before ++ after = ranking (left ++ right) :=
  exists_sortBy_append_cons LanguageFeatures.ranksBefore_trans LanguageFeatures.ranksBefore_total
    left right found

end Features

/-- A better score leaves the others in order, and it does not set the language back. -/
theorem exists_ranking_split {left right : List (LanguageFeatures Rat)}
    {found credited : LanguageFeatures Rat} (hlanguage : credited.language = found.language)
    (hstrong : credited.strongHits = found.strongHits) (hscore : found.rawScore ≤ credited.rawScore)
    (hdistinct : ∀ l ∈ left ++ right, l.language ≠ found.language) :
    ∃ before after before' after',
      ranking (left ++ found :: right) = before ++ found :: after ∧
      ranking (left ++ credited :: right) = before' ++ credited :: after' ∧
      (before ++ after).Perm (left ++ right) ∧ before' ++ after' = before ++ after ∧
      before'.length ≤ before.length := by
  obtain ⟨before, after, hranking, hothers⟩ := exists_ranking_append_cons left right found
  obtain ⟨before', after', hranking', hothers'⟩ := exists_ranking_append_cons left right credited
  have hperm : (before ++ after).Perm (left ++ right) := by
    rw [hothers]
    exact ranking_perm _
  have hsame : before' ++ after' = before ++ after := hothers'.trans hothers.symm
  have hsorted := ranking_pairwise (left ++ found :: right)
  have hsorted' := ranking_pairwise (left ++ credited :: right)
  rw [hranking] at hsorted
  rw [hranking'] at hsorted'
  have hfirst : credited.ranksBefore found = true := by
    rw [LanguageFeatures.ranksBefore_iff, LanguageFeatures.rankKey, LanguageFeatures.rankKey,
      Prod.Lex.toLex_le_toLex, hstrong, hlanguage]
    rcases lt_or_eq_of_le (LanguageFeatures.scoreKey_mono hscore) with hlt | heq
    · exact Or.inl hlt
    · exact Or.inr ⟨congrArg OrderDual.toDual heq.symm, le_rfl⟩
  have hapart : ∀ l ∈ before ++ after, credited.ranksBefore l = true →
      l.ranksBefore credited = false := by
    intro l hl hbefore
    by_contra hbehind
    rw [Bool.not_eq_false] at hbehind
    have hequal := LanguageFeatures.language_eq_of_ranksBefore hbehind hbefore
    exact hdistinct l (hperm.mem_iff.mp hl) (hequal.trans hlanguage)
  have hposition : before'.length ≤ before.length := length_le_of_precedes
    LanguageFeatures.ranksBefore_trans hsame hsorted hsorted' hfirst hapart
  exact ⟨before, after, before', after', hranking, hranking', hperm, hsame, hposition⟩

/-! ## Shares -/

namespace Features

variable {plain hinted : Features Rat} {left right : List (LanguageFeatures Rat)}
  {found credited : LanguageFeatures Rat}

/-- The sum of the positive scores grows by what one language gains. -/
lemma positiveTotal_eq_add_of_split (hplain : plain.languages = left ++ found :: right)
    (hhinted : hinted.languages = left ++ credited :: right) :
    hinted.positiveTotal =
      plain.positiveTotal + (max credited.rawScore 0 - max found.rawScore 0) := by
  rw [positiveTotal_eq_sum, positiveTotal_eq_sum, hplain, hhinted]
  simp only [List.map_append, List.map_cons, List.sum_append, List.sum_cons]
  ring

/-- A credit does not lower the sum of the positive scores. -/
lemma positiveTotal_le_of_split (hplain : plain.languages = left ++ found :: right)
    (hhinted : hinted.languages = left ++ credited :: right)
    (hscore : found.rawScore ≤ credited.rawScore) : plain.positiveTotal ≤ hinted.positiveTotal := by
  have hgain := positiveTotal_eq_add_of_split hplain hhinted
  have hmax : max found.rawScore 0 ≤ max credited.rawScore 0 := max_le_max_right 0 hscore
  linarith

end Features

/-! ## What a hint does to the candidates -/

namespace Candidate

/-- What a hint does to the candidate of its language. -/
structure Credited (candidate candidate' : Candidate Rat) : Prop where
  language_eq : candidate'.language = candidate.language
  rawScore_eq : candidate'.rawScore = candidate.rawScore + 2
  strongHits_eq : candidate'.strongHits = candidate.strongHits
  /-- The extension is one more item of the evidence, which is otherwise the same. -/
  evidence_eq : ∃ item before after, candidate'.evidence = before ++ item :: after ∧
    candidate.evidence = before ++ after ∧ item.markerClass = .weak ∧ item.kind = .extension ∧
      item.count = 1 ∧ item.contribution = 2
  confidence_le : candidate.confidence ≤ candidate'.confidence

/-- What a hint does to any other candidate. -/
structure Diluted (candidate candidate' : Candidate Rat) : Prop where
  language_eq : candidate'.language = candidate.language
  rawScore_eq : candidate'.rawScore = candidate.rawScore
  strongHits_eq : candidate'.strongHits = candidate.strongHits
  evidence_eq : candidate'.evidence = candidate.evidence
  confidence_le : candidate'.confidence ≤ candidate.confidence

end Candidate

@[simp] lemma LanguageFeatures.rawScore_credit_ofExtension (found : LanguageFeatures Rat)
    (owner : Language) (listed : String) :
    (found.credit (.ofExtension owner listed)).rawScore = found.rawScore + 2 := rfl

section Candidates

variable {found : LanguageFeatures Rat} {positiveTotal positiveTotal' lengthFactor : Rat}

/-- The candidate of the credited language gains what it is credited. -/
lemma credited_candidateOf (owner : Language) (listed : String) (hfactor : 0 ≤ lengthFactor)
    (hle : max found.rawScore 0 ≤ positiveTotal)
    (hgain : positiveTotal' =
      positiveTotal + (max (found.rawScore + 2) 0 - max found.rawScore 0)) :
    (Classification.candidateOf positiveTotal lengthFactor found).Credited
      (Classification.candidateOf positiveTotal' lengthFactor
        (found.credit (.ofExtension owner listed))) where
  language_eq := rfl
  rawScore_eq := rfl
  strongHits_eq := rfl
  evidence_eq := by
    have hpos : (0 : Rat) <
        (Hit.ofExtension (.ofExtension owner listed) : Hit Rat).contribution := by
      change (0 : Rat) < 2
      norm_num
    have hhits : (found.credit (.ofExtension owner listed)).hits =
        found.hits ++ [Hit.ofExtension (.ofExtension owner listed)] := rfl
    obtain ⟨before, after, hcredited, hfound⟩ :=
      Classification.exists_evidence_candidateOf_append hhits hpos positiveTotal lengthFactor
        positiveTotal' lengthFactor
    exact ⟨_, before, after, hcredited, hfound, rfl, rfl, rfl, rfl⟩
  confidence_le := by
    have hscore : max found.rawScore 0 ≤
        max (found.credit (.ofExtension owner listed)).rawScore 0 := by
      rw [LanguageFeatures.rawScore_credit_ofExtension]
      exact max_le_max_right 0 (by linarith)
    exact mul_le_mul_of_nonneg_right (LanguageFeatures.share_le_share_of_gain hscore hle hgain)
      hfactor

/-- The candidates of the other languages lose confidence at most. -/
lemma diluted_candidateOf (hfactor : 0 ≤ lengthFactor)
    (hle : max found.rawScore 0 ≤ positiveTotal) (htotal : positiveTotal ≤ positiveTotal')
    (hnone : positiveTotal ≤ scoreResolution → found.rawScore ≤ 0) :
    (Classification.candidateOf positiveTotal lengthFactor found).Diluted
      (Classification.candidateOf positiveTotal' lengthFactor found) where
  language_eq := rfl
  rawScore_eq := rfl
  strongHits_eq := rfl
  evidence_eq := rfl
  confidence_le := mul_le_mul_of_nonneg_right
    (LanguageFeatures.share_le_share_of_total_le hle htotal hnone) hfactor

end Candidates

/-! ## What a hint does to the ranking -/

namespace Classification

/-- Where the candidate of a language stands in a ranking that has no other one of it. -/
lemma candidate?_of_ranked_eq {result : Classification Rat} {before after : List (Candidate Rat)}
    {candidate : Candidate Rat} {owner : Language}
    (h : result.ranked = before ++ candidate :: after) (howner : candidate.language = owner)
    (hothers : ∀ other ∈ before ++ after, other.language ≠ owner) :
    result.candidate? owner = some candidate ∧ result.rankOf? owner = some before.length ∧
      result.ranked.filter (·.language ≠ owner) = before ++ after := by
  have hbefore : ∀ other ∈ before, ¬ other.language = owner :=
    fun other hother => hothers other (List.mem_append_left _ hother)
  have hafter : ∀ other ∈ after, ¬ other.language = owner :=
    fun other hother => hothers other (List.mem_append_right _ hother)
  refine ⟨?_, ?_, ?_⟩
  · unfold candidate?
    rw [h, List.find?_append, List.find?_eq_none.mpr (by simpa using hbefore)]
    simp [howner]
  · unfold rankOf?
    rw [h, List.findIdx?_append, List.findIdx?_eq_none_iff.mpr (by simpa using hbefore)]
    simp [List.findIdx?_cons, howner]
  · rw [h, List.filter_append, List.filter_cons_of_neg (by simp [howner]),
      List.filter_eq_self.mpr (by simpa using hbefore),
      List.filter_eq_self.mpr (by simpa using hafter)]

/-- Two rankings that differ by a hint for `owner`. -/
structure Hinted (owner : Language) (plain hinted : Classification Rat) : Prop where
  tokenCount_eq : hinted.tokenCount = plain.tokenCount
  /-- The language of the extension is credited, and it does not fall behind. -/
  credited : ∃ candidate candidate' position position',
    plain.candidate? owner = some candidate ∧ hinted.candidate? owner = some candidate' ∧
    candidate.Credited candidate' ∧
    plain.rankOf? owner = some position ∧ hinted.rankOf? owner = some position' ∧
    position' ≤ position
  /-- The others keep their order, and everything but their confidence. -/
  diluted : List.Forall₂ Candidate.Diluted (plain.ranked.filter (·.language ≠ owner))
    (hinted.ranked.filter (·.language ≠ owner))

/-- Rankings that agree but for one candidate and its place differ by a hint. -/
lemma hinted_of_ranked_eq {plain hinted : Classification Rat} {owner : Language}
    {before after before' after' : List (Candidate Rat)} {candidate candidate' : Candidate Rat}
    (htokens : hinted.tokenCount = plain.tokenCount)
    (hplain : plain.ranked = before ++ candidate :: after)
    (hhinted : hinted.ranked = before' ++ candidate' :: after')
    (howner : candidate.language = owner)
    (hothers : ∀ other ∈ before ++ after, other.language ≠ owner)
    (hothers' : ∀ other ∈ before' ++ after', other.language ≠ owner)
    (hcredited : candidate.Credited candidate') (hposition : before'.length ≤ before.length)
    (hdiluted : List.Forall₂ Candidate.Diluted (before ++ after) (before' ++ after')) :
    Hinted owner plain hinted := by
  have howner' : candidate'.language = owner := hcredited.language_eq.trans howner
  obtain ⟨hfind, hrankOf, hfilter⟩ := candidate?_of_ranked_eq hplain howner hothers
  obtain ⟨hfind', hrankOf', hfilter'⟩ := candidate?_of_ranked_eq hhinted howner' hothers'
  refine ⟨htokens, ?_, ?_⟩
  · exact ⟨candidate, candidate', before.length, before'.length, hfind, hfind', hcredited,
      hrankOf, hrankOf', hposition⟩
  · rw [hfilter, hfilter']
    exact hdiluted

end Classification

/-- Rankings of features that differ by an extension credited to `owner`. -/
theorem hinted_rank_of_split {plain hinted : Features Rat} {owner : Language}
    {left right : List (LanguageFeatures Rat)} {found : LanguageFeatures Rat} {listed : String}
    (htokens : hinted.tokenCount = plain.tokenCount)
    (hplain : plain.languages = left ++ found :: right)
    (hhinted : hinted.languages = left ++ found.credit (.ofExtension owner listed) :: right)
    (hlanguage : found.language = owner) (hdistinct : ∀ l ∈ left ++ right, l.language ≠ owner)
    (hhalf : ∀ l ∈ plain.languages, IsHalfInteger l.rawScore) (thresholds : Thresholds Rat) :
    Classification.Hinted owner (.rank thresholds plain) (.rank thresholds hinted) := by
  have hfactor := Classification.lengthFactor_nonneg thresholds plain.tokenCount
  have hscore : found.rawScore ≤ (found.credit (.ofExtension owner listed)).rawScore := by
    rw [LanguageFeatures.rawScore_credit_ofExtension]
    linarith
  have hcreditedLanguage : (found.credit (.ofExtension owner listed)).language =
      found.language := rfl
  obtain ⟨before, after, before', after', hranking, hranking', hperm, hsame, hposition⟩ :=
    exists_ranking_split hcreditedLanguage rfl hscore (by rwa [hlanguage])
  have hmem : ∀ l ∈ before ++ after, l ∈ plain.languages := by
    intro l hl
    rw [hplain]
    exact List.perm_middle.mem_iff.mpr (List.mem_cons_of_mem found (hperm.mem_iff.mp hl))
  let candidate : LanguageFeatures Rat → Candidate Rat := Classification.candidateOf
    plain.positiveTotal (Classification.lengthFactor thresholds plain.tokenCount)
  let candidate' : LanguageFeatures Rat → Candidate Rat := Classification.candidateOf
    hinted.positiveTotal (Classification.lengthFactor thresholds plain.tokenCount)
  have hcredited : (candidate found).Credited
      (candidate' (found.credit (.ofExtension owner listed))) := by
    have hfound : found ∈ plain.languages := by simp [hplain]
    exact credited_candidateOf owner listed hfactor (Features.max_rawScore_le_positiveTotal hfound)
      (Features.positiveTotal_eq_add_of_split hplain hhinted)
  have hdiluted : ∀ l ∈ before ++ after, (candidate l).Diluted (candidate' l) := by
    intro l hl
    exact diluted_candidateOf hfactor (Features.max_rawScore_le_positiveTotal (hmem l hl))
      (Features.positiveTotal_le_of_split hplain hhinted hscore)
      (fun htotal => Features.rawScore_nonpos hhalf htotal (hmem l hl))
  have hothers : ∀ l ∈ before ++ after, l.language ≠ owner :=
    fun l hl => hdistinct l (hperm.mem_iff.mp hl)
  have hranked : (Classification.rank thresholds plain).ranked =
      before.map candidate ++ candidate found :: after.map candidate := by
    rw [rank_ranked, hplain, hranking, List.map_append, List.map_cons]
  have hranked' : (Classification.rank thresholds hinted).ranked = before'.map candidate' ++
      candidate' (found.credit (.ofExtension owner listed)) :: after'.map candidate' := by
    rw [rank_ranked, hhinted, hranking', List.map_append, List.map_cons, htokens]
  refine Classification.hinted_of_ranked_eq ?_ hranked hranked' hlanguage ?_ ?_ hcredited ?_ ?_
  · rw [rank_tokenCount, rank_tokenCount, htokens]
  · rw [← List.map_append]
    exact List.forall_mem_map.mpr hothers
  · rw [← List.map_append, hsame]
    exact List.forall_mem_map.mpr hothers
  · rwa [List.length_map, List.length_map]
  · rw [← List.map_append, ← List.map_append, hsame, List.forall₂_map_left_iff,
      List.forall₂_map_right_iff, List.forall₂_same]
    exact hdiluted

/-- The rankings of a text with and without an extension that belongs to `owner`. -/
theorem hinted_rank {extension : String} {owner : Language}
    (h : Catalog.builtin.languageForExtension extension = some owner) (thresholds : Thresholds Rat)
    (text : List Char) :
    Classification.Hinted owner
      (.rank thresholds (features .builtin thresholds text none))
      (.rank thresholds (features .builtin thresholds text (some extension))) := by
  obtain ⟨left, right, found, listed, hplain, hhinted, hlanguage, hdistinct⟩ :=
    exists_features_hint_eq h thresholds text
  refine hinted_rank_of_split ?_ hplain hhinted hlanguage hdistinct ?_ thresholds
  · rw [features_tokenCount, features_tokenCount]
  · exact fun l hl => (accounted_of_mem_features hl).isHalfInteger_rawScore

/-! ## The law of hints -/

/-- What an extension given as a hint can do to the classification of a text, and nothing else. -/
structure HintLaw (thresholds : Thresholds Rat) (text : List Char) (extension : String)
    (plain hinted : Classification Rat) : Prop where
  /-- The language of the extension is the only one with a signature that matches it. -/
  matches_iff : ∀ entry ∈ Catalog.builtin.entries,
    (∃ signature ∈ entry.signatures, signature.matchesExtension extension = true) ↔
      Catalog.builtin.languageForExtension extension = some entry.language
  entries_language : Catalog.builtin.entries.map (·.language) = Language.supported
  eq_of_none : Catalog.builtin.languageForExtension extension = none → hinted = plain
  eq_of_emptyInput : plain.inconclusive = some .emptyInput → hinted = plain
  eq_of_binaryInput : plain.inconclusive = some .binaryInput → hinted = plain
  hinted_of_isScored : IsScored thresholds text → ∀ owner,
    Catalog.builtin.languageForExtension extension = some owner →
      Classification.Hinted owner plain hinted

/-- The signature that matches an extension is that of the language it belongs to. -/
lemma exists_matchesExtension_iff {entry : CatalogEntry} (h : entry ∈ Catalog.builtin.entries)
    (extension : String) :
    (∃ signature ∈ entry.signatures, signature.matchesExtension extension = true) ↔
      Catalog.builtin.languageForExtension extension = some entry.language := by
  obtain ⟨language, hmem, rfl⟩ := Catalog.mem_builtin_entries.mp h
  rw [Catalog.languageForExtension_builtin_eq_some_iff, ← List.any_eq_true,
    CatalogEntry.any_matchesExtension_builtin]
  exact ⟨fun hextension => ⟨hmem, hextension⟩, And.right⟩

/-- Every hint follows the law. -/
theorem hintLaw_classify (thresholds : Thresholds Rat) (text : List Char) (extension : String) :
    HintLaw thresholds text extension (classify .builtin thresholds text none)
      (classify .builtin thresholds text (some extension)) := by
  have hskipped : ∀ reason ≠ .noEvidence,
      (classify .builtin thresholds text none).inconclusive = some reason →
        classify .builtin thresholds text (some extension) =
          classify .builtin thresholds text none := by
    intro reason hne hreason
    exact classify_eq_of_not_isScored (not_isScored_of_inconclusive hne hreason) _ _ _
  refine ⟨fun entry hentry => exists_matchesExtension_iff hentry extension, ?_, ?_,
    hskipped .emptyInput (by decide), hskipped .binaryInput (by decide), ?_⟩
  · rw [Catalog.builtin_entries, List.map_map]
    exact List.map_id _
  · intro hnone
    unfold classify
    rw [features_hint_eq_of_none hnone]
  · intro hscored owner howner
    rw [classify_of_isScored hscored, classify_of_isScored hscored]
    exact hinted_rank howner thresholds text

end LanguageDetection
