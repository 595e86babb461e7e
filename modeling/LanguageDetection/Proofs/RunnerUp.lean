import LanguageDetection.Proofs.Standing

/-!
# The second of a ranking

The second language of a ranking is the one that ranks before all others but the top
(`second_language_eq_iff`).  A language that is level with the top loses that place only to a third
one that is level with both, with an identifier between theirs (`second_language_eq_iff_of_level`).

Only the first two languages of a ranking can match a text (`isMatch_iff_isAccepted`), so a language
that is not on top depends on the second place.
-/

namespace LanguageDetection

/-! ## The order of the candidates -/

namespace Candidate

lemma scoreKey_mono {a b : Candidate Rat} (h : a.rawScore ≤ b.rawScore) :
    a.scoreKey ≤ b.scoreKey :=
  rat_round64_mono (div_le_div_of_nonneg_right h (le_of_lt scoreResolution_pos))

/-- No two candidates rank before each other. -/
lemma RanksBefore.asymm {a b : Candidate Rat} (hab : a.RanksBefore b) : ¬ b.RanksBefore a := by
  rintro (hscore' | ⟨hscore', hstrong' | ⟨hstrong', hid'⟩⟩)
  · rcases hab with hscore | ⟨hscore, -⟩ <;> omega
  · rcases hab with hscore | ⟨-, hstrong | ⟨hstrong, -⟩⟩ <;> omega
  · rcases hab with hscore | ⟨-, hstrong | ⟨-, hid⟩⟩
    · omega
    · omega
    · exact lt_asymm hid hid'

/-- Two candidates that are put in order by their identifiers only. -/
def Level (a b : Candidate Rat) : Prop :=
  a.scoreKey = b.scoreKey ∧ a.strongHits = b.strongHits

/-- Equal scores have equal keys. -/
lemma Level.of_eq {a b : Candidate Rat} (hscore : a.rawScore = b.rawScore)
    (hstrong : a.strongHits = b.strongHits) : a.Level b :=
  ⟨congrArg (fun score => Scalar.round64 (score / scoreResolution)) hscore, hstrong⟩

lemma Level.trans {a b c : Candidate Rat} (hab : a.Level b) (hbc : b.Level c) : a.Level c :=
  ⟨hab.1.trans hbc.1, hab.2.trans hbc.2⟩

/-- Level candidates are ranked by their identifiers. -/
lemma Level.ranksBefore {a b : Candidate Rat} (h : a.Level b)
    (hid : a.language.id < b.language.id) : a.RanksBefore b :=
  Or.inr ⟨h.1, Or.inr ⟨h.2, hid⟩⟩

/-- Whoever ranks between two level candidates is level with them, and its identifier lies between
theirs. -/
lemma Level.between {a b c : Candidate Rat} (h : a.Level c) (hab : a.RanksBefore b)
    (hbc : b.RanksBefore c) :
    b.Level a ∧ a.language.id < b.language.id ∧ b.language.id < c.language.id := by
  obtain ⟨hkey, hhits⟩ := h
  rcases hab with hscore | ⟨hscore, hstrong | ⟨hstrong, hid⟩⟩
  · rcases hbc with hscore' | ⟨hscore', -⟩ <;> omega
  · rcases hbc with hscore' | ⟨-, hstrong' | ⟨hstrong', -⟩⟩ <;> omega
  · rcases hbc with hscore' | ⟨-, hstrong' | ⟨-, hid'⟩⟩
    · omega
    · omega
    · exact ⟨⟨hscore.symm, hstrong.symm⟩, hid, hid'⟩

end Candidate

section Candidates

variable {thresholds : Thresholds Rat} {text : List Char} {hint : Option String}

/-- Below the cap of a thousand million two languages are level exactly if their scores and their
strong hits are equal. -/
lemma level_candidateFor_iff (hcap : thresholds.cap ≤ 10 ^ 9) {a b : Language}
    (ha : a ∈ Language.supported) (hb : b ∈ Language.supported) :
    (candidateFor thresholds text hint a).Level (candidateFor thresholds text hint b) ↔
      (candidateFor thresholds text hint a).rawScore =
          (candidateFor thresholds text hint b).rawScore ∧
        (candidateFor thresholds text hint a).strongHits =
          (candidateFor thresholds text hint b).strongHits := by
  have ha' := LanguageFeatures.accounted_ofHint ha (Characters.trim text) thresholds.one_le_cap hint
  have hb' := LanguageFeatures.accounted_ofHint hb (Characters.trim text) thresholds.one_le_cap hint
  exact and_congr_left' (ha'.scoreKey_eq_iff hb' hcap)

/-- The top ranks before all other languages. -/
lemma top_ranksBefore (hconclusive : (classify .builtin thresholds text hint).inconclusive = none)
    {b : Language} (hb : b ∈ Language.supported)
    (hne : b ≠ (classify .builtin thresholds text hint).top.language) :
    (classify .builtin thresholds text hint).top.RanksBefore
      (candidateFor thresholds text hint b) := by
  have hscored := Classification.isScored_of_conclusive hconclusive
  obtain ⟨second, rest, hranked⟩ := Classification.exists_ranked_eq_of_conclusive hconclusive
  have hsorted := pairwise_ranksBefore_classify hscored hint
  have hmem := candidateFor_mem_ranked hint hscored hb
  rw [hranked] at hsorted hmem
  rcases List.mem_cons.mp hmem with heq | hbehind
  · rw [← heq, candidateFor_language] at hne
    exact absurd rfl hne
  · exact (List.pairwise_cons.mp hsorted).1 _ hbehind

/-! ## The second place -/

variable {second : Candidate Rat} {rest : List (Candidate Rat)}
  (hconclusive : (classify .builtin thresholds text hint).inconclusive = none)
  (hranked : (classify .builtin thresholds text hint).ranked =
    (classify .builtin thresholds text hint).top :: second :: rest)

include hconclusive hranked

/-- The second candidate is that of its language, which is not the one on top. -/
lemma second_eq_candidateFor :
    second.language ∈ Language.supported ∧
      second.language ≠ (classify .builtin thresholds text hint).top.language ∧
      second = candidateFor thresholds text hint second.language := by
  have hscored := Classification.isScored_of_conclusive hconclusive
  have hsecond : second ∈ (classify .builtin thresholds text hint).ranked := by
    rw [hranked]
    simp
  obtain ⟨hsupported, hcandidate⟩ := eq_candidateFor_of_mem hint hscored hsecond
  refine ⟨hsupported, ?_, hcandidate⟩
  have hnodup := nodup_map_language_ranked hint hscored
  rw [hranked, List.map_cons, List.map_cons, List.nodup_cons] at hnodup
  intro heq
  exact hnodup.1 (by simp [heq])

/-- The second candidate ranks before all others but the top. -/
lemma second_ranksBefore {b : Language} (hb : b ∈ Language.supported)
    (htop : b ≠ (classify .builtin thresholds text hint).top.language)
    (hsecond : b ≠ second.language) :
    second.RanksBefore (candidateFor thresholds text hint b) := by
  have hscored := Classification.isScored_of_conclusive hconclusive
  have hsorted := pairwise_ranksBefore_classify hscored hint
  have hmem := candidateFor_mem_ranked hint hscored hb
  rw [hranked] at hsorted hmem
  rcases List.mem_cons.mp hmem with heq | hbehind
  · rw [← heq, candidateFor_language] at htop
    exact absurd rfl htop
  · rcases List.mem_cons.mp hbehind with heq | hrest
    · rw [← heq, candidateFor_language] at hsecond
      exact absurd rfl hsecond
    · exact (List.pairwise_cons.mp (List.pairwise_cons.mp hsorted).2).1 _ hrest

/-- The second language is the one whose candidate ranks before all others but the top. -/
theorem second_language_eq_iff {a : Language} (ha : a ∈ Language.supported)
    (hne : a ≠ (classify .builtin thresholds text hint).top.language) :
    second.language = a ↔ ∀ b ∈ Language.supported,
      b ≠ (classify .builtin thresholds text hint).top.language → b ≠ a →
        (candidateFor thresholds text hint a).RanksBefore
          (candidateFor thresholds text hint b) := by
  obtain ⟨hsupported, hapart, hcandidate⟩ := second_eq_candidateFor hconclusive hranked
  constructor
  · rintro rfl b hb htop hsecond
    rw [← hcandidate]
    exact second_ranksBefore hconclusive hranked hb htop hsecond
  · intro hall
    by_contra hother
    have hbefore := hall second.language hsupported hapart hother
    rw [← hcandidate] at hbefore
    exact hbefore.asymm (second_ranksBefore hconclusive hranked ha hne (Ne.symm hother))

/-- A language that is level with the top comes second unless another one is level with both, with
an identifier between theirs. -/
theorem second_language_eq_iff_of_level {a : Language} (ha : a ∈ Language.supported)
    (hne : a ≠ (classify .builtin thresholds text hint).top.language)
    (hlevel : (classify .builtin thresholds text hint).top.Level
      (candidateFor thresholds text hint a)) :
    second.language = a ↔ ∀ candidate ∈ (classify .builtin thresholds text hint).ranked,
      (classify .builtin thresholds text hint).top.language.id < candidate.language.id →
      candidate.language.id < a.id →
        ¬ candidate.Level (classify .builtin thresholds text hint).top := by
  have hscored := Classification.isScored_of_conclusive hconclusive
  obtain ⟨hsupported, hapart, hcandidate⟩ := second_eq_candidateFor hconclusive hranked
  constructor
  · rintro rfl candidate hmem hlow hhigh hequal
    obtain ⟨hlisted, hitself⟩ := eq_candidateFor_of_mem hint hscored hmem
    have htop : candidate.language ≠ (classify .builtin thresholds text hint).top.language :=
      fun heq => lt_irrefl _ (heq ▸ hlow)
    have hsecond : candidate.language ≠ second.language := fun heq => lt_irrefl _ (heq ▸ hhigh)
    have hbefore := second_ranksBefore hconclusive hranked hlisted htop hsecond
    rw [← hitself] at hbefore
    rw [← hcandidate] at hlevel
    exact ((hequal.trans hlevel).ranksBefore hhigh).asymm hbefore
  · intro hnone
    by_contra hother
    have hbefore := top_ranksBefore hconclusive hsupported hapart
    have hbehind := second_ranksBefore hconclusive hranked ha hne (Ne.symm hother)
    rw [← hcandidate] at hbefore
    obtain ⟨hequal, hlow, hhigh⟩ := hlevel.between hbefore hbehind
    rw [candidateFor_language] at hhigh
    exact hnone second (by rw [hranked]; simp) hlow hhigh hequal

end Candidates

/-! ## Acceptance -/

/-- Whether a language stands first in a ranking, or second with a score within the tolerance of the
first. -/
def IsAccepted (tolerance : Rat) (declared : Language) : List (LanguageFeatures Rat) → Prop
  | first :: second :: _ => declared = first.language ∨
      declared = second.language ∧
        tolerance * first.rawScore - scoreResolution ≤ second.rawScore
  | _ => False

/-- The first of at least two is accepted. -/
lemma IsAccepted.first {tolerance : Rat} {first : LanguageFeatures Rat}
    {rest : List (LanguageFeatures Rat)} (h : rest ≠ []) :
    IsAccepted tolerance first.language (first :: rest) := by
  obtain ⟨second, others, rfl⟩ := List.exists_cons_of_ne_nil h
  exact Or.inl rfl

section Verdicts

variable {thresholds : Thresholds Rat} {text : List Char} {hint : Option String}

/-- A conclusive text is of the languages that its ranking accepts. -/
theorem isMatch_iff_isAccepted
    (hconclusive : (classify .builtin thresholds text hint).inconclusive = none)
    (declared : Language) :
    (Verdict.validate .builtin thresholds declared text hint).isMatch = true ↔
      IsAccepted thresholds.matchTolerance declared
        (ranking (features .builtin thresholds text hint).languages) := by
  have hscored := Classification.isScored_of_conclusive hconclusive
  obtain ⟨second, rest, hranked, hmatch⟩ :=
    (Verdict.decided_validate thresholds declared text hint).conclusive hconclusive
  rw [hmatch]
  rw [classify_of_isScored hscored, rank_ranked] at hranked
  obtain ⟨first, others, hranking, hfirst, hothers⟩ := List.map_eq_cons_iff.mp hranked
  obtain ⟨next, others', rfl, hnext, -⟩ := List.map_eq_cons_iff.mp hothers
  rw [hranking, classify_of_isScored hscored, ← hfirst, ← hnext]
  rfl

/-- A supported language matches a text that is not blank only if the text is conclusive. -/
lemma conclusive_of_isMatch {declared : Language} (hdeclared : declared ∈ Language.supported)
    (hblank : (classify .builtin thresholds text hint).inconclusive ≠ some .emptyInput)
    (h : (Verdict.validate .builtin thresholds declared text hint).isMatch = true) :
    (classify .builtin thresholds text hint).inconclusive = none := by
  have hdecided := Verdict.decided_validate thresholds declared text hint
  have hunknown : declared ≠ .unknown := Language.mem_supported.mp hdeclared
  cases hreason : (classify .builtin thresholds text hint).inconclusive with
  | none => rfl
  | some reason =>
    cases reason with
    | emptyInput => exact absurd hreason hblank
    | binaryInput => exact absurd ((hdecided.binaryInput hreason).mp h) hunknown
    | noEvidence => exact absurd ((hdecided.noEvidence hreason).mp h) hunknown

end Verdicts

end LanguageDetection
