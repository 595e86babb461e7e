import LanguageDetection.Proofs.Pattern.Count
import LanguageDetection.Proofs.Standing

/-!
# C and C++

C and C++ share most of their rules, and calls of the C library speak for both of them.  The pattern
of C names more functions than that of C++, so it is found at least as often
(`Rules.countIn_libraryCall_le`), and it weighs more.  A text without any other marker of C++ has C
before C++ therefore, unless the hint names C++.
-/

namespace LanguageDetection

/-! ## The rules of both languages -/

namespace Rules

/-- C has the core, its own rules and those of the C family. -/
lemma ofLanguage_c : ofLanguage .c = cCore ++ (cOnly ++ cFamily) := by
  simp [ofLanguage, table]

/-- C++ has the core, its own rules and those of the C family. -/
lemma ofLanguage_cpp : ofLanguage .cpp = cCore ++ (cppOnly ++ cFamily) := by
  simp [ofLanguage, table]

variable (text : List Char) (cap : Nat)

/-- The scores differ by the rules that the languages do not share. -/
lemma score_c_sub_score_cpp :
    score (ofLanguage .c) text cap - score (ofLanguage .cpp) text cap =
      score cOnly text cap - score cppOnly text cap := by
  rw [ofLanguage_c, ofLanguage_cpp, score_append, score_append, score_append, score_append]
  ring

/-- The strong hits differ by those of the rules that the languages do not share. -/
lemma strongHits_c_add_eq :
    strongHits (ofLanguage .c) text cap + strongHits cppOnly text cap =
      strongHits (ofLanguage .cpp) text cap + strongHits cOnly text cap := by
  rw [ofLanguage_c, ofLanguage_cpp, strongHits_append, strongHits_append, strongHits_append,
    strongHits_append]
  omega

/-! ## Calls of the C library -/

/-- The rule of C for calls of the C library. -/
def cLibraryCall : Rule := cOnly[0]

/-- The rule of C++ for calls of the C library. -/
def cppLibraryCall : Rule := cppOnly[8]

/-- The characters of the pattern of C. -/
noncomputable def cLibraryCallText : Spelled cLibraryCall.text := by
  apply Spelled.append <;> exact Spelled.literal _

/-- The characters of the pattern of C++. -/
noncomputable def cppLibraryCallText : Spelled cppLibraryCall.text :=
  Spelled.literal _

/-- Whether the first pattern closes with a parenthesis and covers the second one. -/
def coversCall : Except PatternError (Option Pattern) → Except PatternError (Option Pattern) → Bool
  | .ok (some p), .ok (some q) => p.closes '(' && p.covers q
  | _, _ => false

/-- Both matchers of a call that is covered can be read, and the second covers the first. -/
lemma exists_of_coversCall {first second : Except PatternError (Option Pattern)}
    (h : coversCall first second = true) :
    ∃ p q, first = .ok (some p) ∧ second = .ok (some q) ∧ p.closes '(' = true ∧
      p.covers q = true := by
  unfold coversCall at h
  split at h
  · next p q =>
    rw [Bool.and_eq_true] at h
    exact ⟨p, q, rfl, rfl, h⟩
  · exact absurd h Bool.false_ne_true

/-- The pattern of C is that of C++ with more functions, and its matches end at the parenthesis. -/
lemma exists_libraryCall_matcher :
    ∃ p q, cLibraryCall.matcher = .ok (some p) ∧ cppLibraryCall.matcher = .ok (some q) ∧
      p.closes '(' = true ∧ p.covers q = true := by
  refine exists_of_coversCall ?_
  rw [Rule.matcher, Rule.matcher, cLibraryCallText.toList_eq, cppLibraryCallText.toList_eq]
  decide +kernel

/-- Library calls are found at least as often for C as for C++. -/
theorem countIn_libraryCall_le (text : List Char) :
    cppLibraryCall.countIn text ≤ cLibraryCall.countIn text := by
  obtain ⟨p, q, hp, hq, hcloses, hcovers⟩ := exists_libraryCall_matcher
  rw [Rule.countIn_eq hp, Rule.countIn_eq hq]
  exact Pattern.count_le_count (Pattern.consumes_of_closes hcloses)
    (Pattern.endsInOrder_of_closes hcloses) (Pattern.ends_subset_of_covers hcovers) text

/-! ## The rules that are not shared -/

lemma cOnly_pos : ∀ rule ∈ cOnly, 0 < rule.signedWeight := by
  decide

lemma signedWeight_cLibraryCall : cLibraryCall.signedWeight = 7 := rfl

lemma signedWeight_cppLibraryCall : cppLibraryCall.signedWeight = 3 := rfl

lemma markerClass_cppLibraryCall : cppLibraryCall.markerClass = .strong := rfl

/-- Whether the rule for library calls is the only one of C++ alone that may occur. -/
def OnlyLibraryCalls (text : List Char) : Prop :=
  ∀ rule ∈ cppOnly, rule.label ≠ "C standard library call" → ¬ rule.Occurs text

/-- The rule for library calls has its label for itself. -/
lemma exists_cppOnly_eq : ∃ before after, cppOnly = before ++ cppLibraryCall :: after ∧
    ∀ rule ∈ before ++ after, rule.label ≠ "C standard library call" :=
  ⟨cppOnly.take 8, cppOnly.drop 9, rfl, by decide⟩

/-- With no other marker of its own, C++ has what library calls add. -/
lemma score_cppOnly {text : List Char} (h : OnlyLibraryCalls text) (cap : Nat) :
    score cppOnly text cap = 3 * ((min (cppLibraryCall.countIn text) cap : Nat) : Rat) ∧
      strongHits cppOnly text cap = min (cppLibraryCall.countIn text) cap := by
  obtain ⟨before, after, hsplit, hlabel⟩ := exists_cppOnly_eq
  have hothers : ∀ rule ∈ before ++ after, ¬ rule.Occurs text := by
    intro rule hrule
    have hmem : rule ∈ cppOnly := by
      rw [hsplit]
      exact List.perm_middle.mem_iff.mpr (List.mem_cons_of_mem _ hrule)
    exact h rule hmem (hlabel rule hrule)
  have hscore := @score_append_cons _ cap _ _ cppLibraryCall hothers
  have hstrong := @strongHits_append_cons _ cap _ _ cppLibraryCall hothers
  rw [← hsplit, signedWeight_cppLibraryCall] at hscore
  rw [← hsplit, Rule.strongHitsOf, if_pos markerClass_cppLibraryCall] at hstrong
  exact ⟨hscore, hstrong⟩

/-- Library calls alone are not worth more for C++ than for C. -/
lemma score_cppOnly_le {text : List Char} (h : OnlyLibraryCalls text) (cap : Nat) :
    score cppOnly text cap ≤ score cOnly text cap ∧
      strongHits cppOnly text cap ≤ strongHits cOnly text cap := by
  obtain ⟨hscore, hstrong⟩ := score_cppOnly h cap
  have hcount : min (cppLibraryCall.countIn text) cap ≤ min (cLibraryCall.countIn text) cap :=
    min_le_min_right cap (countIn_libraryCall_le text)
  have hmem : cLibraryCall ∈ cOnly := List.mem_cons_self
  have hle : cLibraryCall.signedWeight * ((min (cLibraryCall.countIn text) cap : Nat) : Rat) ≤
      score cOnly text cap := le_score cOnly_pos hmem
  have hcast : ((min (cppLibraryCall.countIn text) cap : Nat) : Rat) ≤
      ((min (cLibraryCall.countIn text) cap : Nat) : Rat) := by exact_mod_cast hcount
  have hnonneg : (0 : Rat) ≤ ((min (cLibraryCall.countIn text) cap : Nat) : Rat) :=
    Nat.cast_nonneg _
  rw [signedWeight_cLibraryCall] at hle
  constructor
  · rw [hscore]
    linarith
  · rw [hstrong]
    exact hcount.trans (le_strongHits hmem rfl)

/-- Without library calls for C there are none for C++. -/
lemma not_occurs_cppOnly {text : List Char} (h : OnlyLibraryCalls text)
    (hc : ∀ rule ∈ cOnly, ¬ rule.Occurs text) : ∀ rule ∈ cppOnly, ¬ rule.Occurs text := by
  obtain ⟨before, after, hsplit, hlabel⟩ := exists_cppOnly_eq
  intro rule hrule
  by_cases heq : rule.label = "C standard library call"
  · rw [hsplit, List.perm_middle.mem_iff, List.mem_cons] at hrule
    rcases hrule with rfl | hother
    · intro hoccurs
      exact hc cLibraryCall List.mem_cons_self
        (lt_of_lt_of_le hoccurs (countIn_libraryCall_le text))
    · exact absurd heq (hlabel rule hother)
  · exact h rule hrule heq

end Rules

/-! ## The two candidates -/

section Candidates

variable {thresholds : Thresholds Rat} {text : List Char} {hint : Option String}

/-- The scores of the candidates differ by the rules that are not shared and by the hint. -/
lemma rawScore_c_sub_rawScore_cpp (thresholds : Thresholds Rat) (text : List Char)
    (hint : Option String) :
    (candidateFor thresholds text hint .c).rawScore -
        (candidateFor thresholds text hint .cpp).rawScore =
      Rules.score Rules.cOnly (Characters.trim text) thresholds.cap -
        Rules.score Rules.cppOnly (Characters.trim text) thresholds.cap +
          (hintBonus hint .c - hintBonus hint .cpp) := by
  rw [candidateFor_rawScore _ _ _ (by decide), candidateFor_rawScore _ _ _ (by decide),
    ← Rules.score_c_sub_score_cpp]
  ring

/-- The strong hits of the candidates differ by those of the rules that are not shared. -/
lemma strongHits_c_add (thresholds : Thresholds Rat) (text : List Char) (hint : Option String) :
    (candidateFor thresholds text hint .c).strongHits +
        Rules.strongHits Rules.cppOnly (Characters.trim text) thresholds.cap =
      (candidateFor thresholds text hint .cpp).strongHits +
        Rules.strongHits Rules.cOnly (Characters.trim text) thresholds.cap := by
  rw [candidateFor_strongHits _ _ _ (by decide), candidateFor_strongHits _ _ _ (by decide),
    Rules.strongHits_c_add_eq]

/-- Without other markers of C++, and unless the hint names it, C comes first. -/
lemma c_outranks_cpp (h : Rules.OnlyLibraryCalls (Characters.trim text))
    (hhint : namedBy hint ≠ some .cpp) :
    (candidateFor thresholds text hint .c).Outranks (candidateFor thresholds text hint .cpp) := by
  have hscore := rawScore_c_sub_rawScore_cpp thresholds text hint
  have hstrong := strongHits_c_add thresholds text hint
  obtain ⟨hle, hle'⟩ := Rules.score_cppOnly_le h thresholds.cap
  have hbonus := hintBonus_nonneg hint .c
  rw [hintBonus_of_ne hhint] at hscore
  rcases lt_or_eq_of_le (show (candidateFor thresholds text hint .cpp).rawScore ≤
      (candidateFor thresholds text hint .c).rawScore by linarith) with hlt | heq
  · exact Or.inl hlt
  · refine Or.inr ⟨heq.symm, ?_⟩
    rcases Nat.lt_or_eq_of_le (show (candidateFor thresholds text hint .cpp).strongHits ≤
        (candidateFor thresholds text hint .c).strongHits by omega) with hlt | heq'
    · exact Or.inl hlt
    · refine Or.inr ⟨heq'.symm, ?_⟩
      rw [candidateFor_language, candidateFor_language]
      decide

/-- Without any marker that is not shared the candidates are level. -/
lemma c_level_cpp (h : Rules.OnlyLibraryCalls (Characters.trim text))
    (hc : ∀ rule ∈ Rules.cOnly, ¬ rule.Occurs (Characters.trim text)) :
    (candidateFor thresholds text none .c).rawScore =
        (candidateFor thresholds text none .cpp).rawScore ∧
      (candidateFor thresholds text none .c).strongHits =
        (candidateFor thresholds text none .cpp).strongHits := by
  have hcpp := Rules.not_occurs_cppOnly h hc
  have hscore := rawScore_c_sub_rawScore_cpp thresholds text none
  have hstrong := strongHits_c_add thresholds text none
  rw [Rules.score_eq_zero hc, Rules.score_eq_zero hcpp, hintBonus_none, hintBonus_none] at hscore
  rw [Rules.strongHits_eq_zero hc, Rules.strongHits_eq_zero hcpp, Nat.add_zero,
    Nat.add_zero] at hstrong
  exact ⟨by linarith, hstrong⟩

end Candidates

/-- Candidates with one score have one confidence. -/
lemma confidence_candidateFor_eq {thresholds : Thresholds Rat} {text : List Char}
    {hint : Option String} {a b : Language}
    (h : (candidateFor thresholds text hint a).rawScore =
      (candidateFor thresholds text hint b).rawScore) :
    (candidateFor thresholds text hint a).confidence =
      (candidateFor thresholds text hint b).confidence := by
  change LanguageFeatures.share _ _ * _ = LanguageFeatures.share _ _ * _
  change LanguageFeatures.rawScore _ = LanguageFeatures.rawScore _ at h
  unfold LanguageFeatures.share
  rw [h]

/-- No identifier lies between those of C and C++. -/
lemma Language.not_between_c_cpp : ∀ other ∈ Language.supported,
    Language.c.id < other.id → ¬ other.id < Language.cpp.id := by
  decide

/-- Whoever comes between level candidates is level with them, and comes between their
identifiers. -/
lemma Candidate.Outranks.id_lt {a b other : Candidate Rat} (hscore : a.rawScore = b.rawScore)
    (hstrong : a.strongHits = b.strongHits) (hbefore : a.Outranks other)
    (hbehind : other.Outranks b) :
    a.language.id < other.language.id ∧ other.language.id < b.language.id := by
  have hle : other.rawScore ≤ a.rawScore := by
    rcases hbefore with hlt | ⟨heq, -⟩ <;> linarith
  have hle' : b.rawScore ≤ other.rawScore := by
    rcases hbehind with hlt | ⟨heq, -⟩ <;> linarith
  have hrest := hbefore.resolve_left (not_lt.mpr (by linarith))
  have hrest' := hbehind.resolve_left (not_lt.mpr (by linarith))
  rcases hrest.2 with hlt | ⟨heq, hid⟩
  · rcases hrest'.2 with hlt' | ⟨heq', -⟩ <;> omega
  · rcases hrest'.2 with hlt' | ⟨-, hid'⟩
    · omega
    · exact ⟨hid, hid'⟩

/-! ## C before C++ -/

/-- How C and C++ compare on a text. -/
structure CBeforeCpp (thresholds : Thresholds Rat) (text : List Char) : Prop where
  /-- Before the hint the scores differ by the rules that the languages do not share. -/
  rawScore_sub : ∃ c cpp,
    (classify .builtin thresholds text none).candidate? .c = some c ∧
    (classify .builtin thresholds text none).candidate? .cpp = some cpp ∧
    c.rawScore - cpp.rawScore =
      Rules.score Rules.cOnly (Characters.trim text) thresholds.cap -
        Rules.score Rules.cppOnly (Characters.trim text) thresholds.cap
  /-- Without other markers of C++ than library calls, C comes first. -/
  c_first : Rules.OnlyLibraryCalls (Characters.trim text) →
    ∀ hint, namedBy hint ≠ some .cpp →
      (classify .builtin thresholds text hint).StandsBefore .c .cpp
  /-- Without markers of C either, the two are level and stand next to each other. -/
  level : Rules.OnlyLibraryCalls (Characters.trim text) →
    (∀ rule ∈ Rules.cOnly, ¬ rule.Occurs (Characters.trim text)) → ∃ c cpp position,
      (classify .builtin thresholds text none).candidate? .c = some c ∧
      (classify .builtin thresholds text none).candidate? .cpp = some cpp ∧
      c.rawScore = cpp.rawScore ∧ c.strongHits = cpp.strongHits ∧
      c.confidence = cpp.confidence ∧
      (classify .builtin thresholds text none).rankOf? .c = some position ∧
      (classify .builtin thresholds text none).rankOf? .cpp = some (position + 1)

/-- Plain C is ranked before C++ on every scored text. -/
theorem cBeforeCpp_classify (thresholds : Thresholds Rat) (text : List Char)
    (hscored : IsScored thresholds text) (hcap : thresholds.maxOccurrencesPerSignature ≤ 10 ^ 9) :
    CBeforeCpp thresholds text := by
  have hcap' : thresholds.cap ≤ 10 ^ 9 := max_le hcap (by norm_num)
  have hc : Language.c ∈ Language.supported := by decide
  have hcpp : Language.cpp ∈ Language.supported := by decide
  refine ⟨?_, ?_, ?_⟩
  · refine ⟨_, _, candidate?_classify none hscored hc, candidate?_classify none hscored hcpp, ?_⟩
    rw [rawScore_c_sub_rawScore_cpp, hintBonus_none, hintBonus_none, sub_zero, add_zero]
  · intro honly hint hhint
    rw [standsBefore_classify_iff hint hscored hcap' hc hcpp (by decide)]
    exact c_outranks_cpp honly hhint
  · intro honly hnone
    obtain ⟨hscore, hstrong⟩ := @c_level_cpp thresholds text honly hnone
    have houtranks : (candidateFor thresholds text none .c).Outranks
        (candidateFor thresholds text none .cpp) := c_outranks_cpp honly (by simp)
    obtain ⟨position, hposition, hposition'⟩ := exists_rankOf?_eq_succ none hscored hcap' hc hcpp
      houtranks fun other hother hbefore hbehind => by
        have hids := Candidate.Outranks.id_lt hscore hstrong hbefore hbehind
        simp only [candidateFor_language] at hids
        exact Language.not_between_c_cpp other hother hids.1 hids.2
    exact ⟨_, _, position, candidate?_classify none hscored hc,
      candidate?_classify none hscored hcpp, hscore, hstrong, confidence_candidateFor_eq hscore,
      hposition, hposition'⟩

/-- A call that both languages know. -/
theorem cBeforeCpp_printf :
    IsScored (Thresholds.default : Thresholds Rat) "printf(1);".toList ∧
      (Thresholds.default : Thresholds Rat).maxOccurrencesPerSignature ≤ 10 ^ 9 ∧
      CBeforeCpp Thresholds.default "printf(1);".toList := by
  have hscored : IsScored (Thresholds.default : Thresholds Rat) "printf(1);".toList :=
    ⟨by decide +kernel, by decide +kernel⟩
  have hcap : (Thresholds.default : Thresholds Rat).maxOccurrencesPerSignature ≤ 10 ^ 9 := by
    decide
  exact ⟨hscored, hcap, cBeforeCpp_classify _ _ hscored hcap⟩

end LanguageDetection
