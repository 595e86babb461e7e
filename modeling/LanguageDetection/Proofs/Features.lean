import LanguageDetection.Classification
import LanguageDetection.Proofs.Catalog

/-!
# Features

The features that a text is ranked by, and how they account for the scores.
-/

namespace LanguageDetection

/-!
## The features a text is ranked by

Whatever the hint, a text is ranked by the features of the entries of the catalog, one by one and
in order (`features_languages`); with the built-in catalog these are the features of the supported
languages.  Nothing here depends on the kind of numbers that scores are made of.
-/

section Generic

variable {α : Type} [Scalar α]

namespace LanguageFeatures

/-- The features of one entry, a file extension being credited if it is given. -/
def ofHint (text : List Char) (cap : Nat) (hint : Option String) (entry : CatalogEntry) :
    LanguageFeatures α :=
  match hint with
  | some extension => (ofEntry text cap entry).creditExtension extension entry
  | none => ofEntry text cap entry

/-- The features with a signature for a file extension credited, which is one more hit. -/
def credit (signature : Signature) (found : LanguageFeatures α) : LanguageFeatures α :=
  { found with
    rawScore := found.rawScore + Scalar.ofRat signature.signedWeight
    hits := found.hits ++ [Hit.ofExtension signature] }

/-- A matching extension is credited. -/
lemma creditExtension_of_find? {extension : String} {entry : CatalogEntry} {signature : Signature}
    (h : entry.signatures.find? (·.matchesExtension extension) = some signature)
    (found : LanguageFeatures α) :
    found.creditExtension extension entry = found.credit signature := by
  unfold creditExtension
  rw [h]
  rfl

/-- Without a matching extension nothing is credited. -/
lemma creditExtension_of_find?_eq_none {extension : String} {entry : CatalogEntry}
    (h : entry.signatures.find? (·.matchesExtension extension) = none)
    (found : LanguageFeatures α) : found.creditExtension extension entry = found := by
  unfold creditExtension
  rw [h]

/-- A credit leaves the language as it is. -/
@[simp] lemma creditExtension_language (extension : String) (found : LanguageFeatures α)
    (entry : CatalogEntry) :
    (found.creditExtension extension entry).language = found.language := by
  unfold creditExtension
  split <;> rfl

/-- The features of an entry are those of its language, whatever the hint. -/
@[simp] lemma ofHint_language (text : List Char) (cap : Nat) (hint : Option String)
    (entry : CatalogEntry) :
    (ofHint text cap hint entry : LanguageFeatures α).language = entry.language := by
  cases hint with
  | none => rfl
  | some extension => exact creditExtension_language extension _ entry

end LanguageFeatures

attribute [ext] Features

/-- The number of times a signature may count. -/
def Thresholds.cap (thresholds : Thresholds α) : Nat :=
  max thresholds.maxOccurrencesPerSignature 1

omit [Scalar α] in
lemma Thresholds.one_le_cap (thresholds : Thresholds α) : 1 ≤ thresholds.cap :=
  le_max_right _ 1

/-- A text is ranked by the features of the entries, one by one. -/
lemma features_languages (catalog : Catalog) (thresholds : Thresholds α) (text : List Char)
    (hint : Option String) :
    (features catalog thresholds text hint).languages =
      catalog.entries.map (.ofHint (Characters.trim text) thresholds.cap hint) := by
  cases hint with
  | none => rfl
  | some extension =>
    change List.zipWith (LanguageFeatures.creditExtension extension)
      (catalog.entries.map (.ofEntry (Characters.trim text) thresholds.cap)) catalog.entries = _
    rw [List.zipWith_map_left, List.zipWith_self]
    rfl

/-- The tokens of a text are those of what is left of it without the blanks at its ends. -/
lemma features_tokenCount (catalog : Catalog) (thresholds : Thresholds α) (text : List Char)
    (hint : Option String) :
    (features catalog thresholds text hint).tokenCount = tokenCount (Characters.trim text) := by
  cases hint <;> rfl

/-- The features that the built-in catalog gives, language by language. -/
lemma builtin_features_languages (thresholds : Thresholds α) (text : List Char)
    (hint : Option String) :
    (features .builtin thresholds text hint).languages = Language.supported.map fun language =>
      .ofHint (Characters.trim text) thresholds.cap hint (.builtin language) := by
  rw [features_languages, Catalog.builtin_entries, List.map_map]
  rfl

/-- Each supported language has its features, once and in order. -/
lemma builtin_features_map_language (thresholds : Thresholds α) (text : List Char)
    (hint : Option String) :
    (features .builtin thresholds text hint).languages.map (·.language) = Language.supported := by
  rw [builtin_features_languages, List.map_map]
  conv_rhs => rw [← List.map_id Language.supported]
  exact List.map_congr_left fun language _ => LanguageFeatures.ofHint_language _ _ _ _

/-- A text has features of some language. -/
lemma builtin_features_languages_ne_nil (thresholds : Thresholds α) (text : List Char)
    (hint : Option String) : (features .builtin thresholds text hint).languages ≠ [] := by
  intro hnil
  have hmap := builtin_features_map_language thresholds text hint
  rw [hnil] at hmap
  cases hmap

end Generic

/-!
## Scores

The features of a supported language account for its score: the score is the sum of what the hits
contribute, and each contribution is a half-integer that the cap bounds
(`LanguageFeatures.Accounted`).  A file extension that is credited is one more hit.

The key that the ranking compares is the score in units of a millionth, rounded and kept within 64
bits.  It always follows the order of the scores, and for accounted features below a cap of a
thousand million it is exact (`LanguageFeatures.Accounted.scoreKey_eq`).
-/

lemma scoreResolution_pos : (0 : Rat) < scoreResolution := by
  norm_num [scoreResolution]

/-! ### Contributions -/

namespace Signature

/-- What speaks against a language takes its weight off the score. -/
lemma signedWeight_of_eq {signature : Signature} (h : signature.markerClass = .disqualifier) :
    signature.signedWeight = -signature.weight := by
  unfold signedWeight
  rw [h]

/-- All else adds its weight. -/
lemma signedWeight_of_ne {signature : Signature} (h : signature.markerClass ≠ .disqualifier) :
    signature.signedWeight = signature.weight := by
  unfold signedWeight
  split
  · next hclass => exact absurd hclass h
  · rfl
  · rfl

/-- The sign of a weight says whether the marker speaks for its language. -/
lemma signedWeight_eq (signature : Signature) :
    signature.signedWeight = signature.weight ∨ signature.signedWeight = -signature.weight := by
  by_cases h : signature.markerClass = .disqualifier
  · exact Or.inr (signedWeight_of_eq h)
  · exact Or.inl (signedWeight_of_ne h)

/-- The sign of a weight does not make it less of a half-integer. -/
lemma isHalfInteger_signedWeight {signature : Signature} (h : IsHalfInteger signature.weight) :
    IsHalfInteger signature.signedWeight := by
  rcases signature.signedWeight_eq with hsign | hsign <;> rw [hsign]
  · exact h
  · exact h.neg

/-- The sign of a weight does not change its size. -/
lemma abs_signedWeight (signature : Signature) :
    |signature.signedWeight| = |signature.weight| := by
  rcases signature.signedWeight_eq with hsign | hsign <;> rw [hsign]
  exact abs_neg _

end Signature

/-! ### Accounts -/

namespace LanguageFeatures

/-- Features that account for their score, each signature counting at most `cap` times. -/
structure Accounted (cap : Nat) (found : LanguageFeatures Rat) : Prop where
  rawScore_eq : found.rawScore = (found.hits.map (·.contribution)).sum
  isHalfInteger : ∀ hit ∈ found.hits, IsHalfInteger hit.contribution
  contribution_le : ∀ hit ∈ found.hits, |hit.contribution| ≤ 10 * cap
  length_le : found.hits.length ≤ 60

/-- A score that is added up from the left is the sum of the contributions. -/
lemma foldl_contribution (hits : List (Hit Rat)) (score : Rat) :
    hits.foldl (fun score hit => score + hit.contribution) score =
      score + (hits.map (·.contribution)).sum := by
  induction hits generalizing score with
  | nil => simp
  | cons hit hits ih =>
    rw [List.foldl_cons, ih, List.map_cons, List.sum_cons]
    ring

/-- A hit of an entry is a signature of it with its count, which is positive and capped. -/
lemma exists_of_mem_hits_ofEntry {α : Type} [Scalar α] {text : List Char} {cap : Nat}
    {entry : CatalogEntry} {hit : Hit α} (h : hit ∈ (ofEntry text cap entry).hits) :
    ∃ signature ∈ entry.signatures, hit = .ofCount signature (min (signature.countIn text) cap) ∧
      0 < min (signature.countIn text) cap := by
  obtain ⟨signature, hmem, hhit⟩ := List.mem_filterMap.mp h
  dsimp only at hhit
  split at hhit
  · next hpos =>
    exact ⟨signature, hmem, (Option.some.inj hhit).symm, hpos⟩
  · cases hhit

/-- The features of a supported language account for its score. -/
theorem accounted_ofEntry {language : Language} (h : language ∈ Language.supported)
    (text : List Char) (cap : Nat) : (ofEntry text cap (.builtin language)).Accounted cap where
  rawScore_eq := by
    change List.foldl _ _ _ = _
    rw [foldl_contribution, Scalar.rat_ofNat, Nat.cast_zero, zero_add]
    rfl
  isHalfInteger := by
    intro hit hhit
    obtain ⟨signature, hmem, rfl, -⟩ := exists_of_mem_hits_ofEntry hhit
    have hweight := (CatalogEntry.weight_of_mem_builtin hmem).1
    exact (Signature.isHalfInteger_signedWeight hweight).mul_natCast _
  contribution_le := by
    intro hit hhit
    obtain ⟨signature, hmem, rfl, -⟩ := exists_of_mem_hits_ofEntry hhit
    obtain ⟨-, hpos, hle⟩ := CatalogEntry.weight_of_mem_builtin hmem
    have hcount : ((min (signature.countIn text) cap : Nat) : Rat) ≤ cap := by
      exact_mod_cast min_le_right _ cap
    change |signature.signedWeight * ((min (signature.countIn text) cap : Nat) : Rat)| ≤ _
    rw [abs_mul, Signature.abs_signedWeight, abs_of_pos hpos, abs_of_nonneg (Nat.cast_nonneg _)]
    exact mul_le_mul hle hcount (Nat.cast_nonneg _) (by norm_num)
  length_le := by
    have hsignatures := CatalogEntry.length_builtin_signatures h
    exact ((List.length_filterMap_le _ _).trans hsignatures).trans (by norm_num)

/-- A credited signature is accounted for like any other hit. -/
lemma Accounted.credit {cap : Nat} {found : LanguageFeatures Rat} (h : found.Accounted cap)
    (hlength : found.hits.length < 60) {signature : Signature}
    (hhalf : IsHalfInteger signature.weight) (hweight : |signature.weight| ≤ 10 * cap) :
    (found.credit signature).Accounted cap where
  rawScore_eq := by
    simp [LanguageFeatures.credit, h.rawScore_eq, Hit.ofExtension]
  isHalfInteger := by
    intro hit hhit
    rcases List.mem_append.mp hhit with hhit | hhit
    · exact h.isHalfInteger hit hhit
    · rw [List.mem_singleton.mp hhit]
      exact Signature.isHalfInteger_signedWeight hhalf
  contribution_le := by
    intro hit hhit
    rcases List.mem_append.mp hhit with hhit | hhit
    · exact h.contribution_le hit hhit
    · rw [List.mem_singleton.mp hhit]
      change |signature.signedWeight| ≤ 10 * cap
      rw [Signature.abs_signedWeight]
      exact hweight
  length_le := by
    change (found.hits ++ [_]).length ≤ 60
    rw [List.length_append, List.length_singleton]
    omega

/-- The features that the built-in catalog gives a text account for their scores. -/
theorem accounted_ofHint {language : Language} (h : language ∈ Language.supported)
    (text : List Char) {cap : Nat} (hcap : 1 ≤ cap) (hint : Option String) :
    (ofHint text cap hint (.builtin language)).Accounted cap := by
  cases hint with
  | none => exact accounted_ofEntry h text cap
  | some extension =>
    change (creditExtension extension _ _).Accounted cap
    cases hfind : (CatalogEntry.builtin language).signatures.find?
        (·.matchesExtension extension) with
    | none =>
      rw [creditExtension_of_find?_eq_none hfind]
      exact accounted_ofEntry h text cap
    | some signature =>
      rw [creditExtension_of_find? hfind]
      have hmem := List.mem_of_find?_eq_some hfind
      obtain ⟨hhalf, hpos, hle⟩ := CatalogEntry.weight_of_mem_builtin hmem
      have hentry := accounted_ofEntry h text cap
      have hlength :
          (ofEntry text cap (.builtin language) : LanguageFeatures Rat).hits.length ≤ 59 :=
        (List.length_filterMap_le _ _).trans (CatalogEntry.length_builtin_signatures h)
      have hweight : |signature.weight| ≤ 10 * cap := by
        have hcap' : (1 : Rat) ≤ cap := by exact_mod_cast hcap
        rw [abs_of_pos hpos]
        linarith
      exact hentry.credit (Nat.lt_succ_of_le hlength) hhalf hweight

namespace Accounted

variable {cap : Nat} {found : LanguageFeatures Rat}

/-- A score is a half-integer. -/
theorem isHalfInteger_rawScore (h : found.Accounted cap) : IsHalfInteger found.rawScore := by
  rw [h.rawScore_eq]
  refine IsHalfInteger.sum fun r hr => ?_
  obtain ⟨hit, hhit, rfl⟩ := List.mem_map.mp hr
  exact h.isHalfInteger hit hhit

/-- A score is bounded by the cap. -/
theorem abs_rawScore_le (h : found.Accounted cap) : |found.rawScore| ≤ 600 * cap := by
  have hsum : |(found.hits.map (·.contribution)).sum| ≤
      (found.hits.map fun _ => (10 * cap : Rat)).sum := by
    have habs := h.contribution_le
    generalize found.hits = hits at habs
    induction hits with
    | nil => simp
    | cons hit hits ih =>
      rw [List.map_cons, List.map_cons, List.sum_cons, List.sum_cons]
      exact (abs_add_le _ _).trans
        (add_le_add (habs hit (by simp)) (ih fun hit hhit => habs hit (by simp [hhit])))
  rw [List.map_const', List.sum_replicate, nsmul_eq_mul] at hsum
  have hlength : (found.hits.length : Rat) ≤ 60 := by exact_mod_cast h.length_le
  have hcap : (0 : Rat) ≤ cap := Nat.cast_nonneg cap
  rw [h.rawScore_eq]
  nlinarith

/-- A score above zero has a hit that speaks for the language. -/
theorem exists_pos_of_rawScore_pos (h : found.Accounted cap) (hpos : 0 < found.rawScore) :
    ∃ hit ∈ found.hits, 0 < hit.contribution := by
  rw [h.rawScore_eq] at hpos
  exact List.exists_lt_of_sum_lt (fun _ => (0 : Rat)) Hit.contribution (by simpa using hpos)

end Accounted

/-! ### Keys -/

/-- Keys follow the order of the scores. -/
theorem scoreKey_mono {a b : LanguageFeatures Rat} (h : a.rawScore ≤ b.rawScore) :
    a.scoreKey ≤ b.scoreKey :=
  rat_round64_mono (div_le_div_of_nonneg_right h (le_of_lt scoreResolution_pos))

/-- The key of an accounted score is the score in millionths, without rounding. -/
theorem Accounted.scoreKey_eq {cap : Nat} {found : LanguageFeatures Rat} (h : found.Accounted cap)
    (hcap : cap ≤ 10 ^ 9) : (found.scoreKey : Rat) = 1000000 * found.rawScore := by
  obtain ⟨k, hk⟩ := h.isHalfInteger_rawScore
  have hmillionths : found.rawScore / scoreResolution = ((500000 * k : Int) : Rat) := by
    rw [hk]
    push_cast
    norm_num [scoreResolution]
    ring
  have hbound : |(k : Rat)| ≤ 1200 * 10 ^ 9 := by
    have hcap' : (cap : Rat) ≤ 10 ^ 9 := by exact_mod_cast hcap
    have hscore := h.abs_rawScore_le
    rw [hk, abs_div, abs_two] at hscore
    linarith
  have hbound' : |k| ≤ 1200 * 10 ^ 9 := by exact_mod_cast hbound
  have hkey : found.scoreKey = 500000 * k := by
    unfold scoreKey
    rw [hmillionths]
    rw [abs_le] at hbound'
    exact rat_round64_intCast (by unfold leastInt64; omega) (by unfold greatestInt64; omega)
  rw [hkey, hk]
  push_cast
  ring

/-- The keys are in the order of the scores. -/
theorem Accounted.scoreKey_lt_iff {cap : Nat} {a b : LanguageFeatures Rat} (ha : a.Accounted cap)
    (hb : b.Accounted cap) (hcap : cap ≤ 10 ^ 9) :
    a.scoreKey < b.scoreKey ↔ a.rawScore < b.rawScore := by
  have hcast : a.scoreKey < b.scoreKey ↔ (a.scoreKey : Rat) < b.scoreKey := Int.cast_lt.symm
  rw [hcast, ha.scoreKey_eq hcap, hb.scoreKey_eq hcap]
  constructor <;> intro h <;> linarith

/-- No two scores share a key. -/
theorem Accounted.scoreKey_eq_iff {cap : Nat} {a b : LanguageFeatures Rat} (ha : a.Accounted cap)
    (hb : b.Accounted cap) (hcap : cap ≤ 10 ^ 9) :
    a.scoreKey = b.scoreKey ↔ a.rawScore = b.rawScore := by
  have hab := ha.scoreKey_lt_iff hb hcap
  have hba := hb.scoreKey_lt_iff ha hcap
  constructor <;> intro h
  · exact le_antisymm (not_lt.mp fun hlt => absurd (hba.mpr hlt) (by omega))
      (not_lt.mp fun hlt => absurd (hab.mpr hlt) (by omega))
  · exact le_antisymm (not_lt.mp fun hlt => absurd (hba.mp hlt) (by linarith))
      (not_lt.mp fun hlt => absurd (hab.mp hlt) (by linarith))

/-- A score above zero has a key above zero, and no other score has. -/
theorem Accounted.scoreKey_pos_iff {cap : Nat} {found : LanguageFeatures Rat}
    (h : found.Accounted cap) : 0 < found.scoreKey ↔ 0 < found.rawScore := by
  constructor
  · intro hkey
    by_contra hscore
    have hle : found.scoreKey ≤ Scalar.round64 (0 : Rat) := by
      refine rat_round64_mono ?_
      exact div_nonpos_of_nonpos_of_nonneg (not_lt.mp hscore) (le_of_lt scoreResolution_pos)
    have hzero : Scalar.round64 (0 : Rat) = 0 := by decide +kernel
    omega
  · intro hscore
    have hhalf := h.isHalfInteger_rawScore.half_le hscore
    have hle : Scalar.round64 (500000 : Rat) ≤ found.scoreKey := by
      refine rat_round64_mono ?_
      norm_num [scoreResolution]
      linarith
    have hvalue : Scalar.round64 (500000 : Rat) = 500000 := by decide +kernel
    omega

end LanguageFeatures

/-! ### The features of a text -/

/-- The features that the built-in catalog gives a text account for their scores. -/
theorem accounted_of_mem_features {thresholds : Thresholds Rat} {text : List Char}
    {hint : Option String} {found : LanguageFeatures Rat}
    (h : found ∈ (features .builtin thresholds text hint).languages) :
    found.Accounted thresholds.cap := by
  rw [builtin_features_languages] at h
  obtain ⟨language, hlanguage, rfl⟩ := List.mem_map.mp h
  exact LanguageFeatures.accounted_ofHint hlanguage _ thresholds.one_le_cap hint

/-- The sum of the positive scores, as a sum. -/
lemma positiveTotal_eq_sum (found : Features Rat) :
    found.positiveTotal = (found.languages.map fun l => max l.rawScore 0).sum := by
  have hfold : ∀ (languages : List (LanguageFeatures Rat)) (total : Rat),
      languages.foldl (fun total l => total + Scalar.max l.rawScore (Scalar.ofNat 0)) total =
        total + (languages.map fun l => max l.rawScore 0).sum := by
    intro languages
    induction languages with
    | nil => simp
    | cons l languages ih =>
      intro total
      rw [List.foldl_cons, ih, List.map_cons, List.sum_cons, Scalar.rat_max, Scalar.rat_ofNat,
        Nat.cast_zero, add_assoc]
  unfold Features.positiveTotal
  rw [hfold, Scalar.rat_ofNat, Nat.cast_zero, zero_add]

end LanguageDetection
