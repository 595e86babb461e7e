import Mathlib.Algebra.BigOperators.Ring.List
import LanguageDetection.Proofs.Explanation
import LanguageDetection.Proofs.MarkerCount
import LanguageDetection.Proofs.Pattern.Spans
import LanguageDetection.Proofs.Prose

/-!
# Scores and the length of a text

Every rule of the catalog needs a visible character, so none of them matches the empty text: what a
signature counts are parts of the text that are not empty and do not overlap
(`Signature.CountsParts`).

How often a signature counts is thus bounded by the length of the text as well as by the cap, and
with the weights of a language this bounds its score from both sides (`ConsumptionLaw`).
-/

namespace LanguageDetection

/-! ## Counts -/

/-- A rule that is not about a file extension is found by a pattern. -/
lemma Rule.Sound.exists_matcher_eq {rule : Rule} (h : rule.Sound) :
    ∃ pattern, rule.matcher = .ok (some pattern) := by
  obtain ⟨matcher, hmatcher⟩ := h.readable
  cases matcher with
  | some pattern => exact ⟨pattern, hmatcher⟩
  | none =>
    have hkind := h.kind_ne
    unfold Rule.matcher at hmatcher
    cases hcase : rule.kind with
    | extension => exact absurd hcase hkind
    | keyword | operator =>
      rw [hcase] at hmatcher
      cases hmatcher
    | comment | pattern =>
      rw [hcase] at hmatcher
      unfold MarkerKind.matcher at hmatcher
      cases hread : Pattern.read rule.text.toList <;> rw [hread] at hmatcher <;> cases hmatcher

/-- A signature that counts the parts of a text that its pattern matches, none of which is empty. -/
structure Signature.CountsParts (signature : Signature) (pattern : Pattern) : Prop where
  matcher_eq : signature.matcher = some pattern
  /-- No match is empty, wherever it begins. -/
  consumes : pattern.Consumes
  countIn_eq (text : List Char) : signature.countIn text = (pattern.spans text).length
  length_pos (text : List Char) : ∀ span ∈ pattern.spans text, 0 < span.length
  stop_le_length (text : List Char) : ∀ span ∈ pattern.spans text, span.stop ≤ text.length
  pairwise (text : List Char) : (pattern.spans text).Pairwise fun a b => a.stop ≤ b.start

namespace CatalogEntry

variable {language : Language} {signature : Signature}
  (hmem : signature ∈ (builtin language).signatures)

include hmem

/-- What is not a file extension is found by a pattern that needs a visible character. -/
lemma exists_matcher_eq (hkind : signature.kind ≠ .extension) :
    ∃ pattern, signature.matcher = some pattern ∧ pattern.needsVisible = true := by
  obtain ⟨rule, hrule, rfl⟩ := exists_rule_of_kind_ne hmem hkind
  obtain ⟨pattern, hmatcher⟩ := (Rules.sound_of_mem hrule).exists_matcher_eq
  have hvisible := Rules.needsVisible_of_mem hrule
  rw [hmatcher] at hvisible
  refine ⟨pattern, ?_, hvisible⟩
  change rule.matcher.toOption.join = some pattern
  rw [hmatcher]
  rfl

/-- Every signature of the catalog that is not an extension counts parts of the text. -/
lemma exists_countsParts (hkind : signature.kind ≠ .extension) :
    ∃ pattern, signature.CountsParts pattern := by
  obtain ⟨pattern, hmatcher, hvisible⟩ := exists_matcher_eq hmem hkind
  have hconsumes := Pattern.consumes_of_needsVisible hvisible
  refine ⟨pattern, ?_⟩
  exact {
    matcher_eq := hmatcher
    consumes := hconsumes
    countIn_eq := by
      intro text
      unfold Signature.countIn
      rw [hmatcher]
      exact (hconsumes.length_spans text).symm
    length_pos := fun _ _ hspan => hconsumes.length_pos hspan
    stop_le_length := fun _ _ hspan => Pattern.stop_le_length hspan
    pairwise := pattern.spans_pairwise }

lemma countIn_le_length (text : List Char) : signature.countIn text ≤ text.length :=
  (countIn_le hmem text).trans List.countP_le_length

end CatalogEntry

/-! ## Scores -/

namespace CatalogEntry

/-- The weights of the disqualifiers of an entry, added up. -/
def weightAgainst (entry : CatalogEntry) : Rat :=
  ((entry.signatures.filter (·.markerClass = .disqualifier)).map (·.weight)).sum

/-- The weights of the other signatures of an entry that can occur in a text, added up. -/
def weightFor (entry : CatalogEntry) : Rat :=
  ((entry.signatures.filter fun signature =>
    signature.markerClass ≠ .disqualifier && signature.kind ≠ .extension).map (·.weight)).sum

section Bound

variable {language : Language} {signature : Signature} {text : List Char} {cap bound : Nat}

/-- A disqualifier takes its weight off the score as often as it counts, and nothing else does. -/
lemma neg_le_contributionIn (hmem : signature ∈ (builtin language).signatures)
    (hbound : min (signature.countIn text) cap ≤ bound) :
    -((if signature.markerClass = .disqualifier then signature.weight else 0) * bound) ≤
      signature.contributionIn text cap := by
  have hweight := le_of_lt (weight_of_mem_builtin hmem).2.1
  change _ ≤ signature.signedWeight * ((min (signature.countIn text) cap : Nat) : Rat)
  by_cases hclass : signature.markerClass = .disqualifier
  · rw [if_pos hclass, Signature.signedWeight_of_eq hclass, neg_mul]
    apply neg_le_neg
    exact mul_le_mul_of_nonneg_left (by exact_mod_cast hbound) hweight
  · rw [if_neg hclass, Signature.signedWeight_of_ne hclass, zero_mul, neg_zero]
    exact mul_nonneg hweight (Nat.cast_nonneg _)

/-- Any other signature adds its weight as often as it counts, unless it is a file extension. -/
lemma contributionIn_le (hmem : signature ∈ (builtin language).signatures)
    (hbound : min (signature.countIn text) cap ≤ bound) :
    signature.contributionIn text cap ≤
      (if signature.markerClass ≠ .disqualifier && signature.kind ≠ .extension then
        signature.weight else 0) * bound := by
  have hweight := le_of_lt (weight_of_mem_builtin hmem).2.1
  change signature.signedWeight * ((min (signature.countIn text) cap : Nat) : Rat) ≤ _
  by_cases hclass : signature.markerClass = .disqualifier
  · rw [if_neg (by simp [hclass]), Signature.signedWeight_of_eq hclass, neg_mul, zero_mul]
    apply neg_nonpos_of_nonneg
    exact mul_nonneg hweight (Nat.cast_nonneg _)
  · rw [Signature.signedWeight_of_ne hclass]
    by_cases hkind : signature.kind = .extension
    · rw [(spec_of_kind_eq_extension hmem hkind).2.2 text]
      simp [hkind]
    · rw [if_pos (by simp [hclass, hkind])]
      exact mul_le_mul_of_nonneg_left (by exact_mod_cast hbound) hweight

end Bound

end CatalogEntry

namespace LanguageFeatures

variable {language : Language} (h : language ∈ Language.supported) (text : List Char) (cap : Nat)

include h

/-- The score of a language is what its signatures contribute. -/
lemma rawScore_ofEntry_eq_sum :
    (ofEntry text cap (.builtin language)).rawScore =
      ((CatalogEntry.builtin language).signatures.map (·.contributionIn text cap)).sum :=
  rawScore_ofHint_eq_sum h text cap Option.none

/-- A score does not fall below what all disqualifiers take off it. -/
theorem neg_le_rawScore_ofEntry {bound : Nat}
    (hbound : ∀ signature ∈ (CatalogEntry.builtin language).signatures,
      min (signature.countIn text) cap ≤ bound) :
    -((CatalogEntry.builtin language).weightAgainst * bound) ≤
      (ofEntry text cap (.builtin language) : LanguageFeatures Rat).rawScore := by
  rw [rawScore_ofEntry_eq_sum h, CatalogEntry.weightAgainst, sum_map_filter, ← mul_neg,
    ← List.sum_map_mul_right]
  apply List.sum_le_sum
  intro signature hmem
  rw [mul_neg]
  simpa using CatalogEntry.neg_le_contributionIn hmem (hbound signature hmem)

/-- A score does not rise above what all other signatures add to it. -/
theorem rawScore_ofEntry_le {bound : Nat}
    (hbound : ∀ signature ∈ (CatalogEntry.builtin language).signatures,
      min (signature.countIn text) cap ≤ bound) :
    (ofEntry text cap (.builtin language) : LanguageFeatures Rat).rawScore ≤
      (CatalogEntry.builtin language).weightFor * bound := by
  rw [rawScore_ofEntry_eq_sum h, CatalogEntry.weightFor, sum_map_filter,
    ← List.sum_map_mul_right]
  apply List.sum_le_sum
  intro signature hmem
  exact CatalogEntry.contributionIn_le hmem (hbound signature hmem)

end LanguageFeatures

/-! ## The law -/

/-- How the length of a text bounds what is found in it for a language, and against it. -/
structure CatalogEntry.ConsumptionLaw (entry : CatalogEntry) : Prop where
  exists_countsParts : ∀ signature ∈ entry.signatures, signature.kind ≠ .extension →
    ∃ pattern, signature.CountsParts pattern
  countIn_le_countP : ∀ signature ∈ entry.signatures, ∀ text : List Char,
    signature.countIn text ≤ text.countP isVisibleAscii
  countIn_le_length : ∀ signature ∈ entry.signatures, ∀ text : List Char,
    signature.countIn text ≤ text.length
  countIn_nil : ∀ signature ∈ entry.signatures, signature.countIn [] = 0
  /-- Before a hint, the score lies between the weights of both sides, each taken as often as the
  cap and the length of the text allow. -/
  rawScore_mem : ∀ (text : List Char) (cap : Nat),
    -(entry.weightAgainst * (min cap text.length : Nat)) ≤
        (LanguageFeatures.ofEntry text cap entry : LanguageFeatures Rat).rawScore ∧
      (LanguageFeatures.ofEntry text cap entry : LanguageFeatures Rat).rawScore ≤
        entry.weightFor * (min cap text.length : Nat)

/-- The law holds of all entries of the built-in catalog. -/
theorem consumptionLaw_builtin {entry : CatalogEntry} (hentry : entry ∈ Catalog.builtin.entries) :
    entry.ConsumptionLaw := by
  obtain ⟨language, hsupported, rfl⟩ := Catalog.mem_builtin_entries.mp hentry
  exact {
    exists_countsParts := fun _ hmem hkind => CatalogEntry.exists_countsParts hmem hkind
    countIn_le_countP := fun _ hmem text => CatalogEntry.countIn_le hmem text
    countIn_le_length := fun _ hmem text => CatalogEntry.countIn_le_length hmem text
    countIn_nil := fun _ hmem => Nat.le_zero.mp (CatalogEntry.countIn_le_length hmem [])
    rawScore_mem := by
      intro text cap
      have hbound : ∀ signature ∈ (CatalogEntry.builtin language).signatures,
          min (signature.countIn text) cap ≤ min cap text.length := by
        intro signature hmem
        have hlength := CatalogEntry.countIn_le_length hmem text
        omega
      exact ⟨LanguageFeatures.neg_le_rawScore_ofEntry hsupported text cap hbound,
        LanguageFeatures.rawScore_ofEntry_le hsupported text cap hbound⟩ }

/-- The semicolon, as it speaks for Java. -/
def javaSemicolon : Signature := Rule.signature .java Rules.cFamily[1]

/-- In a text of semicolons each character counts for Java. -/
theorem consumptionLaw_semicolons :
    CatalogEntry.builtin .java ∈ Catalog.builtin.entries ∧
      (CatalogEntry.builtin .java).ConsumptionLaw ∧
      javaSemicolon ∈ (CatalogEntry.builtin .java).signatures ∧
      javaSemicolon.countIn ";;;".toList = ";;;".toList.length := by
  have hrule : Rules.cFamily[1] ∈ Rules.ofLanguage .java := by
    change _ ∈ Rules.java ++ Rules.cFamily
    exact List.mem_append_right _ (List.getElem_mem _)
  have hmem := CatalogEntry.mem_builtin_signatures.mpr (Or.inl ⟨_, hrule, rfl⟩)
  have hentry := Catalog.mem_builtin_entries.mpr ⟨Language.java, by decide, rfl⟩
  exact ⟨hentry, consumptionLaw_builtin hentry, hmem, by decide +kernel⟩

end LanguageDetection
