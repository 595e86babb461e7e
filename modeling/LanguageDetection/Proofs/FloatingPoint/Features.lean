import LanguageDetection.Proofs.Features
import LanguageDetection.Proofs.FloatingPoint.Value
import LanguageDetection.Proofs.Ranking

/-!
# The scores that run

The features of a text and the keys that they are ranked by, as the program finds them and in exact
arithmetic.
-/

namespace LanguageDetection

/-!
## Features

The features that the program finds in a text are those that exact arithmetic finds
(`agree_ofHint`): the same signatures as often, with contributions and scores that stand for the
exact ones.  Nothing is rounded in adding them up, as long as a signature counts at most a thousand
million times, since the sums are half-integers of less than 52 digits.
-/

open FloatingPoint

/-! ### Sums -/

namespace FloatingPoint

variable {x y : Float} {r s bound : ℚ}

/-- A sum of half-integers that is added up from the left is exact. -/
theorem StandsFor.foldl_add {xs : List Float} {rs : List ℚ} (h : List.Forall₂ StandsFor xs rs)
    (hx : StandsFor x r) (hr : IsHalfInteger r) (hhalf : ∀ s ∈ rs, IsHalfInteger s)
    (hle : ∀ s ∈ rs, |s| ≤ bound) (htotal : |r| + rs.length * bound ≤ 2 ^ 51) :
    StandsFor (xs.foldl (· + ·) x) (r + rs.sum) := by
  induction h generalizing x r with
  | nil => simpa using hx
  | @cons y s ys rs hy _ ih =>
    rw [List.forall_mem_cons] at hhalf hle
    rw [List.length_cons] at htotal
    push_cast at htotal
    have hsum : |r + s| ≤ |r| + bound := (abs_add_le r s).trans (by linarith [hle.1])
    have hrest : (0 : ℚ) ≤ rs.length * bound :=
      mul_nonneg (Nat.cast_nonneg _) ((abs_nonneg s).trans hle.1)
    rw [List.foldl_cons, List.sum_cons, ← add_assoc]
    refine ih (hx.add_half hy (hr.add hhalf.1) (by linarith)) (hr.add hhalf.1) hhalf.2 hle.2 ?_
    linarith

end FloatingPoint

/-! ### Weights -/

namespace IsHalfInteger

variable {r : ℚ}

/-- A half-integer has no denominator but one and two. -/
lemma den_le (h : IsHalfInteger r) : r.den ≤ 2 := by
  obtain ⟨k, rfl⟩ := h
  have hdvd : (((k : ℚ) / (2 : ℤ)).den : ℤ) ∣ 2 := by
    rw [← Rat.divInt_eq_div]
    exact Rat.den_dvd k 2
  exact Nat.le_of_dvd two_pos (by exact_mod_cast hdvd)

/-- A small half-integer is converted exactly. -/
lemma standsFor (h : IsHalfInteger r) (hle : |r| ≤ 10) : StandsFor (Scalar.ofRat r) r := by
  have hden := h.den_le
  have hnum : r.num.natAbs ≤ 20 := by
    have hden' : (r.den : ℚ) ≤ 2 := by exact_mod_cast hden
    have habs : |(r.num : ℚ)| ≤ 20 := by
      rw [← Rat.mul_den_eq_num, abs_mul, Nat.abs_cast]
      exact (mul_le_mul hle hden' (Nat.cast_nonneg _) (by norm_num)).trans (by norm_num)
    rw [← Int.cast_abs, Int.abs_eq_natAbs] at habs
    exact_mod_cast habs
  have hstands : StandsFor (Scalar.ofRat r) (closest r) :=
    standsFor_ofRat (by omega) (by omega)
  rwa [closest_of_isHalfInteger h (hle.trans (by norm_num))] at hstands

end IsHalfInteger

/-! ### Features -/

/-- The program finds a signature as often, and counts the same for it. -/
structure Hit.Agree (a : Hit Float) (b : Hit Rat) : Prop where
  signature_eq : a.signature = b.signature
  count_eq : a.count = b.count
  contribution : StandsFor a.contribution b.contribution

/-- The program finds the same for a language. -/
structure LanguageFeatures.Agree (a : LanguageFeatures Float) (b : LanguageFeatures Rat) :
    Prop where
  language_eq : a.language = b.language
  strongHits_eq : a.strongHits = b.strongHits
  rawScore : StandsFor a.rawScore b.rawScore
  hits : List.Forall₂ Hit.Agree a.hits b.hits

section Features

variable {language : Language} {signature : Signature}
  (h : signature ∈ (CatalogEntry.builtin language).signatures)

include h

/-- The weight of a signature is exact. -/
lemma standsFor_signedWeight :
    StandsFor (Scalar.ofRat signature.signedWeight) signature.signedWeight := by
  obtain ⟨hhalf, hpos, hle⟩ := CatalogEntry.weight_of_mem_builtin h
  refine (Signature.isHalfInteger_signedWeight hhalf).standsFor ?_
  rwa [Signature.abs_signedWeight, abs_of_pos hpos]

/-- A signature that occurs contributes the same. -/
lemma Hit.agree_ofCount {count : Nat} (hcount : count ≤ 10 ^ 9) :
    (Hit.ofCount signature count : Hit Float).Agree (.ofCount signature count) where
  signature_eq := rfl
  count_eq := rfl
  contribution := by
    obtain ⟨hhalf, hpos, hle⟩ := CatalogEntry.weight_of_mem_builtin h
    have hproduct : |signature.signedWeight * (count : Rat)| ≤ 2 ^ 51 := by
      have hcount' : (count : Rat) ≤ 10 ^ 9 := by exact_mod_cast hcount
      rw [abs_mul, Signature.abs_signedWeight, abs_of_pos hpos, Nat.abs_cast]
      exact (mul_le_mul hle hcount' (Nat.cast_nonneg _) (by norm_num)).trans (by norm_num)
    exact (standsFor_signedWeight h).mul_half (standsFor_ofNat (by omega))
      ((Signature.isHalfInteger_signedWeight hhalf).mul_natCast count) hproduct

/-- So does one that is credited. -/
lemma Hit.agree_ofExtension :
    (Hit.ofExtension signature : Hit Float).Agree (.ofExtension signature) :=
  ⟨rfl, rfl, standsFor_signedWeight h⟩

end Features

namespace LanguageFeatures

variable {language : Language} {text : List Char} {cap : Nat}

/-- Hits that agree are strong as often. -/
lemma strongHits_eq_of_agree {hits : List (Hit Float)} {hits' : List (Hit Rat)}
    (h : List.Forall₂ Hit.Agree hits hits') :
    (hits.filter (·.signature.markerClass = .strong)).foldr (·.count + ·) 0 =
      (hits'.filter (·.signature.markerClass = .strong)).foldr (·.count + ·) 0 := by
  induction h with
  | nil => rfl
  | cons hhead _ ih =>
    rw [List.filter_cons, List.filter_cons, hhead.signature_eq]
    split
    · rw [List.foldr_cons, List.foldr_cons, hhead.count_eq, ih]
    · exact ih

/-- The program finds the same signatures in a text. -/
lemma agree_hits_ofEntry (language : Language) (text : List Char) (hcap : cap ≤ 10 ^ 9) :
    List.Forall₂ Hit.Agree (ofEntry text cap (.builtin language)).hits
      (ofEntry text cap (.builtin language)).hits := by
  have hsame : List.Forall₂
      (fun a b => a = b ∧ a ∈ (CatalogEntry.builtin language).signatures)
      (CatalogEntry.builtin language).signatures (CatalogEntry.builtin language).signatures :=
    List.forall₂_same.mpr fun signature h => ⟨rfl, h⟩
  refine List.rel_filterMap ?_ hsame
  rintro signature _ ⟨rfl, h⟩
  dsimp only
  split
  · exact .some (Hit.agree_ofCount h ((min_le_right _ _).trans hcap))
  · exact .none

/-- What agreeing hits contribute adds up to the score. -/
lemma Accounted.standsFor_foldl {found : LanguageFeatures Rat} (h : found.Accounted cap)
    (hcap : cap ≤ 10 ^ 9) {hits : List (Hit Float)}
    (hhits : List.Forall₂ Hit.Agree hits found.hits) :
    StandsFor (hits.foldl (fun score hit => score + hit.contribution) (Scalar.ofNat 0))
      found.rawScore := by
  have hcap' : (cap : Rat) ≤ 10 ^ 9 := by exact_mod_cast hcap
  have hlength : (found.hits.length : Rat) ≤ 60 := by exact_mod_cast h.length_le
  have hcontributions : List.Forall₂ StandsFor (hits.map (·.contribution))
      (found.hits.map (·.contribution)) := by
    rw [List.forall₂_map_left_iff, List.forall₂_map_right_iff]
    exact hhits.imp fun _ _ hhit => hhit.contribution
  have hhalf : ∀ r ∈ found.hits.map (·.contribution), IsHalfInteger r := by
    intro r hr
    obtain ⟨hit, hhit, rfl⟩ := List.mem_map.mp hr
    exact h.isHalfInteger hit hhit
  have hle : ∀ r ∈ found.hits.map (·.contribution), |r| ≤ 10 ^ 10 := by
    intro r hr
    obtain ⟨hit, hhit, rfl⟩ := List.mem_map.mp hr
    linarith [h.contribution_le hit hhit]
  have htotal : |(0 : Rat)| + (found.hits.map (·.contribution)).length * 10 ^ 10 ≤ 2 ^ 51 := by
    rw [List.length_map, abs_zero]
    linarith
  have hsum := StandsFor.foldl_add hcontributions standsFor_zero (.intCast 0) hhalf hle htotal
  rwa [List.foldl_map, zero_add, ← h.rawScore_eq] at hsum

/-- The program finds the same in a text for a supported language. -/
theorem agree_ofEntry (h : language ∈ Language.supported) (text : List Char) (hcap : cap ≤ 10 ^ 9) :
    (ofEntry text cap (.builtin language)).Agree (ofEntry text cap (.builtin language)) := by
  have hhits := agree_hits_ofEntry language text hcap
  exact ⟨rfl, strongHits_eq_of_agree hhits,
    (accounted_ofEntry h text cap).standsFor_foldl hcap hhits, hhits⟩

/-- A credited signature is one more that agrees. -/
lemma Agree.credit {found : LanguageFeatures Float} {found' : LanguageFeatures Rat}
    (h : found.Agree found') {signature : Signature}
    (hsignature : signature ∈ (CatalogEntry.builtin language).signatures)
    (haccounted : (found'.credit signature).Accounted cap) (hcap : cap ≤ 10 ^ 9) :
    (found.credit signature).Agree (found'.credit signature) where
  language_eq := h.language_eq
  strongHits_eq := h.strongHits_eq
  rawScore := by
    have hcap' : (cap : Rat) ≤ 10 ^ 9 := by exact_mod_cast hcap
    have hbound := haccounted.abs_rawScore_le
    change |found'.rawScore + _| ≤ _ at hbound
    exact h.rawScore.add_half (standsFor_signedWeight hsignature)
      haccounted.isHalfInteger_rawScore (hbound.trans (by linarith))
  hits := List.rel_append h.hits (.cons (Hit.agree_ofExtension hsignature) .nil)

/-- The program finds the same with a hint. -/
theorem agree_ofHint (h : language ∈ Language.supported) (text : List Char) (hone : 1 ≤ cap)
    (hcap : cap ≤ 10 ^ 9) (hint : Option String) :
    (ofHint text cap hint (.builtin language)).Agree
      (ofHint text cap hint (.builtin language)) := by
  have hentry := agree_ofEntry h text hcap
  cases hint with
  | none => exact hentry
  | some extension =>
    have haccounted := accounted_ofHint h text hone (some extension)
    change (creditExtension extension _ _).Accounted cap at haccounted
    change (creditExtension extension _ _).Agree (creditExtension extension _ _)
    cases hfind : (CatalogEntry.builtin language).signatures.find?
        (·.matchesExtension extension) with
    | none =>
      rw [creditExtension_of_find?_eq_none hfind, creditExtension_of_find?_eq_none hfind]
      exact hentry
    | some signature =>
      rw [creditExtension_of_find? hfind] at haccounted
      rw [creditExtension_of_find? hfind, creditExtension_of_find? hfind]
      exact hentry.credit (List.mem_of_find?_eq_some hfind) haccounted hcap

end LanguageFeatures

/-!
## Score keys

The key that the ranking compares is rounded twice, by the division and to an integer.  Scores that
differ do so by one half, which is half a million units of the resolution, and the roundings lead
away by less than a hundred of them (`abs_key_sub_le`), so the keys of the program are in the order
of the exact scores (`LanguageFeatures.Faithful.scoreKey_lt_iff`).
-/

/-! ### The resolution -/

/-- The score resolution of the program. -/
def runningResolution : ℚ := closest 0.000001

lemma standsFor_scoreResolution : StandsFor scoreResolution runningResolution :=
  standsFor_ofRat (by decide +kernel) (by decide +kernel)

lemma abs_runningResolution_sub_le : |runningResolution - 0.000001| ≤ 1 / 2 ^ 54 := by
  exact abs_closest_sub_le_of_mem (by norm_num)

/-- The score resolution of the program is about a millionth. -/
lemma runningResolution_mem : runningResolution ∈ Set.Icc 0.0000009 0.0000011 := by
  have hclose := abs_runningResolution_sub_le
  rw [abs_le] at hclose
  norm_num at hclose ⊢
  exact ⟨by linarith, by linarith⟩

lemma runningResolution_pos : 0 < runningResolution :=
  lt_of_lt_of_le (by norm_num) runningResolution_mem.1

section Keys

variable {x : Float} {r s : ℚ}

/-- Half-integers are on the same side of the resolution of the program and of the exact one. -/
lemma FloatingPoint.StandsFor.scoreResolution_lt_iff (h : StandsFor x r) (hhalf : IsHalfInteger r) :
    scoreResolution < x ↔ scoreResolution < r := by
  have hrunning := runningResolution_mem
  have hexact : (scoreResolution : ℚ) = 0.000001 := rfl
  rw [standsFor_scoreResolution.lt_iff h, hexact]
  rcases lt_or_ge 0 r with hpos | hneg
  · have hle := hhalf.half_le hpos
    exact iff_of_true (by linarith [hrunning.2]) (by linarith)
  · exact iff_of_false (by linarith [hrunning.1]) (by linarith)

/-- The same the other way round. -/
lemma FloatingPoint.StandsFor.le_scoreResolution_iff (h : StandsFor x r) (hhalf : IsHalfInteger r) :
    x ≤ scoreResolution ↔ r ≤ scoreResolution := by
  rw [h.le_iff standsFor_scoreResolution, ← not_lt, ← standsFor_scoreResolution.lt_iff h,
    h.scoreResolution_lt_iff hhalf, not_lt]

/-! ### Keys -/

/-- A score in units of the resolution is far from the bounds of 64 bits. -/
lemma abs_div_runningResolution_le (hr : |r| ≤ 6 * 10 ^ 11) :
    |r / runningResolution| ≤ 2 ^ 60 := by
  rw [abs_div, abs_of_pos runningResolution_pos, div_le_iff₀ runningResolution_pos]
  linarith [runningResolution_mem.1]

/-- The key of a score depends on what it stands for. -/
lemma key_eq (hx : StandsFor x r) (hr : |r| ≤ 6 * 10 ^ 11) :
    Scalar.round64 (x / (scoreResolution : Float)) =
      Scalar.round64 (closest (r / runningResolution)) :=
  (StandsFor.div (by norm_num) hx standsFor_scoreResolution runningResolution_pos.ne'
    (abs_div_runningResolution_le hr)).round64_eq

/-- The key is within a hundred of the score in units of the resolution. -/
lemma abs_key_sub_le (hr : |r| ≤ 6 * 10 ^ 11) :
    |(Scalar.round64 (closest (r / runningResolution)) : ℚ) - r / runningResolution| ≤ 100 := by
  have hunits := abs_div_runningResolution_le hr
  have hclose := abs_closest_sub_le (by norm_num) hunits
  have hround := abs_round64_sub_le
    ((abs_closest_le (by norm_num) hunits).trans (by norm_num : (2 : ℚ) ^ 60 ≤ 2 ^ 62))
  norm_num at hclose
  calc |(Scalar.round64 (closest (r / runningResolution)) : ℚ) - r / runningResolution|
      ≤ |(Scalar.round64 (closest (r / runningResolution)) : ℚ) - closest (r / runningResolution)| +
          |closest (r / runningResolution) - r / runningResolution| := abs_sub_le _ _ _
    _ ≤ 100 := by linarith

/-- Scores that differ have keys in the same order. -/
lemma key_lt_key (hr : |r| ≤ 6 * 10 ^ 11) (hs : |s| ≤ 6 * 10 ^ 11) (hhalf : 1 / 2 ≤ s - r) :
    Scalar.round64 (closest (r / runningResolution)) <
      Scalar.round64 (closest (s / runningResolution)) := by
  have hgap : 400000 ≤ s / runningResolution - r / runningResolution := by
    rw [← sub_div, le_div_iff₀ runningResolution_pos]
    linarith [runningResolution_mem.2]
  have hkey := abs_key_sub_le hr
  have hkey' := abs_key_sub_le hs
  rw [abs_le] at hkey hkey'
  have hcast : (Scalar.round64 (closest (r / runningResolution)) : ℚ) <
      Scalar.round64 (closest (s / runningResolution)) := by
    linarith
  exact_mod_cast hcast

end Keys

namespace LanguageFeatures

/-- Features of the program that agree with features that account for their score. -/
structure Faithful (cap : Nat) (a : LanguageFeatures Float) (b : LanguageFeatures Rat) : Prop where
  agree : a.Agree b
  accounted : b.Accounted cap

variable {cap : Nat} {a a' : LanguageFeatures Float} {b b' : LanguageFeatures Rat}

namespace Faithful

/-- A cap of a thousand million bounds the scores. -/
lemma abs_rawScore_le (h : Faithful cap a b) (hcap : cap ≤ 10 ^ 9) :
    |b.rawScore| ≤ 6 * 10 ^ 11 := by
  have hcap' : (cap : Rat) ≤ 10 ^ 9 := by exact_mod_cast hcap
  linarith [h.accounted.abs_rawScore_le]

/-- The key that the program computes depends on the exact score only. -/
lemma scoreKey_eq (h : Faithful cap a b) (hcap : cap ≤ 10 ^ 9) :
    a.scoreKey = Scalar.round64 (closest (b.rawScore / runningResolution)) :=
  key_eq h.agree.rawScore (h.abs_rawScore_le hcap)

/-- A greater score has a greater key. -/
lemma scoreKey_lt (h : Faithful cap a b) (h' : Faithful cap a' b') (hcap : cap ≤ 10 ^ 9)
    (hlt : b.rawScore < b'.rawScore) : a.scoreKey < a'.scoreKey := by
  have hhalf : 1 / 2 ≤ b'.rawScore - b.rawScore := by
    have hhalf := h'.accounted.isHalfInteger_rawScore.add h.accounted.isHalfInteger_rawScore.neg
    rw [sub_eq_add_neg]
    exact hhalf.half_le (by linarith)
  rw [h.scoreKey_eq hcap, h'.scoreKey_eq hcap]
  exact key_lt_key (h.abs_rawScore_le hcap) (h'.abs_rawScore_le hcap) hhalf

/-- The keys of the program are in the order of the exact scores. -/
theorem scoreKey_lt_iff (h : Faithful cap a b) (h' : Faithful cap a' b') (hcap : cap ≤ 10 ^ 9) :
    a.scoreKey < a'.scoreKey ↔ b.scoreKey < b'.scoreKey := by
  rw [h.accounted.scoreKey_lt_iff h'.accounted hcap]
  refine ⟨fun hkey => ?_, h.scoreKey_lt h' hcap⟩
  rcases lt_trichotomy b.rawScore b'.rawScore with hlt | heq | hgt
  · exact hlt
  · rw [h.scoreKey_eq hcap, h'.scoreKey_eq hcap, heq] at hkey
    exact absurd hkey (lt_irrefl _)
  · exact absurd (h'.scoreKey_lt h hcap hgt) hkey.not_gt

/-- The program puts a language before another one as exact arithmetic does. -/
theorem ranksBefore_eq (h : Faithful cap a b) (h' : Faithful cap a' b') (hcap : cap ≤ 10 ^ 9) :
    a.ranksBefore a' = b.ranksBefore b' := by
  have hlt := h'.scoreKey_lt_iff h hcap
  have heq : a.scoreKey = a'.scoreKey ↔ b.scoreKey = b'.scoreKey := by
    have hgt := h.scoreKey_lt_iff h' hcap
    omega
  rw [Bool.eq_iff_iff, ranksBefore_iff_lex, ranksBefore_iff_lex, hlt, heq, h.agree.strongHits_eq,
    h'.agree.strongHits_eq, h.agree.language_eq, h'.agree.language_eq]

end Faithful

end LanguageFeatures

end LanguageDetection
