import LanguageDetection.Proofs.FloatingPoint.Arithmetic
import LanguageDetection.Proofs.ThresholdInfluence

/-!
# Floating-point scalars

The floating-point numbers that the program computes with round in a way that keeps the order, so
that what is shown of such scalars holds of the program as it runs.
-/

namespace LanguageDetection

open Float.Model (UnpackedFloat)
open FloatingPoint

/-! ## Operations on words -/

namespace FloatingPoint

lemma unpack_mul (a b : Float) : (a * b).toModel.unpack =
    settle (.mul .binary64 a.toModel.unpack b.toModel.unpack) :=
  rfl

lemma unpack_div (a b : Float) : (a / b).toModel.unpack =
    settle (.div .binary64 a.toModel.unpack b.toModel.unpack) :=
  rfl

variable {a b c : Float} {x y : ℚ}

/-- A product with what is not a number is none. -/
lemma unpack_mul_of_notANumber_left (h : a.toModel.unpack = .notANumber) :
    (a * b).toModel.unpack = .notANumber := by
  rw [unpack_mul, h]
  exact settle_notANumber

/-- The order of the factors does not matter to that. -/
lemma unpack_mul_of_notANumber_right (h : b.toModel.unpack = .notANumber) :
    (a * b).toModel.unpack = .notANumber := by
  rw [unpack_mul, h]
  cases a.toModel.unpack <;> exact settle_notANumber

/-- Values are ordered as the numbers are. -/
lemma Denotes.lt_iff (ha : Denotes a.toModel.unpack x) (hb : Denotes b.toModel.unpack y) :
    a < b ↔ x < y := by
  rw [float_lt_iff]
  exact ha.compare_iff hb

/-- What is not a number is not less than any. -/
lemma not_lt_of_notANumber_left (h : a.toModel.unpack = .notANumber) : ¬ a < b := by
  rw [float_lt_iff, h, UnpackedFloat.compare]
  exact (Option.some_ne_none _).symm

/-- No number is less than what is not one. -/
lemma not_lt_of_notANumber_right (h : b.toModel.unpack = .notANumber) : ¬ a < b := by
  rw [float_lt_iff, ← unpacked_compare_swap, h, UnpackedFloat.compare]
  exact (Option.some_ne_none _).symm

/-- What is not less than a number that is not negative is none, or is not negative either. -/
lemma denotes_of_not_lt (ha : Denotes a.toModel.unpack x) (h : ¬ b < a) :
    b.toModel.unpack = .notANumber ∨ ∃ y, x ≤ y ∧ Denotes b.toModel.unpack y := by
  rcases unpack_cases b.toModel.toBits.toBitVec with hnan | hnegative | ⟨y, hy⟩
  · exact .inl hnan
  · refine absurd ?_ h
    rw [float_lt_iff, ← unpacked_compare_swap]
    exact congrArg (Option.map Ordering.swap) (hnegative ha)
  · have hdenotes : Denotes b.toModel.unpack y := hy
    rw [hdenotes.lt_iff ha, not_lt] at h
    exact .inr ⟨y, h, hdenotes⟩

/-- What is less than a number that is not negative is less than a greater one. -/
lemma lt_of_lt_of_denotes (ha : Denotes a.toModel.unpack x) (hb : Denotes b.toModel.unpack y)
    (hle : x ≤ y) (h : c < a) : c < b := by
  by_contra hnot
  rcases denotes_of_not_lt hb hnot with hnan | ⟨z, hz, hdenotes⟩
  · exact not_lt_of_notANumber_left hnan h
  · rw [hdenotes.lt_iff ha] at h
    exact absurd (hz.trans_lt h) (not_lt.mpr hle)

/-! ## Counts -/

/-- A count is the nearest floating-point number. -/
theorem denotes_scalar_ofNat (n : ℕ) :
    Denotes (Scalar.ofNat n : Float).toModel.unpack (nearest n) := by
  have hone : Denotes (Float.ofNat 1).toModel.unpack 1 := denotes_one rfl
  have hlt : (1 : ℚ) < 2 ^ 1024 := one_lt_pow₀ one_lt_two (by norm_num)
  have hn := denotes_numeral n
  have hquotient := hn.div hone one_pos fun h => hlt.ne h.2
  have hvalue : quotient (nearest n) 1 = nearest n := by
    unfold quotient
    rw [if_neg hlt.ne, div_one, hn.nearest_eq]
    split_ifs with hinf
    · exact hinf.symm
    · rfl
  rw [hvalue] at hquotient
  exact hquotient

lemma denotes_scalar_zero : Denotes (Scalar.ofNat 0 : Float).toModel.unpack 0 := by
  have hzero := denotes_scalar_ofNat 0
  rwa [Nat.cast_zero, nearest_zero] at hzero

/-- A positive natural number is not rounded to zero. -/
lemma nearest_pos {n : ℕ} (hpos : 0 < n) : 0 < nearest n := by
  have hone : nearest (1 : ℕ) = (1 : ℕ) := nearest_natCast (by norm_num)
  have hle : nearest (1 : ℕ) ≤ nearest n :=
    nearest_mono (Nat.cast_nonneg 1) (by exact_mod_cast hpos)
  rw [hone] at hle
  exact one_pos.trans_le (by exact_mod_cast hle)

end FloatingPoint

/-! ## The scalars of the program -/

namespace Scalar

instance : RoundsInOrder Float where
  lt_ratio := by
    intro threshold part small large hsmall hle hlt
    have hpart := denotes_scalar_ofNat part
    have hnearest : nearest small ≤ nearest large :=
      nearest_mono (Nat.cast_nonneg small) (by exact_mod_cast hle)
    have hlarge := denotes_scalar_ofNat large
    have hfinite : ¬ (nearest part = 2 ^ 1024 ∧ nearest large = 2 ^ 1024) := by
      rintro ⟨hpart', hlarge'⟩
      exact not_lt_of_notANumber_right (hpart.div_infinity hlarge hpart' hlarge') hlt
    have hfinite' : ¬ (nearest part = 2 ^ 1024 ∧ nearest small = 2 ^ 1024) := by
      rintro ⟨hpart', hsmall'⟩
      exact hfinite ⟨hpart', hlarge.le_infinity.antisymm (hsmall'.ge.trans hnearest)⟩
    refine lt_of_lt_of_denotes (hpart.div hlarge (nearest_pos (hsmall.trans_le hle)) hfinite)
      (hpart.div (denotes_scalar_ofNat small) (nearest_pos hsmall) hfinite') ?_ hlt
    exact quotient_le_quotient hpart.nonneg (nearest_pos hsmall) hnearest hlarge.le_infinity
  lt_irrefl := float_lt_irrefl
  not_one_lt_zero := by
    rw [(denotes_scalar_ofNat 1).lt_iff denotes_scalar_zero]
    exact not_lt.mpr (denotes_scalar_ofNat 1).nonneg
  not_ratio_lt_zero := by
    intro part whole hpos
    have hpart := denotes_scalar_ofNat part
    have hwhole := denotes_scalar_ofNat whole
    by_cases hinfinite : nearest part = 2 ^ 1024 ∧ nearest whole = 2 ^ 1024
    · exact not_lt_of_notANumber_left (hpart.div_infinity hwhole hinfinite.1 hinfinite.2)
    · have hquotient := hpart.div hwhole (nearest_pos hpos) hinfinite
      rw [← unpack_div] at hquotient
      rw [hquotient.lt_iff denotes_scalar_zero]
      exact not_lt.mpr hquotient.nonneg
  not_mul_lt_mul := by
    intro a b c ha hb hbc
    rcases denotes_of_not_lt denotes_scalar_zero ha with hnan | ⟨x, hx, ha'⟩
    · exact not_lt_of_notANumber_left (unpack_mul_of_notANumber_left hnan)
    rcases denotes_of_not_lt denotes_scalar_zero hb with hnan | ⟨y, hy, hb'⟩
    · exact not_lt_of_notANumber_right (unpack_mul_of_notANumber_right hnan)
    rcases denotes_of_not_lt hb' hbc with hnan | ⟨z, hz, hc'⟩
    · exact not_lt_of_notANumber_left (unpack_mul_of_notANumber_right hnan)
    rcases ha'.mul hc' with hnan | hproduct
    · exact not_lt_of_notANumber_left hnan
    rcases ha'.mul hb' with hnan | hproduct'
    · exact not_lt_of_notANumber_right hnan
    rw [← unpack_mul] at hproduct hproduct'
    rw [hproduct.lt_iff hproduct', not_lt]
    exact product_le_product hx hy hz hc'.le_infinity

end Scalar

/-- In the program, too, there is the less confidence the more tokens are asked for. -/
theorem float_confidence_not_lt {catalog : Catalog} {a b : Thresholds Float} {text : List Char}
    {hint : Option String} (hbinary : a.binaryRatioThreshold = b.binaryRatioThreshold)
    (hcap : a.cap = b.cap) (hle : a.minTokensForFullConfidence ≤ b.minTokensForFullConfidence) :
    Classification.Related (fun x y => ¬ x.confidence < y.confidence)
      (classify catalog a text hint) (classify catalog b text hint) :=
  confidence_classify_not_lt hbinary hcap hle

end LanguageDetection
