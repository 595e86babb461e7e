import Mathlib.Algebra.Order.BigOperators.Group.List
import Mathlib.Data.Rat.Floor
import Mathlib.Tactic.Linarith
import Mathlib.Tactic.Ring
import LanguageDetection.Scalar

/-!
# Exact arithmetic

Read over the rational numbers, the operations of `Scalar` are those of an ordered field, and
rounding to 64 bits is monotone and keeps every integer that 64 bits can hold.

The scores of a text are half-integers: `IsHalfInteger` is closed under what a score is made with,
and on half-integers rounding in units of the score resolution loses nothing.
-/

namespace LanguageDetection

/-! ## Operations -/

namespace Scalar

@[simp] lemma rat_ofRat (r : Rat) : (Scalar.ofRat r : Rat) = r := rfl

@[simp] lemma rat_ofNat (n : Nat) : (Scalar.ofNat n : Rat) = n := rfl

/-- The greater of two rational numbers. -/
@[simp] lemma rat_max (a b : Rat) : Scalar.max a b = Max.max a b := by
  unfold Scalar.max
  split
  · next h => exact (max_eq_right (le_of_lt h)).symm
  · next h => exact (max_eq_left (not_lt.mp h)).symm

/-- The smaller of two rational numbers. -/
@[simp] lemma rat_min (a b : Rat) : Scalar.min a b = Min.min a b := by
  unfold Scalar.min
  split
  · next h => exact (min_eq_right (le_of_lt h)).symm
  · next h => exact (min_eq_left (not_lt.mp h)).symm

/-- Clamping keeps what lies in the interval. -/
lemma rat_clamp_of_mem {low high a : Rat} (hlow : low ≤ a) (hhigh : a ≤ high) :
    Scalar.clamp low high a = a := by
  unfold Scalar.clamp
  rw [if_neg (not_lt.mpr hlow), if_neg (not_lt.mpr hhigh)]

end Scalar

/-! ## Rounding -/

/-- An integer is its own nearest integer. -/
lemma roundAwayFromZero_intCast (n : Int) : roundAwayFromZero n = n := by
  have hfloor : ∀ m : Int, ((m : Rat) + 1 / 2).floor = m := by
    intro m
    have hle : m ≤ ((m : Rat) + 1 / 2).floor := Rat.le_floor_iff.mpr (by linarith)
    have hlt : ((m : Rat) + 1 / 2).floor < m + 1 := by
      rw [Rat.floor_lt_iff]
      push_cast
      linarith
    omega
  unfold roundAwayFromZero
  split
  · exact hfloor n
  · have := hfloor (-n)
    push_cast at this
    rw [this, neg_neg]

/-- Rounding keeps the order. -/
lemma roundAwayFromZero_mono {a b : Rat} (hab : a ≤ b) :
    roundAwayFromZero a ≤ roundAwayFromZero b := by
  unfold roundAwayFromZero
  split <;> split
  · exact Rat.floor_monotone (by linarith)
  · linarith
  · have ha : 0 ≤ (-a + 1 / 2 : Rat).floor := Rat.le_floor_iff.mpr (by push_cast; linarith)
    have hb : 0 ≤ (b + 1 / 2 : Rat).floor := Rat.le_floor_iff.mpr (by push_cast; linarith)
    linarith
  · exact neg_le_neg (Rat.floor_monotone (by linarith))

/-- Limiting to 64 bits keeps the order. -/
lemma clampInt64_mono {m n : Int} (hmn : m ≤ n) : clampInt64 m ≤ clampInt64 n := by
  unfold clampInt64 leastInt64 greatestInt64
  split_ifs <;> omega

/-- Limiting to 64 bits keeps what 64 bits can hold. -/
lemma clampInt64_of_mem {n : Int} (hlow : leastInt64 ≤ n) (hhigh : n ≤ greatestInt64) :
    clampInt64 n = n := by
  unfold clampInt64
  rw [if_neg (not_lt.mpr hlow), if_neg (not_lt.mpr hhigh)]

lemma rat_round64_mono {a b : Rat} (hab : a ≤ b) : Scalar.round64 a ≤ Scalar.round64 b :=
  clampInt64_mono (roundAwayFromZero_mono hab)

/-- Integers of 64 bits are kept. -/
lemma rat_round64_intCast {n : Int} (hlow : leastInt64 ≤ n) (hhigh : n ≤ greatestInt64) :
    Scalar.round64 (n : Rat) = n := by
  change clampInt64 (roundAwayFromZero n) = n
  rw [roundAwayFromZero_intCast, clampInt64_of_mem hlow hhigh]

/-- The nearest integer is at most one half away. -/
lemma abs_roundAwayFromZero_sub_le (r : Rat) : |roundAwayFromZero r - r| ≤ 1 / 2 := by
  have hfloor : ∀ q : Rat, ((q + 1 / 2).floor : Rat) ≤ q + 1 / 2 ∧
      q + 1 / 2 < (q + 1 / 2).floor + 1 := by
    intro q
    have hlt := Rat.floor_lt_iff.mp (lt_add_one (q + 1 / 2).floor)
    push_cast at hlt
    exact ⟨Rat.le_floor_iff.mp le_rfl, hlt⟩
  unfold roundAwayFromZero
  rw [abs_le]
  split_ifs
  · obtain ⟨hle, hlt⟩ := hfloor r
    exact ⟨by linarith, by linarith⟩
  · obtain ⟨hle, hlt⟩ := hfloor (-r)
    push_cast
    exact ⟨by linarith, by linarith⟩

/-- What is far from the ends of 64 bits is rounded to the nearest integer. -/
lemma abs_round64_sub_le {r : Rat} (h : |r| ≤ 2 ^ 62) : |(Scalar.round64 r : Rat) - r| ≤ 1 / 2 := by
  have hround := abs_roundAwayFromZero_sub_le r
  have hlow : leastInt64 ≤ roundAwayFromZero r := by
    have : (leastInt64 : Rat) ≤ roundAwayFromZero r := by
      unfold leastInt64
      rw [abs_le] at h hround
      push_cast
      linarith
    exact_mod_cast this
  have hhigh : roundAwayFromZero r ≤ greatestInt64 := by
    have : (roundAwayFromZero r : Rat) ≤ greatestInt64 := by
      unfold greatestInt64
      rw [abs_le] at h hround
      push_cast
      linarith
    exact_mod_cast this
  change |(clampInt64 (roundAwayFromZero r) : Rat) - r| ≤ 1 / 2
  rwa [clampInt64_of_mem hlow hhigh]

/-! ## Half-integers -/

/-- A multiple of one half. -/
def IsHalfInteger (r : Rat) : Prop :=
  ∃ k : Int, r = k / 2

namespace IsHalfInteger

lemma intCast (n : Int) : IsHalfInteger n :=
  ⟨2 * n, by push_cast; ring⟩

/-- A number is a half-integer if twice the number has the denominator one. -/
lemma of_den {r : Rat} (h : (2 * r).den = 1) : IsHalfInteger r := by
  refine ⟨(2 * r).num, ?_⟩
  have hint : ((2 * r).num : Rat) = 2 * r := Rat.coe_int_num_of_den_eq_one h
  rw [hint]
  ring

lemma neg {r : Rat} (h : IsHalfInteger r) : IsHalfInteger (-r) := by
  obtain ⟨k, rfl⟩ := h
  exact ⟨-k, by push_cast; ring⟩

/-- A sum of half-integers is a half-integer. -/
lemma add {r s : Rat} (hr : IsHalfInteger r) (hs : IsHalfInteger s) : IsHalfInteger (r + s) := by
  obtain ⟨k, rfl⟩ := hr
  obtain ⟨l, rfl⟩ := hs
  exact ⟨k + l, by push_cast; ring⟩

/-- A multiple of a half-integer is a half-integer. -/
lemma mul_natCast {r : Rat} (h : IsHalfInteger r) (n : Nat) : IsHalfInteger (r * n) := by
  obtain ⟨k, rfl⟩ := h
  exact ⟨k * n, by push_cast; ring⟩

/-- The positive part of a half-integer is a half-integer. -/
lemma max_zero {r : Rat} (h : IsHalfInteger r) : IsHalfInteger (max r 0) := by
  rcases le_total r 0 with hr | hr
  · rw [max_eq_right hr]
    exact intCast 0
  · rwa [max_eq_left hr]

/-- A sum of half-integers is one. -/
lemma sum {l : List Rat} (h : ∀ r ∈ l, IsHalfInteger r) : IsHalfInteger l.sum := by
  induction l with
  | nil => exact intCast 0
  | cons r l ih =>
    rw [List.sum_cons]
    exact (h r (by simp)).add (ih fun s hs => h s (by simp [hs]))

/-- A half-integer above zero is at least one half. -/
lemma half_le {r : Rat} (h : IsHalfInteger r) (hpos : 0 < r) : 1 / 2 ≤ r := by
  obtain ⟨k, rfl⟩ := h
  have hk : (0 : Rat) < k := by linarith
  have hk' : (1 : Rat) ≤ k := by exact_mod_cast hk
  linarith

end IsHalfInteger

end LanguageDetection
