import Gatekeeper.Proofs.Json.Zeros
import Mathlib.Algebra.Order.Field.Power
import Mathlib.Tactic.FieldSimp
import Mathlib.Tactic.Linarith
import Mathlib.Tactic.Positivity
import Mathlib.Tactic.Ring

/-!
# Shortest decimals are nearest

The decimal that stands for a floating-point number lies among the reals that round
to the number: seventeen digits are enough to find one.  So no other floating-point
number is nearer to it.
-/

namespace Gatekeeper

namespace Decimal

/-!
# Fractions
-/

namespace Ratio

def value (r : Ratio) : ℚ :=
  r.num / r.den

variable {a b r : Ratio} {n base : Nat} {e : Int}

theorem den_scaled_pos (hbase : 0 < base) : 0 < (scaled n base e).den := by
  unfold scaled
  split
  · exact Nat.one_pos
  · exact Nat.pow_pos hbase

theorem value_scaled (hbase : 0 < base) : (scaled n base e).value = n * (base : ℚ) ^ e := by
  have hne : (base : ℚ) ≠ 0 := Nat.cast_ne_zero.mpr (Nat.ne_of_gt hbase)
  unfold scaled value
  split
  · rename_i he
    lift e to Nat using he
    simp
  · rename_i he
    rcases Int.eq_negSucc_of_lt_zero (Int.not_le.mp he) with ⟨k, rfl⟩
    simp [Int.neg_negSucc, zpow_negSucc, div_eq_mul_inv]

theorem le_iff (ha : 0 < a.den) (hb : 0 < b.den) : a.le b = true <-> a.value ≤ b.value := by
  unfold le value
  rw [div_le_div_iff₀ (Nat.cast_pos.mpr ha) (Nat.cast_pos.mpr hb), decide_eq_true_iff]
  exact_mod_cast Iff.rfl

theorem lt_iff (ha : 0 < a.den) (hb : 0 < b.den) : a.lt b = true <-> a.value < b.value := by
  unfold lt value
  rw [div_lt_div_iff₀ (Nat.cast_pos.mpr ha) (Nat.cast_pos.mpr hb), decide_eq_true_iff]
  exact_mod_cast Iff.rfl

theorem pow_le_of_decimalLength (hn : 0 < n) : 10 ^ (decimalLength n - 1) ≤ n := by
  unfold decimalLength
  by_contra hlarge
  have hpositive : 0 < (Nat.toDigits 10 n).length := Nat.length_toDigits_pos
  by_cases hone : (Nat.toDigits 10 n).length = 1
  · rw [hone] at hlarge
    omega
  · have hshort := (Nat.length_toDigits_le_iff (by decide : 1 < 10)
      (by omega : 0 < (Nat.toDigits 10 n).length - 1)).mpr (Nat.not_le.mp hlarge)
    omega

theorem pow_magnitude_le (hnum : 0 < r.num) (hden : 0 < r.den) :
    (10 : ℚ) ^ r.magnitude ≤ r.value := by
  have hden' : (0 : ℚ) < r.den := Nat.cast_pos.mpr hden
  unfold magnitude value
  rw [le_div_iff₀ hden']
  split
  · rename_i hle
    have hquotient : 0 < r.num / r.den := Nat.div_pos hle hden
    have hlength : 0 < decimalLength (r.num / r.den) := Nat.length_toDigits_pos
    have hpow : 10 ^ (decimalLength (r.num / r.den) - 1) * r.den ≤ r.num :=
      (Nat.mul_le_mul_right _ (pow_le_of_decimalLength hquotient)).trans (Nat.div_mul_le_self _ _)
    have hexponent : (decimalLength (r.num / r.den) : Int) - 1 =
        (decimalLength (r.num / r.den) - 1 : Nat) := by omega
    rw [hexponent, zpow_natCast]
    exact_mod_cast hpow
  · have hlt : (r.den - 1) / r.num < 10 ^ decimalLength ((r.den - 1) / r.num) :=
      (Nat.length_toDigits_le_iff (by decide) Nat.length_toDigits_pos).mp (Nat.le_refl _)
    have hpow : r.den ≤ r.num * 10 ^ decimalLength ((r.den - 1) / r.num) := by
      have := (Nat.div_lt_iff_lt_mul hnum).mp hlt
      rw [Nat.mul_comm]
      omega
    rw [zpow_neg, zpow_natCast, inv_mul_le_iff₀ (by positivity), mul_comm]
    exact_mod_cast hpow

end Ratio

/-!
# What rounds to a number
-/

def size (x : Binary64) : ℚ :=
  x.significand * (2 : ℚ) ^ x.exponent

/-- Quarters of a step from a number to the reals below it that still round to it. -/
def quartersBelow (x : Binary64) : Nat :=
  if x.fraction = 0 ∧ 1 < x.biasedExponent then 1 else 2

/-- Between the middles of the steps to the neighbours of a number. -/
structure Between (x : Binary64) (q : ℚ) : Prop where
  above : size x - quartersBelow x / 4 * (2 : ℚ) ^ x.exponent ≤ q
  below : q ≤ size x + 1 / 2 * (2 : ℚ) ^ x.exponent

variable {x y : Binary64}

theorem value_low (hne : x.significand ≠ 0) :
    (interval x).low.value = size x - quartersBelow x / 4 * (2 : ℚ) ^ x.exponent := by
  have hquarters : quartersBelow x ≤ 4 * x.significand := by
    unfold quartersBelow
    split <;> omega
  have hlow : (interval x).low =
      .scaled (4 * x.significand - quartersBelow x) 2 (x.exponent - 2) := rfl
  rw [hlow, Ratio.value_scaled (by decide), Nat.cast_sub hquarters]
  unfold size
  push_cast
  rw [zpow_sub₀ two_ne_zero]
  ring

theorem value_high : (interval x).high.value = size x + 1 / 2 * (2 : ℚ) ^ x.exponent := by
  have hhigh : (interval x).high = .scaled (4 * x.significand + 2) 2 (x.exponent - 2) := rfl
  rw [hhigh, Ratio.value_scaled (by decide)]
  unfold size
  push_cast
  rw [zpow_sub₀ two_ne_zero]
  ring

theorem holds_iff {n : Nat} {grid : Int} :
    (interval x).holds (.scaled n 10 grid) = true <->
      if (interval x).closed then
        (interval x).low.value ≤ n * (10 : ℚ) ^ grid ∧ n * (10 : ℚ) ^ grid ≤ (interval x).high.value
      else
        (interval x).low.value < n * (10 : ℚ) ^ grid ∧
          n * (10 : ℚ) ^ grid < (interval x).high.value := by
  have hlow : 0 < (interval x).low.den := Ratio.den_scaled_pos (by decide)
  have hhigh : 0 < (interval x).high.den := Ratio.den_scaled_pos (by decide)
  have hgrid : 0 < (Ratio.scaled n 10 grid).den := Ratio.den_scaled_pos (by decide)
  have hvalue : (Ratio.scaled n 10 grid).value = n * (10 : ℚ) ^ grid :=
    Ratio.value_scaled (by decide)
  unfold Interval.holds
  split
  · rw [Bool.and_eq_true, Ratio.le_iff hlow hgrid, Ratio.le_iff hgrid hhigh, hvalue]
  · rw [Bool.and_eq_true, Ratio.lt_iff hlow hgrid, Ratio.lt_iff hgrid hhigh, hvalue]

theorem between_of_holds {n : Nat} {grid : Int} (hne : x.significand ≠ 0)
    (hholds : (interval x).holds (.scaled n 10 grid) = true) :
    Between x (n * (10 : ℚ) ^ grid) := by
  rw [holds_iff, value_low hne, value_high] at hholds
  split at hholds
  · exact ⟨hholds.left, hholds.right⟩
  · exact ⟨hholds.left.le, hholds.right.le⟩

theorem holds_of_lt_of_lt {n : Nat} {grid : Int}
    (hlow : (interval x).low.value < n * (10 : ℚ) ^ grid)
    (hhigh : n * (10 : ℚ) ^ grid < (interval x).high.value) :
    (interval x).holds (.scaled n 10 grid) = true := by
  rw [holds_iff]
  split
  · exact ⟨hlow.le, hhigh.le⟩
  · exact ⟨hlow, hhigh⟩

/-!
# The search
-/

def gridFloor (value : Ratio) (grid : Int) : Nat :=
  value.num * (Ratio.scaled 1 10 grid).den / (value.den * (Ratio.scaled 1 10 grid).num)

section

variable {i : Interval} {value : Ratio} {grid magnitude : Int} {d : Digits}

theorem gridFloor_le (hden : 0 < value.den) (grid : Int) :
    gridFloor value grid * (10 : ℚ) ^ grid ≤ value.value ∧
      value.value < (gridFloor value grid + 1) * (10 : ℚ) ^ grid := by
  have hunit : (Ratio.scaled 1 10 grid).value = (10 : ℚ) ^ grid := by
    rw [Ratio.value_scaled (by decide), Nat.cast_one, one_mul, Nat.cast_ofNat]
  have hunitDen : 0 < (Ratio.scaled 1 10 grid).den := Ratio.den_scaled_pos (by decide)
  have hunitNum : 0 < (Ratio.scaled 1 10 grid).num := by
    unfold Ratio.scaled
    split
    · exact Nat.mul_pos Nat.one_pos (Nat.pow_pos (by decide))
    · exact Nat.one_pos
  have hdivisor : 0 < value.den * (Ratio.scaled 1 10 grid).num := Nat.mul_pos hden hunitNum
  have hbelow : gridFloor value grid * (value.den * (Ratio.scaled 1 10 grid).num) ≤
      value.num * (Ratio.scaled 1 10 grid).den := Nat.div_mul_le_self _ _
  have habove : value.num * (Ratio.scaled 1 10 grid).den <
      (gridFloor value grid + 1) * (value.den * (Ratio.scaled 1 10 grid).num) :=
    Nat.lt_mul_of_div_lt (Nat.lt_succ_self _) hdivisor
  rw [← hunit]
  unfold Ratio.value
  have hden' : (0 : ℚ) < value.den := Nat.cast_pos.mpr hden
  have hunitDen' : (0 : ℚ) < (Ratio.scaled 1 10 grid).den := Nat.cast_pos.mpr hunitDen
  constructor
  · rw [← mul_div_assoc, div_le_div_iff₀ hunitDen' hden', mul_assoc, mul_comm _ (value.den : ℚ)]
    exact_mod_cast hbelow
  · rw [← mul_div_assoc, div_lt_div_iff₀ hden' hunitDen', mul_assoc, mul_comm _ (value.den : ℚ)]
    exact_mod_cast habove

theorem holds_of_onGrid (h : onGrid i value grid = some d) :
    i.holds (.scaled d.digits 10 d.exponent) = true := by
  unfold onGrid at h
  simp only at h
  split at h
  · rename_i hlow hhigh
    cases h
    simp only
    split
    · exact hhigh
    · exact hlow
  · rename_i hlow _
    cases h
    exact hlow
  · rename_i _ hhigh
    cases h
    exact hhigh
  · cases h

theorem not_holds_of_onGrid (h : onGrid i value grid = none) :
    i.holds (.scaled (gridFloor value grid) 10 grid) = false ∧
      i.holds (.scaled (gridFloor value grid + 1) 10 grid) = false := by
  unfold onGrid at h
  simp only at h
  split at h
  · cases h
  · cases h
  · cases h
  · rename_i hlow hhigh
    exact ⟨hlow, hhigh⟩

theorem holds_of_search {count more : Nat} (h : search i value magnitude count more = some d) :
    i.holds (.scaled d.digits 10 d.exponent) = true := by
  induction more generalizing count with
  | zero => cases h
  | succ more ih =>
      unfold search at h
      split at h
      · rename_i hfound
        cases h
        exact holds_of_onGrid hfound
      · exact ih h

theorem search_ne_none {count more k : Nat} (hk : k < more)
    (hgrid : onGrid i value (magnitude - (count + k : Nat)) ≠ none) :
    search i value magnitude count more ≠ none := by
  induction more generalizing count k with
  | zero => omega
  | succ more ih =>
      unfold search
      split
      · simp
      · rename_i hnone
        cases k with
        | zero => exact absurd hnone hgrid
        | succ k =>
            apply ih (Nat.lt_of_succ_lt_succ hk)
            rwa [Nat.add_assoc, Nat.add_comm 1]

end

theorem fraction_lt (x : Binary64) : x.fraction < 0x10000000000000 :=
  Nat.mod_lt _ (by decide)

theorem significand_lt (x : Binary64) : x.significand < 0x20000000000000 := by
  have := fraction_lt x
  unfold Binary64.significand Binary64.hiddenBit
  split <;> omega

/-- The significands have no more than fifty-three bits, which is less than seventeen digits. -/
theorem significand_lt_steps (x : Binary64) :
    (x.significand : ℚ) < (1 / 2 + quartersBelow x / 4) * 10 ^ 16 := by
  unfold quartersBelow
  split
  · rename_i hpower
    have hsignificand : x.significand = 0x10000000000000 := by
      unfold Binary64.significand Binary64.hiddenBit
      rw [if_neg (by omega), hpower.left]
    rw [hsignificand]
    norm_num
  · have hsmall : (x.significand : ℚ) < 0x20000000000000 := by exact_mod_cast significand_lt x
    norm_num at hsmall ⊢
    linarith

theorem steps_le_of_onGrid (hne : x.significand ≠ 0) {value : Ratio} (hden : 0 < value.den)
    (hvalue : value.value = size x) {grid : Int} (hnone : onGrid (interval x) value grid = none) :
    (1 / 2 + quartersBelow x / 4 : ℚ) * (2 : ℚ) ^ x.exponent ≤ (10 : ℚ) ^ grid := by
  rcases not_holds_of_onGrid hnone with ⟨hfloor, hceiling⟩
  have hgrid := gridFloor_le hden grid
  rw [hvalue] at hgrid
  have hstep : (0 : ℚ) < (2 : ℚ) ^ x.exponent := by positivity
  have hlow : (gridFloor value grid : ℚ) * (10 : ℚ) ^ grid ≤ (interval x).low.value := by
    by_contra hlt
    rw [holds_of_lt_of_lt (not_le.mp hlt) (by rw [value_high]; linarith [hgrid.left])] at hfloor
    cases hfloor
  have hhigh : (interval x).high.value ≤ (gridFloor value grid + 1 : ℚ) * (10 : ℚ) ^ grid := by
    by_contra hlt
    have hquarters : (0 : ℚ) ≤ quartersBelow x / 4 * (2 : ℚ) ^ x.exponent := by positivity
    rw [holds_of_lt_of_lt] at hceiling
    · cases hceiling
    · rw [value_low hne]
      push_cast
      linarith [hgrid.right]
    · push_cast
      exact not_le.mp hlt
  rw [value_low hne] at hlow
  rw [value_high] at hhigh
  linarith

theorem onGrid_ne_none (hne : x.significand ≠ 0) {value : Ratio} (hden : 0 < value.den)
    (hvalue : value.value = size x) {grid : Int} (hgrid : (10 : ℚ) ^ grid * 10 ^ 16 ≤ size x) :
    onGrid (interval x) value grid ≠ none := by
  intro hnone
  have hsteps := steps_le_of_onGrid hne hden hvalue hnone
  have hstep : (0 : ℚ) < (2 : ℚ) ^ x.exponent := by positivity
  have hbound : (1 / 2 + quartersBelow x / 4 : ℚ) * 10 ^ 16 * (2 : ℚ) ^ x.exponent ≤
      x.significand * (2 : ℚ) ^ x.exponent := by
    unfold size at hgrid
    linarith
  exact absurd (le_of_mul_le_mul_right hbound hstep) (not_le.mpr (significand_lt_steps x))

/-!
# The shortest decimal
-/

def Digits.value (d : Digits) : ℚ :=
  d.digits * (10 : ℚ) ^ d.exponent

@[simp] theorem value_trimZeros (steps : Nat) (d : Digits) :
    (trimZeros steps d).value = d.value := by
  induction steps generalizing d with
  | zero => rfl
  | succ steps ih =>
      unfold trimZeros
      split
      · rename_i htrim
        have hdigits : (d.digits : ℚ) = (d.digits / 10 : Nat) * 10 := by
          exact_mod_cast (Nat.div_mul_cancel (Nat.dvd_of_mod_eq_zero htrim.right)).symm
        rw [ih]
        unfold Digits.value
        rw [zpow_add_one₀ (by norm_num), hdigits]
        ring
      · rfl

theorem between_shortest (hne : x.significand ≠ 0) : Between x (shortest x).value := by
  have hden : 0 < (Ratio.scaled x.significand 2 x.exponent).den := Ratio.den_scaled_pos (by decide)
  have hvalue : (Ratio.scaled x.significand 2 x.exponent).value = size x :=
    Ratio.value_scaled (by decide)
  have hnum : 0 < (Ratio.scaled x.significand 2 x.exponent).num := by
    unfold Ratio.scaled
    split
    · exact Nat.mul_pos (Nat.pos_of_ne_zero hne) (Nat.pow_pos (by decide))
    · exact Nat.pos_of_ne_zero hne
  have hmagnitude := Ratio.pow_magnitude_le hnum hden
  rw [hvalue] at hmagnitude
  have hgrid := onGrid_ne_none hne hden hvalue
    (by simpa [zpow_sub₀] using hmagnitude :
      (10 : ℚ) ^ (Ratio.magnitude (.scaled x.significand 2 x.exponent) - (0 + 16 : Nat)) *
        10 ^ 16 ≤ size x)
  have hsearch := search_ne_none (by decide : 16 < 17) hgrid
  unfold shortest
  rw [if_neg hne]
  simp only
  split
  · rename_i d hfound
    rw [value_trimZeros]
    exact between_of_holds hne (holds_of_search hfound)
  · rename_i hnone
    exact absurd hnone hsearch

/-!
# Neighbours
-/

theorem exists_size_eq {e : Int} (hle : e ≤ x.exponent) :
    exists k : Nat, x.exponent = e + k ∧
      size x = (x.significand * 2 ^ k : Nat) * (2 : ℚ) ^ e := by
  rcases Int.le.dest hle with ⟨k, hk⟩
  refine ⟨k, hk.symm, ?_⟩
  unfold size
  rw [← hk, zpow_add₀ two_ne_zero, zpow_natCast]
  push_cast
  ring

theorem quartersBelow_le (x : Binary64) : quartersBelow x ≤ 2 := by
  unfold quartersBelow
  split <;> decide

theorem le_significand_of_lt_exponent (hexponent : -1074 < x.exponent) :
    x.significand = 0x10000000000000 ∧ quartersBelow x = 1 ∨
      0x10000000000000 < x.significand ∧ quartersBelow x = 2 := by
  unfold quartersBelow
  unfold Binary64.exponent at hexponent
  unfold Binary64.significand Binary64.hiddenBit
  by_cases hzero : x.biasedExponent = 0
  · rw [if_pos hzero] at hexponent
    omega
  · rw [if_neg hzero] at hexponent ⊢
    by_cases hfraction : x.fraction = 0
    · rw [if_pos ⟨hfraction, by omega⟩]
      exact Or.inl ⟨by omega, rfl⟩
    · rw [if_neg fun h => hfraction h.left]
      exact Or.inr ⟨by omega, rfl⟩

theorem least_exponent_le (x : Binary64) : -1074 ≤ x.exponent := by
  unfold Binary64.exponent
  split <;> omega

theorem steps_le_of_lt_exponent (hless : y.exponent < x.exponent) :
    size y + quartersBelow x / 2 * (2 : ℚ) ^ x.exponent ≤ size x := by
  have hleast := least_exponent_le y
  have hsmall := significand_lt y
  have hstep : (0 : ℚ) < (2 : ℚ) ^ y.exponent := by positivity
  rcases exists_size_eq (Int.le_of_lt hless) with ⟨k, hk, hsize⟩
  cases k with
  | zero => omega
  | succ k =>
      have hpow : 1 ≤ 2 ^ k := Nat.one_le_two_pow
      have hsteps : 2 * y.significand + quartersBelow x * 2 ^ (k + 1) ≤
          2 * (x.significand * 2 ^ (k + 1)) := by
        rw [Nat.pow_succ]
        rcases le_significand_of_lt_exponent (by omega : -1074 < x.exponent) with
          ⟨hsignificand, hquarters⟩ | ⟨hsignificand, hquarters⟩
        · rw [hsignificand, hquarters]
          omega
        · rw [hquarters]
          nlinarith
      have hscaled : (2 * y.significand + quartersBelow x * 2 ^ (k + 1) : ℚ) *
          (2 : ℚ) ^ y.exponent ≤ 2 * (x.significand * 2 ^ (k + 1)) * (2 : ℚ) ^ y.exponent :=
        mul_le_mul_of_nonneg_right (by exact_mod_cast hsteps) hstep.le
      rw [hsize, hk, zpow_add₀ two_ne_zero, zpow_natCast]
      unfold size
      push_cast
      linarith

theorem step_le_of_lt (hless : size x < size y) : size x + (2 : ℚ) ^ x.exponent ≤ size y := by
  have hstep : (0 : ℚ) < (2 : ℚ) ^ x.exponent := by positivity
  rcases Int.lt_or_le y.exponent x.exponent with hexponent | hexponent
  · have hbelow := steps_le_of_lt_exponent hexponent
    have hquarters : (0 : ℚ) ≤ quartersBelow x / 2 * (2 : ℚ) ^ x.exponent := by positivity
    linarith
  · rcases exists_size_eq hexponent with ⟨k, _, hsize⟩
    rw [hsize] at hless ⊢
    have hcount : x.significand < y.significand * 2 ^ k := by
      exact_mod_cast lt_of_mul_lt_mul_right hless hstep.le
    have hscaled := mul_le_mul_of_nonneg_right
      (Nat.cast_le.mpr (Nat.succ_le_of_lt hcount) : ((x.significand + 1 : Nat) : ℚ) ≤ _) hstep.le
    unfold size
    push_cast at hscaled ⊢
    linarith

theorem steps_le_of_lt (hless : size y < size x) :
    size y + quartersBelow x / 2 * (2 : ℚ) ^ x.exponent ≤ size x := by
  have hstep : (0 : ℚ) < (2 : ℚ) ^ x.exponent := by positivity
  rcases Int.lt_or_le y.exponent x.exponent with hexponent | hexponent
  · exact steps_le_of_lt_exponent hexponent
  · rcases exists_size_eq hexponent with ⟨k, _, hsize⟩
    have hquarters : (quartersBelow x : ℚ) ≤ 2 := by exact_mod_cast quartersBelow_le x
    rw [hsize] at hless ⊢
    have hcount : y.significand * 2 ^ k < x.significand := by
      exact_mod_cast lt_of_mul_lt_mul_right hless hstep.le
    have hscaled := mul_le_mul_of_nonneg_right
      (Nat.cast_le.mpr (Nat.succ_le_of_lt hcount) : _ ≤ (x.significand : ℚ)) hstep.le
    have hhalf := mul_le_mul_of_nonneg_right hquarters hstep.le
    unfold size
    push_cast at hscaled ⊢
    linarith

theorem nearest_of_between {q : ℚ} (hbetween : Between x q) (y : Binary64) :
    |q - size x| ≤ |q - size y| := by
  have hstep : (0 : ℚ) < (2 : ℚ) ^ x.exponent := by positivity
  have hquarters : (quartersBelow x : ℚ) * (2 : ℚ) ^ x.exponent ≤ 2 * (2 : ℚ) ^ x.exponent :=
    mul_le_mul_of_nonneg_right (by exact_mod_cast quartersBelow_le x) hstep.le
  have habove := hbetween.above
  have hbelow := hbetween.below
  rcases lt_trichotomy (size x) (size y) with hless | hsame | hless
  · have hnext := step_le_of_lt hless
    rw [abs_sub_comm q (size y)]
    refine le_trans (abs_le.mpr ⟨?_, ?_⟩) (le_abs_self _) <;> linarith
  · rw [hsame]
  · have hprevious := steps_le_of_lt hless
    refine le_trans (abs_le.mpr ⟨?_, ?_⟩) (le_abs_self _) <;> linarith

/-- No floating-point number is nearer to the shortest decimal of a number. -/
theorem nearest_shortest (x y : Binary64) :
    |(shortest x).value - size x| ≤ |(shortest x).value - size y| := by
  by_cases hzero : x.significand = 0
  · have hshortest : (shortest x).value = 0 := by
      unfold shortest
      rw [if_pos hzero]
      simp [Digits.value]
    have hsize : size x = 0 := by simp [size, hzero]
    rw [hshortest, hsize, sub_self, abs_zero]
    exact abs_nonneg _
  · exact nearest_of_between (between_shortest hzero) y

end Decimal
end Gatekeeper
