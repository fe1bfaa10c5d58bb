import Solr.Binary.Decimal
import Solr.Proofs.Binary.Rounding

/-! Reading a decimal as a binary value: equal decimals are read alike, and a decimal that
is a value of the format is read as that value. -/
namespace Solr

namespace Text

theorem digits_length_bounds {n : Nat} (positive : 0 < n) :
    10 ^ ((digits n).length - 1) ≤ n ∧ n < 10 ^ (digits n).length := by
  have notEmpty : 0 < (digits n).length := List.length_pos_iff.mpr (digits_ne_nil n)
  constructor
  · by_cases single : (digits n).length = 1
    · rw [single]
      exact positive
    · have longer : ¬ (digits n).length ≤ (digits n).length - 1 := by omega
      rw [digits, Nat.length_toDigits_le_iff (by decide) (by rw [digits] at *; omega)] at longer
      exact Nat.not_lt.mp longer
  · exact (Nat.length_toDigits_le_iff (by decide) notEmpty).mp (Nat.le_refl _)

end Text

namespace Decimal

/-- The rational number that a decimal stands for. -/
def value (d : Decimal) : ℚ :=
  d.coefficient * 10 ^ d.exponent

theorem value_ratio (d : Decimal) : d.ratio.value = d.value := by
  rw [ratio, Ratio.value_scaled (by decide), value, Nat.cast_ofNat]

theorem den_ratio_pos (d : Decimal) : 0 < d.ratio.den :=
  Ratio.den_scaled_pos (by decide) _ _

theorem value_eq_zero_iff (d : Decimal) : d.value = 0 ↔ d.coefficient = 0 := by
  simp [value, zpow_ne_zero]

theorem leadingExponent_eq (d : Decimal) (nonzero : d.coefficient ≠ 0) :
    d.leadingExponent = Int.log 10 d.value := by
  obtain ⟨low, high⟩ := Text.digits_length_bounds (Nat.pos_of_ne_zero nonzero)
  have notEmpty : 0 < (Text.digits d.coefficient).length :=
    List.length_pos_iff.mpr (Text.digits_ne_nil _)
  have ten : (10 : ℚ) ≠ 0 := by norm_num
  have low' : (10 : ℚ) ^ (((Text.digits d.coefficient).length : Int) - 1) ≤ d.coefficient := by
    rw [← Nat.cast_pred notEmpty, zpow_natCast]
    exact_mod_cast low
  have high' : (d.coefficient : ℚ) < 10 ^ ((Text.digits d.coefficient).length : Int) := by
    exact_mod_cast high
  symm
  apply log_eq_of_bounds (by decide)
  · calc ((10 : Nat) : ℚ) ^ d.leadingExponent
        = 10 ^ (((Text.digits d.coefficient).length : Int) - 1) * 10 ^ d.exponent := by
          rw [← zpow_add₀ ten, leadingExponent, Nat.cast_ofNat]
          congr 1
          omega
      _ ≤ d.coefficient * 10 ^ d.exponent := by gcongr
  · calc d.value < 10 ^ ((Text.digits d.coefficient).length : Int) * 10 ^ d.exponent := by
          unfold value
          gcongr
      _ = ((10 : Nat) : ℚ) ^ (d.leadingExponent + 1) := by
          rw [← zpow_add₀ ten, leadingExponent, Nat.cast_ofNat]
          congr 1
          omega

end Decimal

namespace Binary

variable {f : Format}

/-- Equal decimals are read alike. -/
theorem ofDecimal_congr (negative : Bool) {d c : Decimal} (same : d.value = c.value) :
    (ofDecimal negative d : Binary f) = ofDecimal negative c := by
  have zeros : d.coefficient = 0 ↔ c.coefficient = 0 := by
    rw [← d.value_eq_zero_iff, same, c.value_eq_zero_iff]
  by_cases zero : d.coefficient = 0
  · simp [ofDecimal, zero, zeros.mp zero]
  · have nonzero : c.coefficient ≠ 0 := fun h => zero (zeros.mpr h)
    have lead : d.leadingExponent = c.leadingExponent := by
      rw [d.leadingExponent_eq zero, c.leadingExponent_eq nonzero, same]
    have rounded : (nearest negative d.ratio : Binary f) = nearest negative c.ratio := by
      apply nearest_congr negative d.den_ratio_pos c.den_ratio_pos
      rw [d.value_ratio, c.value_ratio, same]
    simp only [ofDecimal, if_neg zero, if_neg nonzero, lead, rounded]

/-- The first digit of a value of the format lies within the span of the format. -/
theorem leadingExponent_bounds {m : Nat} {e : Int} (canonical : f.Canonical m e)
    (nonzero : m ≠ 0) {d : Decimal} (exact : d.value = m * 2 ^ e) (notZero : d.coefficient ≠ 0) :
    d.leadingExponent ≤ f.decimalSpan ∧ -f.decimalSpan ≤ d.leadingExponent := by
  obtain ⟨small, atLeast, atMost, -⟩ := canonical
  have one : (1 : ℚ) ≤ m := by exact_mod_cast Nat.pos_of_ne_zero nonzero
  have below : (m : ℚ) < 2 ^ (f.precision : Int) := by exact_mod_cast small
  have positive : 0 < d.value := by
    rw [exact]
    positivity
  rw [d.leadingExponent_eq notZero]
  constructor
  · have high : d.value < (10 : Nat) ^ f.decimalSpan := by
      calc d.value = m * 2 ^ e := exact
        _ < 2 ^ (f.precision : Int) * 2 ^ e := by gcongr
        _ = 2 ^ ((f.precision : Int) + e) := (zpow_add₀ (by norm_num) _ _).symm
        _ ≤ 2 ^ f.decimalSpan := by
          gcongr
          · norm_num
          · unfold Format.decimalSpan
            omega
        _ ≤ (10 : Nat) ^ f.decimalSpan := by
          have nonnegative : 0 ≤ f.decimalSpan := by
            unfold Format.decimalSpan
            omega
          obtain ⟨n, span⟩ := Int.eq_ofNat_of_zero_le nonnegative
          rw [span]
          exact_mod_cast Nat.pow_le_pow_left (by decide : 2 ≤ 10) n
    exact ((Int.lt_zpow_iff_log_lt (by decide) positive).mp high).le
  · have low : ((10 : Nat) : ℚ) ^ (-f.decimalSpan) ≤ d.value := by
      have nonnegative : 0 ≤ f.decimalSpan := by
        unfold Format.decimalSpan
        omega
      calc ((10 : Nat) : ℚ) ^ (-f.decimalSpan) ≤ 2 ^ (-f.decimalSpan) := by
            obtain ⟨n, span⟩ := Int.eq_ofNat_of_zero_le nonnegative
            rw [span, zpow_neg, zpow_neg]
            apply inv_anti₀ (by positivity)
            exact_mod_cast Nat.pow_le_pow_left (by decide : 2 ≤ 10) n
        _ ≤ 2 ^ e := by
          gcongr
          · norm_num
          · unfold Format.decimalSpan
            omega
        _ ≤ m * 2 ^ e := le_mul_of_one_le_left (by positivity) one
        _ = d.value := exact.symm
    exact (Int.zpow_le_iff_le_log (by decide) positive).mp low

/-- A decimal that is a value of the format is read as that value. -/
theorem ofDecimal_exact (negative : Bool) {m : Nat} {e : Int} (canonical : f.Canonical m e)
    (precise : 0 < f.precision) (nonzero : m ≠ 0) {d : Decimal} (exact : d.value = m * 2 ^ e) :
    ofDecimal negative d = finite negative m e canonical := by
  have notZero : d.coefficient ≠ 0 := by
    intro zero
    have mPositive : (0 : ℚ) < m := by exact_mod_cast Nat.pos_of_ne_zero nonzero
    have positive : (0 : ℚ) < m * 2 ^ e := by positivity
    rw [← exact, d.value_eq_zero_iff.mpr zero] at positive
    exact absurd positive (lt_irrefl 0)
  obtain ⟨high, low⟩ := leadingExponent_bounds canonical nonzero exact notZero
  simp only [ofDecimal, if_neg notZero, if_neg (not_lt.mpr high), if_neg (not_lt.mpr low)]
  exact nearest_exact negative canonical precise nonzero d.den_ratio_pos
    (d.value_ratio.trans exact)

end Binary
end Solr
