import Mathlib.Algebra.Order.Field.Power
import Mathlib.Data.Int.Log
import Mathlib.Data.Rat.Floor
import Solr.Binary.Round

/-! Rounding depends on the rational number alone and not on the quotient that is written
for it, and it leaves the values of the format as they are. -/
namespace Solr

namespace Ratio

/-- The rational number that a quotient stands for. -/
def value (r : Ratio) : ℚ :=
  r.num / r.den

theorem value_scaled {base : Nat} (positive : 0 < base) (significand : Nat) (exponent : Int) :
    (scaled base significand exponent).value = significand * (base : ℚ) ^ exponent := by
  have nonzero : (base : ℚ) ≠ 0 := by exact_mod_cast positive.ne'
  unfold scaled value
  split
  · rename_i nonnegative
    obtain ⟨n, rfl⟩ := Int.eq_ofNat_of_zero_le nonnegative
    simp
  · rename_i negative
    obtain ⟨n, rfl⟩ : ∃ n : Nat, exponent = -n := ⟨(-exponent).toNat, by omega⟩
    simp [div_eq_mul_inv]

theorem den_scaled_pos {base : Nat} (positive : 0 < base) (significand : Nat) (exponent : Int) :
    0 < (scaled base significand exponent).den := by
  unfold scaled
  split
  · exact Nat.one_pos
  · exact Nat.pow_pos positive

/-- Equal values are equal as cross products. -/
theorem cross_of_value_eq {r q : Ratio} (rPositive : 0 < r.den) (qPositive : 0 < q.den)
    (same : r.value = q.value) : r.num * q.den = q.num * r.den := by
  have rNonzero : (r.den : ℚ) ≠ 0 := by exact_mod_cast rPositive.ne'
  have qNonzero : (q.den : ℚ) ≠ 0 := by exact_mod_cast qPositive.ne'
  unfold value at same
  rw [div_eq_div_iff rNonzero qNonzero] at same
  exact_mod_cast same

theorem div_lt_iff_value_lt {r : Ratio} (positive : 0 < r.den) (n : Nat) :
    r.num / r.den < n ↔ r.value < n := by
  have positive' : (0 : ℚ) < r.den := by exact_mod_cast positive
  unfold value
  rw [Nat.div_lt_iff_lt_mul positive, div_lt_iff₀ positive']
  exact_mod_cast Iff.rfl

end Ratio

/-- A logarithm is settled by the powers around the number. -/
theorem log_eq_of_bounds {base : Nat} (big : 1 < base) {v : ℚ} {n : Int}
    (low : (base : ℚ) ^ n ≤ v) (high : v < (base : ℚ) ^ (n + 1)) : Int.log base v = n := by
  have positive : 0 < v := lt_of_lt_of_le (zpow_pos (by exact_mod_cast (by omega : 0 < base)) n) low
  have atLeast := (Int.zpow_le_iff_le_log big positive).mp low
  have below := (Int.lt_zpow_iff_log_lt big positive).mp high
  omega

theorem divNearest_mul {k : Nat} (positive : 0 < k) (num den : Nat) :
    divNearest (k * num) (k * den) = divNearest num den := by
  have scale (x y : Nat) : 2 * (k * x) < k * y ↔ 2 * x < y := by
    rw [Nat.mul_left_comm]
    exact Nat.mul_lt_mul_left positive
  have scale' (x y : Nat) : k * y < 2 * (k * x) ↔ y < 2 * x := by
    rw [Nat.mul_left_comm]
    exact Nat.mul_lt_mul_left positive
  unfold divNearest
  simp only [Nat.mul_div_mul_left _ _ positive, Nat.mul_mod_mul_left, scale, scale']

theorem divNearest_congr {a b c d : Nat} (b_pos : 0 < b) (d_pos : 0 < d)
    (same : a * d = c * b) : divNearest a b = divNearest c d := by
  calc divNearest a b = divNearest (d * a) (d * b) := (divNearest_mul d_pos a b).symm
    _ = divNearest (b * c) (b * d) := by
      rw [Nat.mul_comm d a, same, Nat.mul_comm c b, Nat.mul_comm d b]
    _ = divNearest c d := divNearest_mul b_pos c d

theorem divNearest_one (n : Nat) : divNearest n 1 = n := by
  simp [divNearest, Nat.mod_one]

theorem divNearest_bounds (num den : Nat) :
    num / den ≤ divNearest num den ∧ divNearest num den ≤ num / den + 1 := by
  unfold divNearest
  dsimp only
  split
  · omega
  · split <;> omega

namespace Format

theorem value_unscale (r : Ratio) (exponent : Int) :
    (unscale r exponent).value = r.value / 2 ^ exponent := by
  unfold unscale Ratio.value
  split
  · rename_i nonnegative
    obtain ⟨n, rfl⟩ := Int.eq_ofNat_of_zero_le nonnegative
    simp [div_div]
  · rename_i negative
    obtain ⟨n, rfl⟩ : ∃ n : Nat, exponent = -n := ⟨(-exponent).toNat, by omega⟩
    simp only [neg_neg, Int.toNat_natCast, Nat.pow_eq, Nat.cast_mul, Nat.cast_pow,
      Nat.cast_ofNat, zpow_neg, zpow_natCast, div_inv_eq_mul]
    rw [div_mul_eq_mul_div]

theorem den_unscale_pos {r : Ratio} (positive : 0 < r.den) (exponent : Int) :
    0 < (unscale r exponent).den := by
  unfold unscale
  split
  · exact Nat.mul_pos positive (Nat.pow_pos Nat.two_pos)
  · exact positive

/-- The estimate from the lengths of numerator and denominator is one too low at most. -/
theorem lastBit_eq (f : Format) {r : Ratio} (num : 0 < r.num) (den : 0 < r.den) :
    f.lastBit r = max (Int.log 2 r.value + 1 - f.precision) f.minExponent := by
  have num' : (0 : ℚ) < r.num := by exact_mod_cast num
  have den' : (0 : ℚ) < r.den := by exact_mod_cast den
  have numLow : (2 : ℚ) ^ (r.num.log2 : Int) ≤ r.num := by
    exact_mod_cast Nat.log2_self_le num.ne'
  have numHigh : (r.num : ℚ) < 2 ^ ((r.num.log2 : Int) + 1) := by
    exact_mod_cast Nat.lt_log2_self
  have denLow : (2 : ℚ) ^ (r.den.log2 : Int) ≤ r.den := by
    exact_mod_cast Nat.log2_self_le den.ne'
  have denHigh : (r.den : ℚ) < 2 ^ ((r.den.log2 : Int) + 1) := by
    exact_mod_cast Nat.lt_log2_self
  have two : (2 : ℚ) ≠ 0 := by norm_num
  -- The value lies between the powers of two below and above the estimate.
  have low : (2 : ℚ) ^ ((r.num.log2 : Int) - r.den.log2 - 1) ≤ r.value := by
    unfold Ratio.value
    rw [le_div_iff₀ den']
    calc (2 : ℚ) ^ ((r.num.log2 : Int) - r.den.log2 - 1) * r.den
        ≤ 2 ^ ((r.num.log2 : Int) - r.den.log2 - 1) * 2 ^ ((r.den.log2 : Int) + 1) := by gcongr
      _ = 2 ^ (r.num.log2 : Int) := by
        rw [← zpow_add₀ two]
        congr 1
        omega
      _ ≤ r.num := numLow
  have high : r.value < 2 ^ ((r.num.log2 : Int) - r.den.log2 + 1) := by
    unfold Ratio.value
    rw [div_lt_iff₀ den']
    calc (r.num : ℚ) < 2 ^ ((r.num.log2 : Int) + 1) := numHigh
      _ = 2 ^ ((r.num.log2 : Int) - r.den.log2 + 1) * 2 ^ (r.den.log2 : Int) := by
        rw [← zpow_add₀ two]
        congr 1
        omega
      _ ≤ 2 ^ ((r.num.log2 : Int) - r.den.log2 + 1) * r.den := by gcongr
  have fits : (unscale r ((r.num.log2 : Int) - r.den.log2 - f.precision)).num /
        (unscale r ((r.num.log2 : Int) - r.den.log2 - f.precision)).den <
          Nat.pow 2 f.precision ↔ r.value < 2 ^ ((r.num.log2 : Int) - r.den.log2) := by
    rw [Ratio.div_lt_iff_value_lt (den_unscale_pos den _), value_unscale, Nat.pow_eq,
      Nat.cast_pow, div_lt_iff₀ (zpow_pos (by norm_num) _), Nat.cast_ofNat, ← zpow_natCast,
      ← zpow_add₀ two]
    simp only [add_sub_cancel]
  unfold lastBit
  simp only [fits]
  split
  · rename_i below
    have log : Int.log 2 r.value = (r.num.log2 : Int) - r.den.log2 - 1 :=
      log_eq_of_bounds Nat.one_lt_two low (by rw [sub_add_cancel]; exact below)
    rw [log]
    congr 1
    omega
  · rename_i above
    have log : Int.log 2 r.value = (r.num.log2 : Int) - r.den.log2 :=
      log_eq_of_bounds Nat.one_lt_two (not_lt.mp above) high
    rw [log]
    congr 1
    omega

end Format

namespace Binary

variable {f : Format}

/-- Equal numbers are rounded alike. -/
theorem nearest_congr (negative : Bool) {r q : Ratio} (rPositive : 0 < r.den)
    (qPositive : 0 < q.den) (same : r.value = q.value) :
    (nearest negative r : Binary f) = nearest negative q := by
  have cross := Ratio.cross_of_value_eq rPositive qPositive same
  by_cases zero : r.num = 0
  · have zero' : q.num = 0 := by
      rw [zero, Nat.zero_mul] at cross
      exact (Nat.mul_eq_zero.mp cross.symm).resolve_right rPositive.ne'
    simp [nearest, zero, zero']
  · have nonzero' : q.num ≠ 0 := by
      intro zero'
      rw [zero', Nat.zero_mul] at cross
      exact zero ((Nat.mul_eq_zero.mp cross).resolve_right qPositive.ne')
    have lastBit : f.lastBit r = f.lastBit q := by
      rw [f.lastBit_eq (Nat.pos_of_ne_zero zero) rPositive,
        f.lastBit_eq (Nat.pos_of_ne_zero nonzero') qPositive, same]
    have rounded : divNearest (Format.unscale r (f.lastBit q)).num
        (Format.unscale r (f.lastBit q)).den =
        divNearest (Format.unscale q (f.lastBit q)).num (Format.unscale q (f.lastBit q)).den := by
      apply divNearest_congr (Format.den_unscale_pos rPositive _)
        (Format.den_unscale_pos qPositive _)
      apply Ratio.cross_of_value_eq (Format.den_unscale_pos rPositive _)
        (Format.den_unscale_pos qPositive _)
      rw [Format.value_unscale, Format.value_unscale, same]
    simp only [nearest, if_neg zero, if_neg nonzero', lastBit, rounded]

/-- A value of the format is its own nearest value. -/
theorem nearest_exact (negative : Bool) {m : Nat} {e : Int} (canonical : f.Canonical m e)
    (precise : 0 < f.precision) (nonzero : m ≠ 0) {r : Ratio} (positive : 0 < r.den)
    (exact : r.value = m * 2 ^ e) : nearest negative r = finite negative m e canonical := by
  have two : (2 : ℚ) ≠ 0 := by norm_num
  have mPositive : (0 : ℚ) < m := by exact_mod_cast Nat.pos_of_ne_zero nonzero
  have numPositive : r.num ≠ 0 := by
    intro zero
    rw [Ratio.value, zero] at exact
    have : (0 : ℚ) < m * 2 ^ e := by positivity
    simp [← exact] at this
  have log : Int.log 2 r.value = m.log2 + e := by
    apply log_eq_of_bounds Nat.one_lt_two
    · rw [exact, Nat.cast_ofNat, zpow_add₀ two]
      gcongr
      exact_mod_cast Nat.log2_self_le nonzero
    · rw [exact, Nat.cast_ofNat, add_right_comm, zpow_add₀ two]
      gcongr
      exact_mod_cast Nat.lt_log2_self
  have lastBit : f.lastBit r = e := by
    obtain ⟨small, atLeast, -, normal⟩ := canonical
    have short : m.log2 < f.precision := (Nat.log2_lt nonzero).mpr (by simpa using small)
    rw [f.lastBit_eq (Nat.pos_of_ne_zero numPositive) positive, log]
    rcases normal with leading | least
    · have long : f.precision - 1 ≤ m.log2 :=
        (Nat.le_log2 nonzero).mpr (by simpa using leading)
      omega
    · omega
  have rounded : divNearest (Format.unscale r e).num (Format.unscale r e).den = m := by
    have scaled : (Format.unscale r e).value = (Ratio.mk m 1).value := by
      rw [Format.value_unscale, exact, mul_div_assoc, div_self (zpow_ne_zero e two)]
      simp [Ratio.value]
    have cross := Ratio.cross_of_value_eq (Format.den_unscale_pos positive e) Nat.one_pos scaled
    rw [divNearest_congr (Format.den_unscale_pos positive e) Nat.one_pos cross, divNearest_one]
  simp only [nearest, if_neg numPositive, lastBit, rounded, pack, dif_pos canonical]

/-- A significand that is kept has all its bits, unless the exponent is the smallest; it may
have carried into one more. -/
theorem isFinite_pack (negative : Bool) {m : Nat} {e : Int} (precise : 0 < f.precision)
    (least : f.minExponent ≤ e) (below : e < f.maxExponent) (high : m ≤ 2 ^ f.precision)
    (low : 2 ^ (f.precision - 1) ≤ m ∨ e = f.minExponent) :
    (pack negative m e : Binary f).isFinite := by
  have twice : 2 ^ f.precision = 2 * 2 ^ (f.precision - 1) := by
    rw [← Nat.pow_succ']
    congr 1
    omega
  by_cases fits : m < 2 ^ f.precision
  · have canonical : f.Canonical m e := ⟨fits, least, below.le, low⟩
    rw [pack, dif_pos canonical]
    rfl
  · have full : m = 2 ^ f.precision := by omega
    have notCanonical : ¬ f.Canonical m e := fun canonical => fits canonical.1
    have half : m / 2 = 2 ^ (f.precision - 1) := by omega
    have carried : f.Canonical (m / 2) (e + 1) := by
      refine ⟨?_, by omega, by omega, .inl half.ge⟩
      rw [Nat.pow_eq]
      have := Nat.pow_pos (n := f.precision - 1) Nat.two_pos
      omega
    rw [pack, dif_neg notCanonical, dif_pos carried]
    rfl

/-- Nothing below the largest power of two of the format is too large for it. -/
theorem isFinite_nearest (negative : Bool) (precise : 0 < f.precision)
    (range : f.minExponent < f.maxExponent) {r : Ratio} (positive : 0 < r.den)
    (small : r.value < 2 ^ (f.maxExponent + f.precision - 1)) :
    (nearest negative r : Binary f).isFinite := by
  have two : (2 : ℚ) ≠ 0 := by norm_num
  by_cases zero : r.num = 0
  · rw [nearest, if_pos zero]
    exact isFinite_pack negative precise le_rfl range (Nat.zero_le _) (.inr rfl)
  · have rPositive : 0 < r.value := by
      have num : (0 : ℚ) < r.num := by exact_mod_cast Nat.pos_of_ne_zero zero
      have den : (0 : ℚ) < r.den := by exact_mod_cast positive
      exact div_pos num den
    have lastBit := f.lastBit_eq (Nat.pos_of_ne_zero zero) positive
    have log : Int.log 2 r.value < f.maxExponent + f.precision - 1 :=
      (Int.lt_zpow_iff_log_lt Nat.one_lt_two rPositive).mp (by exact_mod_cast small)
    have below : r.value < (2 : ℚ) ^ (Int.log 2 r.value + 1) := by
      exact_mod_cast Int.lt_zpow_succ_log_self Nat.one_lt_two r.value
    have above : (2 : ℚ) ^ Int.log 2 r.value ≤ r.value := by
      exact_mod_cast Int.zpow_log_le_self Nat.one_lt_two rPositive
    rw [nearest, if_neg zero]
    dsimp only
    obtain ⟨atLeast, atMost⟩ := divNearest_bounds (Format.unscale r (f.lastBit r)).num
      (Format.unscale r (f.lastBit r)).den
    have unscaled := Format.den_unscale_pos positive (f.lastBit r)
    apply isFinite_pack negative precise
    · omega
    · omega
    · have fits : (Format.unscale r (f.lastBit r)).num / (Format.unscale r (f.lastBit r)).den <
          2 ^ f.precision := by
        rw [Ratio.div_lt_iff_value_lt unscaled, Format.value_unscale,
          div_lt_iff₀ (zpow_pos (by norm_num) _), Nat.cast_pow, Nat.cast_ofNat, ← zpow_natCast,
          ← zpow_add₀ two]
        apply lt_of_lt_of_le below
        exact zpow_le_zpow_right₀ (by norm_num) (by omega)
      omega
    · by_cases least : f.lastBit r = f.minExponent
      · exact .inr least
      · left
        have full : ¬ (Format.unscale r (f.lastBit r)).num /
            (Format.unscale r (f.lastBit r)).den < 2 ^ (f.precision - 1) := by
          rw [Ratio.div_lt_iff_value_lt unscaled, Format.value_unscale, not_lt,
            le_div_iff₀ (zpow_pos (by norm_num) _), Nat.cast_pow, Nat.cast_ofNat, ← zpow_natCast,
            ← zpow_add₀ two]
          apply le_trans _ above
          exact zpow_le_zpow_right₀ (by norm_num) (by omega)
        omega

/-- Whole numbers of 64 bits are far within the doubles. -/
theorem isFinite_ofInt {i : Int} (small : i.natAbs ≤ 2 ^ 64) : (ofInt i : Double).isFinite := by
  apply isFinite_nearest _ (by decide) (by decide) Nat.one_pos
  have bounded : (i.natAbs : ℚ) ≤ 2 ^ 64 := by exact_mod_cast small
  calc (Ratio.mk i.natAbs 1).value = i.natAbs := by simp [Ratio.value]
    _ ≤ 2 ^ 64 := bounded
    _ < 2 ^ (Format.double.maxExponent + Format.double.precision - 1) := by
      rw [← zpow_natCast]
      exact zpow_lt_zpow_right₀ (by norm_num) (by decide)

end Binary
end Solr
