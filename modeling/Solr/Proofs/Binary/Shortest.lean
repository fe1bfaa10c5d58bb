import Solr.Binary.Shortest
import Solr.Proofs.Binary.Decimal

/-! The decimal that is written for a binary value reads back as that value. That it has
the fewest digits is not claimed here. -/
namespace Solr

namespace Text

theorem digitsValue_zeros (ds : List Char) (n : Nat) :
    digitsValue (ds ++ List.replicate n '0') = digitsValue ds * 10 ^ n := by
  simp [digitsValue, Nat.ofDigitChars_append, Nat.mul_comm]

/-- A text is what stands before the zeros at its end, and these. -/
theorem eq_append_zeros (ds : List Char) :
    ∃ front, ds = front ++ List.replicate (ds.reverse.takeWhile (· = '0')).length '0' := by
  have zeros : ds.reverse.takeWhile (· = '0') =
      List.replicate (ds.reverse.takeWhile (· = '0')).length '0' := by
    apply List.eq_replicate_of_mem
    intro c member
    have zero := List.all_takeWhile (l := ds.reverse) (p := (· = '0'))
    simpa using List.all_eq_true.mp zero c member
  refine ⟨(ds.reverse.dropWhile (· = '0')).reverse, ?_⟩
  have whole := congrArg List.reverse
    (List.takeWhile_append_dropWhile (p := (· = '0')) (l := ds.reverse))
  rw [List.reverse_append, List.reverse_reverse, zeros, List.reverse_replicate] at whole
  exact whole.symm

end Text

namespace Decimal

/-- Zeros at the end of the coefficient make up for the exponent. -/
theorem value_shift (c n : Nat) (e : Int) :
    (Decimal.mk (c * 10 ^ n) e).value = (Decimal.mk c (e + n)).value := by
  simp only [value, Nat.cast_mul, Nat.cast_pow, Nat.cast_ofNat]
  rw [zpow_add₀ (by norm_num : (10 : ℚ) ≠ 0), zpow_natCast]
  ring

theorem value_trimmed (d : Decimal) : d.trimmed.value = d.value := by
  unfold trimmed
  dsimp only
  split
  · rename_i zero
    simp [value, zero]
  · obtain ⟨front, whole⟩ := Text.eq_append_zeros (Text.digits d.coefficient)
    have coefficient := congrArg Text.digitsValue whole
    rw [Text.digitsValue_digits, Text.digitsValue_zeros] at coefficient
    have quotient : d.coefficient / Nat.pow 10
        ((Text.digits d.coefficient).reverse.takeWhile (· = '0')).length =
          Text.digitsValue front := by
      apply Nat.div_eq_of_eq_mul_left (Nat.pow_pos (by decide))
      exact coefficient
    rw [quotient, ← value_shift, ← coefficient]

end Decimal

namespace Binary

variable {f : Format}

theorem value_exactDecimal (m : Nat) (e : Int) : (exactDecimal m e).value = m * 2 ^ e := by
  unfold exactDecimal
  split
  · rename_i nonnegative
    obtain ⟨n, rfl⟩ := Int.eq_ofNat_of_zero_le nonnegative
    simp [Decimal.value]
  · rename_i negative
    obtain ⟨n, rfl⟩ : ∃ n : Nat, e = -n := ⟨(-e).toNat, by omega⟩
    have ten : (10 : ℚ) ^ n = 5 ^ n * 2 ^ n := by
      rw [← mul_pow]
      norm_num
    simp only [Decimal.value, neg_neg, Int.toNat_natCast, Nat.pow_eq, Nat.cast_mul, Nat.cast_pow,
      Nat.cast_ofNat, zpow_neg, zpow_natCast, ten]
    field_simp

theorem ofDecimal_zero (negative : Bool) {d : Decimal} (zero : d.coefficient = 0) :
    (ofDecimal negative d : Binary f) = Binary.zero negative := by
  simp [ofDecimal, zero]

/-- The digits that are written for a value read back as the value: those found were tried,
and all digits are exact. -/
theorem ofDecimal_shortest (tie : Tie) (precise : 0 < f.precision) {negative : Bool} {m : Nat}
    {e : Int} (canonical : f.Canonical m e) :
    ofDecimal negative ((finite negative m e canonical).shortestDecimal tie) =
      finite negative m e canonical := by
  by_cases zero : m = 0
  · subst zero
    have least : e = f.minExponent := by
      obtain ⟨-, -, -, leading | least⟩ := canonical
      · have : 0 < Nat.pow 2 (f.precision - 1) := Nat.pow_pos (by decide)
        omega
      · exact least
    subst least
    rw [ofDecimal_zero negative (by simp [shortestDecimal])]
    simp only [Binary.zero, pack, dif_pos canonical]
  · simp only [shortestDecimal, if_neg zero]
    rw [ofDecimal_congr negative (Decimal.value_trimmed _)]
    generalize hit : List.findSome? _ (List.range 17) = found
    cases found with
    | none => exact ofDecimal_exact negative canonical precise zero (value_exactDecimal m e)
    | some d =>
      obtain ⟨n, -, tried⟩ := List.exists_of_findSome?_eq_some hit
      simpa using List.find?_some tried

end Binary
end Solr
