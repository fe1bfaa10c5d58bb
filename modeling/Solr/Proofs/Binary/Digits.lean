import Solr.Proofs.Binary.Whole

/-! The digits that are written for whole doubles. The grids that are tried for a whole value
are never finer than the whole numbers: the value itself is a point of that grid. Below
`10 ^ 16` what reads back on a coarser grid is a double, and so the value itself; from there
on what reads back has no fewer digits before the point than the value. -/
namespace Solr

/-- The first of the numbers below a bound that has a result is no greater than another one
that has; if there is none, that one is not below the bound. -/
theorem findSome?_range_reaches {α : Type} {find : Nat → Option α} {bound : Nat}
    {found : Option α} (tried : (List.range bound).findSome? find = found) {j : Nat} {b : α}
    (hit : find j = some b) :
    (found = none ∧ bound ≤ j) ∨ ∃ k ≤ j, ∃ a, found = some a ∧ find k = some a := by
  induction bound generalizing found with
  | zero => exact .inl ⟨tried.symm, Nat.zero_le j⟩
  | succ bound ih =>
    rw [List.range_succ, List.findSome?_append] at tried
    rcases ih rfl with ⟨before, far⟩ | ⟨k, near, a, before, here⟩
    · rw [before, Option.none_or, List.findSome?_singleton] at tried
      cases last : find bound with
      | none =>
        have apart : j ≠ bound := by
          rintro rfl
          cases last.symm.trans hit
        exact .inl ⟨tried.symm.trans last, by omega⟩
      | some a => exact .inr ⟨bound, far, a, tried.symm.trans last, last⟩
    · rw [before, Option.some_or] at tried
      exact .inr ⟨k, near, a, tried.symm, here⟩

namespace Ratio

variable {r : Ratio} {n : Nat}

theorem Whole.floorLog10 (whole : r.Whole n) (nonzero : n ≠ 0) :
    r.floorLog10 = Nat.log 10 n := by
  have atLeast : r.den ≤ r.num := by
    rw [whole.num]
    exact Nat.le_mul_of_pos_left _ (Nat.pos_of_ne_zero nonzero)
  have notEmpty : 0 < (Text.digits n).length := List.length_pos_iff.mpr (Text.digits_ne_nil n)
  obtain ⟨low, high⟩ := Text.digits_length_bounds (Nat.pos_of_ne_zero nonzero)
  have log : Nat.log 10 n = (Text.digits n).length - 1 :=
    Nat.log_eq_of_pow_le_of_lt_pow low (by rwa [Nat.sub_add_cancel notEmpty])
  rw [Ratio.floorLog10, if_pos atLeast, whole.div, log, Nat.cast_pred notEmpty]

theorem Whole.neighbours_zero (whole : r.Whole n) (tie : Tie) :
    r.neighbours tie 0 = [⟨n, 0⟩, ⟨n + 1, 0⟩] := by
  simp [neighbours, whole.num, Nat.mul_div_cancel _ whole.den, whole.den]

theorem Whole.find?_neighbours (whole : r.Whole n) (tie : Tie) {p : Decimal → Bool}
    (found : p ⟨n, 0⟩) : (r.neighbours tie 0).find? p = some ⟨n, 0⟩ := by
  rw [whole.neighbours_zero, List.find?_cons_of_pos found]

theorem Whole.mem_neighbours (whole : r.Whole n) {tie : Tie} {t : Nat} {d : Decimal}
    (member : d ∈ r.neighbours tie t) :
    d.exponent = t ∧ (d.coefficient = n / 10 ^ t ∨ d.coefficient = n / 10 ^ t + 1) := by
  have low : r.num / (r.den * 10 ^ t) = n / 10 ^ t := by
    rw [← Nat.div_div_eq_div_mul, whole.div]
  unfold neighbours at member
  simp only [Int.natCast_nonneg, if_true, Int.toNat_natCast, Nat.pow_eq, low] at member
  split at member <;> rcases List.mem_pair.mp member with rfl | rfl <;> simp

end Ratio

namespace Decimal

theorem exponent_trimmed {d : Decimal} (whole : 0 ≤ d.exponent) : 0 ≤ d.trimmed.exponent := by
  unfold trimmed
  dsimp only
  split
  · exact le_rfl
  · exact Int.add_nonneg whole (Int.natCast_nonneg _)

end Decimal

namespace Binary

variable {f : Format}

/-- The decimals that may be written for a whole value. With more than seventeen digits it may
be all of them, and otherwise it is a neighbour that reads back, on a grid that goes down to
the whole numbers at most. -/
theorem shortestDecimal_whole (tie : Tie) (precise : 0 < f.precision) (negative : Bool) {m : Nat}
    {e : Int} (canonical : f.Canonical m e) {n : Nat} (whole : (Ratio.scaled 2 m e).Whole n)
    (nonzero : n ≠ 0) :
    ∃ d : Decimal, (finite negative m e canonical).shortestDecimal tie = d.trimmed ∧
      (16 < Nat.log 10 n ∧ d.value = n ∨
        ∃ t ≤ Nat.log 10 n, d ∈ (Ratio.scaled 2 m e).neighbours tie t ∧
          ofDecimal negative d = finite negative m e canonical ∧ (t = 0 → d = ⟨n, 0⟩)) := by
  have value := Ratio.scaled_whole_iff.mp whole
  have significand : m ≠ 0 := by
    rintro rfl
    rw [Nat.cast_zero, zero_mul, eq_comm] at value
    exact nonzero (by exact_mod_cast value)
  have reads : ofDecimal negative ⟨n, 0⟩ = finite negative m e canonical :=
    ofDecimal_exact negative canonical precise significand (by simp [Decimal.value, value])
  simp only [shortestDecimal, if_neg significand, whole.floorLog10 nonzero]
  generalize tried : List.findSome? _ (List.range 17) = found
  -- On the grid of the whole numbers the value itself is tried first.
  have hit : ((Ratio.scaled 2 m e).neighbours tie (Nat.log 10 n - Nat.log 10 n)).find?
      (fun d => ofDecimal negative d = finite negative m e canonical) = some ⟨n, 0⟩ := by
    rw [sub_self]
    exact whole.find?_neighbours tie (decide_eq_true reads)
  rcases findSome?_range_reaches tried (j := Nat.log 10 n) hit with
    ⟨rfl, long⟩ | ⟨k, coarse, d, rfl, here⟩
  · exact ⟨exactDecimal m e, rfl, .inl ⟨long, (value_exactDecimal m e).trans value⟩⟩
  · obtain ⟨t, log⟩ := Nat.exists_eq_add_of_le' coarse
    have grid : (Nat.log 10 n : Int) - k = t := by omega
    rw [grid] at here
    refine ⟨d, rfl, .inr ⟨t, by omega, List.mem_of_find?_eq_some here, ?_, ?_⟩⟩
    · simpa using List.find?_some here
    · rintro rfl
      rw [sub_self] at hit
      exact Option.some.inj (here.symm.trans hit)

/-- No decimal that is written for a whole value has fewer digits before the point. -/
theorem le_shortestDecimal (tie : Tie) (precise : 0 < f.precision) (negative : Bool) {m : Nat}
    {e : Int} (canonical : f.Canonical m e) {n : Nat} (whole : (Ratio.scaled 2 m e).Whole n)
    (nonzero : n ≠ 0) :
    (10 : ℚ) ^ Nat.log 10 n ≤ ((finite negative m e canonical).shortestDecimal tie).value := by
  have low : 10 ^ Nat.log 10 n ≤ n := Nat.pow_log_le_self 10 nonzero
  obtain ⟨d, same, ⟨-, value⟩ | ⟨t, coarse, member, -, -⟩⟩ :=
    shortestDecimal_whole tie precise negative canonical whole nonzero
  · rw [same, Decimal.value_trimmed, value]
    exact_mod_cast low
  · obtain ⟨exponent, coefficient⟩ := whole.mem_neighbours member
    have point : 10 ^ (Nat.log 10 n - t) ≤ d.coefficient := by
      have floor : 10 ^ (Nat.log 10 n - t) ≤ n / 10 ^ t := by
        rw [Nat.le_div_iff_mul_le (Nat.pow_pos (by decide)), ← Nat.pow_add,
          Nat.sub_add_cancel coarse]
        exact low
      omega
    rw [same, Decimal.value_trimmed, Decimal.value, exponent, zpow_natCast]
    calc (10 : ℚ) ^ Nat.log 10 n = 10 ^ (Nat.log 10 n - t) * 10 ^ t := by
          rw [← pow_add, Nat.sub_add_cancel coarse]
      _ ≤ d.coefficient * 10 ^ t := by
        gcongr
        exact_mod_cast point

/-- Below `10 ^ 16` the neighbours on a coarser grid are short enough for a double. -/
theorem coarse_short {n t c : Nat} (small : n < 10 ^ 16) (coarse : 0 < t) (grid : t ≤ 15)
    (neighbour : c ≤ n / 10 ^ t + 1) : c * 5 ^ t < 2 ^ 53 := by
  have split : 10 ^ 16 = 10 ^ t * 10 ^ (16 - t) := by
    rw [← Nat.pow_add]
    congr 1
    omega
  have floor : n / 10 ^ t < 10 ^ (16 - t) := Nat.div_lt_of_lt_mul (split ▸ small)
  calc c * 5 ^ t ≤ 10 ^ (16 - t) * 5 ^ t := Nat.mul_le_mul_right _ (by omega)
    _ = 2 ^ (16 - t) * 5 ^ 16 := by
      rw [show 10 = 2 * 5 from rfl, Nat.mul_pow, Nat.mul_assoc, ← Nat.pow_add]
      congr 2
      omega
    _ ≤ 2 ^ 15 * 5 ^ 16 := Nat.mul_le_mul_right _ (Nat.pow_le_pow_right Nat.two_pos (by omega))
    _ < 2 ^ 53 := by norm_num

/-- The decimal that is written for a whole double below `10 ^ 16` is this number, and has no
digits after the point. -/
theorem shortestDecimal_exact (tie : Tie) (negative : Bool) {m : Nat} {e : Int}
    (canonical : Format.double.Canonical m e) {n : Nat} (whole : (Ratio.scaled 2 m e).Whole n)
    (small : n < 10 ^ 16) :
    ((finite negative m e canonical).shortestDecimal tie).value = n ∧
      0 ≤ ((finite negative m e canonical).shortestDecimal tie).exponent := by
  have value := Ratio.scaled_whole_iff.mp whole
  by_cases zero : n = 0
  · have significand : m = 0 := by
      rw [zero, Nat.cast_zero] at value
      simpa [zpow_ne_zero] using value
    simp [shortestDecimal, significand, Decimal.value, zero]
  · have short : Nat.log 10 n < 16 := Nat.log_lt_of_lt_pow zero small
    obtain ⟨d, same, ⟨long, -⟩ | ⟨t, coarse, member, reads, finest⟩⟩ :=
      shortestDecimal_whole tie (by decide) negative canonical whole zero
    · omega
    · obtain ⟨exponent, coefficient⟩ := whole.mem_neighbours member
      rw [same, Decimal.value_trimmed]
      refine ⟨?_, Decimal.exponent_trimmed (by omega)⟩
      rcases Nat.eq_zero_or_pos t with rfl | positive
      · simp [finest rfl, Decimal.value]
      · have exact : d.value = (d.coefficient * 5 ^ t : Nat) * 2 ^ (t : Int) := by
          rw [Decimal.value, exponent, zpow_natCast, zpow_natCast]
          push_cast
          rw [mul_assoc, ← mul_pow]
          norm_num
        have fits := coarse_short small positive (by omega) (c := d.coefficient) (by omega)
        have double := value?_ofDecimal (f := .double) fits
          (le_trans (by decide) (Int.natCast_nonneg t))
          (le_trans (by omega : (t : Int) ≤ 15) (by decide)) negative (by decide) exact
        rw [reads, value?, Option.some.injEq, signed_inj] at double
        rw [← double, value]

end Binary
end Solr
