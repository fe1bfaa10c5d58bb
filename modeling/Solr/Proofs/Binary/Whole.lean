import Solr.Proofs.Binary.Shortest

/-! The numbers that binary values stand for. The conversion of a whole value to an integer of
64 bits is exact within their range, and what fits in a format is rounded, read and converted
to itself. -/
namespace Solr

namespace Ratio

/-- A quotient that is a whole number. -/
structure Whole (r : Ratio) (n : Nat) : Prop where
  den : 0 < r.den
  num : r.num = n * r.den

theorem Whole.div {r : Ratio} {n : Nat} (whole : r.Whole n) : r.num / r.den = n := by
  rw [whole.num, Nat.mul_div_cancel _ whole.den]

theorem value_eq_natCast_iff {r : Ratio} (positive : 0 < r.den) {n : Nat} :
    r.value = n ↔ r.Whole n := by
  have nonzero : (r.den : ℚ) ≠ 0 := by exact_mod_cast positive.ne'
  have cross : r.value = n ↔ r.num = n * r.den := by
    unfold value
    rw [div_eq_iff nonzero]
    exact_mod_cast Iff.rfl
  rw [cross]
  exact ⟨fun num => ⟨positive, num⟩, Whole.num⟩

theorem scaled_whole_iff {m : Nat} {e : Int} {n : Nat} :
    (scaled 2 m e).Whole n ↔ (m * 2 ^ e : ℚ) = n := by
  rw [← value_eq_natCast_iff (den_scaled_pos Nat.two_pos m e), value_scaled Nat.two_pos,
    Nat.cast_ofNat]

end Ratio

section Signs

/-- An absolute value and its sign. -/
def signed {α : Type} [Neg α] (negative : Bool) (a : α) : α :=
  if negative then -a else a

theorem natAbs_signed (negative : Bool) (n : Nat) : (signed negative (n : Int)).natAbs = n := by
  cases negative <;> simp [signed]

theorem signed_inj {negative : Bool} {a b : ℚ} : signed negative a = signed negative b ↔ a = b := by
  cases negative <;> simp [signed]

theorem signed_natCast (negative : Bool) (n : Nat) :
    signed negative (n : ℚ) = (signed negative (n : Int) : Int) := by
  cases negative <;> simp [signed]

/-- A number is whole if its absolute value is. -/
theorem signed_eq_intCast_iff {negative : Bool} {a : ℚ} (nonnegative : 0 ≤ a) {i : Int} :
    signed negative a = i ↔ ∃ n : Nat, a = n ∧ i = signed negative (n : Int) := by
  constructor
  · intro same
    have whole : a = (signed negative i : Int) := by
      cases negative <;> simp [signed, ← same]
    rw [whole, Int.cast_nonneg_iff] at nonnegative
    obtain ⟨n, natural⟩ := Int.eq_ofNat_of_zero_le nonnegative
    refine ⟨n, by rw [whole, natural]; rfl, ?_⟩
    rw [← natural]
    cases negative <;> simp [signed]
  · rintro ⟨n, rfl, rfl⟩
    exact signed_natCast negative n

end Signs

namespace Binary

variable {f : Format}

/-- The rational number that a finite value stands for; both zeros stand for 0. -/
def value? : Binary f → Option ℚ
  | .finite negative m e _ => some (signed negative (m * 2 ^ e))
  | _ => none

theorem isFinite_of_value {x : Binary f} {q : ℚ} (value : x.value? = some q) : x.isFinite := by
  cases x with
  | nan | infinity => cases value
  | finite => rfl

theorem value?_eq_intCast_iff {negative : Bool} {m : Nat} {e : Int}
    {canonical : f.Canonical m e} {i : Int} :
    (finite negative m e canonical).value? = some (i : ℚ) ↔
      ∃ n : Nat, (Ratio.scaled 2 m e).Whole n ∧ i = signed negative (n : Int) := by
  have nonnegative : (0 : ℚ) ≤ m * 2 ^ e := by positivity
  simp only [value?, Option.some.injEq, signed_eq_intCast_iff nonnegative, Ratio.scaled_whole_iff]

theorem isWhole_iff {x : Binary f} : x.isWhole ↔ ∃ i : Int, x.value? = some (i : ℚ) := by
  cases x with
  | nan | infinity => simp [isWhole, value?]
  | finite negative m e canonical =>
    simp only [value?_eq_intCast_iff, isWhole, decide_eq_true_eq]
    constructor
    · intro whole
      have num := (Nat.div_mul_cancel (Nat.dvd_of_mod_eq_zero whole)).symm
      exact ⟨_, _, ⟨Ratio.den_scaled_pos Nat.two_pos m e, num⟩, rfl⟩
    · rintro ⟨i, n, whole, -⟩
      rw [whole.num, Nat.mul_mod_left]

theorem isWithin_iff {x : Binary f} {i : Int} (value : x.value? = some (i : ℚ)) {bound : Nat} :
    x.isWithin bound ↔ i.natAbs < bound := by
  cases x with
  | nan | infinity => cases value
  | finite negative m e canonical =>
    obtain ⟨n, whole, rfl⟩ := value?_eq_intCast_iff.mp value
    rw [natAbs_signed, isWithin, decide_eq_true_eq, whole.num, Nat.mul_lt_mul_right whole.den]

/-- The conversion of a whole number within the range cuts off nothing and stays clear of
the ends. -/
theorem toInt64_eq {x : Binary f} {i : Int} (value : x.value? = some (i : ℚ))
    (low : -0x8000000000000000 ≤ i) (high : i ≤ 0x7fffffffffffffff) : x.toInt64 = i := by
  cases x with
  | nan | infinity => cases value
  | finite negative m e canonical =>
    obtain ⟨n, whole, rfl⟩ := value?_eq_intCast_iff.mp value
    simp only [toInt64, whole.div]
    change max _ (min _ (signed negative (n : Int))) = _
    rw [min_eq_right high, max_eq_right low]

theorem value?_zero (negative : Bool) (range : f.minExponent ≤ f.maxExponent) :
    (zero negative : Binary f).value? = some 0 := by
  have canonical : f.Canonical 0 f.minExponent :=
    ⟨Nat.pow_pos Nat.two_pos, le_rfl, range, .inr rfl⟩
  rw [zero, pack, dif_pos canonical]
  cases negative <;> simp [value?, signed]

section Fitting

variable {n : Nat} {e : Int} (short : n < 2 ^ f.precision) (least : f.minExponent ≤ e)
  (greatest : e ≤ f.maxExponent)

include short least greatest

/-- A short significand is shifted to the left until it is as long as the format asks for or
the exponent cannot get smaller. -/
theorem exists_canonical : ∃ m t, f.Canonical m t ∧ (m * 2 ^ t : ℚ) = n * 2 ^ e := by
  obtain ⟨k, rfl⟩ : ∃ k : Nat, e = f.minExponent + k := ⟨(e - f.minExponent).toNat, by omega⟩
  induction k generalizing n with
  | zero => exact ⟨n, _, ⟨short, by omega, greatest, .inr (by simp)⟩, rfl⟩
  | succ k ih =>
    by_cases leading : 2 ^ (f.precision - 1) ≤ n
    · exact ⟨n, _, ⟨short, least, greatest, .inl leading⟩, rfl⟩
    · have twice : 2 * n < 2 ^ f.precision := by
        cases precision : f.precision with
        | zero =>
          rw [precision, pow_zero] at short
          omega
        | succ p =>
          rw [precision, Nat.add_sub_cancel] at leading
          rw [Nat.pow_succ]
          omega
      obtain ⟨m, t, canonical, same⟩ := ih twice (by omega) (by omega)
      refine ⟨m, t, canonical, same.trans ?_⟩
      rw [Nat.cast_succ, ← add_assoc, zpow_add_one₀ (by norm_num : (2 : ℚ) ≠ 0)]
      push_cast
      ring

/-- What holds of all exact operations: zero is a zero, and any other number that fits in the
format is the value that it has there. -/
theorem value?_of_exact {negative : Bool} {x : Binary f} (empty : n = 0 → x = zero negative)
    (exact : ∀ m t (canonical : f.Canonical m t), m ≠ 0 → (m * 2 ^ t : ℚ) = n * 2 ^ e →
      x = finite negative m t canonical) :
    x.value? = some (signed negative (n * 2 ^ e : ℚ)) := by
  by_cases none : n = 0
  · rw [empty none, value?_zero negative (least.trans greatest), none]
    simp [signed]
  · obtain ⟨m, t, canonical, same⟩ := exists_canonical short least greatest
    have nonzero : m ≠ 0 := by
      rintro rfl
      rw [Nat.cast_zero, zero_mul, eq_comm] at same
      simp [none, zpow_ne_zero] at same
    rw [exact m t canonical nonzero same, value?, same]

/-- A quotient that fits in the format is rounded to itself. -/
theorem value?_nearest (negative : Bool) (precise : 0 < f.precision) {r : Ratio}
    (positive : 0 < r.den) (value : r.value = n * 2 ^ e) :
    (nearest negative r : Binary f).value? = some (signed negative r.value) := by
  rw [value]
  apply value?_of_exact short least greatest
  · intro empty
    have none : r.value = (0 : Nat) := by simp [value, empty]
    have num : r.num = 0 := by simpa using ((Ratio.value_eq_natCast_iff positive).mp none).num
    exact if_pos num
  · intro m t canonical nonzero same
    exact nearest_exact negative canonical precise nonzero positive (value.trans same.symm)

/-- A decimal that fits in the format is read as itself. -/
theorem value?_ofDecimal (negative : Bool) (precise : 0 < f.precision) {d : Decimal}
    (value : d.value = n * 2 ^ e) :
    (ofDecimal negative d : Binary f).value? = some (signed negative d.value) := by
  rw [value]
  apply value?_of_exact short least greatest
  · intro empty
    have none : d.value = 0 := by simp [value, empty]
    exact ofDecimal_zero negative (d.value_eq_zero_iff.mp none)
  · intro m t canonical nonzero same
    exact ofDecimal_exact negative canonical precise nonzero (value.trans same.symm)

end Fitting

/-- A double has the number of the single that it is made from. -/
theorem value?_convert (x : Single) : (x.convert : Double).value? = x.value? := by
  cases x with
  | nan | infinity => rfl
  | finite negative m e canonical =>
    have value : (Ratio.scaled 2 m e).value = m * 2 ^ e := Ratio.value_scaled Nat.two_pos m e
    obtain ⟨short, least, greatest, -⟩ := canonical
    have fits : m < 2 ^ Format.double.precision :=
      short.trans_le (Nat.pow_le_pow_right Nat.two_pos (by decide))
    have exact := value?_nearest fits (le_trans (by decide) least) (greatest.trans (by decide))
      negative (by decide) (Ratio.den_scaled_pos Nat.two_pos m e) value
    rw [value] at exact
    exact exact

end Binary
end Solr
