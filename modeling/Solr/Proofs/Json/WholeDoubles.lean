import Solr.Proofs.Binary.Digits
import Solr.Proofs.Json.Doubles

/-! The JSON texts of whole doubles. Below `10 ^ 16` such a text is that of the integer, with a
point and a zero after it; from there on it has an exponent, so that it never denotes an
integer by its digits alone. -/
namespace Solr

namespace Text

/-- An optional minus sign and digits, and the integer that they denote. -/
inductive IntegerText : List Char → Int → Prop where
  | unsigned {ds : List Char} : ds ≠ [] → (∀ c ∈ ds, c.isDigit) →
      IntegerText ds (digitsValue ds)
  | negative {ds : List Char} : ds ≠ [] → (∀ c ∈ ds, c.isDigit) →
      IntegerText ('-' :: ds) (-digitsValue ds)

theorem integerText_integer (i : Int) : IntegerText (integer i) i := by
  have digit : ∀ c ∈ digits i.natAbs, c.isDigit := fun _ => isDigit_of_mem_digits
  have value : digitsValue (digits i.natAbs) = i.natAbs := digitsValue_digits _
  unfold integer
  split
  · have denoted := IntegerText.negative (digits_ne_nil i.natAbs) digit
    rwa [value, show -(i.natAbs : Int) = i by omega] at denoted
  · have denoted := IntegerText.unsigned (digits_ne_nil i.natAbs) digit
    rwa [value, show (i.natAbs : Int) = i by omega] at denoted

theorem IntegerText.chars {s : List Char} {i : Int} (text : IntegerText s i) {c : Char}
    (member : c ∈ s) : c.isDigit ∨ c = '-' := by
  cases text with
  | unsigned _ digit => exact .inl (digit c member)
  | negative _ digit =>
    rcases List.mem_cons.mp member with rfl | member
    · exact .inr rfl
    · exact .inl (digit c member)

theorem integerText_signed (negative : Bool) {ds : List Char} (notEmpty : ds ≠ [])
    (digit : ∀ c ∈ ds, c.isDigit) :
    IntegerText (if negative then '-' :: ds else ds) (signed negative (digitsValue ds : Int)) := by
  cases negative with
  | false => exact .unsigned notEmpty digit
  | true => exact .negative notEmpty digit

end Text

namespace Json

/-- Without digits after the point a zero is written there. -/
theorem decimalText_whole {d : Decimal} {n : Nat} (value : d.value = n) (whole : 0 ≤ d.exponent)
    (small : n < 10 ^ 16) :
    ∃ ds : List Char, ds ≠ [] ∧ (∀ c ∈ ds, c.isDigit) ∧ Text.digitsValue ds = n ∧
      decimalText .double d = ds ++ ['.', '0'] := by
  by_cases zero : d.coefficient = 0
  · have none : n = 0 := by
      rw [d.value_eq_zero_iff.mpr zero] at value
      exact_mod_cast value.symm
    exact ⟨['0'], by simp, by simp, none ▸ rfl, by rw [decimalText, if_pos zero]; rfl⟩
  · have nonzero : n ≠ 0 := by
      rintro rfl
      exact zero (d.value_eq_zero_iff.mp (by simpa using value))
    have lead : d.leadingExponent = Nat.log 10 n := by
      rw [d.leadingExponent_eq zero, value, Int.log_natCast]
    have short : Nat.log 10 n < 16 := Nat.log_lt_of_lt_pow nonzero small
    have range : PositionalRange.double.least ≤ d.leadingExponent ∧
        d.leadingExponent ≤ PositionalRange.double.greatest := by
      rw [lead, PositionalRange.double]
      dsimp only
      omega
    have noFraction : d.positional.2 = [] := by simp [Decimal.positional, whole, zero]
    obtain ⟨notEmpty, digit, -⟩ := d.positional_digits
    refine ⟨d.positional.1, notEmpty, digit, ?_, ?_⟩
    · have denoted := d.value_positional
      rw [noFraction, value, Decimal.value] at denoted
      simpa using denoted
    · simp only [decimalText, if_neg zero, if_pos range, noFraction, if_true]

theorem decimalText_large {d : Decimal} (large : 10 ^ 16 ≤ d.value) :
    'e' ∈ decimalText .double d := by
  have nonzero : d.coefficient ≠ 0 := by
    intro zero
    rw [d.value_eq_zero_iff.mpr zero] at large
    norm_num at large
  have positive : 0 < d.value := lt_of_lt_of_le (by norm_num) large
  have lead : 16 ≤ d.leadingExponent := by
    rw [d.leadingExponent_eq nonzero, ← Int.zpow_le_iff_le_log (by decide) positive]
    exact_mod_cast large
  have range : ¬ (PositionalRange.double.least ≤ d.leadingExponent ∧
      d.leadingExponent ≤ PositionalRange.double.greatest) := by
    rw [PositionalRange.double]
    dsimp only
    omega
  simp only [decimalText, if_neg nonzero, if_neg range]
  cases Text.digits d.coefficient with
  | nil => simp
  | cons first others => cases others <;> simp

/-- Below `10 ^ 16` the JSON text of a whole double is the integer, followed by a point and a
zero. -/
theorem doubleText_whole {x : Double} {i : Int} (value : x.value? = some (i : ℚ))
    (small : i.natAbs < 10 ^ 16) :
    ∃ t, Text.IntegerText t i ∧ doubleText x = t ++ ['.', '0'] := by
  cases x with
  | nan | infinity => cases value
  | finite negative m e canonical =>
    obtain ⟨n, whole, rfl⟩ := Binary.value?_eq_intCast_iff.mp value
    rw [natAbs_signed] at small
    obtain ⟨exact, point⟩ := Binary.shortestDecimal_exact .even negative canonical whole small
    obtain ⟨ds, notEmpty, digit, rfl, text⟩ := decimalText_whole exact point small
    refine ⟨_, Text.integerText_signed negative notEmpty digit, ?_⟩
    cases negative <;> simp [doubleText, binaryText, Binary.isFinite, Binary.isNegative, text]

/-- From `10 ^ 16` on it has an exponent. -/
theorem doubleText_large {x : Double} {i : Int} (value : x.value? = some (i : ℚ))
    (large : 10 ^ 16 ≤ i.natAbs) : 'e' ∈ doubleText x := by
  cases x with
  | nan | infinity => cases value
  | finite negative m e canonical =>
    obtain ⟨n, whole, rfl⟩ := Binary.value?_eq_intCast_iff.mp value
    rw [natAbs_signed] at large
    have nonzero : n ≠ 0 := by omega
    have log : 16 ≤ Nat.log 10 n := Nat.le_log_of_pow_le (by decide) large
    have written : 'e' ∈ decimalText .double
        ((Binary.finite negative m e canonical).shortestDecimal .even) := by
      apply decimalText_large
      calc (10 : ℚ) ^ 16 ≤ 10 ^ Nat.log 10 n := by gcongr; norm_num
        _ ≤ _ := Binary.le_shortestDecimal .even (by decide) negative canonical whole nonzero
    cases negative <;> simp [doubleText, binaryText, Binary.isFinite, Binary.isNegative, written]

end Json
end Solr
