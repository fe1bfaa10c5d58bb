import Solr.Json.Printer
import Solr.Proofs.Json.Numerals
import Solr.Proofs.Text.Numerals

/-! The text of a finite double is a numeral that denotes this double and no integer. -/
namespace Solr

namespace Decimal

/-- Digits in front of the point and behind it, as one number. -/
theorem value_positional (d : Decimal) :
    (Decimal.mk (Text.digitsValue (d.positional.1 ++ d.positional.2))
      (-(d.positional.2.length : Int))).value = d.value := by
  obtain ⟨c, e⟩ := d
  have coefficient : Text.digitsValue (Text.digits c) = c := Text.digitsValue_digits c
  unfold positional
  dsimp only
  split
  · rename_i nonnegative
    obtain ⟨n, rfl⟩ := Int.eq_ofNat_of_zero_le nonnegative
    split
    · rename_i zero
      have digit : Text.digitsValue ['0'] = 0 := by decide
      simp [zero, value, digit]
    · rw [List.append_nil, Text.digitsValue_zeros, coefficient, value_shift]
      simp
  · rename_i negative
    split
    · rename_i short
      rw [List.splitAt_eq, List.take_append_drop, coefficient, List.length_drop]
      congr 2
      omega
    · rename_i long
      have whole : Text.digitsValue (['0'] ++
          (List.replicate ((-e).toNat - (Text.digits c).length) '0' ++ Text.digits c)) = c := by
        simpa [Text.digitsValue, Nat.ofDigitChars_cons, Nat.ofDigitChars_append] using coefficient
      rw [whole, List.length_append, List.length_replicate]
      congr 2
      omega

/-- A zero does not start the digits in front of the point, but for a lone one. -/
theorem positional_noLeadingZero (d : Decimal) :
    d.positional.1.head? = some '0' → d.positional.1.length = 1 := by
  unfold positional
  dsimp only
  split
  · split
    · simp
    · rename_i nonzero
      rw [List.head?_append_of_ne_nil _ (Text.digits_ne_nil _)]
      intro leading
      exact absurd leading (Text.head?_digits_ne_zero (Nat.pos_of_ne_zero nonzero))
  · split
    · rename_i short
      rw [List.splitAt_eq, List.head?_take, if_neg (by omega), List.length_take]
      intro leading
      have single := Json.Numeral.wellFormed_digits leading
      omega
    · simp

end Decimal

namespace Json

namespace Numeral

/-- The numeral of a decimal in positional notation, with a digit after the point. -/
def ofPositional (negative : Bool) (d : Decimal) : Numeral :=
  ⟨negative, d.positional.1, if d.positional.2 = [] then ['0'] else d.positional.2, none⟩

/-- The numeral of a decimal with an exponent. -/
def ofScientific (negative : Bool) (d : Decimal) : Numeral :=
  ⟨negative, (Text.digits d.coefficient).take 1, (Text.digits d.coefficient).drop 1,
    some (d.leadingExponent < 0, Text.digits d.leadingExponent.natAbs)⟩

theorem text_ofPositional (negative : Bool) (d : Decimal) :
    (ofPositional negative d).text =
      let s := d.positional.1 ++
        '.' :: (if d.positional.2 = [] then ['0'] else d.positional.2)
      if negative then '-' :: s else s := by
  by_cases empty : d.positional.2 = [] <;> cases negative <;>
    simp [text, ofPositional, fractionText, exponentText, empty]

theorem text_ofScientific (negative : Bool) (d : Decimal) :
    (ofScientific negative d).text =
      let exponent := 'e' :: (if d.leadingExponent < 0 then '-' else '+') ::
        Text.digits d.leadingExponent.natAbs
      let s := (Text.digits d.coefficient).take 1 ++
        fractionText ((Text.digits d.coefficient).drop 1) ++ exponent
      if negative then '-' :: s else s := by
  cases negative <;> by_cases below : d.leadingExponent < 0 <;>
    simp [text, ofScientific, exponentText, below]

theorem wellFormed_ofPositional (negative : Bool) (d : Decimal) :
    (ofPositional negative d).WellFormed := by
  obtain ⟨notEmpty, whole, fraction⟩ := d.positional_digits
  refine ⟨notEmpty, whole, d.positional_noLeadingZero, ?_, by simp [ofPositional]⟩
  unfold ofPositional
  dsimp only
  split
  · simp
  · exact fraction

theorem wellFormed_ofScientific (negative : Bool) (d : Decimal) :
    (ofScientific negative d).WellFormed where
  whole := by simp [ofScientific, Text.digits_ne_nil]
  wholeDigits := fun _ member => Text.isDigit_of_mem_digits (List.mem_of_mem_take member)
  noLeadingZero := by
    have : 0 < (Text.digits d.coefficient).length :=
      List.length_pos_iff.mpr (Text.digits_ne_nil _)
    intro _
    simp only [ofScientific, List.length_take]
    omega
  fractionDigits := fun _ member => Text.isDigit_of_mem_digits (List.mem_of_mem_drop member)
  exponent := by
    rintro p same
    obtain rfl := Option.some.inj same
    exact ⟨Text.digits_ne_nil _, fun _ => Text.isDigit_of_mem_digits⟩

theorem isInteger_ofPositional (negative : Bool) (d : Decimal) :
    (ofPositional negative d).isInteger = false := by
  by_cases empty : d.positional.2 = [] <;> simp [isInteger, ofPositional, empty]

theorem isInteger_ofScientific (negative : Bool) (d : Decimal) :
    (ofScientific negative d).isInteger = false := by
  simp [isInteger, ofScientific]

theorem value_ofPositional (negative : Bool) (d : Decimal) :
    (ofPositional negative d).decimal.value = d.value := by
  rw [← d.value_positional]
  unfold ofPositional decimal exponentValue
  dsimp only
  split
  · rename_i empty
    rw [empty, List.append_nil]
    have shifted := Text.digitsValue_zeros d.positional.1 1
    simp only [List.replicate_one] at shifted
    rw [shifted, Decimal.value_shift]
    simp
  · simp

theorem value_ofScientific (negative : Bool) (d : Decimal) :
    (ofScientific negative d).decimal.value = d.value := by
  obtain ⟨c, e⟩ := d
  have notEmpty : 0 < (Text.digits c).length := List.length_pos_iff.mpr (Text.digits_ne_nil _)
  have exponent :
      (ofScientific negative ⟨c, e⟩).exponentValue = Decimal.leadingExponent ⟨c, e⟩ := by
    simp only [exponentValue, ofScientific, Text.digitsValue_digits, decide_eq_true_eq]
    split <;> omega
  unfold decimal
  rw [exponent]
  simp only [ofScientific, List.take_append_drop, Text.digitsValue_digits, List.length_drop,
    Decimal.leadingExponent]
  congr 2
  omega

end Numeral

open Numeral

/-- The numeral that is written for a decimal with a sign. -/
def numeralOf (range : PositionalRange) (negative : Bool) (d : Decimal) : Numeral :=
  if d.coefficient = 0 then ofPositional negative ⟨0, 0⟩
  else if range.least ≤ d.leadingExponent ∧ d.leadingExponent ≤ range.greatest then
    ofPositional negative d
  else ofScientific negative d

theorem text_numeralOf (range : PositionalRange) (negative : Bool) (d : Decimal) :
    (numeralOf range negative d).text =
      if negative then '-' :: decimalText range d else decimalText range d := by
  unfold numeralOf decimalText
  dsimp only
  split
  · rw [text_ofPositional]
    rfl
  · split
    · rw [text_ofPositional]
    · rw [text_ofScientific]
      cases Text.digits d.coefficient with
      | nil => rfl
      | cons first others => cases others <;> rfl

theorem wellFormed_numeralOf (range : PositionalRange) (negative : Bool) (d : Decimal) :
    (numeralOf range negative d).WellFormed := by
  unfold numeralOf
  split
  · exact wellFormed_ofPositional negative _
  · split
    · exact wellFormed_ofPositional negative d
    · exact wellFormed_ofScientific negative d

theorem isInteger_numeralOf (range : PositionalRange) (negative : Bool) (d : Decimal) :
    (numeralOf range negative d).isInteger = false := by
  unfold numeralOf
  split
  · exact isInteger_ofPositional negative _
  · split
    · exact isInteger_ofPositional negative d
    · exact isInteger_ofScientific negative d

theorem value_numeralOf (range : PositionalRange) (negative : Bool) (d : Decimal) :
    (numeralOf range negative d).decimal.value = d.value := by
  unfold numeralOf
  split
  · rename_i zero
    rw [value_ofPositional, d.value_eq_zero_iff.mpr zero]
    simp [Decimal.value]
  · split
    · exact value_ofPositional negative d
    · exact value_ofScientific negative d

theorem negative_numeralOf (range : PositionalRange) (negative : Bool) (d : Decimal) :
    (numeralOf range negative d).negative = negative := by
  unfold numeralOf
  split
  · rfl
  · split <;> rfl

/-- The numeral that is written for a finite value: it is no integer, and denotes the
digits of the value. -/
theorem binaryText_numeral {f : Format} (range : PositionalRange) {x : Binary f}
    (finite : x.isFinite) :
    ∃ n : Numeral, n.WellFormed ∧ n.text = binaryText range x ∧ n.isInteger = false ∧
      n.negative = x.isNegative ∧ n.decimal.value = (x.shortestDecimal .even).value := by
  refine ⟨numeralOf range x.isNegative (x.shortestDecimal .even), wellFormed_numeralOf .., ?_,
    isInteger_numeralOf .., negative_numeralOf .., value_numeralOf ..⟩
  rw [text_numeralOf, binaryText, if_pos finite]

/-- Read in its own format, the numeral of a finite value is this value. -/
theorem ofDecimal_numeral {f : Format} (precise : 0 < f.precision) {x : Binary f}
    (finite : x.isFinite) {n : Numeral} (negative : n.negative = x.isNegative)
    (same : n.decimal.value = (x.shortestDecimal .even).value) :
    (Binary.ofDecimal n.negative n.decimal : Binary f) = x := by
  cases x with
  | nan => cases finite
  | infinity negative => cases finite
  | finite sign m e canonical =>
    rw [negative, Binary.ofDecimal_congr _ same]
    exact Binary.ofDecimal_shortest .even precise canonical

/-- The numeral that is written for a finite double, rounded once, is this double. -/
theorem doubleText_numeral {x : Double} (finite : x.isFinite) :
    ∃ n : Numeral, n.WellFormed ∧ n.text = doubleText x ∧ n.isInteger = false ∧
      n.nearest = some (.double x) := by
  obtain ⟨n, wellFormed, text, notInteger, negative, value⟩ := binaryText_numeral .double finite
  refine ⟨n, wellFormed, text, notInteger, ?_⟩
  have reads := ofDecimal_numeral (by decide) finite negative value
  have noInteger : n.integer? = none := by simp [Numeral.integer?, notInteger]
  simp only [Numeral.nearest, noInteger, reads, finite, if_true]

end Json
end Solr
