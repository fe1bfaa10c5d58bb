import Solr.Scalar

/-! The characters of which the texts of numbers consist. -/
namespace Solr

/-- Digits, a sign, a point, and the letters of the three values that are no numbers. -/
def NumeralChar (c : Char) : Prop :=
  c.isDigit ∨ c ∈ ['-', '.', 'N', 'a', 'i', 'n', 'f']

instance (c : Char) : Decidable (NumeralChar c) :=
  inferInstanceAs (Decidable (_ ∨ _))

/-- A text that can be the text of a number. -/
structure NumeralText (s : List Char) : Prop where
  notEmpty : s ≠ []
  chars : ∀ c ∈ s, NumeralChar c

theorem numeralText_of_digits {s : List Char} (notEmpty : s ≠ []) (digits : ∀ c ∈ s, c.isDigit) :
    NumeralText s :=
  ⟨notEmpty, fun c member => .inl (digits c member)⟩

theorem NumeralText.cons {s : List Char} {c : Char} (text : NumeralText s) (char : NumeralChar c) :
    NumeralText (c :: s) :=
  ⟨List.cons_ne_nil c s, List.forall_mem_cons.mpr ⟨char, text.chars⟩⟩

theorem NumeralText.append {s t : List Char} (text : NumeralText s)
    (chars : ∀ c ∈ t, NumeralChar c) : NumeralText (s ++ t) :=
  ⟨List.append_ne_nil_of_left_ne_nil text.notEmpty t,
    List.forall_mem_append.mpr ⟨text.chars, chars⟩⟩

theorem numeralText_integer (i : Int) : NumeralText (Text.integer i) := by
  have digits : NumeralText (Text.digits i.natAbs) :=
    numeralText_of_digits (Text.digits_ne_nil _) fun _ => Text.isDigit_of_mem_digits
  unfold Text.integer
  split
  · exact digits.cons (by decide)
  · exact digits

theorem isDigit_of_mem_zeros {n : Nat} {c : Char} (member : c ∈ List.replicate n '0') :
    c.isDigit := by
  rw [List.eq_of_mem_replicate member]
  decide

namespace Decimal

/-- There is a digit before the point, and there are digits only on both sides. -/
theorem positional_digits (d : Decimal) :
    d.positional.1 ≠ [] ∧ (∀ c ∈ d.positional.1, c.isDigit) ∧ ∀ c ∈ d.positional.2, c.isDigit := by
  have coefficient : ∀ c ∈ Text.digits d.coefficient, c.isDigit :=
    fun _ => Text.isDigit_of_mem_digits
  have zero : ∀ c ∈ ['0'], c.isDigit := by simp
  unfold positional
  dsimp only
  split
  · split
    · exact ⟨by simp, zero, by simp⟩
    · refine ⟨by simp [Text.digits_ne_nil], ?_, by simp⟩
      exact List.forall_mem_append.mpr ⟨coefficient, fun c => isDigit_of_mem_zeros⟩
  · split
    · rename_i short
      rw [List.splitAt_eq]
      refine ⟨?_, fun c member => coefficient c (List.mem_of_mem_take member),
        fun c member => coefficient c (List.mem_of_mem_drop member)⟩
      intro empty
      have noDigits := congrArg List.length empty
      simp only [List.length_take, List.length_nil] at noDigits
      omega
    · refine ⟨by simp, zero, ?_⟩
      exact List.forall_mem_append.mpr ⟨fun c => isDigit_of_mem_zeros, coefficient⟩

end Decimal

theorem Binary.numeralText_plainText {f : Format} (x : Binary f) : NumeralText x.plainText := by
  cases x with
  | nan =>
    have word : NumeralText "NaN".toList := ⟨by decide, by simp [NumeralChar]⟩
    exact word
  | infinity negative =>
    have word : NumeralText "inf".toList := ⟨by decide, by simp [NumeralChar]⟩
    cases negative
    · exact word
    · exact word.cons (c := '-') (by decide)
  | finite negative m e canonical =>
    obtain ⟨notEmpty, whole, fraction⟩ :=
      ((Binary.finite negative m e canonical).shortestDecimal .up).positional_digits
    have text := numeralText_of_digits notEmpty whole
    have point := List.forall_mem_cons.mpr
      ⟨show NumeralChar '.' by decide, fun c member => .inl (fraction c member)⟩
    simp only [plainText]
    split <;> split
    · exact text.cons (by decide)
    · exact (text.append point).cons (by decide)
    · exact text
    · exact text.append point

theorem Scalar.numeralText {v : Scalar} {numeral : List Char}
    (number : v.literal = .number numeral) : NumeralText numeral := by
  cases v with
  | integer i => exact Literal.number.inj number ▸ numeralText_integer i
  | single x => exact Literal.number.inj number ▸ x.numeralText_plainText
  | double x => exact Literal.number.inj number ▸ x.numeralText_plainText
  | text s => cases number
  | date d => cases number
  | instant t => cases number

end Solr
