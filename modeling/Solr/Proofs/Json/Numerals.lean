import Solr.Json.Numeral
import Solr.Proofs.Binary.Shortest

/-! The numerals that are written for numbers, and their reading. A numeral is read up to
what cannot continue it, and the text of a finite double denotes that double. -/
namespace Solr

namespace Text

/-- No zero is written before other digits. -/
theorem head?_digits_ne_zero {n : Nat} (positive : 0 < n) : (digits n).head? ≠ some '0' := by
  induction n using Nat.strongRecOn with
  | ind n ih =>
    unfold digits
    rw [Nat.toDigits_eq_if (by decide)]
    split
    · rename_i small
      have nonzero : ∀ m < 10, 0 < m → Nat.digitChar m ≠ '0' := by decide
      simpa using nonzero n small positive
    · rw [List.head?_append_of_ne_nil _ Nat.toDigits_ne_nil]
      exact ih (n / 10) (by omega) (by omega)

end Text

namespace Json

/-- Nothing that could continue a numeral: the end of the text or of a line, or what follows
a value within an array or object. -/
def Closes : List Char → Prop
  | [] => True
  | c :: _ => c = ',' ∨ c = ']' ∨ c = '}' ∨ c = '\n'

theorem Closes.not_digit {c : Char} {s : List Char} (closes : Closes (c :: s)) :
    c.isDigit = false := by
  rcases closes with rfl | rfl | rfl | rfl <;> decide

theorem Closes.not_point {c : Char} {s : List Char} (closes : Closes (c :: s)) : c ≠ '.' := by
  rcases closes with rfl | rfl | rfl | rfl <;> decide

theorem Closes.not_exponent {c : Char} {s : List Char} (closes : Closes (c :: s)) :
    ¬ (c = 'e' ∨ c = 'E') := by
  rcases closes with rfl | rfl | rfl | rfl <;> decide

namespace Numeral

/-- What the grammar of numerals asks for. -/
structure WellFormed (n : Numeral) : Prop where
  whole : n.whole ≠ []
  wholeDigits : ∀ c ∈ n.whole, c.isDigit
  noLeadingZero : n.whole.head? = some '0' → n.whole.length = 1
  fractionDigits : ∀ c ∈ n.fraction, c.isDigit
  exponent : ∀ p, n.exponent = some p → p.2 ≠ [] ∧ ∀ c ∈ p.2, c.isDigit

def fractionText (fraction : List Char) : List Char :=
  if fraction = [] then [] else '.' :: fraction

/-- The sign of an exponent is always written. -/
def exponentText : Option (Bool × List Char) → List Char
  | none => []
  | some (negative, ds) => 'e' :: (if negative then '-' else '+') :: ds

def text (n : Numeral) : List Char :=
  (if n.negative then ['-'] else []) ++ n.whole ++ fractionText n.fraction ++
    exponentText n.exponent

theorem takeWhile_digits {ds rest : List Char} (digits : ∀ c ∈ ds, c.isDigit)
    (stop : ∀ c s, rest = c :: s → c.isDigit = false) :
    (ds ++ rest).takeWhile Char.isDigit = ds ∧ (ds ++ rest).dropWhile Char.isDigit = rest := by
  have none : rest.takeWhile Char.isDigit = [] ∧ rest.dropWhile Char.isDigit = rest := by
    cases rest with
    | nil => exact ⟨rfl, rfl⟩
    | cons c s => simp [stop c s rfl]
  rw [List.takeWhile_append_of_pos digits, List.dropWhile_append_of_pos digits, none.1, none.2,
    List.append_nil]
  exact ⟨rfl, rfl⟩

theorem scanExponent_text {e : Option (Bool × List Char)} {rest : List Char}
    (digits : ∀ p, e = some p → p.2 ≠ [] ∧ ∀ c ∈ p.2, c.isDigit) (closes : Closes rest) :
    scanExponent (exponentText e ++ rest) = .ok (e, rest) := by
  cases e with
  | none =>
    cases rest with
    | nil => rfl
    | cons c s =>
      change scanExponent (c :: s) = _
      simp only [scanExponent, if_neg closes.not_exponent]
  | some p =>
    obtain ⟨negative, ds⟩ := p
    obtain ⟨notEmpty, digits⟩ := digits _ rfl
    have stop : ∀ c s, rest = c :: s → c.isDigit = false := by
      rintro c s rfl
      exact closes.not_digit
    obtain ⟨taken, dropped⟩ := takeWhile_digits digits stop
    cases negative <;>
      simp [exponentText, scanExponent, taken, dropped, notEmpty]

/-- What may stand after the fraction of a numeral. -/
theorem exponentText_not_digit {e : Option (Bool × List Char)} {rest : List Char}
    (closes : Closes rest) :
    ∀ c s, exponentText e ++ rest = c :: s → c.isDigit = false ∧ c ≠ '.' := by
  intro c s same
  cases e with
  | none =>
    have closes' : Closes (c :: s) := by
      rw [← same]
      exact closes
    exact ⟨closes'.not_digit, closes'.not_point⟩
  | some p =>
    have mark : 'e' = c := (List.cons.inj same).1
    subst mark
    decide

theorem scanFraction_text {fraction rest : List Char} (digits : ∀ c ∈ fraction, c.isDigit)
    (stop : ∀ c s, rest = c :: s → c.isDigit = false ∧ c ≠ '.') :
    scanFraction (fractionText fraction ++ rest) = .ok (fraction, rest) := by
  by_cases empty : fraction = []
  · subst empty
    cases rest with
    | nil => rfl
    | cons c s =>
      have notPoint := (stop c s rfl).2
      simp only [fractionText, if_pos, List.nil_append]
      unfold scanFraction
      split
      · rename_i same
        exact absurd (List.cons.inj same).1 notPoint
      · rfl
  · obtain ⟨taken, dropped⟩ := takeWhile_digits digits fun c s same => (stop c s same).1
    simp [fractionText, empty, scanFraction, taken, dropped]

/-- A well-formed numeral is read as it was written. -/
theorem scan_text {n : Numeral} (wellFormed : n.WellFormed) {rest : List Char}
    (closes : Closes rest) : scan (n.text ++ rest) = .ok (n, rest) := by
  obtain ⟨negative, whole, fraction, exponent⟩ := n
  obtain ⟨notEmpty, digits, noZero, fractionDigits, exponentDigits⟩ := wellFormed
  dsimp only at *
  have stopExponent := exponentText_not_digit (e := exponent) closes
  have stopFraction : ∀ c s, fractionText fraction ++ (exponentText exponent ++ rest) = c :: s →
      c.isDigit = false := by
    intro c s same
    by_cases empty : fraction = []
    · exact (stopExponent c s (by simpa [fractionText, empty] using same)).1
    · simp only [fractionText, if_neg empty, List.cons_append, List.cons.injEq] at same
      rw [← same.1]
      decide
  obtain ⟨taken, dropped⟩ := takeWhile_digits digits stopFraction
  have noZero' : ¬ (whole.head? = some '0' ∧ whole.length ≠ 1) := fun h => h.2 (noZero h.1)
  -- Without a sign the first character is a digit.
  have notMinus : ∀ s, whole ++ (fractionText fraction ++ (exponentText exponent ++ rest)) ≠
      '-' :: s := by
    intro s same
    obtain ⟨c, whole, rfl⟩ := List.exists_cons_of_ne_nil notEmpty
    have minus : c = '-' := (List.cons.inj same).1
    have digit := digits c (List.mem_cons_self ..)
    rw [minus] at digit
    exact absurd digit (by decide)
  cases negative with
  | true =>
    simp only [text, if_pos, List.append_assoc, List.cons_append, List.nil_append, scan, taken,
      dropped, if_neg notEmpty, if_neg noZero', scanFraction_text fractionDigits stopExponent,
      scanExponent_text exponentDigits closes, pure, Except.pure, bind, Except.bind]
  | false =>
    simp only [text, Bool.false_eq_true, if_false, List.append_assoc, List.nil_append, scan, taken,
      dropped, if_neg notEmpty, if_neg noZero', scanFraction_text fractionDigits stopExponent,
      scanExponent_text exponentDigits closes, pure, Except.pure, bind, Except.bind]

/-- The numeral of an integer. -/
def ofInt (i : Int) : Numeral :=
  ⟨i < 0, Text.digits i.natAbs, [], none⟩

theorem text_ofInt (i : Int) : (ofInt i).text = Text.integer i := by
  by_cases negative : i < 0 <;>
    simp [ofInt, text, fractionText, exponentText, Text.integer, negative]

theorem wellFormed_digits {n : Nat} :
    (Text.digits n).head? = some '0' → (Text.digits n).length = 1 := by
  intro leading
  cases n with
  | zero => rfl
  | succ n => exact absurd leading (Text.head?_digits_ne_zero (Nat.succ_pos n))

theorem wellFormed_ofInt (i : Int) : (ofInt i).WellFormed where
  whole := Text.digits_ne_nil _
  wholeDigits := fun _ => Text.isDigit_of_mem_digits
  noLeadingZero := wellFormed_digits
  fractionDigits := by simp [ofInt]
  exponent := by simp [ofInt]

end Numeral
end Json
end Solr
