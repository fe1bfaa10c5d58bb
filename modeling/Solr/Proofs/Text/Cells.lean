import Mathlib.Algebra.Order.Ring.Nat
import Mathlib.Data.List.Basic
import Mathlib.Data.List.Forall2
import Solr.Text.Digits

/-! Numerals that fill cells of fixed widths. Such texts stand in the order of their
numbers, and the numbers can be read off them. -/
namespace Solr.Text

theorem digitsValue_cons (c : Char) (s : List Char) :
    digitsValue (c :: s) = 10 ^ s.length * (c.toNat - '0'.toNat) + digitsValue s := by
  rw [digitsValue, Nat.ofDigitChars_cons, Nat.ofDigitChars_eq_ofDigitChars_zero, Nat.mul_zero,
    Nat.zero_add, digitsValue]

theorem digitsValue_lt {s : List Char} (digits : ∀ c ∈ s, c.isDigit) :
    digitsValue s < 10 ^ s.length := by
  induction s with
  | nil => decide
  | cons c s ih =>
    obtain ⟨first, others⟩ := List.forall_mem_cons.mp digits
    obtain ⟨-, most⟩ := Char.isDigit_iff_toNat.mp first
    have digit : c.toNat - '0'.toNat ≤ 9 := Nat.sub_le_of_le_add most
    calc digitsValue (c :: s)
        = 10 ^ s.length * (c.toNat - '0'.toNat) + digitsValue s := digitsValue_cons c s
      _ < 10 ^ s.length * 9 + 10 ^ s.length :=
        Nat.add_lt_add_of_le_of_lt (Nat.mul_le_mul_left _ digit) (ih others)
      _ = 10 ^ (c :: s).length := by
        rw [List.length_cons, Nat.pow_succ]
        omega

/-- Of two numerals of one length the one that is first in the order of texts is less. -/
theorem digitsValue_lt_of_lt {s t : List Char} (wide : s.length = t.length)
    (left : ∀ c ∈ s, c.isDigit) (right : ∀ c ∈ t, c.isDigit) (less : s < t) :
    digitsValue s < digitsValue t := by
  induction s generalizing t with
  | nil =>
    cases t with
    | nil => exact absurd less (List.lt_irrefl [])
    | cons d t => cases wide
  | cons c s ih =>
    cases t with
    | nil => cases wide
    | cons d t =>
      have same : s.length = t.length := Nat.succ.inj wide
      obtain ⟨first, leftTail⟩ := List.forall_mem_cons.mp left
      obtain ⟨-, rightTail⟩ := List.forall_mem_cons.mp right
      rw [digitsValue_cons, digitsValue_cons, same]
      rcases List.cons_lt_cons_iff.mp less with head | ⟨rfl, tail⟩
      · obtain ⟨least, -⟩ := Char.isDigit_iff_toNat.mp first
        have head : c.toNat < d.toNat := head
        have gap : (c.toNat - '0'.toNat) + 1 ≤ d.toNat - '0'.toNat := by omega
        calc 10 ^ t.length * (c.toNat - '0'.toNat) + digitsValue s
            < 10 ^ t.length * (c.toNat - '0'.toNat) + 10 ^ t.length :=
              Nat.add_lt_add_left (same ▸ digitsValue_lt leftTail) _
          _ = 10 ^ t.length * ((c.toNat - '0'.toNat) + 1) := (Nat.mul_succ _ _).symm
          _ ≤ 10 ^ t.length * (d.toNat - '0'.toNat) := Nat.mul_le_mul_left _ gap
          _ ≤ 10 ^ t.length * (d.toNat - '0'.toNat) + digitsValue t := Nat.le_add_right _ _
      · exact Nat.add_lt_add_left (ih same leftTail rightTail tail) _

theorem isDigit_of_mem_padded {width n : Nat} {c : Char} (member : c ∈ padded width n) :
    c.isDigit := by
  rcases List.mem_append.mp member with zero | digit
  · rw [List.eq_of_mem_replicate zero]
    decide
  · exact isDigit_of_mem_digits digit

theorem digitsValue_padded (width n : Nat) : digitsValue (padded width n) = n := by
  unfold padded
  dsimp only
  induction width - (digits n).length with
  | zero => exact digitsValue_digits n
  | succ k ih =>
    rw [List.replicate_succ, List.cons_append, digitsValue_cons, ih, Nat.sub_self, Nat.mul_zero,
      Nat.zero_add]

theorem length_padded (width n : Nat) :
    (padded width n).length = max width (digits n).length := by
  simp only [padded, List.length_append, List.length_replicate]
  omega

theorem length_padded_of_lt {width n : Nat} (fits : 0 < width ∧ n < 10 ^ width) :
    (padded width n).length = width := by
  rw [length_padded, digits]
  exact Nat.max_eq_left ((Nat.length_toDigits_le_iff (by decide) fits.1).mpr fits.2)

/-- Numerals with zeros in front are the same if they are of one number and of one length. -/
theorem padded_eq_padded_iff {v w m n : Nat} :
    padded v m = padded w n ↔ m = n ∧ max v (digits n).length = max w (digits n).length := by
  constructor
  · intro same
    have value : m = n := by rw [← digitsValue_padded v m, same, digitsValue_padded]
    have wide := congrArg List.length same
    rw [length_padded, length_padded, value] at wide
    exact ⟨value, wide⟩
  · rintro ⟨rfl, wide⟩
    have zeros : v - (digits m).length = w - (digits m).length := by omega
    simp only [padded, zeros]

theorem padded_ne_cons {width n : Nat} {c : Char} (other : ¬ c.isDigit) (s : List Char) :
    padded width n ≠ c :: s := by
  intro same
  have member : c ∈ padded width n := same ▸ List.mem_cons_self
  exact other (isDigit_of_mem_padded member)

theorem readDigits?_padded {width n : Nat} (wide : 0 < width) :
    readDigits? (padded width n) = some n := by
  have notEmpty : padded width n ≠ [] := by
    apply List.ne_nil_of_length_pos
    rw [length_padded]
    omega
  have all : (padded width n).all Char.isDigit = true :=
    List.all_eq_true.mpr fun _ member => isDigit_of_mem_padded member
  rw [readDigits?, if_pos ⟨notEmpty, all⟩, digitsValue_padded]

theorem padded_lt_iff {width m n : Nat} (left : 0 < width ∧ m < 10 ^ width)
    (right : 0 < width ∧ n < 10 ^ width) : padded width m < padded width n ↔ m < n := by
  have wide : (padded width m).length = (padded width n).length := by
    rw [length_padded_of_lt left, length_padded_of_lt right]
  have forward {a b : Nat} (wide : (padded width a).length = (padded width b).length)
      (less : padded width a < padded width b) : a < b := by
    have values := digitsValue_lt_of_lt wide (fun _ => isDigit_of_mem_padded)
      (fun _ => isDigit_of_mem_padded) less
    rwa [digitsValue_padded, digitsValue_padded] at values
  refine ⟨forward wide, fun less => ?_⟩
  rcases Std.lt_trichotomy (padded width m) (padded width n) with here | same | there
  · exact here
  · have := (padded_eq_padded_iff.mp same).1
    omega
  · have := forward wide.symm there
    omega

/-- What stands after a first part decides if the first parts, of one length, are the same. -/
theorem append_lt_append_iff {α : Type} [LT α] [Std.Irrefl fun a b : α => a < b]
    {s t u v : List α} (wide : s.length = t.length) :
    s ++ u < t ++ v ↔ s < t ∨ s = t ∧ u < v := by
  induction s generalizing t with
  | nil =>
    obtain rfl := List.length_eq_zero_iff.mp wide.symm
    simp [List.lt_irrefl]
  | cons c s ih =>
    cases t with
    | nil => cases wide
    | cons d t =>
      rw [List.cons_append, List.cons_append, List.cons_lt_cons_iff, List.cons_lt_cons_iff,
        ih (Nat.succ.inj wide), List.cons.injEq]
      tauto

/-- A width, and what separates the numeral from the next. -/
structure Cell where
  width : Nat
  after : List Char

namespace Cell

def write : List Cell → List Nat → List Char
  | c :: cells, n :: values => padded c.width n ++ c.after ++ write cells values
  | _, _ => []

/-- A number that fills the cell, and what stands after the separator. -/
def readFirst? (c : Cell) (s : List Char) : Option (Nat × List Char) := do
  let n ← if c.width ≤ s.length then readDigits? (s.take c.width) else none
  let rest ← (s.drop c.width).dropPrefix? c.after
  return (n, rest)

/-- The numbers of all cells, if nothing is left over. -/
def read? : List Cell → List Char → Option (List Nat)
  | [], s => if s = [] then some [] else none
  | c :: cells, s => do
    let (n, rest) ← c.readFirst? s
    return n :: (← read? cells rest)

/-- Each number has a place in its cell. -/
def Fit (cells : List Cell) (values : List Nat) : Prop :=
  List.Forall₂ (fun c n => 0 < c.width ∧ n < 10 ^ c.width) cells values

theorem mem_write {cells : List Cell} {values : List Nat} {x : Char}
    (member : x ∈ write cells values) : x.isDigit ∨ ∃ c ∈ cells, x ∈ c.after := by
  induction cells generalizing values with
  | nil => cases member
  | cons c cells ih =>
    cases values with
    | nil => cases member
    | cons n values =>
      rw [write, List.append_assoc, List.mem_append, List.mem_append] at member
      rcases member with digit | after | later
      · exact .inl (isDigit_of_mem_padded digit)
      · exact .inr ⟨c, List.mem_cons_self, after⟩
      · rcases ih later with digit | ⟨d, inside, after⟩
        · exact .inl digit
        · exact .inr ⟨d, List.mem_cons_of_mem c inside, after⟩

/-- The length is a matter of the cells. -/
theorem length_write {cells : List Cell} {values : List Nat} (fit : Fit cells values) :
    (write cells values).length = (cells.map fun c => c.width + c.after.length).sum := by
  induction fit with
  | nil => rfl
  | cons fits _ ih =>
    rw [write, List.length_append, List.length_append, length_padded_of_lt fits, ih,
      List.map_cons, List.sum_cons]

theorem readFirst?_padded {c : Cell} {n : Nat} (fits : 0 < c.width ∧ n < 10 ^ c.width)
    (rest : List Char) : c.readFirst? (padded c.width n ++ c.after ++ rest) = some (n, rest) := by
  have wide := length_padded_of_lt fits
  have long : c.width ≤ (padded c.width n ++ (c.after ++ rest)).length := by
    rw [List.length_append, wide]
    exact Nat.le_add_right _ _
  have separated : (c.after ++ rest).dropPrefix? c.after = some rest :=
    List.dropPrefix?_eq_some_iff.mpr ⟨c.after, rfl, beq_self_eq_true _⟩
  rw [List.append_assoc, readFirst?, if_pos long, List.take_left' wide, List.drop_left' wide,
    readDigits?_padded fits.1, separated]
  rfl

/-- Numbers are read as they were written. -/
theorem read?_write {cells : List Cell} {values : List Nat} (fit : Fit cells values) :
    read? cells (write cells values) = some values := by
  induction fit with
  | nil => rfl
  | cons fits _ ih =>
    rw [write, read?, readFirst?_padded fits]
    simp only [Option.bind_eq_bind, Option.bind_some, ih]
    rfl

theorem write_injective {cells : List Cell} {a b : List Nat} (left : Fit cells a)
    (right : Fit cells b) (same : write cells a = write cells b) : a = b := by
  have read := read?_write left
  rw [same, read?_write right] at read
  exact (Option.some.inj read).symm

/-- The first number that differs decides, in the texts as in the lists. -/
theorem write_lt_iff {cells : List Cell} {a b : List Nat} (left : Fit cells a)
    (right : Fit cells b) : write cells a < write cells b ↔ a < b := by
  induction left generalizing b with
  | nil =>
    cases right
    exact iff_of_false (List.lt_irrefl []) (List.lt_irrefl [])
  | @cons c m cells a fits _ ih =>
    cases right with
    | @cons _ n _ b there right =>
      have wide : (padded c.width m).length = (padded c.width n).length := by
        rw [length_padded_of_lt fits, length_padded_of_lt there]
      have same : padded c.width m = padded c.width n ↔ m = n := by
        simp [padded_eq_padded_iff]
      rw [write, write, List.append_assoc, List.append_assoc, append_lt_append_iff wide,
        padded_lt_iff fits there, same, append_lt_append_iff rfl, ih right, List.cons_lt_cons_iff]
      simp only [List.lt_irrefl, true_and, false_or]

end Cell
end Solr.Text
