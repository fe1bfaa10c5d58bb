/-! Digits: writing with a least width, and reading whole numerals. -/
namespace Solr.Text

def digits (n : Nat) : List Char :=
  Nat.toDigits 10 n

/-- The number that a list of digits denotes. -/
def digitsValue (ds : List Char) : Nat :=
  Nat.ofDigitChars 10 ds 0

/-- Zeros in front fill the numeral up to `width`. -/
def padded (width n : Nat) : List Char :=
  let ds := digits n
  List.replicate (width - ds.length) '0' ++ ds

def integer (i : Int) : List Char :=
  if i < 0 then '-' :: digits i.natAbs else digits i.natAbs

/-- One or more digits and nothing else. -/
def readDigits? (s : List Char) : Option Nat :=
  if s ≠ [] ∧ s.all Char.isDigit then some (digitsValue s) else none

/-- A numeral that may carry a plus sign. -/
def readNat? : List Char → Option Nat
  | '+' :: s => readDigits? s
  | s => readDigits? s

/-- A numeral that may carry either sign. -/
def readInt? : List Char → Option Int
  | '-' :: s => (readDigits? s).map fun n => -(n : Int)
  | s => (readNat? s).map fun n => (n : Int)

/-- A hexadecimal digit of either case. -/
def hexValue? (c : Char) : Option Nat :=
  if '0' ≤ c ∧ c ≤ '9' then some (c.toNat - 48)
  else if 'a' ≤ c ∧ c ≤ 'f' then some (c.toNat - 87)
  else if 'A' ≤ c ∧ c ≤ 'F' then some (c.toNat - 55)
  else none

theorem digitsValue_digits (n : Nat) : digitsValue (digits n) = n :=
  Nat.ofDigitChars_ten_toDigits

theorem isDigit_of_mem_digits {n : Nat} {c : Char} (h : c ∈ digits n) : c.isDigit = true :=
  Nat.isDigit_of_mem_toDigits (by decide) (by decide) h

theorem digits_ne_nil (n : Nat) : digits n ≠ [] :=
  Nat.toDigits_ne_nil

theorem readDigits?_digits (n : Nat) : readDigits? (digits n) = some n := by
  have all : (digits n).all Char.isDigit = true :=
    List.all_eq_true.mpr fun _ h => isDigit_of_mem_digits h
  simp [readDigits?, digits_ne_nil, all, digitsValue_digits]

end Solr.Text
