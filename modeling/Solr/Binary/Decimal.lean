import Solr.Binary.Round
import Solr.Text.Digits

/-! Decimal numbers, their positional text, and the reading of decimal numerals as
the nearest binary value. -/
namespace Solr

/-- `coefficient * 10 ^ exponent`. -/
structure Decimal where
  coefficient : Nat
  exponent : Int
  deriving DecidableEq

namespace Decimal

def ratio (d : Decimal) : Ratio :=
  .scaled 10 d.coefficient d.exponent

/-- The same number without zeros at the end of the coefficient. -/
def trimmed (d : Decimal) : Decimal :=
  let zeros := ((Text.digits d.coefficient).reverse.takeWhile (· = '0')).length
  if d.coefficient = 0 then ⟨0, 0⟩ else ⟨d.coefficient / Nat.pow 10 zeros, d.exponent + zeros⟩

/-- Digits before and after the point; the whole part has at least one. -/
def positional (d : Decimal) : List Char × List Char :=
  let ds := Text.digits d.coefficient
  if 0 ≤ d.exponent then
    if d.coefficient = 0 then (['0'], []) else (ds ++ List.replicate d.exponent.toNat '0', [])
  else
    let places := (-d.exponent).toNat
    if places < ds.length then ds.splitAt (ds.length - places)
    else (['0'], List.replicate (places - ds.length) '0' ++ ds)

/-- The exponent of the first digit. -/
def leadingExponent (d : Decimal) : Int :=
  d.exponent + (Text.digits d.coefficient).length - 1

end Decimal

/-- No numeral with its first digit at or beyond this power of ten is finite in the
format, and none as far below the point is nonzero. -/
def Format.decimalSpan (f : Format) : Int :=
  f.maxExponent.natAbs + f.minExponent.natAbs + f.precision + 1

inductive NumeralError where
  | empty
  | malformed
  deriving DecidableEq

def NumeralError.message : NumeralError → String
  | .empty => "cannot parse float from empty string"
  | .malformed => "invalid float literal"

namespace Binary

variable {f : Format}

def zero (negative : Bool) : Binary f :=
  pack negative 0 f.minExponent

/-- The nearest value; far exponents are settled without computing the power. -/
def ofDecimal (negative : Bool) (d : Decimal) : Binary f :=
  if d.coefficient = 0 then zero negative
  else if f.decimalSpan < d.leadingExponent then .infinity negative
  else if d.leadingExponent < -f.decimalSpan then zero negative
  else nearest negative d.ratio

private def readExponent? : List Char → Option Int
  | [] => some 0
  | c :: s => if c = 'e' ∨ c = 'E' then Text.readInt? s else none

/-- Digits with an optional point, at least one of them, and an optional exponent. -/
def readDecimal? (s : List Char) : Option Decimal :=
  let whole := s.takeWhile Char.isDigit
  let rest := s.dropWhile Char.isDigit
  let (fraction, rest) := match rest with
    | '.' :: r => (r.takeWhile Char.isDigit, r.dropWhile Char.isDigit)
    | _ => ([], rest)
  if whole ++ fraction = [] then none
  else (readExponent? rest).map fun e =>
    ⟨Text.digitsValue (whole ++ fraction), e - fraction.length⟩

private def readUnsigned? (negative : Bool) (s : List Char) : Option (Binary f) :=
  let word := String.ofList (s.map Char.toLower)
  if word = "nan" then some .nan
  else if word = "inf" ∨ word = "infinity" then some (.infinity negative)
  else (readDecimal? s).map (ofDecimal negative)

/-- Reads a numeral, `inf`, `infinity` or `nan` in any letter case, each with an
optional sign. -/
def read (s : List Char) : Except NumeralError (Binary f) :=
  let result := match s with
    | '-' :: r => readUnsigned? true r
    | '+' :: r => readUnsigned? false r
    | _ => readUnsigned? false s
  match result with
  | some x => .ok x
  | none => .error (if s = [] then .empty else .malformed)

end Binary
end Solr
