import Solr.Json.Fault

/-! Numerals of JSON texts: their grammar, and two readings of their value. The
nearest reading rounds once. The quick reading keeps the leading digits that fit in
64 bits, rounds them, and multiplies or divides by a rounded power of ten. -/
namespace Solr.Json

structure Numeral where
  negative : Bool
  whole : List Char
  fraction : List Char
  /-- The sign and the digits after the exponent mark. -/
  exponent : Option (Bool × List Char)
  deriving DecidableEq

/-- A text that cannot be read on; skipping over a value may find another fault in it. -/
structure Stop where
  reading : Fault
  skipping : Fault
  deriving DecidableEq

namespace Stop

def both (f : Fault) : Stop :=
  ⟨f, f⟩

/-- Digits are due: at the end of the text a reader wants more, a skipper gives up. -/
def digitsDue (rest : List Char) : Stop :=
  ⟨if rest = [] then .endInValue else .invalidNumber, .invalidNumber⟩

end Stop

namespace Numeral

def scanExponent : List Char → Except Stop (Option (Bool × List Char) × List Char)
  | [] => .ok (none, [])
  | c :: s =>
    if c = 'e' ∨ c = 'E' then
      let (negative, s) := match s with
        | '-' :: r => (true, r)
        | '+' :: r => (false, r)
        | _ => (false, s)
      let ds := s.takeWhile Char.isDigit
      if ds = [] then .error (.digitsDue s)
      else .ok (some (negative, ds), s.dropWhile Char.isDigit)
    else .ok (none, c :: s)

def scanFraction : List Char → Except Stop (List Char × List Char)
  | '.' :: s =>
    let ds := s.takeWhile Char.isDigit
    if ds = [] then .error (.digitsDue s) else .ok (ds, s.dropWhile Char.isDigit)
  | s => .ok ([], s)

/-- The longest numeral at the front and what follows it; no zero stands before
another digit of the whole part. -/
def scan (s : List Char) : Except Stop (Numeral × List Char) := do
  let (negative, s) := match s with
    | '-' :: r => (true, r)
    | _ => (false, s)
  let whole := s.takeWhile Char.isDigit
  if whole = [] then throw (.digitsDue s)
  if whole.head? = some '0' ∧ whole.length ≠ 1 then throw (.both .invalidNumber)
  let (fraction, s) ← scanFraction (s.dropWhile Char.isDigit)
  let (exponent, s) ← scanExponent s
  return (⟨negative, whole, fraction, exponent⟩, s)

def isInteger (n : Numeral) : Bool :=
  n.fraction = [] && n.exponent = none

/-- Whole numbers of 64 bits, signed when negative; zero with a sign is not one. -/
def integer? (n : Numeral) : Option Int :=
  let v := Text.digitsValue n.whole
  if !n.isInteger then none
  else if n.negative then if 0 < v ∧ v ≤ 0x8000000000000000 then some (-v) else none
  else if v < 0x10000000000000000 then some v else none

def exponentValue (n : Numeral) : Int :=
  match n.exponent with
  | none => 0
  | some (negative, ds) =>
    if negative then -(Text.digitsValue ds : Int) else Text.digitsValue ds

def decimal (n : Numeral) : Decimal :=
  ⟨Text.digitsValue (n.whole ++ n.fraction), n.exponentValue - n.fraction.length⟩

/-- The value is absent when it is beyond the largest finite one. -/
def nearest (n : Numeral) : Option Number :=
  match n.integer? with
  | some i => some (.integer i)
  | none =>
    let x : Double := .ofDecimal n.negative n.decimal
    if x.isFinite then some (.double x) else none

/-- Appends digits to `value` while the result has 64 bits; the digits left over. -/
def gather (value : Nat) : List Char → Nat × List Char
  | [] => (value, [])
  | c :: rest =>
    let next := 10 * value + (c.toNat - 48)
    if next < 0x10000000000000000 then gather next rest else (value, c :: rest)

def powerOfTen (n : Nat) : Double :=
  .ofDecimal false ⟨1, n⟩

/-- `significand * 10 ^ exponent`, rounded at each step; powers above 308 are not
finite, so that far below the point two divisions are made. -/
def scaled (negative : Bool) (significand : Nat) (exponent : Int) : Option Double :=
  let x : Double := .ofNat significand
  let result : Double :=
    if significand = 0 then x
    else if 308 < exponent then .infinity false
    else if 0 ≤ exponent then x.mul (powerOfTen exponent.toNat)
    else if -308 ≤ exponent then x.div (powerOfTen (-exponent).toNat)
    else if -616 ≤ exponent then
      (x.div (powerOfTen 308)).div (powerOfTen (-exponent - 308).toNat)
    else .zero false
  if result.isFinite then some (if negative then result.neg else result) else none

/-- Exponents beyond 31 bits settle the value by themselves. -/
def quick (n : Numeral) : Option Number :=
  match n.integer? with
  | some i => some (.integer i)
  | none =>
    let (head, dropped) := gather 0 n.whole
    let (significand, unread) := gather head n.fraction
    let point : Int := dropped.length - (n.fraction.length - unread.length : Nat)
    let e := n.exponentValue
    if e.natAbs < 0x80000000 then (scaled n.negative significand (point + e)).map .double
    else if significand = 0 ∨ e < 0 then some (.double (.zero n.negative))
    else none

end Numeral
end Solr.Json
