/-! Binary floating-point values as sign, significand and exponent. A finite value
has exactly one representation, so equality of values is equality of data; the two
zeros are two values. -/
namespace Solr

/-- Significands have at most `precision` bits; `minExponent` and `maxExponent`
bound the weight of the last bit. -/
structure Format where
  precision : Nat
  minExponent : Int
  maxExponent : Int
  deriving DecidableEq

def Format.double : Format := ⟨53, -1074, 971⟩

def Format.single : Format := ⟨24, -149, 104⟩

/-- A significand below the leading bit is allowed only at the smallest exponent. -/
def Format.Canonical (f : Format) (significand : Nat) (exponent : Int) : Prop :=
  significand < Nat.pow 2 f.precision ∧ f.minExponent ≤ exponent ∧ exponent ≤ f.maxExponent ∧
    (Nat.pow 2 (f.precision - 1) ≤ significand ∨ exponent = f.minExponent)

instance (f : Format) (m : Nat) (e : Int) : Decidable (f.Canonical m e) :=
  inferInstanceAs (Decidable (_ ∧ _))

inductive Binary (f : Format) where
  | nan
  | infinity (negative : Bool)
  | finite (negative : Bool) (significand : Nat) (exponent : Int)
      (canonical : f.Canonical significand exponent)
  deriving DecidableEq

abbrev Double := Binary .double

abbrev Single := Binary .single

/-- A quotient of naturals; the divisor is positive wherever one is built here. -/
structure Ratio where
  num : Nat
  den : Nat
  deriving DecidableEq

/-- `significand * base ^ exponent`. -/
def Ratio.scaled (base significand : Nat) (exponent : Int) : Ratio :=
  if 0 ≤ exponent then ⟨significand * Nat.pow base exponent.toNat, 1⟩
  else ⟨significand, Nat.pow base (-exponent).toNat⟩

def Ratio.mul (a b : Ratio) : Ratio :=
  ⟨a.num * b.num, a.den * b.den⟩

def Ratio.div (a b : Ratio) : Ratio :=
  ⟨a.num * b.den, a.den * b.num⟩

namespace Binary

variable {f : Format}

def isNaN : Binary f → Bool
  | .nan => true
  | _ => false

def isFinite : Binary f → Bool
  | .finite .. => true
  | _ => false

/-- Either zero. -/
def isZero : Binary f → Bool
  | .finite _ m _ _ => m = 0
  | _ => false

def isNegative : Binary f → Bool
  | .nan => false
  | .infinity negative => negative
  | .finite negative .. => negative

/-- The absolute value of a finite value. -/
def magnitude? : Binary f → Option Ratio
  | .finite _ m e _ => some (.scaled 2 m e)
  | _ => none

/-- Finite and without a fraction. -/
def isWhole : Binary f → Bool
  | .finite _ m e _ =>
    let r := Ratio.scaled 2 m e
    r.num % r.den = 0
  | _ => false

/-- Below a bound in absolute value. -/
def isWithin (bound : Nat) : Binary f → Bool
  | .finite _ m e _ =>
    let r := Ratio.scaled 2 m e
    r.num < bound * r.den
  | _ => false

/-- The conversion to integers of 64 bits cuts off the fraction. What lies beyond their
range becomes the nearer end of it, and what is no number becomes zero. -/
def toInt64 : Binary f → Int
  | .nan => 0
  | .infinity negative => if negative then -0x8000000000000000 else 0x7fffffffffffffff
  | .finite negative m e _ =>
    let r := Ratio.scaled 2 m e
    let n : Int := (r.num / r.den : Nat)
    max (-0x8000000000000000) (min 0x7fffffffffffffff (if negative then -n else n))

end Binary
end Solr
