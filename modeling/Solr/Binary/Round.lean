import Solr.Binary.Basic

/-! Rounding a quotient to the nearest value of a format, a tie to the even
significand. Quotients beyond the largest finite value become infinite; those below
half of the smallest become zero and keep their sign. -/
namespace Solr

/-- The nearest integer to `num / den`, a tie to the even one. -/
def divNearest (num den : Nat) : Nat :=
  let q := num / den
  let r := num % den
  if 2 * r < den then q else if den < 2 * r then q + 1 else q + q % 2

namespace Format

/-- `num / den` divided by `2 ^ exponent`. -/
def unscale (r : Ratio) (exponent : Int) : Ratio :=
  if 0 ≤ exponent then ⟨r.num, r.den * Nat.pow 2 exponent.toNat⟩
  else ⟨r.num * Nat.pow 2 (-exponent).toNat, r.den⟩

/-- The weight of the last bit that `r` keeps in the format. -/
def lastBit (f : Format) (r : Ratio) : Int :=
  let low : Int := (r.num.log2 : Int) - r.den.log2 - f.precision
  let u := unscale r low
  let fitting := if u.num / u.den < Nat.pow 2 f.precision then low else low + 1
  max fitting f.minExponent

end Format

namespace Binary

variable {f : Format}

/-- A rounded significand may have carried into one more bit. -/
def pack (negative : Bool) (significand : Nat) (exponent : Int) : Binary f :=
  if h : f.Canonical significand exponent then .finite negative significand exponent h
  else if h : f.Canonical (significand / 2) (exponent + 1) then
    .finite negative (significand / 2) (exponent + 1) h
  else .infinity negative

def nearest (negative : Bool) (r : Ratio) : Binary f :=
  if r.num = 0 then pack negative 0 f.minExponent
  else
    let e := f.lastBit r
    let u := Format.unscale r e
    pack negative (divNearest u.num u.den) e

def ofNat (n : Nat) : Binary f :=
  nearest false ⟨n, 1⟩

def ofInt (i : Int) : Binary f :=
  nearest (i < 0) ⟨i.natAbs, 1⟩

def neg : Binary f → Binary f
  | .nan => .nan
  | .infinity negative => .infinity !negative
  | .finite negative m e h => .finite (!negative) m e h

/-- The rounded product of two finite values. -/
def mul (a b : Binary f) : Binary f :=
  match a.magnitude?, b.magnitude? with
  | some x, some y => nearest (a.isNegative != b.isNegative) (x.mul y)
  | _, _ => .nan

/-- The rounded quotient of a finite value by a finite one other than zero. -/
def div (a b : Binary f) : Binary f :=
  match a.magnitude?, b.magnitude? with
  | some x, some y => nearest (a.isNegative != b.isNegative) (x.div y)
  | _, _ => .nan

/-- The same number in another format, rounded if it does not fit. -/
def convert {g : Format} : Binary f → Binary g
  | .nan => .nan
  | .infinity negative => .infinity negative
  | .finite negative m e _ => nearest negative (.scaled 2 m e)

end Binary
end Solr
