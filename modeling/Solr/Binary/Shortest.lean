import Solr.Binary.Decimal

/-! The fewest decimal digits that read back as the same binary value, and the plain
positional text made of them. Each grid of decimals is tried from the coarsest on;
only the two neighbours of the value on a grid can be its best point there. -/
namespace Solr

/-- Which of two equally near decimals stands for a value. -/
inductive Tie where
  | even
  | up
  deriving DecidableEq

/-- The largest power of ten that is at most `r`, for `r` positive. -/
def Ratio.floorLog10 (r : Ratio) : Int :=
  if r.den ≤ r.num then ((Text.digits (r.num / r.den)).length : Int) - 1
  else
    let places := (Text.digits (r.den / r.num)).length
    if r.num * Nat.pow 10 (places - 1) = r.den then 1 - (places : Int) else -(places : Int)

/-- The neighbours of `r` among the multiples of `10 ^ exponent`, the nearer first. -/
def Ratio.neighbours (tie : Tie) (r : Ratio) (exponent : Int) : List Decimal :=
  let s := if 0 ≤ exponent then Ratio.mk r.num (r.den * Nat.pow 10 exponent.toNat)
    else Ratio.mk (r.num * Nat.pow 10 (-exponent).toNat) r.den
  let low := s.num / s.den
  let twice := 2 * (s.num % s.den)
  let lowFirst := twice < s.den ∨ (twice = s.den ∧ tie = .even ∧ low % 2 = 0)
  if lowFirst then [⟨low, exponent⟩, ⟨low + 1, exponent⟩]
  else [⟨low + 1, exponent⟩, ⟨low, exponent⟩]

namespace Binary

variable {f : Format}

/-- All digits of a finite value: `m * 2 ^ -k = m * 5 ^ k * 10 ^ -k`. -/
def exactDecimal (significand : Nat) (exponent : Int) : Decimal :=
  if 0 ≤ exponent then ⟨significand * Nat.pow 2 exponent.toNat, 0⟩
  else ⟨significand * Nat.pow 5 (-exponent).toNat, exponent⟩

/-- Seventeen digits tell any two values of either format apart. -/
def shortestDecimal (tie : Tie) : Binary f → Decimal
  | .finite negative m e h =>
    let r := Ratio.scaled 2 m e
    let top := r.floorLog10
    let hit := (List.range 17).findSome? fun (n : Nat) =>
      (r.neighbours tie (top - n)).find? fun d =>
        ofDecimal negative d = Binary.finite negative m e h
    if m = 0 then ⟨0, 0⟩ else (hit.getD (exactDecimal m e)).trimmed
  | _ => ⟨0, 0⟩

/-- Positional notation whatever the size, without a point for whole numbers. -/
def plainText (x : Binary f) : List Char :=
  match x with
  | .nan => "NaN".toList
  | .infinity negative => if negative then "-inf".toList else "inf".toList
  | .finite negative .. =>
    let (whole, fraction) := (x.shortestDecimal .up).positional
    let unsigned := if fraction = [] then whole else whole ++ '.' :: fraction
    if negative then '-' :: unsigned else unsigned

end Binary
end Solr
