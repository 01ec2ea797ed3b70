/-
  The compact text of a number: written out while it is short, in powers of ten beyond that.

  A number whose first digit is worth between `10 ^ -5` and `10 ^ 15` is written out, with a point
  even where it is whole: `100.0`, `0.00001`.  Any other is its digits, the point after the first,
  and the signed power of ten: `1e+16`, `2.5e-7`.  The digits are the fewest that read back, and a
  tie goes to the even one.
-/
import Caret.Number.Text

namespace Caret

namespace Decimal

/-- What power of ten the first digit counts. -/
def leadingExponent (d : Decimal) : Int :=
  d.exponent + ((Nat.toDigits 10 d.coefficient).length : Int) - 1

/-- Written out, with a point in any case. -/
def pointedSpelling (d : Decimal) : List Char :=
  match d.exponent with
  | .ofNat _ => d.spelling ++ ['.', '0']
  | .negSucc _ => d.spelling

/-- Written with a power of ten. -/
def scientificSpelling (d : Decimal) : List Char :=
  let digits := Nat.toDigits 10 d.coefficient
  let point := if digits.length ≤ 1 then [] else ['.']
  let sign := if d.leadingExponent < 0 then '-' else '+'
  digits.take 1 ++ point ++ digits.drop 1 ++ 'e' :: sign ::
    Nat.toDigits 10 d.leadingExponent.natAbs

def compactSpelling (d : Decimal) : List Char :=
  if -5 ≤ d.leadingExponent ∧ d.leadingExponent ≤ 15 then d.pointedSpelling
  else d.scientificSpelling

end Decimal

/-- The compact text of a number; infinities and `nan` are written as in `Number.display`. -/
def Number.compact (x : Number) : String :=
  match x with
  | nan => x.display
  | signed negative m =>
    if m.rank < infiniteRank then
      let unsigned := (m.shortest .even).compactSpelling
      String.ofList (if negative then '-' :: unsigned else unsigned)
    else x.display

end Caret
