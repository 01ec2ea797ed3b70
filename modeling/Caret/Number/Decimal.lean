/-
  Decimals, and the binary64 magnitude nearest to one.

  A decimal is a coefficient and a power of ten.  `Magnitude.ofDecimal` rounds it to the NEAREST
  magnitude, a tie going to the even rank, for coefficients and exponents of any size.  Sizes that
  overflow or vanish are told apart by a cheap bound first, so that a power of ten is formed only
  where the answer depends on it.
-/
import Caret.Number.Basic

namespace Caret

/-- The value `coefficient · 10 ^ exponent`. -/
structure Decimal where
  coefficient : Nat
  exponent : Int
  deriving DecidableEq

namespace Magnitude

/-- The magnitude nearest to `numerator / denominator` units, a tie going to the even rank. -/
def nearest (numerator denominator : Nat) : Magnitude :=
  let below := rankBelow (numerator / denominator)
  let twice := 2 * numerator
  let middle := denominator * (units below + units (below + 1))
  if twice < middle then ofRank below
  else if middle < twice then ofRank (below + 1)
  else ofRank (below + below % 2)

/-- The magnitude nearest to a decimal.

    A whole coefficient times `10³¹⁰` exceeds every finite magnitude, and less than an eighth of a
    unit is nearest to zero: `c < 2 ^ (log₂ c + 1)` and `10ᵉ ≥ 2³ᵉ` put `c / 10ᵉ` there as soon as
    `log₂ c + unitExponent + 3 < 3e`. -/
def ofDecimal (d : Decimal) : Magnitude :=
  if d.coefficient = 0 then zero
  else match d.exponent with
    | .ofNat e =>
      if 309 < e then infinite else nearest ((d.coefficient * Nat.pow 10 e) <<< unitExponent) 1
    | .negSucc e =>
      if d.coefficient.log2 + unitExponent + 3 < 3 * (e + 1) then zero
      else nearest (d.coefficient <<< unitExponent) (Nat.pow 10 (e + 1))

end Magnitude

namespace Number

/-- The number nearest to a signed decimal. -/
def ofDecimal (negative : Bool) (d : Decimal) : Number := signed negative (.ofDecimal d)

/-- The number nearest to an integer; zero comes out positive. -/
def ofInt (i : Int) : Number := ofDecimal (i < 0) ⟨i.natAbs, 0⟩

end Number

end Caret
