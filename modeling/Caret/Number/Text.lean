/-
  The text of a number, read and written.

  1. **Reading** (`Number.ofText?`): an optional sign, then `inf`, `infinity` or `nan` in any
     case, or digits with at most one point and an optional power of ten.  The value is rounded
     once, from the exact decimal.
  2. **Writing** (`Number.display`): the fewest digits that read back, always without a power of
     ten.  The writer asks the reader's own rounding whether a candidate reads back, so the two
     cannot drift apart.
-/
import Caret.Number.Decimal

namespace Caret

/-! ## Reading -/

namespace Decimal

/-- The digits of an exponent: at least one, and nothing else. -/
def exponentDigits? (cs : List Char) : Option Nat :=
  if cs.isEmpty || !cs.all Char.isDigit then none else some (Nat.ofDigitChars 10 cs 0)

/-- What may follow the digits: nothing, or `e` or `E`, a sign or none, and digits. -/
def exponent? : List Char → Option Int
  | [] => some 0
  | mark :: rest =>
    if mark = 'e' || mark = 'E' then
      match rest with
      | '-' :: digits => (exponentDigits? digits).map fun e => -(e : Int)
      | '+' :: digits => (exponentDigits? digits).map fun e => (e : Int)
      | digits => (exponentDigits? digits).map fun e => (e : Int)
    else none

/-- The digits after a point, and what follows them; without a point there are none. -/
def fraction : List Char → List Char × List Char
  | '.' :: cs => (cs.takeWhile Char.isDigit, cs.dropWhile Char.isDigit)
  | cs => ([], cs)

/-- Read an unsigned decimal.  Digits are needed before or after the point, not on both sides. -/
def ofChars? (cs : List Char) : Option Decimal :=
  let whole := cs.takeWhile Char.isDigit
  let (part, rest) := fraction (cs.dropWhile Char.isDigit)
  if (whole ++ part).isEmpty then none
  else (exponent? rest).map fun e => ⟨Nat.ofDigitChars 10 (whole ++ part) 0, e - part.length⟩

end Decimal

namespace Number

/-- Read what follows the sign. -/
def ofUnsigned? (negative : Bool) (cs : List Char) : Option Number :=
  let folded := cs.map Char.toLower
  if folded = ['n', 'a', 'n'] then some nan
  else if folded = ['i', 'n', 'f'] || folded = ['i', 'n', 'f', 'i', 'n', 'i', 't', 'y'] then
    some (signed negative .infinite)
  else (Decimal.ofChars? cs).map (ofDecimal negative)

def ofChars? : List Char → Option Number
  | '-' :: cs => ofUnsigned? true cs
  | '+' :: cs => ofUnsigned? false cs
  | cs => ofUnsigned? false cs

/-- Read a number; the whole text must be one. -/
def ofText? (text : String) : Option Number := ofChars? text.toList

end Number

/-! ## The shortest decimal that reads back

  A magnitude, being a whole number of `2 ^ -unitExponent`, is one of `10 ^ -unitExponent` too, so
  PLACES are counted from there: place `j` is the digit worth `10 ^ (j - unitExponent)`.  At each
  place the two neighbours of the value are tried, from a place above its first digit downwards;
  the first place with a hit has the fewest digits.  Place `0` is exact, so the search always ends
  in a hit. -/

/-- What becomes of a value that lies halfway between two decimals. -/
inductive Tie where
  | upper
  | even
  deriving DecidableEq

/-- Is a value nearer to the upper neighbour?  It lies by `remainder` above `below` places. -/
def Tie.prefersUpper (tie : Tie) (below remainder place : Nat) : Bool :=
  place < 2 * remainder ||
    (place = 2 * remainder && (match tie with
      | upper => true
      | even => below % 2 = 1))

namespace Magnitude

/-- The magnitude as a multiple of `10 ^ -unitExponent`. -/
def scaled (m : Magnitude) : Nat := units m.rank * Nat.pow 5 unitExponent

/-- The one of two decimals that reads back as the magnitude; if both do, the preferred one. -/
def readingBack? (m : Magnitude) (lower upper : Decimal) (preferUpper : Bool) : Option Decimal :=
  if ofDecimal lower = m then
    if ofDecimal upper = m ∧ preferUpper then some upper else some lower
  else if ofDecimal upper = m then some upper
  else none

/-- The neighbour of the value at place `j` that reads back, of two the nearer. -/
def roundedAt? (m : Magnitude) (tie : Tie) (j : Nat) : Option Decimal :=
  let place := Nat.pow 10 j
  let below := m.scaled / place
  m.readingBack? ⟨below, (j : Int) - unitExponent⟩ ⟨below + 1, (j : Int) - unitExponent⟩
    (tie.prefersUpper below (m.scaled % place) place)

/-- The first decimal that reads back, from place `j` downwards. -/
def shortestFrom (m : Magnitude) (tie : Tie) : Nat → Decimal
  | 0 => ⟨m.scaled, -(unitExponent : Int)⟩
  | j + 1 => (m.roundedAt? tie (j + 1)).getD (m.shortestFrom tie j)

/-- The decimal with the fewest digits that reads back.  `30103 / 100000` is a little more than
    the decimal logarithm of two, so the search starts above the first digit. -/
def shortest (m : Magnitude) (tie : Tie) : Decimal :=
  if m.rank = 0 then ⟨0, 0⟩ else m.shortestFrom tie (m.scaled.log2 * 30103 / 100000 + 2)

end Magnitude

/-! ## Writing -/

namespace Decimal

/-- The digits of `coefficient`, with zeros before the first one so that there are more than
    `places` of them. -/
def paddedDigits (coefficient places : Nat) : List Char :=
  let digits := Nat.toDigits 10 coefficient
  List.replicate (places + 1 - digits.length) '0' ++ digits

/-- A decimal written out in full, without a power of ten. -/
def spelling (d : Decimal) : List Char :=
  match d.exponent with
  | .ofNat e => Nat.toDigits 10 (d.coefficient * Nat.pow 10 e)
  | .negSucc e =>
    let digits := paddedDigits d.coefficient (e + 1)
    let wholeLength := digits.length - (e + 1)
    digits.take wholeLength ++ '.' :: digits.drop wholeLength

end Decimal

/-- A magnitude written out in full; a tie goes up. -/
def Magnitude.spelling (m : Magnitude) : List Char :=
  if m.rank < infiniteRank then (m.shortest .upper).spelling else ['i', 'n', 'f']

namespace Number

/-- The text of a number as characters: `NaN` has no sign, a whole number no point. -/
def spelling : Number → List Char
  | nan => ['N', 'a', 'N']
  | signed negative m => if negative then '-' :: m.spelling else m.spelling

/-- The text of a number. -/
def display (x : Number) : String := String.ofList x.spelling

end Number

end Caret
