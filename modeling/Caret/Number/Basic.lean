/-
  Binary64 numbers, held exactly.

  A finite binary64 magnitude is a whole number of UNITS of `2⁻¹⁰⁷⁴`, and the magnitudes in
  ascending order can simply be counted: the `r`-th one (its RANK) is `units r` units large.
  Counting on past the largest finite magnitude, the next rank stands for infinity.  So

  * a **number** is `nan`, or a sign with a rank;
  * **comparison** compares signed ranks: no arithmetic on the magnitudes is needed, both zeros
    sit at position `0`, and `nan` has no position;
  * **rounding** (`Caret.Number.Decimal`) only has to find a rank.

  The two readings of a rank are inverse: `rankBelow (units r) = r`.
-/

namespace Caret

/-! ## Ranks and units -/

/-- A unit is `2 ^ -unitExponent`, the smallest magnitude above zero.  Irreducible, so that no
    proof step forms a power of this size. -/
@[irreducible]
def unitExponent : Nat := 1074

/-- How many ranks in a row have one spacing: `2 ^ 52`. -/
def runLength : Nat := 4503599627370496

/-- The rank of infinity: the finite magnitudes have the ranks below it. -/
def infiniteRank : Nat := 2047 * runLength

/-- The size of the magnitude of rank `r`, in units.  The spacing doubles from run to run; only the
    first two runs share theirs. -/
def units (r : Nat) : Nat :=
  let doublings := r / runLength - 1
  (r - doublings * runLength) <<< doublings

/-- The largest rank whose magnitude is at most `u` units. -/
def rankBelow (u : Nat) : Nat :=
  let doublings := u.log2 - 52
  doublings * runLength + u >>> doublings

/-- A non-negative binary64 value, infinity included, as its rank among them. -/
structure Magnitude where
  rank : Nat
  rank_le : rank ≤ infiniteRank
  deriving DecidableEq

namespace Magnitude

def zero : Magnitude := ⟨0, Nat.zero_le _⟩

def infinite : Magnitude := ⟨infiniteRank, Nat.le_refl _⟩

/-- The magnitude of a rank; ranks past infinity give infinity. -/
def ofRank (r : Nat) : Magnitude := ⟨min r infiniteRank, Nat.min_le_right _ _⟩

end Magnitude

/-! ## Numbers -/

/-- A binary64 number.  All not-a-number values are one value here. -/
inductive Number where
  | nan
  | signed (negative : Bool) (magnitude : Magnitude)
  deriving DecidableEq

namespace Number

def zero : Number := signed false .zero

def one : Number := signed false (.ofRank (1023 * runLength))

/-- Neither infinite nor `nan`. -/
def isFinite : Number → Bool
  | nan => false
  | signed _ m => m.rank < infiniteRank

/-- Where a number stands in the numeric order; `nan` stands nowhere. -/
def position? : Number → Option Int
  | nan => none
  | signed negative m => some (if negative then -(m.rank : Int) else m.rank)

/-! ## Comparison

  All four relations are false as soon as one side is `nan`. -/

/-- Lift a relation between positions to numbers. -/
def compareBy (relation : Int → Int → Bool) (x y : Number) : Bool :=
  match x.position?, y.position? with
  | some a, some b => relation a b
  | _, _ => false

/-- Numeric equality: the two zeros are equal, `nan` equals nothing. -/
def equal : Number → Number → Bool := compareBy fun a b => a == b

def less : Number → Number → Bool := compareBy fun a b => a < b

def lessOrEqual : Number → Number → Bool := compareBy fun a b => a ≤ b

end Number

end Caret
