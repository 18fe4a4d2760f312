import EventClient.Binary64.Rounding

/-!
The fewest decimal digits that round to a given double, and among those the nearest ones. The
reals that round to the double form an interval, closed exactly when the significand is even;
from the coarsest decimal grid downwards, the two neighbours of the double on the grid are tried.
-/
namespace EventClient.Binary64

/-- A decimal number, `digits * 10 ^ power`. -/
structure Decimal where
  digits : Nat
  power : Int
deriving DecidableEq, Repr

/-- The reals that round to a double, in units of `num / den`. -/
structure Neighbourhood where
  low : Nat
  middle : Nat
  high : Nat
  closed : Bool
  num : Nat
  den : Nat

/-- Quarters of the last place are the units, because below a power of two the doubles lie twice
as close as above it. -/
def neighbourhood (x : Binary64) : Neighbourhood :=
  let m := x.significand
  let narrow := m == leadingBit && decide (-1074 < x.exponent)
  let place := x.exponent - 2
  { low := 4 * m - (if narrow then 1 else 2)
    middle := 4 * m
    high := 4 * m + 2
    closed := m % 2 == 0
    num := if place < 0 then 1 else Nat.pow 2 place.toNat
    den := if place < 0 then Nat.pow 2 (-place).toNat else 1 }

namespace Neighbourhood

/-- The bounds and the middle on the grid of `10 ^ power`, with a common denominator. -/
def onGrid (n : Neighbourhood) (power : Int) : Neighbourhood :=
  let up := n.num * Nat.pow 10 (-power).toNat
  { n with low := n.low * up, middle := n.middle * up, high := n.high * up,
           num := 1, den := n.den * Nat.pow 10 power.toNat }

/-- Whether the grid point `digits` lies in the interval. -/
def holds (n : Neighbourhood) (digits : Nat) : Bool :=
  let point := digits * n.den
  if n.closed then decide (n.low ≤ point ∧ point ≤ n.high)
  else decide (n.low < point ∧ point < n.high)

/-- The grid point in the interval that is nearest to the middle, the even one on a tie. -/
def nearest? (n : Neighbourhood) : Option Nat :=
  let below := n.middle / n.den
  let above := below + 1
  match below != 0 && n.holds below, n.holds above with
  | false, false => none
  | true, false => some below
  | false, true => some above
  | true, true =>
    let down := n.middle - below * n.den
    let up := above * n.den - n.middle
    if down < up || (down == up && below % 2 == 0) then some below else some above

/-- Try the grids from `10 ^ power` downwards. -/
def search (n : Neighbourhood) : Nat → Int → Decimal
  | 0, power => ⟨(n.onGrid power).middle / (n.onGrid power).den, power⟩
  | steps + 1, power =>
    match (n.onGrid power).nearest? with
    | some digits => ⟨digits, power⟩
    | none => n.search steps (power - 1)

end Neighbourhood

/-- The shortest decimal number that rounds to the magnitude of a double; seventeen digits always
suffice, and the first grid tried is coarser than the number. -/
def shortest (x : Binary64) : Decimal :=
  if x.isZero then ⟨0, 0⟩
  else
    let bits : Int := (x.significand.log2 : Int) + 1 + x.exponent
    x.neighbourhood.search 22 (Int.fdiv (bits * 30103) 100000 + 2)

end EventClient.Binary64
