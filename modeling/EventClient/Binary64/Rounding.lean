/-!
Finite binary floating point numbers of 64 bits, rounding of a quotient to the nearest of them, and
the quick scaling by powers of ten with which a number in a text is read. Every step is exact
arithmetic on natural numbers followed by one rounding.
-/
namespace EventClient

/-- A finite double: its sign and the 63 bits of its magnitude, which order magnitudes. -/
structure Binary64 where
  negative : Bool
  code : Nat
  code_lt : code < 9218868437227405312 := by decide
deriving DecidableEq, Repr

namespace Binary64

def zero : Binary64 := ⟨false, 0, by decide⟩

instance : Inhabited Binary64 := ⟨zero⟩

def isZero (x : Binary64) : Bool := x.code == 0

def negate (x : Binary64) : Binary64 := { x with negative := !x.negative }

/-- The weight of the leading bit of a significand, which the code leaves out. -/
def leadingBit : Nat := 4503599627370496

/-- The magnitude is `significand * 2 ^ exponent`. -/
def significand (x : Binary64) : Nat :=
  if x.code < leadingBit then x.code else x.code % leadingBit + leadingBit

def exponent (x : Binary64) : Int :=
  if x.code < leadingBit then -1074 else (x.code / leadingBit : Nat) - 1075

/-- The nearest natural number to a quotient, a half going to the even neighbour. -/
def roundHalfEven (num den : Nat) : Nat :=
  let quotient := num / den
  let rest := num % den
  if 2 * rest > den || (2 * rest == den && quotient % 2 == 1) then quotient + 1 else quotient

/-- Whether `num / den` is at least `2 ^ power`. -/
def reaches (num den : Nat) (power : Int) : Bool :=
  if power < 0 then decide (den ≤ num * Nat.pow 2 (-power).toNat)
  else decide (den * Nat.pow 2 power.toNat ≤ num)

/-- The exponent of the last place that a double keeps of the quotient. -/
def lastPlace (num den : Nat) : Int :=
  let power : Int := (num.log2 : Int) - den.log2
  max (-1074) (if reaches num den power then power - 52 else power - 53)

/-- The double nearest to a quotient, if the quotient is not beyond them all. -/
def ofRatio? (num den : Nat) : Option Binary64 :=
  if num == 0 then some zero
  else
    let place := lastPlace num den
    let kept :=
      if place < 0 then roundHalfEven (num * Nat.pow 2 (-place).toNat) den
      else roundHalfEven num (den * Nat.pow 2 place.toNat)
    let code := (place + 1074).toNat * leadingBit + kept
    if h : code < 9218868437227405312 then some ⟨false, code, h⟩ else none

def ratio (x : Binary64) : Nat × Nat :=
  if x.exponent < 0 then (x.significand, Nat.pow 2 (-x.exponent).toNat)
  else (x.significand * Nat.pow 2 x.exponent.toNat, 1)

def times? (x y : Binary64) : Option Binary64 :=
  ofRatio? (x.ratio.1 * y.ratio.1) (x.ratio.2 * y.ratio.2)

def over? (x y : Binary64) : Option Binary64 :=
  ofRatio? (x.ratio.1 * y.ratio.2) (x.ratio.2 * y.ratio.1)

/-- The highest power of ten that is a finite double. -/
def topPower : Nat := 308

/-- Scale by a power of ten with one rounding for each step: powers up to the highest are applied
at once, and lower ones in steps of the highest. `none` where the result is beyond the doubles. -/
def scaleByTen? (x : Binary64) (power : Int) : Option Binary64 :=
  if power.natAbs ≤ topPower then do
    let factor ← ofRatio? (Nat.pow 10 power.natAbs) 1
    if power < 0 then x.over? factor else x.times? factor
  else if x.isZero then some x
  else if _beyond : power < -topPower then do
    let factor ← ofRatio? (Nat.pow 10 topPower) 1
    (← x.over? factor).scaleByTen? (power + topPower)
  else none
termination_by (-power).toNat
decreasing_by simp only [topPower] at _beyond ⊢; omega

/-- The double that the quick reading of `digits * 10 ^ power` gives: the digits are rounded first
and scaled after, so the result is not always the nearest double. -/
def ofDecimal? (digits : Nat) (power : Int) : Option Binary64 := do
  (← ofRatio? digits 1).scaleByTen? power

end Binary64

end EventClient
