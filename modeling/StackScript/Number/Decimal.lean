import StackScript.Number.Double
set_option autoImplicit false

/-!
# Decimals and the digits that identify a number

A decimal is a whole number of units in some decimal place.  `Double.ofDecimal`
reads one, rounding once.  In the other direction `Magnitude.shortest` looks for
the fewest digits that read back as the magnitude: on the grid of one digit, of
two, and so on, it tries the two grid points next to the magnitude, and takes
the first grid on which one of them reads back.  Because every candidate is
tried against the reader itself, what is chosen reads back by construction.
-/

namespace StackScript

/-- The number `digits * 10 ^ exponent`. -/
structure Decimal where
  digits : Nat
  exponent : Int
  deriving DecidableEq, Repr, Inhabited

namespace Decimal

/-- The magnitude nearest to a decimal, ties to even, or none if that lies beyond
the largest one. -/
def round (d : Decimal) : Option Magnitude :=
  Magnitude.round (d.digits * 10 ^ d.exponent.toNat * Double.unit) (10 ^ (-d.exponent).toNat)

/-- The same decimal without trailing zeros in its digits. -/
def trim (d : Decimal) : Decimal :=
  if h : d.digits ≠ 0 ∧ d.digits % 10 = 0 then
    trim ⟨d.digits / 10, d.exponent + 1⟩
  else d
termination_by d.digits
decreasing_by exact Nat.div_lt_self (Nat.pos_of_ne_zero h.1) (by decide)

end Decimal

/-- The number nearest to plus or minus a decimal. -/
def Double.ofDecimal (neg : Bool) (d : Decimal) : Double := ofRounded neg d.round

namespace Magnitude

/-- Whether a magnitude is below `10 ^ exponent`. -/
def isBelow (mag : Magnitude) (exponent : Int) : Bool :=
  mag.units * 10 ^ (-exponent).toNat < Double.unit * 10 ^ exponent.toNat

/-- The least power of ten above a positive magnitude.  The binary logarithm
gives it up to one or two steps, which are settled by comparing. -/
def decimalPoint (mag : Magnitude) : Int :=
  let estimate := ((mag.units.log2 : Int) - 1074) * 30103 / 100000
  if mag.isBelow estimate then estimate
  else if mag.isBelow (estimate + 1) then estimate + 1
  else estimate + 2

/-- The decimal with `count` digits below `10 ^ point` that reads back as the
magnitude, if there is one.  Of two the nearer is taken, and of two equally near
the even one.  A grid both of whose points next to the magnitude are farther from
it than the next magnitude is passed by. -/
def withDigits? (mag : Magnitude) (point : Int) (count : Nat) : Option Decimal :=
  let exponent := point - count
  let scale := 10 ^ (-exponent).toNat
  let cell := Double.unit * 10 ^ exponent.toNat
  let below := mag.units * scale / cell
  let excess := mag.units * scale % cell
  let reach := 2 ^ mag.shift * scale
  if reach < excess ∧ reach < cell - excess then none
  else
    let lower := Decimal.trim ⟨below, exponent⟩
    let upper := Decimal.trim ⟨below + 1, exponent⟩
    let preferLower := 2 * excess < cell ∨ (2 * excess = cell ∧ below % 2 = 0)
    let (first, second) := if preferLower then (lower, upper) else (upper, lower)
    if first.round = some mag then some first
    else if second.round = some mag then some second
    else none

/-- The magnitude written out in full. -/
def exact (mag : Magnitude) : Decimal := ⟨mag.units * 5 ^ 1074, -1074⟩

/-- The decimal of fewest digits that reads back as the magnitude.  Seventeen
digits suffice for every magnitude; the full expansion stands behind them so
that the result reads back in any case. -/
def shortest (mag : Magnitude) : Decimal :=
  let point := mag.decimalPoint
  ((List.range 17).findSome? fun i => mag.withDigits? point (i + 1)).getD mag.exact

end Magnitude

end StackScript
