import StackScript.Number.Decimal
set_option autoImplicit false

/-!
# How numbers are written

The digits of a number are the fewest that read back.  Three notations lay them
out: `Double.plain`, the form of printed and rendered values, is positional at
every size and writes both zeros as `0`; `Double.signed` differs only in writing
negative zero as `-0`; `Double.compact`, the form of log lines and token trees,
goes over to an exponent outside a middle range of sizes.
-/

namespace StackScript

/-- A run of zeros. -/
def zeros (n : Nat) : Bytes := List.replicate n 48

namespace Decimal

/-- Positional notation: zeros fill up to the decimal point on either side. -/
def positional (d : Decimal) : Bytes :=
  let ds := Bytes.ofNat d.digits
  if 0 ≤ d.exponent then ds ++ zeros d.exponent.toNat
  else
    let places := (-d.exponent).toNat
    if places < ds.length then
      ds.take (ds.length - places) ++ 46 :: ds.drop (ds.length - places)
    else ascii "0." ++ zeros (places - ds.length) ++ ds

/-- The exponent of the leading digit. -/
def magnitude (d : Decimal) : Int :=
  (Bytes.ofNat d.digits).length - 1 + d.exponent

/-- Scientific notation: one digit, the others after the point, and a signed
exponent of at least two digits. -/
def scientific (d : Decimal) : Bytes :=
  let exponent := Bytes.ofNat d.magnitude.natAbs
  let mantissa :=
    match Bytes.ofNat d.digits with
    | lead :: rest@(_ :: _) => lead :: 46 :: rest
    | short => short
  mantissa ++ [101, if d.magnitude < 0 then 45 else 43] ++
    zeros (2 - exponent.length) ++ exponent

end Decimal

namespace Double

/-- The minus sign of a negative number. -/
def sign (neg : Bool) : Bytes := if neg then [45] else []

/-- The names of what is no finite number. -/
def special : Double → Bytes
  | .nan => ascii "NaN"
  | .infinite neg => if neg then ascii "-Inf" else ascii "+Inf"
  | .finite _ _ => []

/-- Positional notation; both zeros are written `0`. -/
def plain : Double → Bytes
  | .finite neg mag =>
    if mag.mant = 0 then ascii "0" else sign neg ++ mag.shortest.positional
  | x => x.special

/-- Positional notation that keeps the sign of zero. -/
def signed : Double → Bytes
  | .finite neg mag =>
    if mag.mant = 0 then sign neg ++ ascii "0" else sign neg ++ mag.shortest.positional
  | x => x.special

/-- Positional for exponents of the leading digit from -4 to 5, scientific
otherwise. -/
def compact : Double → Bytes
  | .finite neg mag =>
    if mag.mant = 0 then sign neg ++ ascii "0"
    else
      let d := mag.shortest
      sign neg ++ if -4 ≤ d.magnitude ∧ d.magnitude < 6 then d.positional else d.scientific
  | x => x.special

end Double

end StackScript
