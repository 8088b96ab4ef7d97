import StackScript.Bytes
set_option autoImplicit false

/-!
# Numbers

The numbers of the language are the IEEE 754 binary64 values, held as what they
mean: a sign and a magnitude, an infinity, or not a number.  All magnitudes are
whole multiples of the least positive one, `2 ^ (-1074)`, so a magnitude is a
natural number of these units, `mant * 2 ^ shift`, in the one canonical form
that its 53 bits of precision allow.

Arithmetic is exact arithmetic on units followed by one rounding to nearest,
ties to even.  `Magnitude.round` is the only place where precision is lost.
-/

namespace StackScript

/-- The quotient `n / d` rounded to the nearest natural number, a half to the
even one. -/
def halfEven (n d : Nat) : Nat :=
  if 2 * (n % d) < d then n / d
  else if d < 2 * (n % d) then n / d + 1
  else if n / d % 2 = 0 then n / d else n / d + 1

theorem div_le_halfEven (n d : Nat) : n / d ≤ halfEven n d := by
  unfold halfEven
  split
  · exact Nat.le_refl _
  · split
    · exact Nat.le_succ _
    · split
      · exact Nat.le_refl _
      · exact Nat.le_succ _

/-- The magnitude of a finite number, `mant * 2 ^ shift` units of
`2 ^ (-1074)`. -/
structure Magnitude where
  mant : Nat
  shift : Nat
  /-- there are 53 bits of precision -/
  mant_lt : mant < 2 ^ 53
  /-- the range of exponents -/
  shift_le : shift ≤ 2045
  /-- all 53 bits are used, except by the smallest magnitudes -/
  normal : shift = 0 ∨ 2 ^ 52 ≤ mant
  deriving DecidableEq, Repr

namespace Magnitude

instance : Inhabited Magnitude := ⟨0, 0, by decide, by decide, .inl rfl⟩

/-- Zero. -/
def zero : Magnitude := ⟨0, 0, by decide, by decide, .inl rfl⟩

/-- How many units of `2 ^ (-1074)` a magnitude is. -/
def units (x : Magnitude) : Nat := x.mant * 2 ^ x.shift

/-- The shift that leaves 53 bits of a ratio whose whole part is `whole`. -/
def shiftFor (whole : Nat) : Nat := whole.log2 - 52

theorem le_halfEven_of_shiftFor {n d : Nat} (h : shiftFor (n / d) ≠ 0) :
    2 ^ 52 ≤ halfEven n (d * 2 ^ shiftFor (n / d)) := by
  have hlog : (n / d).log2 = 52 + shiftFor (n / d) := by
    unfold shiftFor at h ⊢
    omega
  have hne : n / d ≠ 0 := by
    intro h0
    rw [h0, Nat.log2_zero] at hlog
    omega
  refine Nat.le_trans ?_ (div_le_halfEven _ _)
  rw [← Nat.div_div_eq_div_mul, Nat.le_div_iff_mul_le (Nat.two_pow_pos _), ← Nat.pow_add, ← hlog]
  exact Nat.log2_self_le hne

/-- The magnitude nearest to `n / d` units, ties to even, or none if that lies
beyond the largest one. -/
def round (n d : Nat) : Option Magnitude :=
  let s := shiftFor (n / d)
  let m := halfEven n (d * 2 ^ s)
  if hm : m < 2 ^ 53 then
    if hs : s ≤ 2045 then
      some ⟨m, s, hm, hs, Decidable.or_iff_not_imp_left.2 le_halfEven_of_shiftFor⟩
    else none
  else if hs : s + 1 ≤ 2045 then
    some ⟨2 ^ 52, s + 1, by decide, hs, .inr (Nat.le_refl _)⟩
  else none

end Magnitude

/-- A number of the language. -/
inductive Double where
  | nan
  | infinite (neg : Bool)
  | finite (neg : Bool) (mag : Magnitude)
  deriving DecidableEq, Repr, Inhabited

namespace Double

/-- The number for what rounding gave: an infinity where there is no magnitude. -/
def ofRounded (neg : Bool) : Option Magnitude → Double
  | some mag => .finite neg mag
  | none => .infinite neg

/-- The number nearest to plus or minus `n / d` units of `2 ^ (-1074)`. -/
def ofRatio (neg : Bool) (n d : Nat) : Double := ofRounded neg (Magnitude.round n d)

/-- One, in units. -/
def unit : Nat := 2 ^ 1074

/-- Positive zero. -/
def zero : Double := .finite false .zero

/-- The number nearest to a natural number. -/
def ofNat (n : Nat) : Double := ofRatio false (n * unit) 1

/-- The number nearest to an integer. -/
def ofInt (n : Int) : Double := ofRatio (n < 0) (n.natAbs * unit) 1

/-- One. -/
def one : Double := ofNat 1

/-- The number for a truth value: one or zero. -/
def ofBool (b : Bool) : Double := if b then one else zero

/-! ## Comparison

Comparison is of the exact values: both zeros are equal, and nothing compares
with a number that is not one. -/

/-- The value of a finite number, in units. -/
def signedUnits (neg : Bool) (mag : Magnitude) : Int :=
  if neg then -(mag.units : Int) else mag.units

/-- How two numbers compare, or none if either is not a number. -/
def compare? : Double → Double → Option Ordering
  | .nan, _ => none
  | _, .nan => none
  | .infinite a, .infinite b =>
    some (if a = b then .eq else if a then .lt else .gt)
  | .infinite a, .finite _ _ => some (if a then .lt else .gt)
  | .finite _ _, .infinite b => some (if b then .gt else .lt)
  | .finite a x, .finite b y => some (compare (signedUnits a x) (signedUnits b y))

/-- Equality of values. -/
def eq (x y : Double) : Bool := compare? x y == some .eq

/-- Less than. -/
def lt (x y : Double) : Bool := compare? x y == some .lt

/-- Less than or equal. -/
def le (x y : Double) : Bool := lt x y || eq x y

/-- Whether a number is a zero of either sign. -/
def isZero (x : Double) : Bool := eq x zero

/-- Whether a number is neither infinite nor not a number. -/
def isFinite : Double → Bool
  | .finite _ _ => true
  | _ => false

/-! ## Arithmetic -/

/-- The number with the other sign. -/
def negate : Double → Double
  | .nan => .nan
  | .infinite neg => .infinite (!neg)
  | .finite neg mag => .finite (!neg) mag

/-- The sum.  An exact zero is positive unless both terms are negative. -/
def add : Double → Double → Double
  | .nan, _ => .nan
  | _, .nan => .nan
  | .infinite a, .infinite b => if a = b then .infinite a else .nan
  | .infinite a, .finite _ _ => .infinite a
  | .finite _ _, .infinite b => .infinite b
  | .finite a x, .finite b y =>
    let sum := signedUnits a x + signedUnits b y
    ofRatio (if sum = 0 then a && b else sum < 0) sum.natAbs 1

/-- The difference. -/
def sub (x y : Double) : Double := add x (negate y)

/-- The product.  Zero times an infinity is not a number. -/
def mul : Double → Double → Double
  | .nan, _ => .nan
  | _, .nan => .nan
  | .infinite a, .infinite b => .infinite (a != b)
  | .infinite a, .finite b y => if y.units = 0 then .nan else .infinite (a != b)
  | .finite a x, .infinite b => if x.units = 0 then .nan else .infinite (a != b)
  | .finite a x, .finite b y => ofRatio (a != b) (x.units * y.units) unit

/-- The quotient.  Dividing by zero gives an infinity, and zero by zero is not a
number. -/
def div : Double → Double → Double
  | .nan, _ => .nan
  | _, .nan => .nan
  | .infinite _, .infinite _ => .nan
  | .infinite a, .finite b _ => .infinite (a != b)
  | .finite a _, .infinite b => .finite (a != b) .zero
  | .finite a x, .finite b y =>
    if y.units = 0 then
      if x.units = 0 then .nan else .infinite (a != b)
    else ofRatio (a != b) (x.units * unit) y.units

/-- The remainder of truncated division, which is exact and takes the sign of
the dividend. -/
def mod : Double → Double → Double
  | .nan, _ => .nan
  | _, .nan => .nan
  | .infinite _, _ => .nan
  | .finite a x, .infinite _ => .finite a x
  | .finite a x, .finite _ y =>
    if y.units = 0 then .nan else ofRatio a (x.units % y.units) 1

/-- The largest whole number that is not greater.  A zero keeps its sign. -/
def floor : Double → Double
  | .nan => .nan
  | .infinite neg => .infinite neg
  | .finite neg mag =>
    let whole := mag.units / unit
    if neg && mag.units % unit != 0 then ofRatio true ((whole + 1) * unit) 1
    else ofRatio neg (whole * unit) 1

/-! ## Whole parts -/

/-- The whole part of a magnitude. -/
def Magnitude.whole (mag : Magnitude) : Nat := mag.units / unit

/-- The least natural number that is not below a magnitude. -/
def Magnitude.ceil (mag : Magnitude) : Nat := (mag.units + (unit - 1)) / unit

/-- The value toward zero as a 64-bit integer.  What lies outside that range
gives its least member. -/
def toInt64 : Double → Int
  | .finite neg mag =>
    let whole := Magnitude.whole mag
    let value : Int := if neg then -(whole : Int) else whole
    if -(2 ^ 63) ≤ value ∧ value < 2 ^ 63 then value else -(2 ^ 63)
  | _ => -(2 ^ 63)

/-- The natural number that a number is exactly, if it is one. -/
def toNat? : Double → Option Nat
  | .finite neg mag =>
    if mag.units % unit = 0 ∧ (neg = false ∨ mag.units = 0) then some (Magnitude.whole mag)
    else none
  | _ => none

/-- How many of `max` things a number asks for: none if it is not positive, all
if it reaches the number nearest to `max`, and otherwise its whole part. -/
def countWithin (max : Int) (n : Double) : Int :=
  if !lt zero n then 0
  else if le (ofInt max) n then max
  else n.toInt64

/-- How many things a number asks for when a fraction asks for one more, or none
if it asks for more than `max`. -/
def ceilCount? (max : Nat) : Double → Option Nat
  | .finite false mag => if Magnitude.ceil mag ≤ max then some (Magnitude.ceil mag) else none
  | .infinite false => none
  | _ => some 0

end Double

end StackScript
