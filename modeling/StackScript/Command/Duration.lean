import StackScript.Number.Double
set_option autoImplicit false

/-!
# Durations and integers in arguments

A duration is a sign and one or more amounts with units, such as `1h30m` or
`-1.5s`; only zero needs no unit.  An integer may be written in base two, eight,
ten or sixteen, with underscores between digits.  Both must fit into 64 bits.
-/

namespace StackScript.Command

/-! ## Durations -/

/-- How many nanoseconds a unit is. -/
def unitSize? (unit : Bytes) : Option Nat :=
  if unit = ascii "ns" then some 1
  else if unit = ascii "us" then some (10 ^ 3)
  else if unit = [0xC2, 0xB5, 115] then some (10 ^ 3)
  else if unit = [0xCE, 0xBC, 115] then some (10 ^ 3)
  else if unit = ascii "ms" then some (10 ^ 6)
  else if unit = ascii "s" then some (10 ^ 9)
  else if unit = ascii "m" then some (60 * 10 ^ 9)
  else if unit = ascii "h" then some (3600 * 10 ^ 9)
  else none

/-- The bytes an amount is made of. -/
def isAmountByte (b : UInt8) : Bool := isDigit b || b == 46

/-- The digits after a point as a number, and the power of ten to divide it by.
Digits that would take the number beyond 64 bits are left out. -/
structure Fraction where
  digits : Nat
  scale : Double
  deriving DecidableEq, Repr

/-- Reads the digits after a point, up to the first that does not fit. -/
def Fraction.read (f : Fraction) : Bytes → Fraction
  | [] => f
  | b :: rest =>
    let digits := f.digits * 10 + (b.toNat - 48)
    if (2 ^ 63 - 1) / 10 < f.digits ∨ 2 ^ 63 < digits then f
    else Fraction.read ⟨digits, f.scale.mul (.ofNat 10)⟩ rest

/-- The number of nanoseconds in a fraction of a unit.  It is worked out in
numbers of the language, with a rounding at every step, and cut to a whole one. -/
def Fraction.of (f : Fraction) (unit : Nat) : Nat :=
  ((Double.ofNat f.digits).mul ((Double.ofNat unit).div f.scale)).toInt64.toNat

/-- The number of nanoseconds in an amount `whole.fraction` of a unit, if that
fits. -/
def amount? (whole fraction : Bytes) (unit : Nat) : Option Nat :=
  let total := Bytes.toNat whole * unit + (Fraction.read ⟨0, .one⟩ fraction).of unit
  if Bytes.toNat whole ≤ 2 ^ 63 ∧ total ≤ 2 ^ 63 then some total else none

/-- Adds up the amounts of a text, given how many bytes it has at most.  The sum is
kept in 64 bits, of which it may use the highest only for a sum of `2 ^ 63`. -/
def amounts? : (size : Nat) → (sum : Nat) → Bytes → Option Nat
  | _, sum, [] => some sum
  | 0, _, _ :: _ => none
  | size + 1, sum, text =>
    let whole := text.takeWhile isDigit
    let text := text.dropWhile isDigit
    let pointed := text.head? = some 46
    let fraction := if pointed then text.tail.takeWhile isDigit else []
    let text := if pointed then text.tail.dropWhile isDigit else text
    let unit := text.takeWhile fun b => !isAmountByte b
    if whole.isEmpty && fraction.isEmpty then none
    else
      match unitSize? unit with
      | none => none
      | some unitSize =>
        match amount? whole fraction unitSize with
        | none => none
        | some n =>
          let sum := (sum + n) % 2 ^ 64
          if sum ≤ 2 ^ 63 then amounts? size sum (text.drop unit.length) else none

/-- The sign at the start of a text, and what follows it. -/
def signed (text : Bytes) : Bool × Bytes :=
  match text with
  | 45 :: rest => (true, rest)
  | 43 :: rest => (false, rest)
  | _ => (false, text)

/-- The nanoseconds of a duration, if the text is one. -/
def duration? (text : Bytes) : Option Int :=
  let (neg, rest) := signed text
  if rest = ascii "0" then some 0
  else if rest.isEmpty then none
  else
    match amounts? rest.length 0 rest with
    | none => none
    | some n => if neg then some (-n) else if n < 2 ^ 63 then some n else none

/-! ## Integers -/

/-- The value of a digit in bases up to thirty-six. -/
def digitValue? (b : UInt8) : Option Nat :=
  if isDigit b then some (b.toNat - 48)
  else if 97 ≤ b && b ≤ 122 then some (b.toNat - 87)
  else if 65 ≤ b && b ≤ 90 then some (b.toNat - 55)
  else none

/-- Why a text is no integer argument. -/
inductive IntegerError where
  | malformed
  | outOfRange
  deriving DecidableEq, Repr, Inhabited

/-- The reason in words. -/
def IntegerError.message : IntegerError → Bytes
  | .malformed => ascii "parse error"
  | .outOfRange => ascii "value out of range"

/-- The base that the start of a number asks for, and its digits. -/
def baseOf (text : Bytes) : Nat × Bytes :=
  match text with
  | 48 :: mark :: d :: rest =>
    if mark = 98 ∨ mark = 66 then (2, d :: rest)
    else if mark = 111 ∨ mark = 79 then (8, d :: rest)
    else if mark = 120 ∨ mark = 88 then (16, d :: rest)
    else (8, mark :: d :: rest)
  | 48 :: rest => (8, rest)
  | _ => (10, text)

/-- Reads digits up to the end, leaving out underscores.  A number that does not
fit into 64 bits ends the reading there. -/
def digitsValue (base : Nat) : (value : Nat) → Bytes → Except IntegerError Nat
  | value, [] => .ok value
  | value, b :: rest =>
    if b = 95 then digitsValue base value rest
    else
      match digitValue? b with
      | none => .error .malformed
      | some d =>
        if base ≤ d then .error .malformed
        else if 2 ^ 64 ≤ value * base + d then .error .outOfRange
        else digitsValue base (value * base + d) rest

/-- Whether each underscore stands between digits; `afterDigit` tells whether a
digit came before. -/
def underscoresOk (afterDigit : Bool) : Bytes → Bool
  | [] => true
  | 95 :: rest =>
    match rest with
    | [] => false
    | b :: _ => afterDigit && b != 95 && underscoresOk false rest
  | _ :: rest => underscoresOk true rest

/-- The integer that a text stands for. -/
def integer (text : Bytes) : Except IntegerError Int :=
  let (neg, rest) := signed text
  if rest.isEmpty then .error .malformed
  else
    let (base, digits) := baseOf rest
    match digitsValue base 0 digits with
    | .error e => .error e
    | .ok n =>
      if rest.contains 95 && !underscoresOk (base != 10) digits then .error .malformed
      else if neg then
        if n ≤ 2 ^ 63 then .ok (-n) else .error .outOfRange
      else if n < 2 ^ 63 then .ok n
      else .error .outOfRange

end StackScript.Command
