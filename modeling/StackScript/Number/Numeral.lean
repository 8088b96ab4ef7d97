import StackScript.Number.Decimal
import StackScript.OutOfRange
set_option autoImplicit false

/-!
# Numerals in texts

The numeral at the start of a text is an optional minus sign, digits, an
optional point with more digits, and an optional exponent, each as long as
possible.  An exponent mark counts only with a digit after it and its sign.
`Numeral.read` splits a text into its numeral and what follows, and
`Numeral.lexeme` gives the bytes of a numeral back.
-/

namespace StackScript

/-- The exponent of a numeral. -/
structure Exponent where
  /-- the letter `e` or `E` -/
  mark : UInt8
  /-- the sign `+` or `-`, if written -/
  sign : Option UInt8
  digits : Bytes
  deriving DecidableEq, Repr, Inhabited

/-- A numeral, part by part. -/
structure Numeral where
  neg : Bool
  /-- the digits before the point -/
  whole : Bytes
  /-- the digits after the point, if there is a point -/
  fraction : Option Bytes
  exponent : Option Exponent
  deriving DecidableEq, Repr, Inhabited

namespace Exponent

/-- The bytes of an exponent. -/
def lexeme (e : Exponent) : Bytes := e.mark :: e.sign.toList ++ e.digits

/-- The value of an exponent.  Once it has passed ten thousand, further digits do
not count: such a numeral lies far outside the range of numbers already. -/
def value (e : Exponent) : Int :=
  let size : Nat :=
    e.digits.foldl (fun n b => if n < 10000 then 10 * n + (b.toNat - 48) else n) 0
  if e.sign = some 45 then -(size : Int) else size

/-- An optional sign at the start of a text. -/
def readSign : Bytes → Option UInt8 × Bytes
  | [] => (none, [])
  | b :: rest => if b = 43 ∨ b = 45 then (some b, rest) else (none, b :: rest)

/-- The exponent at the start of a text, and what follows it. -/
def read : Bytes → Option Exponent × Bytes
  | [] => (none, [])
  | mark :: rest =>
    if mark = 101 ∨ mark = 69 then
      let (sign, after) := readSign rest
      let digits := after.takeWhile isDigit
      if digits.isEmpty then (none, mark :: rest)
      else (some ⟨mark, sign, digits⟩, after.dropWhile isDigit)
    else (none, mark :: rest)

end Exponent

namespace Numeral

/-- The bytes of a numeral. -/
def lexeme (n : Numeral) : Bytes :=
  (if n.neg then [45] else []) ++ n.whole ++
    (match n.fraction with
      | some ds => 46 :: ds
      | none => []) ++
    (match n.exponent with
      | some e => e.lexeme
      | none => [])

/-- An optional minus sign at the start of a text. -/
def readMinus : Bytes → Bool × Bytes
  | [] => (false, [])
  | b :: rest => if b = 45 then (true, rest) else (false, b :: rest)

/-- The point and the digits after it at the start of a text, and what
follows. -/
def readFraction : Bytes → Option Bytes × Bytes
  | [] => (none, [])
  | b :: rest =>
    if b = 46 then (some (rest.takeWhile isDigit), rest.dropWhile isDigit)
    else (none, b :: rest)

/-- The numeral at the start of a text, and what follows it.  All its parts may
be empty. -/
def read (text : Bytes) : Numeral × Bytes :=
  let (neg, text) := readMinus text
  let whole := text.takeWhile isDigit
  let (fraction, text) := readFraction (text.dropWhile isDigit)
  let (exponent, text) := Exponent.read text
  (⟨neg, whole, fraction, exponent⟩, text)

/-- Whether a numeral has any digit in front of its exponent; without one it
stands for no number. -/
def hasDigits (n : Numeral) : Bool :=
  !n.whole.isEmpty || !(n.fraction.getD []).isEmpty

/-- The decimal that a numeral stands for, without its sign. -/
def decimal (n : Numeral) : Decimal :=
  let fraction := n.fraction.getD []
  let exponent := n.exponent.elim 0 Exponent.value
  ⟨Bytes.toNat (n.whole ++ fraction), exponent - fraction.length⟩

/-- The number nearest to a numeral, an infinity if it is too large; zero if the
numeral stands for no number. -/
def value (n : Numeral) : Double :=
  if n.hasDigits then Double.ofDecimal n.neg n.decimal else Double.zero

end Numeral

/-- Whether a text starts like a number: with a digit, or a minus sign and a
digit. -/
def startsNumber : Bytes → Bool
  | [] => false
  | b :: rest =>
    if b = 45 then
      match rest with
      | [] => false
      | c :: _ => isDigit c
    else isDigit b

/-- Whether a text starts like a number, asked of a text that must not be empty. -/
def startOf : Bytes → Except OutOfRange Bool
  | [] => .error ⟨0, 0⟩
  | text => .ok (startsNumber text)

namespace Double

/-- The number at the start of a text, whatever follows it. -/
def ofLeading (text : Bytes) : Double := (Numeral.read text).1.value

/-- The number that a whole text stands for, if it is a numeral within the range
of numbers. -/
def ofBytes? (text : Bytes) : Option Double :=
  match Numeral.read text with
  | (n, []) => if n.hasDigits && n.value.isFinite then some n.value else none
  | _ => none

end Double

end StackScript
