set_option autoImplicit false

/-!
# Byte strings

Every text of the language is a sequence of bytes, valid UTF-8 or not: source
files, texts on the stack, names, file paths and everything printed.  This
module fixes that type and the few operations on it that the other modules
share: ASCII literals, decimal numerals, joining, and cutting at a byte.
-/

namespace StackScript

/-- Powers with natural exponents are repeated multiplication, whatever other powers
are in scope. -/
@[default_instance 20000]
instance (priority := 2000) instPowNatural {α : Type} [NatPow α] : Pow α Nat := instPowNat

/-- A text of the language: any sequence of bytes. -/
abbrev Bytes : Type := List UInt8

/-- The bytes of an ASCII literal.  Every use in this library is a literal whose
characters lie below 128, where one character is one byte. -/
def ascii (s : String) : Bytes := s.toList.map fun c => c.toNat.toUInt8

/-! ## Byte classes -/

/-- Whether a byte is `0` to `9`. -/
def isDigit (b : UInt8) : Bool := 48 ≤ b && b ≤ 57

/-- Whether a byte is `a` to `z` or `A` to `Z`. -/
def isLetter (b : UInt8) : Bool := (97 ≤ b && b ≤ 122) || (65 ≤ b && b ≤ 90)

/-- What a symbol may start with: a letter or an underscore. -/
def startsSymbol (b : UInt8) : Bool := isLetter b || b == 95

/-- What a symbol goes on with: a letter, a digit or an underscore. -/
def continuesSymbol (b : UInt8) : Bool := isLetter b || isDigit b || b == 95

/-- The newline byte. -/
def newline : UInt8 := 10

/-- The backtick, which delimits texts in source form. -/
def backtick : UInt8 := 96

namespace Bytes

/-! ## Decimal numerals -/

/-- The digit byte of a number below ten. -/
def digit (n : Nat) : UInt8 := (48 + n).toUInt8

/-- The decimal digits of a natural number in front of other bytes. -/
def digitsOnto (n : Nat) (rest : Bytes) : Bytes :=
  if n < 10 then digit n :: rest else digitsOnto (n / 10) (digit (n % 10) :: rest)
termination_by n
decreasing_by omega

/-- The decimal numeral of a natural number, without leading zeros. -/
def ofNat (n : Nat) : Bytes := digitsOnto n []

/-- The decimal numeral of an integer, with a minus sign in front of the
negative ones. -/
def ofInt : Int → Bytes
  | .ofNat n => ofNat n
  | .negSucc n => 45 :: ofNat (n + 1)

/-- The number that a run of decimal digits stands for. -/
def toNat (digits : Bytes) : Nat :=
  digits.foldl (fun n b => 10 * n + (b.toNat - 48)) 0

/-! ## Joining and cutting -/

/-- The parts in order, with `sep` between each two. -/
def join (sep : Bytes) : List Bytes → Bytes
  | [] => []
  | [a] => a
  | a :: b :: rest => a ++ sep ++ join sep (b :: rest)

/-- The parts between the occurrences of the byte `sep`: one more than there are
occurrences, so the empty text has one empty part. -/
def splitOn (sep : UInt8) : Bytes → List Bytes
  | [] => [[]]
  | b :: rest =>
    if b = sep then [] :: splitOn sep rest
    else
      match splitOn sep rest with
      | [] => [[b]]
      | part :: parts => (b :: part) :: parts

/-- What is left of `text` after `start`, if it starts so. -/
def dropStart? : (start text : Bytes) → Option Bytes
  | [], text => some text
  | _ :: _, [] => none
  | a :: start, b :: text => if a = b then dropStart? start text else none

/-- A run of bytes of a class ends where a byte outside the class follows. -/
theorem span_run {p : UInt8 → Bool} {s rest : Bytes} (hs : ∀ b ∈ s, p b = true)
    (hrest : ∀ b, rest.head? = some b → p b = false) :
    (s ++ rest).takeWhile p = s ∧ (s ++ rest).dropWhile p = rest := by
  rw [List.takeWhile_append_of_pos hs, List.dropWhile_append_of_pos hs]
  cases rest with
  | nil => simp
  | cons b rest => simp [hrest b rfl]

/-- The text padded with spaces on the left to at least `width` bytes. -/
def padLeft (width : Nat) (text : Bytes) : Bytes :=
  List.replicate (width - text.length) 32 ++ text

end Bytes

end StackScript
