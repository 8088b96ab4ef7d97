import StackScript.Text.Scalar
import StackScript.Text.Printable
set_option autoImplicit false

/-!
# Quoted texts

Log lines show a text between double quotes, with everything that would not be
visible written as an escape, so that a log line stays one line and every byte
of the text can be told.
-/

namespace StackScript.Text

/-- The lower case hexadecimal digit of a number below sixteen. -/
def hexDigit (n : Nat) : UInt8 :=
  if n < 10 then (48 + n).toUInt8 else (87 + n).toUInt8

/-- The last `width` hexadecimal digits of `n`. -/
def hex : (width n : Nat) → Bytes
  | 0, _ => []
  | width + 1, n => hex width (n / 16) ++ [hexDigit (n % 16)]

/-- The letter of a character that has a short escape of its own. -/
def shortEscape? (c : Char) : Option UInt8 :=
  match c.toNat with
  | 7 => some 97
  | 8 => some 98
  | 12 => some 102
  | 10 => some 110
  | 13 => some 114
  | 9 => some 116
  | 11 => some 118
  | 34 => some 34
  | 92 => some 92
  | _ => none

/-- A character inside quotes. -/
def quoteChar (c : Char) : Bytes :=
  match shortEscape? c with
  | some letter => [92, letter]
  | none =>
    if isPrintable c then encode c
    else if c.toNat < 0x80 then ascii "\\x" ++ hex 2 c.toNat
    else if c.toNat < 0x10000 then ascii "\\u" ++ hex 4 c.toNat
    else ascii "\\U" ++ hex 8 c.toNat

/-- A scalar inside quotes: a stray byte is always escaped. -/
def quoteScalar : Scalar → Bytes
  | .char c => quoteChar c
  | .stray b => ascii "\\x" ++ hex 2 b.toNat

/-- The text between double quotes. -/
def quoted (text : Bytes) : Bytes :=
  34 :: (decode text).flatMap quoteScalar ++ [34]

end StackScript.Text
