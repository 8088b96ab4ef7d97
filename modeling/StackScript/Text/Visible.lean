import StackScript.Text.Scalar
set_option autoImplicit false

/-!
# Control characters made visible

A dump shows one datum a line whatever bytes it holds: each control character
is replaced by its caret form.  C0 controls and DEL become `^@`, `^J`, `^?`,
and C1 controls become their two-character escape, such as `^[[`.
-/

namespace StackScript.Text

/-- The caret form of a control code, and nothing for any other code.  A code
below zero is no character; it counts as a control and is shown as the
replacement character. -/
def caretText (code : Int) : Bytes :=
  if code < 0 then ascii "^" ++ encode replacement
  else if code < 0x20 then ascii "^" ++ encode (Char.ofNat (code.toNat + 0x40))
  else if code = 0x7F then ascii "^?"
  else if 0x80 ≤ code ∧ code ≤ 0x9F then
    ascii "^[" ++ encode (Char.ofNat (code.toNat - 0x40))
  else []

/-- C0 controls, DEL and C1 controls. -/
def isControl (c : Char) : Bool :=
  let n := c.toNat
  n < 0x20 || n == 0x7F || (0x80 ≤ n && n ≤ 0x9F)

/-- A character with its caret form in place of a control. -/
def visibleChar (c : Char) : Bytes :=
  if isControl c then caretText c.toNat else encode c

/-- Whether a scalar is shown by a caret form. -/
def Scalar.isControl : Scalar → Bool
  | .char c => Text.isControl c
  | .stray _ => false

/-- The text with every control character in caret form.  Up to the first control
character the bytes stay as they are; from there on stray bytes, too, are
replaced, by the replacement character. -/
def visible (text : Bytes) : Bytes :=
  let scalars := decode text
  let plain := scalars.takeWhile fun s => !s.isControl
  let rest := scalars.dropWhile fun s => !s.isControl
  ofScalars plain ++ rest.flatMap fun s => visibleChar s.toChar

end StackScript.Text
