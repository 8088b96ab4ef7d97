import StackScript.Bytes
set_option autoImplicit false

/-!
# Reading bytes as UTF-8

A byte string decodes to a sequence of scalars: characters, and stray bytes
that belong to no character.  Decoding never fails and consumes every byte, so
`Scalar.raw` of the parts, in order, is the text itself.  Only the shortest
encoding of a character counts, and surrogates have none.
-/

namespace StackScript.Text

/-- The UTF-8 encoding of a character. -/
def encode (c : Char) : Bytes :=
  let n := c.toNat
  if n < 0x80 then [n.toUInt8]
  else if n < 0x800 then [(0xC0 + n / 0x40).toUInt8, (0x80 + n % 0x40).toUInt8]
  else if n < 0x10000 then
    [(0xE0 + n / 0x1000).toUInt8, (0x80 + n / 0x40 % 0x40).toUInt8, (0x80 + n % 0x40).toUInt8]
  else
    [(0xF0 + n / 0x40000).toUInt8, (0x80 + n / 0x1000 % 0x40).toUInt8,
      (0x80 + n / 0x40 % 0x40).toUInt8, (0x80 + n % 0x40).toUInt8]

/-- The replacement character, which stands for a stray byte where a character
is needed. -/
def replacement : Char := Char.ofNat 0xFFFD

/-- One unit of a decoded text. -/
inductive Scalar where
  /-- a well-formed character -/
  | char (c : Char)
  /-- a byte that is part of no well-formed character -/
  | stray (b : UInt8)
  deriving DecidableEq, Repr, Inhabited

/-- A byte that continues a character. -/
def isContinuation (b : UInt8) : Bool := 0x80 ≤ b && b ≤ 0xBF

/-- The payload of a continuation byte. -/
def payload (b : UInt8) : Nat := b.toNat - 0x80

/-- The character that `first` starts, given the bytes after it, and how many of
those it takes.  The second byte is bounded more tightly after `E0`, `ED`, `F0`
and `F4`: this excludes longer-than-needed forms, surrogates and code points
above U+10FFFF. -/
def charAt? (first : UInt8) (rest : Bytes) : Option (Char × Nat) :=
  if first < 0x80 then some (Char.ofNat first.toNat, 0)
  else if 0xC2 ≤ first && first ≤ 0xDF then
    match rest with
    | b :: _ =>
      if isContinuation b then
        some (Char.ofNat ((first.toNat - 0xC0) * 0x40 + payload b), 1)
      else none
    | [] => none
  else if 0xE0 ≤ first && first ≤ 0xEF then
    let lo : UInt8 := if first = 0xE0 then 0xA0 else 0x80
    let hi : UInt8 := if first = 0xED then 0x9F else 0xBF
    match rest with
    | b :: c :: _ =>
      if lo ≤ b && b ≤ hi && isContinuation c then
        some (Char.ofNat ((first.toNat - 0xE0) * 0x1000 + payload b * 0x40 + payload c), 2)
      else none
    | _ => none
  else if 0xF0 ≤ first && first ≤ 0xF4 then
    let lo : UInt8 := if first = 0xF0 then 0x90 else 0x80
    let hi : UInt8 := if first = 0xF4 then 0x8F else 0xBF
    match rest with
    | b :: c :: d :: _ =>
      if lo ≤ b && b ≤ hi && isContinuation c && isContinuation d then
        some (Char.ofNat ((first.toNat - 0xF0) * 0x40000 + payload b * 0x1000 +
          payload c * 0x40 + payload d), 3)
      else none
    | _ => none
  else none

/-- The scalars of a text, in order. -/
def decode : Bytes → List Scalar
  | [] => []
  | b :: rest =>
    match charAt? b rest with
    | some (c, taken) => .char c :: decode (rest.drop taken)
    | none => .stray b :: decode rest
termination_by text => text.length
decreasing_by
  all_goals
    simp only [List.length_cons, List.length_drop]
    omega

namespace Scalar

/-- The bytes a scalar was read from. -/
def raw : Scalar → Bytes
  | .char c => encode c
  | .stray b => [b]

/-- The character that stands for a scalar: itself, or the replacement
character. -/
def toChar : Scalar → Char
  | .char c => c
  | .stray _ => replacement

end Scalar

/-- The bytes of a sequence of scalars. -/
def ofScalars (scalars : List Scalar) : Bytes := scalars.flatMap Scalar.raw

/-- Whether the whole text is well-formed UTF-8. -/
def isValid (text : Bytes) : Bool :=
  (decode text).all fun
    | .char _ => true
    | .stray _ => false

end StackScript.Text
