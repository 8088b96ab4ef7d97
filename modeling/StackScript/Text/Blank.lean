import StackScript.Text.Scalar
set_option autoImplicit false

/-!
# White space

White space is the Unicode property of that name: 25 characters, of which six
are ASCII.
-/

namespace StackScript.Text

/-- The characters with the property White_Space. -/
def isBlank (c : Char) : Bool :=
  let n := c.toNat
  (0x09 ≤ n && n ≤ 0x0D) || n == 0x20 || n == 0x85 || n == 0xA0 || n == 0x1680 ||
    (0x2000 ≤ n && n ≤ 0x200A) || n == 0x2028 || n == 0x2029 || n == 0x202F || n == 0x205F ||
    n == 0x3000

/-- Whether a scalar is white space; a stray byte is not. -/
def Scalar.isBlank : Scalar → Bool
  | .char c => Text.isBlank c
  | .stray _ => false

/-- Whether a text holds nothing but white space. -/
def isAllBlank (text : Bytes) : Bool := (decode text).all Scalar.isBlank

/-- The maximal runs of scalars that are not white space; `run` is the part of
the current one read so far, latest first. -/
def fieldsFrom (run : List Scalar) : List Scalar → List (List Scalar)
  | [] => if run.isEmpty then [] else [run.reverse]
  | s :: rest =>
    if s.isBlank then
      if run.isEmpty then fieldsFrom [] rest else run.reverse :: fieldsFrom [] rest
    else fieldsFrom (s :: run) rest

/-- The words of a text: its parts between white space. -/
def fields (text : Bytes) : List Bytes :=
  (fieldsFrom [] (decode text)).map ofScalars

end StackScript.Text
