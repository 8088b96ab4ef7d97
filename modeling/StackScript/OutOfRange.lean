import StackScript.Bytes
set_option autoImplicit false

/-!
# Positions out of range

A few operations ask for an element of a sequence that may be too short.  Where
that is the caller's mistake, and not a condition of the language, the answer is
this error.
-/

namespace StackScript

/-- An element was asked for that a sequence does not have. -/
structure OutOfRange where
  index : Int
  size : Nat
  deriving DecidableEq, Repr, Inhabited

/-- The error in words.  A negative index is wrong whatever the size. -/
def OutOfRange.message (e : OutOfRange) : Bytes :=
  ascii "runtime error: index out of range [" ++ Bytes.ofInt e.index ++ ascii "]" ++
    if e.index < 0 then [] else ascii " with length " ++ Bytes.ofNat e.size

end StackScript
