import StackScript.Number.Numeral
import StackScript.Text.Quoted
import StackScript.Log.Note
set_option autoImplicit false

/-!
# Tokens

A source text is cut into tokens from left to right, each as long as possible.
Spaces, tabs and carriage returns separate tokens, and a `#` where a token could
start opens a comment up to the end of the line.  A text between backticks may
hold anything, newlines included, and ends with the input if no backtick closes
it.  Every other newline is a token.
-/

namespace StackScript

/-- A token of the source. -/
inductive Token where
  | newline
  | opening
  | closing
  /-- what stood between two backticks -/
  | quoted (s : Bytes)
  /-- a digit, or a minus sign and a digit, and then digits and points -/
  | numeral (s : Bytes)
  /-- a letter or underscore, and then letters, digits and underscores -/
  | symbol (s : Bytes)
  /-- a point, and then letters, digits and underscores -/
  | dotted (s : Bytes)
  /-- a run of any other bytes -/
  | operator (s : Bytes)
  deriving DecidableEq, Repr, Inhabited

/-- The separators of tokens. -/
def isSpace (b : UInt8) : Bool := b == 32 || b == 9 || b == 13

/-- The bytes an operator goes on with: all that is not a separator, part of a
symbol, a newline, a backtick or a parenthesis. -/
def continuesOperator (b : UInt8) : Bool :=
  !(isSpace b || continuesSymbol b || b == newline || b == backtick || b == 40 || b == 41)

/-- The bytes a numeral goes on with. -/
def isNumeralByte (b : UInt8) : Bool := isDigit b || b == 46

namespace Token

/-- What a text that starts with `b` and goes on with `rest` begins with: a token
or none, and what is left of `rest`. -/
def first (b : UInt8) (rest : Bytes) : Option Token × Bytes :=
  if isSpace b then (none, rest)
  else if b = StackScript.newline then (some .newline, rest)
  else if b = backtick then
    (some (.quoted (rest.takeWhile (· != backtick))), (rest.dropWhile (· != backtick)).drop 1)
  else if b = 35 then (none, rest.dropWhile (· != StackScript.newline))
  else if b = 40 then (some .opening, rest)
  else if b = 41 then (some .closing, rest)
  else if b = 46 then
    (some (.dotted (b :: rest.takeWhile continuesSymbol)), rest.dropWhile continuesSymbol)
  else if startsNumber (b :: rest) then
    (some (.numeral (b :: rest.takeWhile isNumeralByte)), rest.dropWhile isNumeralByte)
  else if startsSymbol b then
    (some (.symbol (b :: rest.takeWhile continuesSymbol)), rest.dropWhile continuesSymbol)
  else
    (some (.operator (b :: rest.takeWhile continuesOperator)), rest.dropWhile continuesOperator)

theorem length_dropWhile_le (p : UInt8 → Bool) (text : Bytes) :
    (text.dropWhile p).length ≤ text.length := by
  induction text with
  | nil => exact Nat.le_refl _
  | cons b rest ih =>
    rw [List.dropWhile_cons]
    split
    · exact Nat.le_trans ih (Nat.le_succ _)
    · exact Nat.le_refl _

/-- A token consumes its first byte at least. -/
theorem length_first_le (b : UInt8) (rest : Bytes) :
    (first b rest).2.length ≤ rest.length := by
  unfold first
  repeat' split
  all_goals first
    | exact Nat.le_refl _
    | exact length_dropWhile_le _ _
    | exact Nat.le_trans (by simp) (length_dropWhile_le (· != backtick) rest)

/-- The tokens of a text, in order. -/
def scan : Bytes → List Token
  | [] => []
  | b :: rest =>
    let head := first b rest
    head.1.toList ++ scan head.2
termination_by text => text.length
decreasing_by exact Nat.lt_succ_of_le (length_first_le b rest)

end Token

end StackScript
