import StackScript.Token
import StackScript.Value
set_option autoImplicit false

/-!
# Source trees

The reader turns the tokens of a source text into a tree: numbers, texts, and
lists for what stands in parentheses.  Every newline advances the line count and
leaves a marker, the new line number and the instruction that makes it current,
so that the evaluator knows which line it is on.

A tree has no list identities.  They are handed out when a tree is loaded
(`Tree.load`), so that each reading of a text gives lists of its own.
-/

namespace StackScript

/-- One element of a source. -/
inductive Tree where
  | number (x : Double)
  | text (s : Bytes)
  | list (items : List Tree)
  deriving Repr, Inhabited

/-! ## Building a tree -/

/-- How the parentheses of a source can fail to match. -/
inductive Imbalance where
  /-- a closing parenthesis without a partner -/
  | unexpectedClosing
  /-- opening parentheses without partners at the end of the source -/
  | unclosed (count : Nat)
  deriving DecidableEq, Repr, Inhabited

/-- What is wrong, in words. -/
def Imbalance.message : Imbalance → Bytes
  | .unexpectedClosing => ascii "unexpected )"
  | .unclosed count => Bytes.ofNat count ++ ascii " unclosed at end of input"

/-- A source that cannot be read, with the line where that shows. -/
structure SyntaxError where
  line : Nat
  problem : Imbalance
  deriving DecidableEq, Repr, Inhabited

/-- What came of reading a source: the line count at the end and the tree. -/
structure Reading where
  line : Nat
  result : Except SyntaxError (List Tree)

namespace Tree

/-- The name of the instruction that makes a line current. -/
def lineMark : Bytes := ascii "@@"

/-- What a numeral token stands for: its number, or the token itself as a text
where it is not a number in range. -/
def ofNumeral (s : Bytes) : Tree :=
  match Double.ofBytes? s with
  | some x => .number x
  | none => .text s

/-- Reads the remaining tokens.  `items` holds what the innermost open list has
so far and `outer` the same of the lists around it, both latest first. -/
def build (line : Nat) (items : List Tree) (outer : List (List Tree)) : List Token → Reading
  | [] =>
    match outer with
    | [] => ⟨line, .ok items.reverse⟩
    | _ :: _ => ⟨line, .error ⟨line, .unclosed outer.length⟩⟩
  | .newline :: rest =>
    build (line + 1) (.text lineMark :: .number (Double.ofNat (line + 1)) :: items) outer rest
  | .opening :: rest => build line [] (items :: outer) rest
  | .closing :: rest =>
    match outer with
    | [] => ⟨line, .error ⟨line, .unexpectedClosing⟩⟩
    | above :: outer => build line (.list items.reverse :: above) outer rest
  | .numeral s :: rest => build line (ofNumeral s :: items) outer rest
  | .quoted s :: rest => build line (.text s :: items) outer rest
  | .symbol s :: rest => build line (.text s :: items) outer rest
  | .dotted s :: rest => build line (.text s :: items) outer rest
  | .operator s :: rest => build line (.text s :: items) outer rest

/-- Reads a source whose first line has the number `line`. -/
def read (line : Nat) (src : Bytes) : Reading := build line [] [] (Token.scan src)

/-! ## Notes on reading -/

/-- What is noted of a token, on line `line` with `depth` parentheses open after
it. -/
def note (line depth : Nat) : Token → Option Note
  | .newline => none
  | .opening => some ⟨.debug, line, ascii "( - depth " ++ Bytes.ofNat depth⟩
  | .closing => some ⟨.debug, line, ascii ") - depth " ++ Bytes.ofNat depth⟩
  | .quoted s => some ⟨.info, line, ascii "string " ++ Text.quoted s⟩
  | .numeral s =>
    match Double.ofBytes? s with
    | some _ => some ⟨.trace, line, ascii "number " ++ s⟩
    | none => some ⟨.trace, line, ascii "number-like " ++ Text.quoted s⟩
  | .symbol s => some ⟨.trace, line, ascii "symbol " ++ s⟩
  | .dotted s => some ⟨.trace, line, ascii "operator " ++ Text.quoted s⟩
  | .operator s => some ⟨.trace, line, ascii "operator " ++ Text.quoted s⟩

/-- The notes on reading tokens from line `line` with `depth` parentheses open,
up to where reading stops. -/
def notes (line depth : Nat) : List Token → List Note
  | [] => []
  | .newline :: rest => notes (line + 1) depth rest
  | .opening :: rest =>
    (note line (depth + 1) .opening).toList ++ notes line (depth + 1) rest
  | .closing :: rest =>
    match depth with
    | 0 => []
    | depth + 1 => (note line depth .closing).toList ++ notes line depth rest
  | token :: rest => (note line depth token).toList ++ notes line depth rest

/-! ## Loading a tree -/

mutual

/-- A tree as a value, with identities for its lists from the `next`-th on, and
the next one still free. -/
def load (next : Nat) : Tree → Value × Nat
  | .number x => (.number x, next)
  | .text s => (.text s, next)
  | .list items =>
    let loaded := loadAll (next + 1) items
    (.list (.made next) loaded.1, loaded.2)

/-- Several trees as values, likewise. -/
def loadAll (next : Nat) : List Tree → List Value × Nat
  | [] => ([], next)
  | tree :: rest =>
    let first := load next tree
    let others := loadAll first.2 rest
    (first.1 :: others.1, others.2)

end

end Tree

/-! ## The reader -/

/-- A reader of one source after another: it goes on counting lines. -/
structure Reader where
  /-- the current line; a reader that has read nothing may be at line zero -/
  line : Nat
  deriving DecidableEq, Repr, Inhabited

namespace Reader

/-- A reader at the first line. -/
def start : Reader := ⟨1⟩

/-- The line the next source starts on. -/
def firstLine (r : Reader) : Nat := max r.line 1

/-- Reads one more source.  A source that cannot be read leaves nothing behind
but the lines counted. -/
def parse (r : Reader) (src : Bytes) : Reader × Except SyntaxError (List Tree) :=
  let reading := Tree.read r.firstLine src
  (⟨reading.line⟩, reading.result)

/-- The notes on reading one more source. -/
def notes (r : Reader) (src : Bytes) : List Note :=
  Tree.notes r.firstLine 0 (Token.scan src)

/-- How many parentheses are open between two sources: none, since a source that
leaves one open is refused as a whole. -/
def depth (_ : Reader) : Nat := 0

end Reader

/-- Whether a reading failed only because the source went on too short. -/
def isUnclosed : Except SyntaxError (List Tree) → Bool
  | .error ⟨_, .unclosed _⟩ => true
  | _ => false

end StackScript
