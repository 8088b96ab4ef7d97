import StackScript.OutOfRange
import StackScript.Text.Blank
import StackScript.Session.State
set_option autoImplicit false

/-!
# Functions for builder methods

A test file declares builder methods of a test case, each with its signature on
one line.  For each of them a free function can be written that returns a closure
over the method, so that builders can be passed around as values.
-/

namespace StackScript

/-- A builder method: what its name starts with, the rest of its name, and its
parameters. -/
structure Builder where
  base : Bytes
  what : Bytes
  params : Bytes
  deriving DecidableEq, Repr, Inhabited

namespace Builder

/-! ## Finding builders -/

/-- What stands in front of the name of a builder method. -/
def receiver : Bytes := ascii "func (st sessionTestCase) "

/-- What a builder's name can start with. -/
def bases : List Bytes := [ascii "expect", ascii "with"]

/-- What stands after the parameters of a builder method. -/
def resultType : Bytes := ascii ") sessionTestCase"

/-- The shortest part of a text, of one byte or more, that `mark` follows. -/
def shortestBefore? (mark : Bytes) : Bytes → Option Bytes
  | [] => none
  | b :: rest =>
    if (Bytes.dropStart? mark rest).isSome then some [b]
    else (shortestBefore? mark rest).map (b :: ·)

/-- The shortest name, of one byte or more, and the shortest parameters for it:
the name ends at a parenthesis, and the parameters where the result type stands.
If no result type follows the first parenthesis, none follows a later one. -/
def nameAndParams? : Bytes → Option (Bytes × Bytes)
  | [] => none
  | b :: rest =>
    match Bytes.dropStart? [40] rest with
    | some text => (shortestBefore? resultType text).map fun params => ([b], params)
    | none => (nameAndParams? rest).map fun found => (b :: found.1, found.2)

/-- The builder whose declaration a text starts with. -/
def atStart? (text : Bytes) : Option Builder :=
  match Bytes.dropStart? receiver text with
  | none => none
  | some text =>
    bases.findSome? fun base =>
      match Bytes.dropStart? base text with
      | none => none
      | some text => (nameAndParams? text).map fun found => ⟨base, found.1, found.2⟩

/-- The first builder that a line declares. -/
def inLine? : Bytes → Option Builder
  | [] => none
  | b :: rest =>
    match atStart? (b :: rest) with
    | some builder => some builder
    | none => inLine? rest

/-- A line without one carriage return at its end. -/
def withoutReturn (line : Bytes) : Bytes :=
  if line.getLast? = some 13 then line.dropLast else line

/-- A line of this many bytes is too long to be read. -/
def lineLimit : Nat := 65536

/-- Why a scan ends early. -/
inductive ScanError where
  | lineTooLong
  | interrupted (reason : Interrupt)
  deriving DecidableEq, Repr, Inhabited

/-- The error in words. -/
def ScanError.message : ScanError → Bytes
  | .lineTooLong => ascii "bufio.Scanner: token too long"
  | .interrupted reason => reason.message

/-- The builders that lines declare, in order, and what ended the scan early.  An
interrupted scan ends at the first builder it finds. -/
def scanLines (interrupt : Option Interrupt) : List Bytes → List Builder × Option ScanError
  | [] => ([], none)
  | line :: rest =>
    if lineLimit ≤ line.length then ([], some .lineTooLong)
    else
      match inLine? (withoutReturn line), interrupt with
      | none, _ => scanLines interrupt rest
      | some _, some reason => ([], some (.interrupted reason))
      | some builder, none =>
        let found := scanLines interrupt rest
        (builder :: found.1, found.2)

/-- The builders that a text declares. -/
def scan (interrupt : Option Interrupt) (text : Bytes) : List Builder × Option ScanError :=
  scanLines interrupt (Bytes.splitOn newline text)

/-! ## Writing functions -/

/-- The argument to pass for a parameter: its name, spread if its type says so.
A parameter without a name is an error. -/
def argument (param : Bytes) : Except OutOfRange Bytes :=
  match Text.fields param with
  | [] => .error ⟨0, 0⟩
  | [name] => .ok name
  | name :: type :: _ =>
    .ok (if (Bytes.dropStart? (ascii "...") type).isSome then name ++ ascii "..." else name)

/-- The function for a builder. -/
def code (b : Builder) : Except OutOfRange Bytes := do
  let args ← (Bytes.splitOn 44 b.params).mapM argument
  pure <|
    ascii "func " ++ b.base ++ ascii "Session" ++ b.what ++ ascii "(" ++ b.params ++
    ascii ") func(sessionTestCase) sessionTestCase \x7b\n" ++
    ascii "\treturn func(st sessionTestCase) sessionTestCase \x7b\n" ++
    ascii "\t\treturn st." ++ b.base ++ b.what ++ ascii "(" ++ Bytes.join (ascii ", ") args ++
    ascii ")\n" ++
    ascii "\t\x7d\n\x7d\n\n"

/-! ## Writing a file -/

/-- Why no file can be written. -/
inductive GenerateError where
  | scan (error : ScanError)
  | param (error : OutOfRange)
  deriving DecidableEq, Repr, Inhabited

/-- The error in words. -/
def GenerateError.message : GenerateError → Bytes
  | .scan error => error.message
  | .param error => error.message

/-- What stands at the top of a written file. -/
def header (inName outName : Bytes) : Bytes :=
  ascii "package main\n\n// @generated from " ++ inName ++ ascii "\n\n" ++
  ascii "//go:generate go run scripts/gen_session_expects.go -- " ++ inName ++ ascii " " ++
  outName ++ ascii "\n\n"

/-- A text without newlines at its end but one. -/
def tidy (text : Bytes) : Bytes :=
  (text.reverse.dropWhile (· == newline)).reverse ++ [newline]

/-- The file with the functions for all builders that a text declares. -/
def generate (inName outName text : Bytes) : Except GenerateError Bytes :=
  match scan none text with
  | (_, some error) => .error (.scan error)
  | (builders, none) =>
    match builders.mapM code with
    | .error error => .error (.param error)
    | .ok codes => .ok (tidy (header inName outName ++ codes.flatten))

end Builder

end StackScript
