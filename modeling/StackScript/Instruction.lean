import StackScript.Bytes
set_option autoImplicit false

/-!
# Instructions

The instructions of the language and their names.  A text that is neither shaped
like a symbol nor like a number must be one of these names.
-/

namespace StackScript

/-- An instruction. -/
inductive Instruction where
  /-- run a list, look up a name, or keep a number -/
  | eval
  /-- evaluate twice -/
  | evalTwice
  /-- bind a name to a value -/
  | assign
  | add
  | sub
  | mul
  | div
  /-- division rounded down -/
  | floorDiv
  | mod
  /-- add one to the number of a name -/
  | increment
  /-- take one from the number of a name -/
  | decrement
  | greater
  | less
  | greaterEq
  | lessEq
  /-- deep equality -/
  | equal
  /-- shallow inequality -/
  | different
  | and
  | or
  | not
  /-- one of two values -/
  | select
  /-- stop unless true -/
  | assert
  /-- an element by position or by key -/
  | lookup
  /-- make a line current -/
  | setLine
  /-- duplicate, by its short name -/
  | dot
  | dup
  | drop
  | swap
  | cond
  | condElse
  | each
  | loop
  /-- the first element -/
  | first
  /-- all elements but the first -/
  | rest
  /-- the first elements -/
  | head
  /-- the last elements -/
  | tail
  /-- an element by position -/
  | get
  /-- a list of the values on top -/
  | gather
  | reduce
  | map
  /-- push every element -/
  | spread
  /-- read a file as a list -/
  | importList
  /-- write a list as a file -/
  | exportList
  /-- read a file as a text -/
  | readFile
  /-- write a text as a file -/
  | writeFile
  | print
  /-- print without taking the value away -/
  | peek
  | exit
  | die
  /-- the text of a number -/
  | str
  /-- round down -/
  | int
  deriving DecidableEq, Repr, Inhabited

namespace Instruction

/-- The name of an instruction. -/
def name : Instruction → Bytes
  | .eval => ascii "$"
  | .evalTwice => ascii "$$"
  | .assign => ascii "<-"
  | .add => ascii "+"
  | .sub => ascii "-"
  | .mul => ascii "*"
  | .div => ascii "/"
  | .floorDiv => ascii "//"
  | .mod => ascii "%"
  | .increment => ascii "++"
  | .decrement => ascii "--"
  | .greater => ascii ">"
  | .less => ascii "<"
  | .greaterEq => ascii ">="
  | .lessEq => ascii "<="
  | .equal => ascii "=="
  | .different => ascii "!="
  | .and => ascii "&&"
  | .or => ascii "||"
  | .not => ascii "!"
  | .select => ascii "?:"
  | .assert => ascii "!!"
  | .lookup => ascii "@"
  | .setLine => ascii "@@"
  | .dot => ascii "."
  | .dup => ascii ".dup"
  | .drop => ascii ".pop"
  | .swap => ascii ".swap"
  | .cond => ascii ".if"
  | .condElse => ascii ".ifelse"
  | .each => ascii ".each"
  | .loop => ascii ".while"
  | .first => ascii ".car"
  | .rest => ascii ".cdr"
  | .head => ascii ".head"
  | .tail => ascii ".tail"
  | .get => ascii ".get"
  | .gather => ascii ".nlist"
  | .reduce => ascii ".reduce"
  | .map => ascii ".map"
  | .spread => ascii ".spread"
  | .importList => ascii ".import"
  | .exportList => ascii ".export"
  | .readFile => ascii ".read"
  | .writeFile => ascii ".write"
  | .print => ascii ".print"
  | .peek => ascii ".peek"
  | .exit => ascii ".exit"
  | .die => ascii ".die"
  | .str => ascii ".str"
  | .int => ascii ".int"

/-- All instructions, in the order of their codes. -/
def all : List Instruction :=
  [.eval, .evalTwice, .assign, .add, .sub, .mul, .div, .floorDiv, .mod, .increment, .decrement,
    .greater, .less, .greaterEq, .lessEq, .equal, .different, .and, .or, .not, .select, .assert,
    .lookup, .setLine, .dot, .dup, .drop, .swap, .cond, .condElse, .each, .loop, .first, .rest,
    .head, .tail, .get, .gather, .reduce, .map, .spread, .importList, .exportList, .readFile,
    .writeFile, .print, .peek, .exit, .die, .str, .int]

/-- The instruction with a name. -/
def ofName? (name : Bytes) : Option Instruction := all.find? fun i => i.name == name

/-- The code of the instruction with a name. -/
def codeOf? (name : Bytes) : Option Nat := all.findIdx? fun i => i.name == name

/-- The name of the instruction with a code; a code without an instruction is
shown as is. -/
def nameOfCode (code : Nat) : Bytes :=
  match all[code]? with
  | some i => i.name
  | none => ascii "op(" ++ Bytes.ofNat code ++ ascii ")"

end Instruction

end StackScript
