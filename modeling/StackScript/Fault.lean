import StackScript.Tree
set_option autoImplicit false

/-!
# Fatal conditions

A run stops at the first fatal condition.  `Cause` lists every way in which that
can happen, with what was at fault.  `Report` is what is told of it: a kind, the
line, the offending value, a message and an underlying error, and `Report.text`
is the one place where that is put into words.
-/

namespace StackScript

/-! ## Kinds of fault -/

/-- The classes of fatal condition. -/
inductive FaultKind where
  | stackUnderflow
  | typeMismatch
  | undefinedSymbol
  | unbalancedParenthesis
  | unknownOperation
  | assertionFailed
  | lookupMiss
  | recursionLimitExceeded
  | fileFailure
  | unserializable
  | died
  /-- a code outside the list -/
  | unlisted (code : Nat)
  deriving DecidableEq, Repr, Inhabited

namespace FaultKind

/-- The listed kinds, in the order of their codes, which start at one. -/
def all : List FaultKind :=
  [.stackUnderflow, .typeMismatch, .undefinedSymbol, .unbalancedParenthesis, .unknownOperation,
    .assertionFailed, .lookupMiss, .recursionLimitExceeded, .fileFailure, .unserializable, .died]

/-- The kind with a code. -/
def ofCode : Nat → FaultKind
  | 0 => .unlisted 0
  | code + 1 => (all[code]?).getD (.unlisted (code + 1))

/-- The name of a kind. -/
def name : FaultKind → Bytes
  | .stackUnderflow => ascii "stack underflow"
  | .typeMismatch => ascii "type mismatch"
  | .undefinedSymbol => ascii "undefined symbol"
  | .unbalancedParenthesis => ascii "unbalanced parenthesis"
  | .unknownOperation => ascii "unknown operation"
  | .assertionFailed => ascii "assertion failed"
  | .lookupMiss => ascii "lookup miss"
  | .recursionLimitExceeded => ascii "recursion limit exceeded"
  | .fileFailure => ascii "file failure"
  | .unserializable => ascii "unserializable"
  | .died => ascii "died"
  | .unlisted 0 => ascii "unknown error"
  | .unlisted code => ascii "ErrorKind(" ++ Bytes.ofNat code ++ ascii ")"

end FaultKind

/-! ## Reports -/

/-- What is told of a fatal condition. -/
structure Report where
  kind : FaultKind
  /-- the source line, or zero if none is known -/
  line : Int
  /-- the offending value, or the absent value -/
  value : Value
  message : Bytes
  /-- the text of the error underneath, if there is one -/
  cause : Option Bytes
  deriving Inhabited

/-- A report in words. -/
def Report.text (r : Report) : Bytes :=
  (if 0 < r.line then ascii "line " ++ Bytes.ofInt r.line ++ ascii ": " else []) ++
  r.kind.name ++
  (if r.message.isEmpty then [] else ascii ": " ++ r.message) ++
  (match r.value with
    | .absent => []
    | v => 32 :: v.format) ++
  (match r.cause with
    | some cause => ascii ": " ++ cause
    | none => [])

/-! ## Causes -/

/-- Why a run stops. -/
inductive Cause where
  /-- a value was needed and the stack was empty -/
  | emptyStack
  /-- a position that the stack does not have -/
  | noValueAt (index : Int) (size : Nat)
  /-- more values were asked for than the stack has -/
  | tooFewValues (count : Double)
  /-- a value of another kind was needed -/
  | mismatch (want : Kind) (got : Value)
  /-- a key that is neither a position nor a name -/
  | badKey (key : Value)
  /-- a name without a value -/
  | undefined (name : Bytes)
  /-- a source that cannot be read -/
  | unreadable (problem : Imbalance)
  /-- a file that cannot be read as a source -/
  | unreadableFile (path : Bytes) (error : SyntaxError)
  /-- a text that is no instruction -/
  | unknownOperation (name : Bytes)
  /-- an assertion that does not hold -/
  | assertion
  /-- the first element of an empty list -/
  | noFirst
  /-- a position that a list does not have -/
  | noIndex (index : Double) (size : Nat)
  /-- a key that a list does not have -/
  | noKey (key : Bytes)
  /-- lists run inside lists beyond the limit -/
  | tooDeep (depth : Nat)
  /-- a file that cannot be read -/
  | readFailed (path error : Bytes)
  /-- a file that cannot be written -/
  | writeFailed (path error : Bytes)
  /-- output that cannot be delivered -/
  | outputFailed (error : Bytes)
  /-- a value without source form -/
  | unwritable (value : Value) (reason : Value.Unwritable)
  /-- the program gave up -/
  | died
  deriving Inhabited

namespace Cause

/-- The class of a fatal condition. -/
def kind : Cause → FaultKind
  | .emptyStack => .stackUnderflow
  | .noValueAt _ _ => .stackUnderflow
  | .tooFewValues _ => .stackUnderflow
  | .mismatch _ _ => .typeMismatch
  | .badKey _ => .typeMismatch
  | .undefined _ => .undefinedSymbol
  | .unreadable _ => .unbalancedParenthesis
  | .unreadableFile _ _ => .unbalancedParenthesis
  | .unknownOperation _ => .unknownOperation
  | .assertion => .assertionFailed
  | .noFirst => .lookupMiss
  | .noIndex _ _ => .lookupMiss
  | .noKey _ => .lookupMiss
  | .tooDeep _ => .recursionLimitExceeded
  | .readFailed _ _ => .fileFailure
  | .writeFailed _ _ => .fileFailure
  | .outputFailed _ => .fileFailure
  | .unwritable _ _ => .unserializable
  | .died => .died

/-- The offending value of a fatal condition. -/
def value : Cause → Value
  | .tooFewValues count => .number count
  | .mismatch _ got => got
  | .badKey key => key
  | .undefined name => .text name
  | .unreadableFile path _ => .text path
  | .unknownOperation name => .text name
  | .noFirst => .list .bare []
  | .noIndex index _ => .number index
  | .noKey key => .text key
  | .readFailed path _ => .text path
  | .writeFailed path _ => .text path
  | .unwritable value _ => value
  | _ => .absent

/-- What a fatal condition adds to the name of its class. -/
def message : Cause → Bytes
  | .noValueAt index size =>
    ascii "no value at " ++ Bytes.ofInt index ++ ascii " of " ++ Bytes.ofNat size
  | .tooFewValues _ => ascii "list longer than the stack"
  | .mismatch want got => ascii "expected " ++ want.name ++ ascii ", have " ++ got.kind.name
  | .badKey key => ascii "expected number or text key, have " ++ key.kind.name
  | .unreadable problem => problem.message
  | .unreadableFile path error =>
    path ++ ascii ":" ++ Bytes.ofNat error.line ++ ascii ": " ++ error.problem.message
  | .noFirst => ascii "empty list has no first element"
  | .noIndex _ size => ascii "no index in list of " ++ Bytes.ofNat size
  | .noKey _ => ascii "no such key"
  | .tooDeep depth => ascii "depth " ++ Bytes.ofNat depth
  | .readFailed _ _ => ascii "read"
  | .writeFailed _ _ => ascii "write"
  | .outputFailed _ => ascii "output"
  | _ => []

/-- The error underneath a fatal condition. -/
def underlying : Cause → Option Bytes
  | .readFailed _ error => some error
  | .writeFailed _ error => some error
  | .outputFailed error => some error
  | .unwritable _ reason => some reason.message
  | _ => none

/-- What is told of a fatal condition that shows on line `line`. -/
def report (cause : Cause) (line : Int) : Report :=
  ⟨cause.kind, line, cause.value, cause.message, cause.underlying⟩

end Cause

/-- What is told of a source that cannot be read. -/
def SyntaxError.report (e : SyntaxError) : Report := (Cause.unreadable e.problem).report e.line

end StackScript
