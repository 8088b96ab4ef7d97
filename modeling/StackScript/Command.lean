import StackScript.Command.Flags
import StackScript.Command.TreeView
import StackScript.Log.Logger
import StackScript.Session.Run
import StackScript.Source
set_option autoImplicit false

/-!
# The command

The command runs source files in one session, one after another, or a text from
standard input.  With `-check` it only reads them and reports what cannot be
read, and with `-tree` it shows what was read.  Everything it does is a function
of its arguments and the files, of which standard input is one.
-/

namespace StackScript

open Command

variable {W : Type}

/-! ## Running sources -/

/-- Why a run over sources ended early. -/
inductive RunError where
  /-- a source could not be opened, read or closed -/
  | input (message : Bytes)
  /-- a source did not simply end when it was evaluated -/
  | stopped (location : Location) (outcome : Outcome)
  deriving Inhabited

namespace RunError

/-- The error in words. -/
def message : RunError → Bytes
  | .input message => message
  | .stopped location outcome =>
    location.text ++ ascii ": " ++ outcome.message?.getD []

/-- Whether the program asked to leave. -/
def isExit : RunError → Bool
  | .stopped _ outcome => outcome.isExit
  | .input _ => false

/-- Whether the host crashed. -/
def isCrash : RunError → Bool
  | .stopped _ (.crashed _) => true
  | _ => false

end RunError

namespace Command

/-- The line that an outcome concerns: that of a fatal condition, or else the
current one. -/
def outcomeLine (s : Session W) : Outcome → Int
  | .fault report => report.line
  | _ => s.line

/-- What a run over sources leaves. -/
structure Ran (W : Type) where
  session : Session W
  input : Input
  error : Option RunError

/-- Evaluates every source of a queue in one session, in order, up to the first
that does not simply end.  Streams that are left are not touched. -/
def runSources [FileSystem W] (rounds : Nat) (chatty : Bool) (s : Session W) (input : Input) :
    Ran W :=
  match _h : input.next s.world with
  | (world, input, .ended) => ⟨{ s with world := world }, input, none⟩
  | (world, input, .failed _ error) => ⟨{ s with world := world }, input, some (.input error)⟩
  | (world, input, .crashed message) => ⟨{ s with world := world }, input, some (.input message)⟩
  | (world, input, .source src) =>
    let s := { s with world := world }
    let s := if chatty then s.remark (.running src.describe) else s
    match s.eval rounds src.text with
    | (s, .done) => runSources rounds chatty s input
    | (s, outcome) => ⟨s, input, some (.stopped (src.at_ (outcomeLine s outcome)) outcome)⟩
termination_by input.queue.length
decreasing_by exact Input.length_queue_next _h

/-- Evaluates every source of a queue and then closes what is left of it. -/
def runQueue [FileSystem W] (rounds : Nat) (chatty : Bool) (s : Session W) (input : Input) :
    Ran W :=
  let ran := runSources rounds chatty s input
  { ran with input := ran.input.close.1 }

/-- How a command ends: its exit code, its last remarks and what it writes to the
diagnostics. -/
structure Finish where
  code : Nat
  remarks : List Remark
  diagnostics : Bytes
  deriving DecidableEq, Repr, Inhabited

/-- How a run ends.  Leaving by request is no error.  The trace of a crash is
shown by a mark in its place. -/
def finish (s : Session W) (error : Option RunError) (verbose : Bool) : Finish :=
  match error.filter fun e => !e.isExit with
  | some e => ⟨1, [.failed e.message], if e.isCrash then ascii "<stack>" else []⟩
  | none => if verbose then ⟨0, [.done], ascii "DONE\n" ++ s.dump⟩ else ⟨0, [], []⟩

/-- The last entries on the error stream. -/
def Finish.events (last : Finish) : List Event :=
  last.remarks.map .remark ++ [.diagnostic last.diagnostics]

/-! ## Checking and showing files -/

/-- Opens one file and reads it whole. -/
def readFile [FileSystem W] (w : W) (name : Bytes) : W × Except Bytes Source :=
  match Input.openFiles w [name] with
  | (w, .failed error) => (w, .error error.message)
  | (w, .crashed message) => (w, .error message)
  | (w, .ok input) =>
    match input.next w with
    | (w, _, .source src) => (w, .ok src)
    | (w, _, .failed _ error) => (w, .error error)
    | (w, _, .crashed message) => (w, .error message)
    | (w, _, .ended) => (w, .error [])

/-- What there is to say against a source text. -/
def syntaxError? (text : Bytes) : Option SyntaxError :=
  match (Reader.start.parse text).2 with
  | .ok _ => none
  | .error e => some e

/-- Checks files, and gives what there is to say against each; or the first error in
opening or reading one. -/
def checkAll [FileSystem W] (w : W) : List Bytes → W × Except Bytes (List (Option SyntaxError))
  | [] => (w, .ok [])
  | name :: rest =>
    match readFile w name with
    | (w, .error error) => (w, .error error)
    | (w, .ok src) =>
      match checkAll w rest with
      | (w, .error error) => (w, .error error)
      | (w, .ok errors) => (w, .ok (syntaxError? src.text :: errors))

/-- The remarks on checked files: which were refused, and which have passed if that is of
interest. -/
def checkRemarks (chatty : Bool) : List Bytes → List (Option SyntaxError) → List Remark
  | name :: names, some error :: errors => .refused name error :: checkRemarks chatty names errors
  | name :: names, none :: errors =>
    (if chatty then [.passed name] else []) ++ checkRemarks chatty names errors
  | _, _ => []

/-- What a command leaves behind. -/
structure Result (W : Type) where
  world : W
  code : Nat
  stdout : Bytes
  /-- what was put on the error stream, in order -/
  stderr : List Event

/-- What checking files leaves, once what there is to say against each is known, or an error
that ended the work. -/
def checked (w : W) (chatty : Bool) (names : List Bytes) :
    Except Bytes (List (Option SyntaxError)) → Result W
  | .error error => ⟨w, 1, [], [.remark (.checkFailed error)]⟩
  | .ok errors =>
    ⟨w, if errors.any (·.isSome) then 1 else 0, [],
      (checkRemarks chatty names errors).map .remark⟩

/-- Checks files and reports every one that cannot be read as a source.  Nothing
is checked once the time is over. -/
def check [FileSystem W] (w : W) (chatty : Bool) (interrupt : Option Interrupt)
    (names : List Bytes) : Result W :=
  match interrupt, names with
  | some reason, _ :: _ => checked w chatty names (.error reason.message)
  | _, _ => checked (checkAll w names).1 chatty names (checkAll w names).2

/-- Shows the trees of the streams of a queue, up to the first that cannot be
read. -/
def showTrees [FileSystem W] (w : W) (input : Input) : Result W :=
  match _h : input.next w with
  | (w, _, .ended) => ⟨w, 0, [], []⟩
  | (w, _, .failed _ error) => ⟨w, 1, [], [.remark (.failed error)]⟩
  | (w, _, .crashed message) => ⟨w, 1, [], [.remark (.failed message)]⟩
  | (w, input, .source src) =>
    match (Reader.start.parse src.text).2 with
    | .error e => ⟨w, 1, [], [.remark (.refused src.name e)]⟩
    | .ok trees =>
      let rest := showTrees w input
      { rest with stdout := src.name ++ ascii ":\n" ++ treeText trees ++ ascii "\n" ++ rest.stdout }
termination_by input.queue.length
decreasing_by exact Input.length_queue_next _h

/-- Shows the trees of files. -/
def showFiles [FileSystem W] (w : W) (names : List Bytes) : Result W :=
  match Input.openFiles w names with
  | (w, .failed error) => ⟨w, 1, [], [.remark (.failed error.message)]⟩
  | (w, .crashed message) => ⟨w, 1, [], [.remark (.failed message)]⟩
  | (w, .ok input) => showTrees w input

/-! ## The whole command -/

/-- Whether an entry of the journal is on the error stream. -/
def isError : Event → Bool
  | .echo .output _ _ => false
  | _ => true

/-- What a session has put on the error stream. -/
def errorsOf (s : Session W) : List Event := s.journal.reverse.filter isError

/-- The text of an entry on the error stream, where `line` gives the line of a remark in the
process log. -/
def eventText (line : Remark → Bytes) : Event → Bytes
  | .note n => n.logged
  | .diagnostic text => text
  | .remark r => line r
  | .echo _ _ text => text

/-- What files passed on to the output, in order, each with the number of bytes of
the session's own output before it. -/
def echoes (s : Session W) : List (Nat × Bytes) :=
  s.journal.reverse.filterMap fun
    | .echo .output position text => some (position, text)
    | _ => none

/-- A text with others put in, each at its position in the text, of which the bytes
up to `start` are gone. -/
def weave (start : Nat) (text : Bytes) : List (Nat × Bytes) → Bytes
  | [] => text
  | (position, echo) :: rest =>
    text.take (position - start) ++ echo ++ weave position (text.drop (position - start)) rest

/-- What a session and the files it wrote have put on the output, if that is a pipe or a
terminal, where nothing is erased. -/
def outputText (s : Session W) : Bytes := weave 0 s.output.received (echoes s)

/-- Standard output as a session writes to it: line by line if it is a terminal, and else
through a buffer that a long text passes by when it is empty. -/
def standardOutput (terminal : Bool) : Output :=
  if terminal then .byLine (.ofSink .file) else .buffered (.ofSink .file)

/-- A session for the settings: output goes to standard output, which may be a terminal, and
diagnostics to the error stream. -/
def sessionFor (terminal : Bool) (w : W) (set : Settings) : Session W :=
  { (Session.new w).withLimit set.recursionLimit with
    output := standardOutput terminal
    diagnostics := .kept
    listening := ⟨set.trace, set.debug, set.verbose⟩ }

/-- The interruption that a time limit in nanoseconds amounts to before anything
has run.  One that lies in the past is over, and so is one of less than a
microsecond, which passes before a run can start.  Zero sets no limit. -/
def timeInterrupt (timeout : Int) : Option Interrupt :=
  if timeout < 1000 ∧ timeout ≠ 0 then some .expired else none

/-- The streams that the settings ask to run: files, or else standard input. -/
def inputFor [FileSystem W] (w : W) (set : Settings) : W × Access Input :=
  if set.names.isEmpty then (w, .ok (.ofStreams [.stdin]))
  else Input.openFiles w set.names

/-- Runs what the settings ask for. -/
def runProgram [FileSystem W] (rounds : Nat) (terminal : Bool) (set : Settings) (w : W) :
    Result W :=
  let ran : Ran W :=
    match inputFor w set with
    | (w, .ok input) =>
      runQueue rounds set.chatty
        ((sessionFor terminal w set).under (timeInterrupt set.timeout)) input
    | (w, .failed error) =>
      ⟨sessionFor terminal w set, .ofStreams [], some (.input error.message)⟩
    | (w, .crashed message) => ⟨sessionFor terminal w set, .ofStreams [], some (.input message)⟩
  let last := finish ran.session ran.error set.verbose
  ⟨ran.session.world, last.code, outputText ran.session,
    errorsOf ran.session ++ last.events⟩

/-- Runs the command with settings. -/
def runWith [FileSystem W] (rounds : Nat) (terminal : Bool) (set : Settings) (w : W) :
    Result W :=
  let result :=
    if set.check then check w set.chatty (timeInterrupt set.timeout) set.names
    else if set.tree then showFiles w set.names
    else runProgram rounds terminal set w
  if set.chatty then { result with stderr := .remark .asked :: result.stderr } else result

/-- Runs the command with arguments.  Standard output may be a terminal. -/
def run [FileSystem W] (rounds : Nat) (terminal : Bool) (args : List Bytes) (w : W) :
    Result W :=
  match parseFlags Settings.default args with
  | .ok set => runWith rounds terminal set w
  | .error e =>
    match e.message? with
    | none => ⟨w, 0, [], [.diagnostic usage]⟩
    | some message => ⟨w, 2, [], [.diagnostic (message ++ ascii "\n" ++ usage)]⟩

end Command

end StackScript
