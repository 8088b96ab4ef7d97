import StackScript.Command
import StackScript.Files.Disk
import StackScript.Files.Record
import StackScript.Prompt
set_option autoImplicit false

/-!
# The program

The outer layer of the command: it makes the accesses to files that a run asks
for, hands over the arguments, and writes what the run leaves.
With no files to run and a terminal to read from, it drives the read-eval loop.
-/

namespace StackScript.Main

/-- The rounds given to one loop of a program: more than a machine gets through. -/
def rounds : Nat := 2 ^ 62

/-- The bytes of a text from the system. -/
def bytes (text : String) : Bytes := text.toUTF8.toList

/-- The path that bytes spell, if it is one that the system can be asked for. -/
def path? (path : Bytes) : Option String := String.fromUTF8? ⟨path.toArray⟩

/-- What an error of the system is. -/
def errorOf : IO.Error → DiskError
  | .noFileOrDirectory .. => .missing
  | .inappropriateType _ code _ => if code = 20 then .notDirectory else .isDirectory
  | .permissionDenied .. => .denied
  | .invalidArgument _ code _ => if code = 36 then .nameTooLong else .invalidPath
  | .resourceExhausted .. => .noSpace
  | .noSuchThing .. => .noDevice
  | _ => .broken

/-- The answer of one access, with the name of the operation that an error is told
of. -/
def answer {α : Type} (operation path : Bytes) (access : IO α) : IO (Except FileError α) := do
  try
    return .ok (← access)
  catch e =>
    return .error ((errorOf e).toFileError operation path)

/-- Opens a file. -/
def openFile (path : Bytes) (mode : IO.FS.Mode) : IO IO.FS.Handle := do
  match path? path with
  | none => throw (.noFileOrDirectory "" 0 "")
  | some name => IO.FS.Handle.mk name mode

/-- The bytes of a stream to its end. -/
partial def readAll (stream : IO.FS.Stream) (read : ByteArray) : IO ByteArray := do
  let chunk ← stream.read 65536
  if chunk.isEmpty then return read else readAll stream (read ++ chunk)

/-- Makes an access. -/
def serve : Request → IO (Except FileError Bytes)
  | .probe path => do
    return (← answer (ascii "open") path (openFile path .read)).map fun _ => []
  | .read path => do
    match ← answer (ascii "open") path (openFile path .read) with
    | .error e => return .error e
    | .ok file =>
      answer (ascii "read") path do
        return (← readAll (.ofHandle file) .empty).toList
  | .write path text => do
    match ← answer (ascii "open") path (openFile path .write) with
    | .error e => return .error e
    | .ok file =>
      answer (ascii "write") path do
        file.write ⟨text.toArray⟩
        file.flush
        return []
  | .drain =>
    answer (ascii "read") stdinPath do
      return (← readAll (← IO.getStdin) .empty).toList

/-- Writes bytes to a stream at once. -/
def put (stream : IO.FS.Stream) (text : Bytes) : IO Unit := do
  stream.write ⟨text.toArray⟩
  stream.flush

/-- The value of a computation over the files: repeated after each access that it
asks for, until it asks for none. -/
partial def complete {α : Type} (compute : Record → α) (world : α → Record)
    (answers : List (Except FileError Bytes)) : IO α := do
  let value := compute (.ofAnswers answers)
  match (world value).pending with
  | none => return value
  | some request => complete compute world (answers ++ [← serve request])

/-- The mark of an urgency at the start of a line of the log. -/
def mark : Urgency → Bytes
  | .error => ascii "[E] "
  | .info => ascii "[I] "
  | .trace => ascii "[T] "

/-- A remark as a line of the log. -/
def logLine (r : Remark) : Bytes :=
  match r.words? with
  | some words => mark r.urgency ++ words ++ [newline]
  | none => []

/-- Writes entries to the error stream. -/
def putErrors (events : List Event) : IO Unit := do
  put (← IO.getStderr) (events.flatMap (Command.eventText logLine))

/-- Runs the command on arguments. -/
def runCommand (args : List Bytes) : IO UInt32 := do
  let terminal ← (← IO.getStdout).isTty
  let compute := fun files : Record => Command.run rounds terminal args files
  let result ← complete compute (·.world) []
  put (← IO.getStdout) result.stdout
  putErrors result.stderr
  return result.code.toUInt32

/-- Shows what a session has written, and gives the session without it. -/
def show_ (s : Session Record) : IO (Session Record) := do
  put (← IO.getStdout) (Command.outputText s)
  putErrors (Command.errorsOf s)
  return { s with output := s.output.forget, journal := [] }

/-- Ends a read-eval loop. -/
def leave (set : Command.Settings) (s : Session Record) (ending : LoopEnd) : IO UInt32 := do
  let error : Option RunError :=
    match ending with
    | .finished => none
    | .promptFailed message => some (.input message)
    | .stopped outcome => some (.input (outcome.message?.getD []))
  let last := Command.finish s error set.verbose
  putErrors last.events
  return last.code.toUInt32

/-- Reads entries from a terminal and evaluates them. -/
partial def converse (set : Command.Settings) (loop : Loop Record) : IO UInt32 := do
  put (← IO.getStdout) loop.prompt
  let line ← (← IO.getStdin).getLine
  if line.isEmpty then leave set loop.session .finished
  else
    let text := bytes line
    let entered := if text.getLast? = some newline then text.dropLast else text
    let compute := fun files : Record =>
      { loop with session := { loop.session with world := files } }.feed rounds (.line entered)
    let fed ← complete compute (·.1.session.world) []
    let session ← show_ fed.1.session
    match fed.2 with
    | some ending => leave set session ending
    | none => converse set { fed.1 with session := session }

end StackScript.Main

open StackScript in
/-- Runs the command with the arguments of the process. -/
def main (args : List String) : IO UInt32 := do
  let args := args.map Main.bytes
  match Command.parseFlags Command.Settings.default args with
  | .error _ => Main.runCommand args
  | .ok set =>
    let files := set.check || set.tree || !set.names.isEmpty
    if files || !(← (← IO.getStdin).isTty) then Main.runCommand args
    else
      let terminal ← (← IO.getStdout).isTty
      let session := Command.sessionFor terminal (Record.ofAnswers []) set
      Main.converse set (.start (session.under (Command.timeInterrupt set.timeout)))
