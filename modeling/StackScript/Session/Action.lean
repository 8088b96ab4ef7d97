import StackScript.Session.State
set_option autoImplicit false

/-!
# Actions

What an instruction does is an action: it takes a session, and either ends with
a result or halts, in both cases leaving a session.  Halting does nothing else
by itself; what follows from it is settled once, where the run was started.

This module holds the actions that instructions are composed of.  They are the
only ones that touch the fields of a session.
-/

namespace StackScript

/-- Why a run ends before its program does. -/
inductive Halt where
  /-- a fatal condition -/
  | fault (cause : Cause)
  /-- the program asked to leave -/
  | exit
  /-- the run was stopped from outside -/
  | interrupted (reason : Interrupt)
  /-- the host of the session crashed -/
  | crashed (message : Bytes)
  /-- a loop went on for longer than it was given -/
  | exhausted
  deriving Inhabited

/-- A step of evaluation. -/
abbrev Action (W α : Type) : Type := EStateM Halt (Session W) α

namespace Action

variable {W α : Type}

/-- After a step that ends, the next one goes on from where it ended. -/
theorem bind_of_ok {β : Type} {x : Action W α} {f : α → Action W β} {s t : Session W} {a : α}
    (h : x s = .ok a t) : (x >>= f) s = f a t := by
  change EStateM.bind x f s = f a t
  rw [EStateM.bind, h]

/-- After a halt there is no next step. -/
theorem bind_of_error {β : Type} {x : Action W α} {f : α → Action W β} {s t : Session W}
    {halt : Halt} (h : x s = .error halt t) : (x >>= f) s = .error halt t := by
  change EStateM.bind x f s = .error halt t
  rw [EStateM.bind, h]

theorem get_bind (f : Session W → Action W α) (s : Session W) : (get >>= f) s = f s s := rfl

/-- Stops with a fatal condition. -/
def fail (cause : Cause) : Action W α := throw (.fault cause)

/-- The result, or the fatal condition that stands in its place. -/
def orFail : Except Cause α → Action W α
  | .ok a => pure a
  | .error cause => fail cause

/-- Takes a note. -/
def note (level : Level) (message : Unit → Bytes) : Action W Unit :=
  modify fun s => s.noteAt level message

/-- Stops if the run has been interrupted. -/
def checkpoint : Action W Unit := do
  match (← get).interrupt with
  | none => pure ()
  | some reason => throw (.interrupted reason)

theorem checkpoint_of_none {s : Session W} (h : s.interrupt = none) : checkpoint s = .ok () s := by
  unfold checkpoint
  rw [get_bind, h]
  rfl

theorem checkpoint_of_some {s : Session W} {reason : Interrupt} (h : s.interrupt = some reason) :
    checkpoint s = .error (.interrupted reason) s := by
  unfold checkpoint
  rw [get_bind, h]
  rfl

/-! ## The stack -/

/-- Puts a value on the stack. -/
def push (v : Value) : Action W Unit := do
  note .trace fun _ => ascii "push " ++ v.format
  modify fun s => { s with stack := s.stack.push v }

/-- Puts a truth value on the stack.  The outcome of a comparison is not
noted. -/
def pushBool (b : Bool) : Action W Unit :=
  modify fun s => { s with stack := s.stack.push (.ofBool b) }

/-- Takes something off the stack. -/
def take (from_ : Stack → Except Cause (α × Stack)) (shown : α → Bytes) : Action W α := do
  let (a, stack) ← orFail (from_ (← get).stack)
  modify fun s => { s with stack := stack }
  note .debug fun _ => ascii "pop " ++ shown a
  pure a

theorem take_of_ok {from_ : Stack → Except Cause (α × Stack)} {shown : α → Bytes}
    {s : Session W} {a : α} {stack : Stack} (h : from_ s.stack = .ok (a, stack)) :
    take from_ shown s =
      .ok a (({ s with stack := stack } : Session W).noteAt .debug fun _ =>
        ascii "pop " ++ shown a) := by
  unfold take
  rw [get_bind, h]
  rfl

theorem take_of_error {from_ : Stack → Except Cause (α × Stack)} {shown : α → Bytes}
    {s : Session W} {cause : Cause} (h : from_ s.stack = .error cause) :
    take from_ shown s = .error (.fault cause) s := by
  unfold take
  rw [get_bind, h]
  rfl

/-- Takes a value off the stack. -/
def pop : Action W Value := take Stack.pop Value.format

/-- Takes a number off the stack. -/
def popNumber : Action W Double := take Stack.popNumber Double.compact

/-- Takes a text off the stack. -/
def popText : Action W Bytes := take Stack.popText Text.quoted

/-- Takes a list off the stack, keeping its identity. -/
def popList : Action W Value := take Stack.popList Value.format

/-- The value on top of the stack. -/
def top : Action W Value := do orFail (← get).stack.top

/-- Puts a new list with the given items on the stack. -/
def pushList (items : List Value) : Action W Unit := do
  let next := (← get).nextList
  modify fun s => { s with nextList := next + 1 }
  push (.list (.made next) items)

/-! ## Names and the line -/

/-- The value of a name. -/
def valueOf (name : Bytes) : Action W Value := do orFail ((← get).symbols.get name)

/-- Binds a name. -/
def bindName (name : Bytes) (v : Value) : Action W Unit :=
  modify fun s => { s with symbols := s.symbols.bind name v }

/-- Makes a line current. -/
def setLine (line : Int) : Action W Unit := modify fun s => { s with line := line }

/-! ## Depth -/

/-- Counts one more list as being run. -/
def descend : Action W Unit := modify fun s => { s with depth := s.depth + 1 }

/-- Counts one list less as being run. -/
def ascend : Action W Unit := modify fun s => { s with depth := s.depth - 1 }

/-! ## Output and files -/

/-- Prints a text and a newline. -/
def print (text : Bytes) : Action W Unit := do
  let (output, error) := (← get).output.writeLine text
  modify fun s => { s with output := output }
  match error with
  | none => pure ()
  | some error => fail (.outputFailed error)

theorem print_of_none {s : Session W} {text : Bytes} {output : Output}
    (h : s.output.writeLine text = (output, none)) :
    print text s = .ok () { s with output := output } := by
  unfold print
  rw [get_bind, h]
  rfl

theorem print_of_some {s : Session W} {text error : Bytes} {output : Output}
    (h : s.output.writeLine text = (output, some error)) :
    print text s = .error (.fault (.outputFailed error)) { s with output := output } := by
  unfold print
  rw [get_bind, h]
  rfl

/-- Flushes the output. -/
def flush : Action W Unit := do
  let (output, error) := (← get).output.flush
  modify fun s => { s with output := output }
  match error with
  | none => pure ()
  | some (.failed error) => fail (.outputFailed error)
  | some (.crashed message) => throw (.crashed message)

theorem flush_of_none {s : Session W} {output : Output} (h : s.output.flush = (output, none)) :
    flush s = .ok () { s with output := output } := by
  unfold flush
  rw [get_bind, h]
  rfl

/-- The halt after a flush that went wrong. -/
def flushHalt : FlushError → Halt
  | .failed error => .fault (.outputFailed error)
  | .crashed message => .crashed message

theorem flush_of_some {s : Session W} {output : Output} {error : FlushError}
    (h : s.output.flush = (output, some error)) :
    flush s = .error (flushHalt error) { s with output := output } := by
  unfold flush
  rw [get_bind, h]
  cases error with
  | failed error => rfl
  | crashed message => rfl

/-- The result of an access to the files, after its effect on the run. -/
def access (reply : Reply W α) (failure : Bytes → Cause) : Action W α := do
  modify fun s => s.receive reply
  match reply.access with
  | .ok a => pure a
  | .failed error => fail (failure error.message)
  | .crashed message => throw (.crashed message)

theorem access_of_ok {reply : Reply W α} {a : α} (h : reply.access = .ok a)
    (failure : Bytes → Cause) (s : Session W) :
    access reply failure s = .ok a (s.receive reply) := by
  unfold access
  rw [h]
  rfl

theorem access_of_failed {reply : Reply W α} {error : FileError} (h : reply.access = .failed error)
    (failure : Bytes → Cause) (s : Session W) :
    access reply failure s = .error (.fault (failure error.message)) (s.receive reply) := by
  unfold access
  rw [h]
  rfl

theorem access_of_crashed {reply : Reply W α} {message : Bytes}
    (h : reply.access = .crashed message) (failure : Bytes → Cause) (s : Session W) :
    access reply failure s = .error (.crashed message) (s.receive reply) := by
  unfold access
  rw [h]
  rfl

/-- The text of a file. -/
def loadText [FileSystem W] (path : Bytes) : Action W Bytes := do
  access (FileSystem.read (← get).world path) (.readFailed path)

/-- Makes a text the content of a file. -/
def saveText [FileSystem W] (path text : Bytes) : Action W Unit := do
  access (FileSystem.write (← get).world path text) (.writeFailed path)

/-- Reads a source. -/
def readSource (src : Bytes) : Action W (Except SyntaxError (List Value)) :=
  modifyGet fun s => (s.parse src).swap

end Action

end StackScript
