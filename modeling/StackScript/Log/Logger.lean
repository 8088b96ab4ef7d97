import StackScript.Output.Buffer
import StackScript.Log.Note
set_option autoImplicit false

/-!
# The leveled logger

A logger writes one line a message to its output: the level, the message, and a
newline unless one is already last.  What the output does not take stays pending
and goes out before the next message.  Trouble leaves a mark in the exit code.
-/

namespace StackScript

/-- A message with its placeholders filled in: each of `%v`, `%s` and `%d` takes
the next argument, and `%%` is a percent sign.  A message without arguments is
left as it is. -/
def fillIn : (message : Bytes) → (args : List Bytes) → Bytes
  | [], _ => []
  | [b], _ => [b]
  | 37 :: 37 :: rest, args => 37 :: fillIn rest args
  | 37 :: verb :: rest, args =>
    match args with
    | arg :: args => arg ++ fillIn rest args
    | [] => 37 :: verb :: fillIn rest []
  | b :: c :: rest, args => b :: fillIn (c :: rest) args

/-- The text of a message with its arguments. -/
def messageText (message : Bytes) (args : List Bytes) : Bytes :=
  if args.isEmpty then message else fillIn message args

/-- A text with a newline at its end, unless it is empty or has one. -/
def terminated (text : Bytes) : Bytes :=
  match text.getLast? with
  | none => []
  | some b => if b = newline then text else text ++ [newline]

/-- The line of a message at a level, as yet without a newline. -/
def lineText (level message : Bytes) : Bytes :=
  (if level.isEmpty then [] else level ++ ascii ": ") ++ message

/-- A leveled logger.  Its output is a sink, if nothing else is said. -/
structure Logger (ω : Type := Sink) where
  output : Option ω
  /-- what was logged and not taken by the output -/
  pending : Bytes
  exitCode : Nat
  deriving DecidableEq, Repr, Inhabited

namespace Logger

variable {ω : Type}

/-- A logger without output. -/
def new (ω : Type := Sink) : Logger ω := ⟨none, [], 0⟩

/-- The same logger with another output. -/
def withOutput (log : Logger ω) (output : Option ω) : Logger ω := { log with output := output }

variable [Receiver ω]

/-- Writes the line of a message, and says whether that went well.  Without an
output the line is dropped, with everything pending. -/
def emit (log : Logger ω) (level message : Bytes) : Logger ω × Bool :=
  let text := terminated (log.pending ++ lineText level message)
  match log.output with
  | none => ({ log with pending := [] }, true)
  | some output =>
    if text.isEmpty then ({ log with pending := [] }, true)
    else
      match Receiver.write output text with
      | (output, ⟨_, none⟩) => ({ log with output := some output, pending := [] }, true)
      | (output, ⟨count, some _⟩) =>
        ({ log with output := some output, pending := text.drop count }, false)

/-- Logs a message at a level.  A failing output makes the exit code two. -/
def print (log : Logger ω) (level message : Bytes) : Logger ω :=
  match log.emit level message with
  | (log, true) => log
  | (log, false) => { log with exitCode := 2 }

/-- Logs an error, which makes the exit code one. -/
def error (log : Logger ω) (message : Bytes) : Logger ω :=
  { (log.emit (ascii "ERROR") message).1 with exitCode := 1 }

end Logger

/-- The line of a note on a stream of lines. -/
def Note.logged (note : Note) : Bytes := terminated (lineText note.level.name note.body)

end StackScript
