import StackScript.Session.Perform
set_option autoImplicit false

/-!
# Running programs

A program is a list of values, walked from left to right.  `exec` bounds how deep
lists run inside lists: it recurs on the levels that are left below the limit, so a
run ends unless a loop goes on, and a loop is given a number of rounds.  The session
counts the lists being run; a halt leaves that count where it was, and the next call
starts it over.

`Session.run` and `Session.eval` are the two ways in.  What follows from a halt is
settled there, once: output is flushed, a fatal condition is stamped with the
current line and dumped, and the session stays as the halt left it.
-/

namespace StackScript

open StackScript.Action

variable {W : Type}

/-! ## Evaluation -/

/-- Evaluates one element of a list.  A text that is shaped like a symbol is put
on the stack as it is, one that is shaped like a number as that number, and any
other must name an instruction.  Everything else is put on the stack. -/
def step [FileSystem W] (run : Runner W) (rounds : Nat) : Value → Action W Unit
  | .text s =>
    if s.head?.any startsSymbol then push (.text s)
    else if startsNumber s then push (.number (Double.ofLeading s))
    else
      match Instruction.ofName? s with
      | none => fail (.unknownOperation s)
      | some i => do
        note .trace fun _ => ascii "op " ++ i.name
        i.perform run rounds
  | v => push v

/-- Evaluates values from left to right, stopping where the run is
interrupted. -/
def walk (act : Value → Action W Unit) : List Value → Action W Unit
  | [] => pure ()
  | v :: rest => do
    checkpoint
    act v
    walk act rest

/-- Runs a program with `levels` levels left for it and the lists inside it. -/
def exec [FileSystem W] (rounds : Nat) : (levels : Nat) → Runner W
  | 0 => fun _ => do fail (.tooDeep (← get).depth)
  | levels + 1 => fun prog => do
    descend
    walk (step (exec rounds levels) rounds) prog
    ascend

/-! ## Settling a run -/

/-- How a call of a session ended. -/
inductive Outcome where
  | done
  /-- the program asked to leave -/
  | exit
  /-- a fatal condition -/
  | fault (report : Report)
  /-- the run was stopped from outside -/
  | interrupted (reason : Interrupt)
  /-- the host of the session crashed -/
  | crashed (message : Bytes)
  /-- a loop went on for longer than it was given -/
  | exhausted
  deriving Inhabited

namespace Outcome

/-- Whether a call ended by the program's own wish to leave. -/
def isExit : Outcome → Bool
  | .exit => true
  | _ => false

/-- What there is to say of a call that did not simply end. -/
def message? : Outcome → Option Bytes
  | .done => none
  | .exit => some (ascii "exit")
  | .fault report => some report.text
  | .interrupted reason => some reason.message
  | .crashed message => some (ascii "psil panicked: " ++ message)
  | .exhausted => some (ascii "exhausted")

/-- The text of the halt that leads to an outcome. -/
def haltText (outcome : Outcome) : Bytes :=
  match outcome.message? with
  | none => ascii "halted"
  | some message => ascii "halted: " ++ message

end Outcome

namespace Session

/-- Flushes the output, whatever comes of it. -/
def flushAnyway (s : Session W) : Session W := { s with output := s.output.flush.1 }

/-- Writes what is told of a fatal condition, and a dump, to the diagnostics. -/
def reportFault (s : Session W) (report : Report) : Session W :=
  s.diagnose (ascii "DIE: " ++ report.text ++ ascii "\n" ++ s.dump)

/-- What follows from a fatal condition that shows on line `line`. -/
def settleFault (s : Session W) (cause : Cause) (line : Int) : Session W × Outcome :=
  let s := s.flushAnyway
  let report := cause.report line
  (s.reportFault report, .fault report)

/-- What follows from a halt.  After a crash of the host nothing more is tried. -/
def settle (s : Session W) : Halt → Session W × Outcome
  | .fault cause => s.settleFault cause s.line
  | .exit => (s.flushAnyway.noteAt .info fun _ => ascii "exit", .exit)
  | .interrupted reason => (s.flushAnyway, .interrupted reason)
  | .crashed message => (s, .crashed message)
  | .exhausted => (s, .exhausted)

/-- What follows from a fatal condition shows in the journal, and in that the output is
flushed. -/
theorem exists_settleFault (s : Session W) (cause : Cause) (line : Int) :
    ∃ journal, (s.settleFault cause line).1 = { s.flushAnyway with journal := journal } :=
  s.flushAnyway.exists_diagnose _

/-- What follows from a halt shows in the journal, and in that the output may be
flushed. -/
theorem exists_settle (s : Session W) (halt : Halt) :
    ∃ output journal, (output = s.output ∨ output = s.output.flush.1) ∧
      (s.settle halt).1 = { s with output := output, journal := journal } := by
  cases halt with
  | fault cause =>
    obtain ⟨journal, hsettled⟩ := s.exists_settleFault cause s.line
    exact ⟨s.output.flush.1, journal, .inr rfl, hsettled⟩
  | exit =>
    obtain ⟨journal, hnote⟩ := s.flushAnyway.exists_noteAt .info fun _ => ascii "exit"
    exact ⟨s.output.flush.1, journal, .inr rfl, hnote⟩
  | interrupted reason => exact ⟨s.output.flush.1, s.journal, .inr rfl, rfl⟩
  | crashed message => exact ⟨s.output, s.journal, .inl rfl, rfl⟩
  | exhausted => exact ⟨s.output, s.journal, .inl rfl, rfl⟩

/-- The session with no list being run. -/
def atRest (s : Session W) : Session W := { s with depth := 0 }

/-- Runs a program in a session and flushes the output after it. -/
def runAction [FileSystem W] (rounds : Nat) (prog : List Value) : Action W Unit := do
  modify atRest
  exec rounds (← get).limit prog
  flush

/-- Runs a program.  The current line stays what it was until the program changes
it. -/
def run [FileSystem W] (s : Session W) (rounds : Nat) (prog : List Value) : Session W × Outcome :=
  match runAction rounds prog s with
  | .ok _ s => (s, .done)
  | .error halt s => s.settle halt

/-- Reads a source and runs it, counting lines from one.  A source that cannot be
read is a fatal condition on the line where the reader stopped. -/
def eval [FileSystem W] (s : Session W) (rounds : Nat) (src : Bytes) : Session W × Outcome :=
  match { s.atRest with line := 1 }.parse src with
  | (s, .ok prog) => s.run rounds prog
  | (s, .error error) => s.settleFault (.unreadable error.problem) error.line

end Session

end StackScript
