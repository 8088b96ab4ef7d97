import StackScript.Session.Run
import StackScript.Text.Blank
set_option autoImplicit false

/-!
# The read-eval loop

An interactive session reads one entry at a time and evaluates it.  An entry goes
on over more lines while it has unclosed parentheses, and an aborted prompt drops
what was entered so far.  A fatal condition is dumped as anywhere else, but the
loop goes on with whatever state it left.
-/

namespace StackScript

/-- What a prompt gives. -/
inductive Answer where
  | line (text : Bytes)
  /-- the user dropped the entry -/
  | aborted
  /-- the prompt failed -/
  | failed (error : Bytes)
  deriving DecidableEq, Repr, Inhabited

/-- A read-eval loop at the point where it shows a prompt. -/
structure Loop (W : Type) where
  session : Session W
  /-- the lines of the entry so far -/
  entry : Bytes
  /-- the entries evaluated, in order -/
  history : List Bytes

/-- Why a loop ended. -/
inductive LoopEnd where
  /-- the input ended, or the program asked to leave -/
  | finished
  /-- the prompt failed -/
  | promptFailed (error : Bytes)
  /-- an entry ended in a way that is no fatal condition of the language -/
  | stopped (outcome : Outcome)
  deriving Inhabited

namespace Loop

variable {W : Type}

/-- A loop that has read nothing. -/
def start (s : Session W) : Loop W := ⟨s, [], []⟩

/-- The prompt shown: another one while an entry goes on. -/
def prompt (loop : Loop W) : Bytes :=
  if loop.entry.isEmpty then ascii "psil> " else ascii "  ... "

/-- The entry with one more line. -/
def extended (loop : Loop W) (line : Bytes) : Bytes :=
  if loop.entry.isEmpty then line else loop.entry ++ [newline] ++ line

/-- Whether an entry is only the beginning of one. -/
def isUnfinished (entry : Bytes) : Bool := isUnclosed (Reader.start.parse entry).2

/-- The loop after evaluating an entry, and its end if that ended it. -/
def evaluate [FileSystem W] (loop : Loop W) (rounds : Nat) (entry : Bytes) :
    Loop W × Option LoopEnd :=
  let (session, outcome) := loop.session.eval rounds entry
  let loop : Loop W := ⟨session, [], loop.history ++ [entry]⟩
  match outcome with
  | .done => (loop, none)
  | .fault _ => (loop, none)
  | .exit => (loop, some .finished)
  | other => (loop, some (.stopped other))

/-- The loop after one answer to its prompt, and its end if that ended it. -/
def feed [FileSystem W] (loop : Loop W) (rounds : Nat) : Answer → Loop W × Option LoopEnd
  | .aborted => ({ loop with entry := [] }, none)
  | .failed error => (loop, some (.promptFailed error))
  | .line text =>
    let entry := loop.extended text
    if Text.isAllBlank entry then ({ loop with entry := [] }, none)
    else if isUnfinished entry then ({ loop with entry := entry }, none)
    else loop.evaluate rounds entry

/-- A whole run of a loop. -/
structure Transcript (W : Type) where
  loop : Loop W
  ending : LoopEnd
  /-- the prompts shown, in order -/
  prompts : List Bytes
  /-- the answers that were never asked for -/
  unread : List Answer

/-- Runs a loop on answers, after which the input ends. -/
def run [FileSystem W] (loop : Loop W) (rounds : Nat) : List Answer → Transcript W
  | [] => ⟨loop, .finished, [loop.prompt], []⟩
  | answer :: rest =>
    match loop.feed rounds answer with
    | (next, some ending) => ⟨next, ending, [loop.prompt], rest⟩
    | (next, none) =>
      let transcript := next.run rounds rest
      { transcript with prompts := loop.prompt :: transcript.prompts }

end Loop

end StackScript
