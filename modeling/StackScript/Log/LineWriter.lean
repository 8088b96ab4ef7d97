import StackScript.Bytes
set_option autoImplicit false

/-!
# Logging what is written, line by line

A line writer turns a stream of writes into messages: each complete line is one
message with a fixed label in front.  A line that is not complete waits for the
rest of it, or for the end.
-/

namespace StackScript

/-- A writer that logs each line. -/
structure LineWriter where
  /-- what stands in front of every line -/
  label : Bytes
  /-- the line begun and not finished -/
  unfinished : Bytes
  deriving DecidableEq, Repr, Inhabited

namespace LineWriter

/-- A line writer that has been given nothing. -/
def new (label : Bytes) : LineWriter := ⟨label, []⟩

/-- The complete lines of a text, without their newlines, and what follows the
last newline. -/
def cut : Bytes → List Bytes × Bytes
  | [] => ([], [])
  | b :: rest =>
    let (lines, last) := cut rest
    if b = newline then ([] :: lines, last)
    else
      match lines with
      | [] => ([], b :: last)
      | line :: lines => ((b :: line) :: lines, last)

/-- Writes bytes, and gives the messages for the lines that they complete. -/
def write (w : LineWriter) (p : Bytes) : LineWriter × List Bytes :=
  let (lines, last) := cut (w.unfinished ++ p)
  ({ w with unfinished := last }, lines.map (w.label ++ ·))

/-- Ends the stream: a line begun is logged as it is. -/
def close (w : LineWriter) : LineWriter × List Bytes :=
  if w.unfinished.isEmpty then (w, [])
  else ({ w with unfinished := [] }, [w.label ++ w.unfinished])

end LineWriter

end StackScript
