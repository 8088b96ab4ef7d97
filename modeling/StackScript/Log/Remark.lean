import StackScript.Fault
set_option autoImplicit false

/-!
# Remarks

What the command itself has to say while it works, of each kind with what it is
about.  A remark has its words and an urgency.  How it looks as a line of the process
log is left to whoever writes that log.
-/

namespace StackScript

/-- How urgent a remark is. -/
inductive Urgency where
  | error
  | info
  /-- of interest only where remarks are asked for -/
  | trace
  deriving DecidableEq, Repr, Inhabited

/-- A remark of the command. -/
inductive Remark where
  /-- remarks are asked for from now on; the log notes that by itself -/
  | asked
  /-- a source is evaluated next -/
  | running (source : Bytes)
  /-- the work of the command has failed -/
  | failed (message : Bytes)
  /-- it is done -/
  | done
  /-- the files to check could not all be read -/
  | checkFailed (message : Bytes)
  /-- the text of a file is no source -/
  | refused (name : Bytes) (error : SyntaxError)
  /-- the text of a file is a source -/
  | passed (name : Bytes)
  deriving DecidableEq, Repr, Inhabited

namespace Remark

/-- How urgent a remark is. -/
def urgency : Remark → Urgency
  | .asked => .info
  | .running _ => .trace
  | .failed _ => .error
  | .done => .info
  | .checkFailed _ => .error
  | .refused _ _ => .error
  | .passed _ => .trace

/-- A remark in words, unless the log has its own. -/
def words? : Remark → Option Bytes
  | .asked => none
  | .running source => some (ascii "running " ++ source)
  | .failed message => some message
  | .done => some (ascii "done")
  | .checkFailed message => some (ascii "check failed: " ++ message)
  | .refused name error => some (name ++ ascii ": " ++ error.report.text)
  | .passed name => some (name ++ ascii ": ok")

end Remark

end StackScript
