import StackScript.Bytes
set_option autoImplicit false

/-!
# Notes

What the reader and the evaluator report while they work: a message with the
source line it concerns, at one of three levels.  Each level can be listened to
or not; what is not listened to leaves no note.
-/

namespace StackScript

/-- How detailed a note is. -/
inductive Level where
  | trace
  | debug
  | info
  deriving DecidableEq, Repr, Inhabited

/-- The name of a level. -/
def Level.name : Level → Bytes
  | .trace => ascii "trace"
  | .debug => ascii "debug"
  | .info => ascii "info"

/-- Which levels are listened to. -/
structure Listening where
  trace : Bool := false
  debug : Bool := false
  info : Bool := false
  deriving DecidableEq, Repr, Inhabited

namespace Listening

/-- Whether a level is listened to. -/
def hears (on : Listening) : Level → Bool
  | .trace => on.trace
  | .debug => on.debug
  | .info => on.info

/-- Whether any level is listened to. -/
def any (on : Listening) : Bool := on.trace || on.debug || on.info

/-- Listening to one more level. -/
def also (on : Listening) : Level → Listening
  | .trace => { on with trace := true }
  | .debug => { on with debug := true }
  | .info => { on with info := true }

end Listening

/-- One report. -/
structure Note where
  level : Level
  line : Int
  message : Bytes
  deriving DecidableEq, Repr, Inhabited

namespace Note

/-- What a listener is told: the line and the message. -/
def body (note : Note) : Bytes := Bytes.ofInt note.line ++ ascii " " ++ note.message

/-- A note with its level in front. -/
def text (note : Note) : Bytes := note.level.name ++ ascii ": " ++ note.body

end Note

end StackScript
