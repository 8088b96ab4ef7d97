import StackScript.OutOfRange
set_option autoImplicit false

/-!
# Guarded work

Work that may crash runs behind a guard, which turns however it ends into a plain
error: an error that was returned stays what it was, and a crash or a departure
becomes an error that names the work.  Wrapping such an error in more words hides
nothing of what it was.
-/

namespace StackScript

/-- How a piece of work ends. -/
inductive Ending where
  /-- without an error -/
  | returned
  /-- with an error -/
  | failed (error : Bytes)
  /-- by a crash; `isError` tells whether it was with an error -/
  | crashed (value : Bytes) (isError : Bool)
  /-- by leaving without a result -/
  | departed
  deriving DecidableEq, Repr, Inhabited

/-- The ending of work that asks a sequence of `size` elements for one. -/
def Ending.ofIndex (index : Int) (size : Nat) : Ending :=
  if 0 ≤ index ∧ index < size then .returned
  else .crashed (OutOfRange.message ⟨index, size⟩) true

/-- An error that came out of guarded work. -/
inductive GuardError where
  | failure (error : Bytes)
  | crash (name value : Bytes) (isError : Bool)
  | departure (name : Bytes)
  | wrapped (label : Bytes) (inner : GuardError)
  deriving DecidableEq, Repr, Inhabited

namespace GuardError

/-- The error that an ending of the work `name` comes to, if any. -/
def ofEnding (name : Bytes) : Ending → Option GuardError
  | .returned => none
  | .failed error => some (.failure error)
  | .crashed value isError => some (.crash name value isError)
  | .departed => some (.departure name)

/-- The name of the work in messages. -/
def workName (name : Bytes) : Bytes := if name.isEmpty then ascii "goroutine" else name

/-- The error in words. -/
def message : GuardError → Bytes
  | .failure error => error
  | .crash name value _ => workName name ++ ascii " panicked: " ++ value
  | .departure name => workName name ++ ascii " called runtime.Goexit"
  | .wrapped label inner => label ++ ascii ": " ++ inner.message

/-- Whether the work crashed. -/
def isCrash : GuardError → Bool
  | .crash _ _ _ => true
  | .wrapped _ inner => inner.isCrash
  | _ => false

/-- Whether the work left without a result. -/
def isDeparture : GuardError → Bool
  | .departure _ => true
  | .wrapped _ inner => inner.isDeparture
  | _ => false

/-- Whether a trace of the crash is at hand. -/
def hasTrace (e : GuardError) : Bool := e.isCrash

/-- Whether a detailed message shows the trace; more words around it hide it. -/
def showsTrace : GuardError → Bool
  | .crash _ _ _ => true
  | _ => false

/-- The text of the error underneath. -/
def underlying : GuardError → Option Bytes
  | .crash _ value true => some value
  | .wrapped _ inner => some inner.message
  | _ => none

end GuardError

end StackScript
