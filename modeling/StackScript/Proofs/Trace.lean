import StackScript.Proofs.Observation
set_option autoImplicit false

/-!
# What runs evaluate

Which elements a run evaluates is observed by a run over traced files: what is seen is every
element whose evaluation was begun, with the number of lists that were being run then.
-/

namespace StackScript

open StackScript.Action (Runner)

/-- An element whose evaluation was begun while so many lists were being run. -/
structure Start where
  depth : Nat
  element : Value

/-- Files with a trace of the elements begun by the run that accesses them, latest first. -/
abbrev Traced (W : Type) := Observed (List Start) W

namespace Session

variable {W : Type}

/-- The same session over traced files, before anything was begun. -/
def traced (s : Session W) : Session (Traced W) := s.observed []

/-- The elements begun in a session, latest first. -/
def starts (s : Session (Traced W)) : List Start := s.world.seen

/-- The session when the evaluation of an element begins. -/
def begun (s : Session (Traced W)) (v : Value) : Session (Traced W) :=
  s.seeing (⟨s.depth, v⟩ :: s.starts)

end Session

variable {W : Type} [FileSystem W]

/-- Evaluates one element as `step` does, keeping a trace. -/
def tracedStep (rounds : Nat) (run : Runner (Traced W)) (v : Value) : Action (Traced W) Unit := do
  modify fun s => s.begun v
  step run rounds v

/-- Runs a program as `exec` does, keeping a trace. -/
def tracedExec (rounds levels : Nat) : Runner (Traced W) := execBy (tracedStep rounds) levels

/-- Keeping a trace makes no difference to the run. -/
theorem unobtrusive_tracedExec : Unobtrusive (tracedExec (W := W)) := by
  refine unobtrusive_execBy fun hrun rounds v => ?_
  have hbegin : (SettingLink.unobserved (List Start) W).link.Sim
      (modify fun s => s.begun v) (pure ()) := sim_seeing _
  exact hbegin.bind fun _ => Link.sim_step hrun rounds v

/-- The elements that evaluating a source begins, latest first. -/
def Session.startsOf (s : Session W) (rounds : Nat) (src : Bytes) : List Start :=
  (s.traced.evalBy tracedExec rounds src).1.starts

end StackScript
