import StackScript.Proofs.Observation
import StackScript.Proofs.Invariants
set_option autoImplicit false

/-!
# The chronicle of a call

What a call does, element by element, is observed by a call over chronicled files: what is seen
is every evaluation that was begun, with the session in which it was begun, and which of them
have not ended.

An invariant of chronicled sessions holds after a whole run if every element maintains it,
and no element is begun once the run is interrupted.
-/

namespace StackScript

open StackScript.Action (Leads Maintains Runner)

/-- The evaluation of an element, as it is begun in a session. -/
structure Beginning (W : Type) where
  session : Session W
  element : Value

/-- What was seen of a call. -/
structure Chronicle (W : Type) where
  /-- the evaluations begun, latest first -/
  begun : List (Beginning W)
  /-- those of them that have not ended, innermost first -/
  active : List (Beginning W)

/-- Files with a chronicle of the call that accesses them. -/
abbrev Chronicled (W : Type) := Observed (Chronicle W) W

namespace Session

variable {W : Type}

/-- The same session over chronicled files, before anything was begun. -/
def chronicled (s : Session W) : Session (Chronicled W) := s.observed ⟨[], []⟩

/-- The session when the evaluation of an element begins. -/
def begins (s : Session (Chronicled W)) (v : Value) : Session (Chronicled W) :=
  s.seeing ⟨⟨s.unobserved, v⟩ :: s.world.seen.begun, ⟨s.unobserved, v⟩ :: s.world.seen.active⟩

/-- The session when the evaluation begun last has ended. -/
def concludes (s : Session (Chronicled W)) : Session (Chronicled W) :=
  s.seeing { s.world.seen with active := s.world.seen.active.tail }

end Session

section Calls

variable {W : Type} [FileSystem W]

/-- Evaluates one element as `step` does, keeping a chronicle. -/
def chronicledStep (rounds : Nat) (run : Runner (Chronicled W)) (v : Value) :
    Action (Chronicled W) Unit := do
  modify fun s => s.begins v
  step run rounds v
  modify Session.concludes

/-- Runs a program as `exec` does, keeping a chronicle. -/
def chronicledExec (rounds levels : Nat) : Runner (Chronicled W) :=
  execBy (chronicledStep rounds) levels

/-- Keeping a chronicle makes no difference to the run. -/
theorem unobtrusive_chronicledExec : Unobtrusive (chronicledExec (W := W)) := by
  refine unobtrusive_execBy fun hrun rounds v => ?_
  have hbegin : (SettingLink.unobserved (Chronicle W) W).link.Sim
      (modify fun s => s.begins v) (pure ()) := sim_seeing _
  have hconclude : (SettingLink.unobserved (Chronicle W) W).link.Sim
      (modify Session.concludes) (pure ()) := sim_seeing _
  exact hbegin.bind fun _ => (Link.sim_step hrun rounds v).bind_left hconclude

namespace Session

/-- The evaluations that a call begins, latest first. -/
def begunBy (s : Session W) (c : Call) : List (Beginning W) :=
  (s.chronicled.callBy chronicledExec c).1.world.seen.begun

/-- The evaluations that a call leaves without an end, innermost first. -/
def activeAfter (s : Session W) (c : Call) : List (Beginning W) :=
  (s.chronicled.callBy chronicledExec c).1.world.seen.active

/-- A call that keeps a chronicle ends as it does without. -/
theorem call_unchronicled (s : Session W) (c : Call) :
    s.call c = ((s.chronicled.callBy chronicledExec c).1.unobserved,
      (s.chronicled.callBy chronicledExec c).2) :=
  unobtrusive_chronicledExec.call s.chronicled c

end Session

end Calls

/-! ## What whole runs maintain -/

section Maintained

variable {W : Type}

/-- A walk over a list maintains what each of its elements maintains in a live run. -/
theorem Action.Leads.walk {I : Session W → Prop} {E : Halt → Session W → Prop}
    (hstops : ∀ reason s, I s → s.interrupt = some reason → E (.interrupted reason) s)
    {act : Value → Action W Unit}
    (hact : ∀ v, Leads (fun s => I s ∧ s.interrupt = none) I E (act v)) (prog : List Value) :
    Maintains I E (walk act prog) := by
  induction prog with
  | nil => exact .pure ()
  | cons v rest ih => exact (Leads.checkpoint_live hstops).bind fun _ => (hact v).bind fun _ => ih

variable [FileSystem W]

/-- So does running a list, if the invariant does not speak of how many are being run. -/
theorem Action.Leads.chronicledExec {I : Session (Chronicled W) → Prop}
    {E : Halt → Session (Chronicled W) → Prop}
    (hstops : ∀ reason s, I s → s.interrupt = some reason → E (.interrupted reason) s)
    (hdepth : ∀ {s}, I s → ∀ depth, I { s with depth := depth }) {rounds levels : Nat}
    (hact : ∀ v, Leads (fun s => I s ∧ s.interrupt = none) I E
      (chronicledStep rounds (chronicledExec rounds levels) v)) (prog : List Value) :
    Maintains I E (StackScript.chronicledExec rounds (levels + 1) prog) := by
  have hdescend : Maintains I E Action.descend := .modify fun _ hs => hdepth hs _
  have hascend : Maintains I E Action.ascend := .modify fun _ hs => hdepth hs _
  exact hdescend.bind fun _ => (Leads.walk hstops hact prog).bind fun _ => hascend

/-- Running a list maintains each of some invariants if elements maintain each of them in a
live run, given that the lists do which they run. -/
theorem maintains_chronicledExec {ι : Type} {I : ι → Session (Chronicled W) → Prop}
    {E : Halt → Session (Chronicled W) → Prop} (hI : ∀ a, OffStack (I a) E)
    (hdepth : ∀ {a s}, I a s → ∀ depth, I a { s with depth := depth }) (rounds : Nat)
    (hact : ∀ {run}, (∀ a prog, Maintains (I a) E (run prog)) → ∀ a v,
      Leads (fun s => I a s ∧ s.interrupt = none) (I a) E (chronicledStep rounds run v))
    (levels : Nat) : ∀ a prog, Maintains (I a) E (chronicledExec rounds levels prog) := by
  induction levels with
  | zero => exact fun a _ => Leads.get fun _ => (hI a).maintains_throw rfl
  | succ levels ih =>
    intro a prog
    exact Leads.chronicledExec (fun reason _ hs => (hI a).stops hs reason) hdepth (hact ih a) prog

end Maintained

end StackScript
