import StackScript.Proofs.Settings
set_option autoImplicit false

/-!
# Observed runs

What a run does on its way is observed by a run over observed files: they pass every access on,
and keep besides what was seen so far.  What is seen, and when, is up to the way in which
programs are run there.

If each step of that way comes to the step itself once what was seen is left out, then so does
every run, every evaluation of a source and every call.
-/

namespace StackScript

open StackScript.Action (Runner)

/-! ## Calls -/

/-- A call of a session: a program or a source to be run live or interrupted, with a
number of rounds for its loops. -/
inductive Call where
  | run (interrupt : Option Interrupt) (rounds : Nat) (prog : List Value)
  | eval (interrupt : Option Interrupt) (rounds : Nat) (src : Bytes)

/-- How programs are run, given the rounds of their loops and the levels left for lists. -/
abbrev Conduct (W : Type) := (rounds levels : Nat) → Runner W

namespace Session

variable {W : Type}

section By

variable (conduct : Conduct W)

/-- Runs a program by `conduct` and flushes the output after it. -/
def actionBy (rounds : Nat) (prog : List Value) : Action W Unit := do
  modify atRest
  conduct rounds (← get).limit prog
  Action.flush

/-- Runs a program as `run` does, but by `conduct`. -/
def runBy (s : Session W) (rounds : Nat) (prog : List Value) : Session W × Outcome :=
  ofResult (actionBy conduct rounds prog s)

/-- Reads a source and runs it as `eval` does, but by `conduct`. -/
def evalBy (s : Session W) (rounds : Nat) (src : Bytes) : Session W × Outcome :=
  match { s.atRest with line := 1 }.parse src with
  | (s, .ok prog) => s.runBy conduct rounds prog
  | (s, .error error) => s.settleFault (.unreadable error.problem) error.line

/-- Makes a call, in which programs are run by `conduct`. -/
def callBy (s : Session W) : Call → Session W × Outcome
  | .run interrupt rounds prog => (s.under interrupt).runBy conduct rounds prog
  | .eval interrupt rounds src => (s.under interrupt).evalBy conduct rounds src

end By

variable [FileSystem W]

/-- Makes a call. -/
def call (s : Session W) : Call → Session W × Outcome
  | .run interrupt rounds prog => (s.under interrupt).run rounds prog
  | .eval interrupt rounds src => (s.under interrupt).eval rounds src

/-- The session after some calls. -/
def afterCalls (s : Session W) (calls : List Call) : Session W :=
  calls.foldl (fun s c => (s.call c).1) s

theorem runBy_exec (s : Session W) (rounds : Nat) (prog : List Value) :
    s.runBy exec rounds prog = s.run rounds prog := rfl

theorem evalBy_exec (s : Session W) (rounds : Nat) (src : Bytes) :
    s.evalBy exec rounds src = s.eval rounds src := rfl

theorem callBy_exec (s : Session W) (c : Call) : s.callBy exec c = s.call c := by
  cases c with
  | run interrupt rounds prog => exact (s.under interrupt).runBy_exec rounds prog
  | eval interrupt rounds src => exact (s.under interrupt).evalBy_exec rounds src

end Session

/-! ## Observed files -/

/-- Files together with what was seen of the run that accesses them. -/
structure Observed (ν W : Type) where
  world : W
  seen : ν

section Observed

variable {ν W : Type}

/-- The answer of observed files. -/
def Reply.observed {α : Type} (reply : Reply W α) (seen : ν) : Reply (Observed ν W) α :=
  ⟨⟨reply.world, seen⟩, reply.access, reply.effect⟩

/-- Observed files pass every access on. -/
instance [FileSystem W] : FileSystem (Observed ν W) where
  probe w path := (FileSystem.probe w.world path).observed w.seen
  read w path := (FileSystem.read w.world path).observed w.seen
  write w path text := (FileSystem.write w.world path text).observed w.seen
  drain w := (FileSystem.drain w.world).observed w.seen

namespace Session

/-- The same session over observed files. -/
def observed (s : Session W) (seen : ν) : Session (Observed ν W) :=
  { s with world := ⟨s.world, seen⟩ }

/-- The same session over the files themselves. -/
def unobserved (s : Session (Observed ν W)) : Session W := { s with world := s.world.world }

/-- The session once something else was seen. -/
def seeing (s : Session (Observed ν W)) (seen : ν) : Session (Observed ν W) :=
  { s with world := ⟨s.world.world, seen⟩ }

theorem unnoted_unobserved : Unnoted (unobserved : Session (Observed ν W) → Session W) :=
  ⟨fun _ => rfl, fun _ => rfl, fun _ => rfl, fun _ => rfl, fun _ _ => rfl, fun _ _ => rfl⟩

theorem settleFault_unobserved (s : Session (Observed ν W)) (cause : Cause) (line : Int) :
    s.unobserved.settleFault cause line =
      ((s.settleFault cause line).1.unobserved, (s.settleFault cause line).2) := by
  have hdiagnostics : s.unobserved.flushAnyway.diagnostics = s.flushAnyway.diagnostics := rfl
  simp only [settleFault, reportFault, diagnose, hdiagnostics]
  split
  · rfl
  · rfl

end Session

/-! ## What was seen can be left out -/

variable [FileSystem W]

/-- The run without what was seen of it. -/
def SettingLink.unobserved (ν W : Type) [FileSystem W] : SettingLink (Observed ν W) W where
  Holds σ σ' := σ' = ⟨σ.depth, σ.limit, σ.world.world⟩
  Ends _ σ σ' := σ' = ⟨σ.depth, σ.limit, σ.world.world⟩
  Lost _ := False
  Stray _ := False
  ends h _ := h
  read := by rintro σ _ rfl path; exact ⟨rfl, rfl, rfl⟩
  write := by rintro σ _ rfl path text; exact ⟨rfl, rfl, rfl⟩
  stray_read h _ := h
  stray_write h _ _ := h

theorem SettingLink.unobserved_sameDepth : (SettingLink.unobserved ν W).link.SameDepth where
  depth := by rintro s _ ⟨σ, rfl, rfl⟩; rfl
  setDepth := by rintro s _ ⟨σ, rfl, rfl⟩ depth; exact ⟨_, rfl, rfl⟩
  limit := by rintro s _ ⟨σ, rfl, rfl⟩; rfl
  ends := id

/-- To see something leaves the run as it is. -/
theorem sim_seeing (look : Session (Observed ν W) → ν) :
    (SettingLink.unobserved ν W).link.Sim (modify fun s => s.seeing (look s)) (pure ()) := by
  refine ⟨?_, fun h => h⟩
  rintro s _ ⟨σ, rfl, hσ⟩
  exact .ok ⟨σ, rfl, hσ⟩

/-- Programs run by `conduct` as they do anyway, if what was seen is left out. -/
def Unobtrusive (conduct : Conduct (Observed ν W)) : Prop :=
  ∀ rounds levels prog, (SettingLink.unobserved ν W).link.Sim (conduct rounds levels prog)
    (exec rounds levels prog)

/-- It is enough that each element is evaluated as it is anyway. -/
theorem unobtrusive_execBy
    {act : Nat → Runner (Observed ν W) → Value → Action (Observed ν W) Unit}
    (hact : ∀ {run run'}, (∀ prog, (SettingLink.unobserved ν W).link.Sim (run prog) (run' prog)) →
      ∀ rounds v, (SettingLink.unobserved ν W).link.Sim (act rounds run v) (step run' rounds v)) :
    Unobtrusive fun rounds => execBy (act rounds) := by
  intro rounds levels prog
  have hdepth := SettingLink.unobserved_sameDepth (ν := ν) (W := W)
  rw [← execBy_step]
  exact (SettingLink.unobserved ν W).link.congruence.execBy hdepth.sim_descend hdepth.sim_ascend
    hdepth.sim_tooDeep (fun hrun v => hact hrun rounds v) levels prog

namespace Unobtrusive

variable {conduct : Conduct (Observed ν W)}

theorem run (h : Unobtrusive conduct) (s : Session (Observed ν W)) (rounds : Nat)
    (prog : List Value) : s.unobserved.run rounds prog =
      ((s.runBy conduct rounds prog).1.unobserved, (s.runBy conduct rounds prog).2) := by
  have hsim := (h rounds s.limit prog).bind fun _ =>
    Link.sim_flush (ℓ := (SettingLink.unobserved ν W).link)
  have hrel : (SettingLink.unobserved ν W).link.Rel s.atRest s.unobserved.atRest := ⟨_, rfl, rfl⟩
  have hmeets := hsim.meets hrel
  change Link.Meets _ (Session.actionBy conduct rounds prog s)
    (Session.runAction rounds prog s.unobserved) at hmeets
  exact SettingLink.ofResult_of_meets (fun h => h) (fun h => h) (fun _ h => h) (fun _ h => h) hmeets

theorem eval (h : Unobtrusive conduct) (s : Session (Observed ν W)) (rounds : Nat)
    (src : Bytes) : s.unobserved.eval rounds src =
      ((s.evalBy conduct rounds src).1.unobserved, (s.evalBy conduct rounds src).2) := by
  have hparse := Session.unnoted_unobserved.parse { s.atRest with line := 1 } src
  unfold Session.eval Session.evalBy
  rw [show ({ s.unobserved.atRest with line := 1 } : Session W) =
    Session.unobserved { s.atRest with line := 1 } from rfl, hparse]
  rcases ({ s.atRest with line := 1 } : Session (Observed ν W)).parse src with ⟨t, result⟩
  cases result with
  | ok prog => exact h.run t rounds prog
  | error error => exact t.settleFault_unobserved _ _

theorem call (h : Unobtrusive conduct) (s : Session (Observed ν W)) (c : Call) :
    s.unobserved.call c =
      ((s.callBy conduct c).1.unobserved, (s.callBy conduct c).2) := by
  cases c with
  | run interrupt rounds prog => exact h.run (s.under interrupt) rounds prog
  | eval interrupt rounds src => exact h.eval (s.under interrupt) rounds src

end Unobtrusive

end Observed

end StackScript
