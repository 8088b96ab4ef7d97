import StackScript.Proofs.Observation
import StackScript.Proofs.Surroundings
set_option autoImplicit false

/-!
# What programs print

What a program gives out to be printed is observed by a run over recorded files: what is
seen is everything that was given out so far, whether or not the output has taken it.  The
record is made where a value is printed, before the output is touched, so it does not depend
on the output.

Leaving out the record gives the run itself, call by call.  A property that relates the
output to the record holds after every call if printing and flushing keep it.
-/

namespace StackScript

open StackScript.Action (Keeps)

/-! ## Recorded runs -/

/-- Files together with everything that was given out to be printed. -/
abbrev Recorded (W : Type) := Observed Bytes W

section Records

variable {W : Type}

/-- Puts a line on record. -/
def Session.record (s : Session (Recorded W)) (text : Bytes) : Session (Recorded W) :=
  s.seeing (s.world.seen ++ text ++ [newline])

/-- Prints a text and a newline, and keeps a record of them. -/
def Action.printRecorded (text : Bytes) : Action (Recorded W) Unit := do
  modify fun s => s.record text
  Action.print text

variable [FileSystem W]

/-- Runs a program as `exec` does, keeping a record of what it prints. -/
def recordedExec : Conduct (Recorded W) := execWith Action.printRecorded

/-- Keeping a record makes no difference to the run. -/
theorem unobtrusive_recordedExec : Unobtrusive (recordedExec (W := W)) := by
  have hprint (text : Bytes) : (SettingLink.unobserved Bytes W).link.Sim
      (Action.printRecorded text) (Action.print text) :=
    (sim_seeing fun s => s.world.seen ++ text ++ [newline]).bind fun _ => Link.sim_print text
  intro rounds levels prog
  rw [← execWith_print]
  exact SettingLink.unobserved_sameDepth.sim_execWith hprint rounds levels prog

namespace Session

/-- The same session over recorded files, before anything was printed. -/
def recorded (s : Session W) : Session (Recorded W) := s.observed []

/-- The session after some calls, with the record of what they printed. -/
def recordedCalls (s : Session W) (calls : List Call) : Session (Recorded W) :=
  calls.foldl (fun s c => (s.callBy recordedExec c).1) s.recorded

/-- Everything that some calls gave out to be printed. -/
def printedBy (s : Session W) (calls : List Call) : Bytes := (s.recordedCalls calls).world.seen

theorem recordedCalls_append (s : Session W) (calls : List Call) (c : Call) :
    s.recordedCalls (calls ++ [c]) = ((s.recordedCalls calls).callBy recordedExec c).1 := by
  simp only [recordedCalls, List.foldl_append, List.foldl_cons, List.foldl_nil]

theorem unobserved_recordedCalls (s : Session W) (calls : List Call) :
    (s.recordedCalls calls).unobserved = s.afterCalls calls := by
  have hfold : ∀ t : Session (Recorded W),
      (calls.foldl (fun t c => (t.callBy recordedExec c).1) t).unobserved =
        calls.foldl (fun t c => (t.call c).1) t.unobserved := by
    induction calls with
    | nil => exact fun _ => rfl
    | cons c rest ih =>
      intro t
      simp only [List.foldl_cons]
      rw [ih, unobtrusive_recordedExec.call t]
  exact hfold s.recorded

end Session

end Records

/-! ## Outputs and records -/

/-- A relation between an output and what was given out to be printed, which printing and
flushing keep. -/
structure Output.Follows (J : Output → Bytes → Prop) : Prop where
  writeLine : ∀ {out printed}, J out printed → ∀ text,
    J (out.writeLine text).1 (printed ++ text ++ [newline])
  flush : ∀ {out printed}, J out printed → J out.flush.1 printed

/-- How a call leaves the output that its program left: it flushes it, and without a
failure if it reports none, but for calls that are cut short. -/
def Outcome.Closes (J : Output → Bytes → Prop) (last : Output) (printed : Bytes) :
    Outcome → Prop
  | .done => ∃ out, J out printed ∧ out.flush = (last, none)
  | .crashed _ => J last printed
  | .exhausted => J last printed
  | _ => ∃ out, J out printed ∧ out.flush.1 = last

namespace Output.Follows

variable {W : Type} {J : Output → Bytes → Prop} (hJ : Output.Follows J)
include hJ

theorem of_closes {last : Output} {printed : Bytes} {outcome : Outcome}
    (h : outcome.Closes J last printed) : J last printed := by
  cases outcome with
  | done =>
    obtain ⟨out, hout, hflush⟩ := h
    have hlast := hJ.flush hout
    rwa [hflush] at hlast
  | crashed message => exact h
  | exhausted => exact h
  | exit =>
    obtain ⟨out, hout, rfl⟩ := h
    exact hJ.flush hout
  | fault report =>
    obtain ⟨out, hout, rfl⟩ := h
    exact hJ.flush hout
  | interrupted reason =>
    obtain ⟨out, hout, rfl⟩ := h
    exact hJ.flush hout

omit hJ in
theorem closes_settleFault {t : Session (Recorded W)} (h : J t.output t.world.seen)
    (cause : Cause) (line : Int) :
    (t.settleFault cause line).2.Closes J (t.settleFault cause line).1.output
      (t.settleFault cause line).1.world.seen := by
  have hsame : (t.settleFault cause line).1.surroundings = t.flushAnyway.surroundings := by
    simp only [Session.settleFault, Session.reportFault, Session.diagnose]
    split
    · rfl
    · rfl
  have hworld : (t.settleFault cause line).1.world.seen = t.world.seen :=
    congrArg (·.world.seen) hsame
  refine ⟨t.output, ?_, (congrArg Surroundings.output hsame).symm⟩
  rw [hworld]
  exact h

omit hJ in
theorem closes_settle {t : Session (Recorded W)} (h : J t.output t.world.seen) (halt : Halt) :
    (t.settle halt).2.Closes J (t.settle halt).1.output (t.settle halt).1.world.seen := by
  cases halt with
  | fault cause => exact closes_settleFault h cause t.line
  | exit =>
    have hsame := t.flushAnyway.surroundings_noteAt .info fun _ => ascii "exit"
    have hworld : (t.settle .exit).1.world.seen = t.world.seen :=
      congrArg (·.world.seen) hsame
    refine ⟨t.output, ?_, (congrArg Surroundings.output hsame).symm⟩
    rw [hworld]
    exact h
  | interrupted reason => exact ⟨t.output, h, rfl⟩
  | crashed message => exact h
  | exhausted => exact h

omit hJ in
/-- Accesses to files touch neither the output nor the record. -/
theorem steady [FileSystem W] :
    Steady (fun σ : Surroundings (Recorded W) => J σ.output σ.world.seen)
      (fun _ σ => J σ.output σ.world.seen) where
  halts h _ := h
  read h _ := h
  write h _ _ := h
  readCrashed h _ := h
  writeCrashed h _ := h

theorem keeps_printRecorded (text : Bytes) :
    Keeps (fun σ : Surroundings (Recorded W) => J σ.output σ.world.seen)
      (fun _ σ => J σ.output σ.world.seen) (Action.printRecorded text) := by
  -- between the record and the output the relation does not hold, so both are one step here
  have hstep {s : Session (Recorded W)} (hs : J s.output s.world.seen) :
      J (s.output.writeLine text).1 (s.record text).world.seen := hJ.writeLine hs text
  have hprint (s : Session (Recorded W)) :
      Action.printRecorded text s = Action.print text (s.record text) := rfl
  refine ⟨?_, ?_⟩
  · intro s t a hs h
    have hwritten := hstep hs
    rw [hprint] at h
    rcases hwrite : (s.record text).output.writeLine text with ⟨output, error⟩
    rw [show s.output.writeLine text = (output, error) from hwrite] at hwritten
    cases error with
    | none =>
      rw [Action.print_of_none hwrite] at h
      cases h
      exact hwritten
    | some error =>
      rw [Action.print_of_some hwrite] at h
      cases h
  · intro s t halt hs h
    have hwritten := hstep hs
    rw [hprint] at h
    rcases hwrite : (s.record text).output.writeLine text with ⟨output, error⟩
    rw [show s.output.writeLine text = (output, error) from hwrite] at hwritten
    cases error with
    | none =>
      rw [Action.print_of_none hwrite] at h
      cases h
    | some error =>
      rw [Action.print_of_some hwrite] at h
      cases h
      exact hwritten

variable [FileSystem W]

theorem closes_recordedRun {s : Session (Recorded W)} (h : J s.output s.world.seen)
    (rounds : Nat) (prog : List Value) :
    (s.runBy recordedExec rounds prog).2.Closes J (s.runBy recordedExec rounds prog).1.output
      (s.runBy recordedExec rounds prog).1.world.seen := by
  have hkeeps : Keeps (fun σ : Surroundings (Recorded W) => J σ.output σ.world.seen)
      (fun _ σ => J σ.output σ.world.seen)
      (recordedExec rounds s.limit prog) :=
    steady.keeps_execWith hJ.keeps_printRecorded (fun _ _ hσ => hσ) (fun _ hσ => hσ)
      (fun _ hσ => hσ) s.limit prog
  have hrest : J s.atRest.surroundings.output s.atRest.surroundings.world.seen := h
  have haction : Session.actionBy recordedExec rounds prog s =
      (recordedExec rounds s.limit prog >>= fun _ => Action.flush) s.atRest := rfl
  unfold Session.runBy
  rw [haction]
  cases hexec : recordedExec rounds s.limit prog s.atRest with
  | error halt t =>
    rw [Action.bind_of_error hexec]
    exact closes_settle (hkeeps.error hrest hexec) halt
  | ok _ t =>
    have ht : J t.output t.world.seen := hkeeps.ok hrest hexec
    rw [Action.bind_of_ok hexec]
    rcases hflush : t.output.flush with ⟨output, error⟩
    cases error with
    | none =>
      rw [Action.flush_of_none hflush]
      exact ⟨t.output, ht, hflush⟩
    | some error =>
      have hflushed := hJ.flush ht
      rw [hflush] at hflushed
      rw [Action.flush_of_some hflush]
      exact closes_settle (t := { t with output := output }) hflushed (Action.flushHalt error)

theorem closes_recordedCall {s : Session (Recorded W)} (h : J s.output s.world.seen)
    (c : Call) :
    (s.callBy recordedExec c).2.Closes J (s.callBy recordedExec c).1.output
      (s.callBy recordedExec c).1.world.seen := by
  cases c with
  | run interrupt rounds prog =>
    exact hJ.closes_recordedRun (s := s.under interrupt) h rounds prog
  | eval interrupt rounds src =>
    have hsame := ({ (s.under interrupt).atRest with line := 1 } :
      Session (Recorded W)).surroundings_parse src
    simp only [Session.callBy, Session.evalBy]
    rcases hparse : ({ (s.under interrupt).atRest with line := 1 } :
      Session (Recorded W)).parse src with ⟨t, result⟩
    rw [hparse] at hsame
    have ht : J t.output t.world.seen := by
      change J t.surroundings.output t.surroundings.world.seen
      rw [hsame]
      exact h
    cases result with
    | ok prog => exact hJ.closes_recordedRun ht rounds prog
    | error error => exact closes_settleFault ht _ _

/-- After any calls the output follows the record. -/
theorem recordedCalls {s : Session W} (h : J s.output []) (calls : List Call) :
    J (s.recordedCalls calls).output (s.printedBy calls) := by
  have hfold : ∀ t : Session (Recorded W), J t.output t.world.seen →
      J (calls.foldl (fun t c => (t.callBy recordedExec c).1) t).output
        (calls.foldl (fun t c => (t.callBy recordedExec c).1) t).world.seen := by
    induction calls with
    | nil => exact fun _ ht => ht
    | cons c rest ih => exact fun t ht => ih _ (hJ.of_closes (hJ.closes_recordedCall ht c))
  exact hfold s.recorded h

/-- What the last of some calls makes of the output. -/
theorem closes_call {s : Session W} (h : J s.output []) (calls : List Call) (c : Call) :
    ((s.afterCalls calls).call c).2.Closes J ((s.afterCalls calls).call c).1.output
      (s.printedBy (calls ++ [c])) := by
  have hlast := hJ.closes_recordedCall (hJ.recordedCalls h calls) c
  rw [← s.unobserved_recordedCalls, unobtrusive_recordedExec.call, Session.printedBy,
    Session.recordedCalls_append]
  exact hlast

end Output.Follows

end StackScript
