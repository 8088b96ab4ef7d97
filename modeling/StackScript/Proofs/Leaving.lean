import StackScript.Proofs.Chronicle
set_option autoImplicit false

/-!
# Programs that leave

A program asks to leave by an instruction, at whatever depth.  The chronicle of a call shows
that it is obeyed at once: a call ends because its program asked to leave exactly if the
instruction was begun, since nothing is begun after it and nothing else leaves.
-/

namespace StackScript

open StackScript.Action (Leads Maintains Runner)

/-- The instruction to leave is begun. -/
def Beginning.Leaves {W : Type} (b : Beginning W) : Prop := b.element.instruction? = some .exit

instance {W : Type} (b : Beginning W) : Decidable b.Leaves :=
  inferInstanceAs (Decidable (b.element.instruction? = some .exit))

namespace Session

variable {W : Type}

/-- The program has not asked to leave. -/
def Stays (s : Session (Chronicled W)) : Prop := ∀ b ∈ s.world.seen.begun, ¬ b.Leaves

/-- The run has halted because the program asked to leave exactly if it did ask. -/
def HaltedByWish (halt : Halt) (s : Session (Chronicled W)) : Prop :=
  halt = .exit ↔ ∃ b ∈ s.world.seen.begun, b.Leaves

theorem Stays.haltedByWish {s : Session (Chronicled W)} (h : s.Stays) {halt : Halt}
    (hhalt : halt ≠ .exit) : s.HaltedByWish halt := by
  refine ⟨fun hexit => absurd hexit hhalt, ?_⟩
  rintro ⟨b, hb, hleaves⟩
  exact absurd hleaves (h b hb)

theorem offStack_stays : OffStack (Stays : Session (Chronicled W) → Prop) HaltedByWish where
  ends h halt hinward := h.haltedByWish (by rintro rfl; cases hinward)
  stops h reason _ := h.haltedByWish (by rintro ⟨⟩)
  noteAt {s} h level message := by
    obtain ⟨journal, hnote⟩ := s.exists_noteAt level message
    rw [hnote]
    exact h
  setStack h _ := h
  setNextList h _ := h
  parse {s} h src := by
    obtain ⟨journal, hparse⟩ := s.exists_parse src
    rw [hparse]
    exact h

theorem Stays.receive {α : Type} {s : Session (Chronicled W)} (h : s.Stays) (reply : Reply W α) :
    (s.receive (reply.observed s.world.seen)).Stays := by
  obtain ⟨interrupt, journal, heffect⟩ :=
    ({ s with world := (reply.observed s.world.seen).world } :
      Session (Chronicled W)).exists_undergo (reply.observed s.world.seen).effect
  rw [Session.receive, heffect]
  exact h

theorem Stays.begins {s : Session (Chronicled W)} (h : s.Stays) {v : Value}
    (hv : v.instruction? ≠ some .exit) : (s.begins v).Stays := by
  intro b hb
  rcases List.mem_cons.1 hb with rfl | hb
  · exact hv
  · exact h b hb

end Session

open Session (Stays HaltedByWish offStack_stays)

section Runs

variable {W : Type} [FileSystem W]

/-- An element that is not the instruction to leave does not lead to leaving, unless a list
does that it runs. -/
theorem maintains_step_of_ne_exit {run : Runner (Chronicled W)} {rounds : Nat}
    (hrun : ∀ prog, Maintains Stays HaltedByWish (run prog)) {v : Value}
    (hv : v.instruction? ≠ some .exit) : Maintains Stays HaltedByWish (step run rounds v) := by
  refine offStack_stays.maintains_step fun i hi => ?_
  have hexit : i ≠ .exit := by
    rintro rfl
    exact hv hi
  refine offStack_stays.maintains_perform (fun h => absurd h hexit)
    (fun _ _ hs _ => hs.haltedByWish (by rintro ⟨⟩)) (fun _ => hrun) (fun _ _ hs _ _ => hs)
    (fun _ _ hs _ => hs) (fun _ _ hs _ => hs) ?_ ?_
  · exact fun _ _ hs path => hs.receive _
  · exact fun _ _ hs path text => hs.receive _

/-- The instruction to leave halts the run. -/
theorem step_of_exit {v : Value} (hv : v.instruction? = some .exit) (run : Runner W)
    (rounds : Nat) (s : Session W) :
    ∃ journal, step run rounds v s = .error .exit { s with journal := journal } := by
  obtain ⟨journal, hnote⟩ := s.exists_noteAt .trace fun _ => ascii "op " ++ Instruction.exit.name
  refine ⟨journal, ?_⟩
  rw [step_of_instruction hv, ← hnote]
  rfl

/-- The step lemma: an element halts the run by a wish to leave exactly if the wish was
begun, by the element itself or in a list that it runs. -/
theorem maintains_chronicledStep_stays (rounds : Nat) {run : Runner (Chronicled W)}
    (hrun : ∀ prog, Maintains Stays HaltedByWish (run prog)) (v : Value) :
    Maintains Stays HaltedByWish (chronicledStep rounds run v) := by
  by_cases hv : v.instruction? = some .exit
  · have hstep : ∀ s : Session (Chronicled W), ∃ journal, chronicledStep rounds run v s =
        .error .exit { s.begins v with journal := journal } := by
      intro s
      obtain ⟨journal, hexit⟩ := step_of_exit hv run rounds (s.begins v)
      have hbegun : chronicledStep rounds run v s =
          (step run rounds v >>= fun _ => modify Session.concludes) (s.begins v) := rfl
      exact ⟨journal, hbegun.trans (Action.bind_of_error hexit)⟩
    refine ⟨?_, ?_⟩
    · intro s t a _ h
      obtain ⟨journal, hexit⟩ := hstep s
      cases hexit.symm.trans h
    · intro s t halt _ h
      obtain ⟨journal, hexit⟩ := hstep s
      cases hexit.symm.trans h
      exact ⟨fun _ => ⟨_, List.mem_cons_self, hv⟩, fun _ => rfl⟩
  · have hbegin : Maintains Stays HaltedByWish
        (modify fun s => s.begins v : Action (Chronicled W) Unit) :=
      .modify fun _ hs => hs.begins hv
    exact hbegin.bind fun _ => (maintains_step_of_ne_exit hrun hv).bind fun _ =>
      .modify fun _ hs => hs

/-- The run lemma: so does a whole run. -/
theorem maintains_chronicledAction_stays (rounds : Nat) (prog : List Value) :
    Maintains Stays HaltedByWish
      (Session.actionBy chronicledExec rounds prog : Action (Chronicled W) Unit) := by
  have hrest : Maintains Stays HaltedByWish
      (modify Session.atRest : Action (Chronicled W) Unit) := .modify fun _ hs => hs
  refine hrest.bind fun _ => Leads.get fun s => ?_
  have hexec := maintains_chronicledExec (fun _ : Unit => offStack_stays (W := W))
    (fun hs _ => hs) rounds
    (fun hrun _ v => ⟨fun hs => (maintains_chronicledStep_stays rounds (hrun ()) v).ok hs.1,
      fun hs => (maintains_chronicledStep_stays rounds (hrun ()) v).error hs.1⟩) s.limit () prog
  exact hexec.bind fun _ =>
    offStack_stays.maintains_flush (fun hs _ => hs.haltedByWish (by rintro ⟨⟩)) fun hs _ => hs

end Runs

namespace Session

variable {W : Type} [FileSystem W]

/-- A call has ended because the program asked to leave exactly if it did ask. -/
def EndedByWish (r : Session (Chronicled W) × Outcome) : Prop :=
  r.2 = .exit ↔ ∃ b ∈ r.1.world.seen.begun, b.Leaves

theorem Stays.chronicledRun {s : Session (Chronicled W)} (h : s.Stays) (rounds : Nat)
    (prog : List Value) : EndedByWish (s.runBy chronicledExec rounds prog) := by
  have hmaintains := maintains_chronicledAction_stays (W := W) rounds prog
  unfold Session.runBy
  cases hresult : actionBy chronicledExec rounds prog s with
  | ok _ t =>
    have ht := hmaintains.ok h hresult
    refine ⟨(by rintro ⟨⟩), ?_⟩
    rintro ⟨b, hb, hleaves⟩
    exact absurd hleaves (ht b hb)
  | error halt t =>
    have ht := hmaintains.error h hresult
    obtain ⟨output, journal, _, hsettled⟩ := t.exists_settle halt
    have hwish : (t.settle halt).2 = .exit ↔ halt = .exit := by
      cases halt <;> simp [settle, settleFault]
    unfold EndedByWish ofResult
    rw [hwish, hsettled]
    exact ht

theorem Stays.chronicledEval {s : Session (Chronicled W)} (h : s.Stays) (rounds : Nat)
    (src : Bytes) : EndedByWish (s.evalBy chronicledExec rounds src) := by
  have hparsed : ({ s.atRest with line := 1 }.parse src).1.Stays :=
    offStack_stays.parse (s := { s.atRest with line := 1 }) h src
  unfold Session.evalBy
  rcases hparse : ({ s.atRest with line := 1 } : Session (Chronicled W)).parse src with ⟨t, result⟩
  rw [hparse] at hparsed
  cases result with
  | ok prog => exact hparsed.chronicledRun rounds prog
  | error error =>
    obtain ⟨journal, hsettled⟩ := t.exists_settleFault (.unreadable error.problem) error.line
    refine ⟨(by rintro ⟨⟩), ?_⟩
    simp only [hsettled]
    rintro ⟨b, hb, hleaves⟩
    exact absurd hleaves (hparsed b hb)

/-- A call ends because its program asked to leave exactly if the instruction to leave was
begun, at whatever depth. -/
theorem call_eq_exit_iff (s : Session W) (c : Call) :
    (s.call c).2 = .exit ↔ ∃ b ∈ s.begunBy c, b.Leaves := by
  have hstart : ∀ interrupt, (s.chronicled.under interrupt).Stays := fun _ _ hb =>
    absurd hb List.not_mem_nil
  have hended : EndedByWish (s.chronicled.callBy chronicledExec c) := by
    cases c with
    | run interrupt rounds prog => exact (hstart interrupt).chronicledRun rounds prog
    | eval interrupt rounds src => exact (hstart interrupt).chronicledEval rounds src
  rw [s.call_unchronicled c]
  exact hended

end Session

end StackScript
