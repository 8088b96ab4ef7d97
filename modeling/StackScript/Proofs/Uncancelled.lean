import StackScript.Proofs.Chronicle
set_option autoImplicit false

/-!
# Runs that nothing cancels

Over files that cancel no run a run goes on where it would have been cancelled.  As long as
it does not come to where it would have stopped, the two go the same way: unless a run is
interrupted, the same elements are begun and left without an end over files that cancel
nothing, and it ends the same.
-/

namespace StackScript

/-- An effect, without any cancelling. -/
def Effect.uncancelled : Effect → Effect
  | .cancels => .none
  | effect => effect

/-- The same files, accesses to which cancel no run. -/
def Uncancelled (W : Type) : Type := W

/-- The answer of files that cancel no run. -/
def Reply.uncancelled {W α : Type} (reply : Reply W α) : Reply (Uncancelled W) α :=
  ⟨reply.world, reply.access, reply.effect.uncancelled⟩

/-- The files answer as they do, but cancel no run. -/
instance {W : Type} [FileSystem W] : FileSystem (Uncancelled W) where
  probe w path := (FileSystem.probe (W := W) w path).uncancelled
  read w path := (FileSystem.read (W := W) w path).uncancelled
  write w path text := (FileSystem.write (W := W) w path text).uncancelled
  drain w := (FileSystem.drain (W := W) w).uncancelled

namespace Session

variable {W : Type}

/-- The same session, live and over files that cancel no run. -/
def uncancelled (s : Session W) : Session (Uncancelled W) := { s with interrupt := none }

/-- The same session with its chronicle, live and over files that cancel no run. -/
def liveOn (s : Session (Chronicled W)) : Session (Chronicled (Uncancelled W)) :=
  { s with interrupt := none }

theorem unnoted_liveOn : Unnoted (liveOn : Session (Chronicled W) → _) :=
  ⟨fun _ => rfl, fun _ => rfl, fun _ => rfl, fun _ => rfl, fun _ _ => rfl, fun _ _ => rfl⟩

theorem receive_liveOn {α : Type} (s : Session (Chronicled W)) (reply : Reply W α) :
    s.liveOn.receive (reply.uncancelled.observed s.liveOn.world.seen) =
      (s.receive (reply.observed s.world.seen)).liveOn := by
  obtain ⟨world, access, effect⟩ := reply
  cases effect with
  | none => rfl
  | cancels => rfl
  | echoes channel text => rfl

/-- What follows from a halt does not depend on whether the run is live. -/
theorem settle_liveOn (s : Session (Chronicled W)) (halt : Halt) :
    s.liveOn.settle halt = ((s.settle halt).1.liveOn, (s.settle halt).2) := by
  cases halt with
  | exit => exact congrArg (·, Outcome.exit) (unnoted_liveOn.noteAt s.flushAnyway .info _)
  | interrupted reason => rfl
  | crashed message => rfl
  | exhausted => rfl
  | fault cause =>
    have hdiagnostics : s.liveOn.flushAnyway.diagnostics = s.flushAnyway.diagnostics := rfl
    simp only [settle, settleFault, reportFault, diagnose, hdiagnostics]
    split
    · rfl
    · rfl

/-- A live session has begun the same over files that cancel no run. -/
theorem begins_liveOn {s : Session (Chronicled W)} (h : s.interrupt = none) (v : Value) :
    s.liveOn.begins v = (s.begins v).liveOn := by
  cases s
  cases h
  rfl

end Session

/-- Some evaluation was begun in a run that was interrupted already. -/
def Chronicle.Overdue {W : Type} (seen : Chronicle W) : Prop :=
  ∃ b ∈ seen.begun, b.session.interrupt ≠ none

section Links

variable {W : Type} [FileSystem W]

/-- A run beside the one over files that cancel nothing, which follows until it is
interrupted. -/
def Link.uncancelled (W : Type) [FileSystem W] :
    Link (Chronicled W) (Chronicled (Uncancelled W)) where
  Rel s s' := s' = s.liveOn
  Ends _ s s' := s' = s.liveOn
  Lost halt := ∃ reason, halt = .interrupted reason
  Stray w := w.seen.Overdue
  base := []
  ends h _ := h
  underflow := .inl rfl
  interrupt := by
    rintro s _ rfl
    cases hinterrupt : s.interrupt with
    | none => exact .inl rfl
    | some reason => exact .inr ⟨reason, rfl, reason, rfl⟩
  noteAt := by rintro s _ rfl level message; exact Session.unnoted_liveOn.noteAt s level message
  stack := by rintro s _ rfl; rw [List.append_nil]; rfl
  setStack := by rintro s _ rfl values; rw [List.append_nil]; rfl
  nextList := by rintro s _ rfl; rfl
  setNextList := by rintro s _ rfl next; rfl
  bound := by rintro s _ rfl name v hget; exact hget
  unbound := by rintro s _ rfl name cause hget; exact .inr hget
  bindValue := by rintro s _ rfl name v; rfl
  setLine := by rintro s _ rfl line; rfl
  writeLine := by rintro s _ rfl text; exact ⟨rfl, rfl⟩
  flush := by rintro s _ rfl; exact ⟨rfl, rfl⟩
  read := by rintro s _ rfl path; exact ⟨rfl, s.receive_liveOn _⟩
  write := by rintro s _ rfl path text; exact ⟨rfl, s.receive_liveOn _⟩
  parse := by rintro s _ rfl src; rw [Session.unnoted_liveOn.parse]; exact ⟨rfl, rfl⟩
  stray_read h _ := h
  stray_write h _ _ := h

theorem Link.uncancelled_sameDepth : (Link.uncancelled W).SameDepth where
  depth := by rintro s _ rfl; rfl
  setDepth := by rintro s _ rfl depth; rfl
  limit := by rintro s _ rfl; rfl
  ends h := h

/-- An evaluation is begun alike, unless the run was interrupted. -/
theorem sim_begins_uncancelled (v : Value) :
    (Link.uncancelled W).Sim (modify fun s => s.begins v) (modify fun s => s.begins v) := by
  refine ⟨?_, ?_⟩
  · rintro s _ rfl
    cases hinterrupt : s.interrupt with
    | none => exact .ok (Session.begins_liveOn hinterrupt v)
    | some reason =>
      refine .stray ⟨_, List.mem_cons_self, ?_⟩
      intro hnone
      cases hinterrupt.symm.trans hnone
  · rintro s ⟨b, hb, hinterrupt⟩
    exact ⟨b, List.mem_cons_of_mem _ hb, hinterrupt⟩

theorem sim_chronicledExec_uncancelled (rounds levels : Nat) (prog : List Value) :
    (Link.uncancelled W).Sim (chronicledExec rounds levels prog)
      (chronicledExec rounds levels prog) := by
  have hdepth := Link.uncancelled_sameDepth (W := W)
  have hconclude : (Link.uncancelled W).Sim (modify Session.concludes)
      (modify Session.concludes) :=
    Link.sim_modify_of_stray (fun h => by rw [show _ = _ from h]; rfl) fun h => h
  refine (Link.uncancelled W).congruence.execBy hdepth.sim_descend hdepth.sim_ascend
    hdepth.sim_tooDeep ?_ levels prog
  intro run run' hrun v
  exact (sim_begins_uncancelled v).bind fun _ => (Link.sim_step hrun rounds v).bind fun _ =>
    hconclude

/-- Unless a run is interrupted, it goes the same way over files that cancel nothing. -/
theorem Session.chronicledRun_liveOn (s : Session (Chronicled W)) (rounds : Nat)
    (prog : List Value) (hbegun : ¬ (s.runBy chronicledExec rounds prog).1.world.seen.Overdue) :
    (∃ reason, (s.runBy chronicledExec rounds prog).2 = .interrupted reason) ∨
      s.liveOn.runBy chronicledExec rounds prog =
        ((s.runBy chronicledExec rounds prog).1.liveOn,
          (s.runBy chronicledExec rounds prog).2) := by
  have hsim := (sim_chronicledExec_uncancelled rounds s.limit prog).bind fun _ =>
    Link.sim_flush (ℓ := Link.uncancelled W)
  have hrel : (Link.uncancelled W).Rel s.atRest s.liveOn.atRest := rfl
  have hmeets := hsim.meets hrel
  change Link.Meets _ (actionBy chronicledExec rounds prog s)
    (actionBy chronicledExec rounds prog s.liveOn)
    at hmeets
  unfold runBy at hbegun ⊢
  generalize actionBy chronicledExec rounds prog s = r at hmeets hbegun ⊢
  generalize actionBy chronicledExec rounds prog s.liveOn = r' at hmeets ⊢
  cases hmeets with
  | ok hrel =>
    cases hrel
    exact .inr rfl
  | @error halt t t' hends =>
    cases hends
    exact .inr (t.settle_liveOn halt)
  | lost hlost =>
    obtain ⟨reason, rfl⟩ := hlost
    exact .inl ⟨reason, rfl⟩
  | stray hstray =>
    refine absurd ?_ hbegun
    cases r with
    | ok _ t => exact hstray
    | error halt t =>
      obtain ⟨output, journal, _, hsettled⟩ := t.exists_settle halt
      unfold ofResult
      rw [hsettled]
      exact hstray

end Links

end StackScript
