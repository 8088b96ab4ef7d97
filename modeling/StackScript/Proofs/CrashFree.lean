import StackScript.Proofs.CheckedRun
set_option autoImplicit false

/-!
# Runs without crashes

A session crashes with its host: with files whose accesses crash, or an output whose flush
does.  Over a host that does not, every call comes to its end, leaves by the program's
wish, stops with a fault, or is interrupted, and then for the reason that the session
gives; a crash is none of the ways to end.

The evaluator in which every access by position is checked is the evaluator itself, so
that no access of a run is out of range.
-/

namespace StackScript

/-! ## Interruptions -/

/-- Where the action halts by an interruption, the session gives the reason. -/
def Action.TellsInterrupt {W α : Type} (x : Action W α) : Prop :=
  ∀ s t reason, x s = .error (.interrupted reason) t → t.interrupt = some reason

namespace Action

section TellsInterrupt

variable {W α β : Type}

theorem tells_pure (a : α) : TellsInterrupt (pure a : Action W α) := by
  intro s t reason h
  cases h

theorem TellsInterrupt.bind {x : Action W α} {f : α → Action W β} (hx : x.TellsInterrupt)
    (hf : ∀ a, (f a).TellsInterrupt) : (x >>= f).TellsInterrupt := by
  intro s t reason h
  cases hxs : x s with
  | ok a u =>
    rw [bind_of_ok hxs] at h
    exact hf a u t reason h
  | error halt u =>
    rw [bind_of_error hxs] at h
    cases h
    exact hx s t reason hxs

theorem tells_get {f : Session W → Action W α} (h : ∀ s, (f s).TellsInterrupt) :
    TellsInterrupt (get >>= f : Action W α) :=
  fun s t reason hf => h s s t reason hf

theorem tells_modify (f : Session W → Session W) : TellsInterrupt (modify f : Action W Unit) := by
  intro s t reason h
  cases h

theorem tells_fail (cause : Cause) : TellsInterrupt (fail cause : Action W α) := by
  intro s t reason h
  cases h

theorem tells_orFail (result : Except Cause α) : TellsInterrupt (orFail result : Action W α) := by
  cases result with
  | ok a => exact tells_pure a
  | error cause => exact tells_fail cause

theorem tells_checkpoint : TellsInterrupt (checkpoint : Action W Unit) := by
  intro s t reason h
  cases hinterrupt : s.interrupt with
  | none =>
    rw [checkpoint_of_none hinterrupt] at h
    cases h
  | some reason' =>
    rw [checkpoint_of_some hinterrupt] at h
    cases h
    exact hinterrupt

theorem tells_take (from_ : Stack → Except Cause (α × Stack)) (shown : α → Bytes) :
    TellsInterrupt (take from_ shown : Action W α) := by
  refine tells_get fun s => (tells_orFail _).bind ?_
  rintro ⟨a, stack⟩
  refine (tells_modify _).bind fun _ => ?_
  exact (tells_modify _).bind fun _ => tells_pure a

theorem tells_push (v : Value) : TellsInterrupt (push v : Action W Unit) :=
  (tells_modify _).bind fun _ => tells_modify _

theorem tells_countFor (n : Double) : TellsInterrupt (countFor n : Action W Nat) := by
  refine tells_get fun s => ?_
  cases n.ceilCount? s.stack.size with
  | none => exact tells_fail _
  | some count => exact tells_pure count

theorem tells_access (reply : Reply W α) (failure : Bytes → Cause) :
    TellsInterrupt (access reply failure) := by
  refine (tells_modify _).bind fun _ => ?_
  cases reply.access with
  | ok a => exact tells_pure a
  | failed error => exact tells_fail _
  | crashed message =>
    intro s t reason h
    cases h

theorem tells_print (text : Bytes) : TellsInterrupt (print text : Action W Unit) := by
  intro s t reason h
  rcases hwrite : s.output.writeLine text with ⟨output, error⟩
  cases error with
  | none =>
    rw [print_of_none hwrite] at h
    cases h
  | some error =>
    rw [print_of_some hwrite] at h
    cases h

theorem tells_flush : TellsInterrupt (flush : Action W Unit) := by
  intro s t reason h
  rcases hflush : s.output.flush with ⟨output, error⟩
  cases error with
  | none =>
    rw [flush_of_none hflush] at h
    cases h
  | some error =>
    rw [flush_of_some hflush] at h
    cases error <;> cases h

end TellsInterrupt

variable {W : Type} [FileSystem W]

theorem tells_congruence :
    Congruence (fun {α} (x : Action W α) (_ : Action W α) => x.TellsInterrupt) where
  pure := tells_pure
  bind hx hf := hx.bind hf
  fail _ := tells_fail _
  exit := by
    intro s t reason h
    cases h
  checkpoint := tells_checkpoint
  note _ _ := tells_modify _
  push := tells_push
  pushBool _ := tells_modify _
  take _ shown := tells_take _ shown
  top := tells_get fun _ => tells_orFail _
  countFor := tells_countFor
  pushList _ := tells_get fun _ => (tells_modify _).bind fun _ => tells_push _
  valueOf _ := tells_get fun _ => tells_orFail _
  bindName _ _ := tells_modify _
  setLine _ := tells_modify _
  loadText _ := tells_get fun _ => tells_access _ _
  saveText _ _ := tells_get fun _ => tells_access _ _
  readSource src := by
    intro s t reason h
    cases h

theorem tells_exec (rounds levels : Nat) (prog : List Value) :
    TellsInterrupt (exec rounds levels prog : Action W Unit) := by
  rw [← execWith_print]
  refine @Congruence.execWith W W _ _ _ tells_congruence print print tells_print (tells_modify _)
    (tells_modify _) (tells_get fun _ => tells_fail _) ?_ rounds levels prog
  intro s t reason h
  cases h

theorem tells_runAction (rounds : Nat) (prog : List Value) :
    TellsInterrupt (Session.runAction rounds prog : Action W Unit) := by
  refine (tells_modify _).bind fun _ => ?_
  refine tells_get fun s => ?_
  exact (tells_exec rounds s.limit prog).bind fun _ => tells_flush

end Action

/-! ## Hosts that do not crash -/

/-- Files that satisfy `P` do not crash, and satisfy it after every access. -/
structure CalmFiles {W : Type} [FileSystem W] (P : W → Prop) : Prop where
  read : ∀ {w}, P w → ∀ path, P (FileSystem.read w path).world
  write : ∀ {w}, P w → ∀ path text, P (FileSystem.write w path text).world
  read_ne : ∀ {w}, P w → ∀ path message, (FileSystem.read w path).access ≠ .crashed message
  write_ne : ∀ {w}, P w → ∀ path text message,
    (FileSystem.write w path text).access ≠ .crashed message

/-- Whether an output crashes when it is flushed. -/
def Output.isBrittle : Output → Bool
  | .brittle _ => true
  | _ => false

namespace Output

theorem isBrittle_write (direct : Bool) (out : Output) (p : Bytes) :
    (out.write direct p).1.isBrittle = out.isBrittle := by
  cases out <;> rfl

theorem isBrittle_writeLine (out : Output) (text : Bytes) :
    (out.writeLine text).1.isBrittle = out.isBrittle := by
  apply writeLine_keeps (P := fun next => next.isBrittle = out.isBrittle)
  · intro next hnext direct p
    rw [isBrittle_write, hnext]
  · rfl

theorem flush_ne_crashed {out : Output} (h : out.isBrittle = false) (message : Bytes) :
    out.flush.2 ≠ some (.crashed message) := by
  cases out with
  | brittle written => cases h
  | memory written => exact fun hflush => nomatch hflush
  | discard => exact fun hflush => nomatch hflush
  | buffered b => cases hfailure : b.flush.failure <;> simp [flush, hfailure]
  | byLine b => cases hfailure : b.flush.failure <;> simp [flush, hfailure]

end Output

section Calm

variable {W : Type} [FileSystem W] {P : W → Prop}

open StackScript.Action (Keeps)

theorem CalmFiles.steady (hfiles : CalmFiles P) :
    Steady (fun σ : Surroundings W => P σ.world ∧ σ.output.isBrittle = false)
      (fun halt _ => ∀ message, halt ≠ .crashed message) where
  halts := by
    rintro σ halt _ hordinary message rfl
    cases hordinary
  read h path := ⟨hfiles.read h.1 path, h.2⟩
  write h path text := ⟨hfiles.write h.1 path text, h.2⟩
  readCrashed h hcrashed := absurd hcrashed (hfiles.read_ne h.1 _ _)
  writeCrashed h hcrashed := absurd hcrashed (hfiles.write_ne h.1 _ _ _)

theorem CalmFiles.keeps_exec (hfiles : CalmFiles P) (rounds levels : Nat) (prog : List Value) :
    Keeps (fun σ : Surroundings W => P σ.world ∧ σ.output.isBrittle = false)
      (fun halt _ => ∀ message, halt ≠ .crashed message) (exec rounds levels prog) := by
  rw [← execWith_print]
  refine hfiles.steady.keeps_execWith (fun text => ?_) (fun _ _ h => h) ?_ ?_ levels prog
  · refine Steady.keeps_print text ?_ ?_
    · intro σ h _
      exact ⟨h.1, (σ.output.isBrittle_writeLine text).trans h.2⟩
    · exact fun _ _ _ _ _ hcrash => nomatch hcrash
  · exact fun _ _ _ hcrash => nomatch hcrash
  · exact fun _ _ _ hcrash => nomatch hcrash

/-- Running a program over a calm host does not crash, nor does flushing after it. -/
theorem CalmFiles.runAction_ne_crashed (hfiles : CalmFiles P) {s t : Session W} {halt : Halt}
    (hworld : P s.world) (houtput : s.output.isBrittle = false) {rounds : Nat} {prog : List Value}
    (h : Session.runAction rounds prog s = .error halt t) (message : Bytes) :
    halt ≠ .crashed message := by
  have hkeeps := hfiles.keeps_exec rounds s.limit prog
  have hrest : P s.atRest.surroundings.world ∧ s.atRest.surroundings.output.isBrittle = false :=
    ⟨hworld, houtput⟩
  change (exec rounds s.limit prog >>= fun _ => Action.flush) s.atRest = .error halt t at h
  cases hexec : exec rounds s.limit prog s.atRest with
  | error halt' u =>
    rw [Action.bind_of_error hexec] at h
    cases h
    exact hkeeps.error hrest hexec message
  | ok _ u =>
    -- what is flushed at the end is still not brittle
    have hsteady := hkeeps.ok hrest hexec
    have hcalm := Output.flush_ne_crashed hsteady.2
    rw [Action.bind_of_ok hexec] at h
    rcases hflush : u.output.flush with ⟨output, error⟩
    cases error with
    | none =>
      rw [Action.flush_of_none hflush] at h
      cases h
    | some error =>
      rw [Action.flush_of_some hflush] at h
      cases h
      cases error with
      | failed error => exact fun hcrash => nomatch hcrash
      | crashed message' => exact absurd (congrArg Prod.snd hflush) (hcalm message')

end Calm

/-! ## Calls -/

/-- The ways in which a call may end: by itself, by leaving, with a fault, interrupted for
the reason that the session gives, or not at all within the rounds given. -/
def Outcome.EndsIn {W : Type} (s : Session W) : Outcome → Prop
  | .done => True
  | .exit => True
  | .fault _ => True
  | .interrupted reason => s.interrupt = some reason
  | .crashed _ => False
  | .exhausted => True

namespace Session

variable {W : Type} [FileSystem W] {P : W → Prop}

omit [FileSystem W] in
theorem endsIn_settle {s : Session W} {halt : Halt} (hcrash : ∀ message, halt ≠ .crashed message)
    (hinterrupt : ∀ reason, halt = .interrupted reason → s.interrupt = some reason) :
    (s.settle halt).2.EndsIn (s.settle halt).1 := by
  cases halt with
  | fault cause => trivial
  | exit => trivial
  | interrupted reason => exact hinterrupt reason rfl
  | crashed message => exact absurd rfl (hcrash message)
  | exhausted => trivial

theorem endsIn_run (hfiles : CalmFiles P) {s : Session W} (hworld : P s.world)
    (houtput : s.output.isBrittle = false) (rounds : Nat) (prog : List Value) :
    (s.run rounds prog).2.EndsIn (s.run rounds prog).1 := by
  unfold run
  cases haction : runAction rounds prog s with
  | ok _ t => trivial
  | error halt t =>
    refine endsIn_settle (hfiles.runAction_ne_crashed hworld houtput haction) ?_
    rintro reason rfl
    exact Action.tells_runAction rounds prog s t reason haction

theorem endsIn_eval (hfiles : CalmFiles P) {s : Session W} (hworld : P s.world)
    (houtput : s.output.isBrittle = false) (rounds : Nat) (src : Bytes) :
    (s.eval rounds src).2.EndsIn (s.eval rounds src).1 := by
  have hsame := ({ s.atRest with line := 1 } : Session W).surroundings_parse src
  unfold eval
  rcases hparse : ({ s.atRest with line := 1 } : Session W).parse src with ⟨t, result⟩
  rw [hparse] at hsame
  have hworld' : t.world = s.world := congrArg Surroundings.world hsame
  have houtput' : t.output = s.output := congrArg Surroundings.output hsame
  cases result with
  | ok prog => exact endsIn_run hfiles (hworld' ▸ hworld) (houtput' ▸ houtput) rounds prog
  | error error => trivial

/-- No program crashes a session over a calm host.  The calls are those of the evaluator
that checks every access by position, whatever a conversion gives for numbers out of
range; sources are read without an access out of range from any line on, and so is every
stack taken apart.  What is looked for by a number is looked for in lists and stacks of fewer
than `most` values, where `most` is not beyond `sizeBound`: up to there sizes are exact as
numbers. -/
theorem ends_uncrashed (conv : Conversion) {most : Nat} (hmost : most ≤ sizeBound)
    (hfiles : CalmFiles P) (s : Session W) (hworld : P s.world)
    (houtput : s.output.isBrittle = false) (rounds : Nat) :
    (∀ prog, s.checkedRun conv most rounds prog = s.run rounds prog ∧
      (s.run rounds prog).2.EndsIn (s.run rounds prog).1) ∧
    (∀ src, s.checkedEval conv most rounds src = s.eval rounds src ∧
      (s.eval rounds src).2.EndsIn (s.eval rounds src).1) ∧
    (∀ line src, Tree.checkedRead line src = .ok (Tree.read line src)) ∧
    ∀ st : Stack, st.popAt = .ok st.pop ∧ st.topAt = .ok st.top ∧
      st.popKindAt .number = .ok (st.popNumber.map fun r => (.number r.1, r.2)) ∧
      st.popKindAt .text = .ok (st.popText.map fun r => (.text r.1, r.2)) ∧
      st.popKindAt .list = .ok st.popList := by
  refine ⟨fun prog => ?_, fun src => ?_, Tree.checkedRead_eq, fun st => ?_⟩
  · exact ⟨s.checkedRun_eq conv hmost rounds prog, endsIn_run hfiles hworld houtput rounds prog⟩
  · exact ⟨s.checkedEval_eq conv hmost rounds src, endsIn_eval hfiles hworld houtput rounds src⟩
  · exact ⟨st.popAt_eq, st.topAt_eq, st.popKindAt_eq⟩

/-- Files in memory that were not told to crash are calm. -/
theorem calmFiles_memory : CalmFiles fun w : MemoryFiles => w.crash = none where
  read {w} h path := by
    change (w.read path).world.crash = none
    rw [MemoryFiles.read, h]
    exact h
  write {w} h path text := by
    change (w.write path text).world.crash = none
    rw [MemoryFiles.write, h]
    simp only
    split
    · exact h
    · rfl
  read_ne {w} h path message := by
    change (w.read path).access ≠ .crashed message
    rw [MemoryFiles.read, h]
    simp only [MemoryFiles.content]
    split
    · exact fun hcrash => nomatch hcrash
    · exact fun hcrash => nomatch hcrash
  write_ne {w} h path text message := by
    change (w.write path text).access ≠ .crashed message
    rw [MemoryFiles.write, h]
    simp only
    split
    · exact fun hcrash => nomatch hcrash
    · exact fun hcrash => nomatch hcrash

/-- A source that asks for a part of a list by a count that is not a number, for another by
an infinite one, and for a list of a negative number of values. -/
def strangeCounts : Bytes := ascii "(1 2) 0 0 / .head (1 2) 1 0 / .tail 0 1 - .nlist"

/-- All three are lists. -/
theorem ends_uncrashed_strangeCounts :
    overNoFiles.checkedEval .truncating sizeBound 0 strangeCounts =
        overNoFiles.eval 0 strangeCounts ∧
      (overNoFiles.eval 0 strangeCounts).2.EndsIn (overNoFiles.eval 0 strangeCounts).1 ∧
      (overNoFiles.eval 0 strangeCounts).1.stack.values.map (·.items.length) = [0, 2, 0] := by
  obtain ⟨_, heval, _⟩ :=
    ends_uncrashed .truncating (Nat.le_refl sizeBound) calmFiles_memory overNoFiles rfl rfl 0
  obtain ⟨hchecked, hends⟩ := heval strangeCounts
  exact ⟨hchecked, hends, by decide +kernel⟩

end Session

end StackScript
