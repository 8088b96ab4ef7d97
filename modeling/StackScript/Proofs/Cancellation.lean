import StackScript.Proofs.Uncancelled
import StackScript.Proofs.Termination
set_option autoImplicit false

/-!
# Interrupted runs

A run looks whether it was interrupted before every element of a list and before every round
of a loop, and nothing but an access to the files interrupts it.  So once that has happened
no element is begun, whichever instructions are still running lists: they take values, put
others, and look up names, until the run comes to where it stops, halts in one of them, or
comes to its end.
-/

namespace StackScript

open StackScript.Action (Leads Maintains Runner Keeps)

/-! ## Rounds of an interrupted run -/

section Rounds

variable {W : Type}

/-- The second action does what the first does, unless that runs out of rounds; and where
the first was interrupted before, the second stops there for it. -/
def Outlasts {α : Type} (x y : Action W α) : Prop :=
  ∀ s, (∃ t, x s = .error .exhausted t ∧
      ∀ reason, t.interrupt = some reason → y s = .error (.interrupted reason) t) ∨
    y s = x s ∧ ∀ t, x s ≠ .error .exhausted t

theorem Outlasts.refl {α : Type} {x : Action W α} (h : Unexhausted x) : Outlasts x x :=
  fun _ => .inr ⟨rfl, fun _ hx => h.error trivial hx rfl⟩

theorem Outlasts.bind {α β : Type} {x y : Action W α} {f g : α → Action W β} (hx : Outlasts x y)
    (hf : ∀ a, Outlasts (f a) (g a)) : Outlasts (x >>= f) (y >>= g) := by
  intro s
  rcases hx s with ⟨t, hexhausted, hstops⟩ | ⟨hsame, hends⟩
  · refine .inl ⟨t, Action.bind_of_error hexhausted, ?_⟩
    intro reason hreason
    exact Action.bind_of_error (hstops reason hreason)
  · cases hxs : x s with
    | ok a t =>
      rw [Action.bind_of_ok hxs, Action.bind_of_ok (hsame.trans hxs)]
      exact hf a t
    | error halt t =>
      rw [Action.bind_of_error hxs, Action.bind_of_error (hsame.trans hxs)]
      refine .inr ⟨rfl, ?_⟩
      intro u hu
      exact hends u (hxs.trans (by cases hu; rfl))

variable [FileSystem W]

theorem outlasts_congruence : Congruence (fun {α} (x y : Action W α) => Outlasts x y) := by
  have hkeeps := (steady_unexhausted (W := W)).congruence
  exact {
    pure := fun a => .refl (hkeeps.pure a)
    bind := Outlasts.bind
    fail := fun h => .refl (hkeeps.fail h)
    exit := .refl hkeeps.exit
    checkpoint := .refl hkeeps.checkpoint
    note := fun level message => .refl (hkeeps.note level message)
    push := fun v => .refl (hkeeps.push v)
    pushBool := fun b => .refl (hkeeps.pushBool b)
    take := fun h shown => .refl (hkeeps.take h shown)
    top := .refl hkeeps.top
    countFor := fun n => .refl (hkeeps.countFor n)
    pushList := fun items => .refl (hkeeps.pushList items)
    valueOf := fun name => .refl (hkeeps.valueOf name)
    bindName := fun name v => .refl (hkeeps.bindName name v)
    setLine := fun line => .refl (hkeeps.setLine line)
    loadText := fun path => .refl (hkeeps.loadText path)
    saveText := fun path text => .refl (hkeeps.saveText path text)
    readSource := fun src => .refl (hkeeps.readSource src) }

/-- A loop that is given more rounds does not go on for longer once it is interrupted. -/
theorem outlasts_repeatBody {run run' : Runner W} (hrun : ∀ prog, Outlasts (run prog) (run' prog))
    (body : List Value) {rounds more : Nat} (h : rounds < more) :
    Outlasts (Action.repeatBody run body rounds) (Action.repeatBody run' body more) := by
  have hR := outlasts_congruence (W := W)
  induction rounds generalizing more with
  | zero =>
    obtain ⟨more, rfl⟩ := Nat.exists_eq_succ_of_ne_zero (Nat.ne_of_gt h)
    intro s
    refine .inl ⟨s, rfl, ?_⟩
    intro reason hreason
    exact Action.bind_of_error (Action.checkpoint_of_some hreason)
  | succ rounds ih =>
    obtain ⟨more, rfl⟩ := Nat.exists_eq_succ_of_ne_zero (Nat.ne_of_gt (Nat.zero_lt_of_lt h))
    refine hR.checkpoint.bind fun _ => (hrun body).bind fun _ => ?_
    refine hR.popNumber.bind fun x => ?_
    cases x.isZero with
    | true => exact hR.pure ()
    | false => exact ih (Nat.lt_of_succ_lt_succ h)

theorem outlasts_chronicledExec {rounds more : Nat} (h : rounds < more) (levels : Nat)
    (prog : List Value) :
    Outlasts (chronicledExec rounds levels prog : Action (Chronicled W) Unit)
      (chronicledExec more levels prog) := by
  have hR := outlasts_congruence (W := Chronicled W)
  have hmodify (f : Session (Chronicled W) → Session (Chronicled W)) :
      Outlasts (modify f : Action (Chronicled W) Unit) (modify f) :=
    .refl (Steady.keeps_modify fun _ _ => trivial)
  have hprint (text : Bytes) :
      Outlasts (Action.print text : Action (Chronicled W) Unit) (Action.print text) :=
    .refl (Steady.keeps_print text (fun _ _ _ => trivial) fun _ _ _ _ => Halt.noConfusion)
  have hdeep : Outlasts (do Action.fail (.tooDeep (← get).depth) : Action (Chronicled W) Unit)
      (do Action.fail (.tooDeep (← get).depth)) :=
    fun _ => .inr ⟨rfl, fun _ hfail => by cases hfail⟩
  refine hR.execBy (hmodify _) (hmodify _) hdeep ?_ levels prog
  intro run run' hrun v
  refine (hmodify _).bind fun _ => Outlasts.bind ?_ fun _ => hmodify _
  rw [← stepWith_perform, ← stepWith_perform]
  refine hR.stepWith ?_ v
  intro i
  rw [← Instruction.performWith_print, ← Instruction.performWith_print]
  exact hR.performWith hprint hrun (fun body => outlasts_repeatBody hrun body h) i

omit [FileSystem W] in
theorem unexhausted_flush : Unexhausted (Action.flush : Action W Unit) := by
  refine ⟨fun _ _ => trivial, ?_⟩
  rintro s t _ _ herror rfl
  rcases hflush : s.output.flush with ⟨output, error⟩
  cases error with
  | none =>
    rw [Action.flush_of_none hflush] at herror
    cases herror
  | some error =>
    rw [Action.flush_of_some hflush] at herror
    cases error <;> cases herror

/-- A run that was interrupted ends, and does so in one way for any number of rounds that is
enough for it. -/
theorem Session.exists_chronicledRun (s : Session (Chronicled W)) {rounds : Nat}
    {prog : List Value} {reason : Interrupt}
    (h : (s.runBy chronicledExec rounds prog).1.interrupt = some reason) :
    ∃ r : Session (Chronicled W) × Outcome, r.1.interrupt = some reason ∧ r.2 ≠ .exhausted ∧
      ∀ n, rounds < n → s.runBy chronicledExec n prog = r := by
  have hflush := Outlasts.refl (unexhausted_flush (W := Chronicled W))
  have haction (n : Nat) (hn : rounds < n) :=
    (outlasts_chronicledExec hn s.limit prog).bind (fun _ => hflush) s.atRest
  change ∀ n, rounds < n → (∃ t, actionBy chronicledExec rounds prog s = .error .exhausted t ∧
      ∀ reason, t.interrupt = some reason →
        actionBy chronicledExec n prog s = .error (.interrupted reason) t) ∨
    actionBy chronicledExec n prog s = actionBy chronicledExec rounds prog s ∧
      ∀ t, actionBy chronicledExec rounds prog s ≠ .error .exhausted t at haction
  unfold runBy at h ⊢
  by_cases hexhausted : ∃ t, actionBy chronicledExec rounds prog s = .error .exhausted t
  · obtain ⟨t, ht⟩ := hexhausted
    rw [ht] at h
    refine ⟨t.settle (.interrupted reason), h, Outcome.noConfusion, ?_⟩
    intro n hn
    rcases haction n hn with ⟨u, hu, hstops⟩ | ⟨_, hends⟩
    · cases ht.symm.trans hu
      rw [hstops reason h]
      rfl
    · exact absurd ht (hends t)
  · refine ⟨ofResult (actionBy chronicledExec rounds prog s), h, ?_, ?_⟩
    · cases hresult : actionBy chronicledExec rounds prog s with
      | ok _ t => exact Outcome.noConfusion
      | error halt t =>
        cases halt with
        | exhausted => exact absurd ⟨t, hresult⟩ hexhausted
        | _ => exact Outcome.noConfusion
    · intro n hn
      rcases haction n hn with ⟨u, hu, _⟩ | ⟨hsame, _⟩
      · exact absurd ⟨u, hu⟩ hexhausted
      · rw [hsame]

end Rounds

/-! ## What is left to an interrupted run -/

section Stopped

variable {W : Type} [FileSystem W]

/-- The session that an action leaves, whether it ends or halts. -/
def finalSession {α : Type} : EStateM.Result Halt (Session W) α → Session W
  | .ok _ t => t
  | .error _ t => t

/-- The session that an evaluation leaves, if it runs no list. -/
def Beginning.left (b : Beginning W) : Session W :=
  finalSession (step (fun _ => pure ()) 0 b.element b.session)

/-- The evaluation accesses files in a live run, and the access interrupts it. -/
def Beginning.Interrupts (b : Beginning W) (reason : Interrupt) : Prop :=
  b.session.interrupt = none ∧
    (∃ i, b.element.instruction? = some i ∧ i.accessesFiles = true) ∧
    b.left.interrupt = some reason

namespace Session

/-- The evaluation begun last has interrupted the run, and since then nothing but the stack
has changed. -/
def Stopped (s : Session (Chronicled W)) : Prop :=
  ∃ b earlier reason, s.world.seen.begun = b :: earlier ∧ b.Interrupts reason ∧
    ∃ stack next depth journal, s.unobserved = { b.left with
      stack := stack, nextList := next, depth := depth, journal := journal }

/-- Evaluations were begun in a live run only, and those of them that have not ended are
`active`; if the run is interrupted, the last of them was what did it. -/
structure Heeds (active : List (Beginning W)) (s : Session (Chronicled W)) : Prop where
  live : ∀ b ∈ s.world.seen.begun, b.session.interrupt = none
  begun : ∀ b ∈ active, b ∈ s.world.seen.begun
  active : s.world.seen.active = active
  stopped : s.interrupt ≠ none → s.Stopped

/-- A run that heeds interruptions has halted: where nothing was being evaluated, for an
interruption, and by no wish of the program once it was interrupted. -/
structure HaltedHeeding (halt : Halt) (s : Session (Chronicled W)) : Prop where
  heeds : s.Heeds s.world.seen.active
  reason : ∀ reason, halt = .interrupted reason → s.interrupt = some reason
  exit : s.interrupt ≠ none → halt ≠ .exit
  inside : s.world.seen.active ≠ [] ∨ ∃ reason, halt = .interrupted reason

theorem HaltedHeeding.active_ne_nil {halt : Halt} {s : Session (Chronicled W)}
    (h : s.HaltedHeeding halt) (hhalt : ∀ reason, halt ≠ .interrupted reason) :
    s.world.seen.active ≠ [] := by
  rcases h.inside with hactive | ⟨reason, hreason⟩
  · exact hactive
  · exact absurd hreason (hhalt reason)

namespace Heeds

variable {active : List (Beginning W)} {s : Session (Chronicled W)}

theorem since (h : s.Heeds active) (stack : Stack) (next depth : Nat) (journal : List Event) :
    Heeds active
      { s with stack := stack, nextList := next, depth := depth, journal := journal } := by
  refine ⟨h.live, h.begun, h.active, ?_⟩
  intro hinterrupt
  obtain ⟨b, earlier, reason, hbegun, hinterrupts, _, _, _, _, hsince⟩ := h.stopped hinterrupt
  refine ⟨b, earlier, reason, hbegun, hinterrupts, stack, next, depth, journal, ?_⟩
  have hsame := congrArg (fun u : Session W =>
    { u with stack := stack, nextList := next, depth := depth, journal := journal }) hsince
  exact hsame

theorem stops (h : s.Heeds active) {reason : Interrupt} (hreason : s.interrupt = some reason) :
    s.HaltedHeeding (.interrupted reason) := by
  refine ⟨?_, ?_, fun _ => Halt.noConfusion, .inr ⟨reason, rfl⟩⟩
  · rw [h.active]
    exact h
  · rintro _ ⟨⟩
    exact hreason

/-- Where something is being evaluated the run may halt for other reasons too. -/
theorem halts {b : Beginning W} (h : s.Heeds (b :: active)) {halt : Halt}
    (hhalt : ∀ reason, halt ≠ .interrupted reason) (hexit : s.interrupt ≠ none → halt ≠ .exit) :
    s.HaltedHeeding halt := by
  have hactive := h.active
  refine ⟨by rwa [hactive], fun reason hreason => absurd hreason (hhalt reason), hexit, .inl ?_⟩
  rw [hactive]
  exact List.cons_ne_nil b active

end Heeds

/-- A run heeds interruptions whatever is done to the stack while something is being
evaluated. -/
theorem offStack_heeds (b : Beginning W) (active : List (Beginning W)) :
    OffStack (Heeds (b :: active)) (HaltedHeeding (W := W)) where
  ends h halt hinward := by
    refine h.halts ?_ ?_
    · rintro reason rfl
      cases hinward
    · rintro _ rfl
      cases hinward
  stops h _ hreason := h.stops hreason
  noteAt {s} h level message := by
    obtain ⟨journal, hnote⟩ := s.exists_noteAt level message
    rw [hnote]
    exact h.since s.stack s.nextList s.depth journal
  setStack {s} h stack := h.since stack s.nextList s.depth s.journal
  setNextList {s} h next := h.since s.stack next s.depth s.journal
  parse {s} h src := by
    obtain ⟨journal, hparse⟩ := s.exists_parse src
    rw [hparse]
    exact h.since s.stack _ s.depth journal

/-- In a live run it does so whatever is done to the names, the line and the output too. -/
theorem offStack_heeds_live (b : Beginning W) (active : List (Beginning W)) :
    OffStack (fun s => s.Heeds (b :: active) ∧ s.interrupt = none) (HaltedHeeding (W := W)) where
  ends h := (offStack_heeds b active).ends h.1
  stops h := (offStack_heeds b active).stops h.1
  noteAt {s} h level message := by
    refine ⟨(offStack_heeds b active).noteAt h.1 level message, ?_⟩
    obtain ⟨journal, hnote⟩ := s.exists_noteAt level message
    rw [hnote]
    exact h.2
  setStack h stack := ⟨(offStack_heeds b active).setStack h.1 stack, h.2⟩
  setNextList h next := ⟨(offStack_heeds b active).setNextList h.1 next, h.2⟩
  parse {s} h src := by
    refine ⟨(offStack_heeds b active).parse h.1 src, ?_⟩
    obtain ⟨journal, hparse⟩ := s.exists_parse src
    rw [hparse]
    exact h.2

theorem Heeds.begins {active : List (Beginning W)} {s : Session (Chronicled W)}
    (h : s.Heeds active) (hlive : s.interrupt = none) (v : Value) :
    (s.begins v).Heeds (⟨s.unobserved, v⟩ :: active) := by
  refine ⟨?_, ?_, congrArg (_ :: ·) h.active, fun hinterrupt => absurd hlive hinterrupt⟩
  · intro b hb
    rcases List.mem_cons.1 hb with rfl | hb
    · exact hlive
    · exact h.live b hb
  · intro b hb
    rcases List.mem_cons.1 hb with rfl | hb
    · exact List.mem_cons_self
    · exact List.mem_cons_of_mem _ (h.begun b hb)

theorem Heeds.concludes {b : Beginning W} {active : List (Beginning W)}
    {s : Session (Chronicled W)} (h : s.Heeds (b :: active)) : s.concludes.Heeds active where
  live := h.live
  begun a ha := h.begun a (List.mem_cons_of_mem b ha)
  active := congrArg List.tail h.active
  stopped := h.stopped

end Session

/-! ## Elements of an interrupted run -/

open Session (Heeds HaltedHeeding)

theorem Instruction.reach_of_runsLists {i : Instruction} (h : i.runsLists = true) :
    i.bindsNames = false ∧ i.accessesFiles = false ∧ i.prints = false := by
  cases i <;> first | exact ⟨rfl, rfl, rfl⟩ | cases h

/-- Instructions that run lists heed interruptions if running a list does. -/
theorem maintains_perform_of_runsLists {b : Beginning W} {active : List (Beginning W)}
    {run : Runner (Chronicled W)} {rounds : Nat}
    (hrun : ∀ prog, Maintains (Heeds (b :: active)) HaltedHeeding (run prog)) {i : Instruction}
    (hi : i.runsLists = true) :
    Maintains (Heeds (b :: active)) HaltedHeeding (i.perform run rounds) := by
  obtain ⟨hnames, hfiles, hprints⟩ := Instruction.reach_of_runsLists hi
  rw [← Bool.not_eq_true] at hnames hfiles hprints
  refine (Session.offStack_heeds b active).maintains_perform ?_ (fun h => absurd h hfiles)
    (fun _ => hrun) (fun h => absurd h hnames) ?_ (fun h => absurd h hprints)
    (fun h => absurd h hfiles) (fun h => absurd h hfiles)
  · rintro rfl
    cases hi
  · rintro rfl
    cases hi

/-- Instructions that run no list and access no file leave a live run live. -/
theorem maintains_perform_live {b : Beginning W} {active : List (Beginning W)}
    {run : Runner (Chronicled W)} {rounds : Nat} {i : Instruction} (hlists : ¬ i.runsLists = true)
    (hfiles : ¬ i.accessesFiles = true) :
    Maintains (fun s => s.Heeds (b :: active) ∧ s.interrupt = none) HaltedHeeding
      (i.perform run rounds) := by
  have hkept {s t : Session (Chronicled W)} (h : s.Heeds (b :: active) ∧ s.interrupt = none)
      (hworld : t.world = s.world) (hinterrupt : t.interrupt = s.interrupt) :
      t.Heeds (b :: active) ∧ t.interrupt = none := by
    have hlive := hinterrupt.trans h.2
    refine ⟨⟨?_, ?_, ?_, fun hstopped => absurd hlive hstopped⟩, hlive⟩
    · rw [hworld]
      exact h.1.live
    · rw [hworld]
      exact h.1.begun
    · rw [hworld]
      exact h.1.active
  exact (Session.offStack_heeds_live b active).maintains_perform
    (fun _ _ h => h.1.halts (fun _ => Halt.noConfusion) fun hstopped => absurd h.2 hstopped)
    (fun h => absurd h hfiles) (fun h => absurd h hlists) (fun _ _ h _ _ => hkept h rfl rfl)
    (fun _ _ h _ => hkept h rfl rfl) (fun _ _ h _ => hkept h rfl rfl) (fun h => absurd h hfiles)
    (fun h => absurd h hfiles)

theorem Instruction.runsLists_of_accessesFiles {i : Instruction} (h : i.accessesFiles = true) :
    i.runsLists = false := by
  cases i <;> first | rfl | cases h

/-- An evaluation that runs no list leaves the same session with a chronicle and without. -/
theorem Beginning.left_eq {v : Value} {i : Instruction} (hv : v.instruction? = some i)
    (hi : i.runsLists = false) (run : Runner (Chronicled W)) (rounds : Nat)
    (s : Session (Chronicled W)) :
    (⟨s.unobserved, v⟩ : Beginning W).left =
      (finalSession (step run rounds v s)).unobserved := by
  have hstep : step run rounds v = step (fun _ => pure ()) 0 v := by
    rw [step_of_instruction hv, step_of_instruction hv,
      Instruction.perform_of_runsLists hi run (fun _ => pure ()) rounds 0]
  have hrel : (SettingLink.unobserved (Chronicle W) W).link.Rel s s.unobserved := ⟨_, rfl, rfl⟩
  have hmeets := (Link.sim_step (fun _ => Link.sim_pure ()) 0 v).meets hrel
  rw [hstep, left]
  generalize step (fun _ => pure ()) 0 v s = r at hmeets ⊢
  generalize step (fun _ => pure ()) 0 v s.unobserved = r' at hmeets ⊢
  cases hmeets with
  | ok hrel =>
    obtain ⟨σ, rfl, rfl⟩ := hrel
    rfl
  | error hends =>
    obtain ⟨σ, rfl, rfl⟩ := hends
    rfl
  | lost hlost => exact hlost.elim
  | stray hstray => exact hstray.elim

/-- The chronicle is the one of `w`. -/
def Session.Records (w : Chronicled W) (s : Session (Chronicled W)) : Prop :=
  s.world.seen.begun = w.seen.begun ∧ s.world.seen.active = w.seen.active

/-- The run has halted with the chronicle of `w`, and not by a wish of the program. -/
def Session.HaltedRecording (w : Chronicled W) (halt : Halt) (s : Session (Chronicled W)) : Prop :=
  s.Records w ∧ halt ≠ .exit ∧ ∀ reason, halt = .interrupted reason → s.interrupt = some reason

omit [FileSystem W] in
theorem offStack_records (w : Chronicled W) :
    OffStack (Session.Records w) (Session.HaltedRecording w) where
  ends h halt hinward := by
    refine ⟨h, ?_, ?_⟩
    · rintro rfl
      cases hinward
    · rintro reason rfl
      cases hinward
  stops h reason hreason := by
    refine ⟨h, Halt.noConfusion, ?_⟩
    rintro _ ⟨⟩
    exact hreason
  noteAt {s} h level message := by
    obtain ⟨journal, hnote⟩ := s.exists_noteAt level message
    rw [hnote]
    exact h
  setStack h _ := h
  setNextList h _ := h
  parse {s} h src := by
    obtain ⟨journal, hparse⟩ := s.exists_parse src
    rw [hparse]
    exact h

/-- Instructions that access files leave the chronicle alone, and do not halt by a wish of
the program. -/
theorem maintains_perform_of_accessesFiles (w : Chronicled W) (run : Runner (Chronicled W))
    (rounds : Nat) {i : Instruction} (hi : i.accessesFiles = true) :
    Maintains (Session.Records w) (Session.HaltedRecording w) (i.perform run rounds) := by
  have hlists : ¬ i.runsLists = true := by
    rw [Instruction.runsLists_of_accessesFiles hi]
    exact Bool.noConfusion
  refine (offStack_records w).maintains_perform ?_ ?_ (fun h => absurd h hlists)
    (fun _ _ h _ _ => h) (fun _ _ h _ => h) (fun _ _ h _ => h) ?_ ?_
  · rintro rfl
    cases hi
  · exact fun _ _ h _ => ⟨h, Halt.noConfusion, fun _ hhalt => Halt.noConfusion hhalt⟩
  · intro _ s h path
    rw [Session.Records, Session.receive_world]
    exact h
  · intro _ s h path text
    rw [Session.Records, Session.receive_world]
    exact h

/-- What an access leaves of a live run is live, or was interrupted by the access. -/
theorem Session.Heeds.of_records {active : List (Beginning W)} {s t : Session (Chronicled W)}
    (h : s.Heeds active) (hlive : s.interrupt = none) {v : Value} {i : Instruction}
    (hv : v.instruction? = some i) (hi : i.accessesFiles = true)
    (hrecords : t.Records (s.begins v).world)
    (hleft : (⟨s.unobserved, v⟩ : Beginning W).left = t.unobserved) :
    t.Heeds (⟨s.unobserved, v⟩ :: active) := by
  have hbegins := h.begins hlive v
  refine ⟨?_, ?_, hrecords.2.trans hbegins.active, ?_⟩
  · rw [hrecords.1]
    exact hbegins.live
  · rw [hrecords.1]
    exact hbegins.begun
  · intro hinterrupt
    obtain ⟨reason, hreason⟩ := Option.ne_none_iff_exists'.1 hinterrupt
    refine ⟨_, _, reason, hrecords.1, ⟨hlive, ⟨i, hv, hi⟩, ?_⟩, t.stack, t.nextList, t.depth,
      t.journal, ?_⟩
    · rw [hleft]
      exact hreason
    · rw [hleft]
      rfl

/-- An element that accesses files is what an interrupted run has begun last. -/
theorem leads_step_of_accessesFiles {active : List (Beginning W)} {run : Runner (Chronicled W)}
    {rounds : Nat} {v : Value} {i : Instruction} (hv : v.instruction? = some i)
    (hi : i.accessesFiles = true) {s : Session (Chronicled W)} (h : s.Heeds active)
    (hlive : s.interrupt = none) :
    Leads (fun t => t = s.begins v) (Heeds (⟨s.unobserved, v⟩ :: active)) HaltedHeeding
      (step run rounds v) := by
  have hrecords : Maintains (Session.Records (s.begins v).world)
      (Session.HaltedRecording (s.begins v).world) (step run rounds v) := by
    refine (offStack_records _).maintains_step fun j hj => ?_
    cases hv.symm.trans hj
    exact maintains_perform_of_accessesFiles _ run rounds hi
  have hleft := Beginning.left_eq hv (Instruction.runsLists_of_accessesFiles hi) run rounds
    (s.begins v)
  refine ⟨?_, ?_⟩
  · rintro _ t a rfl hstep
    rw [hstep] at hleft
    exact h.of_records hlive hv hi (hrecords.ok ⟨rfl, rfl⟩ hstep) hleft
  · rintro _ t halt rfl hstep
    rw [hstep] at hleft
    obtain ⟨hkept, hexit, hreason⟩ := hrecords.error ⟨rfl, rfl⟩ hstep
    have hheeds := h.of_records hlive hv hi hkept hleft
    refine ⟨?_, hreason, fun _ => hexit, .inl ?_⟩
    · rw [hheeds.active]
      exact hheeds
    · rw [hheeds.active]
      exact List.cons_ne_nil _ _

/-! ## Lists of an interrupted run -/

/-- An element heeds interruptions if the lists that it runs do. -/
theorem leads_step_heeds {active : List (Beginning W)} {run : Runner (Chronicled W)}
    {rounds : Nat} {v : Value} {s : Session (Chronicled W)} (h : s.Heeds active)
    (hlive : s.interrupt = none)
    (hrun : ∀ prog, Maintains (Heeds (⟨s.unobserved, v⟩ :: active)) HaltedHeeding (run prog)) :
    Leads (fun t => t = s.begins v) (Heeds (⟨s.unobserved, v⟩ :: active)) HaltedHeeding
      (step run rounds v) := by
  have hbegins := h.begins hlive v
  by_cases hfiles : ∃ i, v.instruction? = some i ∧ i.accessesFiles = true
  · obtain ⟨i, hv, hi⟩ := hfiles
    exact leads_step_of_accessesFiles hv hi h hlive
  by_cases hlists : ∃ i, v.instruction? = some i ∧ i.runsLists = true
  · obtain ⟨i, hv, hi⟩ := hlists
    have hstep : Maintains (Heeds (⟨s.unobserved, v⟩ :: active)) HaltedHeeding
        (step run rounds v) := by
      refine (Session.offStack_heeds _ active).maintains_step fun j hj => ?_
      cases hv.symm.trans hj
      exact maintains_perform_of_runsLists hrun hi
    refine ⟨?_, ?_⟩
    · rintro _ t a rfl
      exact hstep.ok hbegins
    · rintro _ t halt rfl
      exact hstep.error hbegins
  · have hstep : Maintains (fun t => t.Heeds (⟨s.unobserved, v⟩ :: active) ∧ t.interrupt = none)
        HaltedHeeding (step run rounds v) := by
      refine (Session.offStack_heeds_live _ active).maintains_step fun i hv => ?_
      exact maintains_perform_live (fun hi => hlists ⟨i, hv, hi⟩) fun hi => hfiles ⟨i, hv, hi⟩
    refine ⟨?_, ?_⟩
    · rintro _ t a rfl hok
      exact (hstep.ok ⟨hbegins, hlive⟩ hok).1
    · rintro _ t halt rfl
      exact hstep.error ⟨hbegins, hlive⟩

theorem leads_chronicledStep_heeds (rounds : Nat) {run : Runner (Chronicled W)}
    (hrun : ∀ b active prog, Maintains (Heeds (b :: active)) HaltedHeeding (run prog))
    (active : List (Beginning W)) (v : Value) :
    Leads (fun s => s.Heeds active ∧ s.interrupt = none) (Heeds active) HaltedHeeding
      (chronicledStep rounds run v) := by
  have hrest {s : Session (Chronicled W)} (h : s.Heeds active) (hlive : s.interrupt = none) :
      Leads (fun t => t = s.begins v) (Heeds active) HaltedHeeding
        (step run rounds v >>= fun _ => modify Session.concludes) :=
    (leads_step_heeds h hlive (hrun _ active)).bind fun _ => .modify fun _ ht => ht.concludes
  exact ⟨fun hs hstep => (hrest hs.1 hs.2).ok rfl hstep,
    fun hs hstep => (hrest hs.1 hs.2).error rfl hstep⟩

/-- Running the lists of a program heeds interruptions. -/
theorem maintains_chronicledExec_heeds (rounds levels : Nat) (prog : List Value) :
    Maintains (Heeds ([] : List (Beginning W))) HaltedHeeding
      (chronicledExec rounds (levels + 1) prog) := by
  have hdepth {active : List (Beginning W)} {s : Session (Chronicled W)} (h : s.Heeds active)
      (depth : Nat) : ({ s with depth := depth } : Session (Chronicled W)).Heeds active :=
    h.since s.stack s.nextList depth s.journal
  have hinside := maintains_chronicledExec
    (I := fun (a : Beginning W × List (Beginning W)) => Heeds (a.1 :: a.2))
    (fun a => Session.offStack_heeds a.1 a.2) hdepth rounds
    (fun hrun a => leads_chronicledStep_heeds rounds (fun b active => hrun (b, active)) _) levels
  refine Leads.chronicledExec (fun _ _ h => h.stops) hdepth ?_ prog
  exact leads_chronicledStep_heeds rounds (fun b active => hinside (b, active)) []

end Stopped

/-! ## Interrupted runs -/

/-- Whether a call has failed: with a fatal condition, or because the host crashed. -/
def Outcome.isFailure : Outcome → Bool
  | .fault _ | .crashed _ => true
  | _ => false

namespace Session

section Flushing

variable {W : Type}

/-- How a call ends whose program has come to its end: with the flush of the output. -/
def flushOutcome (s : Session W) : Outcome :=
  match s.output.flush.2 with
  | none => .done
  | some (.failed error) => .fault ((Cause.outputFailed error).report s.line)
  | some (.crashed message) => .crashed message

theorem flushOutcome_ne_interrupted (s : Session W) (reason : Interrupt) :
    s.flushOutcome ≠ .interrupted reason := by
  unfold flushOutcome
  split <;> exact Outcome.noConfusion

theorem ofResult_flush (s : Session W) :
    ∃ journal, ofResult (Action.flush s) =
      ({ s with output := s.output.flush.1, journal := journal }, s.flushOutcome) := by
  rcases hflush : s.output.flush with ⟨output, error⟩
  have hagain : output.flush.1 = output := by
    have hflushed := s.output.flush_flush
    rw [hflush] at hflushed
    rw [hflushed]
  unfold flushOutcome
  rw [hflush]
  cases error with
  | none =>
    rw [Action.flush_of_none hflush]
    exact ⟨s.journal, rfl⟩
  | some error =>
    rw [Action.flush_of_some hflush]
    cases error with
    | crashed message => exact ⟨s.journal, rfl⟩
    | failed error =>
      -- the output is flushed once more where the failure is settled
      obtain ⟨journal, hsettled⟩ := ({ s with output := output } : Session W).exists_settleFault
        (.outputFailed error) s.line
      refine ⟨journal, Prod.ext ?_ rfl⟩
      refine hsettled.trans ?_
      unfold flushAnyway
      rw [hagain]

/-- The names, the files and the line of another session, and its output, which may have
been flushed. -/
def KeptFrom (u t : Session W) : Prop :=
  t.symbols = u.symbols ∧ t.world = u.world ∧ t.line = u.line ∧
    (t.output = u.output ∨ t.output = u.output.flush.1)

end Flushing

variable {W : Type} [FileSystem W]

/-- A run ends where its program does or where it halts, heeding interruptions in both
cases. -/
theorem Heeds.chronicledRun {s : Session (Chronicled W)} (h : s.Heeds []) (hlimit : 0 < s.limit)
    (rounds : Nat) (prog : List Value) :
    ∃ (t : Session (Chronicled W)) (output : Output) (journal : List Event),
      (output = t.output ∨ output = t.output.flush.1) ∧
      (s.runBy chronicledExec rounds prog).1 = { t with output := output, journal := journal } ∧
      (t.Heeds [] ∧ (s.runBy chronicledExec rounds prog).2 = t.flushOutcome ∨
        ∃ halt, t.HaltedHeeding halt ∧
          (s.runBy chronicledExec rounds prog).2 = (t.settle halt).2) := by
  obtain ⟨levels, hlevels⟩ : ∃ levels, s.limit = levels + 1 :=
    Nat.exists_eq_succ_of_ne_zero (Nat.ne_of_gt hlimit)
  have hexec := maintains_chronicledExec_heeds (W := W) rounds levels prog
  have hrest : s.atRest.Heeds [] := h.since s.stack s.nextList 0 s.journal
  have haction : actionBy chronicledExec rounds prog s =
      (chronicledExec rounds (levels + 1) prog >>= fun _ => Action.flush) s.atRest :=
    congrArg (fun n => (chronicledExec rounds n prog >>= fun _ => Action.flush) s.atRest) hlevels
  unfold Session.runBy
  rw [haction]
  cases hresult : chronicledExec rounds (levels + 1) prog s.atRest with
  | ok _ t =>
    obtain ⟨journal, hflush⟩ := t.ofResult_flush
    rw [Action.bind_of_ok hresult, hflush]
    exact ⟨t, _, journal, .inr rfl, rfl, .inl ⟨hexec.ok hrest hresult, rfl⟩⟩
  | error halt t =>
    obtain ⟨output, journal, houtput, hsettled⟩ := t.exists_settle halt
    rw [Action.bind_of_error hresult]
    exact ⟨t, output, journal, houtput, hsettled, .inr ⟨halt, hexec.error hrest hresult, rfl⟩⟩

/-- What an interrupted run has begun last and not changed since. -/
theorem Heeds.exists_interrupts {active : List (Beginning W)} {t : Session (Chronicled W)}
    (h : t.Heeds active) {reason : Interrupt} (hreason : t.interrupt = some reason) :
    ∃ b earlier, t.world.seen.begun = b :: earlier ∧ b.Interrupts reason ∧
      (t.symbols = b.left.symbols ∧ t.world.world = b.left.world ∧ t.line = b.left.line ∧
        t.output = b.left.output) := by
  have hinterrupted : t.interrupt ≠ none := by
    intro hnone
    cases hreason.symm.trans hnone
  obtain ⟨b, earlier, reason', hbegun, hinterrupts, stack, next, depth, journal, hsince⟩ :=
    h.stopped hinterrupted
  have hsame : some reason = some reason' :=
    hreason.symm.trans ((congrArg Session.interrupt hsince).trans hinterrupts.2.2)
  cases hsame
  exact ⟨b, earlier, hbegun, hinterrupts, congrArg Session.symbols hsince,
    congrArg Session.world hsince, congrArg Session.line hsince, congrArg Session.output hsince⟩

/-- How a run ends that was interrupted. -/
structure EndsStopped (reason : Interrupt) (b : Beginning W)
    (r : Session (Chronicled W) × Outcome) : Prop where
  interrupts : b.Interrupts reason
  live : ¬ r.1.world.seen.Overdue
  active : ∀ a ∈ r.1.world.seen.active, a ∈ r.1.world.seen.begun
  kept : b.left.KeptFrom r.1.unobserved
  outcome : r.2 = .interrupted reason ∨ r.1.world.seen.active ≠ [] ∧ r.2.isFailure = true ∨
    r.1.world.seen.active = [] ∧ r.2 = b.left.flushOutcome

theorem exists_endsStopped {s : Session (Chronicled W)} (h : s.Heeds [])
    (hlive : s.interrupt = none) {rounds : Nat} {prog : List Value} {reason : Interrupt}
    (hreason : (s.runBy chronicledExec rounds prog).1.interrupt = some reason)
    (hends : (s.runBy chronicledExec rounds prog).2 ≠ .exhausted) :
    ∃ b earlier, (s.runBy chronicledExec rounds prog).1.world.seen.begun = b :: earlier ∧
      EndsStopped reason b (s.runBy chronicledExec rounds prog) := by
  have hlimit : 0 < s.limit := by
    refine Nat.pos_of_ne_zero fun hzero => ?_
    have haction : actionBy chronicledExec rounds prog s = .error (.fault (.tooDeep 0)) s.atRest :=
      congrArg (fun n => (chronicledExec rounds n prog >>= fun _ => Action.flush) s.atRest) hzero
    obtain ⟨output, journal, _, hsettled⟩ := s.atRest.exists_settle (.fault (.tooDeep 0))
    rw [Session.runBy, haction, ofResult, hsettled] at hreason
    cases hlive.symm.trans hreason
  obtain ⟨t, output, journal, houtput, hsession, hend⟩ := h.chronicledRun hlimit rounds prog
  generalize s.runBy chronicledExec rounds prog = r at hreason hends hsession hend ⊢
  obtain ⟨u, outcome⟩ := r
  cases hsession
  have hheeds : t.Heeds t.world.seen.active := by
    rcases hend with ⟨hheeds, _⟩ | ⟨halt, hhalted, _⟩
    · rw [hheeds.active]
      exact hheeds
    · exact hhalted.heeds
  obtain ⟨b, earlier, hbegun, hinterrupts, hsymbols, hworld, hline, hout⟩ :=
    hheeds.exists_interrupts hreason
  refine ⟨b, earlier, hbegun, hinterrupts, ?_, hheeds.begun, ⟨hsymbols, hworld, hline, ?_⟩, ?_⟩
  · rintro ⟨a, ha, hoverdue⟩
    exact hoverdue (hheeds.live a ha)
  · rw [← hout]
    exact houtput
  · rcases hend with ⟨hended, rfl⟩ | ⟨halt, hhalted, rfl⟩
    · refine .inr (.inr ⟨hended.active, ?_⟩)
      unfold flushOutcome
      rw [hout, hline]
    · cases halt with
      | interrupted other =>
        cases hreason.symm.trans (hhalted.reason other rfl)
        exact .inl rfl
      | exit =>
        refine absurd rfl (hhalted.exit ?_)
        intro hnone
        cases hreason.symm.trans hnone
      | exhausted => exact absurd rfl hends
      | fault cause =>
        exact .inr (.inl ⟨hhalted.active_ne_nil fun _ => Halt.noConfusion, rfl⟩)
      | crashed message =>
        exact .inr (.inl ⟨hhalted.active_ne_nil fun _ => Halt.noConfusion, rfl⟩)

/-- A run that is interrupted beforehand stops at its first element: all that happens is that
output which was held back is flushed. -/
theorem run_of_interrupt {s : Session W} {reason : Interrupt} (hreason : s.interrupt = some reason)
    (hlimit : 0 < s.limit) (rounds : Nat) {prog : List Value} (hprog : prog ≠ []) :
    s.run rounds prog =
      ({ s with depth := 1, output := s.output.flush.1 }, .interrupted reason) := by
  obtain ⟨levels, hlevels⟩ : ∃ levels, s.limit = levels + 1 :=
    Nat.exists_eq_succ_of_ne_zero (Nat.ne_of_gt hlimit)
  obtain ⟨v, rest, rfl⟩ := List.exists_cons_of_ne_nil hprog
  have haction : runAction rounds (v :: rest) s =
      (exec rounds (levels + 1) (v :: rest) >>= fun _ => Action.flush) s.atRest :=
    congrArg (fun n => (exec rounds n (v :: rest) >>= fun _ => Action.flush) s.atRest) hlevels
  have hwalk : walk (step (exec rounds levels) rounds) (v :: rest) { s with depth := 1 } =
      .error (.interrupted reason) { s with depth := 1 } :=
    Action.bind_of_error (Action.checkpoint_of_some hreason)
  have hexec : exec rounds (levels + 1) (v :: rest) s.atRest =
      .error (.interrupted reason) { s with depth := 1 } :=
    (Action.bind_of_error hwalk : (walk _ _ >>= fun _ => Action.ascend) _ = _)
  rw [run, haction, Action.bind_of_error hexec]
  rfl

/-- Interruption stops a run.  One that is interrupted beforehand begins nothing.  One that an
access to the files interrupts begins nothing after it, and names, files, line and what was
printed stay as the access left them.  It ends, and in one way for any number of rounds beyond
those up to there: for the interruption, with a failure of an instruction that was begun before
and has not ended, or with the flush of the output; and unless it ends for the interruption,
nothing more would have been begun over files that cancel no run. -/
theorem run_interrupted (s : Session W) (prog : List Value) (reason : Interrupt) :
    (0 < s.limit → prog ≠ [] → ∀ rounds, s.call (.run (some reason) rounds prog) =
      ({ s.under (some reason) with depth := 1, output := s.output.flush.1 },
        .interrupted reason)) ∧
    ∀ rounds, (s.call (.run none rounds prog)).1.interrupt = some reason →
      ∃ b earlier active t outcome,
        (∀ n, rounds < n → s.call (.run none n prog) = (t, outcome) ∧
          s.begunBy (.run none n prog) = b :: earlier ∧
          s.activeAfter (.run none n prog) = active) ∧
        b.Interrupts reason ∧ b.left.KeptFrom t ∧ (∀ a ∈ active, a ∈ b :: earlier) ∧
        (outcome = .interrupted reason ∨ active ≠ [] ∧ outcome.isFailure = true ∨
          active = [] ∧ outcome = b.left.flushOutcome) ∧
        (outcome = .interrupted reason ∨ ∀ n, rounds < n →
          s.uncancelled.call (.run none n prog) = (t.uncancelled, outcome) ∧
          s.uncancelled.begunBy (.run none n prog) = b :: earlier) := by
  refine ⟨?_, ?_⟩
  · intro hlimit hprog rounds
    exact run_of_interrupt (s := s.under (some reason)) rfl hlimit rounds hprog
  intro rounds hreason
  rw [call_unchronicled] at hreason
  obtain ⟨r, hinterrupt, hends, hsame⟩ := (s.chronicled.under none).exists_chronicledRun hreason
  have hheeds : (s.chronicled.under none).Heeds [] :=
    ⟨fun _ hb => absurd hb List.not_mem_nil, fun _ hb => absurd hb List.not_mem_nil, rfl,
      fun hinterrupted => absurd rfl hinterrupted⟩
  have hrun := hsame (rounds + 1) (Nat.lt_succ_self rounds)
  rw [← hrun] at hinterrupt hends
  obtain ⟨b, earlier, hbegun, hstopped⟩ := exists_endsStopped hheeds rfl hinterrupt hends
  rw [hrun] at hbegun hstopped
  have hactive : ∀ a ∈ r.1.world.seen.active, a ∈ b :: earlier := by
    rw [← hbegun]
    exact hstopped.active
  refine ⟨b, earlier, r.1.world.seen.active, r.1.unobserved, r.2, ?_, hstopped.interrupts,
    hstopped.kept, hactive, hstopped.outcome, ?_⟩
  · intro n hn
    have hcall : s.chronicled.callBy chronicledExec (.run none n prog) = r := hsame n hn
    rw [call_unchronicled, begunBy, activeAfter, hcall]
    exact ⟨rfl, hbegun, rfl⟩
  · rcases hstopped.outcome with houtcome | hother
    · exact .inl houtcome
    refine .inr fun n hn => ?_
    have hcall := hsame n hn
    have hlive := hstopped.live
    rw [← hcall] at hlive
    rcases (s.chronicled.under none).chronicledRun_liveOn n prog hlive with
      ⟨other, hinterrupted⟩ | hlast
    · rw [hcall] at hinterrupted
      rcases hother with ⟨_, hfailure⟩ | ⟨_, hflush⟩
      · rw [hinterrupted] at hfailure
        cases hfailure
      · exact absurd (hflush.symm.trans hinterrupted) (b.left.flushOutcome_ne_interrupted other)
    · rw [hcall] at hlast
      change s.uncancelled.chronicled.callBy chronicledExec (.run none n prog) =
        (r.1.liveOn, r.2) at hlast
      rw [call_unchronicled, begunBy, hlast]
      exact ⟨rfl, hbegun⟩

/-- A session over a file `f` whose reading cancels the run. -/
def overCancelling : Session MemoryFiles :=
  Session.new ⟨Table.empty.bind (ascii "f") (ascii "x"), [], [ascii "f"], none⟩

/-- A program that reads `f` for each of two numbers, in a loop. -/
def readsInLoop : List Value :=
  [.list .bare [.list .bare [.number Double.one, .number Double.one],
      .list .bare [.text (ascii "f"), .text (ascii ".read")], .text (ascii ".each"),
      .number Double.one],
    .text (ascii ".while")]

/-- The first reading cancels the run, which is then stopped inside `.each` and `.while`: the
second number is there, but no element is begun for it. -/
theorem run_interrupted_readsInLoop :
    overCancelling.call (.run (some .expired) 0 readsInLoop) =
        ({ overCancelling.under (some .expired) with
          depth := 1, output := overCancelling.output.flush.1 }, .interrupted .expired) ∧
      (overCancelling.call (.run none 1 readsInLoop)).1.interrupt = some .canceled ∧
      ∀ n, 1 < n → (overCancelling.call (.run none n readsInLoop)).2 = .interrupted .canceled ∧
        (overCancelling.call (.run none n readsInLoop)).1.stack.toList =
          [.number Double.one, .text (ascii "x"), .number Double.one] ∧
        (overCancelling.begunBy (.run none n readsInLoop)).length = 7 := by
  obtain ⟨hbefore, _⟩ := run_interrupted overCancelling readsInLoop .expired
  obtain ⟨_, hduring⟩ := run_interrupted overCancelling readsInLoop .canceled
  have hcanceled : (overCancelling.call (.run none 1 readsInLoop)).1.interrupt =
      some .canceled := rfl
  have hexpired := hbefore (by decide) (List.cons_ne_nil _ _) 0
  refine ⟨hexpired, hcanceled, ?_⟩
  obtain ⟨b, earlier, active, t, outcome, hsame, _⟩ := hduring 1 hcanceled
  obtain ⟨htwo, hbegun, _⟩ := hsame 2 (by decide)
  intro n hn
  obtain ⟨hcall, hbegun', _⟩ := hsame n hn
  rw [hcall, hbegun', ← htwo, ← hbegun]
  exact ⟨rfl, rfl, rfl⟩

/-- A program that prints a number and reads `f`. -/
def printsAndReads : List Value :=
  [.number Double.one, .text (ascii ".print"), .text (ascii "f"), .text (ascii ".read")]

/-- A session over files that crash, with a buffer for its output. -/
def overCrashing : Session MemoryFiles :=
  { Session.new ⟨.empty, [], [], some (ascii "boom")⟩ with
    output := .buffered (.ofSink (.ofLimit none)) }

/-- A cancelled run flushes the output all the same.  It can come to the end of its program
and fail there, with nothing being evaluated any more; and one that begins nothing hands on
what a crash has left in the buffer. -/
theorem cancelled_run_flushes :
    (let s : Session MemoryFiles :=
        { overCancelling with output := .buffered (.ofSink (.ofLimit (some 1))) }
      let c : Call := .run none 0 printsAndReads
      (s.call c).1.interrupt = some .canceled ∧ s.activeAfter c = [] ∧
        (s.call c).2.message? = some (ascii "line 1: file failure: output: broken")) ∧
    (let s := (overCrashing.call (.run none 0 printsAndReads)).1
      let c : Call := .run (some .canceled) 0 [.number Double.one]
      s.output.received = [] ∧ (s.call c).1.output.received = ascii "1\n") := by
  refine ⟨⟨by decide +kernel, ?_, by decide +kernel⟩, by decide +kernel, by decide +kernel⟩
  exact List.isEmpty_iff.1 (by decide +kernel)

end Session

end StackScript
