import StackScript.Proofs.FaultLine
import StackScript.Proofs.Unheeded
set_option autoImplicit false

/-!
# Line markers are transparent

A line marker is a number followed by the instruction that makes it the current line.  It may
stand anywhere in a program: the number is taken off the stack as soon as it is there, and
nothing but what is told of the run depends on the line.  So a live run goes the same way
with the marker and without, and differs in the line, in notes and in diagnostics alone.
-/

namespace StackScript

/-- Whether an entry of the journal tells nothing of the line: it is neither a note nor a
diagnostic. -/
def Event.isLineless (e : Event) : Bool := e.note?.isNone && e.diagnostic?.isNone

/-- The same sessions and outcomes, but for the line and what is told of it. -/
def Session.SameButLine {W : Type} (r r' : Session W × Outcome) : Prop :=
  ∃ line journal, r'.1 = { r.1 with line := line, journal := journal } ∧
    r'.2.lineless = r.2.lineless ∧
    journal.filter Event.isLineless = r.1.journal.filter Event.isLineless

/-- Sessions on different lines. -/
def Scope.lines (on : Listening) : Scope where
  first := on
  second := on
  sameLine := false
  shared := Event.isLineless
  shared_note _ h := Bool.noConfusion h
  shared_diagnostic _ h := Bool.noConfusion h

namespace Scope

variable {W : Type} {s s' : Session W}

theorem alike_lines {on : Listening} (hon : s.listening = on) (line : Int) {journal : List Event}
    (h : journal.filter Event.isLineless = s.journal.filter Event.isLineless) :
    (lines on).Alike s { s with line := line, journal := journal } := by
  subst hon
  exact ⟨rfl, line, journal, rfl, Bool.noConfusion, h⟩

theorem Agree.sameButLine {on : Listening} {r r' : Session W × Outcome}
    (h : (lines on).Agree r r') : Session.SameButLine r r' := by
  obtain ⟨⟨hlistening, line, journal, hsession, _, hjournal⟩, houtcome, _⟩ := h
  refine ⟨line, journal, ?_, houtcome, hjournal⟩
  rw [hsession, ← show r.1.listening = (lines on).second from hlistening]
  rfl

end Scope

/-! ## Walks with a marker -/

/-- A walk over two parts walks over the first and then over the second. -/
theorem walk_append {W : Type} (act : Value → Action W Unit) (p q : List Value) :
    walk act (p ++ q) = walk act p >>= fun _ => walk act q := by
  induction p with
  | nil => rfl
  | cons v rest ih => simp only [List.cons_append, walk, ih, bind_assoc]

/-! ## What a run is left with -/

section View

variable {W α β : Type}

/-- What a run is left with, in one respect. -/
def finalView (view : Session W → β) : EStateM.Result Halt (Session W) α → β
  | .ok _ t => view t
  | .error _ t => view t

/-- An action after which the view is the same shows what the one before it left. -/
theorem finalView_bind {γ : Type} {view : Session W → β} {x : Action W α} {f : α → Action W γ}
    (hf : ∀ a t, finalView view (f a t) = view t) (s : Session W) :
    finalView view ((x >>= f) s) = finalView view (x s) := by
  cases hx : x s with
  | ok a t =>
    rw [Action.bind_of_ok hx]
    exact hf a t
  | error halt t =>
    rw [Action.bind_of_error hx]
    rfl

/-- What follows a program, the flush and what is told of a halt, is not seen in a view that
sees neither the output nor the journal. -/
theorem Session.view_run [FileSystem W] {view : Session W → β}
    (hview : ∀ (s : Session W) output journal,
      view { s with output := output, journal := journal } = view s)
    (s : Session W) (rounds : Nat) (prog : List Value) :
    view (s.run rounds prog).1 = finalView view (exec rounds s.limit prog s.atRest) := by
  have hflush (t : Session W) : finalView view (Action.flush t) = view t := by
    rcases hflush : t.output.flush with ⟨output, error⟩
    cases error with
    | none =>
      rw [Action.flush_of_none hflush]
      exact hview t output t.journal
    | some error =>
      rw [Action.flush_of_some hflush]
      exact hview t output t.journal
  have haction : finalView view (Session.runAction rounds prog s) =
      finalView view (exec rounds s.limit prog s.atRest) :=
    finalView_bind (fun _ => hflush) s.atRest
  rw [← haction]
  unfold Session.run
  cases Session.runAction rounds prog s with
  | ok _ t => rfl
  | error halt t =>
    obtain ⟨output, journal, _, hsettled⟩ := t.exists_settle halt
    exact (congrArg view hsettled).trans (hview t output journal)

end View

/-- What is left of a walk that was interrupted before it is not walked. -/
theorem finalView_interrupt_walk {W : Type} {act : Value → Action W Unit} {s : Session W}
    {reason : Interrupt} (h : s.interrupt = some reason) (prog : List Value) :
    finalView Session.interrupt (walk act prog s) = some reason := by
  cases prog with
  | nil => exact h
  | cons v rest =>
    have hwalk : walk act (v :: rest) s = .error (.interrupted reason) s :=
      Action.bind_of_error (Action.checkpoint_of_some h)
    rw [hwalk]
    exact h

section Marker

variable {W : Type} [FileSystem W]

/-- A marker, as the two elements of a program that it is. -/
def Tree.marker (x : Double) : List Value := [.number x, .text Tree.lineMark]

/-- In a live run a marker sets the line, with no other trace than notes. -/
theorem walk_marker (run : Action.Runner W) (rounds : Nat) (x : Double) (q : List Value)
    {s : Session W} (h : s.interrupt = none) :
    ∃ notes : List Note, walk (step run rounds) (Tree.marker x ++ q) s =
      walk (step run rounds) q
        { s with line := x.toInt64, journal := notes.map Event.note ++ s.journal } := by
  obtain ⟨pushed, hpushed⟩ := s.exists_noteAt_append .trace
    fun _ => ascii "push " ++ (Value.number x).format
  let u : Session W := { s with journal := pushed.map Event.note ++ s.journal }
  have hnumber : step run rounds (.number x) s = .ok () (u.pushValue (.number x)) :=
    congrArg (fun u : Session W => EStateM.Result.ok () (u.pushValue (.number x))) hpushed
  obtain ⟨notes, hmark⟩ := step_lineMark run rounds u x
  refine ⟨notes ++ pushed, ?_⟩
  rw [List.map_append, List.append_assoc]
  refine (Action.bind_of_ok (Action.checkpoint_of_none h)).trans ?_
  refine (Action.bind_of_ok hnumber).trans ?_
  have hstill : (u.pushValue (.number x)).interrupt = none := h
  exact (Action.bind_of_ok (Action.checkpoint_of_none hstill)).trans (Action.bind_of_ok hmark)

theorem filter_isLineless_notes (notes : List Note) (journal : List Event) :
    (notes.map Event.note ++ journal).filter Event.isLineless =
      journal.filter Event.isLineless := by
  have hnone : (notes.map Event.note).filter Event.isLineless = [] := by
    refine List.filter_eq_nil_iff.2 ?_
    intro e he
    obtain ⟨n, _, rfl⟩ := List.mem_map.1 he
    exact Bool.noConfusion
  rw [List.filter_append, hnone, List.nil_append]

/-- A walk that is left live goes the same way with a marker in it. -/
theorem meets_walk_marker (rounds levels : Nat) (x : Double) (p q : List Value) {s : Session W}
    (h : finalView Session.interrupt (walk (step (exec rounds levels) rounds) (p ++ q) s) = none) :
    ((Scope.lines s.listening).link W).Meets
      (walk (step (exec rounds levels) rounds) (p ++ q) s)
      (walk (step (exec rounds levels) rounds) (p ++ Tree.marker x ++ q) s) := by
  have hsim := Link.sim_walk (ℓ := (Scope.lines s.listening).link W)
    (Link.sim_step ((Scope.link_sameDepth W _).sim_exec rounds levels) rounds)
  -- up to the marker both walks are the same
  have hfirst := (hsim p).meets (Scope.alike_lines rfl s.line rfl)
  rw [walk_append] at h
  rw [List.append_assoc, walk_append, walk_append]
  generalize hp : walk (step (exec rounds levels) rounds) p s = r at hfirst
  cases r with
  | error halt t =>
    rw [Action.bind_of_error hp, Action.bind_of_error hp]
    exact hfirst
  | ok _ t =>
    rw [Action.bind_of_ok hp] at h ⊢
    rw [Action.bind_of_ok hp]
    have hlive : t.interrupt = none := by
      cases hinterrupt : t.interrupt with
      | none => rfl
      | some reason =>
        rw [finalView_interrupt_walk hinterrupt] at h
        cases h
    have hlistening : t.listening = s.listening := by
      cases hfirst with
      | ok rel => exact rel.1
      | stray stray => exact stray.elim
    obtain ⟨notes, hmarker⟩ := walk_marker (exec rounds levels) rounds x q hlive
    rw [hmarker]
    exact (hsim q).meets
      (Scope.alike_lines hlistening x.toInt64 (filter_isLineless_notes notes t.journal))

/-! ## Runs with a marker -/

/-- What follows a program does not change whether its run is left interrupted. -/
theorem interrupt_run (s : Session W) (rounds : Nat) (prog : List Value) :
    (s.run rounds prog).1.interrupt =
      finalView Session.interrupt (exec rounds s.limit prog s.atRest) :=
  Session.view_run (fun _ _ _ => rfl) s rounds prog

/-- A list whose run is left live runs the same way with a marker in it. -/
theorem meets_exec_marker (rounds levels : Nat) (x : Double) (p q : List Value) {s : Session W}
    (h : finalView Session.interrupt (exec rounds levels (p ++ q) s) = none) :
    ((Scope.lines s.listening).link W).Meets (exec rounds levels (p ++ q) s)
      (exec rounds levels (p ++ Tree.marker x ++ q) s) := by
  cases levels with
  | zero => exact .error (Scope.alike_lines rfl s.line rfl)
  | succ levels =>
    let u : Session W := { s with depth := s.depth + 1 }
    have hlive : finalView Session.interrupt
        (walk (step (exec rounds levels) rounds) (p ++ q) u) = none :=
      (finalView_bind (fun _ _ => rfl) u).symm.trans h
    exact (meets_walk_marker rounds levels x p q hlive).bind fun _ =>
      (Scope.link_sameDepth W _).sim_ascend

end Marker

namespace Session

variable {W : Type} [FileSystem W]

/-- A marker anywhere in the program of a live run, and any other line to start from, make no
difference but for the line and what is told of it: the stack, the names, the output, the
files and everything else are left the same, and the run ends the same way. -/
theorem run_lineMark_transparent (s : Session W) (rounds : Nat) (p q : List Value) (x : Double)
    (h : (s.run rounds (p ++ q)).1.interrupt = none) :
    SameButLine (s.run rounds (p ++ q))
        (s.run rounds (p ++ [.number x, .text Tree.lineMark] ++ q)) ∧
      ∀ line, SameButLine (s.run rounds (p ++ q))
        ({ s with line := line }.run rounds (p ++ q)) := by
  refine ⟨?_, ?_⟩
  · rw [interrupt_run] at h
    have hmeets := (meets_exec_marker rounds s.limit x p q h).bind fun _ => Link.sim_flush
    exact (Scope.agree_ofResult hmeets).sameButLine
  · intro line
    exact ((Scope.alike_lines rfl line rfl).run rounds (p ++ q)).sameButLine

/-- A session with one text on its stack. -/
def oneText : Session MemoryFiles :=
  { Session.overNoFiles with stack := ⟨[.text (ascii "a")]⟩ }

/-- Two elements that leave the stack as it was. -/
def keepsOne : List Value := [.text (ascii ".dup"), .text (ascii ".pop")]

/-- The marker comes where the stack holds too little for what follows: the run ends with the
fault that it ends with anyway, told of on the line that the marker sets. -/
theorem run_lineMark_transparent_runningOut :
    (oneText.run 0 (keepsOne ++ [.text (ascii ".swap")])).1.interrupt = none ∧
      SameButLine (oneText.run 0 (keepsOne ++ [.text (ascii ".swap")]))
        (oneText.run 0 (keepsOne ++ [.number (Double.ofNat 7), .text Tree.lineMark] ++
          [.text (ascii ".swap")])) ∧
      (oneText.run 0 (keepsOne ++ [.text (ascii ".swap")])).2.faultLine? = some 1 ∧
      (oneText.run 0 (keepsOne ++ [.number (Double.ofNat 7), .text Tree.lineMark] ++
        [.text (ascii ".swap")])).2.faultLine? = some 7 := by
  have hlive : (oneText.run 0 (keepsOne ++ [.text (ascii ".swap")])).1.interrupt = none := by
    decide +kernel
  obtain ⟨hmarker, _⟩ := run_lineMark_transparent oneText 0 keepsOne [.text (ascii ".swap")]
    (Double.ofNat 7) hlive
  exact ⟨hlive, hmarker, by decide +kernel, by decide +kernel⟩

end Session

end StackScript
