import StackScript.Proofs.Equality
import StackScript.Proofs.Inventory
set_option autoImplicit false

/-!
# Nothing is absent

The absent value stands for no value at all, and only a host can supply it.  No instruction
makes one, whether it ends or halts, and no source is read as one, so a session in which
nothing is absent, at any depth, stays so as long as the programs that it is given hold
nothing absent either.

Evaluating an absent value does nothing.  In such sessions that never happens: whatever else
were done there, in place of nothing, every call would end the same.
-/

namespace StackScript

open StackScript.Action (Runner Stocks Restocks)

/-! ## Present values -/

/-- Neither a value nor anything in it is absent. -/
def Value.Present (v : Value) : Prop := .absent ∉ v.parts

/-- Nothing in some values is absent. -/
def Value.AllPresent (values : List Value) : Prop := ∀ v ∈ values, v.Present

theorem Value.absent_mem_partsOf {values : List Value} :
    .absent ∈ partsOf values ↔ ∃ v ∈ values, .absent ∈ v.parts := by
  induction values with
  | nil => simp [partsOf]
  | cons v rest ih => simp [partsOf, ih]

theorem Value.present_list {id : ListId} {items : List Value} :
    (Value.list id items).Present ↔ AllPresent items := by
  simp [Present, AllPresent, parts, absent_mem_partsOf]

/-- Nothing that a session holds is absent. -/
structure Session.Present {W : Type} (s : Session W) : Prop where
  stack : Value.AllPresent s.stack.values
  symbols : ∀ e ∈ s.symbols.entries, e.2.Present

/-- The inventory of present values, which knows one stage only: to be present does not depend
on which lists have been made. -/
def Inventory.present : Inventory Unit where
  Le _ _ := True
  Holds _ v := v.Present
  Free _ _ := True
  refl _ := trivial
  trans _ _ := trivial
  mono _ h := h
  number _ x := by simp [Value.Present, Value.parts]
  text _ s := by simp [Value.Present, Value.parts]
  items h := Value.present_list.1 h
  make _ h := ⟨(), trivial, Value.present_list.2 h, fun _ _ _ => trivial⟩

open Inventory (present)

theorem Value.Present.items {v : Value} (h : v.Present) : AllPresent v.items :=
  present.holdsAll_items (k := ()) h

theorem Session.present_iff_stocked {W : Type} {s : Session W} :
    s.Present ↔ s.Stocked present () :=
  ⟨fun h => ⟨h.stack, h.symbols, fun _ _ => trivial⟩, fun h => ⟨h.stack, h.symbols⟩⟩

/-! ## Sources and calls -/

/-- What is read from a source holds nothing absent, whichever identities its lists get. -/
theorem Tree.allPresent_loadAll (next : Nat) (trees : List Tree) :
    Value.AllPresent (Tree.loadAll next trees).1 := by
  obtain ⟨_, _, hloaded, _⟩ :=
    Inventory.exists_loadAll (ι := present) (k := ()) trees fun _ _ => trivial
  exact hloaded

theorem Session.allPresent_of_parse {W : Type} {s t : Session W} {src : Bytes}
    {prog : List Value} (h : s.parse src = (t, .ok prog)) : Value.AllPresent prog := by
  have hresult := s.parse_result src
  rw [h] at hresult
  cases hread : (Reader.start.parse src).2 with
  | error error =>
    rw [hread] at hresult
    cases hresult
  | ok trees =>
    rw [hread] at hresult
    cases hresult
    exact Tree.allPresent_loadAll _ _

section Sessions

variable {W : Type} [FileSystem W]

theorem Session.Present.call {s : Session W} (hs : s.Present) {c : Call}
    (hc : Value.AllPresent c.program) : (s.call c).1.Present := by
  obtain ⟨_, _, hlast⟩ := Stocked.call (present_iff_stocked.1 hs) hc
  exact present_iff_stocked.2 hlast

theorem Session.Present.afterCalls (calls : List Call) :
    ∀ {s : Session W}, s.Present → (∀ c ∈ calls, Value.AllPresent c.program) →
      (s.afterCalls calls).Present := by
  induction calls with
  | nil => exact fun hs _ => hs
  | cons c rest ih =>
    intro s hs hcalls
    obtain ⟨hc, hrest⟩ := List.forall_mem_cons.1 hcalls
    exact ih (hs.call hc) hrest

end Sessions

/-! ## Evaluating an absent value

The evaluator with another action in place of what `$` does with an absent value.  Nothing
else is different: with the action that does nothing it is the evaluator itself
(`Session.callOr_pure`). -/

section Otherwise

variable {W : Type}

/-- Takes a value and evaluates it as `evaluate` does, but an absent value by `other`. -/
def Action.evaluateOr (other : Action W Unit) (run : Runner W) : Action W Unit := do
  let v ← pop
  note .debug fun _ => v.format ++ ascii " $"
  match v with
  | .number _ => push v
  | .list _ items => run items
  | .text name => do push (← valueOf name)
  | .absent => other

variable [FileSystem W]

/-- The action of an instruction where an absent value is evaluated by `other`. -/
def Instruction.performOr (other : Action W Unit) (run : Runner W) (rounds : Nat) :
    Instruction → Action W Unit
  | .eval => Action.evaluateOr other run
  | .evalTwice => do
    Action.evaluateOr other run
    Action.evaluateOr other run
  | i => i.perform run rounds

theorem Instruction.performOr_pure (run : Runner W) (rounds : Nat) (i : Instruction) :
    i.performOr (pure ()) run rounds = i.perform run rounds := by
  cases i <;> rfl

/-- Runs a program where an absent value is evaluated by `other`. -/
def execOr (other : Action W Unit) (rounds levels : Nat) : Runner W :=
  execBy (fun run => stepWith (Instruction.performOr other run rounds)) levels

theorem execOr_pure (rounds levels : Nat) :
    execOr (pure ()) rounds levels = (exec rounds levels : Runner W) := by
  rw [← execBy_step]
  refine congrArg (execBy · levels) ?_
  funext run v
  rw [← stepWith_perform]
  refine congrArg (stepWith · v) ?_
  funext i
  exact Instruction.performOr_pure run rounds i

namespace Session

/-- Makes a call where absent values are evaluated by `other`. -/
def callOr (other : Action W Unit) (s : Session W) : Call → Session W × Outcome :=
  s.callBy (execOr other)

theorem callOr_pure (s : Session W) (c : Call) : s.callOr (pure ()) c = s.call c := by
  have hexec : execOr (pure ()) = (exec : Conduct W) := by
    funext rounds levels
    exact execOr_pure rounds levels
  rw [callOr, hexec]
  exact s.callBy_exec c

end Session

end Otherwise

/-! ## Actions that do the same where nothing is absent -/

/-- Two actions do the same in every session that holds nothing absent. -/
def Action.Alike {W α : Type} (x y : Action W α) : Prop := ∀ s : Session W, s.Present → x s = y s

namespace Action.Alike

variable {W α β : Type}

theorem refl (x : Action W α) : Alike x x := fun _ _ => rfl

/-- What goes on alike after actions that are alike is alike, given what the first of them
leaves in a session that holds nothing absent. -/
theorem bind {x y : Action W α} {f g : α → Action W β} {P : α → Prop} (hxy : Alike x y)
    (hx : Stocks present () (fun _ a _ => P a) x) (hfg : ∀ a, P a → Alike (f a) (g a)) :
    Alike (x >>= f) (y >>= g) := by
  intro s hs
  have hstocked := Session.present_iff_stocked.1 hs
  have hsame := hxy s hs
  cases hxs : x s with
  | error halt t =>
    rw [bind_of_error hxs, bind_of_error (hsame.symm.trans hxs)]
  | ok a t =>
    obtain ⟨_, _, ht, ha⟩ := hx.ok trivial hstocked hxs
    rw [bind_of_ok hxs, bind_of_ok (hsame.symm.trans hxs)]
    exact hfg a ha t (Session.present_iff_stocked.2 ht)

/-- The same action goes on alike. -/
theorem next {x : Action W α} {f g : α → Action W β} {P : α → Prop}
    (hx : Stocks present () (fun _ a _ => P a) x) (hfg : ∀ a, P a → Alike (f a) (g a)) :
    Alike (x >>= f) (x >>= g) :=
  (refl x).bind hx hfg

end Action.Alike

section Instructions

variable {W : Type} {run run' : Runner W}

/-- Lists that hold nothing absent are run alike, and leave nothing absent behind. -/
structure Action.RunAlike (run run' : Runner W) : Prop where
  stocks : present.Runs run
  alike : ∀ {prog}, Value.AllPresent prog → Alike (run prog) (run' prog)

namespace Action

section Runners

variable (hrun : RunAlike run run')
include hrun

/-- The value taken is present, so `other` has no part in evaluating it. -/
theorem alike_evaluateOr (other : Action W Unit) :
    Alike (evaluate run) (evaluateOr other run') := by
  refine .next stocks_pop fun v hv => ?_
  refine .next (idle_note _ _).restocks fun _ _ => ?_
  cases v with
  | number x => exact .refl _
  | list id items => exact hrun.alike (Value.present_list.1 hv)
  | text name => exact .refl _
  | absent => exact absurd (List.mem_singleton_self _) hv

theorem alike_evaluateTwice (other : Action W Unit) :
    Alike (do evaluate run; evaluate run)
      (do evaluateOr other run'; evaluateOr other run') :=
  (alike_evaluateOr hrun other).bind (restocks_evaluate hrun.stocks) fun _ _ =>
    alike_evaluateOr hrun other

theorem alike_runIf : Alike (runIf run) (runIf run') := by
  refine .next restocks_popNumber fun x _ => .next stocks_popList fun body hbody => ?_
  split
  · exact .refl _
  · exact hrun.alike hbody.items

theorem alike_runIfElse : Alike (runIfElse run) (runIfElse run') := by
  refine .next restocks_popNumber fun x _ => .next stocks_popList fun yes hyes => ?_
  refine .next stocks_popList fun no hno => hrun.alike ?_
  split
  · exact hno.items
  · exact hyes.items

theorem alike_runOver {body : List Value} (hbody : Value.AllPresent body) (items : List Value) :
    Value.AllPresent items → Alike (runOver run body items) (runOver run' body items) := by
  induction items with
  | nil => exact fun _ => .refl _
  | cons item rest ih =>
    intro hitems
    obtain ⟨hitem, hrest⟩ := List.forall_mem_cons.1 hitems
    refine .next (restocks_push hitem) fun _ _ => ?_
    exact (hrun.alike hbody).bind (hrun.stocks hbody) fun _ _ => ih hrest

theorem alike_runEach : Alike (runEach run) (runEach run') := by
  refine .next stocks_popList fun body hbody => .next stocks_popList fun list hlist => ?_
  exact alike_runOver hrun hbody.items _ hlist.items

theorem alike_runReduce : Alike (runReduce run) (runReduce run') := by
  refine .next stocks_popList fun body hbody => .next stocks_popList fun list hlist => ?_
  refine .next (idle_note _ _).restocks fun _ _ => ?_
  exact alike_runOver hrun hbody.items _ hlist.items

theorem alike_collect {body : List Value} (hbody : Value.AllPresent body) (items : List Value) :
    ∀ results, Value.AllPresent items →
      Alike (collect run body results items) (collect run' body results items) := by
  induction items with
  | nil => exact fun _ _ => .refl _
  | cons item rest ih =>
    intro results hitems
    obtain ⟨hitem, hrest⟩ := List.forall_mem_cons.1 hitems
    refine .next (restocks_push hitem) fun _ _ => ?_
    refine (hrun.alike hbody).bind (hrun.stocks hbody) fun _ _ => ?_
    exact .next stocks_pop fun result _ => ih (result :: results) hrest

theorem alike_runMap : Alike (runMap run) (runMap run') := by
  refine .next stocks_popList fun body hbody => .next stocks_popList fun list hlist => ?_
  refine .next (idle_note _ _).restocks fun _ _ => ?_
  exact .bind (P := Value.AllPresent) (alike_collect hrun hbody.items _ [] hlist.items)
    (stocks_collect hrun.stocks _ hbody.items (List.forall_mem_nil _) hlist.items)
    fun results _ => .refl (pushList results)

theorem alike_repeatBody {body : List Value} (hbody : Value.AllPresent body) (rounds : Nat) :
    Alike (repeatBody run body rounds) (repeatBody run' body rounds) := by
  induction rounds with
  | zero => exact .refl _
  | succ rounds ih =>
    refine .next idle_checkpoint.restocks fun _ _ => ?_
    refine (hrun.alike hbody).bind (hrun.stocks hbody) fun _ _ => ?_
    refine .next restocks_popNumber fun x _ => ?_
    split
    · exact .refl _
    · exact ih

theorem alike_runLoop (rounds : Nat) : Alike (runLoop run rounds) (runLoop run' rounds) :=
  .next stocks_popList fun _ hbody =>
    alike_repeatBody hrun hbody.items rounds

end Runners

variable [FileSystem W]

theorem alike_performOr_of_runsLists (hrun : RunAlike run run') (other : Action W Unit)
    (rounds : Nat) {i : Instruction} (h : i.runsLists = true) :
    Alike (i.perform run rounds) (i.performOr other run' rounds) := by
  cases i <;> cases h
  case eval => exact alike_evaluateOr hrun other
  case evalTwice => exact alike_evaluateTwice hrun other
  case cond => exact alike_runIf hrun
  case condElse => exact alike_runIfElse hrun
  case each => exact alike_runEach hrun
  case loop => exact alike_runLoop hrun rounds
  case reduce => exact alike_runReduce hrun
  case map => exact alike_runMap hrun

theorem alike_performOr (hrun : RunAlike run run') (other : Action W Unit) (rounds : Nat)
    (i : Instruction) : Alike (i.perform run rounds) (i.performOr other run' rounds) := by
  cases h : i.runsLists with
  | true => exact alike_performOr_of_runsLists hrun other rounds h
  | false =>
    have hsame : i.performOr other run' rounds = i.perform run rounds := by
      cases i <;> first | rfl | cases h
    rw [hsame]
    exact .refl _

theorem alike_stepOr (hrun : RunAlike run run')
    (other : Action W Unit) (rounds : Nat) (v : Value) :
    Alike (step run rounds v) (stepWith (Instruction.performOr other run' rounds) v) := by
  rw [← stepWith_perform]
  cases v with
  | absent => exact .refl _
  | number x => exact .refl _
  | list id items => exact .refl _
  | text s =>
    simp only [stepWith]
    split
    · exact .refl _
    · split
      · exact .refl _
      · split
        · exact .refl _
        · exact .next (idle_note _ _).restocks fun _ _ =>
            alike_performOr hrun other rounds _

theorem alike_walkOr (hrun : RunAlike run run')
    (other : Action W Unit) (rounds : Nat) (prog : List Value) :
    Value.AllPresent prog → Alike (walk (step run rounds) prog)
      (walk (stepWith (Instruction.performOr other run' rounds)) prog) := by
  induction prog with
  | nil => exact fun _ => .refl _
  | cons v rest ih =>
    intro hprog
    obtain ⟨hv, hrest⟩ := List.forall_mem_cons.1 hprog
    refine .next idle_checkpoint.restocks fun _ _ => ?_
    exact (alike_stepOr hrun other rounds v).bind (restocks_step hrun.stocks rounds hv)
      fun _ _ => ih hrest

/-- However many levels are left, what `$` would do with an absent value does not matter. -/
theorem runAlike_execOr (other : Action W Unit) (rounds levels : Nat) :
    RunAlike (exec rounds levels) (execOr other rounds levels) := by
  induction levels with
  | zero => exact ⟨present.runs_exec rounds 0, fun _ => .refl _⟩
  | succ levels ih =>
    refine ⟨present.runs_exec rounds (levels + 1), ?_⟩
    intro prog hprog
    refine .next idle_descend.restocks fun _ _ => ?_
    exact (alike_walkOr ih other rounds prog hprog).bind
      (restocks_walk ih.stocks rounds prog hprog) fun _ _ => .refl _

end Action

end Instructions

/-! ## Calls -/

namespace Session

variable {W : Type} [FileSystem W]

theorem Present.runBy_execOr {s : Session W} (hs : s.Present) (other : Action W Unit) (rounds : Nat)
    {prog : List Value} (hprog : Value.AllPresent prog) :
    s.runBy (execOr other) rounds prog = s.run rounds prog := by
  have hrest : s.atRest.Present := ⟨hs.stack, hs.symbols⟩
  have hexec := Action.runAlike_execOr other rounds s.limit
  have hsame := (hexec.alike hprog).bind (hexec.stocks hprog)
    (fun _ _ => .refl (Action.flush : Action W Unit)) s.atRest hrest
  exact (congrArg ofResult hsame).symm

theorem Present.evalBy_execOr {s : Session W} (hs : s.Present) (other : Action W Unit)
    (rounds : Nat) (src : Bytes) : s.evalBy (execOr other) rounds src = s.eval rounds src := by
  unfold Session.evalBy Session.eval
  rcases hparse : ({ s.atRest with line := 1 } : Session W).parse src with ⟨t, result⟩
  cases result with
  | error error => rfl
  | ok prog =>
    have hstart : ({ s.atRest with line := 1 } : Session W).Stocked present () :=
      present_iff_stocked.1 ⟨hs.stack, hs.symbols⟩
    obtain ⟨_, _, ht, _⟩ := hstart.parse src
    rw [hparse] at ht
    exact (present_iff_stocked.2 ht).runBy_execOr other rounds (allPresent_of_parse hparse)

theorem Present.callOr {s : Session W} (hs : s.Present) (other : Action W Unit) {c : Call}
    (hc : Value.AllPresent c.program) : s.callOr other c = s.call c := by
  have hunder : ∀ interrupt, (s.under interrupt).Present := fun _ => ⟨hs.stack, hs.symbols⟩
  cases c with
  | run interrupt rounds prog => exact (hunder interrupt).runBy_execOr other rounds hc
  | eval interrupt rounds src => exact (hunder interrupt).evalBy_execOr other rounds src

/-- In a session that holds nothing absent, nothing absent is ever made.  After any calls whose
programs hold nothing absent, whatever these come to, the session holds nothing absent, and
the next such call ends the same whatever `$` might do with an absent value, where it does
nothing.  An element ends or halts in a session that holds nothing absent.  And what a reader
makes of a source holds nothing absent, wherever the reader stands and whatever the session is
that reads it. -/
theorem nothing_absent (s : Session W) (hs : s.Present) :
    (∀ calls : List Call, (∀ c ∈ calls, Value.AllPresent c.program) →
      (s.afterCalls calls).Present ∧
        ∀ c : Call, Value.AllPresent c.program → ∀ other : Action W Unit,
          (s.afterCalls calls).callOr other c = (s.afterCalls calls).call c) ∧
      (∀ (t : Session W) (c : Call), t.callOr (pure ()) c = t.call c) ∧
      (∀ (v : Value) (rounds levels : Nat), v.Present →
        (∀ t, step (exec rounds levels) rounds v s = .ok () t → t.Present) ∧
          ∀ halt t, step (exec rounds levels) rounds v s = .error halt t → t.Present) ∧
      (∀ (r : Reader) (src : Bytes) (trees : List Tree) (next : Nat),
        (r.parse src).2 = .ok trees → Value.AllPresent (Tree.loadAll next trees).1) ∧
      ∀ (t u : Session W) (src : Bytes) (prog : List Value),
        t.parse src = (u, .ok prog) → Value.AllPresent prog := by
  refine ⟨?_, callOr_pure, ?_, ?_, ?_⟩
  · intro calls hcalls
    have hreached := hs.afterCalls calls hcalls
    exact ⟨hreached, fun c hc other => hreached.callOr other hc⟩
  · intro v rounds levels hv
    have hstocked := present_iff_stocked.1 hs
    have hstep := restocks_step (W := W) (k := ()) (present.runs_exec rounds levels) rounds hv
    refine ⟨?_, ?_⟩
    · intro t hok
      obtain ⟨_, _, ht, _⟩ := hstep.ok trivial hstocked hok
      exact present_iff_stocked.2 ht
    · intro halt t herror
      obtain ⟨_, _, ht⟩ := hstep.error trivial hstocked herror
      exact present_iff_stocked.2 ht
  · exact fun _ _ trees next _ => Tree.allPresent_loadAll next trees
  · exact fun _ _ _ _ hparse => allPresent_of_parse hparse

omit [FileSystem W] in
theorem present_new (world : W) : (Session.new world).Present :=
  ⟨fun _ hv => absurd hv List.not_mem_nil, fun _ he => absurd he List.not_mem_nil⟩

/-- Calls that bind a nested list, fail to gather more values than there are, and evaluate the
name of the list twice. -/
def bindAndFail : List Call :=
  [.eval none 0 (ascii "(1 (a)) x <- 7 2 .nlist"),
    .run none 0 [.list .bare [.text (ascii "x")], .text (ascii "$"), .text (ascii "$$")]]

/-- Both calls leave something behind, which is not absent; and a call that evaluates what is
on top ends the same if an absent value were to end the program. -/
theorem nothing_absent_bindAndFail :
    (Session.overNoFiles.afterCalls bindAndFail).stack.size = 3 ∧
      (Session.overNoFiles.afterCalls bindAndFail).symbols.entries.length = 1 ∧
      (Session.overNoFiles.afterCalls bindAndFail).Present ∧
      (Session.overNoFiles.afterCalls bindAndFail).callOr (throw .exit)
          (.eval none 0 (ascii "$")) =
        (Session.overNoFiles.afterCalls bindAndFail).call
          (.eval none 0 (ascii "$")) := by
  have hcalls : ∀ c ∈ bindAndFail, Value.AllPresent c.program := by
    simp [bindAndFail, Call.program, Value.AllPresent, Value.Present, Value.parts, Value.partsOf]
  obtain ⟨hafter, _⟩ :=
    nothing_absent Session.overNoFiles (present_new default)
  obtain ⟨hpresent, hsame⟩ := hafter bindAndFail hcalls
  exact ⟨by decide +kernel, by decide +kernel, hpresent,
    hsame _ (fun _ hv => absurd hv List.not_mem_nil) _⟩

/-- A host that runs a program with an absent element puts it on the stack: the programs of the
calls do have to be asked for. -/
theorem not_present_afterCalls_absent :
    Session.overNoFiles.Present ∧
      (Session.overNoFiles.afterCalls [.run none 0 [.absent]]).stack.values =
        [.absent] ∧
      ¬ (Session.overNoFiles.afterCalls [.run none 0 [.absent]]).Present := by
  have hvalues : (Session.overNoFiles.afterCalls
      [.run none 0 [.absent]]).stack.values = [.absent] := rfl
  refine ⟨present_new default, hvalues, ?_⟩
  intro hpresent
  have hstack := hpresent.stack
  rw [hvalues] at hstack
  exact hstack .absent List.mem_cons_self List.mem_cons_self

end Session

end StackScript
