import StackScript.Proofs.Chronicle
import StackScript.Proofs.StackFrame
set_option autoImplicit false

/-!
# What changes bindings

Names are bound by three instructions alone, each of which finds the name on top of the
stack.  Whatever a call comes to, the names that were bound are bound after it, and the
chronicle of the call shows who bound the others and who changed what a name was bound to.
A lookup that fails is the last thing that a call does, and leaves the table as it was.
-/

namespace StackScript

open StackScript.Action (Leads Maintains Runner)

/-- Whether an instruction looks up a name that it finds on top of the stack. -/
def Instruction.looksUp : Instruction → Bool
  | .eval | .evalTwice | .increment | .decrement => true
  | _ => false

namespace Beginning

variable {W : Type}

/-- An instruction is begun with a name for its first operand. -/
def Applies (b : Beginning W) (i : Instruction) (name : Bytes) : Prop :=
  b.element.instruction? = some i ∧ b.session.stack.values.head? = some (.text name)

/-- A name is to be looked up that is not bound. -/
def Misses (b : Beginning W) (name : Bytes) : Prop :=
  (∃ i, i.looksUp = true ∧ b.Applies i name) ∧ b.session.symbols.find? name = none

end Beginning

/-! ## Instructions with names for operands -/

namespace Action

variable {W : Type}

theorem popText_of_text {u : Session W} {name : Bytes} {rest : List Value}
    (h : u.stack.values = .text name :: rest) :
    ∃ journal, popText u = .ok name { u with stack := ⟨rest⟩, journal := journal } := by
  have hpop : Stack.popText u.stack = .ok (name, ⟨rest⟩) := by
    unfold Stack.popText
    rw [h]
  obtain ⟨journal, hnote⟩ := ({ u with stack := ⟨rest⟩ } : Session W).exists_noteAt .debug
    fun _ => ascii "pop " ++ Text.quoted name
  exact ⟨journal, (take_of_ok hpop).trans (congrArg (EStateM.Result.ok name) hnote)⟩

theorem popText_cases (u : Session W) :
    (∃ name rest journal, u.stack.values = .text name :: rest ∧
      popText u = .ok name { u with stack := ⟨rest⟩, journal := journal }) ∨
    ∃ cause, popText u = .error (.fault cause) u := by
  cases hpop : Stack.popText u.stack with
  | error cause => exact .inr ⟨cause, take_of_error hpop⟩
  | ok taken =>
    unfold Stack.popText at hpop
    split at hpop
    · cases hpop
    · rename_i name rest hvalues
      obtain ⟨journal, hok⟩ := popText_of_text hvalues
      exact .inl ⟨name, rest, journal, hvalues, hok⟩
    · cases hpop

theorem pop_of_cons {u : Session W} {v : Value} {rest : List Value}
    (h : u.stack.values = v :: rest) :
    ∃ journal, pop u = .ok v { u with stack := ⟨rest⟩, journal := journal } := by
  have hpop : Stack.pop u.stack = .ok (v, ⟨rest⟩) := by
    unfold Stack.pop
    rw [h]
  obtain ⟨journal, hnote⟩ := ({ u with stack := ⟨rest⟩ } : Session W).exists_noteAt .debug
    fun _ => ascii "pop " ++ v.format
  exact ⟨journal, (take_of_ok hpop).trans (congrArg (EStateM.Result.ok v) hnote)⟩

theorem pop_of_nil {u : Session W} (h : u.stack.values = []) :
    pop u = .error (.fault .emptyStack) u := by
  refine take_of_error ?_
  unfold Stack.pop
  rw [h]

/-- A name that was found on the stack is bound, or nothing but operands is touched. -/
theorem bindOperand_cases (u : Session W) :
    (∃ name v stack journal, u.stack.values.head? = some (.text name) ∧
      bindOperand u = .ok () { u.bindValue name v with stack := stack, journal := journal }) ∨
    ∃ cause stack journal,
      bindOperand u = .error (.fault cause) { u with stack := stack, journal := journal } := by
  rcases popText_cases u with ⟨name, rest, journal, hstack, hname⟩ | ⟨cause, hfail⟩
  · unfold bindOperand
    rw [bind_of_ok hname]
    cases rest with
    | nil =>
      refine .inr ⟨.emptyStack, ⟨[]⟩, journal, ?_⟩
      exact bind_of_error (pop_of_nil rfl)
    | cons v below =>
      obtain ⟨journal, hpop⟩ :=
        pop_of_cons (u := { u with stack := ⟨v :: below⟩, journal := journal }) rfl
      obtain ⟨journal, hnote⟩ :=
        ({ u.bindValue name v with stack := ⟨below⟩, journal := journal } : Session W).exists_noteAt
          .debug fun _ => v.format ++ ascii " " ++ name ++ ascii " <-"
      refine .inl ⟨name, v, ⟨below⟩, journal, by rw [hstack]; rfl, ?_⟩
      rw [bind_of_ok hpop]
      exact congrArg (EStateM.Result.ok ()) hnote
  · exact .inr ⟨cause, u.stack, u.journal, bind_of_error hfail⟩

theorem valueOf_of_none {u : Session W} {name : Bytes} (h : u.symbols.find? name = none) :
    valueOf name u = .error (.fault (.undefined name)) u := by
  have hget : u.symbols.get name = .error (.undefined name) := by
    unfold Symbols.get
    rw [h]
  unfold valueOf
  rw [get_bind, hget]
  rfl

theorem valueOf_of_some {u : Session W} {name : Bytes} {v : Value}
    (h : u.symbols.find? name = some v) : valueOf name u = .ok v u := by
  have hget : u.symbols.get name = .ok v := by
    unfold Symbols.get
    rw [h]
  unfold valueOf
  rw [get_bind, hget]
  rfl

theorem adjust_of_unbound (by_ : Double) {u : Session W} {name : Bytes} {rest : List Value}
    (hstack : u.stack.values = .text name :: rest) (hnone : u.symbols.find? name = none) :
    ∃ stack journal, adjust by_ u =
      .error (.fault (.undefined name)) { u with stack := stack, journal := journal } := by
  obtain ⟨journal, hname⟩ := popText_of_text hstack
  refine ⟨⟨rest⟩, journal, ?_⟩
  unfold adjust
  rw [bind_of_ok hname]
  exact bind_of_error (valueOf_of_none hnone)

/-- A number is added to that of a name that was found on the stack, or nothing but operands
is touched. -/
theorem adjust_cases (by_ : Double) (u : Session W) :
    (∃ name v stack journal, u.stack.values.head? = some (.text name) ∧
      u.symbols.find? name ≠ none ∧
      adjust by_ u = .ok () { u.bindValue name v with stack := stack, journal := journal }) ∨
    ∃ cause stack journal,
      adjust by_ u = .error (.fault cause) { u with stack := stack, journal := journal } := by
  rcases popText_cases u with ⟨name, rest, journal, hstack, hname⟩ | ⟨cause, hfail⟩
  · cases hfind : u.symbols.find? name with
    | none => exact .inr ⟨.undefined name, adjust_of_unbound by_ hstack hfind⟩
    | some v =>
      have hvalue : valueOf name { u with stack := ⟨rest⟩, journal := journal } = .ok v _ :=
        valueOf_of_some hfind
      unfold adjust
      rw [bind_of_ok hname, bind_of_ok hvalue]
      cases v with
      | number x =>
        obtain ⟨journal', hnote⟩ := ({ u.bindValue name (.number (x.add by_)) with
            stack := ⟨rest⟩, journal := journal } : Session W).exists_noteAt
          .debug fun _ => name ++ ascii " <- " ++ (x.add by_).compact
        refine .inl ⟨name, .number (x.add by_), ⟨rest⟩, journal', by rw [hstack]; rfl, ?_, ?_⟩
        · rw [hfind]
          exact nofun
        · exact congrArg (EStateM.Result.ok ()) hnote
      | absent => exact .inr ⟨_, _, _, rfl⟩
      | text s => exact .inr ⟨_, _, _, rfl⟩
      | list id items => exact .inr ⟨_, _, _, rfl⟩
  · exact .inr ⟨cause, u.stack, u.journal, bind_of_error hfail⟩

/-- Instructions that bind names bind one that was found on the stack, which must be bound
already unless it is assigned to, or touch nothing but operands. -/
theorem perform_cases_of_bindsNames [FileSystem W] {i : Instruction} (hi : i.bindsNames = true)
    (run : Runner W) (rounds : Nat) (u : Session W) :
    (∃ name v stack journal, u.stack.values.head? = some (.text name) ∧
      (i = .assign ∨ u.symbols.find? name ≠ none) ∧ i.perform run rounds u =
        .ok () { u.bindValue name v with stack := stack, journal := journal }) ∨
    ∃ cause stack journal, i.perform run rounds u =
      .error (.fault cause) { u with stack := stack, journal := journal } := by
  have hadjust := fun by_ => adjust_cases by_ u
  cases i
  case assign =>
    rcases bindOperand_cases u with ⟨name, v, stack, journal, htop, hok⟩ | hfail
    · exact .inl ⟨name, v, stack, journal, htop, .inl rfl, hok⟩
    · exact .inr hfail
  case increment =>
    rcases hadjust Double.one with ⟨name, v, stack, journal, htop, hbound, hok⟩ | hfail
    · exact .inl ⟨name, v, stack, journal, htop, .inr hbound, hok⟩
    · exact .inr hfail
  case decrement =>
    rcases hadjust Double.one.negate with ⟨name, v, stack, journal, htop, hbound, hok⟩ | hfail
    · exact .inl ⟨name, v, stack, journal, htop, .inr hbound, hok⟩
    · exact .inr hfail
  all_goals cases hi

theorem evaluate_of_unbound (run : Runner W) {u : Session W} {name : Bytes} {rest : List Value}
    (hstack : u.stack.values = .text name :: rest) (hnone : u.symbols.find? name = none) :
    ∃ stack journal, evaluate run u =
      .error (.fault (.undefined name)) { u with stack := stack, journal := journal } := by
  obtain ⟨journal, hpop⟩ := pop_of_cons hstack
  obtain ⟨journal', hnote⟩ :=
    ({ u with stack := ⟨rest⟩, journal := journal } : Session W).exists_noteAt .debug
      fun _ => (Value.text name).format ++ ascii " $"
  have hlookup : (do push (← valueOf name) : Action W Unit)
      { u with stack := ⟨rest⟩, journal := journal' } = .error (.fault (.undefined name)) _ :=
    bind_of_error (valueOf_of_none hnone)
  refine ⟨⟨rest⟩, journal', ?_⟩
  unfold evaluate
  rw [bind_of_ok hpop, ← hlookup, ← hnote]
  rfl

/-- A lookup that fails halts the run there, and nothing but operands was touched. -/
theorem step_of_unbound [FileSystem W] {v : Value} {i : Instruction}
    (hv : v.instruction? = some i) (hi : i.looksUp = true) (run : Runner W) (rounds : Nat)
    {u : Session W} {name : Bytes} (htop : u.stack.values.head? = some (.text name))
    (hnone : u.symbols.find? name = none) :
    ∃ stack journal, step run rounds v u =
      .error (.fault (.undefined name)) { u with stack := stack, journal := journal } := by
  obtain ⟨rest, hstack⟩ := List.head?_eq_some_iff.1 htop
  obtain ⟨journal, hnote⟩ := u.exists_noteAt .trace fun _ => ascii "op " ++ i.name
  have hstep : step run rounds v u = i.perform run rounds { u with journal := journal } := by
    rw [step_of_instruction hv, ← hnote]
    rfl
  rw [hstep]
  have hadjust := fun by_ =>
    adjust_of_unbound by_ (u := { u with journal := journal }) hstack hnone
  obtain ⟨stack, journal', heval⟩ :=
    evaluate_of_unbound run (u := { u with journal := journal }) hstack hnone
  cases i
  case eval => exact ⟨stack, journal', heval⟩
  case evalTwice => exact ⟨stack, journal', bind_of_error heval⟩
  case increment => exact hadjust Double.one
  case decrement => exact hadjust Double.one.negate
  all_goals cases hi

end Action

/-! ## What explains the bindings -/

section Explanations

variable {W : Type}

/-- The evaluations begun explain what became of the bindings. -/
structure Explained (old new : Symbols) (begun : List (Beginning W)) : Prop where
  kept : ∀ {name}, old.find? name ≠ none → new.find? name ≠ none
  introduced : ∀ {name}, old.find? name = none → new.find? name ≠ none →
    ∃ b ∈ begun, b.Applies .assign name
  changed : ∀ {name}, new.find? name ≠ old.find? name →
    ∃ b ∈ begun, ∃ i, i.bindsNames = true ∧ b.Applies i name

namespace Explained

variable {old new : Symbols} {begun : List (Beginning W)}

theorem refl (old : Symbols) (begun : List (Beginning W)) : Explained old old begun where
  kept h := h
  introduced hnone hsome := absurd hnone hsome
  changed h := absurd rfl h

theorem cons (h : Explained old new begun) (b : Beginning W) : Explained old new (b :: begun) where
  kept := h.kept
  introduced hnone hsome := by
    obtain ⟨b', hmem, happlies⟩ := h.introduced hnone hsome
    exact ⟨b', List.mem_cons_of_mem b hmem, happlies⟩
  changed hne := by
    obtain ⟨b', hmem, happlies⟩ := h.changed hne
    exact ⟨b', List.mem_cons_of_mem b hmem, happlies⟩

/-- A binding is explained by the instruction that makes it. -/
theorem bind (h : Explained old new begun) {b : Beginning W} (hb : b ∈ begun) {i : Instruction}
    {name : Bytes} (hi : i.bindsNames = true) (happlies : b.Applies i name)
    (hbound : i = .assign ∨ new.find? name ≠ none) (v : Value) :
    Explained old (new.bind name v) begun := by
  refine ⟨?_, ?_, ?_⟩
  · intro other hold
    by_cases hother : other = name
    · rw [hother, Table.find?_bind_self]
      exact nofun
    · rw [Table.find?_bind_of_ne _ hother]
      exact h.kept hold
  · intro other hnone hsome
    by_cases hother : other = name
    · rw [hother] at hnone ⊢
      rcases hbound with rfl | hbound
      · exact ⟨b, hb, happlies⟩
      · exact h.introduced hnone hbound
    · rw [Table.find?_bind_of_ne _ hother] at hsome
      exact h.introduced hnone hsome
  · intro other hne
    by_cases hother : other = name
    · rw [hother]
      exact ⟨b, hb, i, hi, happlies⟩
    · rw [Table.find?_bind_of_ne _ hother] at hne
      exact h.changed hne

end Explained

end Explanations

/-! ## Elements and runs -/

namespace Session

variable {W : Type}

/-- The bindings are explained, and no lookup has failed. -/
def InOrder (old : Symbols) (s : Session (Chronicled W)) : Prop :=
  Explained old s.symbols s.world.seen.begun ∧ ∀ b ∈ s.world.seen.begun, ∀ name, ¬ b.Misses name

/-- The bindings are explained, and a lookup can have failed only where the run has halted
for it. -/
def HaltedFor (old : Symbols) (halt : Halt) (s : Session (Chronicled W)) : Prop :=
  Explained old s.symbols s.world.seen.begun ∧ ∀ b ∈ s.world.seen.begun, ∀ name, b.Misses name →
    halt = .fault (.undefined name) ∧ s.symbols = b.session.symbols ∧ s.line = b.session.line

theorem InOrder.haltedFor {old : Symbols} {s : Session (Chronicled W)} (h : s.InOrder old)
    (halt : Halt) : s.HaltedFor old halt :=
  ⟨h.1, fun b hb name hmisses => absurd hmisses (h.2 b hb name)⟩

theorem offStack_inOrder (old : Symbols) :
    OffStack (InOrder old : Session (Chronicled W) → Prop) (HaltedFor old) where
  ends h halt _ := h.haltedFor halt
  stops h reason _ := h.haltedFor (.interrupted reason)
  noteAt {s} h level message := by
    obtain ⟨journal, hnote⟩ := s.exists_noteAt level message
    rw [hnote]
    exact h
  setStack h _ := h
  setNextList h _ := h
  parse {s} h src := by
    obtain ⟨journal, hparse⟩ := s.exists_parse src
    rw [hparse]
    exact h

theorem InOrder.receive {α : Type} {old : Symbols} {s : Session (Chronicled W)} (h : s.InOrder old)
    (reply : Reply W α) : (s.receive (reply.observed s.world.seen)).InOrder old := by
  obtain ⟨interrupt, journal, heffect⟩ :=
    ({ s with world := (reply.observed s.world.seen).world } :
      Session (Chronicled W)).exists_undergo (reply.observed s.world.seen).effect
  rw [Session.receive, heffect]
  exact h

theorem InOrder.begins {old : Symbols} {s : Session (Chronicled W)} (h : s.InOrder old) {v : Value}
    (hv : ∀ name, ¬ (⟨s.unobserved, v⟩ : Beginning W).Misses name) :
    (s.begins v).InOrder old := by
  refine ⟨h.1.cons _, ?_⟩
  intro b hb
  rcases List.mem_cons.1 hb with rfl | hb
  · exact hv
  · exact h.2 b hb

end Session

open Session (InOrder HaltedFor offStack_inOrder)

section Elements

variable {W : Type} [FileSystem W]

/-- The element `v` has been begun, with the stack that there still is. -/
def Session.Facing (v : Value) (s : Session (Chronicled W)) : Prop :=
  ∃ b ∈ s.world.seen.begun, b.element = v ∧ b.session.stack = s.stack

/-- Instructions that bind names leave the bindings explained. -/
theorem leads_perform_of_bindsNames (old : Symbols) {run : Runner (Chronicled W)} {rounds : Nat}
    {v : Value} {i : Instruction} (hv : v.instruction? = some i) (hi : i.bindsNames = true) :
    Leads (fun s => s.InOrder old ∧ s.Facing v) (InOrder old) (HaltedFor old)
      (i.perform run rounds) := by
  refine ⟨?_, ?_⟩
  · rintro s t a ⟨hs, b, hb, rfl, hstack⟩ h
    rcases Action.perform_cases_of_bindsNames hi run rounds s with
      ⟨name, x, stack, journal, htop, hbound, hok⟩ | ⟨cause, stack, journal, hfail⟩
    · rw [hok] at h
      cases h
      rw [← hstack] at htop
      exact ⟨hs.1.bind hb hi ⟨hv, htop⟩ hbound x, hs.2⟩
    · rw [hfail] at h
      cases h
  · rintro s t halt ⟨hs, _⟩ h
    rcases Action.perform_cases_of_bindsNames hi run rounds s with
      ⟨name, x, stack, journal, htop, hbound, hok⟩ | ⟨cause, stack, journal, hfail⟩
    · rw [hok] at h
      cases h
    · rw [hfail] at h
      cases h
      exact InOrder.haltedFor (s := { s with stack := stack, journal := journal }) hs _

/-- An element that looks up no name in vain leaves the bindings explained. -/
theorem leads_step (old : Symbols) {run : Runner (Chronicled W)} {rounds : Nat}
    (hrun : ∀ prog, Maintains (InOrder old) (HaltedFor old) (run prog)) (v : Value) :
    Leads (fun s => s.InOrder old ∧ s.Facing v) (InOrder old) (HaltedFor old)
      (step run rounds v) := by
  by_cases hbinds : ∃ i, v.instruction? = some i ∧ i.bindsNames = true
  · obtain ⟨i, hv, hi⟩ := hbinds
    rw [step_of_instruction hv]
    refine Leads.bind (Q := fun s => s.InOrder old ∧ s.Facing v) ?_ fun _ =>
      leads_perform_of_bindsNames old hv hi
    refine .modify fun s hs => ?_
    obtain ⟨journal, hnote⟩ := s.exists_noteAt .trace fun _ => ascii "op " ++ i.name
    rw [hnote]
    exact hs
  · have hmaintains : Maintains (InOrder old) (HaltedFor old) (step run rounds v) := by
      refine (offStack_inOrder old).maintains_step fun i hv => ?_
      refine (offStack_inOrder old).maintains_perform (fun _ _ hs => hs.haltedFor _)
        (fun _ _ hs _ => hs.haltedFor _) (fun _ => hrun) (fun hi => absurd ⟨i, hv, hi⟩ hbinds)
        (fun _ _ hs _ => hs) (fun _ _ hs _ => hs) ?_ ?_
      · exact fun _ _ hs path => hs.receive _
      · exact fun _ _ hs path text => hs.receive _
    exact ⟨fun hs => hmaintains.ok hs.1, fun hs => hmaintains.error hs.1⟩

/-- An element that looks up a name in vain halts the run. -/
theorem chronicledStep_of_misses {old : Symbols} (rounds : Nat) (run : Runner (Chronicled W))
    {v : Value} {s : Session (Chronicled W)} (hs : s.InOrder old) {name : Bytes}
    (hmisses : (⟨s.unobserved, v⟩ : Beginning W).Misses name) :
    ∃ halt t, chronicledStep rounds run v s = .error halt t ∧ t.HaltedFor old halt := by
  obtain ⟨⟨i, hi, hv, htop⟩, hnone⟩ := hmisses
  obtain ⟨stack, journal, hstep⟩ :=
    Action.step_of_unbound hv hi run rounds (u := s.begins v) htop hnone
  have hbegun : chronicledStep rounds run v s =
      (step run rounds v >>= fun _ => modify Session.concludes) (s.begins v) := rfl
  refine ⟨_, _, hbegun.trans (Action.bind_of_error hstep), hs.1.cons _, ?_⟩
  intro b hb other hother
  rcases List.mem_cons.1 hb with rfl | hb
  · obtain ⟨⟨_, _, _, hsame⟩, _⟩ := hother
    rw [htop] at hsame
    cases hsame
    exact ⟨rfl, rfl, rfl⟩
  · exact absurd hother (hs.2 b hb other)

/-- An element leaves the bindings explained, and halts the run if it looks up a name in
vain. -/
theorem maintains_chronicledStep (old : Symbols) (rounds : Nat) {run : Runner (Chronicled W)}
    (hrun : ∀ prog, Maintains (InOrder old) (HaltedFor old) (run prog)) (v : Value) :
    Maintains (InOrder old) (HaltedFor old) (chronicledStep rounds run v) := by
  have hrest : Leads (fun s => s.InOrder old ∧ s.Facing v) (InOrder old) (HaltedFor old)
      (step run rounds v >>= fun _ => modify Session.concludes) :=
    (leads_step old hrun v).bind fun _ => .modify fun _ hs => hs
  have hfacing : ∀ s : Session (Chronicled W), (s.begins v).Facing v := fun s =>
    ⟨_, List.mem_cons_self, rfl, rfl⟩
  -- whether the lookup fails is decided in the session in which the element is begun
  refine ⟨?_, ?_⟩
  · intro s t a hs h
    by_cases hmisses : ∃ name, (⟨s.unobserved, v⟩ : Beginning W).Misses name
    · obtain ⟨name, hname⟩ := hmisses
      obtain ⟨halt, u, herror, _⟩ := chronicledStep_of_misses rounds run hs hname
      rw [herror] at h
      cases h
    · exact hrest.ok ⟨hs.begins (not_exists.1 hmisses), hfacing s⟩ h
  · intro s t halt hs h
    by_cases hmisses : ∃ name, (⟨s.unobserved, v⟩ : Beginning W).Misses name
    · obtain ⟨name, hname⟩ := hmisses
      obtain ⟨halt', u, herror, hhalted⟩ := chronicledStep_of_misses rounds run hs hname
      rw [herror] at h
      cases h
      exact hhalted
    · exact hrest.error ⟨hs.begins (not_exists.1 hmisses), hfacing s⟩ h

theorem maintains_chronicledAction (old : Symbols) (rounds : Nat) (prog : List Value) :
    Maintains (InOrder old) (HaltedFor old)
      (Session.actionBy chronicledExec rounds prog : Action (Chronicled W) Unit) := by
  have hI := offStack_inOrder (W := W) old
  have hrest : Maintains (InOrder old) (HaltedFor old)
      (modify Session.atRest : Action (Chronicled W) Unit) := .modify fun _ hs => hs
  refine hrest.bind fun _ => Leads.get fun s => ?_
  have hexec := maintains_chronicledExec (fun _ : Unit => hI) (fun hs _ => hs) rounds
    (fun hrun _ v => ⟨fun hs => (maintains_chronicledStep old rounds (hrun ()) v).ok hs.1,
      fun hs => (maintains_chronicledStep old rounds (hrun ()) v).error hs.1⟩) s.limit () prog
  exact hexec.bind fun _ => hI.maintains_flush (fun hs _ => hs.haltedFor _) fun hs _ => hs

end Elements

/-! ## Calls -/

namespace Session

variable {W : Type} [FileSystem W]

/-- What a call leaves of the bindings is explained, and a lookup can have failed only where
the call has ended for it. -/
def EndedFor (old : Symbols) (r : Session (Chronicled W) × Outcome) : Prop :=
  Explained old r.1.symbols r.1.world.seen.begun ∧
    ∀ b ∈ r.1.world.seen.begun, ∀ name, b.Misses name →
    r.2 = .fault ((Cause.undefined name).report b.session.line) ∧ r.1.symbols = b.session.symbols

theorem InOrder.chronicledRun {old : Symbols} {s : Session (Chronicled W)} (h : s.InOrder old)
    (rounds : Nat) (prog : List Value) : EndedFor old (s.runBy chronicledExec rounds prog) := by
  have hmaintains := maintains_chronicledAction (W := W) old rounds prog
  unfold Session.runBy
  cases hresult : actionBy chronicledExec rounds prog s with
  | ok _ t =>
    have ht := hmaintains.ok h hresult
    exact ⟨ht.1, fun b hb name hmisses => absurd hmisses (ht.2 b hb name)⟩
  | error halt t =>
    have ht := hmaintains.error h hresult
    obtain ⟨output, journal, _, hsettled⟩ := t.exists_settle halt
    unfold EndedFor ofResult
    rw [hsettled]
    refine ⟨ht.1, ?_⟩
    intro b hb name hmisses
    obtain ⟨rfl, hsymbols, hline⟩ := ht.2 b hb name hmisses
    rw [← hline]
    exact ⟨rfl, hsymbols⟩

theorem InOrder.chronicledEval {old : Symbols} {s : Session (Chronicled W)} (h : s.InOrder old)
    (rounds : Nat) (src : Bytes) : EndedFor old (s.evalBy chronicledExec rounds src) := by
  have hparsed : ({ s.atRest with line := 1 }.parse src).1.InOrder old :=
    (offStack_inOrder old).parse (s := { s.atRest with line := 1 }) h src
  unfold Session.evalBy
  rcases hparse : ({ s.atRest with line := 1 } : Session (Chronicled W)).parse src with ⟨t, result⟩
  rw [hparse] at hparsed
  cases result with
  | ok prog => exact hparsed.chronicledRun rounds prog
  | error error =>
    obtain ⟨journal, hsettled⟩ := t.exists_settleFault (.unreadable error.problem) error.line
    unfold EndedFor
    simp only [hsettled]
    exact ⟨hparsed.1, fun b hb name hmisses => absurd hmisses (hparsed.2 b hb name)⟩

/-- Whatever a call comes to, every name that was bound is bound after it.  A name that was
not was the operand of an assignment that the call began, and one that is bound to something
else was that of an assignment, an increment or a decrement.  Where a name was looked up in
vain the call ended for it, with the table as it was then. -/
theorem call_bindings (s : Session W) (c : Call) :
    (∀ name, s.symbols.find? name ≠ none → (s.call c).1.symbols.find? name ≠ none) ∧
    (∀ name, s.symbols.find? name = none → (s.call c).1.symbols.find? name ≠ none →
      ∃ b ∈ s.begunBy c, b.Applies .assign name) ∧
    (∀ name, (s.call c).1.symbols.find? name ≠ s.symbols.find? name →
      ∃ b ∈ s.begunBy c, b.Applies .assign name ∨ b.Applies .increment name ∨
        b.Applies .decrement name) ∧
    ∀ b ∈ s.begunBy c, ∀ name, b.Misses name →
      (s.call c).2 = .fault ((Cause.undefined name).report b.session.line) ∧
        (s.call c).1.symbols = b.session.symbols := by
  have hstart : ∀ interrupt, (s.chronicled.under interrupt).InOrder s.symbols := fun _ =>
    ⟨.refl _ _, fun _ hb => absurd hb List.not_mem_nil⟩
  have hended : EndedFor s.symbols (s.chronicled.callBy chronicledExec c) := by
    cases c with
    | run interrupt rounds prog => exact (hstart interrupt).chronicledRun rounds prog
    | eval interrupt rounds src => exact (hstart interrupt).chronicledEval rounds src
  obtain ⟨hexplained, hmisses⟩ := hended
  rw [s.call_unchronicled c]
  refine ⟨fun _ => hexplained.kept, fun _ => hexplained.introduced, ?_, hmisses⟩
  intro name hne
  obtain ⟨b, hb, i, hi, happlies⟩ := hexplained.changed hne
  refine ⟨b, hb, ?_⟩
  cases i
  case assign => exact .inl happlies
  case increment => exact .inr (.inl happlies)
  case decrement => exact .inr (.inr happlies)
  all_goals cases hi

/-- A program that gives `f` a number inside a list, counts it up and asks for `g`. -/
def countsAndAsks : List Value :=
  [.list .bare [.number Double.one, .text (ascii "f"), .text (ascii "<-")], .text (ascii "$"),
    .text (ascii "f"), .text (ascii "++"), .text (ascii "g"), .text (ascii "$")]

/-- The name `f` is new and was assigned to, and asking for `g` is what the call ends for. -/
theorem call_bindings_countsAndAsks :
    (∃ b ∈ twoTexts.begunBy (.run none 0 countsAndAsks), b.Applies .assign (ascii "f")) ∧
      (twoTexts.call (.run none 0 countsAndAsks)).2 =
        .fault ((Cause.undefined (ascii "g")).report 1) ∧
      (twoTexts.call (.run none 0 countsAndAsks)).1.symbols.entries =
        [(ascii "f", .number (Double.one.add Double.one))] := by
  obtain ⟨_, hintroduced, _, hmisses⟩ := call_bindings twoTexts (.run none 0 countsAndAsks)
  obtain ⟨b, hb, hmissing, hline⟩ : ∃ b ∈ twoTexts.begunBy (.run none 0 countsAndAsks),
      b.Misses (ascii "g") ∧ b.session.line = 1 :=
    ⟨_, List.mem_cons_self, ⟨⟨.eval, rfl, rfl, rfl⟩, rfl⟩, rfl⟩
  refine ⟨hintroduced (ascii "f") rfl nofun, ?_, rfl⟩
  rw [← hline]
  exact (hmisses b hb (ascii "g") hmissing).1

end Session

end StackScript
