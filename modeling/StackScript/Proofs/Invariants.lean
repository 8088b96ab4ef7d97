import StackScript.Proofs.Congruence
set_option autoImplicit false

/-!
# Invariants of sessions

`Action.Leads` says what holds of a session after an action, or where the action halts, given
what held before.  An action that leads from a property to the same one maintains it.

An invariant is `OffStack` if it survives what instructions do to the stack and the notes.
To maintain it passes from the parts of an action to the whole, so an instruction does if
it survives whatever else the instruction reaches.

An invariant is `Lasting` if it survives besides what instructions do to the names, the
output and the files, so every instruction maintains it that leaves the line alone, and all
of them do if the invariant does not speak of the line.
-/

namespace StackScript

namespace Action

/-- Where `P` held before the action `Q` holds after it, or `E` where the action halts. -/
structure Leads {W α : Type} (P Q : Session W → Prop) (E : Halt → Session W → Prop)
    (x : Action W α) : Prop where
  ok : ∀ {s t : Session W} {a : α}, P s → x s = .ok a t → Q t
  error : ∀ {s t : Session W} {halt : Halt}, P s → x s = .error halt t → E halt t

/-- After the action `I` holds if it held before, or `E` where the action halts. -/
abbrev Maintains {W α : Type} (I : Session W → Prop) (E : Halt → Session W → Prop)
    (x : Action W α) : Prop :=
  Leads I I E x

namespace Leads

variable {W α β : Type} {P Q R : Session W → Prop} {E : Halt → Session W → Prop}

theorem pure (a : α) : Leads P P E (pure a : Action W α) := by
  refine ⟨?_, ?_⟩
  · intro s t b hs h
    cases h
    exact hs
  · intro s t halt hs h
    cases h

theorem bind {x : Action W α} {f : α → Action W β} (hx : Leads P Q E x)
    (hf : ∀ a, Leads Q R E (f a)) : Leads P R E (x >>= f) := by
  refine ⟨?_, ?_⟩
  · intro s t b hs h
    cases hxs : x s with
    | ok a u =>
      rw [bind_of_ok hxs] at h
      exact (hf a).ok (hx.ok hs hxs) h
    | error halt u =>
      rw [bind_of_error hxs] at h
      cases h
  · intro s t halt hs h
    cases hxs : x s with
    | ok a u =>
      rw [bind_of_ok hxs] at h
      exact (hf a).error (hx.ok hs hxs) h
    | error halt' u =>
      rw [bind_of_error hxs] at h
      cases h
      exact hx.error hs hxs

theorem throw {halt : Halt} (h : ∀ s, P s → E halt s) :
    Leads P Q E (throw halt : Action W α) := by
  refine ⟨?_, ?_⟩
  · intro s t a hs hthrow
    cases hthrow
  · intro s t halt' hs hthrow
    cases hthrow
    exact h s hs

theorem orFail {result : Except Cause α}
    (h : ∀ cause, result = .error cause → ∀ s, P s → E (.fault cause) s) :
    Leads P P E (orFail result : Action W α) := by
  cases result with
  | ok a => exact pure a
  | error cause => exact throw (h cause rfl)

/-- An action that decides by the session what to do. -/
theorem get {f : Session W → Action W α} (h : ∀ s, Leads P Q E (f s)) :
    Leads P Q E (get >>= f : Action W α) :=
  ⟨fun hs hf => (h _).ok hs hf, fun hs hf => (h _).error hs hf⟩

theorem modify {f : Session W → Session W} (h : ∀ s, P s → Q (f s)) :
    Leads P Q E (modify f : Action W Unit) := by
  refine ⟨?_, ?_⟩
  · intro s t a hs hf
    cases hf
    exact h s hs
  · intro s t halt hs hf
    cases hf

/-- The run goes on only if it is live. -/
theorem checkpoint_live
    (h : ∀ reason s, P s → s.interrupt = some reason → E (.interrupted reason) s) :
    Leads P (fun s => P s ∧ s.interrupt = none) E Action.checkpoint := by
  refine ⟨?_, ?_⟩
  · intro s t a hs hcheck
    cases hinterrupt : s.interrupt with
    | none =>
      rw [checkpoint_of_none hinterrupt] at hcheck
      cases hcheck
      exact ⟨hs, hinterrupt⟩
    | some reason =>
      rw [checkpoint_of_some hinterrupt] at hcheck
      cases hcheck
  · intro s t halt hs hcheck
    cases hinterrupt : s.interrupt with
    | none =>
      rw [checkpoint_of_none hinterrupt] at hcheck
      cases hcheck
    | some reason =>
      rw [checkpoint_of_some hinterrupt] at hcheck
      cases hcheck
      exact h reason s hs hinterrupt

theorem weaken {E' : Halt → Session W → Prop} {x : Action W α} (hx : Leads P Q E x)
    (hok : ∀ s, Q s → R s) (herror : ∀ halt s, E halt s → E' halt s) : Leads P R E' x :=
  ⟨fun hs h => hok _ (hx.ok hs h), fun hs h => herror _ _ (hx.error hs h)⟩

theorem checkpoint (h : ∀ reason s, P s → s.interrupt = some reason → E (.interrupted reason) s) :
    Leads P P E Action.checkpoint :=
  (checkpoint_live h).weaken (fun _ hs => hs.1) fun _ _ ht => ht

end Leads

end Action

open StackScript.Action (Leads Maintains Runner)

/-! ## Invariants off the stack -/

/-- Whether a halt is one that the stack, the names and the lists being run can lead to. -/
def Halt.isInward : Halt → Bool
  | .fault _ | .exhausted => true
  | _ => false

/-- An invariant of sessions in which no part of the stack has a say, and which notes and
reading a source keep.  Where a run halts it comes down to `E`. -/
structure OffStack {W : Type} (I : Session W → Prop) (E : Halt → Session W → Prop) : Prop where
  ends : ∀ {s}, I s → ∀ halt, halt.isInward = true → E halt s
  stops : ∀ {s}, I s → ∀ reason, s.interrupt = some reason → E (.interrupted reason) s
  noteAt : ∀ {s}, I s → ∀ level message, I (s.noteAt level message)
  setStack : ∀ {s}, I s → ∀ stack, I { s with stack := stack }
  setNextList : ∀ {s}, I s → ∀ next, I { s with nextList := next }
  parse : ∀ {s}, I s → ∀ src, I (s.parse src).1

namespace OffStack

variable {W α : Type} {I : Session W → Prop} {E : Halt → Session W → Prop} (hI : OffStack I E)
include hI

theorem maintains_throw {halt : Halt} (h : halt.isInward = true) :
    Maintains I E (throw halt : Action W α) :=
  .throw fun _ hs => hI.ends hs halt h

theorem maintains_orFail (result : Except Cause α) :
    Maintains I E (Action.orFail result : Action W α) :=
  .orFail fun _ _ _ hs => hI.ends hs _ rfl

theorem maintains_note (level : Level) (message : Unit → Bytes) :
    Maintains I E (Action.note level message) :=
  .modify fun _ hs => hI.noteAt hs level message

theorem maintains_push (v : Value) : Maintains I E (Action.push v) :=
  (hI.maintains_note _ _).bind fun _ => .modify fun _ hs => hI.setStack hs _

theorem maintains_take (from_ : Stack → Except Cause (α × Stack)) (shown : α → Bytes) :
    Maintains I E (Action.take from_ shown) := by
  refine Leads.get fun s => (hI.maintains_orFail _).bind ?_
  rintro ⟨a, stack⟩
  apply Leads.bind
  · exact .modify fun _ hs => hI.setStack hs _
  · exact fun _ => (hI.maintains_note _ _).bind fun _ => .pure a

theorem maintains_countFor (n : Double) : Maintains I E (Action.countFor n) := by
  refine Leads.get fun s => ?_
  cases n.ceilCount? s.stack.size with
  | none => exact hI.maintains_throw rfl
  | some count => exact .pure count

theorem maintains_pushList (items : List Value) : Maintains I E (Action.pushList items) := by
  refine Leads.get fun s => ?_
  apply Leads.bind
  · exact .modify fun _ hs => hI.setNextList hs _
  · exact fun _ => hI.maintains_push _

theorem maintains_readSource (src : Bytes) : Maintains I E (Action.readSource src) := by
  refine ⟨?_, ?_⟩
  · intro s t a hs h
    cases h
    exact hI.parse hs src
  · intro s t halt hs h
    cases h

/-- An access maintains the invariant if the session has it after the answer. -/
theorem access_maintains (hcrash : ∀ {s}, I s → ∀ message, E (.crashed message) s)
    {s : Session W} {reply : Reply W α} {failure : Bytes → Cause} (hreply : I (s.receive reply)) :
    (∀ {t a}, Action.access reply failure s = .ok a t → I t) ∧
      ∀ {t halt}, Action.access reply failure s = .error halt t → E halt t := by
  cases hresult : reply.access with
  | ok a =>
    rw [Action.access_of_ok hresult]
    refine ⟨?_, ?_⟩
    · intro t b h
      cases h
      exact hreply
    · intro t halt h
      cases h
  | failed error =>
    rw [Action.access_of_failed hresult]
    refine ⟨?_, ?_⟩
    · intro t b h
      cases h
    · intro t halt h
      cases h
      exact hI.ends hreply _ rfl
  | crashed message =>
    rw [Action.access_of_crashed hresult]
    refine ⟨?_, ?_⟩
    · intro t b h
      cases h
    · intro t halt h
      cases h
      exact hcrash hreply message

theorem maintains_loadText [FileSystem W]
    (hcrash : ∀ {s}, I s → ∀ message, E (.crashed message) s)
    (hread : ∀ {s}, I s → ∀ path, I (s.receive (FileSystem.read s.world path))) (path : Bytes) :
    Maintains I E (Action.loadText path : Action W Bytes) :=
  ⟨fun hs h => (hI.access_maintains hcrash (hread hs path)).1 h,
    fun hs h => (hI.access_maintains hcrash (hread hs path)).2 h⟩

theorem maintains_saveText [FileSystem W]
    (hcrash : ∀ {s}, I s → ∀ message, E (.crashed message) s)
    (hwrite : ∀ {s}, I s → ∀ path text, I (s.receive (FileSystem.write s.world path text)))
    (path text : Bytes) : Maintains I E (Action.saveText path text : Action W Unit) :=
  ⟨fun hs h => (hI.access_maintains hcrash (hwrite hs path text)).1 h,
    fun hs h => (hI.access_maintains hcrash (hwrite hs path text)).2 h⟩

theorem maintains_print (houtput : ∀ {s}, I s → ∀ output, I { s with output := output })
    (text : Bytes) : Maintains I E (Action.print text) := by
  refine Leads.get fun s => ?_
  rcases s.output.writeLine text with ⟨output, error⟩
  apply Leads.bind
  · exact .modify fun _ hs => houtput hs _
  · intro _
    cases error with
    | none => exact .pure ()
    | some error => exact hI.maintains_throw rfl

theorem maintains_flush (hcrash : ∀ {s}, I s → ∀ message, E (.crashed message) s)
    (houtput : ∀ {s}, I s → ∀ output, I { s with output := output }) :
    Maintains I E Action.flush := by
  refine Leads.get fun s => ?_
  rcases s.output.flush with ⟨output, error⟩
  apply Leads.bind
  · exact .modify fun _ hs => houtput hs _
  · intro _
    cases error with
    | none => exact .pure ()
    | some error =>
      cases error with
      | failed error => exact hI.maintains_throw rfl
      | crashed message => exact .throw fun _ hs => hcrash hs message

variable [FileSystem W]

/-- To maintain such an invariant passes from the parts of an action to the whole. -/
theorem stackCongruence :
    StackCongruence (fun {α} (x : Action W α) (_ : Action W α) => Maintains I E x) where
  pure := .pure
  bind hx hf := hx.bind hf
  fail _ := hI.maintains_throw rfl
  checkpoint := .checkpoint fun reason _ hs => hI.stops hs reason
  note := hI.maintains_note
  push := hI.maintains_push
  pushBool _ := .modify fun _ hs => hI.setStack hs _
  take _ shown := hI.maintains_take _ shown
  top := Leads.get fun _ => hI.maintains_orFail _
  countFor := hI.maintains_countFor
  pushList := hI.maintains_pushList
  valueOf _ := Leads.get fun _ => hI.maintains_orFail _
  readSource := hI.maintains_readSource

/-- An instruction maintains such an invariant if the lists that it runs do, and if the
invariant survives whatever else it reaches. -/
theorem maintains_perform {run : Runner W} {rounds : Nat} {i : Instruction}
    (hexit : i = .exit → ∀ {s}, I s → E .exit s)
    (hcrash : i.accessesFiles = true → ∀ {s}, I s → ∀ message, E (.crashed message) s)
    (hrun : i.runsLists = true → ∀ prog, Maintains I E (run prog))
    (hnames : i.bindsNames = true → ∀ {s}, I s → ∀ name v, I (s.bindValue name v))
    (hline : i = .setLine → ∀ {s}, I s → ∀ line, I { s with line := line })
    (houtput : i.prints = true → ∀ {s}, I s → ∀ output, I { s with output := output })
    (hread : i.accessesFiles = true → ∀ {s}, I s → ∀ path,
      I (s.receive (FileSystem.read s.world path)))
    (hwrite : i.accessesFiles = true → ∀ {s}, I s → ∀ path text,
      I (s.receive (FileSystem.write s.world path text))) :
    Maintains I E (i.perform run rounds) := by
  have hcongruence := hI.stackCongruence
  have hloop : i = .loop → ∀ body, Maintains I E (Action.repeatBody run body rounds) := by
    rintro rfl body
    exact @StackCongruence.repeatBody W W _ _ _ hcongruence run run (hI.maintains_throw rfl)
      (hrun rfl) body rounds
  rw [← Instruction.performWith_print]
  exact @StackCongruence.performWith_of_reach W W _ _ _ hcongruence run run Action.print
    Action.print rounds rounds i (fun h => .throw fun _ hs => hexit h hs)
    (fun h => hI.maintains_print (houtput h)) hrun hloop
    (fun h name v => .modify fun _ hs => hnames h hs name v)
    (fun h line => .modify fun _ hs => hline h hs line)
    (fun h => hI.maintains_loadText (hcrash h) (hread h))
    fun h => hI.maintains_saveText (hcrash h) (hwrite h)

/-- An element maintains such an invariant if the instruction does that it may name. -/
theorem maintains_step {run : Runner W} {rounds : Nat} {v : Value}
    (h : ∀ i, v.instruction? = some i → Maintains I E (i.perform run rounds)) :
    Maintains I E (step run rounds v) := by
  cases hi : v.instruction? with
  | none =>
    rcases step_of_plain (W := W) hi with ⟨x, hpush⟩ | ⟨name, hfail⟩
    · rw [hpush]
      exact hI.maintains_push x
    · rw [hfail]
      exact hI.maintains_throw rfl
  | some i =>
    rw [step_of_instruction hi]
    exact (hI.maintains_note _ _).bind fun _ => h i hi

end OffStack

/-! ## Lasting invariants -/

/-- An invariant of sessions in which no part of the stack, of the names or of the output
has a say, and which notes, accesses to the files and reading a source keep.  Where a run
halts it comes down to `E`. -/
structure Lasting {W : Type} [FileSystem W] (I E : Session W → Prop) : Prop where
  ends : ∀ {s}, I s → E s
  noteAt : ∀ {s}, I s → ∀ level message, I (s.noteAt level message)
  setStack : ∀ {s}, I s → ∀ stack, I { s with stack := stack }
  setNextList : ∀ {s}, I s → ∀ next, I { s with nextList := next }
  bindValue : ∀ {s}, I s → ∀ name v, I (s.bindValue name v)
  setOutput : ∀ {s}, I s → ∀ output, I { s with output := output }
  read : ∀ {s}, I s → ∀ path, I (s.receive (FileSystem.read s.world path))
  write : ∀ {s}, I s → ∀ path text, I (s.receive (FileSystem.write s.world path text))
  parse : ∀ {s}, I s → ∀ src, I (s.parse src).1

namespace Lasting

variable {W α : Type} [FileSystem W] {I E : Session W → Prop} (hI : Lasting I E)
include hI

theorem offStack : OffStack I (fun _ => E) where
  ends h _ _ := hI.ends h
  stops h _ _ := hI.ends h
  noteAt := hI.noteAt
  setStack := hI.setStack
  setNextList := hI.setNextList
  parse := hI.parse

/-- To maintain a lasting invariant passes from the parts of an action to the whole. -/
theorem precongruence :
    Precongruence (fun {α} (x : Action W α) (_ : Action W α) => Maintains I (fun _ => E) x) where
  toStackCongruence := hI.offStack.stackCongruence
  exit := .throw fun _ hs => hI.ends hs
  bindName name v := .modify fun _ hs => hI.bindValue hs name v
  loadText := hI.offStack.maintains_loadText (fun hs _ => hI.ends hs) hI.read
  saveText := hI.offStack.maintains_saveText (fun hs _ => hI.ends hs) hI.write

/-- An invariant that does not speak of the line either is maintained by setting it. -/
theorem congruence (hline : ∀ {s}, I s → ∀ line, I { s with line := line }) :
    Congruence (fun {α} (x : Action W α) (_ : Action W α) => Maintains I (fun _ => E) x) where
  toPrecongruence := hI.precongruence
  setLine line := .modify fun _ hs => hline hs line

/-- A run maintains a lasting invariant that speaks neither of the line nor of how many lists
are being run. -/
theorem maintains_exec (hline : ∀ {s}, I s → ∀ line, I { s with line := line })
    (hdepth : ∀ {s}, I s → ∀ depth, I { s with depth := depth }) (rounds levels : Nat)
    (prog : List Value) : Maintains I (fun _ => E) (exec rounds levels prog) := by
  rw [← execWith_print]
  refine @Congruence.execWith W W _ _ _ (hI.congruence hline) Action.print Action.print
    (hI.offStack.maintains_print hI.setOutput) ?_ ?_ ?_ (hI.offStack.maintains_throw rfl) rounds
    levels prog
  · exact .modify fun _ hs => hdepth hs _
  · exact .modify fun _ hs => hdepth hs _
  · exact Leads.get fun _ => hI.offStack.maintains_throw rfl

/-- So does a whole call of a program, up to where it is settled. -/
theorem maintains_runAction (hline : ∀ {s}, I s → ∀ line, I { s with line := line })
    (hdepth : ∀ {s}, I s → ∀ depth, I { s with depth := depth }) (rounds : Nat)
    (prog : List Value) : Maintains I (fun _ => E) (Session.runAction rounds prog) := by
  apply Leads.bind
  · exact .modify fun _ hs => hdepth hs 0
  · intro _
    refine Leads.get fun s => ?_
    exact (hI.maintains_exec hline hdepth rounds s.limit prog).bind fun _ =>
      hI.offStack.maintains_flush (fun hs _ => hI.ends hs) hI.setOutput

end Lasting

end StackScript
