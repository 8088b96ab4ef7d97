import StackScript.Proofs.Invariants
import StackScript.Proofs.Termination
set_option autoImplicit false

/-!
# Elements that fail

An instruction takes its operands off the stack and fails, if it does, before it has put
anything there or changed anything else.  What a fault leaves is therefore the session as it
was, but for operands that are gone.

An action `Takes` if operands are all that it changes, and is `Infallible` if no fault can
come of it.  Taking first and then being infallible is the shape of nearly every instruction.
What an instruction does when it runs lists is left out by running them with a runner that
is stuck at once.
-/

namespace StackScript

open StackScript.Action (Maintains Runner)

/-! ## What a fault leaves -/

/-- From `s` to `u` operands were taken, and the files became `w`. -/
structure Session.Taken {W : Type} (s : Session W) (w : W) (u : Session W) : Prop where
  stack : u.stack.values <:+ s.stack.values
  symbols : u.symbols = s.symbols
  line : u.line = s.line
  world : u.world = w

/-- Files that were at most read, or written without success. -/
inductive Unwritten {W : Type} [FileSystem W] (w : W) : W → Prop where
  | same : Unwritten w w
  | read (path : Bytes) : Unwritten w (FileSystem.read w path).world
  | write {path text : Bytes} {error : FileError}
      (failed : (FileSystem.write w path text).access = .failed error) :
      Unwritten w (FileSystem.write w path text).world

/-- How a value can have the wrong kind where the element `v` is evaluated in the session `s`
and leaves the session `t`. -/
inductive Misfit {W : Type} (v : Value) (s t : Session W) (cause : Cause) : Prop where
  /-- as an operand, which is left on top of the stack -/
  | operand {want : Kind} {rest : List Value} (cause_eq : cause = .mismatch want cause.value)
      (wrong : cause.value.kind ≠ want) (top : t.stack.values = cause.value :: rest)
  /-- as the value of a name that is to be counted up or down -/
  | counter {name : Bytes}
      (counts : v.instruction? = some .increment ∨ v.instruction? = some .decrement)
      (cause_eq : cause = .mismatch .number cause.value) (wrong : cause.value.kind ≠ .number)
      (bound : s.symbols.get name = .ok cause.value)
  /-- as a key -/
  | key (looksUp : v.instruction? = some .lookup) (cause_eq : cause = .badKey cause.value)
      (wrong : cause.value.kind ≠ .number ∧ cause.value.kind ≠ .text)

/-- What the element `v` leaves of the session `s` where it fails. -/
structure LeftBy {W : Type} [FileSystem W] (v : Value) (s : Session W) (cause : Cause)
    (t : Session W) : Prop where
  stack : t.stack.toList <+: s.stack.toList
  symbols : t.symbols = s.symbols
  line : t.line = s.line
  unwritten : Unwritten s.world t.world
  unserializable : cause.kind = .unserializable → t.world = s.world
  misfit : cause.kind = .typeMismatch → Misfit v s t cause

namespace Session.Taken

variable {W : Type} {s u : Session W} {w : W}

theorem refl (s : Session W) : s.Taken s.world s := ⟨List.suffix_refl _, rfl, rfl, rfl⟩

theorem setStack (h : s.Taken w u) {stack : Stack} (hstack : stack.values <:+ u.stack.values) :
    s.Taken w { u with stack := stack } :=
  ⟨hstack.trans h.stack, h.symbols, h.line, h.world⟩

theorem noteAt (h : s.Taken w u) (level : Level) (message : Unit → Bytes) :
    s.Taken w (u.noteAt level message) := by
  obtain ⟨journal, hnote⟩ := u.exists_noteAt level message
  rw [hnote]
  exact ⟨h.stack, h.symbols, h.line, h.world⟩

theorem receive {α : Type} (h : s.Taken w u) (reply : Reply W α) :
    s.Taken reply.world (u.receive reply) := by
  obtain ⟨interrupt, journal, heffect⟩ :=
    ({ u with world := reply.world } : Session W).exists_undergo reply.effect
  rw [Session.receive, heffect]
  exact ⟨h.stack, h.symbols, h.line, rfl⟩

theorem parse (h : s.Taken w u) (src : Bytes) : s.Taken w (u.parse src).1 := by
  obtain ⟨journal, hparse⟩ := u.exists_parse src
  rw [hparse]
  exact ⟨h.stack, h.symbols, h.line, h.world⟩

variable [FileSystem W] {v : Value} {cause : Cause}

theorem leftBy_of_unwritten (h : s.Taken w u) (hw : Unwritten s.world w)
    (hfile : cause.kind ≠ .unserializable) (hkind : cause.kind ≠ .typeMismatch) :
    LeftBy v s cause u where
  stack := List.reverse_prefix.2 h.stack
  symbols := h.symbols
  line := h.line
  unwritten := h.world ▸ hw
  unserializable hk := absurd hk hfile
  misfit hk := absurd hk hkind

theorem leftBy_of_misfit (h : s.Taken s.world u)
    (hmisfit : cause.kind = .typeMismatch → Misfit v s u cause) : LeftBy v s cause u where
  stack := List.reverse_prefix.2 h.stack
  symbols := h.symbols
  line := h.line
  unwritten := h.world ▸ .same
  unserializable _ := h.world
  misfit := hmisfit

theorem leftBy (h : s.Taken s.world u) (hkind : cause.kind ≠ .typeMismatch) : LeftBy v s cause u :=
  h.leftBy_of_misfit fun hk => absurd hk hkind

end Session.Taken

/-! ## Actions that take, that fail cleanly, and that do not fail -/

namespace Action

section Shapes

variable {W α β : Type}

/-- No fault comes of the action. -/
def Infallible (x : Action W α) : Prop := ∀ u cause t, x u ≠ .error (.fault cause) t

theorem infallible_pure (a : α) : Infallible (pure a : Action W α) := by
  intro u cause t h
  cases h

theorem infallible_modify (f : Session W → Session W) :
    Infallible (modify f : Action W Unit) := by
  intro u cause t h
  cases h

theorem infallible_throw {halt : Halt} (h : ∀ cause, halt ≠ .fault cause) :
    Infallible (throw halt : Action W α) := by
  intro u cause t hthrow
  cases hthrow
  exact h cause rfl

theorem Infallible.bind {x : Action W α} {f : α → Action W β} (hx : Infallible x)
    (hf : ∀ a, Infallible (f a)) : Infallible (x >>= f) := by
  intro u cause t h
  cases hxu : x u with
  | ok a u' =>
    rw [bind_of_ok hxu] at h
    exact hf a u' cause t h
  | error halt u' =>
    rw [bind_of_error hxu] at h
    cases h
    exact hx u cause t hxu

theorem infallible_push (x : Value) : Infallible (push x : Action W Unit) :=
  (infallible_modify _).bind fun _ => infallible_modify _

theorem infallible_pushList (items : List Value) :
    Infallible (pushList items : Action W Unit) := by
  intro u
  exact ((infallible_modify fun u' : Session W => { u' with nextList := u.nextList + 1 }).bind
    fun _ => infallible_push (.list (.made u.nextList) items)) u

theorem infallible_pushAll (values : List Value) :
    Infallible (pushAll values : Action W Unit) := by
  induction values with
  | nil => exact infallible_pure ()
  | cons x rest ih => exact (infallible_push x).bind fun _ => ih

/-- The runner that is stuck before it has run anything. -/
def stuck : Runner W := fun _ => throw .exhausted

theorem infallible_stuck (prog : List Value) : Infallible (stuck prog : Action W Unit) :=
  infallible_throw fun _ h => nomatch h

/-- After a list that is stuck nothing fails any more. -/
theorem infallible_stuck_bind (prog : List Value) (f : Unit → Action W α) :
    Infallible (stuck prog >>= f) := by
  intro u cause t h
  rw [bind_of_error (show stuck prog u = .error .exhausted u from rfl)] at h
  cases h

theorem infallible_runOver (body items : List Value) :
    Infallible (runOver stuck body items : Action W Unit) := by
  cases items with
  | nil => exact infallible_pure ()
  | cons item rest => exact (infallible_push item).bind fun _ => infallible_stuck_bind body _

theorem infallible_collect (body results items : List Value) :
    Infallible (collect stuck body results items : Action W (List Value)) := by
  cases items with
  | nil => exact infallible_pure _
  | cons item rest => exact (infallible_push item).bind fun _ => infallible_stuck_bind body _

end Shapes

section Clean

variable {W α β : Type} [FileSystem W]

/-- After operands were taken the action fails cleanly, if it fails. -/
def FailsCleanly (v : Value) (s : Session W) (x : Action W α) : Prop :=
  ∀ u cause t, s.Taken s.world u → x u = .error (.fault cause) t → LeftBy v s cause t

/-- The action takes operands and does nothing else, or fails cleanly. -/
abbrev Takes (v : Value) (s : Session W) (x : Action W α) : Prop :=
  Maintains (s.Taken s.world) (fun halt t => ∀ cause, halt = .fault cause → LeftBy v s cause t) x

variable {v : Value} {s : Session W}

theorem Takes.failsCleanly {x : Action W α} (hx : Takes v s x) : FailsCleanly v s x :=
  fun _ cause _ hu h => hx.error hu h cause rfl

theorem Infallible.failsCleanly {x : Action W α} (hx : Infallible x) : FailsCleanly v s x :=
  fun u cause t _ h => absurd h (hx u cause t)

/-- Operands are taken before anything that fails cleanly. -/
theorem Takes.before {x : Action W α} {f : α → Action W β} (hx : Takes v s x)
    (hf : ∀ a, FailsCleanly v s (f a)) : FailsCleanly v s (x >>= f) := by
  intro u cause t hu h
  cases hxu : x u with
  | ok a u' =>
    rw [bind_of_ok hxu] at h
    exact hf a u' cause t (hx.ok hu hxu) h
  | error halt u' =>
    rw [bind_of_error hxu] at h
    cases h
    exact hx.error hu hxu cause rfl

/-- What comes after an action that fails cleanly must not fail. -/
theorem FailsCleanly.before {x : Action W α} {f : α → Action W β} (hx : FailsCleanly v s x)
    (hf : ∀ a, Infallible (f a)) : FailsCleanly v s (x >>= f) := by
  intro u cause t hu h
  cases hxu : x u with
  | ok a u' =>
    rw [bind_of_ok hxu] at h
    exact absurd h (hf a u' cause t)
  | error halt u' =>
    rw [bind_of_error hxu] at h
    cases h
    exact hx u cause t hu hxu

/-! ## Taking operands -/

theorem takes_note (level : Level) (message : Unit → Bytes) :
    Takes v s (note level message : Action W Unit) :=
  .modify fun _ hu => hu.noteAt level message

theorem takes_orFail {result : Except Cause α}
    (h : ∀ cause, result = .error cause → cause.kind ≠ .typeMismatch) :
    Takes v s (orFail result : Action W α) := by
  refine .orFail fun cause hresult u hu cause' hcause => ?_
  cases hcause
  exact hu.leftBy (h cause hresult)

theorem failsCleanly_fail {cause : Cause} (h : cause.kind ≠ .typeMismatch) :
    FailsCleanly v s (fail cause : Action W α) := by
  intro u cause' t hu hfail
  cases hfail
  exact hu.leftBy h

/-- An operation that takes a value of one kind off a stack, and leaves one of another kind
there. -/
structure Guarded (from_ : Stack → Except Cause (α × Stack)) : Prop where
  ok : ∀ {st : Stack} {a : α} {st' : Stack}, from_ st = .ok (a, st') → st'.values <:+ st.values
  error : ∀ {st : Stack} {cause : Cause}, from_ st = .error cause →
    cause = .emptyStack ∨ ∃ want got rest, cause = .mismatch want got ∧ got.kind ≠ want ∧
      st.values = got :: rest

omit [FileSystem W] in
/-- All such operations look at the value on top alone. -/
theorem guarded_of_top {from_ : Stack → Except Cause (α × Stack)}
    (hnil : from_ ⟨[]⟩ = .error .emptyStack)
    (hcons : ∀ top rest, (∃ a, from_ ⟨top :: rest⟩ = .ok (a, ⟨rest⟩)) ∨
      ∃ want, from_ ⟨top :: rest⟩ = .error (.mismatch want top) ∧ top.kind ≠ want) :
    Guarded from_ := by
  refine ⟨?_, ?_⟩
  · rintro ⟨values⟩ a st' h
    cases values with
    | nil =>
      rw [hnil] at h
      cases h
    | cons top rest =>
      rcases hcons top rest with ⟨b, hok⟩ | ⟨want, herror, _⟩
      · rw [hok] at h
        cases h
        exact List.suffix_cons top rest
      · rw [herror] at h
        cases h
  · rintro ⟨values⟩ cause h
    cases values with
    | nil =>
      rw [hnil] at h
      cases h
      exact .inl rfl
    | cons top rest =>
      rcases hcons top rest with ⟨b, hok⟩ | ⟨want, herror, hkind⟩
      · rw [hok] at h
        cases h
      · rw [herror] at h
        cases h
        exact .inr ⟨want, top, rest, rfl, hkind, rfl⟩

theorem takes_take {from_ : Stack → Except Cause (α × Stack)} (hfrom : Guarded from_)
    (shown : α → Bytes) : Takes v s (take from_ shown : Action W α) := by
  refine ⟨?_, ?_⟩
  · intro u t a hu h
    cases hresult : from_ u.stack with
    | ok r =>
      rw [take_of_ok hresult] at h
      cases h
      exact (hu.setStack (hfrom.ok hresult)).noteAt _ _
    | error cause =>
      rw [take_of_error hresult] at h
      cases h
  · intro u t halt hu h cause hcause
    cases hresult : from_ u.stack with
    | ok r =>
      rw [take_of_ok hresult] at h
      cases h
    | error cause' =>
      rw [take_of_error hresult] at h
      cases h
      cases hcause
      refine hu.leftBy_of_misfit fun hkind => ?_
      rcases hfrom.error hresult with rfl | ⟨want, got, rest, rfl, hwrong, htop⟩
      · cases hkind
      · exact .operand rfl hwrong htop

theorem takes_pop : Takes v s (pop : Action W Value) := by
  refine takes_take (guarded_of_top rfl fun top rest => ?_) _
  exact .inl ⟨top, rfl⟩

theorem takes_popNumber : Takes v s (popNumber : Action W Double) := by
  refine takes_take (guarded_of_top rfl fun top rest => ?_) _
  cases top with
  | number x => exact .inl ⟨x, rfl⟩
  | absent => exact .inr ⟨.number, rfl, nofun⟩
  | text name => exact .inr ⟨.number, rfl, nofun⟩
  | list id items => exact .inr ⟨.number, rfl, nofun⟩

theorem takes_popText : Takes v s (popText : Action W Bytes) := by
  refine takes_take (guarded_of_top rfl fun top rest => ?_) _
  cases top with
  | text name => exact .inl ⟨name, rfl⟩
  | absent => exact .inr ⟨.text, rfl, nofun⟩
  | number x => exact .inr ⟨.text, rfl, nofun⟩
  | list id items => exact .inr ⟨.text, rfl, nofun⟩

theorem takes_popList : Takes v s (popList : Action W Value) := by
  refine takes_take (guarded_of_top rfl fun top rest => ?_) _
  cases top with
  | list id items => exact .inl ⟨.list id items, rfl⟩
  | absent => exact .inr ⟨.list, rfl, nofun⟩
  | number x => exact .inr ⟨.list, rfl, nofun⟩
  | text name => exact .inr ⟨.list, rfl, nofun⟩

theorem takes_popMany (count : Nat) :
    ∀ taken, Takes v s (popMany taken count : Action W (List Value)) := by
  induction count with
  | zero => exact fun taken => .pure taken
  | succ count ih => exact fun taken => takes_pop.bind fun x => ih (x :: taken)

theorem takes_top : Takes v s (top : Action W Value) := by
  refine .get fun u => takes_orFail fun cause h => ?_
  unfold Stack.top at h
  split at h
  · cases h
    intro hcause
    cases hcause
  · cases h

theorem takes_countFor (n : Double) : Takes v s (countFor n : Action W Nat) := by
  refine .get fun u => ?_
  cases n.ceilCount? u.stack.size with
  | some count => exact .pure count
  | none =>
    refine .throw fun u hu cause hcause => ?_
    cases hcause
    exact hu.leftBy nofun

theorem takes_valueOf (name : Bytes) : Takes v s (valueOf name : Action W Value) := by
  refine .get fun u => takes_orFail fun cause h => ?_
  unfold Symbols.get at h
  split at h
  · cases h
  · cases h
    nofun

/-! ## Output and files -/

theorem failsCleanly_print (text : Bytes) : FailsCleanly v s (print text : Action W Unit) := by
  intro u cause t hu h
  rcases hwrite : u.output.writeLine text with ⟨output, error⟩
  cases error with
  | none =>
    rw [print_of_none hwrite] at h
    cases h
  | some error =>
    rw [print_of_some hwrite] at h
    cases h
    have htaken : s.Taken s.world { u with output := output } :=
      ⟨hu.stack, hu.symbols, hu.line, hu.world⟩
    exact htaken.leftBy nofun

/-- A read that fails, or a source that does after it was read. -/
theorem failsCleanly_loadText_bind (path : Bytes) {f : Bytes → Action W α}
    (hf : ∀ text u cause t, s.Taken (FileSystem.read s.world path).world u →
      f text u = .error (.fault cause) t → LeftBy v s cause t) :
    FailsCleanly v s (loadText path >>= f) := by
  intro u cause t hu h
  have hreceived := hu.receive (FileSystem.read u.world path)
  rw [hu.world] at hreceived
  have hload : loadText path u =
      access (FileSystem.read s.world path) (.readFailed path) u := by rw [← hu.world]; rfl
  cases hresult : (FileSystem.read s.world path).access with
  | ok text =>
    rw [bind_of_ok (hload.trans (access_of_ok hresult _ u))] at h
    exact hf text _ cause t hreceived h
  | failed error =>
    rw [bind_of_error (hload.trans (access_of_failed hresult _ u))] at h
    cases h
    exact hreceived.leftBy_of_unwritten (.read path) nofun nofun
  | crashed message =>
    rw [bind_of_error (hload.trans (access_of_crashed hresult _ u))] at h
    cases h

theorem failsCleanly_saveText (path text : Bytes) :
    FailsCleanly v s (saveText path text : Action W Unit) := by
  intro u cause t hu h
  have hreceived := hu.receive (FileSystem.write u.world path text)
  rw [hu.world] at hreceived
  have hsave : saveText path text u =
      access (FileSystem.write s.world path text) (.writeFailed path) u := by rw [← hu.world]; rfl
  cases hresult : (FileSystem.write s.world path text).access with
  | ok _ =>
    rw [hsave.trans (access_of_ok hresult _ u)] at h
    cases h
  | failed error =>
    rw [hsave.trans (access_of_failed hresult _ u)] at h
    cases h
    exact hreceived.leftBy_of_unwritten (.write hresult) nofun nofun
  | crashed message =>
    rw [hsave.trans (access_of_crashed hresult _ u)] at h
    cases h

/-! ## Evaluation -/

/-- What is done with a value that was taken to be evaluated. -/
def evaluated (run : Runner W) : Value → Action W Unit
  | .number x => push (.number x)
  | .list _ items => run items
  | .text name => do push (← valueOf name)
  | .absent => pure ()

omit [FileSystem W] in
theorem evaluate_eq (run : Runner W) : evaluate run = (do
    let x ← pop
    note .debug fun _ => x.format ++ ascii " $"
    evaluated run x) := by
  refine congrArg (pop >>= ·) ?_
  funext x
  cases x <;> rfl

theorem failsCleanly_evaluated (x : Value) :
    FailsCleanly v s (evaluated stuck x : Action W Unit) := by
  cases x with
  | absent => exact (infallible_pure ()).failsCleanly
  | number y => exact (infallible_push _).failsCleanly
  | text name => exact (takes_valueOf name).before fun y => (infallible_push y).failsCleanly
  | list id items => exact (infallible_stuck items).failsCleanly

theorem failsCleanly_evaluate : FailsCleanly v s (evaluate stuck : Action W Unit) := by
  rw [evaluate_eq]
  exact takes_pop.before fun x => (takes_note _ _).before fun _ => failsCleanly_evaluated x

/-- Evaluating a value puts at most one in its place. -/
theorem taken_of_evaluated {x : Value} {u t : Session W} (hu : s.Taken s.world u)
    (h : evaluated stuck x u = .ok () t) :
    s.Taken s.world t ∨ ∃ y u', s.Taken s.world u' ∧ t = u'.pushValue y := by
  cases x with
  | absent =>
    cases h
    exact .inl hu
  | number y =>
    cases h
    exact .inr ⟨.number y, _, hu.noteAt _ _, rfl⟩
  | list id items => cases h
  | text name =>
    change (valueOf name >>= push) u = .ok () t at h
    cases hvalue : valueOf name u with
    | error halt u' =>
      rw [bind_of_error hvalue] at h
      cases h
    | ok y u' =>
      have hu' : s.Taken s.world u' := (takes_valueOf (v := .absent) name).ok hu hvalue
      rw [bind_of_ok hvalue] at h
      cases h
      exact .inr ⟨y, _, hu'.noteAt _ _, rfl⟩

theorem taken_of_evaluate {u t : Session W} (hu : s.Taken s.world u)
    (h : evaluate stuck u = .ok () t) :
    s.Taken s.world t ∨ ∃ y u', s.Taken s.world u' ∧ t = u'.pushValue y := by
  rw [evaluate_eq] at h
  cases hpop : pop u with
  | error halt u' =>
    rw [bind_of_error hpop] at h
    cases h
  | ok x u' =>
    have hu' : s.Taken s.world u' := (takes_pop (v := .absent)).ok hu hpop
    rw [bind_of_ok hpop] at h
    exact taken_of_evaluated (hu'.noteAt _ _) h

/-- The second evaluation takes what the first one has put on the stack. -/
theorem failsCleanly_evaluateTwice :
    FailsCleanly v s (evaluate stuck >>= fun _ => evaluate stuck : Action W Unit) := by
  intro u cause t hu h
  cases hfirst : evaluate stuck u with
  | error halt u' =>
    rw [bind_of_error hfirst] at h
    cases h
    exact failsCleanly_evaluate u cause t hu hfirst
  | ok _ u₁ =>
    rw [bind_of_ok hfirst] at h
    rcases taken_of_evaluate hu hfirst with hu₁ | ⟨x, u', hu', rfl⟩
    · exact failsCleanly_evaluate u₁ cause t hu₁ h
    · have hpop : pop (u'.pushValue x) =
          .ok x (u'.noteAt .debug fun _ => ascii "pop " ++ x.format) := take_of_ok rfl
      rw [evaluate_eq, bind_of_ok hpop] at h
      exact failsCleanly_evaluated x _ cause t ((hu'.noteAt _ _).noteAt _ _) h

/-! ## Names, conditions and lists -/

theorem failsCleanly_adjust (by_ : Double)
    (hv : v.instruction? = some .increment ∨ v.instruction? = some .decrement) :
    FailsCleanly v s (adjust by_ : Action W Unit) := by
  refine takes_popText.before fun name u cause t hu h => ?_
  cases hvalue : u.symbols.get name with
  | error cause' =>
    have hfail : valueOf name u = .error (.fault cause') u := by
      unfold valueOf
      rw [get_bind, hvalue]
      rfl
    rw [bind_of_error hfail] at h
    cases h
    exact (takes_valueOf name).error hu hfail cause rfl
  | ok x =>
    have hok : valueOf name u = .ok x u := by
      unfold valueOf
      rw [get_bind, hvalue]
      rfl
    rw [bind_of_ok hok] at h
    rw [hu.symbols] at hvalue
    cases x with
    | number y =>
      exact absurd h (((infallible_modify _).bind fun _ => infallible_modify _) u cause t)
    | absent =>
      cases h
      exact hu.leftBy_of_misfit fun _ => .counter hv rfl nofun hvalue
    | text other =>
      cases h
      exact hu.leftBy_of_misfit fun _ => .counter hv rfl nofun hvalue
    | list id items =>
      cases h
      exact hu.leftBy_of_misfit fun _ => .counter hv rfl nofun hvalue

theorem failsCleanly_arithmetic (f : Double → Double → Double) :
    FailsCleanly v s (arithmetic f : Action W Unit) :=
  takes_popNumber.before fun _ => takes_popNumber.before fun _ => (infallible_push _).failsCleanly

theorem failsCleanly_compareNumbers (f : Double → Double → Bool) :
    FailsCleanly v s (compareNumbers f : Action W Unit) :=
  takes_popNumber.before fun _ => takes_popNumber.before fun _ => (infallible_modify _).failsCleanly

theorem failsCleanly_compareValues (f : Value → Value → Bool) :
    FailsCleanly v s (compareValues f : Action W Unit) :=
  takes_pop.before fun _ => takes_pop.before fun _ => (infallible_modify _).failsCleanly

theorem failsCleanly_assertOperand : FailsCleanly v s (assertOperand : Action W Unit) := by
  refine takes_popNumber.before fun x => ?_
  cases x.isZero with
  | true =>
    have hfail : FailsCleanly v s (fail .assertion : Action W PUnit) := failsCleanly_fail nofun
    exact hfail.before fun _ => infallible_modify _
  | false => exact (takes_note _ _).failsCleanly

theorem kind_of_itemAt {items : List Value} {x : Double} {cause : Cause}
    (h : itemAt items x = .error cause) : cause.kind ≠ .typeMismatch := by
  unfold itemAt at h
  split at h
  · cases h
    nofun
  · split at h
    · cases h
    · cases h
      nofun

theorem failsCleanly_pushItemAt (items : List Value) (x : Double) :
    FailsCleanly v s (orFail (itemAt items x) >>= push : Action W Unit) :=
  (takes_orFail fun _ h => kind_of_itemAt h).before fun y => (infallible_push y).failsCleanly

theorem failsCleanly_pushLookup (hv : v.instruction? = some .lookup) :
    FailsCleanly v s (pushLookup : Action W Unit) := by
  refine takes_pop.before fun key => takes_popList.before fun list => ?_
  cases key with
  | number x => exact failsCleanly_pushItemAt list.items x
  | text name =>
    simp only
    cases valueForKey? name list.items with
    | none => exact failsCleanly_fail nofun
    | some x => exact (infallible_push x).failsCleanly
  | absent =>
    intro u cause t hu h
    cases h
    exact hu.leftBy_of_misfit fun _ => .key hv rfl ⟨nofun, nofun⟩
  | list id items =>
    intro u cause t hu h
    cases h
    exact hu.leftBy_of_misfit fun _ => .key hv rfl ⟨nofun, nofun⟩

theorem failsCleanly_gatherValues : FailsCleanly v s (gatherValues : Action W Unit) := by
  rw [gatherValues_eq]
  refine takes_popNumber.before fun n => (takes_countFor n).before fun count => ?_
  exact (takes_popMany count []).before fun items => (infallible_pushList items).failsCleanly

theorem failsCleanly_importOperand : FailsCleanly v s (importOperand : Action W Unit) := by
  refine takes_popText.before fun path => failsCleanly_loadText_bind path ?_
  intro src u cause t hu h
  have hparsed := hu.parse src
  rw [bind_of_ok (show readSource src u = .ok (u.parse src).2 (u.parse src).1 from rfl)] at h
  cases hresult : (u.parse src).2 with
  | error error =>
    rw [hresult] at h
    cases h
    exact hparsed.leftBy_of_unwritten (.read path) nofun nofun
  | ok items =>
    rw [hresult] at h
    exact absurd h (((infallible_modify _).bind fun _ => infallible_pushList items) _ cause t)

theorem failsCleanly_exportOperand : FailsCleanly v s (exportOperand : Action W Unit) := by
  refine takes_popText.before fun path => takes_popList.before fun list => ?_
  rcases list.render with ⟨text, stopped⟩
  cases stopped with
  | none => exact (failsCleanly_saveText path text).before fun _ => infallible_modify _
  | some bad => exact failsCleanly_fail nofun

/-! ## Whole elements -/

theorem failsCleanly_perform {i : Instruction} (hv : v.instruction? = some i) :
    FailsCleanly v s (i.perform stuck 0 : Action W Unit) := by
  have harithmetic := fun f => failsCleanly_arithmetic (v := v) (s := s) f
  have hcompare := fun f => failsCleanly_compareNumbers (v := v) (s := s) f
  have hconvert : ∀ f : Double → Value, FailsCleanly v s (convert f : Action W Unit) := fun f =>
    takes_popNumber.before fun x => (infallible_push (f x)).failsCleanly
  have hduplicate : FailsCleanly v s (duplicate : Action W Unit) :=
    takes_top.before fun x => (infallible_push x).failsCleanly
  have hpart : ∀ f : Double → Value → List Value, FailsCleanly v s
      (popNumber >>= fun n => popList >>= fun list => pushList (f n list) : Action W Unit) :=
    fun f => takes_popNumber.before fun n => takes_popList.before fun list =>
      (infallible_pushList (f n list)).failsCleanly
  cases i with
  | eval => exact failsCleanly_evaluate
  | evalTwice => exact failsCleanly_evaluateTwice
  | assign =>
    refine takes_popText.before fun name => takes_pop.before fun x => ?_
    exact ((infallible_modify _).bind fun _ => infallible_modify _).failsCleanly
  | add => exact harithmetic _
  | sub => exact harithmetic _
  | mul => exact harithmetic _
  | div => exact harithmetic _
  | floorDiv => exact harithmetic _
  | mod => exact harithmetic _
  | increment => exact failsCleanly_adjust _ (.inl hv)
  | decrement => exact failsCleanly_adjust _ (.inr hv)
  | greater => exact hcompare _
  | less => exact hcompare _
  | greaterEq => exact hcompare _
  | lessEq => exact hcompare _
  | equal => exact failsCleanly_compareValues _
  | different => exact failsCleanly_compareValues _
  | and => exact hcompare _
  | or => exact hcompare _
  | not => exact takes_popNumber.before fun _ => (infallible_modify _).failsCleanly
  | select =>
    refine takes_popNumber.before fun x => takes_pop.before fun yes => ?_
    exact takes_pop.before fun no => (infallible_push _).failsCleanly
  | assert => exact failsCleanly_assertOperand
  | lookup => exact failsCleanly_pushLookup hv
  | setLine =>
    refine takes_popNumber.before fun x => ?_
    exact ((infallible_modify _).bind fun _ => infallible_modify _).failsCleanly
  | dot => exact hduplicate
  | dup => exact hduplicate
  | drop => exact takes_pop.before fun _ => (infallible_pure ()).failsCleanly
  | swap =>
    refine takes_pop.before fun b => takes_pop.before fun a => ?_
    exact ((infallible_push b).bind fun _ => infallible_push a).failsCleanly
  | cond =>
    refine takes_popNumber.before fun x => takes_popList.before fun body => ?_
    cases x.isZero with
    | true => exact (infallible_pure ()).failsCleanly
    | false => exact (infallible_stuck body.items).failsCleanly
  | condElse =>
    refine takes_popNumber.before fun x => takes_popList.before fun yes => ?_
    exact takes_popList.before fun no => (infallible_stuck _).failsCleanly
  | each =>
    refine takes_popList.before fun body => takes_popList.before fun list => ?_
    exact (infallible_runOver _ _).failsCleanly
  | loop =>
    have hexhausted : Infallible (throw .exhausted : Action W Unit) := infallible_throw nofun
    exact takes_popList.before fun _ => hexhausted.failsCleanly
  | first =>
    refine takes_popList.before fun list => ?_
    cases list.items with
    | nil => exact failsCleanly_fail nofun
    | cons x rest => exact (infallible_push x).failsCleanly
  | rest => exact takes_popList.before fun _ => (infallible_pushList _).failsCleanly
  | head => exact hpart _
  | tail => exact hpart _
  | get =>
    refine takes_popNumber.before fun n => takes_popList.before fun list => ?_
    exact failsCleanly_pushItemAt list.items n
  | gather => exact failsCleanly_gatherValues
  | reduce =>
    refine takes_popList.before fun body => takes_popList.before fun list => ?_
    exact (takes_note _ _).before fun _ => (infallible_runOver _ _).failsCleanly
  | map =>
    refine takes_popList.before fun body => takes_popList.before fun list => ?_
    refine (takes_note _ _).before fun _ => ?_
    exact ((infallible_collect _ _ _).bind infallible_pushList).failsCleanly
  | spread => exact takes_popList.before fun _ => (infallible_pushAll _).failsCleanly
  | importList => exact failsCleanly_importOperand
  | exportList => exact failsCleanly_exportOperand
  | readFile =>
    refine takes_popText.before fun path => failsCleanly_loadText_bind path ?_
    exact fun text u cause t _ h => absurd h (infallible_push _ u cause t)
  | writeFile =>
    exact takes_popText.before fun path => takes_popText.before fun text =>
      failsCleanly_saveText path text
  | print => exact takes_pop.before fun x => failsCleanly_print _
  | peek => exact takes_top.before fun x => failsCleanly_print _
  | exit =>
    have hexit : Infallible (throw .exit : Action W Unit) := infallible_throw nofun
    exact hexit.failsCleanly
  | die => exact failsCleanly_fail nofun
  | str => exact hconvert _
  | int => exact hconvert _

theorem failsCleanly_step (v : Value) (s : Session W) :
    FailsCleanly v s (step stuck 0 v : Action W Unit) := by
  cases hv : v.instruction? with
  | some i =>
    rw [step_of_instruction hv]
    exact (takes_note _ _).before fun _ => failsCleanly_perform hv
  | none =>
    rcases step_of_plain (W := W) hv with ⟨x, hpush⟩ | ⟨name, hfail⟩
    · rw [hpush]
      exact (infallible_push x).failsCleanly
    · rw [hfail]
      exact failsCleanly_fail nofun

end Clean

end Action

/-! ## Elements that run no list -/

section RunsNoList

variable {W : Type} [FileSystem W]

/-- Evaluating the element in the session runs no list, so that it makes no difference how
lists are run. -/
def Value.RunsNoList (v : Value) (s : Session W) : Prop :=
  ∀ (run run' : Runner W) (rounds rounds' : Nat), step run rounds v s = step run' rounds' v s

/-- Most instructions never run a list, nor does what names no instruction. -/
theorem Value.runsNoList_of_instruction {v : Value}
    (h : ∀ i, v.instruction? = some i → i.runsLists = false) (s : Session W) :
    v.RunsNoList s := by
  intro run run' rounds rounds'
  cases hv : v.instruction? with
  | none => rw [(step_of_no_instruction hv run run' rounds rounds').1]
  | some i =>
    rw [step_of_instruction hv, step_of_instruction hv,
      Instruction.perform_of_runsLists (h i hv) run run' rounds rounds']

/-- A view of the files that neither a read changes nor a write that fails. -/
structure StableView {F : Type} (files : W → F) : Prop where
  read : ∀ w path, files (FileSystem.read w path).world = files w
  write : ∀ {w path text error}, (FileSystem.write w path text).access = .failed error →
    files (FileSystem.write w path text).world = files w

theorem Unwritten.view_eq {F : Type} {files : W → F} (hfiles : StableView files) {w w' : W}
    (h : Unwritten w w') : files w' = files w := by
  cases h with
  | same => rfl
  | read path => exact hfiles.read w path
  | write failed => exact hfiles.write failed

/-- An element that runs no list and fails has put nothing on the stack and has changed
neither the names nor the line nor the files; operands may be gone.  Where a list could not
be written in source form the files have not been touched at all.  An operand of the wrong
kind is on top of the stack that is left, and is told of as the offending value; a value can
have the wrong kind otherwise only as a key or as that of a name to be counted up or
down. -/
theorem step_fault_leaves {v : Value} {s t : Session W} {cause : Cause} (run : Runner W)
    (rounds : Nat) (hlists : v.RunsNoList s)
    (h : step run rounds v s = .error (.fault cause) t) :
    t.stack.toList <+: s.stack.toList ∧ t.symbols = s.symbols ∧ t.line = s.line ∧
      (∀ {F : Type} {files : W → F}, StableView files → files t.world = files s.world) ∧
      (cause.kind = .unserializable → t.world = s.world) ∧
      (cause.kind = .typeMismatch → Misfit v s t cause) := by
  rw [hlists run Action.stuck rounds 0] at h
  have hleft := Action.failsCleanly_step v s s cause t (.refl s) h
  exact ⟨hleft.stack, hleft.symbols, hleft.line, fun hfiles => hleft.unwritten.view_eq hfiles,
    hleft.unserializable, hleft.misfit⟩

end RunsNoList

theorem MemoryFiles.stableView_files : StableView MemoryFiles.files where
  read w path := by
    change (w.read path).world.files = w.files
    unfold MemoryFiles.read
    split
    · rfl
    · rfl
  write {w path text error} h := by
    change (w.write path text).access = .failed error at h
    change (w.write path text).world.files = w.files
    unfold MemoryFiles.write at h ⊢
    split at h
    · cases h
    · split at h
      · rename_i hreadonly
        rw [if_pos hreadonly]
      · cases h

/-- A session that is about to export a list with a backtick in it, to a file that is
there. -/
def Session.beforeExport : Session MemoryFiles :=
  { Session.new ⟨.bind .empty (ascii "f") (ascii "old"), [], [], none⟩ with
    stack := ⟨[.text (ascii "f"), .list .bare [.text [backtick]], .number .one]⟩ }

/-- The path and the list are gone, and the file is what it was. -/
theorem step_fault_leaves_beforeExport :
    ∃ cause t, step Action.stuck 0 (.text (ascii ".export")) Session.beforeExport =
        .error (.fault cause) t ∧ cause.kind = .unserializable ∧
      t.stack.toList <+: Session.beforeExport.stack.toList ∧
      t.world.files = Session.beforeExport.world.files := by
  have hlists : (Value.text (ascii ".export")).RunsNoList Session.beforeExport :=
    Value.runsNoList_of_instruction (by decide +kernel) _
  refine ⟨_, _, rfl, rfl, ?_⟩
  obtain ⟨hstack, _, _, hfiles, _⟩ := step_fault_leaves Action.stuck 0 hlists rfl
  exact ⟨hstack, hfiles MemoryFiles.stableView_files⟩

end StackScript
