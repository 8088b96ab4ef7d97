import StackScript.Proofs.Congruence
set_option autoImplicit false

/-!
# What surrounds the instructions

Most of what an instruction is composed of happens on the stack, among the names and in
the journal.  The count of lists being run, its limit, the output and the files surround
it: they change only where a list is run, a text is printed or a file is accessed.

`Action.Keeps` says of an action that a property of the surroundings holds after it if it
held before, and what holds of them where it halts.  A property that accesses to files
keep is kept by every instruction, if running lists and printing keep it.
-/

namespace StackScript

/-- What instructions reach only by running lists, printing and accessing files. -/
structure Surroundings (W : Type) where
  /-- how many lists are being run -/
  depth : Nat
  /-- how many may be -/
  limit : Nat
  output : Output
  world : W

/-- What surrounds the instructions in a session. -/
def Session.surroundings {W : Type} (s : Session W) : Surroundings W :=
  ⟨s.depth, s.limit, s.output, s.world⟩

/-- Whether a halt is one that instructions come to by themselves: neither at the
recursion limit, nor by a crash of the host, nor for want of rounds. -/
def Halt.isOrdinary : Halt → Bool
  | .fault cause => !(Halt.fault cause).isLimit
  | .exit => true
  | .interrupted _ => true
  | .crashed _ => false
  | .exhausted => false

namespace Session

variable {W : Type}

theorem surroundings_noteAt (s : Session W) (level : Level) (message : Unit → Bytes) :
    (s.noteAt level message).surroundings = s.surroundings := by
  obtain ⟨journal, hnote⟩ := s.exists_noteAt level message
  rw [hnote]
  rfl

theorem surroundings_parse (s : Session W) (src : Bytes) :
    (s.parse src).1.surroundings = s.surroundings := by
  obtain ⟨journal, hparse⟩ := s.exists_parse src
  rw [hparse]
  rfl

theorem surroundings_receive {α : Type} (s : Session W) (reply : Reply W α) :
    (s.receive reply).surroundings = { s.surroundings with world := reply.world } := by
  obtain ⟨interrupt, journal, heffect⟩ :=
    ({ s with world := reply.world } : Session W).exists_undergo reply.effect
  rw [receive, heffect]
  rfl

end Session

namespace Action

/-! ## Actions that leave everything around alone -/

/-- An action that leaves the surroundings alone and halts only by itself. -/
structure Quiet {W α : Type} (x : Action W α) : Prop where
  ok : ∀ {s t : Session W} {a : α}, x s = .ok a t → t.surroundings = s.surroundings
  error : ∀ {s t : Session W} {halt : Halt}, x s = .error halt t →
    t.surroundings = s.surroundings ∧ halt.isOrdinary = true

section Quiet

variable {W α β : Type}

theorem quiet_pure (a : α) : Quiet (pure a : Action W α) := by
  refine ⟨?_, ?_⟩
  · intro s t b h
    cases h
    rfl
  · intro s t halt h
    cases h

theorem Quiet.bind {x : Action W α} {f : α → Action W β} (hx : Quiet x)
    (hf : ∀ a, Quiet (f a)) : Quiet (x >>= f) := by
  refine ⟨?_, ?_⟩
  · intro s t b h
    cases hxs : x s with
    | ok a u =>
      rw [bind_of_ok hxs] at h
      exact ((hf a).ok h).trans (hx.ok hxs)
    | error halt u =>
      rw [bind_of_error hxs] at h
      cases h
  · intro s t halt h
    cases hxs : x s with
    | ok a u =>
      rw [bind_of_ok hxs] at h
      obtain ⟨hsame, hordinary⟩ := (hf a).error h
      exact ⟨hsame.trans (hx.ok hxs), hordinary⟩
    | error halt' u =>
      rw [bind_of_error hxs] at h
      cases h
      exact hx.error hxs

theorem quiet_throw {halt : Halt} (h : halt.isOrdinary = true) :
    Quiet (throw halt : Action W α) := by
  refine ⟨?_, ?_⟩
  · intro s t a hthrow
    cases hthrow
  · intro s t halt' hthrow
    cases hthrow
    exact ⟨rfl, h⟩

theorem quiet_fail {cause : Cause} (h : (Halt.fault cause).isLimit = false) :
    Quiet (fail cause : Action W α) :=
  quiet_throw (by simp [Halt.isOrdinary, h])

theorem quiet_orFail {result : Except Cause α}
    (h : ∀ cause, result = .error cause → (Halt.fault cause).isLimit = false) :
    Quiet (orFail result : Action W α) := by
  cases result with
  | ok a => exact quiet_pure a
  | error cause => exact quiet_fail (h cause rfl)

/-- An action that decides by the session what to do. -/
theorem quiet_get {f : Session W → Action W α} (h : ∀ s, Quiet (f s)) :
    Quiet (get >>= f : Action W α) := by
  refine ⟨?_, ?_⟩
  · intro s t a hf
    exact (h s).ok hf
  · intro s t halt hf
    exact (h s).error hf

theorem quiet_modify {f : Session W → Session W}
    (h : ∀ s, (f s).surroundings = s.surroundings) : Quiet (modify f : Action W Unit) := by
  refine ⟨?_, ?_⟩
  · intro s t a hf
    cases hf
    exact h s
  · intro s t halt hf
    cases hf

theorem quiet_note (level : Level) (message : Unit → Bytes) :
    Quiet (note level message : Action W Unit) :=
  quiet_modify fun s => s.surroundings_noteAt level message

theorem quiet_checkpoint : Quiet (checkpoint : Action W Unit) := by
  refine quiet_get fun s => ?_
  cases s.interrupt with
  | none => exact quiet_pure ()
  | some reason => exact quiet_throw rfl

theorem quiet_push (v : Value) : Quiet (push v : Action W Unit) :=
  (quiet_note _ _).bind fun _ => quiet_modify fun _ => rfl

theorem quiet_take {from_ : Stack → Except Cause (α × Stack)} (hfrom : Stack.Framed from_)
    (shown : α → Bytes) : Quiet (take from_ shown : Action W α) := by
  refine quiet_get fun s => ?_
  refine (quiet_orFail fun cause h => hfrom.not_limit h).bind ?_
  rintro ⟨a, stack⟩
  apply Quiet.bind
  · exact quiet_modify fun _ => rfl
  · exact fun _ => (quiet_note _ _).bind fun _ => quiet_pure a

theorem quiet_top : Quiet (top : Action W Value) := by
  refine quiet_get fun s => quiet_orFail fun cause h => ?_
  unfold Stack.top at h
  split at h
  · cases h
    rfl
  · cases h

theorem quiet_countFor (n : Double) : Quiet (countFor n : Action W Nat) := by
  refine quiet_get fun s => ?_
  cases n.ceilCount? s.stack.size with
  | none => exact quiet_fail rfl
  | some count => exact quiet_pure count

theorem quiet_pushList (items : List Value) : Quiet (pushList items : Action W Unit) := by
  refine quiet_get fun s => ?_
  apply Quiet.bind
  · exact quiet_modify fun _ => rfl
  · exact fun _ => quiet_push _

theorem quiet_valueOf (name : Bytes) : Quiet (valueOf name : Action W Value) := by
  refine quiet_get fun s => quiet_orFail fun cause h => ?_
  unfold Symbols.get at h
  split at h
  · cases h
  · cases h
    rfl

theorem quiet_readSource (src : Bytes) :
    Quiet (readSource src : Action W (Except SyntaxError (List Value))) := by
  refine ⟨?_, ?_⟩
  · intro s t a h
    cases h
    exact s.surroundings_parse src
  · intro s t halt h
    cases h

end Quiet

/-! ## Actions that keep a property -/

/-- After the action `J` holds if it held before, or `E` where the action halts. -/
structure Keeps {W α : Type} (J : Surroundings W → Prop) (E : Halt → Surroundings W → Prop)
    (x : Action W α) : Prop where
  ok : ∀ {s t : Session W} {a : α}, J s.surroundings → x s = .ok a t → J t.surroundings
  error : ∀ {s t : Session W} {halt : Halt}, J s.surroundings → x s = .error halt t →
    E halt t.surroundings

end Action

open StackScript.Action (Keeps Quiet)

/-- A property of the surroundings that accesses to the files keep, with what is to hold
after halts. -/
structure Steady {W : Type} [FileSystem W] (J : Surroundings W → Prop)
    (E : Halt → Surroundings W → Prop) : Prop where
  halts : ∀ {σ halt}, J σ → halt.isOrdinary = true → E halt σ
  read : ∀ {σ}, J σ → ∀ path, J { σ with world := (FileSystem.read σ.world path).world }
  write : ∀ {σ}, J σ → ∀ path text,
    J { σ with world := (FileSystem.write σ.world path text).world }
  readCrashed : ∀ {σ path message}, J σ →
    (FileSystem.read σ.world path).access = .crashed message →
    E (.crashed message) { σ with world := (FileSystem.read σ.world path).world }
  writeCrashed : ∀ {σ path text message}, J σ →
    (FileSystem.write σ.world path text).access = .crashed message →
    E (.crashed message) { σ with world := (FileSystem.write σ.world path text).world }

namespace Steady

variable {W α β : Type} [FileSystem W] {J : Surroundings W → Prop}
  {E : Halt → Surroundings W → Prop}

omit [FileSystem W] in
theorem keeps_bind {x : Action W α} {f : α → Action W β} (hx : Keeps J E x)
    (hf : ∀ a, Keeps J E (f a)) : Keeps J E (x >>= f) := by
  refine ⟨?_, ?_⟩
  · intro s t b hs h
    cases hxs : x s with
    | ok a u =>
      rw [Action.bind_of_ok hxs] at h
      exact (hf a).ok (hx.ok hs hxs) h
    | error halt u =>
      rw [Action.bind_of_error hxs] at h
      cases h
  · intro s t halt hs h
    cases hxs : x s with
    | ok a u =>
      rw [Action.bind_of_ok hxs] at h
      exact (hf a).error (hx.ok hs hxs) h
    | error halt' u =>
      rw [Action.bind_of_error hxs] at h
      cases h
      exact hx.error hs hxs

omit [FileSystem W] in
theorem keeps_modify {f : Session W → Session W}
    (h : ∀ s, J s.surroundings → J (f s).surroundings) : Keeps J E (modify f) := by
  refine ⟨?_, ?_⟩
  · intro s t a hs hf
    cases hf
    exact h s hs
  · intro s t halt hs hf
    cases hf

omit [FileSystem W] in
theorem keeps_print (text : Bytes)
    (hok : ∀ σ, J σ → (σ.output.writeLine text).2 = none →
      J { σ with output := (σ.output.writeLine text).1 })
    (herror : ∀ σ error, J σ → (σ.output.writeLine text).2 = some error →
      E (.fault (.outputFailed error)) { σ with output := (σ.output.writeLine text).1 }) :
    Keeps J E (Action.print text) := by
  refine ⟨?_, ?_⟩
  · intro s t a hs h
    rcases hwrite : s.output.writeLine text with ⟨output, error⟩
    cases error with
    | none =>
      rw [Action.print_of_none hwrite] at h
      cases h
      have hkept := hok s.surroundings hs (congrArg Prod.snd hwrite)
      rwa [show s.surroundings.output.writeLine text = (output, none) from hwrite] at hkept
    | some error =>
      rw [Action.print_of_some hwrite] at h
      cases h
  · intro s t halt hs h
    rcases hwrite : s.output.writeLine text with ⟨output, error⟩
    cases error with
    | none =>
      rw [Action.print_of_none hwrite] at h
      cases h
    | some error =>
      rw [Action.print_of_some hwrite] at h
      cases h
      have hkept := herror s.surroundings error hs (congrArg Prod.snd hwrite)
      rwa [show s.surroundings.output.writeLine text = (output, some error) from hwrite] at hkept

variable (hJ : Steady J E)
include hJ

theorem keeps_of_quiet {x : Action W α} (hx : Quiet x) : Keeps J E x := by
  refine ⟨?_, ?_⟩
  · intro s t a hs h
    rw [hx.ok h]
    exact hs
  · intro s t halt hs h
    obtain ⟨hsame, hordinary⟩ := hx.error h
    rw [hsame]
    exact hJ.halts hs hordinary

/-- An access after which the property holds, or what is to hold after a crash. -/
theorem access_keeps {s : Session W} {reply : Reply W α} {failure : Bytes → Cause}
    (hlimit : ∀ text, (Halt.fault (failure text)).isLimit = false)
    (hreply : J { s.surroundings with world := reply.world })
    (hcrash : ∀ {message}, reply.access = .crashed message →
      E (.crashed message) { s.surroundings with world := reply.world }) :
    (∀ {t a}, Action.access reply failure s = .ok a t → J t.surroundings) ∧
      ∀ {t halt}, Action.access reply failure s = .error halt t → E halt t.surroundings := by
  rw [← s.surroundings_receive reply] at hreply hcrash
  cases hresult : reply.access with
  | ok a =>
    rw [Action.access_of_ok hresult]
    refine ⟨?_, ?_⟩
    · intro t b h
      cases h
      exact hreply
    · intro t halt h
      cases h
  | failed error =>
    rw [Action.access_of_failed hresult]
    refine ⟨?_, ?_⟩
    · intro t b h
      cases h
    · intro t halt h
      cases h
      exact hJ.halts hreply (by simp [Halt.isOrdinary, hlimit])
  | crashed message =>
    rw [Action.access_of_crashed hresult]
    refine ⟨?_, ?_⟩
    · intro t b h
      cases h
    · intro t halt h
      cases h
      exact hcrash hresult

theorem keeps_loadText (path : Bytes) : Keeps J E (Action.loadText path : Action W Bytes) := by
  refine ⟨?_, ?_⟩
  · intro s t a hs h
    exact (hJ.access_keeps (fun _ => rfl) (hJ.read hs path) (hJ.readCrashed hs)).1 h
  · intro s t halt hs h
    exact (hJ.access_keeps (fun _ => rfl) (hJ.read hs path) (hJ.readCrashed hs)).2 h

theorem keeps_saveText (path text : Bytes) :
    Keeps J E (Action.saveText path text : Action W Unit) := by
  refine ⟨?_, ?_⟩
  · intro s t a hs h
    exact (hJ.access_keeps (fun _ => rfl) (hJ.write hs path text) (hJ.writeCrashed hs)).1 h
  · intro s t halt hs h
    exact (hJ.access_keeps (fun _ => rfl) (hJ.write hs path text) (hJ.writeCrashed hs)).2 h

/-- To keep a steady property is a congruence. -/
theorem congruence : Congruence (fun {α} (x : Action W α) (_ : Action W α) => Keeps J E x) where
  pure a := hJ.keeps_of_quiet (Action.quiet_pure a)
  bind hx hf := keeps_bind hx hf
  fail h := hJ.keeps_of_quiet (Action.quiet_fail h)
  exit := hJ.keeps_of_quiet (Action.quiet_throw rfl)
  checkpoint := hJ.keeps_of_quiet Action.quiet_checkpoint
  note level message := hJ.keeps_of_quiet (Action.quiet_note level message)
  push v := hJ.keeps_of_quiet (Action.quiet_push v)
  pushBool _ := hJ.keeps_of_quiet (Action.quiet_modify fun _ => rfl)
  take h shown := hJ.keeps_of_quiet (Action.quiet_take h shown)
  top := hJ.keeps_of_quiet Action.quiet_top
  countFor n := hJ.keeps_of_quiet (Action.quiet_countFor n)
  pushList items := hJ.keeps_of_quiet (Action.quiet_pushList items)
  valueOf name := hJ.keeps_of_quiet (Action.quiet_valueOf name)
  bindName _ _ := hJ.keeps_of_quiet (Action.quiet_modify fun _ => rfl)
  setLine _ := hJ.keeps_of_quiet (Action.quiet_modify fun _ => rfl)
  loadText := hJ.keeps_loadText
  saveText := hJ.keeps_saveText
  readSource src := hJ.keeps_of_quiet (Action.quiet_readSource src)

/-- Every instruction keeps a steady property that running lists, printing and going
through the rounds of a loop keep. -/
theorem keeps_performWith {emit : Bytes → Action W Unit} {run : Action.Runner W} {rounds : Nat}
    (hemit : ∀ text, Keeps J E (emit text)) (hrun : ∀ prog, Keeps J E (run prog))
    (hloop : ∀ body, Keeps J E (Action.repeatBody run body rounds)) (i : Instruction) :
    Keeps J E (i.performWith emit run rounds) :=
  @Congruence.performWith W W _ _ _ hJ.congruence run run emit emit rounds rounds hemit hrun hloop i

/-- Running a list keeps a steady property in which the count of lists has no part, if
printing does. -/
theorem keeps_execWith {emit : Bytes → Action W Unit} {rounds : Nat}
    (hemit : ∀ text, Keeps J E (emit text)) (hdepth : ∀ σ depth, J σ → J { σ with depth := depth })
    (hdeep : ∀ σ, J σ → E (.fault (.tooDeep σ.depth)) σ) (hexhausted : ∀ σ, J σ → E .exhausted σ)
    (levels : Nat) (prog : List Value) : Keeps J E (execWith emit rounds levels prog) := by
  refine @Congruence.execWith W W _ _ _ hJ.congruence emit emit hemit ?_ ?_ ?_ ?_ rounds levels prog
  · exact keeps_modify fun s hs => hdepth _ _ hs
  · exact keeps_modify fun s hs => hdepth _ _ hs
  · exact ⟨fun _ h => (nomatch h), fun hs h => by cases h; exact hdeep _ hs⟩
  · exact ⟨fun _ h => (nomatch h), fun hs h => by cases h; exact hexhausted _ hs⟩

end Steady

end StackScript
