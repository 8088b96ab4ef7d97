import StackScript.Session.Run
set_option autoImplicit false

/-!
# Links between runs

Two runs of one program are compared action by action.  A `Link` says what is to hold
between their sessions and that the few things actions do to a session keep it.  It
can let the second run go: at halts that are named beforehand, and once the files of
the first run show what they may not show.

`Link.Sim` is what follows for two actions: where the link holds before them, the
second ends as the first did and the link holds after them.  This module proves it of
the actions that touch a session, and that it passes from the parts of an action to
the whole.
-/

namespace StackScript

/-- Whether a halt is the one at the recursion limit. -/
def Halt.isLimit : Halt → Bool
  | .fault (.tooDeep _) => true
  | _ => false

/-! ## What lies beneath a stack -/

/-- An operation that takes its result from the top of a stack: what lies beneath does
not show, unless the stack runs out of values. -/
structure Stack.Framed {α : Type} (f : Stack → Except Cause (α × Stack)) : Prop where
  ok : ∀ {values rest : List Value} {a : α}, f ⟨values⟩ = .ok (a, ⟨rest⟩) →
    ∀ base, f ⟨values ++ base⟩ = .ok (a, ⟨rest ++ base⟩)
  error : ∀ {values : List Value} {cause : Cause}, f ⟨values⟩ = .error cause →
    ∀ base, cause.kind = .stackUnderflow ∨ f ⟨values ++ base⟩ = .error cause
  not_limit : ∀ {values : List Value} {cause : Cause}, f ⟨values⟩ = .error cause →
    (Halt.fault cause).isLimit = false

namespace Stack

/-- All the guarded operations look at the value on top alone. -/
theorem framed_of_head {α : Type} {f : Stack → Except Cause (α × Stack)}
    (hnil : f ⟨[]⟩ = .error .emptyStack)
    (hcons : ∀ v rest, f ⟨v :: rest⟩ = (f ⟨[v]⟩).map fun r => (r.1, ⟨rest⟩))
    (hlimit : ∀ v cause, f ⟨[v]⟩ = .error cause → (Halt.fault cause).isLimit = false) :
    Framed f := by
  refine ⟨?_, ?_, ?_⟩
  · intro values rest a hok base
    cases values with
    | nil =>
      rw [hnil] at hok
      cases hok
    | cons v below =>
      rw [hcons] at hok
      rw [List.cons_append, hcons]
      cases hhead : f ⟨[v]⟩ with
      | error cause =>
        rw [hhead] at hok
        cases hok
      | ok r =>
        rw [hhead] at hok
        cases hok
        rfl
  · intro values cause herror base
    cases values with
    | nil =>
      rw [hnil] at herror
      cases herror
      exact .inl rfl
    | cons v below =>
      rw [hcons] at herror
      rw [List.cons_append, hcons]
      cases hhead : f ⟨[v]⟩ with
      | error cause =>
        rw [hhead] at herror
        cases herror
        exact .inr rfl
      | ok r =>
        rw [hhead] at herror
        cases herror
  · intro values cause herror
    cases values with
    | nil =>
      rw [hnil] at herror
      cases herror
      rfl
    | cons v below =>
      rw [hcons] at herror
      cases hhead : f ⟨[v]⟩ with
      | error cause =>
        rw [hhead] at herror
        cases herror
        exact hlimit v _ hhead
      | ok r =>
        rw [hhead] at herror
        cases herror

theorem framed_pop : Framed pop := by
  refine framed_of_head rfl (fun _ _ => rfl) ?_
  intro v cause hpop
  cases hpop

theorem framed_popNumber : Framed popNumber := by
  refine framed_of_head rfl ?_ ?_
  · intro v rest
    cases v <;> rfl
  · intro v cause hpop
    cases v <;> cases hpop <;> rfl

theorem framed_popText : Framed popText := by
  refine framed_of_head rfl ?_ ?_
  · intro v rest
    cases v <;> rfl
  · intro v cause hpop
    cases v <;> cases hpop <;> rfl

theorem framed_popList : Framed popList := by
  refine framed_of_head rfl ?_ ?_
  · intro v rest
    cases v <;> rfl
  · intro v cause hpop
    cases v <;> cases hpop <;> rfl

end Stack

/-! ## Changes that notes and sources do not show -/

/-- A change of sessions that shows neither in the notes taken nor in what sources are
read as. -/
structure Session.Unnoted {V W : Type} (φ : Session V → Session W) : Prop where
  listening : ∀ s, (φ s).listening = s.listening
  line : ∀ s, (φ s).line = s.line
  journal : ∀ s, (φ s).journal = s.journal
  nextList : ∀ s, (φ s).nextList = s.nextList
  setJournal : ∀ s journal, φ { s with journal := journal } = { φ s with journal := journal }
  setNextList : ∀ s next, φ { s with nextList := next } = { φ s with nextList := next }

namespace Session.Unnoted

variable {V W : Type} {φ : Session V → Session W}

theorem noteAt (h : Unnoted φ) (s : Session V) (level : Level) (message : Unit → Bytes) :
    (φ s).noteAt level message = φ (s.noteAt level message) := by
  unfold Session.noteAt
  rw [h.listening]
  split
  · refine Eq.trans ?_ (h.setJournal s _).symm
    simp only [h.line, h.journal, h.listening]
  · rfl

theorem noteAll (h : Unnoted φ) (s : Session V) (notes : List Note) :
    (φ s).noteAll notes = φ (s.noteAll notes) := by
  unfold Session.noteAll
  refine Eq.trans ?_ (h.setJournal s _).symm
  simp only [h.listening, h.journal]

theorem parse (h : Unnoted φ) (s : Session V) (src : Bytes) :
    (φ s).parse src = (φ (s.parse src).1, (s.parse src).2) := by
  refine Prod.ext ?_ ?_
  · unfold Session.parse
    rw [h.listening, h.noteAll]
    cases (Reader.start.parse src).2 with
    | error error =>
      split
      · rfl
      · rfl
    | ok trees =>
      have hload : ∀ t : Session V,
          ({ φ t with nextList := (Tree.loadAll (φ t).nextList trees).2 } : Session W) =
            φ { t with nextList := (Tree.loadAll t.nextList trees).2 } := by
        intro t
        refine Eq.trans ?_ (h.setNextList t _).symm
        simp only [h.nextList]
      split
      · exact hload _
      · exact hload _
  · change ((φ s).parse src).2 = (s.parse src).2
    rw [Session.parse_result, Session.parse_result, h.nextList]

end Session.Unnoted

/-! ## Links -/

/-- What is to hold between the sessions of two runs, and that it lasts. -/
structure Link (V W : Type) [FileSystem V] [FileSystem W] where
  /-- what holds as long as both runs go on -/
  Rel : Session V → Session W → Prop
  /-- what holds once both have halted -/
  Ends : Halt → Session V → Session W → Prop
  /-- the halts of the first run at which the second need not follow -/
  Lost : Halt → Prop
  /-- the files of the first run after which the second need not follow -/
  Stray : V → Prop
  /-- what lies beneath the stack in the second run -/
  base : List Value
  ends : ∀ {s s' halt}, Rel s s' → halt.isLimit = false → Ends halt s s'
  underflow : base = [] ∨ ∀ cause : Cause, cause.kind = .stackUnderflow → Lost (.fault cause)
  interrupt : ∀ {s s'}, Rel s s' → s'.interrupt = s.interrupt ∨
    ∃ reason, s.interrupt = some reason ∧ Lost (.interrupted reason)
  noteAt : ∀ {s s'}, Rel s s' → ∀ level message,
    Rel (s.noteAt level message) (s'.noteAt level message)
  stack : ∀ {s s'}, Rel s s' → s'.stack = ⟨s.stack.values ++ base⟩
  setStack : ∀ {s s'}, Rel s s' → ∀ values,
    Rel { s with stack := ⟨values⟩ } { s' with stack := ⟨values ++ base⟩ }
  nextList : ∀ {s s'}, Rel s s' → s'.nextList = s.nextList
  setNextList : ∀ {s s'}, Rel s s' → ∀ next,
    Rel { s with nextList := next } { s' with nextList := next }
  bound : ∀ {s s'}, Rel s s' → ∀ {name v}, s.symbols.get name = .ok v →
    s'.symbols.get name = .ok v
  unbound : ∀ {s s'}, Rel s s' → ∀ {name cause}, s.symbols.get name = .error cause →
    Lost (.fault cause) ∨ s'.symbols.get name = .error cause
  bindValue : ∀ {s s'}, Rel s s' → ∀ name v, Rel (s.bindValue name v) (s'.bindValue name v)
  setLine : ∀ {s s'}, Rel s s' → ∀ line, Rel { s with line := line } { s' with line := line }
  writeLine : ∀ {s s'}, Rel s s' → ∀ text,
    (s'.output.writeLine text).2 = (s.output.writeLine text).2 ∧
      Rel { s with output := (s.output.writeLine text).1 }
        { s' with output := (s'.output.writeLine text).1 }
  flush : ∀ {s s'}, Rel s s' → s'.output.flush.2 = s.output.flush.2 ∧
    Rel { s with output := s.output.flush.1 } { s' with output := s'.output.flush.1 }
  read : ∀ {s s'}, Rel s s' → ∀ path,
    (FileSystem.read s'.world path).access = (FileSystem.read s.world path).access ∧
      Rel (s.receive (FileSystem.read s.world path)) (s'.receive (FileSystem.read s'.world path))
  write : ∀ {s s'}, Rel s s' → ∀ path text,
    (FileSystem.write s'.world path text).access = (FileSystem.write s.world path text).access ∧
      Rel (s.receive (FileSystem.write s.world path text))
        (s'.receive (FileSystem.write s'.world path text))
  parse : ∀ {s s'}, Rel s s' → ∀ src,
    (s'.parse src).2 = (s.parse src).2 ∧ Rel (s.parse src).1 (s'.parse src).1
  stray_read : ∀ {w}, Stray w → ∀ path, Stray (FileSystem.read w path).world
  stray_write : ∀ {w}, Stray w → ∀ path text, Stray (FileSystem.write w path text).world

/-- The files that a run ends with. -/
def finalWorld {W α : Type} : EStateM.Result Halt (Session W) α → W
  | .ok _ t => t.world
  | .error _ t => t.world

namespace Link

variable {V W α β : Type} [FileSystem V] [FileSystem W] (ℓ : Link V W)

/-- How the second run may end, given how the first did. -/
inductive Meets :
    EStateM.Result Halt (Session V) α → EStateM.Result Halt (Session W) α → Prop where
  | ok {a : α} {t : Session V} {t' : Session W} (rel : ℓ.Rel t t') : Meets (.ok a t) (.ok a t')
  | error {halt : Halt} {t : Session V} {t' : Session W} (ends : ℓ.Ends halt t t') :
      Meets (.error halt t) (.error halt t')
  | lost {halt : Halt} {t : Session V} {r' : EStateM.Result Halt (Session W) α}
      (lost : ℓ.Lost halt) : Meets (.error halt t) r'
  | stray {r : EStateM.Result Halt (Session V) α} {r' : EStateM.Result Halt (Session W) α}
      (stray : ℓ.Stray (finalWorld r)) : Meets r r'

/-- The second action follows the first wherever the link holds. -/
structure Sim (x : Action V α) (y : Action W α) : Prop where
  meets : ∀ {s s'}, ℓ.Rel s s' → ℓ.Meets (x s) (y s')
  strays : ∀ {s}, ℓ.Stray s.world → ℓ.Stray (finalWorld (x s))

variable {ℓ}

/-! ## Composition -/

theorem sim_pure (a : α) : ℓ.Sim (pure a) (pure a) :=
  ⟨fun h => .ok h, fun h => h⟩

theorem stray_bind {x : Action V α} {f : α → Action V β} {g : α → Action W β} {s : Session V}
    (h : ℓ.Stray (finalWorld (x s))) (hf : ∀ a, ℓ.Sim (f a) (g a)) :
    ℓ.Stray (finalWorld ((x >>= f) s)) := by
  cases hxs : x s with
  | ok a t =>
    rw [hxs] at h
    rw [Action.bind_of_ok hxs]
    exact (hf a).strays h
  | error halt t =>
    rw [hxs] at h
    rw [Action.bind_of_error hxs]
    exact h

/-- The first action either ends and the second goes on, or halts and so does the whole. -/
theorem Meets.bind {x : Action V α} {y : Action W α} {f : α → Action V β} {g : α → Action W β}
    {s : Session V} {s' : Session W} (h : ℓ.Meets (x s) (y s')) (hf : ∀ a, ℓ.Sim (f a) (g a)) :
    ℓ.Meets ((x >>= f) s) ((y >>= g) s') := by
  generalize hr : x s = r at h
  generalize hr' : y s' = r' at h
  cases h with
  | ok rel =>
    rw [Action.bind_of_ok hr, Action.bind_of_ok hr']
    exact (hf _).meets rel
  | error ends =>
    rw [Action.bind_of_error hr, Action.bind_of_error hr']
    exact .error ends
  | lost lost =>
    rw [Action.bind_of_error hr]
    exact .lost lost
  | stray stray =>
    rw [← hr] at stray
    exact .stray (stray_bind stray hf)

theorem Sim.bind {x : Action V α} {y : Action W α} {f : α → Action V β} {g : α → Action W β}
    (hx : ℓ.Sim x y) (hf : ∀ a, ℓ.Sim (f a) (g a)) : ℓ.Sim (x >>= f) (y >>= g) :=
  ⟨fun h => (hx.meets h).bind hf, fun h => stray_bind (hx.strays h) hf⟩

theorem sim_throw {halt : Halt} (h : halt.isLimit = false) :
    ℓ.Sim (throw halt : Action V α) (throw halt) :=
  ⟨fun hrel => .error (ℓ.ends hrel h), fun hstray => hstray⟩

theorem sim_fail {cause : Cause} (h : (Halt.fault cause).isLimit = false) :
    ℓ.Sim (Action.fail cause : Action V α) (Action.fail cause) :=
  sim_throw h

theorem sim_modify_of_stray {f : Session V → Session V} {g : Session W → Session W}
    (hrel : ∀ {s s'}, ℓ.Rel s s' → ℓ.Rel (f s) (g s'))
    (hstray : ∀ {s : Session V}, ℓ.Stray s.world → ℓ.Stray (f s).world) :
    ℓ.Sim (modify f) (modify g) :=
  ⟨fun h => .ok (hrel h), fun h => hstray h⟩

theorem sim_modify {f : Session V → Session V} {g : Session W → Session W}
    (hrel : ∀ {s s'}, ℓ.Rel s s' → ℓ.Rel (f s) (g s')) (hworld : ∀ s, (f s).world = s.world) :
    ℓ.Sim (modify f) (modify g) := by
  refine sim_modify_of_stray hrel ?_
  intro s hstray
  rw [hworld]
  exact hstray

/-- An action of the first run that does nothing to the second can come after. -/
theorem Sim.bind_left {x z : Action V Unit} {y : Action W Unit} (hx : ℓ.Sim x y)
    (hz : ℓ.Sim z (pure ())) : ℓ.Sim (x >>= fun _ => z) y := by
  have hboth := hx.bind fun _ => hz
  rw [bind_pure_unit] at hboth
  exact hboth

/-- One link may hold inside what another holds around: `enter` leads from the outer
to the inner one and `leave` back. -/
theorem Sim.nest {outer inner : Link V W} {x : Action V Unit} {y : Action W Unit}
    (hx : inner.Sim x y) (enter leave : Session V → Session V)
    (enter' leave' : Session W → Session W)
    (hends : ∀ {halt t t'}, inner.Ends halt t t' → outer.Ends halt t t')
    (hlost : ∀ {halt}, inner.Lost halt → outer.Lost halt)
    (hstray : ∀ {w}, inner.Stray w ↔ outer.Stray w)
    (henter : ∀ {s s'}, outer.Rel s s' →
      inner.Rel (enter s) (enter' s') ∨ outer.Stray (enter s).world)
    (hleave : ∀ {t t'}, inner.Rel t t' → outer.Rel (leave t) (leave' t'))
    (hstrayEnter : ∀ {s : Session V}, outer.Stray s.world → outer.Stray (enter s).world)
    (hstrayLeave : ∀ {s : Session V}, outer.Stray s.world → outer.Stray (leave s).world) :
    outer.Sim (do modify enter; x; modify leave) (do modify enter'; y; modify leave') := by
  have hinside : ∀ {s}, outer.Stray (finalWorld (x s)) →
      outer.Stray (finalWorld ((x >>= fun _ => modify leave) s)) := by
    intro s hfinal
    cases hxs : x s with
    | ok a t =>
      rw [hxs] at hfinal
      rw [Action.bind_of_ok hxs]
      exact hstrayLeave hfinal
    | error halt t =>
      rw [hxs] at hfinal
      rw [Action.bind_of_error hxs]
      exact hfinal
  refine ⟨?_, fun h => hinside (hstray.1 (hx.strays (hstray.2 (hstrayEnter h))))⟩
  intro s s' h
  change outer.Meets ((x >>= fun _ => modify leave) (enter s))
    ((y >>= fun _ => modify leave') (enter' s'))
  rcases henter h with hrel | hoff
  · have hmeets := hx.meets hrel
    generalize hr : x (enter s) = r at hmeets
    generalize hr' : y (enter' s') = r' at hmeets
    cases hmeets with
    | ok rel =>
      rw [Action.bind_of_ok hr, Action.bind_of_ok hr']
      exact .ok (hleave rel)
    | error ends =>
      rw [Action.bind_of_error hr, Action.bind_of_error hr']
      exact .error (hends ends)
    | lost lost =>
      rw [Action.bind_of_error hr]
      exact .lost (hlost lost)
    | stray stray =>
      rw [← hr] at stray
      exact .stray (hinside (hstray.1 stray))
  · exact .stray (hinside (hstray.1 (hx.strays (hstray.2 hoff))))

/-! ## What touches a session -/

theorem sim_note (level : Level) (message : Unit → Bytes) :
    ℓ.Sim (Action.note level message) (Action.note level message) := by
  refine sim_modify (fun h => ℓ.noteAt h level message) ?_
  intro s
  obtain ⟨journal, hnote⟩ := s.exists_noteAt level message
  rw [hnote]

theorem sim_checkpoint : ℓ.Sim (Action.checkpoint : Action V Unit) Action.checkpoint := by
  refine ⟨?_, ?_⟩
  · intro s s' h
    rcases ℓ.interrupt h with hsame | ⟨reason, hinterrupt, hlost⟩
    · cases hinterrupt : s.interrupt with
      | none =>
        rw [hinterrupt] at hsame
        rw [Action.checkpoint_of_none hinterrupt, Action.checkpoint_of_none hsame]
        exact .ok h
      | some reason =>
        rw [hinterrupt] at hsame
        rw [Action.checkpoint_of_some hinterrupt, Action.checkpoint_of_some hsame]
        exact .error (ℓ.ends h rfl)
    · rw [Action.checkpoint_of_some hinterrupt]
      exact .lost hlost
  · intro s hstray
    cases hinterrupt : s.interrupt with
    | none =>
      rw [Action.checkpoint_of_none hinterrupt]
      exact hstray
    | some reason =>
      rw [Action.checkpoint_of_some hinterrupt]
      exact hstray

theorem sim_setTop {s : Session V} {s' : Session W} (h : ℓ.Rel s s') (v : Value) :
    ℓ.Rel { s with stack := s.stack.push v } { s' with stack := s'.stack.push v } := by
  rw [ℓ.stack h]
  exact ℓ.setStack h (v :: s.stack.values)

theorem sim_push (v : Value) : ℓ.Sim (Action.push v) (Action.push v) := by
  refine (sim_note _ _).bind fun _ => ?_
  exact sim_modify (fun h => sim_setTop h v) fun _ => rfl

theorem sim_pushBool (b : Bool) : ℓ.Sim (Action.pushBool b) (Action.pushBool b) :=
  sim_modify (fun h => sim_setTop h (.ofBool b)) fun _ => rfl

theorem sim_take {from_ : Stack → Except Cause (α × Stack)} (hfrom : Stack.Framed from_)
    (shown : α → Bytes) : ℓ.Sim (Action.take from_ shown) (Action.take from_ shown) := by
  refine ⟨?_, ?_⟩
  · intro s s' h
    have hstack := ℓ.stack h
    cases htop : from_ s.stack with
    | ok result =>
      obtain ⟨a, rest⟩ := result
      have htop' : from_ s'.stack = .ok (a, ⟨rest.values ++ ℓ.base⟩) := by
        rw [hstack]
        exact hfrom.ok htop ℓ.base
      rw [Action.take_of_ok htop, Action.take_of_ok htop']
      exact .ok (ℓ.noteAt (ℓ.setStack h rest.values) _ _)
    | error cause =>
      have hends := ℓ.ends h (hfrom.not_limit htop)
      rw [Action.take_of_error htop]
      rcases ℓ.underflow with hbase | hlost
      · rw [hbase, List.append_nil] at hstack
        have htop' : from_ s'.stack = .error cause := by
          rw [hstack]
          exact htop
        rw [Action.take_of_error htop']
        exact .error hends
      · rcases hfrom.error htop ℓ.base with hkind | hbeneath
        · exact .lost (hlost cause hkind)
        · rw [← hstack] at hbeneath
          rw [Action.take_of_error hbeneath]
          exact .error hends
  · intro s hstray
    cases htop : from_ s.stack with
    | ok result =>
      obtain ⟨a, rest⟩ := result
      obtain ⟨journal, hnote⟩ := ({ s with stack := rest } : Session V).exists_noteAt .debug
        fun _ => ascii "pop " ++ shown a
      rw [Action.take_of_ok htop, hnote]
      exact hstray
    | error cause =>
      rw [Action.take_of_error htop]
      exact hstray

theorem sim_top : ℓ.Sim (Action.top : Action V Value) Action.top := by
  refine ⟨?_, ?_⟩
  · intro s s' h
    change ℓ.Meets (Action.orFail s.stack.top s) (Action.orFail s'.stack.top s')
    rw [ℓ.stack h]
    unfold Stack.top
    cases s.stack.values with
    | cons v rest => exact .ok h
    | nil =>
      rcases ℓ.underflow with hbase | hlost
      · rw [hbase]
        exact .error (ℓ.ends h rfl)
      · exact .lost (hlost _ rfl)
  · intro s hstray
    change ℓ.Stray (finalWorld (Action.orFail s.stack.top s))
    cases s.stack.top with
    | ok v => exact hstray
    | error cause => exact hstray

theorem sim_pushList (items : List Value) :
    ℓ.Sim (Action.pushList items) (Action.pushList items) := by
  refine ⟨?_, fun hstray => (sim_push _).strays hstray⟩
  intro s s' h
  have hrel := ℓ.setNextList h (s.nextList + 1)
  have hpush : Action.pushList items s' = Action.push (.list (.made s.nextList) items)
      { s' with nextList := s.nextList + 1 } := by
    rw [← ℓ.nextList h]
    rfl
  rw [hpush]
  exact (sim_push (.list (.made s.nextList) items)).meets hrel

theorem sim_valueOf (name : Bytes) :
    ℓ.Sim (Action.valueOf name : Action V Value) (Action.valueOf name) := by
  refine ⟨?_, ?_⟩
  · intro s s' h
    change ℓ.Meets (Action.orFail (s.symbols.get name) s) (Action.orFail (s'.symbols.get name) s')
    cases hget : s.symbols.get name with
    | ok v =>
      rw [ℓ.bound h hget]
      exact .ok h
    | error cause =>
      rcases ℓ.unbound h hget with hlost | hget'
      · exact .lost hlost
      · have hlimit : (Halt.fault cause).isLimit = false := by
          unfold Symbols.get at hget
          split at hget
          · cases hget
          · cases hget
            rfl
        rw [hget']
        exact .error (ℓ.ends h hlimit)
  · intro s hstray
    change ℓ.Stray (finalWorld (Action.orFail (s.symbols.get name) s))
    cases s.symbols.get name with
    | ok v => exact hstray
    | error cause => exact hstray

theorem sim_bindName (name : Bytes) (v : Value) :
    ℓ.Sim (Action.bindName name v) (Action.bindName name v) :=
  sim_modify (fun h => ℓ.bindValue h name v) fun _ => rfl

theorem sim_setLine (line : Int) : ℓ.Sim (Action.setLine line) (Action.setLine line) :=
  sim_modify (fun h => ℓ.setLine h line) fun _ => rfl

theorem sim_print (text : Bytes) : ℓ.Sim (Action.print text) (Action.print text) := by
  refine ⟨?_, ?_⟩
  · intro s s' h
    obtain ⟨hsame, hrel⟩ := ℓ.writeLine h text
    rcases hwrite : s.output.writeLine text with ⟨output, error⟩
    rcases hwrite' : s'.output.writeLine text with ⟨output', error'⟩
    rw [hwrite, hwrite'] at hsame hrel
    obtain rfl : error' = error := hsame
    cases error' with
    | none =>
      rw [Action.print_of_none hwrite, Action.print_of_none hwrite']
      exact .ok hrel
    | some error =>
      rw [Action.print_of_some hwrite, Action.print_of_some hwrite']
      exact .error (ℓ.ends hrel rfl)
  · intro s hstray
    rcases hwrite : s.output.writeLine text with ⟨output, error⟩
    cases error with
    | none =>
      rw [Action.print_of_none hwrite]
      exact hstray
    | some error =>
      rw [Action.print_of_some hwrite]
      exact hstray

theorem sim_flush : ℓ.Sim (Action.flush : Action V Unit) Action.flush := by
  have hlimit : ∀ error, (Action.flushHalt error).isLimit = false := by
    intro error
    cases error with
    | failed error => rfl
    | crashed message => rfl
  refine ⟨?_, ?_⟩
  · intro s s' h
    obtain ⟨hsame, hrel⟩ := ℓ.flush h
    rcases hflush : s.output.flush with ⟨output, error⟩
    rcases hflush' : s'.output.flush with ⟨output', error'⟩
    rw [hflush, hflush'] at hsame hrel
    obtain rfl : error' = error := hsame
    cases error' with
    | none =>
      rw [Action.flush_of_none hflush, Action.flush_of_none hflush']
      exact .ok hrel
    | some error =>
      rw [Action.flush_of_some hflush, Action.flush_of_some hflush']
      exact .error (ℓ.ends hrel (hlimit error))
  · intro s hstray
    rcases hflush : s.output.flush with ⟨output, error⟩
    cases error with
    | none =>
      rw [Action.flush_of_none hflush]
      exact hstray
    | some error =>
      rw [Action.flush_of_some hflush]
      exact hstray

/-- An access that both runs make alike. -/
theorem meets_access {s : Session V} {s' : Session W} {reply : Reply V α} {reply' : Reply W α}
    {failure : Bytes → Cause} (hlimit : ∀ text, (Halt.fault (failure text)).isLimit = false)
    (haccess : reply'.access = reply.access)
    (hrel : ℓ.Rel (s.receive reply) (s'.receive reply')) :
    ℓ.Meets (Action.access reply failure s) (Action.access reply' failure s') := by
  cases hresult : reply.access with
  | ok a =>
    rw [hresult] at haccess
    rw [Action.access_of_ok hresult, Action.access_of_ok haccess]
    exact .ok hrel
  | failed error =>
    rw [hresult] at haccess
    rw [Action.access_of_failed hresult, Action.access_of_failed haccess]
    exact .error (ℓ.ends hrel (hlimit _))
  | crashed message =>
    rw [hresult] at haccess
    rw [Action.access_of_crashed hresult, Action.access_of_crashed haccess]
    exact .error (ℓ.ends hrel rfl)

omit [FileSystem V] in
theorem finalWorld_access (reply : Reply V α) (failure : Bytes → Cause) (s : Session V) :
    finalWorld (Action.access reply failure s) = reply.world := by
  have hworld := s.receive_world reply
  cases hresult : reply.access with
  | ok a => rw [Action.access_of_ok hresult, finalWorld, hworld]
  | failed error => rw [Action.access_of_failed hresult, finalWorld, hworld]
  | crashed message => rw [Action.access_of_crashed hresult, finalWorld, hworld]

theorem sim_loadText (path : Bytes) :
    ℓ.Sim (Action.loadText path : Action V Bytes) (Action.loadText path) := by
  refine ⟨?_, ?_⟩
  · intro s s' h
    obtain ⟨haccess, hrel⟩ := ℓ.read h path
    exact meets_access (fun _ => rfl) haccess hrel
  · intro s hstray
    change ℓ.Stray (finalWorld (Action.access (FileSystem.read s.world path) _ s))
    rw [finalWorld_access]
    exact ℓ.stray_read hstray path

theorem sim_saveText (path text : Bytes) :
    ℓ.Sim (Action.saveText path text : Action V Unit) (Action.saveText path text) := by
  refine ⟨?_, ?_⟩
  · intro s s' h
    obtain ⟨haccess, hrel⟩ := ℓ.write h path text
    exact meets_access (fun _ => rfl) haccess hrel
  · intro s hstray
    change ℓ.Stray (finalWorld (Action.access (FileSystem.write s.world path text) _ s))
    rw [finalWorld_access]
    exact ℓ.stray_write hstray path text

theorem sim_readSource (src : Bytes) :
    ℓ.Sim (Action.readSource src : Action V _) (Action.readSource src) := by
  refine ⟨?_, ?_⟩
  · intro s s' h
    obtain ⟨hresult, hrel⟩ := ℓ.parse h src
    change ℓ.Meets (.ok (s.parse src).2 (s.parse src).1) (.ok (s'.parse src).2 (s'.parse src).1)
    rw [hresult]
    exact .ok hrel
  · intro s hstray
    obtain ⟨journal, hparse⟩ := s.exists_parse src
    change ℓ.Stray (s.parse src).1.world
    rw [hparse]
    exact hstray

end Link

end StackScript
