import StackScript.Proofs.Congruence
set_option autoImplicit false

/-!
# Simulation of instructions

Following under a link is a congruence, so everything that is composed of actions that
keep a link keeps it too, up to a whole instruction, the evaluation of one element and a
walk over a list, provided that running a list does.  How a list is run is left open
here as it is in the instructions, so one proof serves runs whose lists are run
differently.
-/

namespace StackScript

namespace Link

variable {V W : Type} [FileSystem V] [FileSystem W] {ℓ : Link V W}
variable {run : Action.Runner V} {run' : Action.Runner W}

/-! ## Links are congruences -/

/-- A count that a stack can serve is the same for a larger one. -/
theorem ceilCount?_of_le {size size' count : Nat} {n : Double}
    (h : n.ceilCount? size = some count) (hle : size ≤ size') :
    n.ceilCount? size' = some count := by
  cases n with
  | nan => exact h
  | infinite neg =>
    cases neg with
    | true => exact h
    | false => cases h
  | finite neg mag =>
    cases neg with
    | true => exact h
    | false =>
      simp only [Double.ceilCount?] at h ⊢
      split at h
      · rename_i hceil
        rw [if_pos (Nat.le_trans hceil hle)]
        exact h
      · cases h

/-- The one action that looks at the size of the stack. -/
theorem sim_countFor (n : Double) :
    ℓ.Sim (Action.countFor n : Action V Nat) (Action.countFor n) := by
  unfold Action.countFor
  refine ⟨?_, ?_⟩
  · intro s s' h
    rw [Action.get_bind, Action.get_bind]
    have hsize : s'.stack.size = s.stack.size + ℓ.base.length := by
      rw [ℓ.stack h, Stack.size, List.length_append]
      rfl
    cases hcount : n.ceilCount? s.stack.size with
    | some count =>
      rw [ceilCount?_of_le hcount (by omega)]
      exact .ok h
    | none =>
      rcases ℓ.underflow with hbase | hlost
      · rw [hbase, List.length_nil, Nat.add_zero] at hsize
        rw [hsize, hcount]
        exact .error (ℓ.ends h rfl)
      · exact .lost (hlost _ rfl)
  · intro s hstray
    rw [Action.get_bind]
    cases n.ceilCount? s.stack.size with
    | some count => exact hstray
    | none => exact hstray

/-- To follow under a link is a congruence. -/
theorem congruence (ℓ : Link V W) : Congruence (fun {_} x y => ℓ.Sim x y) where
  pure := sim_pure
  bind hx hf := hx.bind hf
  fail h := sim_fail h
  exit := sim_throw rfl
  checkpoint := sim_checkpoint
  note := sim_note
  push := sim_push
  pushBool := sim_pushBool
  take h := sim_take h
  top := sim_top
  countFor := sim_countFor
  pushList := sim_pushList
  valueOf := sim_valueOf
  bindName := sim_bindName
  setLine := sim_setLine
  loadText := sim_loadText
  saveText := sim_saveText
  readSource := sim_readSource

/-! ## Whole instructions -/

/-- Every instruction keeps a link that running lists keeps. -/
theorem sim_perform (hrun : ∀ prog, ℓ.Sim (run prog) (run' prog)) (rounds : Nat)
    (i : Instruction) : ℓ.Sim (i.perform run rounds) (i.perform run' rounds) := by
  have hloop := fun body =>
    ℓ.congruence.repeatBody (sim_throw rfl) hrun body rounds
  have hsim := ℓ.congruence.performWith sim_print hrun hloop i
  rw [Instruction.performWith_print, Instruction.performWith_print] at hsim
  exact hsim

theorem sim_step (hrun : ∀ prog, ℓ.Sim (run prog) (run' prog)) (rounds : Nat) (v : Value) :
    ℓ.Sim (step run rounds v) (step run' rounds v) := by
  rw [← stepWith_perform, ← stepWith_perform]
  exact ℓ.congruence.stepWith (sim_perform hrun rounds) v

/-- A walk over a list keeps a link that each of its steps keeps. -/
theorem sim_walk {act : Value → Action V Unit} {act' : Value → Action W Unit}
    (hact : ∀ v, ℓ.Sim (act v) (act' v)) (prog : List Value) :
    ℓ.Sim (walk act prog) (walk act' prog) :=
  ℓ.congruence.walk hact prog

/-! ## Whole runs -/

/-- Links between runs that count the lists being run alike, under one limit. -/
structure SameDepth (ℓ : Link V W) : Prop where
  depth : ∀ {s s'}, ℓ.Rel s s' → s'.depth = s.depth
  setDepth : ∀ {s s'}, ℓ.Rel s s' → ∀ depth,
    ℓ.Rel { s with depth := depth } { s' with depth := depth }
  limit : ∀ {s s'}, ℓ.Rel s s' → s'.limit = s.limit
  ends : ∀ {s s' depth}, ℓ.Rel s s' → ℓ.Ends (.fault (.tooDeep depth)) s s'

theorem SameDepth.sim_descend (hℓ : ℓ.SameDepth) :
    ℓ.Sim (Action.descend : Action V Unit) Action.descend := by
  refine sim_modify ?_ fun _ => rfl
  intro s s' h
  rw [hℓ.depth h]
  exact hℓ.setDepth h (s.depth + 1)

theorem SameDepth.sim_ascend (hℓ : ℓ.SameDepth) :
    ℓ.Sim (Action.ascend : Action V Unit) Action.ascend := by
  refine sim_modify ?_ fun _ => rfl
  intro s s' h
  rw [hℓ.depth h]
  exact hℓ.setDepth h (s.depth - 1)

theorem SameDepth.sim_tooDeep (hℓ : ℓ.SameDepth) :
    ℓ.Sim (do Action.fail (.tooDeep (← get).depth) : Action V Unit)
      (do Action.fail (.tooDeep (← get).depth)) := by
  refine ⟨?_, fun hstray => hstray⟩
  intro s s' h
  change ℓ.Meets (.error (.fault (.tooDeep s.depth)) s) (.error (.fault (.tooDeep s'.depth)) s')
  rw [hℓ.depth h]
  exact .error (hℓ.ends h)

/-- Running a list keeps such a link, however many levels are left, if printing does. -/
theorem SameDepth.sim_execWith (hℓ : ℓ.SameDepth) {emit : Bytes → Action V Unit}
    {emit' : Bytes → Action W Unit} (hemit : ∀ text, ℓ.Sim (emit text) (emit' text))
    (rounds levels : Nat) :
    ∀ prog, ℓ.Sim (execWith emit rounds levels prog) (execWith emit' rounds levels prog) :=
  ℓ.congruence.execWith hemit hℓ.sim_descend hℓ.sim_ascend hℓ.sim_tooDeep (sim_throw rfl) rounds
    levels

theorem SameDepth.sim_exec (hℓ : ℓ.SameDepth) (rounds levels : Nat) (prog : List Value) :
    ℓ.Sim (exec rounds levels prog : Action V Unit) (exec rounds levels prog) := by
  rw [← execWith_print, ← execWith_print]
  exact hℓ.sim_execWith sim_print rounds levels prog

theorem SameDepth.meets_runAction (hℓ : ℓ.SameDepth) (rounds : Nat) (prog : List Value)
    {s : Session V} {s' : Session W} (h : ℓ.Rel s s') :
    ℓ.Meets (Session.runAction rounds prog s) (Session.runAction rounds prog s') := by
  have hrest : ℓ.Rel s.atRest s'.atRest := hℓ.setDepth h 0
  have hsim := (hℓ.sim_exec rounds s.limit prog).bind fun _ => sim_flush
  change ℓ.Meets ((exec rounds s.limit prog >>= fun _ => Action.flush) s.atRest)
    ((exec rounds s'.limit prog >>= fun _ => Action.flush) s'.atRest)
  rw [hℓ.limit h]
  exact hsim.meets hrest

end Link

end StackScript
