import StackScript.Proofs.Surroundings
set_option autoImplicit false

/-!
# Only loops go on forever

A run is carried out here by a machine that takes one step at a time.  Its configurations
hold, beside a session, a frame for everything that has begun and is not over: a list that
is being run with the elements left of it, or a body that is run for each item with the
items left.  A step advances the frame on top, counting lists against the limit of the
session.  Where a loop would begin, the machine halts instead.

From every configuration the machine comes to a stand.  It carries out what `exec` does,
so a run in which no loop begins ends the same way for any number of rounds.
-/

namespace StackScript

open StackScript.Action (Keeps)

/-! ## The machine -/

/-- What is left to do of something that has begun. -/
inductive Frame where
  /-- the elements left of a list that is being run -/
  | walk (rest : List Value)
  /-- the items left for which a body is to be run -/
  | forEach (body rest : List Value)
  /-- likewise, with the values that the body has left so far, latest first -/
  | collect (body results rest : List Value)
  /-- the body has been run for an item, and the value it left is to be taken -/
  | resume (body results rest : List Value)
  /-- the value on top of the stack is to be evaluated -/
  | evaluate

/-- A moment of a run. -/
inductive Config (W : Type) where
  /-- the frames, innermost first; without any the program is over -/
  | running (frames : List Frame) (s : Session W)
  | halted (halt : Halt) (s : Session W)

section Machine

variable {W : Type}

namespace Frame

/-- Begins to run a list, unless as many are being run as may be. -/
def enter (prog : List Value) : Action W (List Frame) := do
  let s ← get
  if s.limit ≤ s.depth then Action.fail (.tooDeep s.depth)
  else do
    Action.descend
    pure [.walk prog]

/-- Begins to evaluate the value on top of the stack. -/
def evaluateTop : Action W (List Frame) := do
  let v ← Action.pop
  Action.note .debug fun _ => v.format ++ ascii " $"
  match v with
  | .number _ => do
    Action.push v
    pure []
  | .list _ items => enter items
  | .text name => do
    Action.push (← Action.valueOf name)
    pure []
  | .absent => pure []

end Frame

variable [FileSystem W]

/-- Begins an instruction: what it does before it runs a list, and the frames for the
rest.  A loop is not begun. -/
def Instruction.begin : Instruction → Action W (List Frame)
  | .eval => Frame.evaluateTop
  | .evalTwice => do
    let frames ← Frame.evaluateTop
    pure (frames ++ [.evaluate])
  | .cond => do
    let x ← Action.popNumber
    let body ← Action.popList
    if x.isZero then pure [] else Frame.enter body.items
  | .condElse => do
    let x ← Action.popNumber
    let yes ← Action.popList
    let no ← Action.popList
    Frame.enter (if x.isZero then no.items else yes.items)
  | .each => do
    let body ← Action.popList
    let list ← Action.popList
    pure [.forEach body.items list.items]
  | .reduce => do
    let body ← Action.popList
    let list ← Action.popList
    Action.note .debug fun _ => ascii "reduce " ++ list.format ++ ascii " " ++ body.format
    pure [.forEach body.items list.items]
  | .map => do
    let body ← Action.popList
    let list ← Action.popList
    Action.note .debug fun _ =>
      ascii "map [" ++ Value.formatItems list.items ++ ascii "] " ++ body.format
    pure [.collect body.items [] list.items]
  | .loop => do
    let _ ← Action.popList
    throw .exhausted
  | i => do
    i.perform (fun _ => pure ()) 0
    pure []

namespace Frame

/-- Begins the evaluation of an element. -/
def begin (v : Value) : Action W (List Frame) :=
  match v.instruction? with
  | some i => do
    Action.note .trace fun _ => ascii "op " ++ i.name
    i.begin
  | none => do
    step (fun _ => pure ()) 0 v
    pure []

/-- One step of the frame on top, and the frames that stand in its place. -/
def advance : Frame → Action W (List Frame)
  | .walk [] => do
    Action.ascend
    pure []
  | .walk (v :: rest) => do
    Action.checkpoint
    let frames ← begin v
    pure (frames ++ [.walk rest])
  | .forEach _ [] => pure []
  | .forEach body (item :: rest) => do
    Action.push item
    let frames ← enter body
    pure (frames ++ [.forEach body rest])
  | .collect _ results [] => do
    Action.pushList results.reverse
    pure []
  | .collect body results (item :: rest) => do
    Action.push item
    let frames ← enter body
    pure (frames ++ [.resume body results rest])
  | .resume body results rest => do
    let result ← Action.pop
    pure [.collect body (result :: results) rest]
  | .evaluate => evaluateTop

end Frame

namespace Config

/-- The configuration after an action that gives the frames to go on with. -/
def ofResult (below : List Frame) : EStateM.Result Halt (Session W) (List Frame) → Config W
  | .ok frames s => .running (frames ++ below) s
  | .error halt s => .halted halt s

/-- The next configuration, if there is one. -/
def next : Config W → Option (Config W)
  | .running (frame :: below) s => some (ofResult below (frame.advance s))
  | .running [] _ => none
  | .halted _ _ => none

/-- The configuration after some steps, or the one where the machine stands before. -/
def after : Nat → Config W → Config W
  | 0, c => c
  | n + 1, c =>
    match c.next with
    | some c' => after n c'
    | none => c

/-- The configuration in which the run of a program begins. -/
def start (s : Session W) (prog : List Value) : Config W :=
  ofResult [] (Frame.enter prog s.atRest)

/-- The next element to be evaluated begins a loop. -/
def AtLoop (c : Config W) : Prop :=
  ∃ v rest below s, c = .running (.walk (v :: rest) :: below) s ∧ v.instruction? = some .loop

/-- What a run comes to that stands in a configuration. -/
def settled : Config W → Session W × Outcome
  | .running _ s =>
    match Action.flush s with
    | .ok _ t => (t, .done)
    | .error halt t => t.settle halt
  | .halted halt s => s.settle halt

end Config

end Machine

/-! ## Reaching a configuration -/

section Reaches

variable {W : Type} [FileSystem W]

/-- The machine gets from one configuration to another. -/
def Config.Reaches (c c' : Config W) : Prop := ∃ n, c.after n = c'

namespace Config

theorem Reaches.refl (c : Config W) : c.Reaches c := ⟨0, rfl⟩

theorem after_add (m n : Nat) (c : Config W) : c.after (m + n) = (c.after m).after n := by
  induction m generalizing c with
  | zero => rw [Nat.zero_add]; rfl
  | succ m ih =>
    rw [Nat.succ_add]
    cases hnext : c.next with
    | some c' =>
      simp only [after, hnext]
      exact ih c'
    | none =>
      -- where the machine stands it stays
      have hstands : ∀ k, c.after k = c := by
        intro k
        cases k with
        | zero => rfl
        | succ k => simp only [after, hnext]
      rw [hstands, hstands, hstands]

theorem Reaches.trans {a b c : Config W} (hab : a.Reaches b) (hbc : b.Reaches c) :
    a.Reaches c := by
  obtain ⟨m, rfl⟩ := hab
  obtain ⟨n, rfl⟩ := hbc
  exact ⟨m + n, after_add m n a⟩

theorem reaches_of_next {a b c : Config W} (hnext : a.next = some b) (hbc : b.Reaches c) :
    a.Reaches c := by
  obtain ⟨n, rfl⟩ := hbc
  exact ⟨n + 1, by simp only [after, hnext]⟩

end Config

omit [FileSystem W] in
/-- Frames put beneath those that an action gives are frames below it. -/
theorem Config.ofResult_append (x : Action W (List Frame)) (frames below : List Frame)
    (s : Session W) : ofResult below ((do let first ← x; pure (first ++ frames)) s) =
      ofResult (frames ++ below) (x s) := by
  cases hx : x s with
  | ok first t =>
    rw [Action.bind_of_ok hx]
    change running (first ++ frames ++ below) t = running (first ++ (frames ++ below)) t
    rw [List.append_assoc]
  | error halt t =>
    rw [Action.bind_of_error hx]
    rfl

/-- The machine carries `y` out when it begins by `x` with `levels` levels left: it gets to
what lies below, or to the halt, with the session that `y` leaves. -/
def CarriesOut (levels : Nat) (x : Action W (List Frame)) (y : Action W Unit) : Prop :=
  ∀ (below : List Frame) (s : Session W), s.limit - s.depth = levels →
    match y s with
    | .ok _ t => (Config.ofResult below (x s)).Reaches (.running below t) ∧
        t.limit = s.limit ∧ t.depth = s.depth
    | .error halt t => (Config.ofResult below (x s)).Reaches (.halted halt t)

/-- An action that leaves the count of lists and its limit alone. -/
def LevelKept {α : Type} (x : Action W α) : Prop :=
  ∀ (s t : Session W) (a : α), x s = .ok a t → t.limit = s.limit ∧ t.depth = s.depth

omit [FileSystem W] in
theorem levelKept_of_quiet {α : Type} {x : Action W α} (hx : Action.Quiet x) : LevelKept x := by
  intro s t a h
  have hsame := hx.ok h
  exact ⟨congrArg Surroundings.limit hsame, congrArg Surroundings.depth hsame⟩

namespace CarriesOut

variable {levels : Nat}

/-- What both do first. -/
theorem bind {α : Type} {a : Action W α} {x : α → Action W (List Frame)} {y : α → Action W Unit}
    (ha : LevelKept a) (h : ∀ r, CarriesOut levels (x r) (y r)) :
    CarriesOut levels (a >>= x) (a >>= y) := by
  intro below s hlevels
  cases has : a s with
  | ok r t =>
    obtain ⟨hlimit, hdepth⟩ := ha s t r has
    have hrest := h r below t (by rw [hlimit, hdepth]; exact hlevels)
    rw [Action.bind_of_ok has, Action.bind_of_ok has]
    cases hy : y r t with
    | ok _ u =>
      rw [hy] at hrest
      exact ⟨hrest.1, hrest.2.1.trans hlimit, hrest.2.2.trans hdepth⟩
    | error halt u =>
      rw [hy] at hrest
      exact hrest
  | error halt t =>
    rw [Action.bind_of_error has, Action.bind_of_error has]
    exact .refl _

theorem nothing : CarriesOut levels (pure [] : Action W (List Frame)) (pure ()) := by
  intro below s _
  exact ⟨.refl _, rfl, rfl⟩

/-- What runs no list is done in one step. -/
theorem atOnce {y : Action W Unit} (hy : LevelKept y) :
    CarriesOut levels (do y; pure []) y := by
  have hboth := bind hy fun _ => (nothing : CarriesOut levels (pure [] : Action W _) (pure ()))
  rwa [bind_pure_unit] at hboth

/-- One thing after another. -/
theorem seq {x : Action W (List Frame)} {y z : Action W Unit} {frames : List Frame}
    (hx : CarriesOut levels x y) (hz : CarriesOut levels (pure frames) z) :
    CarriesOut levels (do let first ← x; pure (first ++ frames)) (do y; z) := by
  intro below s hlevels
  rw [Config.ofResult_append]
  have hfirst := hx (frames ++ below) s hlevels
  cases hy : y s with
  | ok _ t =>
    rw [hy] at hfirst
    obtain ⟨hreach, hlimit, hdepth⟩ := hfirst
    have hrest := hz below t (by rw [hlimit, hdepth]; exact hlevels)
    rw [Action.bind_of_ok hy]
    cases hzt : z t with
    | ok _ u =>
      rw [hzt] at hrest
      exact ⟨hreach.trans hrest.1, hrest.2.1.trans hlimit, hrest.2.2.trans hdepth⟩
    | error halt u =>
      rw [hzt] at hrest
      exact hreach.trans hrest
  | error halt t =>
    rw [hy] at hfirst
    rw [Action.bind_of_error hy]
    exact hfirst

/-- A frame carries out what its advance does. -/
theorem of_advance {frame : Frame} {y : Action W Unit}
    (h : CarriesOut levels frame.advance y) : CarriesOut levels (pure [frame]) y := by
  intro below s hlevels
  have hnext : (Config.running (frame :: below) s).next =
      some (Config.ofResult below (frame.advance s)) := rfl
  have hrest := h below s hlevels
  cases hy : y s with
  | ok _ t =>
    rw [hy] at hrest
    exact ⟨Config.reaches_of_next hnext hrest.1, hrest.2⟩
  | error halt t =>
    rw [hy] at hrest
    exact Config.reaches_of_next hnext hrest

/-! ## What runs lists -/

section Lists

variable {run : Action.Runner W}

theorem runOver (hrun : ∀ prog, CarriesOut levels (Frame.enter prog) (run prog))
    (body items : List Value) :
    CarriesOut levels (pure [.forEach body items]) (Action.runOver run body items) := by
  induction items with
  | nil => exact of_advance nothing
  | cons item rest ih =>
    apply of_advance
    apply bind
    · exact levelKept_of_quiet (Action.quiet_push item)
    · exact fun _ => seq (hrun body) ih

/-- After a body has been run, its value is taken and collecting goes on. -/
theorem resume {body rest results : List Value}
    (h : ∀ results, CarriesOut levels (pure [.collect body results rest])
      (Action.collect run body results rest >>= Action.pushList)) :
    CarriesOut levels (pure [.resume body results rest]) (do
      let result ← Action.pop
      Action.collect run body (result :: results) rest >>= Action.pushList) := by
  apply of_advance
  apply bind
  · exact levelKept_of_quiet (Action.quiet_take Stack.framed_pop _)
  · exact fun result => h (result :: results)

/-- Collecting ends by putting the list of what was collected on the stack. -/
theorem collect (hrun : ∀ prog, CarriesOut levels (Frame.enter prog) (run prog))
    (body items : List Value) : ∀ results,
      CarriesOut levels (pure [.collect body results items])
        (Action.collect run body results items >>= Action.pushList) := by
  induction items with
  | nil =>
    intro results
    apply of_advance
    exact atOnce (levelKept_of_quiet (Action.quiet_pushList results.reverse))
  | cons item rest ih =>
    intro results
    apply of_advance
    simp only [Action.collect, bind_assoc]
    apply bind
    · exact levelKept_of_quiet (Action.quiet_push item)
    · exact fun _ => seq (hrun body) (resume ih)

theorem evaluate (hrun : ∀ prog, CarriesOut levels (Frame.enter prog) (run prog)) :
    CarriesOut levels Frame.evaluateTop (Action.evaluate run) := by
  apply bind
  · exact levelKept_of_quiet (Action.quiet_take Stack.framed_pop _)
  intro v
  apply bind
  · exact levelKept_of_quiet (Action.quiet_note _ _)
  intro _
  cases v with
  | absent => exact nothing
  | number x => exact atOnce (levelKept_of_quiet (Action.quiet_push _))
  | list id items => exact hrun items
  | text name =>
    apply bind
    · exact levelKept_of_quiet (Action.quiet_valueOf name)
    · exact fun v => atOnce (levelKept_of_quiet (Action.quiet_push v))

end Lists

end CarriesOut

/-! ## Whole instructions -/

theorem Instruction.begin_of_runsLists {i : Instruction} (h : i.runsLists = false) :
    (i.begin : Action W (List Frame)) = (do i.perform (fun _ => pure ()) 0; pure []) := by
  cases i <;> first | rfl | cases h

theorem step_of_no_instruction {v : Value} (h : v.instruction? = none)
    (run run' : Action.Runner W) (rounds rounds' : Nat) :
    step run rounds v = step run' rounds' v ∧ Action.Quiet (step run rounds v) := by
  rcases step_of_plain (W := W) h with ⟨x, hpush⟩ | ⟨name, hfail⟩
  · rw [hpush, hpush]
    exact ⟨rfl, Action.quiet_push x⟩
  · rw [hfail, hfail]
    exact ⟨rfl, Action.quiet_fail rfl⟩

/-- What stands beside the count of lists and its limit may change. -/
theorem steady_level (limit depth : Nat) :
    Steady (fun σ : Surroundings W => σ.limit = limit ∧ σ.depth = depth) (fun _ _ => True) where
  halts _ _ := trivial
  read h _ := h
  write h _ _ := h
  readCrashed _ _ := trivial
  writeCrashed _ _ := trivial

theorem levelKept_perform (i : Instruction) :
    LevelKept (i.perform (fun _ => pure ()) 0 : Action W Unit) := by
  intro s t a h
  have hJ := steady_level (W := W) s.limit s.depth
  have hloop : ∀ body, Keeps (fun σ : Surroundings W => σ.limit = s.limit ∧ σ.depth = s.depth)
      (fun _ _ => True) (Action.repeatBody (fun _ => pure ()) body 0) :=
    fun body => ⟨fun _ hthrow => (nomatch hthrow), fun _ _ => trivial⟩
  have hkeeps := hJ.keeps_performWith
    (fun text => Steady.keeps_print text (fun _ hσ _ => hσ) fun _ _ _ _ => trivial)
    (fun _ => hJ.congruence.pure ()) hloop i
  rw [Instruction.performWith_print] at hkeeps
  exact hkeeps.ok ⟨rfl, rfl⟩ h

namespace CarriesOut

variable {levels : Nat} {run : Action.Runner W}

theorem instruction (hrun : ∀ prog, CarriesOut levels (Frame.enter prog) (run prog))
    (i : Instruction) : CarriesOut levels i.begin (i.perform run 0) := by
  have hnumber : LevelKept (Action.popNumber : Action W Double) :=
    levelKept_of_quiet (Action.quiet_take Stack.framed_popNumber _)
  have hlist : LevelKept (Action.popList : Action W Value) :=
    levelKept_of_quiet (Action.quiet_take Stack.framed_popList _)
  cases hi : i.runsLists with
  | false =>
    rw [Instruction.begin_of_runsLists hi,
      Instruction.perform_of_runsLists hi run (fun _ => pure ()) 0 0]
    exact atOnce (levelKept_perform i)
  | true =>
    cases i with
    | eval => exact evaluate hrun
    | evalTwice => exact seq (evaluate hrun) (of_advance (evaluate hrun))
    | cond =>
      refine bind hnumber fun x => bind hlist fun body => ?_
      cases x.isZero with
      | true => exact nothing
      | false => exact hrun body.items
    | condElse =>
      exact bind hnumber fun x => bind hlist fun yes => bind hlist fun no => hrun _
    | each => exact bind hlist fun body => bind hlist fun list => runOver hrun _ _
    | reduce =>
      refine bind hlist fun body => bind hlist fun list => ?_
      exact bind (levelKept_of_quiet (Action.quiet_note _ _)) fun _ => runOver hrun _ _
    | map =>
      refine bind hlist fun body => bind hlist fun list => ?_
      exact bind (levelKept_of_quiet (Action.quiet_note _ _)) fun _ => collect hrun _ _ []
    | loop =>
      refine bind hlist fun body => ?_
      intro below s _
      exact .refl _
    | _ => cases hi

theorem element (hrun : ∀ prog, CarriesOut levels (Frame.enter prog) (run prog)) (v : Value) :
    CarriesOut levels (Frame.begin v) (step run 0 v) := by
  cases hi : v.instruction? with
  | some i =>
    simp only [Frame.begin, hi]
    rw [step_of_instruction hi]
    exact bind (levelKept_of_quiet (Action.quiet_note _ _)) fun _ => instruction hrun i
  | none =>
    obtain ⟨hsame, hquiet⟩ := step_of_no_instruction hi (fun _ => pure ()) run 0 0
    simp only [Frame.begin, hi]
    rw [← hsame]
    exact atOnce (levelKept_of_quiet hquiet)

/-- The elements of a list, one after another; then the list counts no longer. -/
theorem elements (hrun : ∀ prog, CarriesOut levels (Frame.enter prog) (run prog))
    (prog : List Value) (below : List Frame) (s : Session W)
    (hlevels : s.limit - s.depth = levels) :
    match walk (step run 0) prog s with
    | .ok _ t => (Config.running (.walk prog :: below) s).Reaches
          (.running below { t with depth := t.depth - 1 }) ∧
        t.limit = s.limit ∧ t.depth = s.depth
    | .error halt t => (Config.running (.walk prog :: below) s).Reaches (.halted halt t) := by
  induction prog generalizing s with
  | nil => exact ⟨Config.reaches_of_next rfl (.refl _), rfl, rfl⟩
  | cons v rest ih =>
    have hfirst : CarriesOut levels (do Action.checkpoint; Frame.begin v)
        (do Action.checkpoint; step run 0 v) :=
      bind (levelKept_of_quiet Action.quiet_checkpoint) fun _ => element hrun v
    have hhead := hfirst (.walk rest :: below) s hlevels
    have hnext : (Config.running (.walk (v :: rest) :: below) s).next = some (Config.ofResult
        (.walk rest :: below) ((do Action.checkpoint; Frame.begin v : Action W _) s)) := by
      refine Eq.trans ?_ (congrArg some (Config.ofResult_append _ [.walk rest] below s))
      simp only [bind_assoc]
      rfl
    have hwalk : walk (step run 0) (v :: rest) = (do
        (do Action.checkpoint; step run 0 v)
        walk (step run 0) rest) := by
      simp only [walk, bind_assoc]
    rw [hwalk]
    cases hv : (do Action.checkpoint; step run 0 v : Action W Unit) s with
    | ok _ t =>
      rw [hv] at hhead
      obtain ⟨hreach, hlimit, hdepth⟩ := hhead
      have htail := ih t (by rw [hlimit, hdepth]; exact hlevels)
      rw [Action.bind_of_ok hv]
      cases hrest : walk (step run 0) rest t with
      | ok _ u =>
        rw [hrest] at htail
        refine ⟨(Config.reaches_of_next hnext hreach).trans htail.1, ?_, ?_⟩
        · exact htail.2.1.trans hlimit
        · exact htail.2.2.trans hdepth
      | error halt u =>
        rw [hrest] at htail
        exact (Config.reaches_of_next hnext hreach).trans htail
    | error halt t =>
      rw [hv] at hhead
      rw [Action.bind_of_error hv]
      exact Config.reaches_of_next hnext hhead

/-- The machine runs a list as `exec` does. -/
theorem exec (levels : Nat) :
    ∀ prog, CarriesOut levels (Frame.enter prog : Action W (List Frame))
      (StackScript.exec 0 levels prog) := by
  induction levels with
  | zero =>
    intro prog below s hlevels
    have hfull : s.limit ≤ s.depth := by omega
    have henter : Frame.enter prog s = .error (.fault (.tooDeep s.depth)) s := by
      unfold Frame.enter
      rw [Action.get_bind, if_pos hfull]
      rfl
    change Config.Reaches _ (.halted (.fault (.tooDeep s.depth)) s)
    rw [henter]
    exact .refl _
  | succ levels ih =>
    intro prog below s hlevels
    have hroom : ¬ s.limit ≤ s.depth := by omega
    have henter : Frame.enter prog s =
        .ok [.walk prog] { s with depth := s.depth + 1 } := by
      unfold Frame.enter
      rw [Action.get_bind, if_neg hroom]
      rfl
    have hinner : s.limit - (s.depth + 1) = levels := by omega
    have hwalk := elements ih prog below { s with depth := s.depth + 1 } hinner
    have hexec : StackScript.exec 0 (levels + 1) prog s =
        (do walk (step (StackScript.exec 0 levels) 0) prog; Action.ascend : Action W Unit)
          { s with depth := s.depth + 1 } := rfl
    rw [henter, hexec]
    cases hrun : walk (step (StackScript.exec 0 levels) 0) prog
        { s with depth := s.depth + 1 } with
    | ok _ t =>
      rw [hrun] at hwalk
      obtain ⟨hreach, hlimit, hdepth⟩ := hwalk
      rw [Action.bind_of_ok hrun]
      refine ⟨hreach, hlimit, ?_⟩
      change t.depth - 1 = s.depth
      rw [hdepth]
      rfl
    | error halt t =>
      rw [hrun] at hwalk
      rw [Action.bind_of_error hrun]
      exact hwalk

end CarriesOut

end Reaches

/-! ## Coming to a stand -/

section Stands

variable {W : Type} [FileSystem W]

namespace Config

/-- The machine gets rid of the frame on top, or halts. -/
def Clears (frame : Frame) (below : List Frame) (s : Session W) : Prop :=
  (∃ t, (running (frame :: below) s).Reaches (running below t)) ∨
    ∃ halt t, (running (frame :: below) s).Reaches (.halted halt t)

theorem clears_of_carriesOut {levels : Nat} {frame : Frame} {y : Action W Unit}
    (h : CarriesOut levels (pure [frame]) y) (below : List Frame) {s : Session W}
    (hlevels : s.limit - s.depth = levels) : Clears frame below s := by
  have hreach := h below s hlevels
  cases hy : y s with
  | ok _ t =>
    rw [hy] at hreach
    exact .inl ⟨t, hreach.1⟩
  | error halt t =>
    rw [hy] at hreach
    exact .inr ⟨halt, t, hreach⟩

theorem clears (frame : Frame) (below : List Frame) (s : Session W) : Clears frame below s := by
  have hrun := CarriesOut.exec (W := W) (s.limit - s.depth)
  cases frame with
  | walk prog =>
    have hreach := CarriesOut.elements hrun prog below s rfl
    cases hwalk : walk (step (exec 0 (s.limit - s.depth)) 0) prog s with
    | ok _ t =>
      rw [hwalk] at hreach
      exact .inl ⟨_, hreach.1⟩
    | error halt t =>
      rw [hwalk] at hreach
      exact .inr ⟨halt, t, hreach⟩
  | forEach body rest => exact clears_of_carriesOut (CarriesOut.runOver hrun body rest) below rfl
  | collect body results rest =>
    exact clears_of_carriesOut (CarriesOut.collect hrun body rest results) below rfl
  | resume body results rest =>
    exact clears_of_carriesOut (CarriesOut.resume (CarriesOut.collect hrun body rest)) below rfl
  | evaluate =>
    exact clears_of_carriesOut (CarriesOut.of_advance (CarriesOut.evaluate hrun)) below rfl

/-- From every configuration the machine comes to a stand. -/
theorem stands (c : Config W) : ∃ n, (c.after n).next = none := by
  cases c with
  | halted halt s => exact ⟨0, rfl⟩
  | running frames s =>
    -- the frames are cleared one after another
    induction frames generalizing s with
    | nil => exact ⟨0, rfl⟩
    | cons frame below ih =>
      rcases clears frame below s with ⟨t, m, hm⟩ | ⟨halt, t, m, hm⟩
      · obtain ⟨n, hn⟩ := ih t
        refine ⟨m + n, ?_⟩
        rw [after_add, hm]
        exact hn
      · refine ⟨m, ?_⟩
        rw [hm]
        rfl

/-- The machine ends a run as `Session.run` does that leaves out loops. -/
theorem settled_start (s : Session W) (prog : List Value) :
    ∃ n, ((start s prog).after n).next = none ∧
      ((start s prog).after n).settled = s.run 0 prog := by
  have hexec := CarriesOut.exec s.limit prog [] s.atRest (Nat.sub_zero _)
  have haction : Session.runAction 0 prog s =
      (exec 0 s.limit prog >>= fun _ => Action.flush) s.atRest := rfl
  cases hrun : exec 0 s.limit prog s.atRest with
  | ok _ t =>
    rw [hrun] at hexec
    obtain ⟨⟨n, hn⟩, _⟩ := hexec
    refine ⟨n, ?_⟩
    change ((start s prog).after n) = _ at hn
    rw [hn, Session.run, haction, Action.bind_of_ok hrun]
    exact ⟨rfl, rfl⟩
  | error halt t =>
    rw [hrun] at hexec
    obtain ⟨n, hn⟩ := hexec
    refine ⟨n, ?_⟩
    change ((start s prog).after n) = _ at hn
    rw [hn, Session.run, haction, Action.bind_of_error hrun]
    exact ⟨rfl, rfl⟩

end Config

/-! ## Where a loop begins -/

/-- Any property of the surroundings, and halts other than for want of rounds. -/
theorem steady_unexhausted :
    Steady (fun _ : Surroundings W => True) (fun halt _ => halt ≠ .exhausted) where
  halts := by
    rintro σ halt _ hordinary rfl
    cases hordinary
  read _ _ := trivial
  write _ _ _ := trivial
  readCrashed _ _ := Halt.noConfusion
  writeCrashed _ _ := Halt.noConfusion

/-- The action does not halt for want of rounds. -/
abbrev Unexhausted {α : Type} (x : Action W α) : Prop :=
  Keeps (fun _ => True) (fun halt _ => halt ≠ .exhausted) x

omit [FileSystem W] in
theorem unexhausted_enter (prog : List Value) :
    Unexhausted (Frame.enter prog : Action W (List Frame)) := by
  refine ⟨fun _ _ => trivial, ?_⟩
  intro s t halt _ h
  unfold Frame.enter at h
  rw [Action.get_bind] at h
  split at h
  · cases h
    exact Halt.noConfusion
  · cases h

theorem unexhausted_evaluateTop : Unexhausted (Frame.evaluateTop : Action W (List Frame)) := by
  have hquiet {α : Type} {x : Action W α} (hx : Action.Quiet x) : Unexhausted x :=
    steady_unexhausted.keeps_of_quiet hx
  refine Steady.keeps_bind (hquiet (Action.quiet_take Stack.framed_pop _)) fun v => ?_
  refine Steady.keeps_bind (hquiet (Action.quiet_note _ _)) fun _ => ?_
  cases v with
  | absent => exact hquiet (Action.quiet_pure [])
  | number x => exact hquiet ((Action.quiet_push _).bind fun _ => Action.quiet_pure [])
  | list id items => exact unexhausted_enter items
  | text name =>
    refine hquiet ((Action.quiet_valueOf name).bind fun v => ?_)
    exact (Action.quiet_push v).bind fun _ => Action.quiet_pure []

/-- What runs no list does not run out of rounds. -/
theorem unexhausted_perform {i : Instruction} (h : i.runsLists = false) (run : Action.Runner W)
    (rounds : Nat) : Unexhausted (i.perform run rounds) := by
  have hJ := steady_unexhausted (W := W)
  have hexit : Unexhausted (throw .exit : Action W Unit) := hJ.congruence.exit
  -- how lists are run does not matter, so take a way in which every loop ends at once
  rw [Instruction.perform_of_runsLists h run (fun _ => throw .exit) rounds 1,
    ← Instruction.performWith_print]
  refine hJ.keeps_performWith ?_ (fun _ => hexit) ?_ i
  · exact fun text => Steady.keeps_print text (fun _ _ _ => trivial) fun _ _ _ _ => Halt.noConfusion
  · intro body
    refine Steady.keeps_bind (hJ.keeps_of_quiet Action.quiet_checkpoint) fun _ => ?_
    refine ⟨fun _ _ => trivial, ?_⟩
    intro s t halt _ hthrow
    cases hthrow
    exact Halt.noConfusion

theorem unexhausted_begin {i : Instruction} (h : i ≠ .loop) :
    Unexhausted (i.begin : Action W (List Frame)) := by
  have hquiet {α : Type} {x : Action W α} (hx : Action.Quiet x) : Unexhausted x :=
    steady_unexhausted.keeps_of_quiet hx
  have hnumber : Unexhausted (Action.popNumber : Action W Double) :=
    hquiet (Action.quiet_take Stack.framed_popNumber _)
  have hlist : Unexhausted (Action.popList : Action W Value) :=
    hquiet (Action.quiet_take Stack.framed_popList _)
  cases hi : i.runsLists with
  | false =>
    rw [Instruction.begin_of_runsLists hi]
    exact Steady.keeps_bind (unexhausted_perform hi _ _) fun _ => hquiet (Action.quiet_pure _)
  | true =>
    cases i with
    | eval => exact unexhausted_evaluateTop
    | evalTwice =>
      exact Steady.keeps_bind unexhausted_evaluateTop fun _ => hquiet (Action.quiet_pure _)
    | cond =>
      refine Steady.keeps_bind hnumber fun x => Steady.keeps_bind hlist fun body => ?_
      cases x.isZero with
      | true => exact hquiet (Action.quiet_pure _)
      | false => exact unexhausted_enter _
    | condElse =>
      refine Steady.keeps_bind hnumber fun x => Steady.keeps_bind hlist fun yes => ?_
      exact Steady.keeps_bind hlist fun no => unexhausted_enter _
    | each =>
      refine Steady.keeps_bind hlist fun body => Steady.keeps_bind hlist fun list => ?_
      exact hquiet (Action.quiet_pure _)
    | reduce =>
      refine Steady.keeps_bind hlist fun body => Steady.keeps_bind hlist fun list => ?_
      exact hquiet ((Action.quiet_note _ _).bind fun _ => Action.quiet_pure _)
    | map =>
      refine Steady.keeps_bind hlist fun body => Steady.keeps_bind hlist fun list => ?_
      exact hquiet ((Action.quiet_note _ _).bind fun _ => Action.quiet_pure _)
    | loop => exact absurd rfl h
    | _ => cases hi

/-- Every frame but that of a list whose next element begins a loop. -/
theorem Frame.unexhausted_advance (frame : Frame)
    (h : ∀ v rest, frame = .walk (v :: rest) → v.instruction? ≠ some .loop) :
    Unexhausted (frame.advance : Action W (List Frame)) := by
  have hquiet {α : Type} {x : Action W α} (hx : Action.Quiet x) : Unexhausted x :=
    steady_unexhausted.keeps_of_quiet hx
  have hentered (body : List Value) (frames : List Frame) :
      Unexhausted (do let first ← enter body; pure (first ++ frames) : Action W (List Frame)) :=
    Steady.keeps_bind (unexhausted_enter body) fun _ => hquiet (Action.quiet_pure _)
  fun_cases Frame.advance (W := W) frame with
  | case1 => exact ⟨fun _ _ => trivial, fun _ hthrow => nomatch hthrow⟩
  | case2 v rest =>
    refine Steady.keeps_bind (hquiet Action.quiet_checkpoint) fun _ => ?_
    refine Steady.keeps_bind ?_ fun _ => hquiet (Action.quiet_pure _)
    unfold Frame.begin
    cases hi : v.instruction? with
    | none =>
      obtain ⟨_, hstep⟩ :=
        step_of_no_instruction (W := W) hi (fun _ => pure ()) (fun _ => pure ()) 0 0
      exact hquiet (hstep.bind fun _ => Action.quiet_pure _)
    | some i =>
      refine Steady.keeps_bind (hquiet (Action.quiet_note _ _)) fun _ => unexhausted_begin ?_
      rintro rfl
      exact h v rest rfl hi
  | case3 => exact hquiet (Action.quiet_pure _)
  | case4 body item rest =>
    exact Steady.keeps_bind (hquiet (Action.quiet_push item)) fun _ => hentered body _
  | case5 => exact hquiet ((Action.quiet_pushList _).bind fun _ => Action.quiet_pure _)
  | case6 body results item rest =>
    exact Steady.keeps_bind (hquiet (Action.quiet_push item)) fun _ => hentered body _
  | case7 =>
    exact hquiet ((Action.quiet_take Stack.framed_pop _).bind fun _ => Action.quiet_pure _)
  | case8 => exact unexhausted_evaluateTop

/-- The machine leaves a run unfinished only where the next element of a list would begin a
loop. -/
theorem Config.atLoop_of_next {c : Config W} {t : Session W}
    (h : c.next = some (.halted .exhausted t)) : c.AtLoop := by
  cases c with
  | halted halt s => cases h
  | running frames s =>
    cases frames with
    | nil => cases h
    | cons frame below =>
      have hhalt : frame.advance s = .error .exhausted t := by
        simp only [Config.next, Option.some.injEq] at h
        cases hadvance : frame.advance s with
        | ok frames u =>
          rw [hadvance] at h
          cases h
        | error halt u =>
          rw [hadvance] at h
          cases h
          rfl
      apply Classical.byContradiction
      intro hnone
      have hkeeps : Unexhausted (frame.advance : Action W (List Frame)) := by
        apply Frame.unexhausted_advance
        rintro v rest rfl hloop
        exact hnone ⟨v, rest, below, s, rfl, hloop⟩
      exact hkeeps.error trivial hhalt rfl

/-! ## Any number of rounds -/

/-- The second action does what the first does, unless that runs out of rounds. -/
def Agrees {α : Type} (x y : Action W α) : Prop :=
  ∀ s, (∃ t, x s = .error .exhausted t) ∨ y s = x s

omit [FileSystem W] in
theorem Agrees.refl {α : Type} (x : Action W α) : Agrees x x := fun _ => .inr rfl

omit [FileSystem W] in
theorem Agrees.bind {α β : Type} {x y : Action W α} {f g : α → Action W β} (hx : Agrees x y)
    (hf : ∀ a, Agrees (f a) (g a)) : Agrees (x >>= f) (y >>= g) := by
  intro s
  rcases hx s with ⟨t, hexhausted⟩ | hsame
  · exact .inl ⟨t, Action.bind_of_error hexhausted⟩
  · cases hxs : x s with
    | ok a t =>
      rw [Action.bind_of_ok hxs, Action.bind_of_ok (hsame.trans hxs)]
      exact hf a t
    | error halt t =>
      rw [Action.bind_of_error hxs, Action.bind_of_error (hsame.trans hxs)]
      exact .inr rfl

theorem agrees_congruence : Congruence (fun {α} (x y : Action W α) => Agrees x y) where
  pure _ := .refl _
  bind := Agrees.bind
  fail _ := .refl _
  exit := .refl _
  checkpoint := .refl _
  note _ _ := .refl _
  push _ := .refl _
  pushBool _ := .refl _
  take _ _ := .refl _
  top := .refl _
  countFor _ := .refl _
  pushList _ := .refl _
  valueOf _ := .refl _
  bindName _ _ := .refl _
  setLine _ := .refl _
  loadText _ := .refl _
  saveText _ _ := .refl _
  readSource _ := .refl _

/-- Rounds matter only to a run in which a loop begins. -/
theorem agrees_exec (rounds levels : Nat) (prog : List Value) :
    Agrees (exec 0 levels prog : Action W Unit) (exec rounds levels prog) := by
  have hR := agrees_congruence (W := W)
  rw [← execWith_print, ← execWith_print]
  refine hR.execBy (.refl _) (.refl _) (.refl _) ?_ levels prog
  intro run run' hrun
  apply hR.stepWith
  exact hR.performWith (fun _ => .refl _) hrun fun _ s => .inl ⟨s, rfl⟩

theorem Session.run_of_not_exhausted {s : Session W} {prog : List Value}
    (h : (s.run 0 prog).2 ≠ .exhausted) (rounds : Nat) : s.run rounds prog = s.run 0 prog := by
  have hagrees : Agrees (exec 0 s.limit prog >>= fun _ => Action.flush : Action W Unit)
      (exec rounds s.limit prog >>= fun _ => Action.flush) :=
    (agrees_exec rounds s.limit prog).bind fun _ => .refl _
  have haction (rounds : Nat) : runAction rounds prog s =
      (exec rounds s.limit prog >>= fun _ => Action.flush) s.atRest := rfl
  rcases hagrees s.atRest with ⟨t, hexhausted⟩ | hsame
  · refine absurd ?_ h
    rw [run, haction, hexhausted]
    rfl
  · rw [run, run, haction, haction, hsame]

theorem Session.eval_of_not_exhausted {s : Session W} {src : Bytes}
    (h : (s.eval 0 src).2 ≠ .exhausted) (rounds : Nat) : s.eval rounds src = s.eval 0 src := by
  unfold eval at h ⊢
  split
  · rename_i t prog hparse
    rw [hparse] at h
    exact run_of_not_exhausted h rounds
  · rfl

/-- Only running what was read can be left unfinished. -/
theorem Session.exists_parse_of_eval_exhausted {s : Session W} {rounds : Nat} {src : Bytes}
    (h : (s.eval rounds src).2 = .exhausted) :
    ∃ t prog, ({ s.atRest with line := 1 } : Session W).parse src = (t, .ok prog) ∧
      (t.run rounds prog).2 = .exhausted := by
  unfold eval at h
  split at h
  · rename_i t prog hparse
    exact ⟨t, prog, hparse, h⟩
  · cases h

/-! ## What keeps a run from its end -/

namespace Config

/-- A run that is left unfinished has come to a loop. -/
theorem atLoop_of_after_exhausted {n : Nat} {c : Config W} {t : Session W}
    (hbegun : ∀ u, c ≠ .halted .exhausted u) (h : c.after n = .halted .exhausted t) :
    ∃ m, (c.after m).AtLoop ∧ c.after (m + 1) = .halted .exhausted t := by
  induction n generalizing c with
  | zero => exact absurd h (hbegun t)
  | succ n ih =>
    cases hnext : c.next with
    | none =>
      simp only [after, hnext] at h
      exact absurd h (hbegun t)
    | some c' =>
      have hafter (k : Nat) : c.after (k + 1) = c'.after k := by simp only [after, hnext]
      rw [hafter] at h
      by_cases hhalted : ∃ u, c' = .halted .exhausted u
      · -- the step that leaves the run unfinished
        obtain ⟨u, rfl⟩ := hhalted
        have hstays : ∀ k, (halted .exhausted u : Config W).after k = halted .exhausted u := by
          intro k
          cases k <;> rfl
        rw [hstays] at h
        exact ⟨0, atLoop_of_next hnext, (hafter 0).trans h⟩
      · obtain ⟨m, hloop, hend⟩ := ih (fun u hu => hhalted ⟨u, hu⟩) h
        exact ⟨m + 1, (hafter m).symm ▸ hloop, (hafter (m + 1)).trans hend⟩

omit [FileSystem W] in
/-- A run comes to be unfinished only where it was left so. -/
theorem settled_ne_exhausted {c : Config W} (h : ∀ t, c ≠ .halted .exhausted t) :
    c.settled.2 ≠ .exhausted := by
  cases c with
  | running frames s =>
    rcases hflush : s.output.flush with ⟨output, error⟩
    cases error with
    | none =>
      simp only [settled, Action.flush_of_none hflush]
      exact Outcome.noConfusion
    | some error =>
      simp only [settled, Action.flush_of_some hflush]
      cases error <;> exact Outcome.noConfusion
  | halted halt s =>
    cases halt with
    | exhausted => exact absurd rfl (h s)
    | _ => exact Outcome.noConfusion

/-- A run is finished, or it has come to a loop. -/
theorem not_exhausted_or_atLoop (s : Session W) (prog : List Value) :
    (s.run 0 prog).2 ≠ .exhausted ∨
      ∃ n t, ((start s prog).after n).AtLoop ∧
        (start s prog).after (n + 1) = .halted .exhausted t := by
  obtain ⟨n, _, hsettled⟩ := settled_start s prog
  by_cases hend : ∃ t, (start s prog).after n = .halted .exhausted t
  · obtain ⟨t, ht⟩ := hend
    have hbegun : ∀ u, start s prog ≠ .halted .exhausted u := by
      intro u hu
      unfold start at hu
      cases henter : Frame.enter prog s.atRest with
      | ok frames v =>
        rw [henter] at hu
        cases hu
      | error halt v =>
        rw [henter] at hu
        cases hu
        exact (unexhausted_enter prog).error trivial henter rfl
    obtain ⟨m, hloop, hlast⟩ := atLoop_of_after_exhausted hbegun ht
    exact .inr ⟨m, t, hloop, hlast⟩
  · refine .inl ?_
    rw [← hsettled]
    exact settled_ne_exhausted fun t ht => hend ⟨t, ht⟩

end Config

/-- Only a loop can go on forever.  Whatever has begun, the machine that begins no loop
comes to a stand; for a whole program that is the end of the run without rounds.  Unless
the program has come to a loop there, it is the end of the run for any number of rounds,
and likewise for a source. -/
theorem Session.run_ends_unless_atLoop (s : Session W) (prog : List Value) (src : Bytes) :
    (∀ c : Config W, ∃ n, (c.after n).next = none) ∧
      (∃ n, ((Config.start s prog).after n).next = none ∧
        ((Config.start s prog).after n).settled = s.run 0 prog) ∧
      ((s.run 0 prog).2 ≠ .exhausted ∧ (∀ rounds, s.run rounds prog = s.run 0 prog) ∨
        ∃ n t, ((Config.start s prog).after n).AtLoop ∧
          (Config.start s prog).after (n + 1) = .halted .exhausted t) ∧
      ((s.eval 0 src).2 ≠ .exhausted ∧ (∀ rounds, s.eval rounds src = s.eval 0 src) ∨
        ∃ t body n u, ({ s.atRest with line := 1 } : Session W).parse src = (t, .ok body) ∧
          ((Config.start t body).after n).AtLoop ∧
          (Config.start t body).after (n + 1) = .halted .exhausted u) := by
  refine ⟨Config.stands, Config.settled_start s prog, ?_, ?_⟩
  · rcases Config.not_exhausted_or_atLoop s prog with hend | hloop
    · exact .inl ⟨hend, run_of_not_exhausted hend⟩
    · exact .inr hloop
  · by_cases hend : (s.eval 0 src).2 = .exhausted
    · obtain ⟨t, body, hparse, hrun⟩ := exists_parse_of_eval_exhausted hend
      obtain ⟨n, u, hloop⟩ :=
        (Config.not_exhausted_or_atLoop t body).resolve_left (not_not_intro hrun)
      exact .inr ⟨t, body, n, u, hparse, hloop⟩
    · exact .inl ⟨hend, eval_of_not_exhausted hend⟩

end Stands

end StackScript
