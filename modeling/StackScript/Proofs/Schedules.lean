import StackScript.Command
set_option autoImplicit false

/-!
# Files checked by concurrent tasks

Checking files is the work of tasks that run at the same time, one for each file.  A task
looks whether the group of tasks was cancelled, opens its file, reads it, and puts what there
is to say against its text into the slot with the number of the file.  A task that cannot do
that fails: the first error is recorded, then the group is cancelled, and the tasks that fail
meanwhile wait for that.  A schedule tells which task is the next to do its next step.

Here a `Group` is all that the tasks share, and `Sound` what holds of it whatever the
schedule.  The error recorded is never that a task was cancelled, because a task that finds
the group cancelled comes after the record.  Every schedule ends, since each step lowers the
number of steps that are left and the task that others wait for can always go on.
-/

namespace StackScript

namespace Command

/-! ## Tasks -/

/-- Why a task fails. -/
inductive TaskError where
  /-- its file cannot be opened or read -/
  | file (message : Bytes)
  /-- it found the group cancelled -/
  | interrupted (reason : Interrupt)
  deriving DecidableEq, Repr, Inhabited

/-- The error in words. -/
def TaskError.message : TaskError → Bytes
  | .file message => message
  | .interrupted reason => reason.message

/-- How far a task has come. -/
inductive Stage where
  | waiting
  /-- it has found the group not cancelled -/
  | started
  | opened (input : Input)
  | loaded (src : Source)
  | failing (error : TaskError)
  /-- its error is recorded, and it is to cancel the group -/
  | recorded
  | ended
  deriving DecidableEq, Repr, Inhabited

/-- How many steps a task has left at most. -/
def Stage.left : Stage → Nat
  | .waiting => 5
  | .started => 4
  | .opened _ => 3
  | .failing _ => 2
  | .loaded _ => 1
  | .recorded => 1
  | .ended => 0

/-- What the tasks share.  The stages and the slots are in the order of the files. -/
structure Group (W : Type) where
  world : W
  stages : List Stage
  /-- what there is to say against each file -/
  slots : List (Option SyntaxError)
  /-- the first error of a task -/
  failure : Option TaskError
  cancelled : Bool

section Running

variable {W : Type} [FileSystem W]

/-- A file is opened by a task. -/
def openStage (w : W) (name : Bytes) : W × Stage :=
  match Input.openFiles w [name] with
  | (w, .ok input) => (w, .opened input)
  | (w, .failed error) => (w, .failing (.file error.message))
  | (w, .crashed message) => (w, .failing (.file message))

/-- An open file is read by a task. -/
def readStage (w : W) (input : Input) : W × Stage :=
  match input.next w with
  | (w, _, .source src) => (w, .loaded src)
  | (w, _, .failed _ error) => (w, .failing (.file error))
  | (w, _, .crashed message) => (w, .failing (.file message))
  | (w, _, .ended) => (w, .failing (.file []))

namespace Group

/-- The tasks before their first steps. -/
def start (w : W) (names : List Bytes) : Group W :=
  ⟨w, names.map fun _ => .waiting, names.map fun _ => none, none, false⟩

/-- The group with a task at another stage. -/
def put (g : Group W) (i : Nat) (stage : Stage) : Group W :=
  { g with stages := g.stages.set i stage }

/-- The next step of the task for the file number `i`, if there is one. -/
def act (g : Group W) (i : Nat) (name : Bytes) : Stage → Option (Group W)
  | .waiting =>
    some (g.put i (if g.cancelled then .failing (.interrupted .canceled) else .started))
  | .started =>
    some ({ g with world := (openStage g.world name).1 }.put i (openStage g.world name).2)
  | .opened input =>
    some ({ g with world := (readStage g.world input).1 }.put i (readStage g.world input).2)
  | .loaded src => some ({ g with slots := g.slots.set i (syntaxError? src.text) }.put i .ended)
  | .failing error =>
    match g.failure, g.cancelled with
    | none, _ => some ({ g with failure := some error }.put i .recorded)
    -- another task has recorded its error and is about to cancel the group
    | some _, false => none
    | some _, true => some (g.put i .ended)
  | .recorded => some ({ g with cancelled := true }.put i .ended)
  | .ended => none

/-- The group after the next step of a task. -/
def advance (names : List Bytes) (g : Group W) (i : Nat) : Option (Group W) :=
  match names[i]?, g.stages[i]? with
  | some name, some stage => g.act i name stage
  | _, _ => none

/-- The group after the steps of a schedule, if each of its steps is possible. -/
def run (names : List Bytes) (g : Group W) : List Nat → Option (Group W)
  | [] => some g
  | i :: rest =>
    match g.advance names i with
    | some next => next.run names rest
    | none => none

/-- Every task has ended. -/
def Finished (g : Group W) : Prop := ∀ stage ∈ g.stages, stage = .ended

/-- What the tasks come to: the error of the group, or what is in the slots. -/
def findings (g : Group W) : Except Bytes (List (Option SyntaxError)) :=
  match g.failure with
  | some error => .error error.message
  | none => .ok g.slots

/-- What the command leaves once every task has ended. -/
def result (g : Group W) (chatty : Bool) (names : List Bytes) : Result W :=
  checked g.world chatty names g.findings

end Group

/-! ## What files give -/

/-- The text of a file, or the error in opening or reading it. -/
def contentOf (w : W) (name : Bytes) : Except Bytes Bytes :=
  match (FileSystem.probe w name).access with
  | .failed error => .error error.message
  | .crashed message => .error message
  | .ok _ =>
    match (FileSystem.read w name).access with
    | .ok text => .ok text
    | .failed error =>
      .error (ascii "failed to read " ++ name ++ ascii ": " ++ error.message)
    | .crashed message => .error message

/-- The error that the text of a file gives when it is read as a source. -/
def errorIn? (w : W) (name : Bytes) : Option SyntaxError :=
  match contentOf w name with
  | .error _ => none
  | .ok text =>
    match (Reader.start.parse text).2 with
    | .error e => some e
    | .ok _ => none

/-- Opening and reading a file gives the same in two worlds. -/
def SameAnswers (name : Bytes) (v u : W) : Prop :=
  (FileSystem.probe v name).access = (FileSystem.probe u name).access ∧
    (FileSystem.read v name).access = (FileSystem.read u name).access

/-- The worlds that opening and reading some files leads to. -/
inductive Visited (names : List Bytes) (w : W) : W → Prop where
  | here : Visited names w w
  | probe {v : W} {name : Bytes} (before : Visited names w v) (mem : name ∈ names) :
      Visited names w (FileSystem.probe v name).world
  | read {v : W} {name : Bytes} (before : Visited names w v) (mem : name ∈ names) :
      Visited names w (FileSystem.read v name).world

/-- Each of some files has a content of its own: to open or read one of them does not change
what the others give, nor to open it what reading it gives. -/
structure Apart (w : W) (names : List Bytes) : Prop where
  probe : ∀ {i j : Nat} {a b : Bytes}, i ≠ j → names[i]? = some a → names[j]? = some b →
    ∀ {v : W}, Visited names w v → SameAnswers b (FileSystem.probe v a).world v
  read : ∀ {i j : Nat} {a b : Bytes}, i ≠ j → names[i]? = some a → names[j]? = some b →
    ∀ {v : W}, Visited names w v → SameAnswers b (FileSystem.read v a).world v
  self : ∀ {name : Bytes}, name ∈ names → ∀ {v : W}, Visited names w v →
    (FileSystem.read (FileSystem.probe v name).world name).access =
      (FileSystem.read v name).access

theorem SameAnswers.refl (name : Bytes) (w : W) : SameAnswers name w w := ⟨rfl, rfl⟩

theorem SameAnswers.trans {name : Bytes} {u v w : W} (h : SameAnswers name u v)
    (h' : SameAnswers name v w) : SameAnswers name u w :=
  ⟨h.1.trans h'.1, h.2.trans h'.2⟩

/-- Files have contents of their own if to open and read them changes nothing. -/
theorem apart_of_unchanged {w : W} {names : List Bytes}
    (h : ∀ name ∈ names, (FileSystem.probe w name).world = w ∧
      (FileSystem.read w name).world = w) : Apart w names := by
  have hvisited : ∀ {v : W}, Visited names w v → v = w := by
    intro v hv
    induction hv with
    | here => rfl
    | probe before mem ih =>
      subst ih
      exact (h _ mem).1
    | read before mem ih =>
      subst ih
      exact (h _ mem).2
  refine ⟨?_, ?_, ?_⟩
  · intro i j a b _ ha _ v hv
    rw [hvisited hv, (h a (List.mem_of_getElem? ha)).1]
    exact .refl b w
  · intro i j a b _ ha _ v hv
    rw [hvisited hv, (h a (List.mem_of_getElem? ha)).2]
    exact .refl b w
  · intro name hname v hv
    rw [hvisited hv, (h name hname).1]

theorem world_openStage (w : W) (name : Bytes) :
    (openStage w name).1 = (FileSystem.probe w name).world := by
  unfold openStage Input.openFiles
  rcases FileSystem.probe w name with ⟨v, access, effect⟩
  cases access <;> rfl

/-- A file that can be opened is the one that is read next; otherwise there is no content. -/
theorem stage_openStage (w : W) (name : Bytes) :
    (∃ a, (FileSystem.probe w name).access = .ok a ∧
      (openStage w name).2 = .opened (.ofStreams [.file name])) ∨
    ∃ message, (openStage w name).2 = .failing (.file message) ∧
      contentOf w name = .error message := by
  unfold openStage contentOf Input.openFiles
  rcases FileSystem.probe w name with ⟨v, access, effect⟩
  cases access with
  | ok a => exact .inl ⟨a, rfl, rfl⟩
  | failed error => exact .inr ⟨_, rfl, rfl⟩
  | crashed message => exact .inr ⟨_, rfl, rfl⟩

theorem world_readStage (w : W) (name : Bytes) :
    (readStage w (.ofStreams [.file name])).1 = (FileSystem.read w name).world := by
  simp only [readStage, Input.next, Input.ofStreams, Input.readStream]
  rcases FileSystem.read w name with ⟨v, access, effect⟩
  cases access <;> rfl

/-- What reading an open file gives is the content of the file. -/
theorem stage_readStage {v w : W} {name : Bytes} {a : Unit}
    (hopen : (FileSystem.probe w name).access = .ok a)
    (hread : (FileSystem.read v name).access = (FileSystem.read w name).access) :
    (∃ src, (readStage v (.ofStreams [.file name])).2 = .loaded src ∧
      contentOf w name = .ok src.text) ∨
    ∃ message, (readStage v (.ofStreams [.file name])).2 = .failing (.file message) ∧
      contentOf w name = .error message := by
  simp only [readStage, Input.next, Input.ofStreams, Input.readStream, contentOf, hopen, ← hread]
  rcases FileSystem.read v name with ⟨u, access, effect⟩
  cases access with
  | ok text => exact .inl ⟨⟨name, text⟩, rfl, rfl⟩
  | failed error => exact .inr ⟨_, rfl, rfl⟩
  | crashed message => exact .inr ⟨_, rfl, rfl⟩

theorem SameAnswers.contentOf_eq {name : Bytes} {v w : W} (h : SameAnswers name v w) :
    contentOf v name = contentOf w name := by
  unfold contentOf
  rw [h.1, h.2]

/-! ## What every schedule keeps -/

namespace Group

/-- What a task at some stage has found out about its file, whose content is that in the world
`w` from which the group started. -/
def Accounted (w : W) (g : Group W) (i : Nat) (name : Bytes) : Stage → Prop
  | .waiting => SameAnswers name g.world w
  | .started => SameAnswers name g.world w
  | .opened input =>
    input = .ofStreams [.file name] ∧ (∃ a, (FileSystem.probe w name).access = .ok a) ∧
      (FileSystem.read g.world name).access = (FileSystem.read w name).access
  | .loaded src => contentOf w name = .ok src.text
  | .failing (.file message) => contentOf w name = .error message
  | .failing (.interrupted _) => g.cancelled = true
  | .recorded => g.failure ≠ none
  | .ended =>
    g.failure ≠ none ∨
      ∃ text, contentOf w name = .ok text ∧ g.slots[i]? = some (syntaxError? text)

/-- What a step of another task leaves a task: its file, its slot, the record of an error and
the cancellation. -/
structure Leaves (g next : Group W) (i : Nat) (name : Bytes) : Prop where
  world : SameAnswers name next.world g.world
  slot : next.slots[i]? = g.slots[i]?
  failure : g.failure ≠ none → next.failure ≠ none
  cancelled : g.cancelled = true → next.cancelled = true

theorem Accounted.of_leaves {w : W} {g next : Group W} {i : Nat} {name : Bytes} {stage : Stage}
    (h : Accounted w g i name stage) (hleaves : Leaves g next i name) :
    Accounted w next i name stage := by
  cases stage with
  | waiting => exact hleaves.world.trans h
  | started => exact hleaves.world.trans h
  | opened input => exact ⟨h.1, h.2.1, hleaves.world.2.trans h.2.2⟩
  | loaded src => exact h
  | failing error =>
    cases error with
    | file message => exact h
    | interrupted reason => exact hleaves.cancelled h
  | recorded => exact hleaves.failure h
  | ended =>
    rcases h with hfailure | ⟨text, hcontent, hslot⟩
    · exact .inl (hleaves.failure hfailure)
    · exact .inr ⟨text, hcontent, hleaves.slot.trans hslot⟩

/-- What holds of a group on every schedule.  The error that is recorded is that of a file,
the group is cancelled only after the record, and between the two there is the task that is
to cancel it. -/
structure Sound (w : W) (names : List Bytes) (g : Group W) : Prop where
  stages : g.stages.length = names.length
  slots : g.slots.length = names.length
  visited : Visited names w g.world
  tasks : ∀ {i : Nat} {name : Bytes} {stage : Stage}, names[i]? = some name →
    g.stages[i]? = some stage → Accounted w g i name stage
  failure : ∀ {error : TaskError}, g.failure = some error →
    ∃ name ∈ names, ∃ message, error = .file message ∧ contentOf w name = .error message
  cancelled : g.cancelled = true → g.failure ≠ none
  recording : g.failure ≠ none → g.cancelled = false → ∃ i : Nat, g.stages[i]? = some .recorded

theorem sound_start (w : W) (names : List Bytes) : Sound w names (start w names) where
  stages := List.length_map _
  slots := List.length_map _
  visited := .here
  tasks := by
    intro i name stage hname hstage
    have hwaiting : stage = .waiting := by
      simp only [start, List.getElem?_map, hname, Option.map_some, Option.some.injEq] at hstage
      exact hstage.symm
    subst hwaiting
    exact .refl name w
  failure := by
    intro error h
    cases h
  cancelled := by
    intro h
    cases h
  recording := by
    intro h _
    exact absurd rfl h

/-- A step keeps the group sound if it leaves the other tasks what they have, and what it
records is the error of its own file. -/
theorem Sound.put {w : W} {names : List Bytes} {g next : Group W} {i : Nat} {name : Bytes}
    {stage : Stage} (h : Sound w names g) (hname : names[i]? = some name)
    (hstage : g.stages[i]? = some stage) (new : Stage) (hstages : next.stages = g.stages)
    (hslots : next.slots.length = g.slots.length) (hvisited : Visited names w next.world)
    (hothers : ∀ {j : Nat} {other : Bytes}, i ≠ j → names[j]? = some other →
      Leaves g next j other)
    (hnew : Accounted w (next.put i new) i name new)
    (hfailure : ∀ {error : TaskError}, next.failure = some error → g.failure = some error ∨
      ∃ message, error = .file message ∧ contentOf w name = .error message)
    (hcancelled : next.cancelled = true → next.failure ≠ none)
    (hrecording : next.failure ≠ none → next.cancelled = false →
      new = .recorded ∨ stage ≠ .recorded ∧ g.failure ≠ none ∧ g.cancelled = false) :
    Sound w names (next.put i new) where
  stages := by rw [Group.put, List.length_set, hstages, h.stages]
  slots := hslots.trans h.slots
  visited := hvisited
  tasks := by
    intro j other found hother hfound
    by_cases hij : i = j
    · subst hij
      have hlt : i < next.stages.length := by
        rw [hstages]
        exact (List.getElem?_eq_some_iff.mp hstage).1
      obtain rfl : name = other := Option.some.inj (hname.symm.trans hother)
      obtain rfl : new = found :=
        Option.some.inj ((List.getElem?_set_self hlt).symm.trans hfound)
      exact hnew
    · have hold : g.stages[j]? = some found := by
        rw [← hstages, ← List.getElem?_set_ne hij]
        exact hfound
      have hleaves := hothers hij hother
      exact (h.tasks hother hold).of_leaves
        ⟨hleaves.world, hleaves.slot, hleaves.failure, hleaves.cancelled⟩
  failure := by
    intro error herror
    rcases hfailure herror with hold | ⟨message, hmessage, hcontent⟩
    · exact h.failure hold
    · exact ⟨name, List.mem_of_getElem? hname, message, hmessage, hcontent⟩
  cancelled := hcancelled
  recording := by
    intro hsome hlive
    rcases hrecording hsome hlive with rfl | ⟨hother, hbefore, hlive⟩
    · have hlt : i < next.stages.length := by
        rw [hstages]
        exact (List.getElem?_eq_some_iff.mp hstage).1
      exact ⟨i, List.getElem?_set_self hlt⟩
    · obtain ⟨j, hj⟩ := h.recording hbefore hlive
      have hij : i ≠ j := by
        rintro rfl
        exact hother (Option.some.inj (hstage.symm.trans hj))
      refine ⟨j, ?_⟩
      rw [Group.put, List.getElem?_set_ne hij, hstages]
      exact hj

/-- A step that neither records an error nor cancels the group keeps it sound if it leaves the
other tasks their files and slots. -/
theorem Sound.put_quietly {w v : W} {names : List Bytes} {g : Group W} {i : Nat} {name : Bytes}
    {stage : Stage} {slots : List (Option SyntaxError)} (h : Sound w names g)
    (hname : names[i]? = some name) (hstage : g.stages[i]? = some stage)
    (hquiet : stage ≠ .recorded) (new : Stage) (hslots : slots.length = g.slots.length)
    (hvisited : Visited names w v)
    (hothers : ∀ {j : Nat} {other : Bytes}, i ≠ j → names[j]? = some other →
      SameAnswers other v g.world ∧ slots[j]? = g.slots[j]?)
    (hnew : Accounted w ({ g with world := v, slots := slots }.put i new) i name new) :
    Sound w names ({ g with world := v, slots := slots }.put i new) := by
  refine h.put hname hstage new rfl hslots hvisited ?_ hnew .inl h.cancelled ?_
  · intro j other hij hother
    exact ⟨(hothers hij hother).1, (hothers hij hother).2, id, id⟩
  · intro hsome hlive
    exact .inr ⟨hquiet, hsome, hlive⟩

theorem advance_eq {names : List Bytes} {g : Group W} {i : Nat} {name : Bytes} {stage : Stage}
    (hname : names[i]? = some name) (hstage : g.stages[i]? = some stage) :
    g.advance names i = g.act i name stage := by
  simp only [advance, hname, hstage]

theorem advance_eq_some {names : List Bytes} {g next : Group W} {i : Nat}
    (h : g.advance names i = some next) :
    ∃ name stage, names[i]? = some name ∧ g.stages[i]? = some stage ∧
      g.act i name stage = some next := by
  unfold advance at h
  split at h
  · next name stage hname hstage => exact ⟨name, stage, hname, hstage, h⟩
  · cases h

/-- The step of a task that fails is kept sound by the record being that of a file. -/
theorem Sound.act_failing {w : W} {names : List Bytes} {g next : Group W} {i : Nat}
    {name : Bytes} {error : TaskError} (h : Sound w names g) (hname : names[i]? = some name)
    (hstage : g.stages[i]? = some (.failing error))
    (hact : g.act i name (.failing error) = some next) : Sound w names next := by
  have haccounted := h.tasks hname hstage
  cases hfailure : g.failure with
  | none =>
    simp only [act, hfailure, Option.some.injEq] at hact
    subst hact
    have hfile : ∃ message, error = .file message ∧ contentOf w name = .error message := by
      cases error with
      | file message => exact ⟨message, rfl, haccounted⟩
      | interrupted reason => exact absurd hfailure (h.cancelled haccounted)
    refine h.put hname hstage .recorded rfl rfl h.visited ?_ (Option.some_ne_none error) ?_ ?_ ?_
    · intro j other _ _
      exact ⟨.refl other g.world, rfl, fun _ => Option.some_ne_none error, id⟩
    · intro found hfound
      cases hfound
      exact .inr hfile
    · intro _
      exact Option.some_ne_none error
    · intro _ _
      exact .inl rfl
  | some first =>
    have hsome : g.failure ≠ none := by
      rw [hfailure]
      exact Option.some_ne_none first
    cases hcancelled : g.cancelled with
    | false =>
      simp only [act, hfailure, hcancelled] at hact
      cases hact
    | true =>
      simp only [act, hfailure, hcancelled, Option.some.injEq] at hact
      subst hact
      exact h.put_quietly hname hstage (by rintro ⟨⟩) .ended rfl h.visited
        (fun _ _ => ⟨.refl _ _, rfl⟩) (.inl hsome)

/-- The step lemma: what holds on every schedule is kept by each step of each task. -/
theorem Sound.advance {w : W} {names : List Bytes} {g next : Group W} {i : Nat}
    (h : Sound w names g) (apart : Apart w names) (hadvance : g.advance names i = some next) :
    Sound w names next := by
  obtain ⟨name, stage, hname, hstage, hact⟩ := advance_eq_some hadvance
  have hmem : name ∈ names := List.mem_of_getElem? hname
  have haccounted := h.tasks hname hstage
  cases stage with
  | waiting =>
    simp only [act, Option.some.injEq] at hact
    subst hact
    refine h.put_quietly hname hstage (by rintro ⟨⟩) _ rfl h.visited
      (fun _ _ => ⟨.refl _ _, rfl⟩) ?_
    cases g.cancelled with
    | false => exact haccounted
    | true => exact rfl
  | started =>
    simp only [act, Option.some.injEq] at hact
    subst hact
    rw [world_openStage]
    refine h.put_quietly hname hstage (by rintro ⟨⟩) _ rfl (.probe h.visited hmem) ?_ ?_
    · intro j other hij hother
      exact ⟨apart.probe hij hname hother h.visited, rfl⟩
    · have hcontent : contentOf g.world name = contentOf w name :=
        SameAnswers.contentOf_eq haccounted
      rcases stage_openStage g.world name with ⟨a, hopen, hnew⟩ | ⟨message, hnew, herror⟩
      · rw [hnew]
        exact ⟨rfl, ⟨a, haccounted.1.symm.trans hopen⟩,
          (apart.self hmem h.visited).trans haccounted.2⟩
      · rw [hnew]
        exact hcontent.symm.trans herror
  | opened input =>
    simp only [act, Option.some.injEq] at hact
    subst hact
    obtain ⟨rfl, ⟨a, hopen⟩, hread⟩ := haccounted
    rw [world_readStage]
    refine h.put_quietly hname hstage (by rintro ⟨⟩) _ rfl (.read h.visited hmem) ?_ ?_
    · intro j other hij hother
      exact ⟨apart.read hij hname hother h.visited, rfl⟩
    · rcases stage_readStage hopen hread with ⟨src, hnew, htext⟩ | ⟨message, hnew, herror⟩
      · rw [hnew]
        exact htext
      · rw [hnew]
        exact herror
  | loaded src =>
    simp only [act, Option.some.injEq] at hact
    subst hact
    refine h.put_quietly hname hstage (by rintro ⟨⟩) .ended List.length_set h.visited ?_ ?_
    · intro j other hij _
      exact ⟨.refl other g.world, List.getElem?_set_ne hij⟩
    · have hlt : i < g.slots.length := by
        rw [h.slots]
        exact (List.getElem?_eq_some_iff.mp hname).1
      exact .inr ⟨src.text, haccounted, List.getElem?_set_self hlt⟩
  | failing error => exact h.act_failing hname hstage hact
  | recorded =>
    simp only [act, Option.some.injEq] at hact
    subst hact
    refine h.put hname hstage .ended rfl rfl h.visited ?_ (.inl haccounted) .inl
      (fun _ => haccounted) (fun _ hlive => by cases hlive)
    intro j other _ _
    exact ⟨.refl other g.world, rfl, id, fun _ => rfl⟩
  | ended => cases hact

/-- The run lemma: it holds after every schedule. -/
theorem Sound.run {w : W} {names : List Bytes} {schedule : List Nat} {g last : Group W}
    (h : Sound w names g) (apart : Apart w names) (hrun : g.run names schedule = some last) :
    Sound w names last := by
  induction schedule generalizing g with
  | nil =>
    cases hrun
    exact h
  | cons i rest ih =>
    unfold Group.run at hrun
    split at hrun
    · next next hadvance => exact ih (h.advance apart hadvance) hrun
    · cases hrun

/-! ## Every schedule ends -/

/-- How many steps some tasks have left at most. -/
def stepsLeft : List Stage → Nat
  | [] => 0
  | stage :: rest => stage.left + stepsLeft rest

theorem stepsLeft_set {stages : List Stage} {i : Nat} {stage : Stage} (new : Stage)
    (h : stages[i]? = some stage) :
    stepsLeft (stages.set i new) + stage.left = stepsLeft stages + new.left := by
  induction stages generalizing i with
  | nil => cases h
  | cons head rest ih =>
    cases i with
    | zero =>
      cases h
      simp only [List.set_cons_zero, stepsLeft]
      omega
    | succ i =>
      have hrest := ih (i := i) h
      simp only [List.set_cons_succ, stepsLeft]
      omega

theorem left_openStage (w : W) (name : Bytes) : (openStage w name).2.left < 4 := by
  rcases stage_openStage w name with ⟨_, _, h⟩ | ⟨_, h, _⟩ <;> simp [h, Stage.left]

theorem left_readStage (w : W) (input : Input) : (readStage w input).2.left < 3 := by
  unfold readStage
  split <;> simp [Stage.left]

/-- Each step of a task is one less that it has left. -/
theorem stepsLeft_advance {names : List Bytes} {g next : Group W} {i : Nat}
    (h : g.advance names i = some next) : stepsLeft next.stages < stepsLeft g.stages := by
  obtain ⟨name, stage, _, hstage, hact⟩ := advance_eq_some h
  have hset : ∀ new : Stage, new.left < stage.left →
      stepsLeft (g.stages.set i new) < stepsLeft g.stages := by
    intro new hless
    have := stepsLeft_set new hstage
    omega
  cases stage with
  | waiting =>
    cases hact
    refine hset _ ?_
    cases g.cancelled <;> decide
  | started =>
    cases hact
    exact hset _ (left_openStage g.world name)
  | opened input =>
    cases hact
    exact hset _ (left_readStage g.world input)
  | loaded src =>
    cases hact
    exact hset .ended Nat.zero_lt_one
  | failing error =>
    simp only [act] at hact
    split at hact
    · cases hact
      exact hset .recorded Nat.one_lt_two
    · cases hact
    · cases hact
      exact hset .ended Nat.two_pos
  | recorded =>
    cases hact
    exact hset .ended Nat.zero_lt_one
  | ended => cases hact

theorem length_add_stepsLeft_le {names : List Bytes} {schedule : List Nat} {g last : Group W}
    (h : g.run names schedule = some last) :
    schedule.length + stepsLeft last.stages ≤ stepsLeft g.stages := by
  induction schedule generalizing g with
  | nil =>
    cases h
    simp
  | cons i rest ih =>
    unfold Group.run at h
    split at h
    · next next hadvance =>
      have hstep := stepsLeft_advance hadvance
      have hrest := ih h
      rw [List.length_cons]
      omega
    · cases h

omit [FileSystem W] in
theorem stepsLeft_start (w : W) (names : List Bytes) :
    stepsLeft (start w names).stages = 5 * names.length := by
  unfold start
  induction names with
  | nil => rfl
  | cons name rest ih =>
    simp only [List.map_cons, stepsLeft, Stage.left, List.length_cons] at ih ⊢
    omega

/-- The tasks do not get stuck: as long as one has not ended, one can do a step.  A task that
has to wait does so for the one that is to cancel the group. -/
theorem Sound.finished_or_advance {w : W} {names : List Bytes} {g : Group W}
    (h : Sound w names g) : g.Finished ∨ ∃ i next, g.advance names i = some next := by
  by_cases hfinished : g.Finished
  · exact .inl hfinished
  · refine .inr ?_
    simp only [Finished, Classical.not_forall] at hfinished
    obtain ⟨stage, hmem, hopen⟩ := hfinished
    obtain ⟨i, hstage⟩ := List.getElem?_of_mem hmem
    have hnamed : ∀ {j : Nat} {found : Stage}, g.stages[j]? = some found →
        ∃ name, names[j]? = some name := by
      intro j found hfound
      have hlt := (List.getElem?_eq_some_iff.mp hfound).1
      rw [h.stages] at hlt
      exact ⟨names[j], List.getElem?_eq_getElem hlt⟩
    obtain ⟨name, hname⟩ := hnamed hstage
    have hact := advance_eq hname hstage
    cases stage with
    | waiting => exact ⟨i, _, hact⟩
    | started => exact ⟨i, _, hact⟩
    | opened input => exact ⟨i, _, hact⟩
    | loaded src => exact ⟨i, _, hact⟩
    | failing error =>
      cases hfailure : g.failure with
      | none =>
        simp only [act, hfailure] at hact
        exact ⟨i, _, hact⟩
      | some first =>
        cases hcancelled : g.cancelled with
        | true =>
          simp only [act, hfailure, hcancelled] at hact
          exact ⟨i, _, hact⟩
        | false =>
          have hsome : g.failure ≠ none := by
            rw [hfailure]
            exact Option.some_ne_none first
          obtain ⟨j, hj⟩ := h.recording hsome hcancelled
          obtain ⟨other, hother⟩ := hnamed hj
          exact ⟨j, _, advance_eq hother hj⟩
    | recorded => exact ⟨i, _, hact⟩
    | ended => exact absurd rfl hopen

end Group

end Running

end Command

end StackScript
