import StackScript.Files.Disk
import StackScript.Proofs.Schedules
set_option autoImplicit false

/-!
# The verdict on checked files

When every task has ended, the group holds an error or what there is to say against each of the
files.  Either follows from what the files give, whatever the schedule was, and with it the
refusals that are reported.  `Command.check`, which checks one file after another, is what the
schedule leads to that takes the tasks in order.
-/

namespace StackScript

namespace Command

section Running

variable {W : Type} [FileSystem W]

/-! ## What is reported -/

/-- What is to be said of a file that can be read: that it is refused for its own error, or that
it has passed, if remarks are asked for. -/
def verdictOn (w : W) (chatty : Bool) (name : Bytes) : Option Remark :=
  match errorIn? w name with
  | some error => some (.refused name error)
  | none => if chatty then some (.passed name) else none

/-- The refusal of a file that an entry on the error stream reports, if it reports one. -/
def refusal? : Event → Option (Bytes × SyntaxError)
  | .remark (.refused name error) => some (name, error)
  | _ => none

/-- The refusals that a command reports, each as the name of the file and its error. -/
def Result.refusals {W : Type} (r : Result W) : List (Bytes × SyntaxError) :=
  r.stderr.filterMap refusal?

/-- There is nothing to say against a text that can be read as a source. -/
theorem syntaxError?_eq_none_iff (text : Bytes) :
    syntaxError? text = none ↔ ∃ trees, (Reader.start.parse text).2 = .ok trees := by
  unfold syntaxError?
  cases (Reader.start.parse text).2 with
  | ok trees => simp
  | error e => simp

theorem errorIn?_of_content {w : W} {name text : Bytes} (h : contentOf w name = .ok text) :
    errorIn? w name = syntaxError? text := by
  unfold errorIn? syntaxError?
  rw [h]
  dsimp only
  cases (Reader.start.parse text).2 with
  | ok trees => rfl
  | error e => rfl

/-- The remarks on checked files are one verdict after another. -/
theorem checkRemarks_map (w : W) (chatty : Bool) (names : List Bytes) :
    checkRemarks chatty names (names.map (errorIn? w)) = names.filterMap (verdictOn w chatty) := by
  induction names with
  | nil => rfl
  | cons name rest ih =>
    rw [List.map_cons, List.filterMap_cons, verdictOn]
    cases errorIn? w name with
    | some error => rw [checkRemarks, ih]
    | none =>
      rw [checkRemarks, ih]
      cases chatty <;> rfl

/-- The refusals among the verdicts on files are those of the files with an error. -/
theorem filterMap_refusal?_verdicts (w : W) (chatty : Bool) (names : List Bytes) :
    ((names.filterMap (verdictOn w chatty)).map Event.remark).filterMap refusal? =
      names.filterMap fun name => (errorIn? w name).map fun error => (name, error) := by
  rw [List.filterMap_map, List.filterMap_filterMap]
  refine congrArg (List.filterMap · names) (funext fun name => ?_)
  unfold verdictOn
  cases errorIn? w name with
  | some error => rfl
  | none => cases chatty <;> rfl

/-! ## What the tasks leave -/

namespace Group

/-- Once every task has ended without an error, each slot holds what there is to say against
its own file, and each file can be read. -/
theorem Sound.slots_eq {w : W} {names : List Bytes} {g : Group W} (h : Sound w names g)
    (hfinished : g.Finished) (hnone : g.failure = none) :
    (∀ name ∈ names, ∃ text, contentOf w name = .ok text) ∧
      g.slots = names.map (errorIn? w) := by
  have htask : ∀ {i : Nat} {name : Bytes}, names[i]? = some name →
      ∃ text, contentOf w name = .ok text ∧ g.slots[i]? = some (syntaxError? text) := by
    intro i name hname
    have hlt : i < g.stages.length := by
      rw [h.stages]
      exact (List.getElem?_eq_some_iff.mp hname).1
    have hended : g.stages[i]? = some .ended := by
      rw [List.getElem?_eq_getElem hlt, hfinished _ (List.getElem_mem hlt)]
    rcases h.tasks hname hended with hfailure | hslot
    · exact absurd hnone hfailure
    · exact hslot
  constructor
  · intro name hmem
    obtain ⟨i, hname⟩ := List.getElem?_of_mem hmem
    obtain ⟨text, hcontent, _⟩ := htask hname
    exact ⟨text, hcontent⟩
  · refine List.ext_getElem? fun i => ?_
    rw [List.getElem?_map]
    cases hname : names[i]? with
    | none =>
      have hlen := List.getElem?_eq_none_iff.mp hname
      rw [← h.slots] at hlen
      exact List.getElem?_eq_none hlen
    | some name =>
      obtain ⟨text, hcontent, hslot⟩ := htask hname
      rw [hslot, Option.map_some, errorIn?_of_content hcontent]

/-- If every file can be read, no error is recorded. -/
theorem Sound.failure_of_readable {w : W} {names : List Bytes} {g : Group W}
    (h : Sound w names g) (hreadable : ∀ name ∈ names, ∃ text, contentOf w name = .ok text) :
    g.failure = none := by
  cases hfailure : g.failure with
  | none => rfl
  | some error =>
    obtain ⟨name, hmem, message, _, hcontent⟩ := h.failure hfailure
    obtain ⟨text, hok⟩ := hreadable name hmem
    cases hcontent.symm.trans hok

/-- If some file cannot be read, the error that is recorded is that of one such file. -/
theorem Sound.failure_of_unreadable {w : W} {names : List Bytes} {g : Group W}
    (h : Sound w names g) (hfinished : g.Finished)
    (hunreadable : ∃ name ∈ names, ∃ message, contentOf w name = .error message) :
    ∃ name ∈ names, ∃ message, contentOf w name = .error message ∧
      g.failure = some (.file message) := by
  cases hfailure : g.failure with
  | some error =>
    obtain ⟨name, hmem, message, rfl, hcontent⟩ := h.failure hfailure
    exact ⟨name, hmem, message, hcontent, rfl⟩
  | none =>
    obtain ⟨name, hmem, message, hcontent⟩ := hunreadable
    obtain ⟨text, hok⟩ := (h.slots_eq hfinished hfailure).1 name hmem
    cases hcontent.symm.trans hok

/-- The code is zero exactly if every file can be opened and read and its text is a source. -/
theorem Sound.code_eq_zero_iff {w : W} {names : List Bytes} {g : Group W} (h : Sound w names g)
    (hfinished : g.Finished) (chatty : Bool) :
    (g.result chatty names).code = 0 ↔ ∀ name ∈ names, ∃ text trees,
      contentOf w name = .ok text ∧ (Reader.start.parse text).2 = .ok trees := by
  cases hfailure : g.failure with
  | some error =>
    obtain ⟨name, hmem, message, _, hcontent⟩ := h.failure hfailure
    rw [result, findings, hfailure]
    refine ⟨fun hcode => absurd hcode Nat.one_ne_zero, fun hall => ?_⟩
    obtain ⟨text, _, hok, _⟩ := hall name hmem
    cases hcontent.symm.trans hok
  | none =>
    obtain ⟨hread, hslots⟩ := h.slots_eq hfinished hfailure
    have hcode : (g.result chatty names).code = 0 ↔ ∀ name ∈ names, errorIn? w name = none := by
      rw [result, findings, hfailure, hslots]
      simp [checked]
    rw [hcode]
    refine forall_congr' fun name => forall_congr' fun hmem => ?_
    obtain ⟨text, hcontent⟩ := hread name hmem
    rw [errorIn?_of_content hcontent, hcontent]
    refine (syntaxError?_eq_none_iff text).trans ⟨?_, ?_⟩
    · rintro ⟨trees, hparse⟩
      exact ⟨text, trees, rfl, hparse⟩
    · rintro ⟨other, trees, hother, hparse⟩
      cases hother
      exact ⟨trees, hparse⟩

/-- If every file can be read, each is reported on in order. -/
theorem Sound.stderr_of_readable {w : W} {names : List Bytes} {g : Group W}
    (h : Sound w names g) (hfinished : g.Finished) (chatty : Bool)
    (hreadable : ∀ name ∈ names, ∃ text, contentOf w name = .ok text) :
    (g.result chatty names).stderr = (names.filterMap (verdictOn w chatty)).map .remark := by
  have hnone := h.failure_of_readable hreadable
  rw [result, findings, hnone, (h.slots_eq hfinished hnone).2, ← checkRemarks_map]
  rfl

omit [FileSystem W] in
/-- The error that is recorded is all that is reported. -/
theorem stderr_of_failure {g : Group W} {error : TaskError} (h : g.failure = some error)
    (chatty : Bool) (names : List Bytes) :
    (g.result chatty names).stderr = [.remark (.checkFailed error.message)] := by
  rw [result, findings, h]
  rfl

end Group

/-! ## One file after another -/

theorem readFile_ok {w v : W} {name : Bytes} {src : Source}
    (h : readFile w name = (v, .ok src)) :
    ∃ u input, openStage w name = (u, .opened input) ∧ readStage u input = (v, .loaded src) := by
  unfold readFile at h
  split at h
  · cases h
  · cases h
  · next u input hopen =>
    refine ⟨u, input, by rw [openStage, hopen], ?_⟩
    split at h
    · next hnext =>
      cases h
      rw [readStage, hnext]
    all_goals cases h

theorem readFile_error {w v : W} {name message : Bytes}
    (h : readFile w name = (v, .error message)) :
    openStage w name = (v, .failing (.file message)) ∨
      ∃ u input, openStage w name = (u, .opened input) ∧
        readStage u input = (v, .failing (.file message)) := by
  unfold readFile at h
  split at h
  · next hopen =>
    cases h
    exact .inl (by rw [openStage, hopen])
  · next hopen =>
    cases h
    exact .inl (by rw [openStage, hopen])
  · next u input hopen =>
    refine .inr ⟨u, input, by rw [openStage, hopen], ?_⟩
    split at h
    · cases h
    all_goals
      next hnext =>
      cases h
      rw [readStage, hnext]

namespace Group

/-- Some schedule leads from one state of the group to another. -/
def Reaches (names : List Bytes) (g last : Group W) : Prop :=
  ∃ schedule, g.run names schedule = some last

theorem Reaches.refl (names : List Bytes) (g : Group W) : Reaches names g g := ⟨[], rfl⟩

/-- The task after some others does a step. -/
theorem Reaches.act {before after : List Bytes} {name : Bytes} {g next last : Group W}
    {front back : List Stage} {stage : Stage} (hstages : g.stages = front ++ stage :: back)
    (hlength : front.length = before.length) (hact : g.act front.length name stage = some next)
    (h : Reaches (before ++ name :: after) next last) :
    Reaches (before ++ name :: after) g last := by
  obtain ⟨schedule, hrun⟩ := h
  have hname : (before ++ name :: after)[front.length]? = some name := by
    rw [hlength, List.getElem?_append_right (Nat.le_refl _), Nat.sub_self]
    rfl
  have hstage : g.stages[front.length]? = some stage := by
    rw [hstages, List.getElem?_append_right (Nat.le_refl _), Nat.sub_self]
    rfl
  refine ⟨front.length :: schedule, ?_⟩
  rw [Group.run, advance_eq hname hstage, hact]
  exact hrun

omit [FileSystem W] in
theorem put_after (w : W) (front back : List Stage) (stage new : Stage)
    (slots : List (Option SyntaxError)) (failure : Option TaskError) (cancelled : Bool) :
    (Group.mk w (front ++ stage :: back) slots failure cancelled).put front.length new =
      ⟨w, front ++ new :: back, slots, failure, cancelled⟩ := by
  simp only [put, List.set_append_right _ _ (Nat.le_refl _), Nat.sub_self, List.set_cons_zero]

section InOrder

variable {before after : List Bytes} {name : Bytes} {front back : List Stage}
  {slots : List (Option SyntaxError)} {last : Group W}

theorem Reaches.start_task {w : W} (hlength : front.length = before.length)
    (h : Reaches (before ++ name :: after)
      ⟨w, front ++ .started :: back, slots, none, false⟩ last) :
    Reaches (before ++ name :: after) ⟨w, front ++ .waiting :: back, slots, none, false⟩ last := by
  refine Reaches.act rfl hlength ?_ h
  simp only [Group.act, put_after, Bool.false_eq_true, if_false]

theorem Reaches.open_file {w v : W} {stage : Stage} (hlength : front.length = before.length)
    (hopen : openStage w name = (v, stage))
    (h : Reaches (before ++ name :: after) ⟨v, front ++ stage :: back, slots, none, false⟩ last) :
    Reaches (before ++ name :: after) ⟨w, front ++ .started :: back, slots, none, false⟩ last := by
  refine Reaches.act rfl hlength ?_ h
  simp only [Group.act, hopen, put_after]

theorem Reaches.read_file {w v : W} {input : Input} {stage : Stage}
    (hlength : front.length = before.length) (hread : readStage w input = (v, stage))
    (h : Reaches (before ++ name :: after) ⟨v, front ++ stage :: back, slots, none, false⟩ last) :
    Reaches (before ++ name :: after)
      ⟨w, front ++ .opened input :: back, slots, none, false⟩ last := by
  refine Reaches.act rfl hlength ?_ h
  simp only [Group.act, hread, put_after]

/-- A task that fails first records its error and cancels the group. -/
theorem Reaches.fail_task {w : W} {error : TaskError} (hlength : front.length = before.length)
    (h : Reaches (before ++ name :: after)
      ⟨w, front ++ .ended :: back, slots, some error, true⟩ last) :
    Reaches (before ++ name :: after)
      ⟨w, front ++ .failing error :: back, slots, none, false⟩ last := by
  have hcancel : Reaches (before ++ name :: after)
      ⟨w, front ++ .recorded :: back, slots, some error, false⟩ last := by
    refine Reaches.act rfl hlength ?_ h
    simp only [Group.act, put_after]
  refine Reaches.act rfl hlength ?_ hcancel
  simp only [Group.act, put_after]

/-- A task that can read its file fills its slot. -/
theorem Reaches.check_file {w v : W} {src : Source} {errors more : List (Option SyntaxError)}
    (hlength : front.length = before.length) (herrors : errors.length = before.length)
    (hread : readFile w name = (v, .ok src))
    (h : Reaches (before ++ name :: after)
      ⟨v, front ++ .ended :: back, errors ++ syntaxError? src.text :: more, none, false⟩ last) :
    Reaches (before ++ name :: after)
      ⟨w, front ++ .waiting :: back, errors ++ none :: more, none, false⟩ last := by
  obtain ⟨u, input, hopen, hload⟩ := readFile_ok hread
  refine .start_task hlength (.open_file hlength hopen (.read_file hlength hload ?_))
  refine Reaches.act rfl hlength ?_ h
  have hslots : (errors ++ none :: more).set front.length (syntaxError? src.text) =
      errors ++ syntaxError? src.text :: more := by
    rw [hlength, ← herrors, List.set_append_right _ _ (Nat.le_refl _), Nat.sub_self,
      List.set_cons_zero]
  simp only [Group.act, hslots, put_after]

/-- A task that cannot read its file fails. -/
theorem Reaches.miss_file {w v : W} {message : Bytes} (hlength : front.length = before.length)
    (hread : readFile w name = (v, .error message))
    (h : Reaches (before ++ name :: after)
      ⟨v, front ++ .ended :: back, slots, some (.file message), true⟩ last) :
    Reaches (before ++ name :: after) ⟨w, front ++ .waiting :: back, slots, none, false⟩ last := by
  refine .start_task hlength ?_
  rcases readFile_error hread with hopen | ⟨u, input, hopen, hload⟩
  · exact .open_file hlength hopen (.fail_task hlength h)
  · exact .open_file hlength hopen (.read_file hlength hload (.fail_task hlength h))

end InOrder

/-- Once the group is cancelled, the tasks that have not started end without a look at their
files. -/
theorem exists_reaches_of_cancelled (w : W) (slots : List (Option SyntaxError)) (error : TaskError)
    (rest before : List Bytes) (front : List Stage) (hlength : front.length = before.length)
    (hended : ∀ stage ∈ front, stage = .ended) :
    ∃ stages : List Stage, (∀ stage ∈ stages, stage = .ended) ∧
      Reaches (before ++ rest)
        ⟨w, front ++ rest.map fun _ => .waiting, slots, some error, true⟩
        ⟨w, stages, slots, some error, true⟩ := by
  induction rest generalizing before front with
  | nil => exact ⟨front, hended, by simpa using Reaches.refl _ _⟩
  | cons name rest ih =>
    obtain ⟨stages, hstages, hreach⟩ := ih (before ++ [name]) (front ++ [.ended])
      (by simpa using hlength) (by simpa [or_imp, forall_and] using hended)
    rw [List.append_assoc, List.append_assoc, List.singleton_append, List.singleton_append]
      at hreach
    have hend : Reaches (before ++ name :: rest)
        ⟨w, front ++ .failing (.interrupted .canceled) :: rest.map fun _ => .waiting, slots,
          some error, true⟩
        ⟨w, stages, slots, some error, true⟩ := by
      refine Reaches.act rfl hlength ?_ hreach
      simp only [Group.act, put_after]
    refine ⟨stages, hstages, ?_⟩
    rw [List.map_cons]
    refine Reaches.act rfl hlength ?_ hend
    simp only [Group.act, put_after, if_true]

/-- The schedule that takes the tasks in order leads to what checking one file after another
gives. -/
theorem exists_reaches_checkAll (rest before : List Bytes) (w : W) (front : List Stage)
    (errors : List (Option SyntaxError)) (hlength : front.length = before.length)
    (herrors : errors.length = before.length) (hended : ∀ stage ∈ front, stage = .ended) :
    ∃ last : Group W, last.Finished ∧
      Reaches (before ++ rest)
        ⟨w, front ++ rest.map fun _ => .waiting, errors ++ rest.map fun _ => none, none, false⟩
        last ∧
      last.world = (checkAll w rest).1 ∧
      last.findings = (checkAll w rest).2.map (errors ++ ·) := by
  induction rest generalizing before w front errors with
  | nil =>
    refine ⟨⟨w, front, errors, none, false⟩, hended, ?_, rfl, ?_⟩
    · simpa using Reaches.refl _ _
    · simp only [findings, checkAll, Except.map, List.append_nil]
  | cons name rest ih =>
    rw [List.map_cons, List.map_cons]
    have hsnoc : ∀ stage ∈ front ++ [.ended], stage = Stage.ended := by
      simpa [or_imp, forall_and] using hended
    rcases hread : readFile w name with ⟨v, message | src⟩
    · obtain ⟨stages, hstages, hreach⟩ := exists_reaches_of_cancelled v
        (errors ++ none :: rest.map fun _ => none) (.file message) rest (before ++ [name])
        (front ++ [.ended]) (by simpa using hlength) hsnoc
      rw [List.append_assoc, List.append_assoc, List.singleton_append, List.singleton_append]
        at hreach
      refine ⟨⟨v, stages, errors ++ none :: rest.map fun _ => none, some (.file message), true⟩,
        hstages, .miss_file hlength hread hreach, ?_⟩
      rw [checkAll, hread]
      exact ⟨rfl, rfl⟩
    · obtain ⟨last, hfinished, hreach, hworld, hfindings⟩ := ih (before ++ [name]) v
        (front ++ [.ended]) (errors ++ [syntaxError? src.text]) (by simpa using hlength)
        (by simpa using herrors) hsnoc
      simp only [List.append_assoc, List.singleton_append] at hreach hfindings
      refine ⟨last, hfinished, .check_file hlength herrors hread hreach, ?_⟩
      rw [hworld, hfindings, checkAll, hread]
      dsimp only
      rcases checkAll v rest with ⟨u, error | more⟩
      · exact ⟨rfl, rfl⟩
      · exact ⟨rfl, rfl⟩

/-- The verdict does not depend on the schedule.  Each schedule ends, after at most five steps
for each file, and no task is left waiting for ever.  Then the code is zero exactly if every
file can be opened and read and its text is a source.  If all can be read, the slots hold the
error of each, the refusals reported are those of the files whose text is no source, each once,
with its own error and in order, and nothing else is reported but the files that have passed,
if remarks are asked for.  If some cannot be read, the error of one such file is recorded and is
all that is reported, and never that a task was cancelled.  To check one file after another is
one of the schedules. -/
theorem verdict_on_every_schedule (w : W) (names : List Bytes) (chatty : Bool)
    (apart : Apart w names) :
    (∀ (schedule : List Nat) (g : Group W), (start w names).run names schedule = some g →
      schedule.length ≤ 5 * names.length ∧
      (g.Finished ∨ ∃ i next, g.advance names i = some next) ∧
      (g.Finished →
        ((g.result chatty names).code = 0 ↔ ∀ name ∈ names, ∃ text trees,
          contentOf w name = .ok text ∧ (Reader.start.parse text).2 = .ok trees) ∧
        ((∀ name ∈ names, ∃ text, contentOf w name = .ok text) →
          g.failure = none ∧ g.slots = names.map (errorIn? w) ∧
          (g.result chatty names).refusals =
            names.filterMap (fun name => (errorIn? w name).map fun error => (name, error)) ∧
          (g.result chatty names).stderr =
            (names.filterMap (verdictOn w chatty)).map .remark) ∧
        ((∃ name ∈ names, ∃ message, contentOf w name = .error message) →
          ∃ name ∈ names, ∃ message, contentOf w name = .error message ∧
            g.failure = some (.file message) ∧
            (g.result chatty names).stderr = [.remark (.checkFailed message)]))) ∧
    ∃ (schedule : List Nat) (g : Group W), (start w names).run names schedule = some g ∧
      g.Finished ∧ g.result chatty names = check w chatty none names := by
  constructor
  · intro schedule g hrun
    have hsound := (sound_start w names).run apart hrun
    have hlength := length_add_stepsLeft_le hrun
    rw [stepsLeft_start] at hlength
    refine ⟨by omega, hsound.finished_or_advance, fun hfinished => ?_⟩
    refine ⟨hsound.code_eq_zero_iff hfinished chatty, fun hreadable => ?_, fun hunreadable => ?_⟩
    · have hnone := hsound.failure_of_readable hreadable
      have hstderr := hsound.stderr_of_readable hfinished chatty hreadable
      refine ⟨hnone, (hsound.slots_eq hfinished hnone).2, ?_, hstderr⟩
      rw [Result.refusals, hstderr]
      exact filterMap_refusal?_verdicts w chatty names
    · obtain ⟨name, hmem, message, hcontent, hfailure⟩ :=
        hsound.failure_of_unreadable hfinished hunreadable
      exact ⟨name, hmem, message, hcontent, hfailure, stderr_of_failure hfailure chatty names⟩
  · obtain ⟨last, hfinished, ⟨schedule, hrun⟩, hworld, hfindings⟩ :=
      exists_reaches_checkAll names [] w [] [] rfl rfl (by simp)
    refine ⟨schedule, last, hrun, hfinished, ?_⟩
    rw [result, hworld, hfindings]
    unfold check
    rcases checkAll w names with ⟨v, error | errors⟩
    · rfl
    · rfl

end Group

end Running

/-- Files on a disk have contents of their own, standard input apart. -/
theorem apart_disk {d : Disk} {names : List Bytes}
    (h : ∀ name ∈ names, (d.probe name).toOption ≠ some .pipe) : Apart d names := by
  have hreply : ∀ {α : Type} (e : Disk) (r : Except FileError α), (e.reply r).world = e := by
    intro α e r
    cases r <;> rfl
  refine apart_of_unchanged fun name hname => ⟨hreply _ _, (hreply _ _).trans ?_⟩
  unfold Disk.afterRead
  split
  · next hpipe => exact absurd (congrArg Except.toOption hpipe) (h name hname)
  · rfl

namespace Group

/-- A disk with a source at `b`, texts that are no source at `a` and `c`, no file at `m` and a
directory at `d`. -/
def brokenDisk : Disk :=
  .ofFiles [(ascii "a", ascii "("), (ascii "b", ascii "1 .print"), (ascii "c", ascii "\n)"),
    (ascii "d/x", [])] []

/-- If all the files can be read, the two that are no source are refused, in order; if two of
them cannot, the error of one of these is recorded. -/
theorem verdict_on_every_schedule_broken :
    Apart brokenDisk [ascii "c", ascii "b", ascii "a"] ∧
    (∀ (schedule : List Nat) (g : Group Disk),
      (start brokenDisk [ascii "c", ascii "b", ascii "a"]).run
        [ascii "c", ascii "b", ascii "a"] schedule = some g → g.Finished →
      (g.result false [ascii "c", ascii "b", ascii "a"]).refusals =
        [(ascii "c", ⟨2, .unexpectedClosing⟩), (ascii "a", ⟨1, .unclosed 1⟩)]) ∧
    Apart brokenDisk [ascii "a", ascii "m", ascii "d"] ∧
    ∀ (schedule : List Nat) (g : Group Disk),
      (start brokenDisk [ascii "a", ascii "m", ascii "d"]).run
        [ascii "a", ascii "m", ascii "d"] schedule = some g → g.Finished →
      g.failure = some (.file (ascii "open m: no such file or directory")) ∨
        g.failure = some (.file (ascii "failed to read d: read d: is a directory")) := by
  have hapart : Apart brokenDisk [ascii "a", ascii "m", ascii "d"] :=
    apart_disk (by decide +kernel)
  have hapart' : Apart brokenDisk [ascii "c", ascii "b", ascii "a"] :=
    apart_disk (by decide +kernel)
  have ha : contentOf brokenDisk (ascii "a") = .ok (ascii "(") := rfl
  have hb : contentOf brokenDisk (ascii "b") = .ok (ascii "1 .print") := rfl
  have hc : contentOf brokenDisk (ascii "c") = .ok (ascii "\n)") := rfl
  have hm : contentOf brokenDisk (ascii "m") =
      .error (ascii "open m: no such file or directory") := rfl
  have hd : contentOf brokenDisk (ascii "d") =
      .error (ascii "failed to read d: read d: is a directory") := rfl
  refine ⟨hapart', fun schedule g hrun hfinished => ?_, hapart, fun schedule g hrun hfinished => ?_⟩
  · obtain ⟨_, _, hverdict⟩ :=
      (verdict_on_every_schedule brokenDisk _ false hapart').1 schedule g hrun
    obtain ⟨_, _, hrefusals, _⟩ := (hverdict hfinished).2.1 (by simp [ha, hb, hc])
    rw [hrefusals]
    decide +kernel
  · obtain ⟨_, _, hverdict⟩ :=
      (verdict_on_every_schedule brokenDisk _ false hapart).1 schedule g hrun
    obtain ⟨name, hmem, message, hcontent, hfailure, _⟩ :=
      (hverdict hfinished).2.2 ⟨ascii "m", by simp, _, hm⟩
    simp only [List.mem_cons, List.not_mem_nil, or_false] at hmem
    rcases hmem with rfl | rfl | rfl
    · cases ha.symm.trans hcontent
    · cases hm.symm.trans hcontent
      exact .inl hfailure
    · cases hd.symm.trans hcontent
      exact .inr hfailure

end Group

end Command

end StackScript
