import StackScript.Command
import StackScript.Files.Disk
import StackScript.Proofs.Delivery
import StackScript.Proofs.Leaving
set_option autoImplicit false

/-!
# Exit codes and what is printed

Given files, the command opens all of them, then reads and evaluates one after another in one
session.  It goes on to the next only if one simply ends, so the files that are evaluated are
those up to the first that does not.  Those that are due are the ones up to the first whose
program asks to leave, and the code is zero exactly if each of these ends without an error:
then they are the ones that were evaluated.

The output goes through a buffer, which is flushed after every file but for one that is cut
short, and to a terminal after every line.  What a file writes to the path of standard output
does not pass the buffer, so the output is what is printed only if no file does that.
-/

namespace StackScript

open Command

/-! ## Files in a session -/

namespace Session

variable {W : Type} [FileSystem W]

/-- Reads a file and evaluates its text; there is no outcome if it cannot be read. -/
def fileWith (eval : Session W → Bytes → Session W × Outcome) (s : Session W) (name : Bytes) :
    Session W × Option Outcome :=
  match FileSystem.read s.world name with
  | ⟨w, .ok text, _⟩ =>
    ((eval { s with world := w } text).1, some (eval { s with world := w } text).2)
  | ⟨w, _, _⟩ => ({ s with world := w }, none)

/-- Evaluates a file. -/
def runFile (rounds : Nat) : Session W → Bytes → Session W × Option Outcome :=
  fileWith fun s text => s.eval rounds text

/-- The session after some files. -/
def afterFiles (s : Session W) (rounds : Nat) (names : List Bytes) : Session W :=
  names.foldl (fun s name => (s.runFile rounds name).1) s

/-- How some files end, each in the session that those before it leave. -/
def fileEnds (s : Session W) (rounds : Nat) : List Bytes → List (Option Outcome)
  | [] => []
  | name :: rest =>
    (s.runFile rounds name).2 :: (s.runFile rounds name).1.fileEnds rounds rest

/-- Evaluates a file, keeping a record. -/
def recordedFile (rounds : Nat) :
    Session (Recorded W) → Bytes → Session (Recorded W) × Option Outcome :=
  fileWith fun s text => s.evalBy recordedExec rounds text

/-- The session after some files, with the record of what they printed. -/
def recordedFiles (s : Session (Recorded W)) (rounds : Nat) (names : List Bytes) :
    Session (Recorded W) :=
  names.foldl (fun s name => (s.recordedFile rounds name).1) s

/-- Everything that some files give out to be printed. -/
def printedByFiles (s : Session W) (rounds : Nat) (names : List Bytes) : Bytes :=
  (s.recorded.recordedFiles rounds names).world.seen

/-- Whether evaluating a file begins the instruction to leave, at whatever depth. -/
def leavesDuring (s : Session W) (rounds : Nat) (name : Bytes) : Bool :=
  match FileSystem.read s.world name with
  | ⟨w, .ok text, _⟩ =>
    ({ s with world := w }.begunBy (.eval s.interrupt rounds text)).any fun b => decide b.Leaves
  | _ => false

/-- The files up to the first whose program asks to leave, and with it. -/
def filesDue (s : Session W) (rounds : Nat) : List Bytes → List Bytes
  | [] => []
  | name :: rest =>
    if s.leavesDuring rounds name then [name]
    else name :: (s.runFile rounds name).1.filesDue rounds rest

/-- The files up to the first that does not simply end, and with it. -/
def filesRun (s : Session W) (rounds : Nat) : List Bytes → List Bytes
  | [] => []
  | name :: rest =>
    match s.runFile rounds name with
    | (t, some .done) => name :: t.filesRun rounds rest
    | _ => [name]

/-- A file is read and evaluated without an error. -/
def EndsWell (e : Option Outcome) : Prop := e = some .done ∨ e = some .exit

/-- A program asks to leave exactly if that is how its file ends. -/
theorem leavesDuring_iff (s : Session W) (rounds : Nat) (name : Bytes) :
    s.leavesDuring rounds name = true ↔ (s.runFile rounds name).2 = some .exit := by
  unfold leavesDuring runFile fileWith
  rcases FileSystem.read s.world name with ⟨w, access, effect⟩
  cases access with
  | ok text =>
    have hcall := call_eq_exit_iff { s with world := w } (.eval s.interrupt rounds text)
    simp only [List.any_eq_true, decide_eq_true_eq, Option.some.injEq]
    exact hcall.symm
  | failed error => simp
  | crashed message => simp

theorem filesRun_of_done {s t : Session W} {rounds : Nat} {name : Bytes}
    (h : s.runFile rounds name = (t, some .done)) (rest : List Bytes) :
    s.filesRun rounds (name :: rest) = name :: t.filesRun rounds rest := by
  rw [filesRun, h]

theorem filesRun_of_ne_done {s t : Session W} {rounds : Nat} {name : Bytes} {e : Option Outcome}
    (h : s.runFile rounds name = (t, e)) (he : e ≠ some .done) (rest : List Bytes) :
    s.filesRun rounds (name :: rest) = [name] := by
  unfold filesRun
  split
  · next hdone =>
    cases h.symm.trans hdone
    exact absurd rfl he
  · rfl

/-- The files that are evaluated are among those that are due, and if all of the one or of the
other end well, they are the same. -/
theorem filesRun_filesDue (rounds : Nat) (names : List Bytes) :
    ∀ s : Session W, s.filesRun rounds names <+: s.filesDue rounds names ∧
      ((∀ e ∈ s.fileEnds rounds (s.filesRun rounds names), EndsWell e) ↔
        ∀ e ∈ s.fileEnds rounds (s.filesDue rounds names), EndsWell e) ∧
      ((∀ e ∈ s.fileEnds rounds (s.filesRun rounds names), EndsWell e) →
        s.filesRun rounds names = s.filesDue rounds names) := by
  induction names with
  | nil => exact fun s => ⟨List.prefix_refl _, Iff.rfl, fun _ => rfl⟩
  | cons name rest ih =>
    intro s
    rcases hfile : s.runFile rounds name with ⟨t, e⟩
    by_cases hexit : e = some .exit
    · have hleaves : s.leavesDuring rounds name = true := by
        rw [leavesDuring_iff, hfile]
        exact hexit
      have hrun : s.filesRun rounds (name :: rest) = [name] :=
        filesRun_of_ne_done hfile (by rw [hexit]; rintro ⟨⟩) rest
      have hdue : s.filesDue rounds (name :: rest) = [name] := by rw [filesDue, if_pos hleaves]
      rw [hrun, hdue]
      exact ⟨List.prefix_refl _, Iff.rfl, fun _ => rfl⟩
    · have hstays : ¬ s.leavesDuring rounds name = true := by
        rw [leavesDuring_iff, hfile]
        exact hexit
      have hdue : s.filesDue rounds (name :: rest) = name :: t.filesDue rounds rest := by
        rw [filesDue, if_neg hstays, hfile]
      by_cases hdone : e = some .done
      · subst hdone
        obtain ⟨hsub, hiff, heq⟩ := ih t
        rw [hdue, filesRun_of_done hfile]
        simp only [fileEnds, hfile, List.forall_mem_cons]
        refine ⟨List.cons_prefix_cons.2 ⟨rfl, hsub⟩, and_congr_right fun _ => hiff, ?_⟩
        rintro ⟨_, hall⟩
        rw [heq hall]
      · have hbad : ¬ EndsWell e := not_or.2 ⟨hdone, hexit⟩
        rw [hdue, filesRun_of_ne_done hfile hdone]
        simp only [fileEnds, hfile, List.forall_mem_cons]
        refine ⟨List.cons_prefix_cons.2 ⟨rfl, List.nil_prefix⟩, ?_, ?_⟩
        · exact ⟨fun h => absurd h.1 hbad, fun h => absurd h.1 hbad⟩
        · exact fun h => absurd h.1 hbad

/-! ## What they print -/

/-- The output accounts for everything printed, and its far end is somewhere and takes it
all. -/
def HandsOn (out : Output) (printed : Bytes) : Prop := out.Carries none printed ∧ out ≠ .discard

theorem follows_handsOn : Output.Follows HandsOn where
  writeLine h text := ⟨h.1.writeLine text, Output.writeLine_ne_discard h.2 text⟩
  flush h := ⟨h.1.flush, Output.flush_ne_discard h.2⟩

theorem HandsOn.received_prefix {out : Output} {printed : Bytes} (h : HandsOn out printed) :
    out.received <+: printed := by
  obtain ⟨hcarries, hsomewhere⟩ := h
  have hbuffer : ∀ b : Buffer, b.Carries none printed → b.sink.received <+: printed := by
    intro b hb
    cases hb with
    | working failure bounded all => exact ⟨b.held, all⟩
    | failed most failure limited short received => cases limited
  cases out with
  | memory written =>
    have hall := hcarries.2.resolve_left hsomewhere
    exact ⟨[], (List.append_nil _).trans hall⟩
  | discard => exact absurd rfl hsomewhere
  | buffered b => exact hbuffer b hcarries
  | byLine b => exact hbuffer b hcarries
  | brittle written =>
    have hall := hcarries.2.resolve_left hsomewhere
    exact ⟨[], (List.append_nil _).trans hall⟩

/-- A call that is not cut short leaves everything printed received. -/
theorem received_of_closes {last : Output} {printed : Bytes} {outcome : Outcome}
    (h : outcome.Closes HandsOn last printed) (horderly : outcome.isOrderly = true) :
    last.received = printed := by
  obtain ⟨out, ⟨hcarries, hsomewhere⟩, rfl⟩ := h.exists_flush horderly
  exact hcarries.hasReceived_flush.resolve_left (Output.flush_ne_discard hsomewhere)

/-- A file ends the same if a record is kept. -/
theorem runFile_unobserved (rounds : Nat) (s : Session (Recorded W)) (name : Bytes) :
    s.unobserved.runFile rounds name =
      ((s.recordedFile rounds name).1.unobserved, (s.recordedFile rounds name).2) := by
  have hread : FileSystem.read s.world name =
      (FileSystem.read s.world.world name).observed s.world.seen := rfl
  unfold runFile recordedFile fileWith
  rw [hread, show s.unobserved.world = s.world.world from rfl]
  rcases FileSystem.read s.world.world name with ⟨w, access, effect⟩
  cases access with
  | ok text =>
    have heval := unobtrusive_recordedExec.eval
      { s with world := ⟨w, s.world.seen⟩ } rounds text
    simp only [Reply.observed]
    exact congrArg (fun r => (r.1, some r.2)) heval
  | failed error => rfl
  | crashed message => rfl

/-- The output of a session over recorded files, after some of them: it follows the record, and
everything printed was received if none of them was cut short. -/
def Delivers (ends : List (Option Outcome)) (s : Session (Recorded W)) : Prop :=
  HandsOn s.output s.world.seen ∧
    ((∀ e ∈ ends, ∀ outcome, e = some outcome → outcome.isOrderly = true) →
      s.output.received = s.world.seen)

/-- The step lemma: one more file. -/
theorem Delivers.recordedFile {ends : List (Option Outcome)} {s : Session (Recorded W)}
    (h : Delivers ends s) (rounds : Nat) (name : Bytes) :
    Delivers (ends ++ [(s.recordedFile rounds name).2]) (s.recordedFile rounds name).1 := by
  have hread : FileSystem.read s.world name =
      (FileSystem.read s.world.world name).observed s.world.seen := rfl
  unfold Session.recordedFile fileWith
  rw [hread]
  rcases FileSystem.read s.world.world name with ⟨w, access, effect⟩
  have hunread : Delivers (ends ++ [none]) { s with world := ⟨w, s.world.seen⟩ } :=
    ⟨h.1, fun horderly => h.2 fun e he => horderly e (List.mem_append_left _ he)⟩
  cases access with
  | ok text =>
    have hcloses := follows_handsOn.closes_recordedCall (W := W)
      (s := { s with world := ⟨w, s.world.seen⟩ }) h.1 (.eval s.interrupt rounds text)
    refine ⟨follows_handsOn.of_closes hcloses, fun horderly => ?_⟩
    exact received_of_closes hcloses
      (horderly _ (List.mem_append_right _ (List.mem_singleton_self _)) _ rfl)
  | failed error => exact hunread
  | crashed message => exact hunread

/-- The run lemma: after any files the output follows what they printed. -/
theorem Delivers.recordedFiles (rounds : Nat) (names : List Bytes) :
    ∀ {ends : List (Option Outcome)} {s : Session (Recorded W)}, Delivers ends s →
      (s.recordedFiles rounds names).unobserved = s.unobserved.afterFiles rounds names ∧
      Delivers (ends ++ s.unobserved.fileEnds rounds names) (s.recordedFiles rounds names) := by
  induction names with
  | nil =>
    intro ends s h
    rw [fileEnds, List.append_nil]
    exact ⟨rfl, h⟩
  | cons name rest ih =>
    intro ends s h
    obtain ⟨hsession, hdelivers⟩ := ih (h.recordedFile rounds name)
    have hfile := runFile_unobserved rounds s name
    rw [List.append_assoc] at hdelivers
    simp only [afterFiles, fileEnds, Session.recordedFiles, List.foldl_cons, hfile] at hsession ⊢
    exact ⟨hsession, hdelivers⟩

/-- What is received after some files are the first bytes of what they printed, and all of it
if none of them was cut short. -/
theorem received_afterFiles {s : Session W} (hout : HandsOn s.output []) (rounds : Nat)
    (names : List Bytes) :
    (s.afterFiles rounds names).output.received <+: s.printedByFiles rounds names ∧
      ((∀ e ∈ s.fileEnds rounds names, ∀ outcome, e = some outcome → outcome.isOrderly = true) →
        (s.afterFiles rounds names).output.received = s.printedByFiles rounds names) := by
  have hstart : Delivers [] s.recorded := ⟨hout, fun _ => List.prefix_nil.1 hout.received_prefix⟩
  obtain ⟨hsession, hhands, hall⟩ := hstart.recordedFiles rounds names
  have hsame : (s.afterFiles rounds names).output =
      (s.recorded.recordedFiles rounds names).output := (congrArg Session.output hsession).symm
  rw [hsame]
  exact ⟨hhands.received_prefix, hall⟩

end Session

namespace Command

variable {W : Type} [FileSystem W]

/-! ## The queue of files -/

theorem next_of_text {input : Input} {w v : W} {name text : Bytes} {queue : List Stream}
    {effect : Effect} (hqueue : input.queue = .file name :: queue)
    (hread : FileSystem.read w name = ⟨v, .ok text, effect⟩) :
    ∃ rest : Input, rest.queue = queue ∧ input.next w = (v, rest, .source ⟨name, text⟩) := by
  simp only [Input.next, hqueue, Input.readStream, hread, Input.sourceOf]
  exact ⟨_, rfl, rfl⟩

/-- A file that cannot be read is not evaluated. -/
theorem runSources_of_unread (rounds : Nat) {s : Session W} {input : Input} {v : W} {name : Bytes}
    {queue : List Stream} {access : Access Bytes} {effect : Effect}
    (hqueue : input.queue = .file name :: queue)
    (hread : FileSystem.read s.world name = ⟨v, access, effect⟩)
    (hunread : ∀ text, access ≠ .ok text) :
    s.runFile rounds name = ({ s with world := v }, none) ∧
      ∃ left message, runSources rounds false s input =
        ⟨{ s with world := v }, left, some (.input message)⟩ := by
  have hnext : (∃ left src message, input.next s.world = (v, left, .failed src message)) ∨
      ∃ left message, input.next s.world = (v, left, .crashed message) := by
    simp only [Input.next, hqueue, Input.readStream, hread]
    cases access with
    | ok text => exact absurd rfl (hunread text)
    | failed error => exact .inl ⟨_, _, _, rfl⟩
    | crashed message => exact .inr ⟨_, _, rfl⟩
  constructor
  · rw [Session.runFile, Session.fileWith, hread]
    cases access with
    | ok text => exact absurd rfl (hunread text)
    | failed error => rfl
    | crashed message => rfl
  · rw [runSources]
    rcases hnext with ⟨left, src, message, hnext⟩ | ⟨left, message, hnext⟩
    all_goals
      split
      all_goals
        rename_i hsplit
        cases hnext.symm.trans hsplit
      exact ⟨left, message, rfl⟩

omit [FileSystem W] in
theorem code_finish_stopped (s : Session W) (location : Location) (outcome : Outcome) :
    (finish s (some (.stopped location outcome)) false).code = 0 ↔ outcome = .exit := by
  cases outcome <;> simp [finish, RunError.isExit, Outcome.isExit, Option.filter]

/-- What is to be said of a run over files in a session. -/
def AccountsForFiles (s : Session W) (rounds : Nat) (names : List Bytes) (ran : Ran W) : Prop :=
  ran.session = s.afterFiles rounds (s.filesRun rounds names) ∧
    ((finish ran.session ran.error false).code = 0 ↔
      ∀ e ∈ s.fileEnds rounds (s.filesRun rounds names), Session.EndsWell e)

/-- A file that does not simply end is the last one. -/
theorem accountsForFiles_of_ne_done {s t : Session W} {rounds : Nat} {name : Bytes}
    {e : Option Outcome} (hfile : s.runFile rounds name = (t, e)) (he : e ≠ some .done)
    (rest : List Bytes) {input : Input} {error : Option RunError}
    (hcode : (finish t error false).code = 0 ↔ e = some .exit) :
    AccountsForFiles s rounds (name :: rest) ⟨t, input, error⟩ := by
  unfold AccountsForFiles
  rw [Session.filesRun_of_ne_done hfile he]
  simp only [Session.afterFiles, Session.fileEnds, List.foldl_cons, List.foldl_nil, hfile,
    List.forall_mem_cons, List.not_mem_nil, false_implies, implies_true, and_true]
  refine ⟨trivial, hcode.trans ⟨.inr, ?_⟩⟩
  rintro (hdone | hexit)
  · exact absurd hdone he
  · exact hexit

/-- A run over files evaluates those up to the first that does not simply end. -/
theorem accountsForFiles_runSources (rounds : Nat) (names : List Bytes) :
    ∀ (s : Session W) (input : Input), input.queue = names.map .file →
      AccountsForFiles s rounds names (runSources rounds false s input) := by
  induction names with
  | nil =>
    intro s input hqueue
    have hnext : input.next s.world = (s.world, input, .ended) := by
      simp only [Input.next, hqueue, List.map_nil]
    rw [runSources]
    split
    all_goals
      rename_i hsplit
      cases hnext.symm.trans hsplit
    exact ⟨rfl, by simp [finish, Session.filesRun, Session.fileEnds]⟩
  | cons name rest ih =>
    intro s input hqueue
    rw [List.map_cons] at hqueue
    rcases hread : FileSystem.read s.world name with ⟨v, access, effect⟩
    have hunread : (∀ text, access ≠ .ok text) →
        AccountsForFiles s rounds (name :: rest) (runSources rounds false s input) := by
      intro hnone
      obtain ⟨hfile, left, message, hrun⟩ := runSources_of_unread rounds hqueue hread hnone
      rw [hrun]
      exact accountsForFiles_of_ne_done hfile (by rintro ⟨⟩) rest
        (by simp [finish, RunError.isExit, Option.filter])
    cases access with
    | failed error => exact hunread (by rintro text ⟨⟩)
    | crashed message => exact hunread (by rintro text ⟨⟩)
    | ok text =>
      obtain ⟨left, hleft, hnext⟩ := next_of_text hqueue hread
      rcases heval : ({ s with world := v } : Session W).eval rounds text with ⟨t, outcome⟩
      have hfile : s.runFile rounds name = (t, some outcome) := by
        rw [Session.runFile, Session.fileWith, hread]
        simp only [heval]
      rw [runSources]
      split
      all_goals
        rename_i hsplit
        cases hnext.symm.trans hsplit
      simp only [Bool.false_eq_true, if_false, heval]
      split
      · next hdone =>
        cases hdone
        obtain ⟨hsession, hcode⟩ := ih t left hleft
        unfold AccountsForFiles
        rw [Session.filesRun_of_done hfile]
        simp only [Session.afterFiles, Session.fileEnds, List.foldl_cons, hfile,
          List.forall_mem_cons]
        exact ⟨hsession, hcode.trans ⟨fun h => ⟨.inl rfl, h⟩, fun h => h.2⟩⟩
      · next hstopped hsame =>
        cases hsame
        have hne : outcome ≠ .done := by
          rintro rfl
          exact hstopped rfl
        refine accountsForFiles_of_ne_done hfile (by simpa using hne) rest ?_
        exact (code_finish_stopped t _ outcome).trans (by simp)

/-! ## Opening files -/

/-- The world after some files were opened. -/
def probed (w : W) (names : List Bytes) : W :=
  names.foldl (fun w name => (FileSystem.probe w name).world) w

/-- Whether every one of some files can be opened, one after another. -/
def opensAll (w : W) : List Bytes → Bool
  | [] => true
  | name :: rest =>
    match FileSystem.probe w name with
    | ⟨v, .ok _, _⟩ => opensAll v rest
    | _ => false

theorem openFiles_of_opensAll {names : List Bytes} {w : W} (h : opensAll w names = true) :
    ∃ input, Input.openFiles w names = (probed w names, .ok input) ∧
      input.queue = names.map .file := by
  induction names generalizing w with
  | nil => exact ⟨_, rfl, rfl⟩
  | cons name rest ih =>
    unfold opensAll at h
    rcases hprobe : FileSystem.probe w name with ⟨v, access, effect⟩
    rw [hprobe] at h
    cases access with
    | ok a =>
      obtain ⟨input, hopen, hqueue⟩ := ih h
      refine ⟨{ input with queue := .file name :: input.queue }, ?_, ?_⟩
      · simp only [Input.openFiles, hprobe, hopen, probed, List.foldl_cons]
      · rw [List.map_cons, hqueue]
    | failed error => cases h
    | crashed message => cases h

/-- If some file cannot be opened, there is an error, and nothing happened but that files were
opened. -/
theorem openFiles_of_not_opensAll {names : List Bytes} {w : W} (h : opensAll w names = false) :
    ∃ front, front <+: names ∧
      ((∃ error, Input.openFiles w names = (probed w front, .failed error)) ∨
        ∃ message, Input.openFiles w names = (probed w front, .crashed message)) := by
  induction names generalizing w with
  | nil => cases h
  | cons name rest ih =>
    unfold opensAll at h
    rcases hprobe : FileSystem.probe w name with ⟨v, access, effect⟩
    rw [hprobe] at h
    have hprobed : ∀ front, probed w (name :: front) = probed v front := by
      intro front
      rw [probed, List.foldl_cons, hprobe, probed]
    have hsingle : [name] <+: name :: rest := List.cons_prefix_cons.2 ⟨rfl, List.nil_prefix⟩
    cases access with
    | ok a =>
      obtain ⟨front, hfront, hopen⟩ := ih h
      refine ⟨name :: front, List.cons_prefix_cons.2 ⟨rfl, hfront⟩, ?_⟩
      rw [hprobed]
      rcases hopen with ⟨error, hopen⟩ | ⟨message, hopen⟩
      · exact .inl ⟨error, by simp only [Input.openFiles, hprobe, hopen]⟩
      · exact .inr ⟨message, by simp only [Input.openFiles, hprobe, hopen]⟩
    | failed error =>
      refine ⟨[name], hsingle, .inl ⟨error, ?_⟩⟩
      rw [hprobed]
      simp only [Input.openFiles, hprobe, probed, List.foldl_nil]
    | crashed message =>
      refine ⟨[name], hsingle, .inr ⟨message, ?_⟩⟩
      rw [hprobed]
      simp only [Input.openFiles, hprobe, probed, List.foldl_nil]

/-! ## The whole command -/

/-- The session in which files are evaluated that the command was given and has opened. -/
def sessionOver (terminal : Bool) (w : W) (names : List Bytes) : Session W :=
  sessionFor terminal (probed w names) { Settings.default with names := names }

theorem handsOn_standardOutput (terminal : Bool) :
    Session.HandsOn (standardOutput terminal) [] := by
  cases terminal with
  | false => exact ⟨Buffer.carries_ofSink none true, by rintro ⟨⟩⟩
  | true => exact ⟨Buffer.carries_ofSink none true, by rintro ⟨⟩⟩

omit [FileSystem W] in
/-- Where files put nothing on the output, it is what the session has handed on. -/
theorem outputText_of_not_echoing {s : Session W} (h : echoes s = []) :
    outputText s = s.output.received := by
  rw [outputText, h, weave]

theorem run_eq_runProgram (rounds : Nat) (terminal : Bool) {name : Bytes} (rest : List Bytes)
    (w : W) (h : name.head? ≠ some 45) :
    run rounds terminal (name :: rest) w =
      runProgram rounds terminal { Settings.default with names := name :: rest } w := by
  have hoperand : Argument.ofBytes name = .operand := by
    unfold Argument.ofBytes
    split
    all_goals first | rfl | exact absurd rfl h
  have hflags : parseFlags Settings.default (name :: rest) =
      .ok { Settings.default with names := name :: rest } := by
    rw [parseFlags, hoperand]
  rw [run, hflags]
  rfl

/-- Files that cannot all be opened are not evaluated. -/
theorem runProgram_of_not_opensAll (rounds : Nat) (terminal : Bool) {names : List Bytes} {w : W}
    (hnames : names ≠ []) (h : opensAll w names = false) :
    ∃ front, front <+: names ∧
      (runProgram rounds terminal { Settings.default with names := names } w).world =
        probed w front ∧
      (runProgram rounds terminal { Settings.default with names := names } w).code = 1 ∧
      (runProgram rounds terminal { Settings.default with names := names } w).stdout = [] := by
  obtain ⟨front, hfront, hopen⟩ := openFiles_of_not_opensAll h
  have hinput : inputFor w { Settings.default with names := names } = Input.openFiles w names := by
    simp [inputFor, hnames]
  refine ⟨front, hfront, ?_⟩
  have hnothing : ∀ s : Session W, s = sessionFor terminal (probed w front)
      { Settings.default with names := names } → outputText s = [] := by
    rintro s rfl
    cases terminal <;> rfl
  unfold runProgram
  rw [hinput]
  rcases hopen with ⟨error, hopen⟩ | ⟨message, hopen⟩
  · rw [hopen]
    exact ⟨rfl, rfl, hnothing _ rfl⟩
  · rw [hopen]
    exact ⟨rfl, rfl, hnothing _ rfl⟩

/-- Files that can be opened are evaluated up to the first that does not simply end. -/
theorem runProgram_of_opensAll (rounds : Nat) (terminal : Bool) {names : List Bytes} {w : W}
    (hnames : names ≠ []) (h : opensAll w names = true) :
    ∃ ran, AccountsForFiles (sessionOver terminal w names) rounds names ran ∧
      (runProgram rounds terminal { Settings.default with names := names } w).world =
        ran.session.world ∧
      (runProgram rounds terminal { Settings.default with names := names } w).code =
        (finish ran.session ran.error false).code ∧
      (runProgram rounds terminal { Settings.default with names := names } w).stdout =
        outputText ran.session := by
  obtain ⟨input, hopen, hqueue⟩ := openFiles_of_opensAll h
  have hinput : inputFor w { Settings.default with names := names } =
      (probed w names, .ok input) := by
    rw [← hopen]
    simp [inputFor, hnames]
  refine ⟨runSources rounds false (sessionOver terminal w names) input,
    accountsForFiles_runSources rounds names _ input hqueue, ?_⟩
  unfold runProgram
  rw [hinput]
  exact ⟨rfl, rfl, rfl⟩

/-- The exit code and the output of the command, given files and no flags, whether or not
standard output is a terminal.  If they cannot all be opened, nothing happens but that some were
opened, nothing is printed and the code is one.  Otherwise the code is zero exactly if the files
that are due, up to the first whose program asks to leave at whatever depth, are read and
evaluated without an error; then these are the ones that were evaluated, and they are always
among them.  If the evaluated files write nothing to the path of standard output, the output is
what they printed, and it is complete unless the last of them was cut short. -/
theorem run_code_and_output (rounds : Nat) (terminal : Bool) (name : Bytes) (rest : List Bytes)
    (w : W) (h : name.head? ≠ some 45) :
    (opensAll w (name :: rest) = false →
      (run rounds terminal (name :: rest) w).code = 1 ∧
      (run rounds terminal (name :: rest) w).stdout = [] ∧
      ∃ front, front <+: name :: rest ∧
        (run rounds terminal (name :: rest) w).world = probed w front) ∧
    (opensAll w (name :: rest) = true → ∀ s, s = sessionOver terminal w (name :: rest) →
      ∀ evaluated, evaluated = s.filesRun rounds (name :: rest) →
      ((run rounds terminal (name :: rest) w).code = 0 ↔
        ∀ e ∈ s.fileEnds rounds (s.filesDue rounds (name :: rest)), Session.EndsWell e) ∧
      evaluated <+: s.filesDue rounds (name :: rest) ∧
      ((run rounds terminal (name :: rest) w).code = 0 →
        evaluated = s.filesDue rounds (name :: rest)) ∧
      (run rounds terminal (name :: rest) w).world = (s.afterFiles rounds evaluated).world ∧
      (echoes (s.afterFiles rounds evaluated) = [] →
        (run rounds terminal (name :: rest) w).stdout <+: s.printedByFiles rounds evaluated ∧
        ((∀ e ∈ s.fileEnds rounds evaluated, ∀ outcome, e = some outcome →
            outcome.isOrderly = true) →
          (run rounds terminal (name :: rest) w).stdout =
            s.printedByFiles rounds evaluated))) := by
  rw [run_eq_runProgram rounds terminal rest w h]
  refine ⟨fun hopen => ?_, ?_⟩
  · obtain ⟨front, hfront, hworld, hcode, hstdout⟩ :=
      runProgram_of_not_opensAll rounds terminal (List.cons_ne_nil name rest) hopen
    exact ⟨hcode, hstdout, front, hfront, hworld⟩
  · rintro hopen s rfl evaluated rfl
    obtain ⟨ran, ⟨hsession, hwell⟩, hworld, hcode, hstdout⟩ :=
      runProgram_of_opensAll rounds terminal (List.cons_ne_nil name rest) hopen
    obtain ⟨hsub, hiff, heq⟩ :=
      Session.filesRun_filesDue rounds (name :: rest) (sessionOver terminal w (name :: rest))
    have hreceived := Session.received_afterFiles (s := sessionOver terminal w (name :: rest))
      (handsOn_standardOutput terminal) rounds
      ((sessionOver terminal w (name :: rest)).filesRun rounds (name :: rest))
    rw [hcode, hworld, hstdout, hsession]
    rw [hsession] at hwell
    refine ⟨hwell.trans hiff, hsub, fun hzero => heq (hwell.mp hzero), rfl, fun hsilent => ?_⟩
    rw [outputText_of_not_echoing hsilent]
    exact hreceived

/-- Three files, of which the second leaves inside a list. -/
def leavingDisk : Disk :=
  .ofFiles [(ascii "a", ascii "1 .print"), (ascii "b", ascii "2 .print (.exit) $"),
    (ascii "c", ascii ".die")] []

/-- The file after the one that leaves is not evaluated, the code is zero, and a terminal shows
what the first two printed. -/
theorem run_code_and_output_leaving :
    (ascii "a").head? ≠ some 45 ∧
      opensAll leavingDisk [ascii "a", ascii "b", ascii "c"] = true ∧
      (run 0 true [ascii "a", ascii "b", ascii "c"] leavingDisk).code = 0 ∧
      (sessionOver true leavingDisk [ascii "a", ascii "b", ascii "c"]).filesRun 0
        [ascii "a", ascii "b", ascii "c"] = [ascii "a", ascii "b"] ∧
      (run 0 true [ascii "a", ascii "b", ascii "c"] leavingDisk).stdout = ascii "1\n2\n" := by
  have hname : (ascii "a").head? ≠ some 45 := by decide +kernel
  have hopen : opensAll leavingDisk [ascii "a", ascii "b", ascii "c"] = true := by decide +kernel
  have hcode : (run 0 true [ascii "a", ascii "b", ascii "c"] leavingDisk).code = 0 := by
    decide +kernel
  have hdue : (sessionOver true leavingDisk [ascii "a", ascii "b", ascii "c"]).filesDue 0
      [ascii "a", ascii "b", ascii "c"] = [ascii "a", ascii "b"] := by decide +kernel
  obtain ⟨_, _, hrun, _, houtput⟩ := (run_code_and_output 0 true (ascii "a")
    [ascii "b", ascii "c"] leavingDisk hname).2 hopen _ rfl _ rfl
  have hevaluated := (hrun hcode).trans hdue
  rw [hevaluated] at houtput
  have hends : ∀ e ∈ (sessionOver true leavingDisk [ascii "a", ascii "b", ascii "c"]).fileEnds 0
      [ascii "a", ascii "b"], ∀ outcome, e = some outcome → outcome.isOrderly = true := by
    have hall : ((sessionOver true leavingDisk [ascii "a", ascii "b", ascii "c"]).fileEnds 0
        [ascii "a", ascii "b"]).all (fun e => e.all Outcome.isOrderly) = true := by decide +kernel
    rintro e he outcome rfl
    exact List.all_eq_true.1 hall _ he
  refine ⟨hname, hopen, hcode, hevaluated, ((houtput (by decide +kernel)).2 hends).trans ?_⟩
  decide +kernel

/-- A file that writes to the path of standard output between two lines. -/
def echoingDisk : Disk :=
  .ofFiles [(ascii "a", ascii "1 .print hello (`/dev/stdout`) .car .write 2 .print")] []

/-- Where a file writes to the path of standard output, the output is not just what is printed:
a pipe has the text too, before the lines that were still in the buffer. -/
theorem run_stdout_echoing :
    (run 0 false [ascii "a"] echoingDisk).code = 0 ∧
      (sessionOver false echoingDisk [ascii "a"]).printedByFiles 0 [ascii "a"] =
        ascii "1\n2\n" ∧
      (run 0 false [ascii "a"] echoingDisk).stdout = ascii "hello1\n2\n" := by
  decide +kernel

end Command

end StackScript
