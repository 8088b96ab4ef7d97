import StackScript.Proofs.Recording
import StackScript.Proofs.Invariants
import StackScript.Proofs.RenamedRun
import StackScript.Proofs.Unheeded
set_option autoImplicit false

/-!
# Sessions after errors

However the calls of a session ended, the next source is evaluated as in a new session with
the same options that was given the stack and the names.  What is written goes after what was
written before, and so does what is told of the run; nothing else of the earlier calls is left,
in particular not how many lists were being run when one of them was given up, nor how many
were made.
-/

namespace StackScript

/-! ## What was written before -/

/-- Whether an output is kept in memory. -/
def Output.isMemory : Output → Bool
  | .memory _ => true
  | _ => false

/-- The output in memory with what was written before. -/
def Output.after (out : Output) (written : List Bytes) : Output :=
  match out with
  | .memory later => .memory (later ++ written)
  | out => out

/-- The entry of a journal, where so much had got to the output before. -/
def Event.after (received : Nat) : Event → Event
  | .echo channel position text => .echo channel (position + received) text
  | e => e

namespace Output

variable {out : Output}

theorem received_after (h : out.isMemory = true) (written : List Bytes) :
    (out.after written).received = (Output.memory written).received ++ out.received := by
  cases out with
  | memory later =>
    simp only [after, received, pieces, List.reverse_append, List.flatten_append]
  | _ => cases h

theorem exists_of_isMemory (h : out.isMemory = true) : ∃ written, out = .memory written := by
  cases out with
  | memory written => exact ⟨written, rfl⟩
  | _ => cases h

theorem isMemory_writeLine (h : out.isMemory = true) (text : Bytes) :
    (out.writeLine text).1.isMemory = true := by
  cases out with
  | memory later => rfl
  | _ => cases h

theorem writeLine_after (h : out.isMemory = true) (written : List Bytes) (text : Bytes) :
    (out.after written).writeLine text =
      ((out.writeLine text).1.after written, (out.writeLine text).2) := by
  cases out with
  | memory later => rfl
  | _ => cases h

/-- Memory needs no flushing. -/
theorem flush_of_isMemory (h : out.isMemory = true) : out.flush = (out, none) := by
  cases out with
  | memory later => rfl
  | _ => cases h

theorem isMemory_flush (h : out.isMemory = true) : out.flush.1.isMemory = true := by
  rw [flush_of_isMemory h]
  exact h

theorem isMemory_after (out : Output) (written : List Bytes) :
    (out.after written).isMemory = out.isMemory := by
  cases out <;> rfl

end Output

namespace Session

variable {W : Type}

theorem isMemory_noteAt {s : Session W} (h : s.output.isMemory = true) (level : Level)
    (message : Unit → Bytes) : (s.noteAt level message).output.isMemory = true := by
  obtain ⟨journal, hnote⟩ := s.exists_noteAt level message
  rw [hnote]
  exact h

theorem isMemory_receive {α : Type} {s : Session W} (h : s.output.isMemory = true)
    (reply : Reply W α) : (s.receive reply).output.isMemory = true := by
  obtain ⟨interrupt, journal, heffect⟩ :=
    ({ s with world := reply.world } : Session W).exists_undergo reply.effect
  rw [receive, heffect]
  exact h

theorem isMemory_parse {s : Session W} (h : s.output.isMemory = true) (src : Bytes) :
    (s.parse src).1.output.isMemory = true := by
  obtain ⟨journal, hparse⟩ := s.exists_parse src
  rw [hparse]
  exact h

/-- The session with what was written and told before. -/
def after (written : List Bytes) (journal : List Event) (s : Session W) : Session W :=
  { s with
    output := s.output.after written
    journal := s.journal.map (Event.after (Output.memory written).received.length) ++ journal }

section After

variable (written : List Bytes) (journal : List Event) (s : Session W)

theorem after_noteAt (level : Level) (message : Unit → Bytes) :
    (s.after written journal).noteAt level message =
      (s.noteAt level message).after written journal := by
  unfold noteAt
  rw [show (s.after written journal).listening = s.listening from rfl]
  split
  · rfl
  · rfl

theorem after_noteAll (notes : List Note) :
    (s.after written journal).noteAll notes = (s.noteAll notes).after written journal := by
  have hnotes (taken : List Note) (n : Nat) :
      (taken.map Event.note).map (Event.after n) = taken.map Event.note := by
    rw [List.map_map]
    rfl
  unfold noteAll after
  simp only [List.map_append, List.map_reverse, hnotes, List.append_assoc]

theorem after_parse (src : Bytes) :
    (s.after written journal).parse src =
      ((s.parse src).1.after written journal, (s.parse src).2) := by
  refine Prod.ext ?_ ?_
  · rw [parse_eq, parse_eq, after_noteAll]
    rfl
  · rw [parse_result, parse_result]
    rfl

theorem after_receive {α : Type} (h : s.output.isMemory = true) (reply : Reply W α) :
    (s.after written journal).receive reply = (s.receive reply).after written journal := by
  obtain ⟨world, access, effect⟩ := reply
  cases effect with
  | none => rfl
  | cancels => rfl
  | echoes channel text =>
    have hlength := congrArg List.length (Output.received_after h written)
    rw [List.length_append, Nat.add_comm] at hlength
    simp only [receive, undergo, after]
    rw [hlength]
    rfl

theorem after_writeLine (h : s.output.isMemory = true) (text : Bytes) :
    ((s.after written journal).output.writeLine text).2 = (s.output.writeLine text).2 ∧
      ({ s.after written journal with
        output := ((s.after written journal).output.writeLine text).1 } : Session W) =
          ({ s with output := (s.output.writeLine text).1 } : Session W).after written journal := by
  have hwrite : (s.after written journal).output.writeLine text = _ :=
    Output.writeLine_after h written text
  rw [hwrite]
  exact ⟨rfl, rfl⟩

theorem after_flush (h : s.output.isMemory = true) :
    (s.after written journal).output.flush.2 = s.output.flush.2 ∧
      ({ s.after written journal with output := (s.after written journal).output.flush.1 } :
          Session W) =
        ({ s with output := s.output.flush.1 } : Session W).after written journal := by
  have hafter : (s.after written journal).output.isMemory = true :=
    (Output.isMemory_after _ written).trans h
  rw [Output.flush_of_isMemory h, Output.flush_of_isMemory hafter]
  exact ⟨rfl, rfl⟩

theorem after_flushAnyway (h : s.output.isMemory = true) :
    (s.after written journal).flushAnyway = s.flushAnyway.after written journal :=
  (s.after_flush written journal h).2

theorem after_settleFault (h : s.output.isMemory = true) (cause : Cause) (line : Int) :
    (s.after written journal).settleFault cause line =
      ((s.settleFault cause line).1.after written journal, (s.settleFault cause line).2) := by
  have hdiagnose (t : Session W) (text : Bytes) :
      (t.after written journal).diagnose text = (t.diagnose text).after written journal := by
    unfold diagnose
    rw [show (t.after written journal).diagnostics = t.diagnostics from rfl]
    split
    · rfl
    · rfl
  refine Prod.ext ?_ rfl
  simp only [settleFault, after_flushAnyway written journal s h]
  exact hdiagnose _ _

/-- A halt is settled in the same way. -/
theorem after_settle (h : s.output.isMemory = true) (halt : Halt) :
    (s.after written journal).settle halt =
      ((s.settle halt).1.after written journal, (s.settle halt).2) := by
  have hflush := after_flushAnyway written journal s h
  cases halt with
  | fault cause => exact after_settleFault written journal s h cause s.line
  | exit =>
    refine Prod.ext ?_ rfl
    simp only [settle, hflush]
    exact after_noteAt written journal s.flushAnyway .info _
  | interrupted reason => exact congrArg (·, Outcome.interrupted reason) hflush
  | crashed message => rfl
  | exhausted => rfl

end After

end Session

/-! ## Runs after others -/

/-- Runs on one stack cannot differ for want of values. -/
theorem Link.underflow_of_nothing :
    ([] : List Value) = [] ∨ ∀ cause : Cause, cause.kind = .stackUnderflow → False :=
  .inl rfl

section Runs

variable {W : Type} [FileSystem W]

/-- A run with its output in memory beside the one after others. -/
def Link.after (W : Type) [FileSystem W] (written : List Bytes) (journal : List Event) :
    Link W W where
  Rel s s' := s.output.isMemory = true ∧ s' = s.after written journal
  Ends _ s s' := s.output.isMemory = true ∧ s' = s.after written journal
  Lost _ := False
  Stray _ := False
  base := []
  ends h _ := h
  underflow := Link.underflow_of_nothing
  interrupt := by rintro s _ ⟨h, rfl⟩; exact .inl rfl
  noteAt := by
    rintro s _ ⟨h, rfl⟩ level message
    exact ⟨Session.isMemory_noteAt h level message, s.after_noteAt written journal level message⟩
  stack := by rintro s _ ⟨h, rfl⟩; rw [List.append_nil]; rfl
  setStack := by rintro s _ ⟨h, rfl⟩ values; rw [List.append_nil]; exact ⟨h, rfl⟩
  nextList := by rintro s _ ⟨h, rfl⟩; rfl
  setNextList := by rintro s _ ⟨h, rfl⟩ next; exact ⟨h, rfl⟩
  bound := by rintro s _ ⟨h, rfl⟩ name v hget; exact hget
  unbound := by rintro s _ ⟨h, rfl⟩ name cause hget; exact .inr hget
  bindValue := by rintro s _ ⟨h, rfl⟩ name v; exact ⟨h, rfl⟩
  setLine := by rintro s _ ⟨h, rfl⟩ line; exact ⟨h, rfl⟩
  writeLine := by
    rintro s _ ⟨h, rfl⟩ text
    obtain ⟨herror, houtput⟩ := s.after_writeLine written journal h text
    exact ⟨herror, Output.isMemory_writeLine h text, houtput⟩
  flush := by
    rintro s _ ⟨h, rfl⟩
    obtain ⟨herror, houtput⟩ := s.after_flush written journal h
    exact ⟨herror, Output.isMemory_flush h, houtput⟩
  read := by
    rintro s _ ⟨h, rfl⟩ path
    exact ⟨rfl, Session.isMemory_receive h _, s.after_receive written journal h _⟩
  write := by
    rintro s _ ⟨h, rfl⟩ path text
    exact ⟨rfl, Session.isMemory_receive h _, s.after_receive written journal h _⟩
  parse := by
    rintro s _ ⟨h, rfl⟩ src
    rw [s.after_parse]
    exact ⟨rfl, Session.isMemory_parse h src, rfl⟩
  stray_read h _ := h
  stray_write h _ _ := h

theorem Link.after_sameDepth (written : List Bytes) (journal : List Event) :
    (Link.after W written journal).SameDepth where
  depth := by rintro s _ ⟨h, rfl⟩; rfl
  setDepth := by rintro s _ ⟨h, rfl⟩ depth; exact ⟨h, rfl⟩
  limit := by rintro s _ ⟨h, rfl⟩; rfl
  ends h := h

namespace Session

variable (written : List Bytes) (journal : List Event)

theorem after_run {s : Session W} (h : s.output.isMemory = true) (rounds : Nat)
    (prog : List Value) :
    (s.after written journal).run rounds prog =
      ((s.run rounds prog).1.after written journal, (s.run rounds prog).2) := by
  have hmeets := (Link.after_sameDepth written journal).meets_runAction rounds prog
    (s := s) ⟨h, rfl⟩
  unfold run
  generalize runAction rounds prog s = r at hmeets ⊢
  generalize runAction rounds prog (s.after written journal) = r' at hmeets ⊢
  cases hmeets with
  | ok hrel =>
    obtain ⟨_, rfl⟩ := hrel
    rfl
  | @error halt t t' hends =>
    obtain ⟨hmemory, rfl⟩ := hends
    exact t.after_settle written journal hmemory halt
  | lost hlost => exact hlost.elim
  | stray hstray => exact hstray.elim

theorem after_eval {s : Session W} (h : s.output.isMemory = true) (rounds : Nat) (src : Bytes) :
    (s.after written journal).eval rounds src =
      ((s.eval rounds src).1.after written journal, (s.eval rounds src).2) := by
  have hparse := ({ s.atRest with line := 1 } : Session W).after_parse written journal src
  have hmemory := isMemory_parse (s := { s.atRest with line := 1 }) h src
  unfold eval
  rw [show ({ (s.after written journal).atRest with line := 1 } : Session W) =
    ({ s.atRest with line := 1 } : Session W).after written journal from rfl, hparse]
  rcases hresult : ({ s.atRest with line := 1 } : Session W).parse src with ⟨t, result⟩
  rw [hresult] at hmemory
  cases result with
  | ok prog => exact after_run written journal hmemory rounds prog
  | error error => exact t.after_settleFault written journal hmemory _ _

end Session

end Runs

/-! ## What lasts over calls -/

namespace Lasting

variable {W : Type} [FileSystem W] {I : Session W → Prop}

/-- A lasting invariant that speaks neither of the line, nor of how many lists are being run,
nor of the journal lasts over a program. -/
theorem run (hI : Lasting I I) (hline : ∀ {s}, I s → ∀ line, I { s with line := line })
    (hdepth : ∀ {s}, I s → ∀ depth, I { s with depth := depth })
    (hjournal : ∀ {s}, I s → ∀ journal, I { s with journal := journal }) {s : Session W} (h : I s)
    (rounds : Nat) (prog : List Value) : I (s.run rounds prog).1 := by
  have hmaintains := hI.maintains_runAction hline hdepth rounds prog
  unfold Session.run
  cases hresult : Session.runAction rounds prog s with
  | ok _ t => exact hmaintains.ok h hresult
  | error halt t =>
    obtain ⟨output, journal, _, hsettled⟩ := t.exists_settle halt
    simp only [hsettled]
    exact hjournal (hI.setOutput (hmaintains.error h hresult) output) journal

/-- So does one over calls, if it does not speak of the interruption either. -/
theorem call (hI : Lasting I I) (hline : ∀ {s}, I s → ∀ line, I { s with line := line })
    (hdepth : ∀ {s}, I s → ∀ depth, I { s with depth := depth })
    (hjournal : ∀ {s}, I s → ∀ journal, I { s with journal := journal })
    (hunder : ∀ {s}, I s → ∀ interrupt, I (s.under interrupt)) {s : Session W} (h : I s)
    (c : Call) : I (s.call c).1 := by
  cases c with
  | run interrupt rounds prog => exact hI.run hline hdepth hjournal (hunder h interrupt) rounds prog
  | eval interrupt rounds src =>
    let u : Session W := { (s.under interrupt).atRest with line := 1 }
    have hparsed : I (u.parse src).1 :=
      hI.parse (hline (hdepth (hunder h interrupt) 0) 1) src
    change I ((s.under interrupt).eval rounds src).1
    unfold Session.eval
    rcases hparse : u.parse src with ⟨t, result⟩
    rw [hparse] at hparsed
    cases result with
    | ok prog => exact hI.run hline hdepth hjournal hparsed rounds prog
    | error error =>
      obtain ⟨journal, hsettled⟩ := t.exists_settleFault (.unreadable error.problem) error.line
      simp only [hsettled]
      exact hjournal (hI.setOutput hparsed _) journal

end Lasting

namespace Session

variable {W : Type} [FileSystem W]

/-- What a session was made to do for all its calls: how deep lists may run, and what is told
of the runs. -/
def options (s : Session W) : Nat × Diagnostics × Listening :=
  (s.limit, s.diagnostics, s.listening)

theorem lasting_options (given : Nat × Diagnostics × Listening) :
    Lasting (fun s : Session W => s.options = given) (fun s => s.options = given) where
  ends h := h
  noteAt {s} h level message := by
    obtain ⟨journal, hnote⟩ := s.exists_noteAt level message
    rw [hnote]
    exact h
  setStack h _ := h
  setNextList h _ := h
  bindValue h _ _ := h
  setOutput h _ := h
  read {s} h path := by
    obtain ⟨interrupt, journal, heffect⟩ :=
      ({ s with world := (FileSystem.read s.world path).world } : Session W).exists_undergo
        (FileSystem.read s.world path).effect
    rw [receive, heffect]
    exact h
  write {s} h path text := by
    obtain ⟨interrupt, journal, heffect⟩ :=
      ({ s with world := (FileSystem.write s.world path text).world } : Session W).exists_undergo
        (FileSystem.write s.world path text).effect
    rw [receive, heffect]
    exact h
  parse {s} h src := by
    obtain ⟨journal, hparse⟩ := s.exists_parse src
    rw [hparse]
    exact h

theorem options_afterCalls (s : Session W) (calls : List Call) :
    (s.afterCalls calls).options = s.options := by
  have hfold : ∀ t : Session W, t.options = s.options →
      (calls.foldl (fun t c => (t.call c).1) t).options = s.options := by
    induction calls with
    | nil => exact fun _ ht => ht
    | cons c rest ih =>
      intro t ht
      refine ih _ ?_
      exact (lasting_options s.options).call (fun h _ => h) (fun h _ => h) (fun h _ => h)
        (fun h _ => h) ht c
  exact hfold s rfl

/-- Output that is kept in memory stays there. -/
theorem isMemory_afterCalls {s : Session W} (h : s.output.isMemory = true) (calls : List Call) :
    (s.afterCalls calls).output.isMemory = true := by
  have hfollows : Output.Follows fun out _ => out.isMemory = true :=
    ⟨fun hout text => Output.isMemory_writeLine hout text, Output.isMemory_flush⟩
  rw [← unobserved_recordedCalls]
  exact hfollows.recordedCalls h calls

end Session

/-! ## The next source -/

namespace Session

variable {W : Type}

/-- A new session with the options of `s` and its output in memory, over the files `world`,
which was given a stack and names.  It numbers the lists that it makes from `next` on. -/
def anew (s : Session W) (world : W) (next : Nat) (stack : Stack) (symbols : Symbols) :
    Session W :=
  { Session.new world with
    limit := s.limit
    diagnostics := s.diagnostics
    listening := s.listening
    output := .memory []
    stack := stack
    symbols := symbols
    nextList := next }

/-- What is told goes after what was told before. -/
theorem filterMap_after {β : Type} {tells : Event → Option β}
    (h : ∀ n e, tells (Event.after n e) = tells e) (written : List Bytes) (t s : Session W) :
    (s.after written t.journal).journal.reverse.filterMap tells =
      t.journal.reverse.filterMap tells ++ s.journal.reverse.filterMap tells := by
  have hsame (n : Nat) : tells ∘ Event.after n = tells := funext (h n)
  change (s.journal.map _ ++ t.journal).reverse.filterMap tells = _
  rw [List.reverse_append, List.filterMap_append, ← List.map_reverse, List.filterMap_map, hsame]

theorem notes_after (written : List Bytes) (t s : Session W) :
    (s.after written t.journal).notes = t.notes ++ s.notes := by
  rw [notes_eq, notes_eq, notes_eq]
  refine filterMap_after (fun n e => ?_) written t s
  cases e <;> rfl

theorem diagnosed_after (written : List Bytes) (t s : Session W) :
    (s.after written t.journal).diagnosed = t.diagnosed ++ s.diagnosed := by
  rw [diagnosed_eq, diagnosed_eq, diagnosed_eq, ← List.flatten_append]
  refine congrArg List.flatten (filterMap_after (fun n e => ?_) written t s)
  cases e <;> rfl

variable [FileSystem W]

/-- Evaluating a source makes its own start: neither the line nor how many lists are being run
matters to it. -/
theorem eval_congr {s s' : Session W}
    (h : ({ s'.atRest with line := 1 } : Session W) = { s.atRest with line := 1 }) (rounds : Nat)
    (src : Bytes) : s'.eval rounds src = s.eval rounds src := by
  unfold eval
  rw [h]

/-- However some calls ended, the next source is evaluated as in a new session that was given
the same stack and names, whatever numbers their lists have there. -/
theorem eval_anew {s t : Session W} (hoptions : t.options = s.options) {written : List Bytes}
    (houtput : t.output = .memory written) {next : Nat} {f : Renaming next} {stack : Stack}
    {symbols : Symbols} (hnext : t.nextList = f.number next)
    (hstack : t.stack = stack.renamed f.number) (hsymbols : t.symbols = symbols.renamed f.number)
    (interrupt : Option Interrupt) (rounds : Nat) (src : Bytes) {r : Session W × Outcome}
    (hr : (s.anew t.world next stack symbols).call (.eval interrupt rounds src) = r) :
    t.call (.eval interrupt rounds src) =
      ((r.1.renamed f.number).after written t.journal, r.2.renamed f.number) := by
  let u := (s.anew t.world next stack symbols).under interrupt
  have hsame : ({ (t.under interrupt).atRest with line := 1 } : Session W) =
      { ((u.renamed f.number).after written t.journal).atRest with line := 1 } := by
    obtain ⟨hlimit, hrest⟩ := Prod.mk.inj hoptions
    obtain ⟨hdiagnostics, hlistening⟩ := Prod.mk.inj hrest
    exact (Session.mk.injEq ..).mpr ⟨hstack, hsymbols, rfl, hnext, hlimit, rfl, houtput,
      hdiagnostics, hlistening, rfl, rfl, rfl⟩
  have hmemory : (u.renamed f.number).output.isMemory = true := rfl
  subst hr
  calc t.call (.eval interrupt rounds src)
      = ((u.renamed f.number).after written t.journal).eval rounds src :=
        eval_congr hsame rounds src
    _ = _ := after_eval written t.journal hmemory rounds src
    _ = _ := by
        rw [eval_renamed f (s := u) (Nat.le_refl next) rounds src]
        rfl

/-- A session survives its errors.  However its calls ended, the next source comes to the same
in it as in a new session with the same options that was given the same stack and names: it ends
the same way and leaves the same stack, names, line and files, and what it writes, the
diagnostics and the notes that it adds to those there were are all that there are in the new
session.  The new session numbers lists in its own way, both those that it was given and, from
`next` on, those that it makes; `f` says which number each has in the old one. -/
theorem eval_survives (s : Session W) (hmemory : s.output.isMemory = true) (calls : List Call)
    {next : Nat} (f : Renaming next) (stack : Stack) (symbols : Symbols)
    (hnext : (s.afterCalls calls).nextList = f.number next)
    (hstack : (s.afterCalls calls).stack = stack.renamed f.number)
    (hsymbols : (s.afterCalls calls).symbols = symbols.renamed f.number)
    (interrupt : Option Interrupt) (rounds : Nat) (src : Bytes) :
    let t := s.afterCalls calls
    let r := t.call (.eval interrupt rounds src)
    let r' := (s.anew t.world next stack symbols).call (.eval interrupt rounds src)
    r.2 = r'.2.renamed f.number ∧ r.1.stack = r'.1.stack.renamed f.number ∧
      r.1.symbols = r'.1.symbols.renamed f.number ∧ r.1.line = r'.1.line ∧
      r.1.world = r'.1.world ∧
      r.1.output.received = t.output.received ++ r'.1.output.received ∧
      r.1.diagnosed = t.diagnosed ++ r'.1.diagnosed ∧ r.1.notes = t.notes ++ r'.1.notes := by
  intro t r r'
  obtain ⟨written, houtput⟩ := Output.exists_of_isMemory (isMemory_afterCalls hmemory calls)
  have hr : r = ((r'.1.renamed f.number).after written t.journal, r'.2.renamed f.number) :=
    eval_anew (s.options_afterCalls calls) houtput hnext hstack hsymbols interrupt rounds src rfl
  have hmemory' : r'.1.output.isMemory = true :=
    isMemory_afterCalls (s := s.anew t.world next stack symbols) rfl [.eval interrupt rounds src]
  have hreceived := Output.received_after hmemory' written
  rw [← houtput] at hreceived
  rw [hr]
  exact ⟨rfl, rfl, rfl, rfl, rfl, hreceived, diagnosed_after written t (r'.1.renamed f.number),
    notes_after written t (r'.1.renamed f.number)⟩

/-- A session in which three lists may run one inside another. -/
def threeDeep : Session MemoryFiles :=
  { Session.overNoFiles with
    limit := 3, output := .memory [], diagnostics := .kept }

/-- Calls that run into the limit, die and are interrupted. -/
def badCalls : List Call :=
  [.eval none 0 (ascii "1 f <- (5) .pop (7) g <- f $ .print (((2) $) $) $"),
    .eval none 0 (ascii "g $ (3 .die) $"), .eval (some .canceled) 0 (ascii "4")]

/-- Of the six lists that these calls make one is left, the second.  It is the first that a new
session gets. -/
def keptFirst : Renaming 1 where
  number n := if n = 0 then 1 else n + 5
  injective := by grind
  succ := by grind

/-- The list as the new session numbers it. -/
def keptList : Value := .list (.made 0) [.number (Double.ofNat 7)]

/-- After calls that were given up inside lists, three lists run one inside another as they
do in a new session, and the list that was kept is told from a new one with the same item. -/
theorem eval_survives_threeDeep :
    let t := threeDeep.afterCalls badCalls
    let stack : Stack := ⟨[.number (Double.ofNat 3), keptList]⟩
    let symbols : Symbols :=
      .ofEntries [(ascii "f", .number (Double.ofNat 1)), (ascii "g", keptList)]
    let next := Call.eval none 0 (ascii "((.print g $ != .print (7) g $ != .print) $) $")
    threeDeep.output.isMemory = true ∧ t.depth = 1 ∧ t.nextList = keptFirst.number 1 ∧
      t.stack = stack.renamed keptFirst.number ∧ t.symbols = symbols.renamed keptFirst.number ∧
      t.output.received = ascii "1\n" ∧
      (t.call next).1.output.received = ascii "1\n3\n0\n1\n" ∧
      ((threeDeep.anew t.world 1 stack symbols).call next).1.output.received =
        ascii "3\n0\n1\n" := by
  intro t stack symbols next
  obtain ⟨hdepth, hnext, hvalues, hentries, hbefore⟩ : t.depth = 1 ∧
      t.nextList = keptFirst.number 1 ∧
      t.stack.values = (stack.renamed keptFirst.number).values ∧
      t.symbols.entries = (symbols.renamed keptFirst.number).entries ∧
      t.output.received = ascii "1\n" := by
    decide +kernel
  have hanew : ((threeDeep.anew t.world 1 stack symbols).call next).1.output.received =
      ascii "3\n0\n1\n" := by
    decide +kernel
  have hstack : t.stack = stack.renamed keptFirst.number := congrArg Stack.mk hvalues
  have hsymbols : t.symbols = symbols.renamed keptFirst.number := Table.eq_of_entries hentries
  obtain ⟨_, _, _, _, _, hreceived, _⟩ := eval_survives threeDeep rfl badCalls keptFirst stack
    symbols hnext hstack hsymbols none 0
    (ascii "((.print g $ != .print (7) g $ != .print) $) $")
  refine ⟨rfl, hdepth, hnext, hstack, hsymbols, hbefore, ?_, hanew⟩
  calc (t.call next).1.output.received
      = t.output.received ++
          ((threeDeep.anew t.world 1 stack symbols).call next).1.output.received := hreceived
    _ = ascii "1\n" ++ ascii "3\n0\n1\n" := congr (congrArg HAppend.hAppend hbefore) hanew
    _ = ascii "1\n3\n0\n1\n" := by decide

end Session

end StackScript
