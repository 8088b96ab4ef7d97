import StackScript.Proofs.Invariants
import StackScript.Proofs.Recording
set_option autoImplicit false

/-!
# What calls write to the diagnostics

Nothing that a program does shows in the diagnostics.  They are written where a call is
settled, once, and only if it ends with a fatal condition: what is told of the condition and
a dump of the session.  Settling changes nothing that a dump shows, so the dump is that of
the session which the call leaves.
-/

namespace StackScript

/-! ## Diagnostics in the journal -/

/-- What an entry of the journal adds to the diagnostics. -/
def Event.diagnosis : Event → Bytes
  | .diagnostic text => text
  | _ => []

namespace Session

variable {W : Type}

/-- What some more entries, latest first, add to the diagnostics. -/
theorem diagnosed_append (s : Session W) (events : List Event) :
    ({ s with journal := events ++ s.journal } : Session W).diagnosed =
      s.diagnosed ++ events.reverse.flatMap Event.diagnosis := by
  have hdiagnosed : ∀ t : Session W, t.diagnosed = t.journal.reverse.flatMap Event.diagnosis := by
    intro t
    refine congrArg (List.flatMap · t.journal.reverse) ?_
    funext e
    cases e <;> rfl
  rw [hdiagnosed, hdiagnosed, List.reverse_append, List.flatMap_append]

theorem diagnosed_noteAt (s : Session W) (level : Level) (message : Unit → Bytes) :
    (s.noteAt level message).diagnosed = s.diagnosed := by
  unfold noteAt
  split
  · exact (s.diagnosed_append [.note _]).trans (List.append_nil _)
  · rfl

theorem diagnosed_noteAll (s : Session W) (notes : List Note) :
    (s.noteAll notes).diagnosed = s.diagnosed := by
  have hnotes : ∀ taken : List Note, (taken.map Event.note).flatMap Event.diagnosis = [] := by
    intro taken
    rw [List.flatMap_map]
    exact List.flatMap_eq_nil_iff.2 fun _ _ => rfl
  unfold noteAll
  rw [diagnosed_append, List.reverse_reverse, hnotes, List.append_nil]

theorem diagnosed_receive {α : Type} (s : Session W) (reply : Reply W α) :
    (s.receive reply).diagnosed = s.diagnosed := by
  unfold receive
  cases reply.effect with
  | none => rfl
  | cancels => rfl
  | echoes channel text =>
    exact (s.diagnosed_append [.echo channel _ text]).trans (List.append_nil _)

theorem diagnosed_parse (s : Session W) (src : Bytes) :
    (s.parse src).1.diagnosed = s.diagnosed := by
  unfold parse
  cases (Reader.start.parse src).2 with
  | error error =>
    split
    · exact s.diagnosed_noteAll _
    · rfl
  | ok trees =>
    split
    · exact s.diagnosed_noteAll _
    · rfl

theorem diagnosed_diagnose {s : Session W} (h : s.diagnostics = .kept) (text : Bytes) :
    (s.diagnose text).diagnosed = s.diagnosed ++ text := by
  unfold diagnose
  rw [h]
  refine (s.diagnosed_append [.diagnostic text]).trans ?_
  rw [List.reverse_singleton, List.flatMap_singleton]
  rfl

end Session

/-! ## Programs write no diagnostics -/

/-- The diagnostics are kept, and are a given text so far. -/
def Session.Diagnosed {W : Type} (text : Bytes) (s : Session W) : Prop :=
  s.diagnostics = .kept ∧ s.diagnosed = text

theorem Session.lasting_diagnosed {W : Type} [FileSystem W] (text : Bytes) :
    Lasting (Diagnosed text : Session W → Prop) (Diagnosed text) where
  ends h := h
  noteAt {s} h level message := by
    obtain ⟨journal, hnote⟩ := s.exists_noteAt level message
    have hkept := congrArg Session.diagnostics hnote
    exact ⟨hkept.trans h.1, (s.diagnosed_noteAt level message).trans h.2⟩
  setStack h _ := h
  setNextList h _ := h
  bindValue h _ _ := h
  setOutput h _ := h
  read {s} h path := by
    obtain ⟨interrupt, journal, heffect⟩ := ({ s with world := _ } : Session W).exists_undergo
      (FileSystem.read s.world path).effect
    have hkept := congrArg Session.diagnostics heffect
    exact ⟨hkept.trans h.1, (s.diagnosed_receive _).trans h.2⟩
  write {s} h path text := by
    obtain ⟨interrupt, journal, heffect⟩ := ({ s with world := _ } : Session W).exists_undergo
      (FileSystem.write s.world path text).effect
    have hkept := congrArg Session.diagnostics heffect
    exact ⟨hkept.trans h.1, (s.diagnosed_receive _).trans h.2⟩
  parse {s} h src := by
    obtain ⟨journal, hparse⟩ := s.exists_parse src
    have hkept := congrArg Session.diagnostics hparse
    exact ⟨hkept.trans h.1, (s.diagnosed_parse src).trans h.2⟩

/-! ## Calls write them once -/

/-- What a call that ended so, and left the session `t`, has written to the diagnostics. -/
def Outcome.diagnosis {W : Type} (t : Session W) : Outcome → Bytes
  | .fault report => ascii "DIE: " ++ report.text ++ ascii "\n" ++ t.dump
  | _ => []

/-- The error for which the source of a call is refused, if it is. -/
def Call.refusal? : Call → Option SyntaxError
  | .run _ _ _ => none
  | .eval _ _ src =>
    match (Reader.start.parse src).2 with
    | .ok _ => none
    | .error error => some error

namespace Session

variable {W : Type}

theorem dump_diagnose (s : Session W) (text : Bytes) : (s.diagnose text).dump = s.dump := by
  unfold diagnose
  split
  · rfl
  · rfl

theorem line_diagnose (s : Session W) (text : Bytes) : (s.diagnose text).line = s.line := by
  unfold diagnose
  split
  · rfl
  · rfl

theorem diagnosed_settleFault {s : Session W} {text : Bytes} (h : s.Diagnosed text) (cause : Cause)
    (line : Int) :
    (s.settleFault cause line).1.diagnosed =
      text ++ (s.settleFault cause line).2.diagnosis (s.settleFault cause line).1 := by
  have hkept : s.flushAnyway.diagnostics = .kept := h.1
  have hsofar : s.flushAnyway.diagnosed = text := h.2
  simp only [settleFault, reportFault, Outcome.diagnosis, dump_diagnose]
  rw [diagnosed_diagnose hkept, hsofar]

theorem diagnosed_settle {s : Session W} {text : Bytes} (h : s.Diagnosed text) (halt : Halt) :
    (s.settle halt).1.diagnosed = text ++ (s.settle halt).2.diagnosis (s.settle halt).1 := by
  cases halt with
  | fault cause => exact diagnosed_settleFault h cause s.line
  | exit =>
    refine (s.flushAnyway.diagnosed_noteAt .info _).trans ?_
    exact h.2.trans (List.append_nil text).symm
  | interrupted reason => exact h.2.trans (List.append_nil text).symm
  | crashed message => exact h.2.trans (List.append_nil text).symm
  | exhausted => exact h.2.trans (List.append_nil text).symm

/-- A fault that a halt comes to is told of on the line that the session is left on. -/
theorem line_of_settle {s : Session W} {halt : Halt} {report : Report}
    (h : (s.settle halt).2 = .fault report) : report.line = (s.settle halt).1.line := by
  cases halt with
  | fault cause =>
    cases h
    exact (line_diagnose s.flushAnyway _).symm
  | exit => cases h
  | interrupted reason => cases h
  | crashed message => cases h
  | exhausted => cases h

variable [FileSystem W]

theorem diagnosed_run {s : Session W} {text : Bytes} (h : s.Diagnosed text) (rounds : Nat)
    (prog : List Value) :
    (s.run rounds prog).1.diagnosed =
        text ++ (s.run rounds prog).2.diagnosis (s.run rounds prog).1 ∧
      ∀ report, (s.run rounds prog).2 = .fault report →
        report.line = (s.run rounds prog).1.line := by
  have hmaintains := (lasting_diagnosed (W := W) text).maintains_runAction (fun h _ => h)
    (fun h _ => h) rounds prog
  unfold run
  cases haction : runAction rounds prog s with
  | ok _ t =>
    have hlast := (hmaintains.ok h haction).2
    refine ⟨hlast.trans (List.append_nil text).symm, ?_⟩
    intro report hfault
    cases hfault
  | error halt t =>
    exact ⟨diagnosed_settle (hmaintains.error h haction) halt, fun _ => line_of_settle⟩

/-- A call writes to the diagnostics if and only if it ends with a fatal condition, and then
what is told of the condition and the dump of the session that it leaves, once.  The
condition is told of on the line that the session is left on, or for a source that cannot be
read on the line of the error.  Output may go wherever an `Output` can: to memory, nowhere, to
a sink that fails after some bytes behind a buffer or a line-flushing writer, or to a writer
whose flush crashes. -/
theorem call_diagnosed (s : Session W) (c : Call) (h : s.diagnostics = .kept) :
    (s.call c).1.diagnosed = s.diagnosed ++ (s.call c).2.diagnosis (s.call c).1 ∧
      (∀ report, (s.call c).2 = .fault report → c.refusal? = none →
        report.line = (s.call c).1.line) ∧
      ∀ error, c.refusal? = some error →
        (s.call c).2 = .fault ((Cause.unreadable error.problem).report error.line) := by
  cases c with
  | run interrupt rounds prog =>
    obtain ⟨hdiagnosed, hline⟩ :=
      diagnosed_run (s := s.under interrupt) ⟨h, rfl⟩ rounds prog
    refine ⟨hdiagnosed, fun report hfault _ => hline report hfault, ?_⟩
    intro error hrefusal
    cases hrefusal
  | eval interrupt rounds src =>
    have hlast := (lasting_diagnosed s.diagnosed).parse
      (s := { (s.under interrupt).atRest with line := 1 }) ⟨h, rfl⟩ src
    have hresult := ({ (s.under interrupt).atRest with line := 1 } : Session W).parse_result src
    simp only [call, eval, Call.refusal?]
    rcases hparse : ({ (s.under interrupt).atRest with line := 1 } : Session W).parse src with
      ⟨t, result⟩
    rw [hparse] at hlast hresult
    cases hread : (Reader.start.parse src).2 with
    | ok trees =>
      rw [hread] at hresult
      cases hresult
      obtain ⟨hdiagnosed, hline⟩ := diagnosed_run hlast rounds _
      refine ⟨hdiagnosed, fun report hfault _ => hline report hfault, ?_⟩
      intro error hrefusal
      cases hrefusal
    | error error =>
      rw [hread] at hresult
      cases hresult
      refine ⟨diagnosed_settleFault hlast _ _, ?_, ?_⟩
      · intro report hfault hnone
        cases hnone
      · intro refusal hrefusal
        cases hrefusal
        rfl

/-- A session whose output crashes when it is flushed, and its diagnostics kept. -/
def onBrittleOutput : Session MemoryFiles :=
  { Session.overNoFiles with output := .brittle [], diagnostics := .kept }

/-- The crash of the flush after a fault leaves the dump as it is. -/
theorem call_diagnosed_onBrittleOutput :
    (onBrittleOutput.call (.eval none 0 (ascii "7 .peek\n.die"))).1.diagnosed =
      ascii "DIE: line 2: died\n# Session Dump\n  line: 2\n# Stack depth:1\n  [0] 7\n" ++
        ascii "# Symbols count:0\n" := by
  obtain ⟨hdiagnosed, _⟩ :=
    call_diagnosed onBrittleOutput (.eval none 0 (ascii "7 .peek\n.die")) rfl
  exact hdiagnosed.trans (by decide +kernel)

end Session

end StackScript
