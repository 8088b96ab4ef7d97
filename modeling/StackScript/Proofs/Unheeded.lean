import StackScript.Proofs.Observation
set_option autoImplicit false

/-!
# What runs pay no heed to

Which levels are listened to, what the journal holds and which line is current steer
nothing that a program does.  Two sessions that differ in nothing else go the same way, call
by call, and go on differing in nothing else.

What their journals have in common depends on how the sessions differ.  A `Scope` tells which
entries both journals get alike: notes only at levels that both listen to or neither does,
and neither notes nor diagnostics if the lines differ, because both show the line.
-/

namespace StackScript

/-- How two sessions may differ. -/
structure Scope where
  /-- what is listened to in the first session -/
  first : Listening
  /-- what is listened to in the second -/
  second : Listening
  /-- whether the current lines are the same -/
  sameLine : Bool
  /-- the entries that both journals get alike -/
  shared : Event → Bool
  shared_note : ∀ n, shared (.note n) = true →
    sameLine = true ∧ second.hears n.level = first.hears n.level
  shared_diagnostic : ∀ text, shared (.diagnostic text) = true → sameLine = true

/-- An outcome without the line on which a fatal condition is told of. -/
def Outcome.lineless : Outcome → Outcome
  | .fault report => .fault { report with line := 0 }
  | outcome => outcome

/-- The same session with other listeners, on another line and with another journal. -/
def Session.reportedAs {W : Type} (s : Session W) (listening : Listening) (line : Int)
    (journal : List Event) : Session W :=
  { s with listening := listening, line := line, journal := journal }

namespace Scope

variable {W : Type} (σ : Scope)

/-- The sessions differ in nothing but what the scope allows. -/
def Alike (s s' : Session W) : Prop :=
  s.listening = σ.first ∧ ∃ line journal, s' = s.reportedAs σ.second line journal ∧
    (σ.sameLine = true → line = s.line) ∧
    journal.filter σ.shared = s.journal.filter σ.shared

variable {σ}

/-! ## Entries of the journals -/

/-- Where the lines may differ, no note is among the shared entries. -/
theorem not_shared_note (h : σ.sameLine = false) (n : Note) : ¬ σ.shared (.note n) = true := by
  intro hshared
  rw [(σ.shared_note n hshared).1] at h
  cases h

/-- A note may be taken in one session and not in the other, but then it is not shared. -/
theorem filter_noted {line line' : Int} {journal journal' : List Event}
    (h : journal'.filter σ.shared = journal.filter σ.shared)
    (hline : σ.sameLine = true → line' = line) (level : Level) (message : Bytes) :
    (if σ.second.hears level then .note ⟨level, line', message⟩ :: journal'
        else journal').filter σ.shared =
      (if σ.first.hears level then .note ⟨level, line, message⟩ :: journal
        else journal).filter σ.shared := by
  cases hsame : σ.sameLine with
  | false =>
    have hnone := not_shared_note hsame
    split <;> split <;> simp [hnone, h]
  | true =>
    rw [hline hsame]
    by_cases hshared : σ.shared (.note ⟨level, line, message⟩) = true
    · rw [(σ.shared_note _ hshared).2]
      split
      · rw [List.filter_cons_of_pos hshared, List.filter_cons_of_pos hshared, h]
      · exact h
    · split <;> split <;> simp [hshared, h]

/-- Of the notes on a source, which have lines of their own, the shared ones are the same. -/
theorem filter_notes (notes : List Note) :
    ((notes.filter fun n => σ.second.hears n.level).map Event.note).filter σ.shared =
      ((notes.filter fun n => σ.first.hears n.level).map Event.note).filter σ.shared := by
  rw [List.filter_map, List.filter_map, List.filter_filter, List.filter_filter]
  refine congrArg (List.map Event.note) (List.filter_congr ?_)
  intro n _
  by_cases hshared : σ.shared (.note n) = true
  · rw [(σ.shared_note n hshared).2]
  · simp [hshared]

end Scope

/-! ## What keeps sessions alike -/

namespace Session

variable {W : Type}

theorem noteAt_eq (s : Session W) (level : Level) (message : Unit → Bytes) :
    s.noteAt level message = { s with
      journal := if s.listening.hears level then .note ⟨level, s.line, message ()⟩ :: s.journal
        else s.journal } := by
  unfold noteAt
  split
  · rfl
  · rfl

end Session

namespace Scope

variable {W : Type} {σ : Scope} {s s' : Session W}

theorem Alike.noteAt (h : σ.Alike s s') (level : Level) (message : Unit → Bytes) :
    σ.Alike (s.noteAt level message) (s'.noteAt level message) := by
  obtain ⟨hfirst, line, journal, rfl, hline, hjournal⟩ := h
  rw [Session.noteAt_eq, Session.noteAt_eq]
  refine ⟨hfirst, line, _, rfl, hline, ?_⟩
  have hnoted := filter_noted hjournal hline level (message ())
  rw [← hfirst] at hnoted
  exact hnoted

theorem Alike.parse (h : σ.Alike s s') (src : Bytes) :
    (s'.parse src).2 = (s.parse src).2 ∧ σ.Alike (s.parse src).1 (s'.parse src).1 := by
  obtain ⟨hfirst, line, journal, rfl, hline, hjournal⟩ := h
  refine ⟨by rw [Session.parse_result, Session.parse_result]; rfl, ?_⟩
  rw [Session.parse_eq, Session.parse_eq]
  refine ⟨hfirst, line, _, rfl, hline, ?_⟩
  have hnotes := filter_notes (σ := σ) (Reader.start.notes src)
  rw [← hfirst] at hnotes
  change (_ ++ journal).filter σ.shared = (_ ++ s.journal).filter σ.shared
  rw [List.filter_append, List.filter_append, List.filter_reverse, List.filter_reverse, hjournal]
  exact congrArg (fun taken => taken.reverse ++ _) hnotes

theorem Alike.receive {α : Type} (h : σ.Alike s s') (reply : Reply W α) :
    σ.Alike (s.receive reply) (s'.receive reply) := by
  obtain ⟨hfirst, line, journal, rfl, hline, hjournal⟩ := h
  obtain ⟨world, access, effect⟩ := reply
  cases effect with
  | none => exact ⟨hfirst, line, journal, rfl, hline, hjournal⟩
  | cancels => exact ⟨hfirst, line, journal, rfl, hline, hjournal⟩
  | echoes channel text =>
    refine ⟨hfirst, line, _, rfl, hline, ?_⟩
    change List.filter σ.shared (_ :: journal) = List.filter σ.shared (_ :: s.journal)
    rw [List.filter_cons, List.filter_cons, hjournal]
    rfl

/-- Runs in sessions that are alike. -/
def link (W : Type) [FileSystem W] (σ : Scope) : Link W W where
  Rel := σ.Alike
  Ends _ := σ.Alike
  Lost _ := False
  Stray _ := False
  base := []
  ends h _ := h
  underflow := .inl rfl
  interrupt := by rintro s _ ⟨_, line, journal, rfl, _⟩; exact .inl rfl
  noteAt h := h.noteAt
  stack := by rintro s _ ⟨_, line, journal, rfl, _⟩; rw [List.append_nil]; rfl
  setStack := by
    rintro s _ ⟨hfirst, line, journal, rfl, hline, hjournal⟩ values
    rw [List.append_nil]
    exact ⟨hfirst, line, journal, rfl, hline, hjournal⟩
  nextList := by rintro s _ ⟨_, line, journal, rfl, _⟩; rfl
  setNextList := by
    rintro s _ ⟨hfirst, line, journal, rfl, hline, hjournal⟩ next
    exact ⟨hfirst, line, journal, rfl, hline, hjournal⟩
  bound := by rintro s _ ⟨_, line, journal, rfl, _⟩ name v hget; exact hget
  unbound := by rintro s _ ⟨_, line, journal, rfl, _⟩ name cause hget; exact .inr hget
  bindValue := by
    rintro s _ ⟨hfirst, line, journal, rfl, hline, hjournal⟩ name v
    exact ⟨hfirst, line, journal, rfl, hline, hjournal⟩
  setLine := by
    rintro s _ ⟨hfirst, line, journal, rfl, hline, hjournal⟩ line'
    exact ⟨hfirst, line', journal, rfl, fun _ => rfl, hjournal⟩
  writeLine := by
    rintro s _ ⟨hfirst, line, journal, rfl, hline, hjournal⟩ text
    exact ⟨rfl, hfirst, line, journal, rfl, hline, hjournal⟩
  flush := by
    rintro s _ ⟨hfirst, line, journal, rfl, hline, hjournal⟩
    exact ⟨rfl, hfirst, line, journal, rfl, hline, hjournal⟩
  read := by
    intro s s' h path
    have hworld : s'.world = s.world := by obtain ⟨_, line, journal, rfl, _⟩ := h; rfl
    rw [hworld]
    exact ⟨rfl, h.receive _⟩
  write := by
    intro s s' h path text
    have hworld : s'.world = s.world := by obtain ⟨_, line, journal, rfl, _⟩ := h; rfl
    rw [hworld]
    exact ⟨rfl, h.receive _⟩
  parse h := h.parse
  stray_read h _ := h
  stray_write h _ _ := h

theorem link_sameDepth (W : Type) [FileSystem W] (σ : Scope) : (σ.link W).SameDepth where
  depth := by rintro s _ ⟨_, line, journal, rfl, _⟩; rfl
  setDepth := by
    rintro s _ ⟨hfirst, line, journal, rfl, hline, hjournal⟩ depth
    exact ⟨hfirst, line, journal, rfl, hline, hjournal⟩
  limit := by rintro s _ ⟨_, line, journal, rfl, _⟩; rfl
  ends h := h

/-! ## Calls -/

/-- Calls that leave sessions alike, and end alike. -/
def Agree (σ : Scope) (r r' : Session W × Outcome) : Prop :=
  σ.Alike r.1 r'.1 ∧ r'.2.lineless = r.2.lineless ∧ (σ.sameLine = true → r'.2 = r.2)

theorem Alike.flushAnyway (h : σ.Alike s s') : σ.Alike s.flushAnyway s'.flushAnyway := by
  obtain ⟨hfirst, line, journal, rfl, hline, hjournal⟩ := h
  exact ⟨hfirst, line, journal, rfl, hline, hjournal⟩

/-- A dump shows the line, and nothing else in which the sessions differ. -/
theorem Alike.dump (h : σ.Alike s s') (hsame : σ.sameLine = true) : s'.dump = s.dump := by
  obtain ⟨_, line, journal, rfl, hline, _⟩ := h
  rw [hline hsame]
  rfl

theorem Alike.diagnose (h : σ.Alike s s') {text text' : Bytes}
    (htext : σ.sameLine = true → text' = text) :
    σ.Alike (s.diagnose text) (s'.diagnose text') := by
  obtain ⟨hfirst, line, journal, rfl, hline, hjournal⟩ := h
  have hdiagnostics : (s.reportedAs σ.second line journal).diagnostics = s.diagnostics := rfl
  unfold Session.diagnose
  rw [hdiagnostics]
  split
  · refine ⟨hfirst, line, .diagnostic text' :: journal, rfl, hline, ?_⟩
    cases hsame : σ.sameLine with
    | true => rw [htext hsame, List.filter_cons, List.filter_cons, hjournal]
    | false =>
      have hnone : ∀ text, ¬ σ.shared (.diagnostic text) = true := by
        intro text hshared
        rw [σ.shared_diagnostic text hshared] at hsame
        cases hsame
      rw [List.filter_cons_of_neg (hnone _), List.filter_cons_of_neg (hnone _), hjournal]
  · exact ⟨hfirst, line, journal, rfl, hline, hjournal⟩

theorem Alike.settleFault (h : σ.Alike s s') (cause : Cause) {line line' : Int}
    (hline : σ.sameLine = true → line' = line) :
    σ.Agree (s.settleFault cause line) (s'.settleFault cause line') := by
  refine ⟨h.flushAnyway.diagnose ?_, rfl, ?_⟩
  · intro hsame
    rw [hline hsame, h.flushAnyway.dump hsame]
  · intro hsame
    rw [hline hsame]
    rfl

theorem Alike.settle (h : σ.Alike s s') (halt : Halt) :
    σ.Agree (s.settle halt) (s'.settle halt) := by
  cases halt with
  | fault cause =>
    have hline : σ.sameLine = true → s'.line = s.line := by
      obtain ⟨_, line, journal, rfl, hline, _⟩ := h
      exact hline
    exact h.settleFault cause hline
  | exit => exact ⟨h.flushAnyway.noteAt .info _, rfl, fun _ => rfl⟩
  | interrupted reason => exact ⟨h.flushAnyway, rfl, fun _ => rfl⟩
  | crashed message => exact ⟨h, rfl, fun _ => rfl⟩
  | exhausted => exact ⟨h, rfl, fun _ => rfl⟩

variable [FileSystem W]

theorem agree_ofResult {r r' : EStateM.Result Halt (Session W) Unit} (h : (σ.link W).Meets r r') :
    σ.Agree (Session.ofResult r) (Session.ofResult r') := by
  cases h with
  | ok rel => exact ⟨rel, rfl, fun _ => rfl⟩
  | error ends => exact Alike.settle ends _
  | lost lost => exact lost.elim
  | stray stray => exact stray.elim

theorem Alike.run (h : σ.Alike s s') (rounds : Nat) (prog : List Value) :
    σ.Agree (s.run rounds prog) (s'.run rounds prog) :=
  agree_ofResult ((link_sameDepth W σ).meets_runAction rounds prog h)

theorem Alike.eval (h : σ.Alike s s') (rounds : Nat) (src : Bytes) :
    σ.Agree (s.eval rounds src) (s'.eval rounds src) := by
  have hstart : σ.Alike { s.atRest with line := 1 } { s'.atRest with line := 1 } := by
    obtain ⟨hfirst, line, journal, rfl, _, hjournal⟩ := h
    exact ⟨hfirst, 1, journal, rfl, fun _ => rfl, hjournal⟩
  obtain ⟨hresult, hread⟩ := hstart.parse src
  unfold Session.eval
  rcases hparse : ({ s.atRest with line := 1 } : Session W).parse src with ⟨t, result⟩
  rcases hparse' : ({ s'.atRest with line := 1 } : Session W).parse src with ⟨t', result'⟩
  rw [hparse, hparse'] at hresult hread
  cases hresult
  cases result with
  | ok prog => exact hread.run rounds prog
  | error error => exact hread.settleFault _ fun _ => rfl

theorem Alike.call (h : σ.Alike s s') (c : Call) : σ.Agree (s.call c) (s'.call c) := by
  have hunder : ∀ interrupt, σ.Alike (s.under interrupt) (s'.under interrupt) := by
    intro interrupt
    obtain ⟨hfirst, line, journal, rfl, hline, hjournal⟩ := h
    exact ⟨hfirst, line, journal, rfl, hline, hjournal⟩
  cases c with
  | run interrupt rounds prog => exact (hunder interrupt).run rounds prog
  | eval interrupt rounds src => exact (hunder interrupt).eval rounds src

theorem Alike.afterCalls (h : σ.Alike s s') (calls : List Call) :
    σ.Alike (s.afterCalls calls) (s'.afterCalls calls) := by
  unfold Session.afterCalls
  induction calls generalizing s s' with
  | nil => exact h
  | cons c rest ih => exact ih (h.call c).1

end Scope

/-! ## Listeners -/

/-- The note that an entry of the journal is. -/
def Event.note? : Event → Option Note
  | .note n => some n
  | _ => none

/-- The diagnostic that an entry of the journal is. -/
def Event.diagnostic? : Event → Option Bytes
  | .diagnostic text => some text
  | _ => none

namespace Session

variable {W : Type}

/-- The notes of one level, in order. -/
def notesAt (s : Session W) (level : Level) : List Note := s.notes.filter fun n => n.level == level

theorem notes_eq (s : Session W) : s.notes = s.journal.reverse.filterMap Event.note? := by
  refine congrArg (List.filterMap · s.journal.reverse) ?_
  funext e
  cases e <;> rfl

theorem notesAt_eq (s : Session W) (level : Level) :
    s.notesAt level =
      s.journal.reverse.filterMap fun e => e.note?.filter fun n => n.level == level := by
  rw [notesAt, notes_eq, List.filter_filterMap]

theorem diagnosed_eq (s : Session W) :
    s.diagnosed = (s.journal.reverse.filterMap Event.diagnostic?).flatten := by
  unfold diagnosed
  induction s.journal.reverse with
  | nil => rfl
  | cons e rest ih =>
    rw [List.flatMap_cons, ih]
    cases e <;> rfl

/-- The same session with other listeners. -/
def listeningTo (s : Session W) (on : Listening) : Session W := { s with listening := on }

/-- What the last of some calls comes to if it and those before are listened to so. -/
def callListening [FileSystem W] (s : Session W) (on : Listening) (calls : List Call) (c : Call) :
    Session W × Outcome :=
  ((s.listeningTo on).afterCalls calls).call c

end Session

namespace Scope

/-- Sessions with different listeners share every entry but notes that one of them does not
take. -/
def listeners (on on' : Listening) : Scope where
  first := on
  second := on'
  sameLine := true
  shared e := (e.note?.all fun n => on.hears n.level && on'.hears n.level)
  shared_note n h := by
    obtain ⟨hon, hon'⟩ := Bool.and_eq_true_iff.1 h
    exact ⟨rfl, hon'.trans hon.symm⟩
  shared_diagnostic _ _ := rfl

variable {W : Type} {σ : Scope} {s s' : Session W}

/-- What is gathered from shared entries alone is the same in both sessions. -/
theorem Alike.filterMap_journal {α : Type} (h : σ.Alike s s') {f : Event → Option α}
    (hf : ∀ e, ¬ σ.shared e = true → f e = none) :
    s'.journal.reverse.filterMap f = s.journal.reverse.filterMap f := by
  obtain ⟨_, line, journal, rfl, _, hjournal⟩ := h
  have hshared : ∀ events : List Event,
      (events.filter σ.shared).reverse.filterMap f = events.reverse.filterMap f := by
    intro events
    rw [← List.filter_reverse, List.filterMap_filter]
    refine congrArg (List.filterMap · events.reverse) ?_
    funext e
    split
    · rfl
    · rename_i hnot
      exact (hf e hnot).symm
  change journal.reverse.filterMap f = _
  rw [← hshared journal, hjournal, hshared]

end Scope

namespace Session

variable {W : Type} [FileSystem W]

/-- Which levels are listened to makes no difference but for the notes.  After any calls the
next one ends alike and leaves everything alike but the journal, and there the same
diagnostics, and the same notes at a level that is listened to either way. -/
theorem callListening_same (s : Session W) (on on' : Listening) (calls : List Call) (c : Call) :
    (s.callListening on' calls c).2 = (s.callListening on calls c).2 ∧
      (s.callListening on' calls c).1 = { (s.callListening on calls c).1 with
        listening := on', journal := (s.callListening on' calls c).1.journal } ∧
      (s.callListening on' calls c).1.diagnosed = (s.callListening on calls c).1.diagnosed ∧
      ∀ level, on.hears level = true → on'.hears level = true →
        (s.callListening on' calls c).1.notesAt level =
          (s.callListening on calls c).1.notesAt level := by
  have hstart : (Scope.listeners on on').Alike (s.listeningTo on) (s.listeningTo on') :=
    ⟨rfl, s.line, s.journal, rfl, fun _ => rfl, rfl⟩
  obtain ⟨halike, _, houtcome⟩ := (hstart.afterCalls calls).call c
  refine ⟨houtcome rfl, ?_, ?_, ?_⟩
  · obtain ⟨_, line, journal, heq, hline, _⟩ := halike
    unfold callListening
    rw [heq, hline rfl]
    rfl
  · rw [diagnosed_eq, diagnosed_eq]
    refine congrArg List.flatten (halike.filterMap_journal ?_)
    intro e hnot
    cases e with
    | diagnostic text => exact absurd rfl hnot
    | note n => rfl
    | remark r => rfl
    | echo channel position text => rfl
  · intro level hon hon'
    rw [notesAt_eq, notesAt_eq]
    refine halike.filterMap_journal ?_
    intro e hnot
    cases e with
    | note n =>
      refine Option.filter_some_neg (Bool.eq_false_iff.2 ?_)
      intro hlevel
      rw [← eq_of_beq hlevel] at hon hon'
      exact hnot (Bool.and_eq_true_iff.2 ⟨hon, hon'⟩)
    | diagnostic text => rfl
    | remark r => rfl
    | echo channel position text => rfl

/-- A source that gives a list a name. -/
def namesList : Call := .eval none 0 (ascii "(1 2) l <-")

/-- A source that prints the rest of the list and leaves. -/
def printsRest : Call := .eval none 0 (ascii "l $ .cdr .print\n.exit")

/-- With a trace or without, the two sources leave the same ten notes for debugging. -/
theorem callListening_same_debug :
    (Session.overNoFiles.callListening ⟨true, true, false⟩
        [namesList] printsRest).1.notesAt .debug =
      (Session.overNoFiles.callListening ⟨false, true, true⟩
        [namesList] printsRest).1.notesAt .debug ∧
    ((Session.overNoFiles.callListening ⟨true, true, false⟩
        [namesList] printsRest).1.notesAt .debug).length = 10 := by
  obtain ⟨_, _, _, hnotes⟩ := callListening_same
    Session.overNoFiles ⟨false, true, true⟩ ⟨true, true, false⟩
    [namesList] printsRest
  exact ⟨hnotes .debug rfl rfl, by decide +kernel⟩

end Session

end StackScript
