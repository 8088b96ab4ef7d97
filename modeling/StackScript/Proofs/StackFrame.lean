import StackScript.Proofs.Simulation
set_option autoImplicit false

/-!
# What lies beneath the stack

A program sees of the stack only what it reaches.  A run that does not run out of
values goes the same way when more values lie beneath: it leaves them there, and
everything else ends as it did.  Only a dump, which shows the whole stack, can tell
the difference.
-/

namespace StackScript

/-- The session with more values beneath its stack, given bottom first. -/
def Session.onTopOf {W : Type} (s : Session W) (base : List Value) : Session W :=
  { s with stack := ⟨s.stack.values ++ base.reverse⟩ }

/-- Whether an entry of the journal is a diagnostic. -/
def Event.isDiagnostic : Event → Bool
  | .diagnostic _ => true
  | _ => false

namespace Session

variable {W : Type}

theorem toList_onTopOf (s : Session W) (base : List Value) :
    (s.onTopOf base).stack.toList = base ++ s.stack.toList := by
  simp [onTopOf, Stack.toList]

theorem unnoted_onTopOf (base : List Value) :
    Unnoted (fun s : Session W => s.onTopOf base) :=
  ⟨fun _ => rfl, fun _ => rfl, fun _ => rfl, fun _ => rfl, fun _ _ => rfl, fun _ _ => rfl⟩

theorem receive_onTopOf {α : Type} (s : Session W) (base : List Value) (reply : Reply W α) :
    (s.onTopOf base).receive reply = (s.receive reply).onTopOf base := by
  obtain ⟨world, access, effect⟩ := reply
  cases effect with
  | none => rfl
  | cancels => rfl
  | echoes channel text => rfl

end Session

/-- Runs with and without values beneath the stack, as long as they are not missed. -/
def Link.frame (W : Type) [FileSystem W] (base : List Value) : Link W W where
  Rel s s' := s' = s.onTopOf base
  Ends _ s s' := s' = s.onTopOf base
  Lost halt := ∃ cause, halt = .fault cause ∧ cause.kind = .stackUnderflow
  Stray _ := False
  base := base.reverse
  ends h _ := h
  underflow := .inr fun cause hkind => ⟨cause, rfl, hkind⟩
  interrupt := by rintro s _ rfl; exact .inl rfl
  noteAt := by
    rintro s _ rfl level message
    exact (Session.unnoted_onTopOf base).noteAt s level message
  stack := by rintro s _ rfl; rfl
  setStack := by rintro s _ rfl values; rfl
  nextList := by rintro s _ rfl; rfl
  setNextList := by rintro s _ rfl next; rfl
  bound := by rintro s _ rfl name v hget; exact hget
  unbound := by rintro s _ rfl name cause hget; exact .inr hget
  bindValue := by rintro s _ rfl name v; rfl
  setLine := by rintro s _ rfl line; rfl
  writeLine := by rintro s _ rfl text; exact ⟨rfl, rfl⟩
  flush := by rintro s _ rfl; exact ⟨rfl, rfl⟩
  read := by rintro s _ rfl path; exact ⟨rfl, s.receive_onTopOf base _⟩
  write := by rintro s _ rfl path text; exact ⟨rfl, s.receive_onTopOf base _⟩
  parse := by rintro s _ rfl src; rw [(Session.unnoted_onTopOf base).parse]; exact ⟨rfl, rfl⟩
  stray_read h _ := h
  stray_write h _ _ := h

theorem Link.frame_sameDepth (W : Type) [FileSystem W] (base : List Value) :
    (Link.frame W base).SameDepth where
  depth := by rintro s _ rfl; rfl
  setDepth := by rintro s _ rfl depth; rfl
  limit := by rintro s _ rfl; rfl
  ends h := h

namespace Session

variable {W : Type}

/-- A change of sessions of which only a dump can tell. -/
structure Covert (φ : Session W → Session W) : Prop extends Unnoted φ where
  output : ∀ s, (φ s).output = s.output
  diagnostics : ∀ s, (φ s).diagnostics = s.diagnostics
  setOutput : ∀ s output, φ { s with output := output } = { φ s with output := output }

theorem diagnose_of_kept {s : Session W} (h : s.diagnostics = .kept) (text : Bytes) :
    s.diagnose text = { s with journal := .diagnostic text :: s.journal } := by
  rw [diagnose, h]

theorem diagnose_of_ne_kept {s : Session W} (h : s.diagnostics ≠ .kept) (text : Bytes) :
    s.diagnose text = s := by
  unfold diagnose
  split
  · contradiction
  · rfl

/-- Whatever is told of two such sessions, nothing but the diagnostics differs. -/
theorem Covert.diagnose {φ : Session W → Session W} (h : Covert φ) (s : Session W)
    (text text' : Bytes) :
    ∃ journal, (φ s).diagnose text' = { φ (s.diagnose text) with journal := journal } ∧
      journal.filter (fun e => !e.isDiagnostic) =
        (s.diagnose text).journal.filter (fun e => !e.isDiagnostic) := by
  have hdiagnostics := h.diagnostics s
  by_cases hkept : s.diagnostics = .kept
  · rw [hkept] at hdiagnostics
    rw [diagnose_of_kept hkept, diagnose_of_kept hdiagnostics,
      h.setJournal s (.diagnostic text :: s.journal)]
    exact ⟨.diagnostic text' :: (φ s).journal, rfl, by rw [h.journal]; rfl⟩
  · have hkept' : (φ s).diagnostics ≠ .kept := by rwa [hdiagnostics]
    rw [diagnose_of_ne_kept hkept, diagnose_of_ne_kept hkept']
    exact ⟨(φ s).journal, rfl, by rw [h.journal]⟩

/-- Settling a halt shows such a change in the dump alone. -/
theorem Covert.settle {φ : Session W → Session W} (h : Covert φ) (s : Session W) (halt : Halt) :
    ∃ journal, (φ s).settle halt =
        ({ φ (s.settle halt).1 with journal := journal }, (s.settle halt).2) ∧
      journal.filter (fun e => !e.isDiagnostic) =
        (s.settle halt).1.journal.filter (fun e => !e.isDiagnostic) := by
  have hflush : (φ s).flushAnyway = φ s.flushAnyway := by
    rw [flushAnyway, h.output, ← h.setOutput]
    rfl
  have hsame (t : Session W) (outcome : Outcome) :
      (φ t, outcome) = ({ φ t with journal := t.journal }, outcome) := by
    rw [← h.journal]
  cases halt with
  | crashed message => exact ⟨s.journal, hsame s _, rfl⟩
  | exhausted => exact ⟨s.journal, hsame s _, rfl⟩
  | interrupted reason =>
    refine ⟨s.journal, ?_, rfl⟩
    rw [Session.settle, hflush]
    exact hsame s.flushAnyway _
  | exit =>
    refine ⟨(s.settle .exit).1.journal, ?_, rfl⟩
    rw [Session.settle, hflush, h.noteAt]
    exact hsame (s.settle .exit).1 _
  | fault cause =>
    rw [Session.settle, settleFault, hflush, h.line]
    obtain ⟨journal, hdiagnosed, hfilter⟩ := h.diagnose s.flushAnyway _ _
    exact ⟨journal, congrArg (·, Outcome.fault _) hdiagnosed, hfilter⟩

/-- Settling a halt does not look at the stack but for the dump. -/
theorem settle_onTopOf (s : Session W) (base : List Value) (halt : Halt) :
    ∃ journal, (s.onTopOf base).settle halt =
        ({ (s.settle halt).1.onTopOf base with journal := journal }, (s.settle halt).2) ∧
      journal.filter (fun e => !e.isDiagnostic) =
        (s.settle halt).1.journal.filter (fun e => !e.isDiagnostic) :=
  Covert.settle ⟨unnoted_onTopOf base, fun _ => rfl, fun _ => rfl, fun _ _ => rfl⟩ s halt

/-- A run that does not run out of values goes the same way on top of other values: it
ends alike and leaves them where they are, with the same names, line, output, files
and notes. -/
theorem run_onTopOf [FileSystem W] (s : Session W) (rounds : Nat) (prog base : List Value)
    (h : ∀ report, (s.run rounds prog).2 = .fault report → report.kind ≠ .stackUnderflow) :
    ∃ journal, (s.onTopOf base).run rounds prog =
        ({ (s.run rounds prog).1.onTopOf base with journal := journal }, (s.run rounds prog).2) ∧
      journal.filter (fun e => !e.isDiagnostic) =
        (s.run rounds prog).1.journal.filter (fun e => !e.isDiagnostic) := by
  have hrel : (Link.frame W base).Rel s (s.onTopOf base) := rfl
  have hmeets := (Link.frame_sameDepth W base).meets_runAction rounds prog hrel
  unfold run at h ⊢
  generalize runAction rounds prog s = r at hmeets h ⊢
  generalize runAction rounds prog (s.onTopOf base) = r' at hmeets ⊢
  cases hmeets with
  | ok hrel =>
    subst hrel
    exact ⟨_, rfl, rfl⟩
  | error hends =>
    subst hends
    exact settle_onTopOf _ base _
  | lost hlost =>
    -- the run would have been reported as one that ran out of values
    obtain ⟨cause, rfl, hkind⟩ := hlost
    exact absurd hkind (h _ rfl)
  | stray hstray => exact hstray.elim

/-- A session with two texts on its stack, and its diagnostics kept. -/
def twoTexts : Session MemoryFiles :=
  { Session.overNoFiles with
    stack := ⟨[.text (ascii "b"), .text (ascii "a")]⟩, diagnostics := .kept }

/-- A program that runs a list and then gives up. -/
def exchangeAndDie : List Value :=
  [.list .bare [.text (ascii ".swap")], .text (ascii "$"), .text (ascii ".die")]

theorem run_onTopOf_exchangeAndDie :
    (twoTexts.run 0 exchangeAndDie).2 = .fault ⟨.died, 1, .absent, [], none⟩ ∧
      ((twoTexts.onTopOf [.text (ascii "c"), .absent]).run 0 exchangeAndDie).2 =
        .fault ⟨.died, 1, .absent, [], none⟩ ∧
      ((twoTexts.onTopOf [.text (ascii "c"), .absent]).run 0 exchangeAndDie).1.stack.toList =
        [.text (ascii "c"), .absent, .text (ascii "b"), .text (ascii "a")] := by
  have hout : (twoTexts.run 0 exchangeAndDie).2 = .fault ⟨.died, 1, .absent, [], none⟩ := rfl
  obtain ⟨journal, hrun, _⟩ := run_onTopOf twoTexts 0 exchangeAndDie
    [.text (ascii "c"), .absent] (by
      intro report hreport
      rw [hout] at hreport
      cases hreport
      decide)
  have hstack : (twoTexts.run 0 exchangeAndDie).1.stack.toList =
      [.text (ascii "b"), .text (ascii "a")] := rfl
  rw [hrun]
  refine ⟨hout, hout, ?_⟩
  change ((twoTexts.run 0 exchangeAndDie).1.onTopOf [.text (ascii "c"), .absent]).stack.toList = _
  rw [toList_onTopOf, hstack]
  rfl

end Session

end StackScript
