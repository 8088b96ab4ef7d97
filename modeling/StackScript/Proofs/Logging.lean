import StackScript.Log.Logger
import StackScript.Proofs.Receivers
set_option autoImplicit false

/-!
# A logger loses nothing

What the output of a logger does not take stays pending and goes out before the next line.
The newline at the end of a line is decided on everything pending, but what is pending ends
in a newline already, so that this is the same as to decide it on the line alone.  Whatever
the output takes of each call, and however often it fails and recovers, what it has received
and what is pending are together the lines logged, each once and in order.

The exit code is zero as long as no error was logged and no line met a failing output.
-/

namespace StackScript

/-! ## Texts that end in a newline -/

/-- A text that is empty or ends in a newline. -/
def IsTerminated (text : Bytes) : Prop := ∀ b, text.getLast? = some b → b = newline

theorem isTerminated_terminated (text : Bytes) : IsTerminated (terminated text) := by
  intro b hb
  unfold terminated at hb
  split at hb
  · cases hb
  · rename_i last hlast
    split at hb
    · rename_i hnewline
      rw [hlast] at hb
      rw [← Option.some.inj hb, hnewline]
    · rw [List.getLast?_concat] at hb
      exact (Option.some.inj hb).symm

theorem terminated_of_getLast? {text : Bytes} {b : UInt8} (h : text.getLast? = some b) :
    terminated text = if b = newline then text else text ++ [newline] := by
  rw [terminated, h]

namespace IsTerminated

variable {p q : Bytes}

theorem terminated_eq (h : IsTerminated p) : terminated p = p := by
  cases hlast : p.getLast? with
  | none =>
    rw [List.getLast?_eq_none_iff.1 hlast]
    rfl
  | some b => rw [terminated_of_getLast? hlast, if_pos (h b hlast)]

/-- After a terminated text, what follows decides about the newline by itself. -/
theorem terminated_append (h : IsTerminated p) (q : Bytes) :
    terminated (p ++ q) = p ++ terminated q := by
  cases hlast : q.getLast? with
  | none =>
    obtain rfl := List.getLast?_eq_none_iff.1 hlast
    rw [List.append_nil, h.terminated_eq]
    exact (List.append_nil p).symm
  | some b =>
    have hwhole : (p ++ q).getLast? = some b := by
      rw [List.getLast?_append, hlast]
      rfl
    rw [terminated_of_getLast? hlast, terminated_of_getLast? hwhole]
    split
    · rfl
    · exact List.append_assoc p q [newline]

theorem drop (h : IsTerminated p) (n : Nat) : IsTerminated (p.drop n) := by
  intro b hb
  rw [List.getLast?_drop] at hb
  split at hb
  · cases hb
  · exact h b hb

end IsTerminated

/-! ## Entries -/

namespace Logger

/-- What a logger is told to log. -/
inductive Entry where
  /-- a message at a level -/
  | print (level message : Bytes)
  /-- an error -/
  | error (message : Bytes)
  deriving DecidableEq, Repr, Inhabited

/-- The level of an entry. -/
def Entry.level : Entry → Bytes
  | .print level _ => level
  | .error _ => ascii "ERROR"

/-- The message of an entry. -/
def Entry.message : Entry → Bytes
  | .print _ message => message
  | .error message => message

/-- The line of an entry: its level with a colon, if it has one, its message, and a newline,
unless one is last already or there is nothing to end. -/
def Entry.line (e : Entry) : Bytes :=
  let text := if e.level = [] then e.message else e.level ++ ascii ": " ++ e.message
  if text = [] ∨ text.getLast? = some newline then text else text ++ [newline]

theorem Entry.line_eq (e : Entry) : e.line = terminated (lineText e.level e.message) := by
  have htext : (if e.level = [] then e.message else e.level ++ ascii ": " ++ e.message) =
      lineText e.level e.message := by
    simp only [lineText, List.isEmpty_iff]
    split
    · rfl
    · rfl
  rw [line, htext]
  cases hlast : (lineText e.level e.message).getLast? with
  | none =>
    rw [List.getLast?_eq_none_iff.1 hlast]
    rfl
  | some b =>
    have hne : lineText e.level e.message ≠ [] := by
      intro hnil
      rw [hnil] at hlast
      cases hlast
    rw [terminated_of_getLast? hlast]
    simp only [hne, false_or, Option.some.injEq]

variable {ω : Type} [Receiver ω]

/-- A logger after an entry. -/
def enter (log : Logger ω) : Entry → Logger ω
  | .print level message => log.print level message
  | .error message => log.error message

/-- A logger after some entries. -/
def after (log : Logger ω) (entries : List Entry) : Logger ω := entries.foldl enter log

theorem after_cons (log : Logger ω) (e : Entry) (entries : List Entry) :
    log.after (e :: entries) = (log.enter e).after entries := rfl

theorem after_append (log : Logger ω) (entries more : List Entry) :
    log.after (entries ++ more) = (log.after entries).after more := List.foldl_append

/-- The output reports an error when it is handed what is pending and a line.  Where that is
nothing, it is not called. -/
def Fails (log : Logger ω) (line : Bytes) : Prop :=
  ∃ output, log.output = some output ∧ log.pending ++ line ≠ [] ∧
    (Receiver.write output (log.pending ++ line)).2.error ≠ none

variable {log : Logger ω} {output : ω}

/-- The output takes everything it is handed for a message, or reports an error and leaves the
rest pending. -/
theorem emit_cases (houtput : log.output = some output) (hpending : IsTerminated log.pending)
    (level message : Bytes) :
    ∃ next left, (log.emit level message).1 = ⟨some next, left, log.exitCode⟩ ∧
      Receiver.received next ++ left =
        Receiver.received output ++ (log.pending ++ terminated (lineText level message)) ∧
      IsTerminated left ∧
      ((log.emit level message).2 = false ↔ log.Fails (terminated (lineText level message))) := by
  have htext := hpending.terminated_append (lineText level message)
  have hterminated := isTerminated_terminated (log.pending ++ lineText level message)
  simp only [emit, Fails, houtput, Option.some.injEq, exists_eq_left', ← htext]
  generalize terminated (log.pending ++ lineText level message) = text at hterminated
  by_cases hempty : text = []
  · -- nothing to hand over
    subst hempty
    refine ⟨output, [], rfl, rfl, hterminated, ?_⟩
    exact ⟨fun h => (by cases h), fun h => absurd rfl h.1⟩
  · rw [if_neg (mt List.isEmpty_iff.1 hempty)]
    have hleft := Receiver.received_write_append_drop output text
    have hall := Receiver.received_write_of_error_none (w := output) (p := text)
    generalize Receiver.write output text = result at hleft hall
    obtain ⟨next, count, error⟩ := result
    cases error with
    | none =>
      refine ⟨next, [], rfl, ?_, fun b hb => (by cases hb), ?_⟩
      · rw [List.append_nil]
        exact hall rfl
      · exact ⟨fun h => (by cases h), fun h => absurd rfl h.2⟩
    | some error =>
      refine ⟨next, text.drop count, rfl, hleft, hterminated.drop count, ?_⟩
      exact ⟨fun _ => ⟨hempty, Option.some_ne_none _⟩, fun _ => rfl⟩

/-- So it does for an entry.  The exit code stays zero only for a message, and only if the
call of the output went well. -/
theorem enter_cases (houtput : log.output = some output) (hpending : IsTerminated log.pending)
    (e : Entry) :
    ∃ next left code, log.enter e = ⟨some next, left, code⟩ ∧
      Receiver.received next ++ left = Receiver.received output ++ (log.pending ++ e.line) ∧
      IsTerminated left ∧
      (code = 0 ↔ log.exitCode = 0 ∧ (∀ message, e ≠ .error message) ∧ ¬ log.Fails e.line) := by
  rw [e.line_eq]
  cases e with
  | print level message =>
    obtain ⟨next, left, hemit, hreceived, hleft, hfails⟩ :=
      emit_cases houtput hpending level message
    simp only [enter, print]
    generalize log.emit level message = result at hemit hfails
    obtain ⟨logged, went⟩ := result
    obtain rfl : logged = _ := hemit
    cases went with
    | true =>
      refine ⟨next, left, log.exitCode, rfl, hreceived, hleft, ?_⟩
      have hwell : ¬ log.Fails (terminated (lineText level message)) := by
        intro h
        cases hfails.2 h
      exact ⟨fun hzero => ⟨hzero, fun _ h => (by cases h), hwell⟩, fun h => h.1⟩
    | false =>
      refine ⟨next, left, 2, rfl, hreceived, hleft, ?_⟩
      exact ⟨fun h => (by cases h), fun h => absurd (hfails.1 rfl) h.2.2⟩
  | error message =>
    obtain ⟨next, left, hemit, hreceived, hleft, _⟩ :=
      emit_cases houtput hpending (ascii "ERROR") message
    refine ⟨next, left, 1, ?_, hreceived, hleft, ?_⟩
    · rw [enter, error, hemit]
    · exact ⟨fun h => (by cases h), fun h => absurd rfl (h.2.1 message)⟩

/-! ## Any number of entries -/

/-- The output has received, or the logger keeps pending, certain lines beyond what the output
had received at first. -/
def Accounts (first : ω) (log : Logger ω) (lines : Bytes) : Prop :=
  ∃ output, log.output = some output ∧ IsTerminated log.pending ∧
    Receiver.received output ++ log.pending = Receiver.received first ++ lines

variable {first : ω} {lines : Bytes}

theorem accounts_new (first : ω) : Accounts first ((new ω).withOutput (some first)) [] :=
  ⟨first, rfl, fun b hb => (by cases hb), rfl⟩

/-- An entry adds its line to the account, whatever the output takes of it. -/
theorem Accounts.enter (h : Accounts first log lines) (e : Entry) :
    Accounts first (log.enter e) (lines ++ e.line) := by
  obtain ⟨output, houtput, hpending, hlines⟩ := h
  obtain ⟨next, left, code, henter, hreceived, hleft, _⟩ := enter_cases houtput hpending e
  rw [henter]
  refine ⟨next, rfl, hleft, ?_⟩
  rw [hreceived, ← List.append_assoc, hlines, List.append_assoc]

theorem Accounts.after (h : Accounts first log lines) (entries : List Entry) :
    Accounts first (log.after entries) (lines ++ entries.flatMap Entry.line) := by
  induction entries generalizing log lines with
  | nil => rwa [List.flatMap_nil, List.append_nil]
  | cons e entries ih =>
    rw [List.flatMap_cons, ← List.append_assoc]
    exact ih (h.enter e)

theorem Accounts.exitCode_enter (h : Accounts first log lines) (e : Entry) :
    (log.enter e).exitCode = 0 ↔
      log.exitCode = 0 ∧ (∀ message, e ≠ .error message) ∧ ¬ log.Fails e.line := by
  obtain ⟨output, houtput, hpending, _⟩ := h
  obtain ⟨next, left, code, henter, _, _, hcode⟩ := enter_cases houtput hpending e
  rw [henter]
  exact hcode

/-- The exit code is zero after some entries if and only if it was before them, none of them
is an error and the output failed for none. -/
theorem Accounts.exitCode_after (h : Accounts first log lines) (entries : List Entry) :
    (log.after entries).exitCode = 0 ↔ log.exitCode = 0 ∧
      ∀ before e later, entries = before ++ e :: later →
        (∀ message, e ≠ .error message) ∧ ¬ (log.after before).Fails e.line := by
  induction entries generalizing log lines with
  | nil =>
    refine ⟨fun hzero => ⟨hzero, ?_⟩, fun h => h.1⟩
    intro before e later hsplit
    exact absurd hsplit.symm (List.append_ne_nil_of_right_ne_nil before (List.cons_ne_nil e later))
  | cons x entries ih =>
    rw [after_cons, ih (h.enter x), h.exitCode_enter x, and_assoc]
    refine and_congr_right fun _ => ⟨?_, ?_⟩
    · rintro ⟨hx, hentries⟩ before e later hsplit
      cases before with
      | nil =>
        obtain ⟨rfl, _⟩ := List.cons_eq_cons.1 hsplit
        exact hx
      | cons y before =>
        obtain ⟨rfl, hrest⟩ := List.cons_eq_cons.1 hsplit
        exact hentries before e later hrest
    · intro hall
      refine ⟨hall [] x entries rfl, fun before e later hsplit => ?_⟩
      exact hall (x :: before) e later (congrArg (x :: ·) hsplit)

/-- A logger with one output loses nothing and repeats nothing: what the output has received
and what is pending are together the lines of all entries, whatever part of each call the
output took.  The exit code is zero if and only if no error was logged and the output failed
for no message, and once it is not zero it stays so. -/
theorem received_append_pending_eq_lines (first : ω) (entries : List Entry) :
    let start := (new ω).withOutput (some first)
    let log := start.after entries
    (∃ output, log.output = some output ∧
      Receiver.received output ++ log.pending =
        Receiver.received first ++ entries.flatMap Entry.line) ∧
    (log.exitCode = 0 ↔ (∀ message, Entry.error message ∉ entries) ∧
      ∀ before level message later, entries = before ++ .print level message :: later →
        ¬ (start.after before).Fails (Entry.print level message).line) ∧
    (log.exitCode ≠ 0 → ∀ more, (start.after (entries ++ more)).exitCode ≠ 0) := by
  intro start log
  have hstart : Accounts first start [] := accounts_new first
  have hlog : Accounts first log (entries.flatMap Entry.line) := hstart.after entries
  refine ⟨?_, ?_, ?_⟩
  · obtain ⟨output, houtput, _, hlines⟩ := hlog
    exact ⟨output, houtput, hlines⟩
  · rw [hstart.exitCode_after entries]
    refine ⟨fun h => ⟨?_, ?_⟩, fun h => ⟨rfl, ?_⟩⟩
    · intro message hmem
      obtain ⟨before, later, hsplit⟩ := List.append_of_mem hmem
      exact (h.2 before _ later hsplit).1 message rfl
    · intro before level message later hsplit
      exact (h.2 before _ later hsplit).2
    · intro before e later hsplit
      cases e with
      | print level message =>
        exact ⟨fun _ h => (by cases h), h.2 before level message later hsplit⟩
      | error message =>
        have hmem : Entry.error message ∈ entries := by
          rw [hsplit]
          exact List.mem_append_right before List.mem_cons_self
        exact absurd hmem (h.1 message)
  · intro hcode more hzero
    rw [after_append] at hzero
    exact hcode ((hlog.exitCode_after more).1 hzero).1

/-- An output that takes two bytes of the first line and nothing at the second call, and then
recovers: an empty message sends out what is pending. -/
theorem received_append_pending_eq_lines_fitful :
    let start := (new Fitful).withOutput (some ⟨[2, 0], []⟩)
    let entries := [.print (ascii "note") (ascii "a"), .print [] (ascii "b\n"), .print [] []]
    let log := start.after entries
    log.output = some ⟨[], ascii "note: a\nb\n"⟩ ∧ log.pending = [] ∧ log.exitCode = 2 ∧
      ∀ more, (start.after (entries ++ more)).exitCode ≠ 0 :=
  ⟨by decide, by decide, by decide, (received_append_pending_eq_lines _ _).2.2 (by decide)⟩

end Logger

end StackScript
