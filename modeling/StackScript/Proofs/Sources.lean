import StackScript.Command
import StackScript.Proofs.Entries
import StackScript.Proofs.Unheeded
set_option autoImplicit false

/-!
# Runs over sources

A command evaluates the sources of a queue in order, in one session, up to the first that
cannot be read or closed or that does not simply end.  Whatever it comes to, every stream
that can be closed is closed once, in the order of the queue: those that were read by reading
them, and those that are left at the end.

What the command remarks on each source goes into the journal between what the session
itself puts there, so sessions are compared without remarks.
-/

namespace StackScript

open Command

/-! ## Remarks -/

/-- Whether an entry of the journal is a remark of the command. -/
def Event.isRemark : Event → Bool
  | .remark _ => true
  | _ => false

/-- Sessions with different remarks. -/
def Scope.remarks (on : Listening) : Scope where
  first := on
  second := on
  sameLine := true
  shared e := !e.isRemark
  shared_note _ _ := ⟨rfl, rfl⟩
  shared_diagnostic _ _ := rfl

namespace Session

variable {W : Type}

/-- The session without the remarks of the command. -/
def unremarked (s : Session W) : Session W :=
  { s with journal := s.journal.filter fun e => !e.isRemark }

theorem alike_of_unremarked {s s' : Session W} (h : s'.unremarked = s.unremarked) :
    (Scope.remarks s.listening).Alike s s' := by
  refine ⟨rfl, s.line, s'.journal, ?_, fun _ => rfl, congrArg Session.journal h⟩
  calc s' = { s'.unremarked with journal := s'.journal } := rfl
    _ = { s.unremarked with journal := s'.journal } := by rw [h]
    _ = s.reportedAs s.listening s.line s'.journal := rfl

theorem unremarked_of_alike {on : Listening} {s s' : Session W}
    (h : (Scope.remarks on).Alike s s') : s'.unremarked = s.unremarked := by
  obtain ⟨hon, line, journal, rfl, hline, hjournal⟩ := h
  have hon : s.listening = on := hon
  subst hon
  rw [hline rfl]
  exact congrArg (fun journal => ({ s with journal := journal } : Session W)) hjournal

/-- Remarks make no difference to an evaluation. -/
theorem eval_of_unremarked [FileSystem W] {s s' : Session W} (h : s'.unremarked = s.unremarked)
    (rounds : Nat) (src : Bytes) :
    (s'.eval rounds src).1.unremarked = (s.eval rounds src).1.unremarked ∧
      (s'.eval rounds src).2 = (s.eval rounds src).2 := by
  obtain ⟨halike, _, houtcome⟩ := (alike_of_unremarked h).eval rounds src
  exact ⟨unremarked_of_alike halike, houtcome rfl⟩

end Session

/-! ## Streams are closed once -/

/-- A stream whose text is at hand. -/
structure TextStream where
  source : Source
  /-- the error with which reading it to its end fails -/
  readError : Option Bytes
  closing : Closing

namespace TextStream

/-- The stream in a queue. -/
def stream (r : TextStream) : Stream := .text r.source r.readError r.closing

/-- The name under which closing the stream shows, if it can be closed. -/
def closer? (r : TextStream) : Option Bytes :=
  match r.closing with
  | .unclosable => none
  | .closable _ => some r.source.name

/-- The error with which closing the stream fails. -/
def closeError (r : TextStream) : Option Bytes :=
  match r.closing with
  | .unclosable => none
  | .closable error => error

/-- The first error in reading and closing the stream. -/
def error? (r : TextStream) : Option Bytes := r.readError.or r.closeError

theorem close_stream (r : TextStream) : r.stream.close = (r.closer?, r.closeError) := by
  obtain ⟨source, readError, closing⟩ := r
  cases closing with
  | unclosable => rfl
  | closable error => rfl

end TextStream

section Queue

variable {W : Type} [FileSystem W]

/-- Reading a stream closes it, so what is closed in the end stays the same. -/
theorem Input.closed_of_next {input rest : Input} {w v : W} {next : Next}
    (h : input.next w = (v, rest, next)) : rest.close.1.closed = input.close.1.closed := by
  have hrest : rest = (input.next w).2.1 := by rw [h]
  rw [hrest]
  unfold Input.next
  split
  · rfl
  · rename_i stream queue hqueue
    have hclosed : ∀ last : Source,
        (Input.mk queue last (input.closed ++ stream.close.1.toList)).close.1.closed =
          input.close.1.closed := by
      intro last
      simp only [Input.close, hqueue, List.map_cons, List.append_assoc, List.filterMap_cons]
      cases stream.close.1 with
      | none => rfl
      | some name => rfl
    split
    · split
      · exact hclosed _
      · exact hclosed _
    · rfl

/-- Whatever a run over sources comes to, what is closed in the end are the streams of the
queue that can be closed, once each and in order. -/
theorem closed_runQueue (rounds : Nat) (chatty : Bool) (s : Session W) (input : Input) :
    (runQueue rounds chatty s input).input.closed =
      input.closed ++ input.queue.filterMap fun stream => stream.close.1 := by
  have hsources : (runSources rounds chatty s input).input.close.1.closed =
      input.close.1.closed := by
    fun_induction runSources rounds chatty s input with
    | case1 s input w rest h => exact Input.closed_of_next h
    | case2 s input w rest src error h => exact Input.closed_of_next h
    | case3 s input w rest message h => exact Input.closed_of_next h
    | case4 s input w rest src h announced started t heval ih =>
      exact ih.trans (Input.closed_of_next h)
    | case5 s input w rest src h announced started t outcome hstopped heval =>
      exact Input.closed_of_next h
  unfold runQueue
  rw [hsources]
  simp only [Input.close, List.filterMap_map]
  rfl

/-! ## One source -/

/-- The session after the remark on a source, if remarks are asked for. -/
def Session.announced (s : Session W) (chatty : Bool) (src : Source) : Session W :=
  if chatty then s.remark (.running src.describe) else s

omit [FileSystem W] in
theorem Session.unremarked_announced (s : Session W) (chatty : Bool) (src : Source) :
    (s.announced chatty src).unremarked = s.unremarked := by
  unfold announced
  split
  · rfl
  · rfl

namespace TextStream

variable {rounds : Nat} {chatty : Bool} {s t : Session W} {r : TextStream} {queue : List Stream}
  {last : Source} {closed : List Bytes}

theorem next_of_none (h : r.error? = none) (w : W) :
    (Input.mk (r.stream :: queue) last closed).next w =
      (w, ⟨queue, r.source, closed ++ r.closer?.toList⟩, .source r.source) := by
  have herror : r.readError.or r.stream.close.2 = none := by rw [close_stream]; exact h
  simp only [Input.next, Input.readStream, stream] at herror ⊢
  rw [herror, ← stream, close_stream]

theorem next_of_some {error : Bytes} (h : r.error? = some error) (w : W) :
    (Input.mk (r.stream :: queue) last closed).next w =
      (w, ⟨queue, r.source, closed ++ r.closer?.toList⟩,
        .failed r.source (ascii "failed to read " ++ r.source.name ++ ascii ": " ++ error)) := by
  have herror : r.readError.or r.stream.close.2 = some error := by rw [close_stream]; exact h
  simp only [Input.next, Input.readStream, stream] at herror ⊢
  rw [herror, ← stream, close_stream]

/-- A source that ends is followed by the next one. -/
theorem runSources_of_done (h : r.error? = none)
    (heval : (s.announced chatty r.source).eval rounds r.source.text = (t, .done)) :
    runSources rounds chatty s ⟨r.stream :: queue, last, closed⟩ =
      runSources rounds chatty t ⟨queue, r.source, closed ++ r.closer?.toList⟩ := by
  rw [runSources]
  split
  all_goals
    rename_i hnext
    rw [next_of_none h] at hnext
    cases hnext
  simp only [Session.announced] at heval
  simp only [heval]

/-- A source that does not end is the last one. -/
theorem runSources_of_stopped {outcome : Outcome} (h : r.error? = none)
    (heval : (s.announced chatty r.source).eval rounds r.source.text = (t, outcome))
    (hstopped : outcome ≠ .done) :
    runSources rounds chatty s ⟨r.stream :: queue, last, closed⟩ =
      ⟨t, ⟨queue, r.source, closed ++ r.closer?.toList⟩,
        some (.stopped (r.source.at_ (outcomeLine t outcome)) outcome)⟩ := by
  rw [runSources]
  split
  all_goals
    rename_i hnext
    rw [next_of_none h] at hnext
    cases hnext
  simp only [Session.announced] at heval
  simp only [heval]

/-- A source that cannot be read or closed is not evaluated. -/
theorem runSources_of_error {error : Bytes} (h : r.error? = some error) :
    runSources rounds chatty s ⟨r.stream :: queue, last, closed⟩ =
      ⟨s, ⟨queue, r.source, closed ++ r.closer?.toList⟩, some (.input
        (ascii "failed to read " ++ r.source.name ++ ascii ": " ++ error))⟩ := by
  rw [runSources]
  split
  all_goals
    rename_i hnext
    rw [next_of_some h] at hnext
    cases hnext
  rfl

theorem runSources_nil :
    runSources rounds chatty s ⟨[], last, closed⟩ = ⟨s, ⟨[], last, closed⟩, none⟩ := by
  rw [runSources]
  split
  all_goals
    rename_i hnext
    cases hnext
  rfl

end TextStream

/-! ## All sources -/

/-- How an error is introduced that concerns a line of a source; a line that is not positive
is left out. -/
def TextStream.label (r : TextStream) (line : Int) : Bytes :=
  if 0 < line then r.source.name ++ ascii ":" ++ Bytes.ofInt line else r.source.name

theorem TextStream.message_stopped (r : TextStream) (line : Int) (outcome : Outcome) :
    (RunError.stopped (r.source.at_ line) outcome).message =
      r.label line ++ ascii ": " ++ outcome.message?.getD [] := by
  refine congrArg (· ++ ascii ": " ++ outcome.message?.getD []) ?_
  unfold Location.text label
  by_cases hline : 0 < line
  · rw [if_pos hline]
    exact if_neg (Int.not_le.2 hline)
  · rw [if_neg hline]
    exact if_pos (Int.not_lt.1 hline)

/-- What a run over sources may come to that left a session, given how the sources that were
evaluated ended, which these are, and what the rest of the queue is. -/
inductive Concludes (left : Session W) :
    List Outcome → List TextStream → List TextStream → Option RunError → Prop where
  /-- every source was read and ended -/
  | done {outcomes : List Outcome} {front : List TextStream}
      (ended : ∀ o ∈ outcomes, o = .done) : Concludes left outcomes front [] none
  /-- the next source cannot be read or closed -/
  | unread {outcomes : List Outcome} {front rest : List TextStream} {r : TextStream}
      {error : Bytes} {message : Bytes} (ended : ∀ o ∈ outcomes, o = .done)
      (fails : r.error? = some error)
      (text : message = ascii "failed to read " ++ r.source.name ++ ascii ": " ++ error) :
      Concludes left outcomes front (r :: rest) (some (.input message))
  /-- the source evaluated last did not end -/
  | stopped {outcomes : List Outcome} {outcome : Outcome} {front rest : List TextStream}
      {r : TextStream} {line : Int} (ended : ∀ o ∈ outcomes, o = .done)
      (stops : outcome ≠ .done)
      (line_of_fault : ∀ report, outcome = .fault report → line = report.line)
      (line_of_other : (∀ report, outcome ≠ .fault report) → line = left.line)
      (text : (RunError.stopped ⟨r.source.name, line⟩ outcome).message =
        r.label line ++ ascii ": " ++ outcome.message?.getD []) :
      Concludes left (outcomes ++ [outcome]) (front ++ [r]) rest
        (some (.stopped ⟨r.source.name, line⟩ outcome))

/-- What is to be said of a run over sources in a session: it evaluated the texts of `front`,
and left the session and the error. -/
structure Accounts (s : Session W) (rounds : Nat) (queue : List TextStream) (left : Session W)
    (error : Option RunError) (front rest : List TextStream) : Prop where
  queue_eq : queue = front ++ rest
  readable : ∀ r ∈ front, r.error? = none
  session : left.unremarked =
    (s.afterEntries rounds (front.map fun r => r.source.text)).unremarked
  concludes : Concludes left (s.outcomesOf rounds (front.map fun r => r.source.text)) front rest
    error

omit [FileSystem W] in
theorem Concludes.cons {left : Session W} {outcomes : List Outcome} {front rest : List TextStream}
    {error : Option RunError} (h : Concludes left outcomes front rest error) (r : TextStream) :
    Concludes left (.done :: outcomes) (r :: front) rest error := by
  have hcons : ∀ {outcomes : List Outcome}, (∀ o ∈ outcomes, o = .done) →
      ∀ o ∈ Outcome.done :: outcomes, o = .done := by
    intro outcomes hended o ho
    rcases List.mem_cons.1 ho with rfl | ho
    · rfl
    · exact hended o ho
  cases h with
  | done ended => exact .done (hcons ended)
  | unread ended fails text => exact .unread (hcons ended) fails text
  | stopped ended stops line_of_fault line_of_other text =>
    rw [← List.cons_append, ← List.cons_append]
    exact .stopped (hcons ended) stops line_of_fault line_of_other text

omit [FileSystem W] in
theorem concludes_of_stopped (left : Session W) {outcome : Outcome} (h : outcome ≠ .done)
    (r : TextStream) (rest : List TextStream) :
    Concludes left [outcome] [r] rest
      (some (.stopped (r.source.at_ (outcomeLine left outcome)) outcome)) := by
  change Concludes left ([] ++ [outcome]) ([] ++ [r]) rest _
  refine .stopped (List.forall_mem_nil _) h ?_ ?_ (r.message_stopped _ outcome)
  · rintro report rfl
    rfl
  · intro hother
    cases outcome with
    | fault report => exact absurd rfl (hother report)
    | done => rfl
    | exit => rfl
    | interrupted reason => rfl
    | crashed message => rfl
    | exhausted => rfl

/-- A run over sources accounts for its queue. -/
theorem exists_accounts (rounds : Nat) (chatty : Bool) (queue : List TextStream) :
    ∀ {s s₀ : Session W} {last : Source} {closed : List Bytes}, s.unremarked = s₀.unremarked →
      ∃ front rest, Accounts s₀ rounds queue
        (runSources rounds chatty s ⟨queue.map TextStream.stream, last, closed⟩).session
        (runSources rounds chatty s ⟨queue.map TextStream.stream, last, closed⟩).error
        front rest := by
  induction queue with
  | nil =>
    intro s s₀ last closed hs
    rw [List.map_nil, TextStream.runSources_nil]
    exact ⟨[], [], rfl, List.forall_mem_nil _, hs, .done (List.forall_mem_nil _)⟩
  | cons r queue ih =>
    intro s s₀ last closed hs
    rw [List.map_cons]
    cases herror : r.error? with
    | some error =>
      rw [TextStream.runSources_of_error herror]
      exact ⟨[], r :: queue, rfl, List.forall_mem_nil _, hs,
        .unread (List.forall_mem_nil _) herror rfl⟩
    | none =>
      obtain ⟨hsame, houtcome⟩ := Session.eval_of_unremarked
        ((s.unremarked_announced chatty r.source).trans hs) rounds r.source.text
      rcases heval : (s.announced chatty r.source).eval rounds r.source.text with ⟨t, outcome⟩
      rw [heval] at hsame houtcome
      by_cases hdone : outcome = .done
      · subst hdone
        rw [TextStream.runSources_of_done herror heval]
        obtain ⟨front, rest, hqueue, hreadable, hsession, hconcludes⟩ := ih hsame
        refine ⟨r :: front, rest, congrArg (r :: ·) hqueue, ?_, hsession, ?_⟩
        · exact List.forall_mem_cons.2 ⟨herror, hreadable⟩
        · have hcons := hconcludes.cons r
          rw [show Outcome.done = _ from houtcome] at hcons
          exact hcons
      · rw [TextStream.runSources_of_stopped herror heval hdone]
        refine ⟨[r], queue, rfl, ?_, hsame, ?_⟩
        · exact List.forall_mem_cons.2 ⟨herror, List.forall_mem_nil _⟩
        · have hstopped := concludes_of_stopped t hdone r queue
          rw [show outcome = _ from houtcome] at hstopped ⊢
          exact hstopped

/-- There is no error if and only if every source was read, closed and evaluated to its
end. -/
theorem Accounts.error_eq_none_iff {s left : Session W} {rounds : Nat} {queue : List TextStream}
    {error : Option RunError} {front rest : List TextStream}
    (h : Accounts s rounds queue left error front rest) :
    error = none ↔ (∀ r ∈ queue, r.error? = none) ∧
      ∀ o ∈ s.outcomesOf rounds (queue.map fun r => r.source.text), o = .done := by
  obtain ⟨rfl, hreadable, _, hconcludes⟩ := h
  rw [List.map_append, Session.outcomesOf_append]
  generalize s.outcomesOf rounds (front.map fun r => r.source.text) = outcomes at hconcludes ⊢
  constructor
  · rintro rfl
    cases hconcludes with
    | done ended =>
      rw [List.append_nil]
      refine ⟨hreadable, ?_⟩
      intro o ho
      rcases List.mem_append.1 ho with ho | ho
      · exact ended o ho
      · cases ho
  · rintro ⟨hall, hdone⟩
    cases hconcludes with
    | done ended => rfl
    | unread ended fails text =>
      rw [hall _ (List.mem_append_right _ List.mem_cons_self)] at fails
      cases fails
    | stopped ended stops line_of_fault line_of_other text =>
      refine absurd (hdone _ (List.mem_append_left _ ?_)) stops
      exact List.mem_append_right _ (List.mem_singleton_self _)

end Queue

namespace Command

variable {W : Type} [FileSystem W]

/-- A run over texts, whatever it comes to, closes every stream that can be closed once, in
the order of the queue.  It evaluates the texts in order up to the first that does not end,
and none from the first on that cannot be read or closed, so it leaves the session that those
evaluations leave.  Its error is the first one, introduced by what could not be read or by the
source and, if it is positive, the line; and there is none if and only if every source was
read, closed and evaluated to its end. -/
theorem runQueue_accounts (rounds : Nat) (chatty : Bool) (s : Session W)
    (queue : List TextStream) :
    (runQueue rounds chatty s (.ofStreams (queue.map TextStream.stream))).input.closed =
        queue.filterMap TextStream.closer? ∧
      (∃ front rest, Accounts s rounds queue
        (runQueue rounds chatty s (.ofStreams (queue.map TextStream.stream))).session
        (runQueue rounds chatty s (.ofStreams (queue.map TextStream.stream))).error front rest) ∧
      ((runQueue rounds chatty s (.ofStreams (queue.map TextStream.stream))).error = none ↔
        (∀ r ∈ queue, r.error? = none) ∧
          ∀ o ∈ s.outcomesOf rounds (queue.map fun r => r.source.text), o = .done) := by
  have hclosed := closed_runQueue rounds chatty s (.ofStreams (queue.map TextStream.stream))
  obtain ⟨front, rest, haccounts⟩ :
      ∃ front rest, Accounts s rounds queue
        (runQueue rounds chatty s (.ofStreams (queue.map TextStream.stream))).session
        (runQueue rounds chatty s (.ofStreams (queue.map TextStream.stream))).error front rest :=
    exists_accounts rounds chatty queue rfl
  refine ⟨?_, ⟨front, rest, haccounts⟩, haccounts.error_eq_none_iff⟩
  rw [hclosed]
  simp only [Input.ofStreams, List.nil_append, List.filterMap_map]
  refine congrArg (List.filterMap · queue) ?_
  funext r
  exact congrArg Prod.fst r.close_stream

/-- The line of a fault is left out of the message if it is zero. -/
theorem runQueue_fault_without_line :
    (runQueue 0 false Session.overNoFiles
        (.ofStreams [.named (ascii "a") (ascii "0 @@ .die") none])).error.map RunError.message =
      some (ascii "a: died") := by
  decide +kernel

end Command

end StackScript
