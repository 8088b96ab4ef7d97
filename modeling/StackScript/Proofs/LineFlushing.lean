import StackScript.Output
import StackScript.Proofs.Receivers
set_option autoImplicit false

/-!
# A line-flushing output holds back at most an unfinished line

A buffer and the receiver behind it account for everything written.  While the receiver has
reported no error, what it has received and what the buffer holds are together what was
written.  The first error it reports is the failure of the buffer; from then on nothing more
is handed on, and every use of the output reports this error.

A line-flushing output flushes its buffer after each write with a newline among its bytes.
So all that was written up to the end of the last such write has been received, if nothing
failed.
-/

namespace StackScript

open Receiver (handed firstError TakesAll)

/-! ## Buffers -/

namespace Buffer

variable {ω : Type} [Receiver ω] {w : ω} {b : Buffer ω} {pieces : List Bytes} {written p : Bytes}

/-- The buffer has handed certain pieces on to the receiver behind it, and accounts with it for
what was written. -/
structure Passes (w : ω) (b : Buffer ω) (pieces : List Bytes) (written : Bytes) : Prop where
  sink : b.sink = handed w pieces
  failure : b.failure = firstError w pieces
  front : Receiver.received b.sink <+: Receiver.received w ++ written
  all : b.failure = none → Receiver.received b.sink ++ b.held = Receiver.received w ++ written
  fits : b.held.length ≤ capacity

/-- A buffer that has not failed accounts for what it holds, counted from now. -/
theorem passes_of_failure_none (hfailure : b.failure = none) (hfits : b.held.length ≤ capacity) :
    b.Passes b.sink [] b.held :=
  ⟨rfl, hfailure, List.prefix_append _ _, fun _ => rfl, hfits⟩

/-- What the receiver got is the front of what was written. -/
theorem Passes.exists_sent (h : b.Passes w pieces written) :
    ∃ sent, Receiver.received b.sink = Receiver.received w ++ sent ∧ sent <+: written := by
  have hgrows := Receiver.received_le_handed w pieces
  rw [← h.sink] at hgrows
  obtain ⟨sent, hsent⟩ := hgrows
  refine ⟨sent, hsent.symm, ?_⟩
  have hfront := h.front
  rw [← hsent] at hfront
  exact (List.prefix_append_right_inj _).1 hfront

theorem Passes.front_append (h : b.Passes w pieces written) (p : Bytes) :
    Receiver.received b.sink <+: Receiver.received w ++ (written ++ p) := by
  rw [← List.append_assoc]
  exact h.front.trans (List.prefix_append _ _)

/-- Whatever is written after a failure, what was received is the front of it all. -/
theorem Passes.append_of_failure (h : b.Passes w pieces written) (hfailure : b.failure ≠ none)
    (p : Bytes) : b.Passes w pieces (written ++ p) where
  sink := h.sink
  failure := h.failure
  front := h.front_append p
  all := fun hnone => absurd hnone hfailure
  fits := h.fits

theorem Passes.hold (h : b.Passes w pieces written) (hroom : p.length ≤ b.available) :
    (b.hold p).Passes w pieces (written ++ p) where
  sink := h.sink
  failure := h.failure
  front := h.front_append p
  all := by
    intro hnone
    rw [← List.append_assoc, ← h.all hnone, List.append_assoc]
    rfl
  fits := by
    have hheld := h.fits
    simp only [available] at hroom
    simp only [Buffer.hold, List.length_append]
    omega

/-- One call of the receiver, with bytes that complete what was written. -/
theorem Passes.call (h : b.Passes w pieces written) (hfailure : b.failure = none)
    {q left all : Bytes} (hall : Receiver.received b.sink ++ q = Receiver.received w ++ all)
    (hleft : (Receiver.write b.sink q).2.error = none → left = [])
    (hfits : left.length ≤ capacity) :
    (⟨(Receiver.write b.sink q).1, left, (Receiver.write b.sink q).2.error⟩ : Buffer ω).Passes w
      (pieces ++ [q]) all where
  sink := by
    rw [Receiver.handed_concat, ← h.sink]
  failure := by
    rw [Receiver.firstError_concat, ← h.failure, hfailure, Option.none_or, ← h.sink]
  front := by
    rw [← hall, Receiver.received_write]
    exact (List.prefix_append_right_inj _).2 (List.take_prefix _ _)
  all := by
    intro hnone
    rw [hleft hnone, Receiver.received_write_of_error_none hnone, List.append_nil]
    exact hall
  fits := hfits

theorem Passes.flush (h : b.Passes w pieces written) :
    ∃ pieces', b.flush.Passes w pieces' written := by
  unfold Buffer.flush
  split
  · exact ⟨pieces, h⟩
  · rename_i hfailure
    split
    · exact ⟨pieces, h⟩
    · split
      · rename_i next count hwrite
        have hcall := h.call hfailure (h.all hfailure) (fun _ => rfl) (Nat.zero_le _)
        rw [hwrite] at hcall
        exact ⟨_, hcall⟩
      · rename_i next count error hwrite
        have hfailed : (Receiver.write b.sink b.held).2.error = none → b.held.drop count = [] := by
          rw [hwrite]
          exact fun hnone => (by cases hnone)
        have hfits : (b.held.drop count).length ≤ capacity :=
          Nat.le_trans (List.drop_sublist count b.held).length_le h.fits
        have hcall := h.call hfailure (h.all hfailure) hfailed hfits
        rw [hwrite] at hcall
        exact ⟨_, hcall⟩

/-- A flush that does not fail leaves nothing to receive. -/
theorem Passes.received_flush (h : b.Passes w pieces written) (hnone : b.flush.failure = none) :
    Receiver.received b.flush.sink = Receiver.received w ++ written := by
  obtain ⟨_, hflushed⟩ := h.flush
  have hall := hflushed.all hnone
  rwa [held_flush_of_failure_none hnone, List.append_nil] at hall

/-- A round of a long write: the buffer is filled and flushed. -/
theorem Passes.fill (h : b.Passes w pieces written) (p : Bytes) :
    ∃ pieces', (b.hold (p.take (min b.available p.length))).flush.Passes w pieces'
      (written ++ p.take (min b.available p.length)) := by
  refine (h.hold ?_).flush
  rw [List.length_take]
  omega

theorem Passes.write (h : b.Passes w pieces written) (direct : Bool) (p : Bytes) :
    ∃ pieces', (b.write direct p).1.Passes w pieces' (written ++ p) := by
  fun_induction Buffer.write direct b p generalizing pieces written with
  | case1 b p _ hfailure =>
    exact ⟨pieces, h.append_of_failure (Option.isSome_iff_ne_none.1 hfailure) p⟩
  | case2 b p hroom hfailure => exact ⟨pieces, h.hold (hroom.resolve_right hfailure)⟩
  | case3 b p hroom hdirect sink count error hwrite =>
    -- past the empty buffer, straight to the receiver
    obtain ⟨_, hworking⟩ := not_or.1 hroom
    have hnone : b.failure = none := Option.not_isSome_iff_eq_none.1 hworking
    have hall := h.all hnone
    rw [hdirect.2, List.append_nil] at hall
    have hwhole : Receiver.received b.sink ++ p = Receiver.received w ++ (written ++ p) := by
      rw [hall, List.append_assoc]
    have hcall := h.call hnone hwhole (fun _ => rfl) (Nat.zero_le _)
    rw [hwrite] at hcall
    exact ⟨_, hcall⟩
  | case4 b p hroom hdirect =>
    rename_i count next hfailure
    obtain ⟨pieces', hnext⟩ := h.fill p
    have hall := hnext.append_of_failure (Option.isSome_iff_ne_none.1 hfailure) (p.drop count)
    rw [List.append_assoc, List.take_append_drop] at hall
    exact ⟨pieces', hall⟩
  | case5 b p hroom hdirect =>
    rename_i count next hfailure rest ih
    obtain ⟨pieces', hnext⟩ := h.fill p
    obtain ⟨pieces'', hrest⟩ := ih hnext
    rw [List.append_assoc, List.take_append_drop] at hrest
    exact ⟨pieces'', hrest⟩

/-- A buffer that has failed stays as it is. -/
theorem write_of_failure {error : Bytes} (h : b.failure = some error) (direct : Bool)
    (p : Bytes) : b.write direct p = (b, 0) := by
  unfold Buffer.write
  simp only [h, Option.isSome_some, or_true, if_true]

theorem flush_of_failure {error : Bytes} (h : b.failure = some error) : b.flush = b := by
  simp only [Buffer.flush, h]

end Buffer

/-! ## Uses of an output -/

namespace Output

variable {ω : Type} [Receiver ω]

/-- How an output is used.  Bytes and text are written in two ways. -/
inductive Use where
  | write (p : Bytes)
  | writeText (p : Bytes)
  | flush
  deriving DecidableEq, Repr, Inhabited

/-- What a use writes. -/
def Use.data : Use → Bytes
  | .write p => p
  | .writeText p => p
  | .flush => []

/-- What some uses write. -/
def written (uses : List Use) : Bytes := uses.flatMap Use.data

/-- Uses an output, and says what went wrong. -/
def use (out : Output ω) : Use → Output ω × Option FlushError
  | .write p => ((out.write true p).1, (out.write true p).2.error.map .failed)
  | .writeText p => ((out.writeText p).1, (out.writeText p).2.error.map .failed)
  | .flush => out.flush

/-- An output after some uses. -/
def afterUses (out : Output ω) (uses : List Use) : Output ω :=
  uses.foldl (fun out u => (out.use u).1) out

/-- Every later use reports the error and leaves the output as it is. -/
def Stuck (out : Output ω) (error : FlushError) : Prop :=
  ∀ more u, (out.afterUses more).use u = (out, some error)

/-! ## Line-flushing outputs -/

/-- The buffer of a line-flushing output after a use. -/
def lineBuffer (b : Buffer ω) : Use → Buffer ω
  | .write p => (writeByLine b p).1
  | .writeText p => (writeByLine b p).1
  | .flush => b.flush

/-- Each use of a line-flushing output reports the failure of its buffer. -/
theorem use_byLine (b : Buffer ω) (u : Use) :
    (byLine b).use u = (.byLine (lineBuffer b u), (lineBuffer b u).failure.map .failed) := by
  cases u with
  | write p => rfl
  | writeText p => rfl
  | flush => rfl

theorem afterUses_byLine (b : Buffer ω) (uses : List Use) :
    (byLine b).afterUses uses = .byLine (uses.foldl lineBuffer b) := by
  induction uses generalizing b with
  | nil => rfl
  | cons u uses ih =>
    rw [afterUses, List.foldl_cons, use_byLine]
    exact ih (lineBuffer b u)

variable {w : ω} {b : Buffer ω} {pieces : List Bytes} {before : Bytes} {u : Use}

/-- A line-flushing write is a write, and a flush after it if there is a newline. -/
theorem writeByLine_cases (b : Buffer ω) (p : Bytes) :
    (writeByLine b p).1 = (b.write true p).1.flush ∨
      (writeByLine b p).1 = (b.write true p).1 ∧
        ((b.write true p).1.failure = none → newline ∉ p) := by
  simp only [writeByLine]
  split
  · exact .inl rfl
  · rename_i hstays
    refine .inr ⟨rfl, fun hnone hline => hstays ?_⟩
    rw [hnone, List.contains_iff_mem.2 hline]
    rfl

theorem exists_passes_writeByLine (h : b.Passes w pieces before) (p : Bytes) :
    ∃ pieces', (writeByLine b p).1.Passes w pieces' (before ++ p) := by
  obtain ⟨pieces', hwritten⟩ := h.write true p
  rcases writeByLine_cases b p with hflush | ⟨hwrite, _⟩
  · rw [hflush]
    exact hwritten.flush
  · rw [hwrite]
    exact ⟨pieces', hwritten⟩

theorem held_writeByLine {p : Bytes} (hline : newline ∈ p)
    (hnone : (writeByLine b p).1.failure = none) : (writeByLine b p).1.held = [] := by
  rcases writeByLine_cases b p with hflush | ⟨hwrite, hstays⟩
  · rw [hflush] at hnone ⊢
    exact Buffer.held_flush_of_failure_none hnone
  · rw [hwrite] at hnone
    exact absurd hline (hstays hnone)

theorem exists_passes_lineBuffer (h : b.Passes w pieces before) (u : Use) :
    ∃ pieces', (lineBuffer b u).Passes w pieces' (before ++ u.data) := by
  cases u with
  | write p => exact exists_passes_writeByLine h p
  | writeText p => exact exists_passes_writeByLine h p
  | flush =>
    rw [Use.data, List.append_nil]
    exact h.flush

/-- After a use that finishes a line, nothing is held. -/
theorem held_lineBuffer (hline : newline ∈ u.data) (hnone : (lineBuffer b u).failure = none) :
    (lineBuffer b u).held = [] := by
  cases u with
  | write p => exact held_writeByLine hline hnone
  | writeText p => exact held_writeByLine hline hnone
  | flush => cases hline

theorem lineBuffer_of_failure {error : Bytes} (h : b.failure = some error) (u : Use) :
    lineBuffer b u = b := by
  have hwrite : ∀ p, (writeByLine b p).1 = b := by
    intro p
    simp only [writeByLine, Buffer.write_of_failure h, h, Option.isNone_some, Bool.false_and,
      Bool.false_eq_true, if_false]
  cases u with
  | write p => exact hwrite p
  | writeText p => exact hwrite p
  | flush => exact Buffer.flush_of_failure h

/-! ## Any number of uses -/

theorem exists_passes_foldl (h : b.Passes w pieces before) (uses : List Use) :
    ∃ pieces', (uses.foldl lineBuffer b).Passes w pieces' (before ++ written uses) := by
  induction uses generalizing b pieces before with
  | nil =>
    rw [written, List.flatMap_nil, List.append_nil]
    exact ⟨pieces, h⟩
  | cons u uses ih =>
    obtain ⟨pieces', hnext⟩ := exists_passes_lineBuffer h u
    rw [written, List.flatMap_cons, ← List.append_assoc]
    exact ih hnext

theorem foldl_lineBuffer_of_failure {error : Bytes} (h : b.failure = some error)
    (uses : List Use) : uses.foldl lineBuffer b = b := by
  induction uses with
  | nil => rfl
  | cons u uses ih => rw [List.foldl_cons, lineBuffer_of_failure h u, ih]

theorem stuck_of_failure {error : Bytes} (h : b.failure = some error) :
    (byLine b).Stuck (.failed error) := by
  intro more u
  rw [afterUses_byLine, foldl_lineBuffer_of_failure h, use_byLine, lineBuffer_of_failure h, h]
  rfl

/-- What was received stays received, counted from any moment. -/
theorem received_le_foldl (hfits : b.held.length ≤ Buffer.capacity) (uses : List Use) :
    Receiver.received b.sink <+: Receiver.received (uses.foldl lineBuffer b).sink := by
  cases hfailure : b.failure with
  | none =>
    obtain ⟨pieces, hpasses⟩ :=
      exists_passes_foldl (Buffer.passes_of_failure_none hfailure hfits) uses
    rw [hpasses.sink]
    exact Receiver.received_le_handed b.sink pieces
  | some error =>
    simp only [foldl_lineBuffer_of_failure hfailure, List.prefix_rfl]

/-- As long as nothing failed, all that was written up to the end of a use that finishes a line
has been received. -/
theorem written_le_received (h : b.Passes w pieces before) (hline : newline ∈ u.data)
    (hnone : (lineBuffer b u).failure = none) (later : List Use) :
    Receiver.received w ++ (before ++ u.data) <+:
      Receiver.received (later.foldl lineBuffer (lineBuffer b u)).sink := by
  obtain ⟨pieces', hnext⟩ := exists_passes_lineBuffer h u
  have hall := hnext.all hnone
  rw [held_lineBuffer hline hnone, List.append_nil] at hall
  rw [← hall]
  exact received_le_foldl hnext.fits later

theorem exists_passes_ofSink (w : ω) (uses : List Use) :
    ∃ pieces, (uses.foldl lineBuffer (.ofSink w)).Passes w pieces (written uses) :=
  exists_passes_foldl (Buffer.passes_of_failure_none (b := .ofSink w) rfl (Nat.zero_le _)) uses

/-- Nothing fails over a receiver that takes all. -/
theorem failure_of_takesAll (h : TakesAll w) (uses : List Use) :
    (uses.foldl lineBuffer (.ofSink w)).failure = none := by
  obtain ⟨pieces, hpasses⟩ := exists_passes_ofSink w uses
  rw [hpasses.failure, h pieces]

theorem failure_lineBuffer_of_takesAll (h : TakesAll w) (uses : List Use) (u : Use) :
    (lineBuffer (uses.foldl lineBuffer (.ofSink w)) u).failure = none := by
  have hnone := failure_of_takesAll h (uses ++ [u])
  rwa [List.foldl_append] at hnone

/-- A use that reports an error is the last that does anything. -/
theorem stuck_of_report {error : FlushError} (h : ((byLine b).use u).2 = some error) :
    ((byLine b).use u).1.Stuck error := by
  rw [use_byLine] at h ⊢
  obtain ⟨message, hfailure, rfl⟩ := Option.map_eq_some_iff.1 h
  exact stuck_of_failure hfailure

/-- A line-flushing output holds back at most an unfinished line.  What its receiver gets is
the front of what is written, whatever fails.  If the receiver takes all, then no use fails,
the output holds the rest, everything up to the end of the last use with a newline has been
received, and after a flush all has.  Once the receiver has reported an error, nothing more
is handed to it and every later use reports that error. -/
theorem byLine_holds_unfinished_line (w : ω) (uses : List Use) :
    ∃ b pieces, (byLine (.ofSink w)).afterUses uses = .byLine b ∧ b.sink = handed w pieces ∧
      b.held.length ≤ 4096 ∧
      (∃ sent, Receiver.received b.sink = Receiver.received w ++ sent ∧ sent <+: written uses) ∧
      (TakesAll w →
        (∀ u, ((byLine b).use u).2 = none) ∧
        Receiver.received b.sink ++ b.held = Receiver.received w ++ written uses ∧
        (∀ earlier u later, uses = earlier ++ u :: later → newline ∈ u.data →
          Receiver.received w ++ written (earlier ++ [u]) <+: Receiver.received b.sink) ∧
        ∃ last, (byLine b).flush = (.byLine last, none) ∧
          Receiver.received last.sink = Receiver.received w ++ written uses) ∧
      (∀ error, firstError w pieces = some error → (byLine b).Stuck (.failed error)) ∧
      (∀ u error, ((byLine b).use u).2 = some error → ((byLine b).use u).1.Stuck error) := by
  obtain ⟨pieces, h⟩ := exists_passes_ofSink w uses
  refine ⟨uses.foldl lineBuffer (.ofSink w), pieces, afterUses_byLine _ uses, h.sink, h.fits,
    h.exists_sent, ?_, ?_, fun u error => stuck_of_report⟩
  · intro htakes
    have hnone := failure_lineBuffer_of_takesAll htakes
    refine ⟨?_, h.all (failure_of_takesAll htakes uses), ?_, ?_⟩
    · intro u
      rw [use_byLine, hnone uses u]
      rfl
    · rintro earlier u later rfl hline
      obtain ⟨_, hearlier⟩ := exists_passes_ofSink w earlier
      rw [List.foldl_append, written, List.flatMap_append, List.flatMap_singleton]
      exact written_le_received hearlier hline (hnone earlier u) later
    · have hflush : (uses.foldl lineBuffer (.ofSink w)).flush.failure = none := hnone uses .flush
      refine ⟨_, ?_, h.received_flush hflush⟩
      rw [flush, hflush]
      rfl
  · intro error herror
    exact stuck_of_failure (h.failure.trans herror)

/-- Of three writes to a sink without a limit, the first two have been received when the second
has a newline in it.  A receiver that takes three bytes of its first call fails for the second
write and would recover, but is not called again. -/
theorem byLine_holds_unfinished_line_twoReceivers :
    let u := Use.writeText (ascii "c\nd")
    let uses := [.write (ascii "ab"), u, .write (ascii "e")]
    let fitful := (byLine (.ofSink (⟨[3], []⟩ : Fitful))).afterUses [.write (ascii "ab")]
    TakesAll (Sink.ofLimit none) ∧ newline ∈ u.data ∧
      (∃ b, (byLine (.ofSink (Sink.ofLimit none))).afterUses uses = .byLine b ∧
        Sink.received b.sink ++ b.held = ascii "abc\nde" ∧
        ascii "abc\nd" <+: Sink.received b.sink) ∧
      (fitful.use u).2 = some (.failed broken) ∧ (fitful.use u).1.Stuck (.failed broken) := by
  intro u uses fitful
  have hline : newline ∈ u.data := by decide
  have hfails : (fitful.use u).2 = some (.failed broken) := by decide +kernel
  refine ⟨Sink.takesAll_ofLimit_none, hline, ?_, hfails, ?_⟩
  · obtain ⟨b, _, hafter, _, _, _, htakes, _⟩ :=
      byLine_holds_unfinished_line (Sink.ofLimit none) uses
    obtain ⟨_, hall, hlines, _⟩ := htakes Sink.takesAll_ofLimit_none
    exact ⟨b, hafter, hall, hlines [.write (ascii "ab")] u [.write (ascii "e")] rfl hline⟩
  · obtain ⟨b, _, hafter, _, _, _, _, _, hstuck⟩ :=
      byLine_holds_unfinished_line (⟨[3], []⟩ : Fitful) [.write (ascii "ab")]
    rw [← hafter] at hstuck
    exact hstuck u _ hfails

end Output

end StackScript
