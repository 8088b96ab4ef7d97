import StackScript.Proofs.Recording
set_option autoImplicit false

/-!
# Delivery of output

Output goes through a buffer to a sink that may take only so many bytes in all.  What
has been printed is at every moment what the sink has received and what the buffer
holds, in this order; or else the sink has failed, and then it has received as much of
the beginning as it takes.

A call flushes the buffer whichever way it ends, unless it is cut short.  So after it the
sink has received everything printed so far, or as much of that as it takes.
-/

namespace StackScript

/-- As much of some bytes as gets through a limit. -/
def Bytes.within (limit : Option Nat) (p : Bytes) : Bytes :=
  match limit with
  | none => p
  | some most => p.take most

/-! ## Sinks -/

namespace Sink

/-- A sink that has taken all it was given so far, and takes no more than a limit in all. -/
structure Bounded (limit : Option Nat) (s : Sink) : Prop where
  room : s.room = limit.map (· - s.received.length)
  fits : ∀ most, limit = some most → s.received.length ≤ most

theorem bounded_of_unused (limit : Option Nat) (takesTexts : Bool) :
    (⟨limit, [], takesTexts⟩ : Sink).Bounded limit := by
  refine ⟨?_, ?_⟩
  · cases limit <;> rfl
  · exact fun _ _ => Nat.zero_le _

/-- What becomes of bytes that are handed to a sink: they are all taken, or only as many
as the limit lets through. -/
theorem write_cases {limit : Option Nat} {s : Sink} (h : s.Bounded limit) (p : Bytes) :
    (∃ next, s.write p = (next, ⟨p.length, none⟩) ∧ next.Bounded limit ∧
      next.received = s.received ++ p) ∨
    ∃ next count most, s.write p = (next, ⟨count, some broken⟩) ∧ limit = some most ∧
      most < (s.received ++ p).length ∧ next.received = (s.received ++ p).take most := by
  cases limit with
  | none =>
    have hroom : s.room = none := h.room
    refine .inl ⟨{ s with calls := p :: s.calls }, ?_, ⟨hroom, ?_⟩, received_cons s s.room p⟩
    · simp only [write, hroom]
    · intro most hmost
      cases hmost
  | some most =>
    have hroom : s.room = some (most - s.received.length) := h.room
    have hfits := h.fits most rfl
    by_cases hle : p.length ≤ most - s.received.length
    · refine .inl ⟨⟨some (most - s.received.length - p.length), p :: s.calls, s.takesTexts⟩,
        ?_, ⟨?_, ?_⟩, received_cons s _ p⟩
      · simp only [write, hroom, if_pos hle]
      · simp only [received_cons, Option.map_some, List.length_append, Nat.sub_sub]
      · intro most' hmost'
        cases hmost'
        simp only [received_cons, List.length_append]
        omega
    · have hshort : most < (s.received ++ p).length := by
        rw [List.length_append]
        omega
      refine .inr ?_
      by_cases hzero : most - s.received.length = 0
      · refine ⟨s, 0, most, ?_, rfl, hshort, ?_⟩
        · simp only [write, hroom, if_neg hle, if_pos hzero]
        · have hfull : most = s.received.length := by omega
          rw [hfull, List.take_left]
      · refine ⟨⟨some 0, p.take (most - s.received.length) :: s.calls, s.takesTexts⟩,
          most - s.received.length, most, ?_, rfl, hshort, ?_⟩
        · simp only [write, hroom, if_neg hle, if_neg hzero]
        · rw [received_cons, List.take_append, List.take_of_length_le hfits]

end Sink

/-! ## Buffers -/

namespace Buffer

/-- The buffer and its sink account for everything printed: all of it has been received
or is held, or the sink has failed for want of room and has received what fits. -/
inductive Carries (limit : Option Nat) (b : Buffer) (printed : Bytes) : Prop where
  | working (failure : b.failure = none) (bounded : b.sink.Bounded limit)
      (all : b.sink.received ++ b.held = printed)
  | failed (most : Nat) (failure : b.failure.isSome = true) (limited : limit = some most)
      (short : most < printed.length) (received : b.sink.received = printed.take most)

variable {limit : Option Nat} {b : Buffer} {printed : Bytes}

theorem carries_ofSink (limit : Option Nat) (takesTexts : Bool) :
    (ofSink ⟨limit, [], takesTexts⟩).Carries limit [] :=
  .working rfl (Sink.bounded_of_unused limit takesTexts) rfl

/-- Whatever is printed after a failure, the sink has received what fits. -/
theorem Carries.append_of_failure (h : b.Carries limit printed) (hfailure : b.failure.isSome = true)
    (p : Bytes) : b.Carries limit (printed ++ p) := by
  cases h with
  | working failure _ _ =>
    rw [failure] at hfailure
    cases hfailure
  | failed most failure limited short received =>
    refine .failed most failure limited ?_ ?_
    · rw [List.length_append]
      omega
    · rw [received, List.take_append_of_le_length (Nat.le_of_lt short)]

theorem Carries.hold (h : b.Carries limit printed) (hfailure : b.failure = none) (p : Bytes) :
    (b.hold p).Carries limit (printed ++ p) := by
  cases h with
  | working failure bounded all =>
    refine .working failure bounded ?_
    rw [← all, List.append_assoc]
    rfl
  | failed most failure limited short received =>
    rw [hfailure] at failure
    cases failure

/-- Handing bytes to the sink of an empty buffer, as both a flush and a direct write do. -/
theorem carries_of_sink_write {s : Sink} {p : Bytes} (h : s.Bounded limit)
    (hprinted : s.received ++ p = printed) (left : Nat → Bytes) :
    (⟨(Receiver.write s p).1,
      if (Receiver.write s p).2.error.isSome then left (Receiver.write s p).2.count else [],
      (Receiver.write s p).2.error⟩ : Buffer).Carries limit printed := by
  have hsink : Receiver.write s p = s.write p := rfl
  rw [hsink]
  rcases Sink.write_cases h p with ⟨next, hwrite, hbounded, hreceived⟩ |
    ⟨next, count, most, hwrite, hlimit, hshort, hreceived⟩
  · rw [hwrite]
    refine .working rfl hbounded ?_
    rw [← hprinted, ← hreceived]
    exact List.append_nil _
  · rw [hwrite]
    rw [hprinted] at hshort hreceived
    exact .failed most rfl hlimit hshort hreceived

theorem Carries.flush (h : b.Carries limit printed) : b.flush.Carries limit printed := by
  unfold Buffer.flush
  split
  · exact h
  · rename_i hfailure
    cases h with
    | failed most failure limited short received =>
      rw [hfailure] at failure
      cases failure
    | working failure bounded all =>
      split
      · exact .working failure bounded all
      · have hsink := carries_of_sink_write bounded all fun count => b.held.drop count
        split
        · rename_i hwrite
          rw [hwrite] at hsink
          exact hsink
        · rename_i hwrite
          rw [hwrite] at hsink
          exact hsink

theorem Carries.write (h : b.Carries limit printed) (direct : Bool) (p : Bytes) :
    (b.write direct p).1.Carries limit (printed ++ p) := by
  fun_induction Buffer.write direct b p generalizing printed with
  | case1 b p _ hfailure => exact h.append_of_failure hfailure p
  | case2 b p _ hfailure => exact h.hold (by simpa using hfailure) p
  | case3 b p hroom hdirect sink count error hwrite =>
    -- past the empty buffer, straight to the sink
    cases h with
    | failed most failure _ _ _ => exact absurd (.inr failure) hroom
    | working failure bounded all =>
      have hsink := carries_of_sink_write bounded rfl (p := p) fun _ => []
      rw [hwrite, ite_self] at hsink
      rw [← all, hdirect.2, List.append_nil]
      exact hsink
  | case4 b p hroom hdirect count next =>
    rename_i hfailure
    have hnone : b.failure = none := by
      simpa using fun hfailed => hroom (.inr hfailed)
    have hnext : next.Carries limit (printed ++ p.take count) := (h.hold hnone _).flush
    have hall := hnext.append_of_failure hfailure (p.drop count)
    rwa [List.append_assoc, List.take_append_drop] at hall
  | case5 b p hroom hdirect count next hfailure rest =>
    rename_i ih
    have hnone : b.failure = none := by
      simpa using fun hfailed => hroom (.inr hfailed)
    have hnext : next.Carries limit (printed ++ p.take count) := (h.hold hnone _).flush
    have hall := ih hnext
    rwa [List.append_assoc, List.take_append_drop] at hall

/-- After a flush the sink has received what gets through its limit, and all that was
printed unless it has failed. -/
theorem Carries.received_flush (h : b.Carries limit printed) :
    b.flush.sink.received = printed.within limit ∧
      (b.flush.failure = none → b.flush.sink.received = printed) := by
  cases h.flush with
  | working failure bounded all =>
    rw [held_flush_of_failure_none failure, List.append_nil] at all
    refine ⟨?_, fun _ => all⟩
    cases limit with
    | none => exact all
    | some most =>
      have hfits := bounded.fits most rfl
      rw [all] at hfits
      rw [all, Bytes.within, List.take_of_length_le hfits]
  | failed most failure limited short received =>
    refine ⟨?_, ?_⟩
    · rw [received, limited]
      rfl
    · intro hnone
      rw [hnone] at failure
      cases failure

end Buffer

/-! ## Outputs -/

namespace Output

/-- An output that nothing was written to, whose far end takes bytes up to a limit.  Only
a sink has one, whether it takes texts as they are or not. -/
def IsFresh (limit : Option Nat) : Output → Prop
  | .memory written => limit = none ∧ written = []
  | .discard => limit = none
  | .buffered b => ∃ takesTexts, b = .ofSink ⟨limit, [], takesTexts⟩
  | .byLine b => ∃ takesTexts, b = .ofSink ⟨limit, [], takesTexts⟩
  | .brittle written => limit = none ∧ written = []

/-- The far end of an output has received certain bytes.  Nowhere receives everything. -/
def HasReceived (out : Output) (p : Bytes) : Prop := out = .discard ∨ out.received = p

/-- The output accounts for everything printed. -/
def Carries (limit : Option Nat) (out : Output) (printed : Bytes) : Prop :=
  match out with
  | .buffered b => b.Carries limit printed
  | .byLine b => b.Carries limit printed
  | out => limit = none ∧ out.HasReceived printed

variable {limit : Option Nat} {out : Output} {printed : Bytes}

theorem IsFresh.carries (h : out.IsFresh limit) : out.Carries limit [] := by
  cases out with
  | memory written =>
    obtain ⟨hlimit, rfl⟩ := h
    exact ⟨hlimit, .inr rfl⟩
  | discard => exact ⟨h, .inl rfl⟩
  | buffered b =>
    obtain ⟨takesTexts, rfl⟩ := h
    exact Buffer.carries_ofSink limit takesTexts
  | byLine b =>
    obtain ⟨takesTexts, rfl⟩ := h
    exact Buffer.carries_ofSink limit takesTexts
  | brittle written =>
    obtain ⟨hlimit, rfl⟩ := h
    exact ⟨hlimit, .inr rfl⟩

theorem Carries.write (h : out.Carries limit printed) (direct : Bool) (p : Bytes) :
    (out.write direct p).1.Carries limit (printed ++ p) := by
  cases out with
  | memory written =>
    obtain ⟨hlimit, hnowhere | hreceived⟩ := h
    · cases hnowhere
    · refine ⟨hlimit, .inr ?_⟩
      rw [← hreceived]
      simp [Output.write, received, pieces]
  | discard => exact ⟨h.1, .inl rfl⟩
  | buffered b => exact Buffer.Carries.write h direct p
  | byLine b =>
    have hwritten : (b.write true p).1.Carries limit (printed ++ p) := Buffer.Carries.write h true p
    simp only [Output.write, writeByLine]
    split
    · exact hwritten.flush
    · exact hwritten
  | brittle written =>
    obtain ⟨hlimit, hnowhere | hreceived⟩ := h
    · cases hnowhere
    · refine ⟨hlimit, .inr ?_⟩
      rw [← hreceived]
      simp [Output.write, received, pieces]

/-- Nothing reaches the far end after a write that failed. -/
theorem Carries.append_of_error {direct : Bool} {p : Bytes}
    (h : (out.write direct p).1.Carries limit printed)
    (herror : (out.write direct p).2.error.isSome = true) (q : Bytes) :
    (out.write direct p).1.Carries limit (printed ++ q) := by
  cases out with
  | memory written => cases herror
  | discard => cases herror
  | buffered b => exact Buffer.Carries.append_of_failure h herror q
  | byLine b => exact Buffer.Carries.append_of_failure h herror q
  | brittle written => cases herror

theorem Carries.writeLine (h : out.Carries limit printed) (text : Bytes) :
    (out.writeLine text).1.Carries limit (printed ++ text ++ [newline]) := by
  have hfirst := h.write out.takesTexts text
  unfold Output.writeLine Output.writeText
  split
  · next next count error hwrite =>
    have hfailed : (out.write out.takesTexts text).2.error.isSome = true := by
      rw [hwrite]
      rfl
    have hall := hfirst.append_of_error hfailed [newline]
    rwa [hwrite] at hall
  · next next count hwrite =>
    rw [hwrite] at hfirst
    exact Carries.write hfirst next.takesTexts [newline]

theorem Carries.flush (h : out.Carries limit printed) : out.flush.1.Carries limit printed := by
  cases out with
  | memory written => exact h
  | discard => exact h
  | buffered b => exact Buffer.Carries.flush h
  | byLine b => exact Buffer.Carries.flush h
  | brittle written => exact h

theorem follows_carries (limit : Option Nat) : Follows (Carries limit) :=
  ⟨Carries.writeLine, Carries.flush⟩

/-- A flush that reports no failure has handed on everything. -/
theorem Carries.hasReceived_of_flush {last : Output} (h : out.Carries limit printed)
    (hflush : out.flush = (last, none)) : last.HasReceived printed := by
  cases out with
  | memory written =>
    cases hflush
    exact h.2
  | discard =>
    cases hflush
    exact h.2
  | buffered b =>
    obtain ⟨rfl, hnone⟩ := Prod.mk.inj hflush
    exact .inr ((Buffer.Carries.received_flush h).2 (Option.map_eq_none_iff.1 hnone))
  | byLine b =>
    obtain ⟨rfl, hnone⟩ := Prod.mk.inj hflush
    exact .inr ((Buffer.Carries.received_flush h).2 (Option.map_eq_none_iff.1 hnone))
  | brittle written => cases hflush

/-- Any flush has handed on what gets through the limit. -/
theorem Carries.hasReceived_flush (h : out.Carries limit printed) :
    out.flush.1.HasReceived (printed.within limit) := by
  cases out with
  | memory written =>
    obtain ⟨rfl, hreceived⟩ := h
    exact hreceived
  | discard => exact .inl rfl
  | buffered b => exact .inr (Buffer.Carries.received_flush h).1
  | byLine b => exact .inr (Buffer.Carries.received_flush h).1
  | brittle written =>
    obtain ⟨rfl, hreceived⟩ := h
    exact hreceived

/-- Where there is a limit, there is a far end. -/
theorem Carries.received_eq {most : Nat} {p : Bytes} (h : out.Carries (some most) printed)
    (hreceived : out.HasReceived p) : out.received = p := by
  rcases hreceived with rfl | hreceived
  · exact absurd h.1 (by simp)
  · exact hreceived

/-! An output that goes somewhere goes on doing so. -/

theorem write_ne_discard (h : out ≠ .discard) (direct : Bool) (p : Bytes) :
    (out.write direct p).1 ≠ .discard := by
  cases out with
  | discard => exact absurd rfl h
  | _ => simp [write]

theorem writeLine_ne_discard (h : out ≠ .discard) (text : Bytes) :
    (out.writeLine text).1 ≠ .discard :=
  writeLine_keeps (P := fun next => next ≠ .discard) write_ne_discard h text

theorem flush_ne_discard (h : out ≠ .discard) : out.flush.1 ≠ .discard := by
  cases out with
  | discard => exact absurd rfl h
  | _ => simp [flush]

end Output

/-! ## Calls -/

/-- Whether a call was not cut short, by a crash of the host or for want of rounds. -/
def Outcome.isOrderly : Outcome → Bool
  | .crashed _ => false
  | .exhausted => false
  | _ => true

namespace Outcome

variable {limit : Option Nat} {last : Output} {printed : Bytes}

/-- A call that is not cut short ends with a flush. -/
theorem Closes.exists_flush {J : Output → Bytes → Prop} {outcome : Outcome}
    (h : outcome.Closes J last printed) (horderly : outcome.isOrderly = true) :
    ∃ out : Output, J out printed ∧ out.flush.1 = last := by
  cases outcome with
  | done =>
    obtain ⟨out, hout, hflush⟩ := h
    exact ⟨out, hout, by rw [hflush]⟩
  | crashed message => cases horderly
  | exhausted => cases horderly
  | exit => exact h
  | fault report => exact h
  | interrupted reason => exact h

theorem Closes.hasReceived_within {outcome : Outcome}
    (h : outcome.Closes (Output.Carries limit) last printed) (horderly : outcome.isOrderly = true) :
    last.HasReceived (printed.within limit) := by
  obtain ⟨out, hout, rfl⟩ := h.exists_flush horderly
  exact hout.hasReceived_flush

theorem Closes.hasReceived_of_done (h : Outcome.done.Closes (Output.Carries limit) last printed) :
    last.HasReceived printed := by
  obtain ⟨out, hout, hflush⟩ := h
  exact hout.hasReceived_of_flush hflush

end Outcome

namespace Session

variable {W : Type} [FileSystem W]

/-- Output is delivered completely and in order.  Over a sink that takes `most` bytes in
all, behind a buffer that is flushed when it is full or after each line: after any calls,
a call that is not cut short leaves the sink with the first `most` bytes of everything
printed so far, and if it reports success these are all. -/
theorem received_afterCalls (s : Session W) (most : Nat)
    (hout : s.output = .buffered (.ofSink (.ofLimit (some most))) ∨
      s.output = .byLine (.ofSink (.ofLimit (some most)))) (calls : List Call) (c : Call) :
    (s.recordedCalls (calls ++ [c])).unobserved = ((s.afterCalls calls).call c).1 ∧
      (((s.afterCalls calls).call c).2.isOrderly = true →
        ((s.afterCalls calls).call c).1.output.received =
          (s.printedBy (calls ++ [c])).take (min most (s.printedBy (calls ++ [c])).length)) ∧
      (((s.afterCalls calls).call c).2 = .done →
        (s.printedBy (calls ++ [c])).length ≤ most) := by
  have hfresh : s.output.IsFresh (some most) := by
    rcases hout with hout | hout
    · rw [hout]
      exact ⟨false, rfl⟩
    · rw [hout]
      exact ⟨false, rfl⟩
  have hfollows := Output.follows_carries (some most)
  have hcloses := hfollows.closes_call hfresh.carries calls c
  have hcarries := hfollows.of_closes hcloses
  generalize s.printedBy (calls ++ [c]) = printed at hcloses hcarries ⊢
  refine ⟨?_, ?_, ?_⟩
  · rw [unobserved_recordedCalls]
    simp only [afterCalls, List.foldl_append, List.foldl_cons, List.foldl_nil]
  · intro horderly
    have hreceived := hcarries.received_eq (hcloses.hasReceived_within horderly)
    rw [hreceived, Bytes.within, List.take_eq_take_min]
  · intro hdone
    rw [hdone] at hcloses
    have hall := hcarries.received_eq hcloses.hasReceived_of_done
    have hsome := hcarries.received_eq (hcloses.hasReceived_within rfl)
    have hlength : printed.length = min most printed.length := by
      rw [← List.length_take]
      exact congrArg List.length (hall.symm.trans hsome)
    omega

/-- A session with two texts on its stack, over a sink that takes four bytes. -/
def overFourBytes : Session MemoryFiles :=
  { Session.overNoFiles with
    stack := ⟨[.text (ascii "ab"), .text (ascii "cd")]⟩
    output := .buffered (.ofSink (.ofLimit (some 4))) }

/-- A call that prints the value on top of the stack. -/
def printTop : Call := .run none 0 [.text (ascii ".print")]

theorem call_overFourBytes_done : (overFourBytes.call printTop).2 = .done := by
  have hsilent : (overFourBytes.call printTop).2.message?.isNone = true := by decide +kernel
  cases hcall : (overFourBytes.call printTop).2 with
  | done => rfl
  | _ =>
    rw [hcall] at hsilent
    cases hsilent

/-- The first call is done and its line received.  The second fails, and of its line only
the first byte gets through. -/
theorem received_afterCalls_overFourBytes :
    (overFourBytes.call printTop).2 = .done ∧ (overFourBytes.printedBy [printTop]).length ≤ 4 ∧
      ((overFourBytes.afterCalls [printTop]).call printTop).2.isOrderly = true ∧
      overFourBytes.printedBy [printTop, printTop] = ascii "ab\ncd\n" ∧
      ((overFourBytes.afterCalls [printTop]).call printTop).1.output.received =
        ascii "ab\nc" := by
  have hdone := call_overFourBytes_done
  have horderly : ((overFourBytes.afterCalls [printTop]).call printTop).2.isOrderly = true := by
    decide +kernel
  have hprinted : overFourBytes.printedBy [printTop, printTop] = ascii "ab\ncd\n" := by
    decide +kernel
  obtain ⟨_, _, hfits⟩ := received_afterCalls overFourBytes 4 (.inl rfl) [] printTop
  obtain ⟨_, hreceived, _⟩ := received_afterCalls overFourBytes 4 (.inl rfl) [printTop] printTop
  refine ⟨hdone, hfits hdone, horderly, hprinted, ?_⟩
  rw [hreceived horderly, List.singleton_append, hprinted]
  rfl

/-- For an output of each kind (memory, nowhere, a sink with a limit or without one behind a
buffer or a line-flushing writer, whether or not it takes texts as they are, and memory behind a
writer whose flush crashes): a call that runs its program to the end leaves everything printed
received.  A call that ends because the program asked to leave promises less: what gets through
the limit of the output is received, and nothing is said of the rest. -/
theorem hasReceived_afterCalls (s : Session W) (limit : Option Nat)
    (hfresh : s.output.IsFresh limit) (calls : List Call) (c : Call) :
    (((s.afterCalls calls).call c).2 = .done →
        ((s.afterCalls calls).call c).1.output.HasReceived (s.printedBy (calls ++ [c]))) ∧
      (((s.afterCalls calls).call c).2 = .exit →
        ((s.afterCalls calls).call c).1.output.HasReceived
          ((s.printedBy (calls ++ [c])).within limit)) := by
  have hcloses := (Output.follows_carries limit).closes_call hfresh.carries calls c
  refine ⟨?_, ?_⟩
  · intro hdone
    rw [hdone] at hcloses
    exact hcloses.hasReceived_of_done
  · intro hexit
    rw [hexit] at hcloses
    exact hcloses.hasReceived_within rfl

theorem hasReceived_afterCalls_overFourBytes :
    overFourBytes.output.IsFresh (some 4) ∧ (overFourBytes.call printTop).2 = .done ∧
      (overFourBytes.call printTop).1.output.HasReceived (overFourBytes.printedBy [printTop]) := by
  have hfresh : overFourBytes.output.IsFresh (some 4) := ⟨false, rfl⟩
  have hdone := call_overFourBytes_done
  exact ⟨hfresh, hdone, (hasReceived_afterCalls overFourBytes (some 4) hfresh [] printTop).1 hdone⟩

/-- A session over a sink that takes one byte. -/
def overOneByte : Session MemoryFiles :=
  { Session.overNoFiles with output := .buffered (.ofSink (.ofLimit (some 1))) }

/-- A call that prints a number and leaves. -/
def printAndLeave : Call := .eval none 0 (ascii "1 .print .exit")

/-- A program that leaves can lose output without a word: of the two bytes printed only the
first is received. -/
theorem exit_overOneByte_loses_output :
    (overOneByte.call printAndLeave).2.isExit = true ∧
      overOneByte.printedBy [printAndLeave] = ascii "1\n" ∧
      ¬ (overOneByte.call printAndLeave).1.output.HasReceived
        (overOneByte.printedBy [printAndLeave]) := by
  have hprinted : overOneByte.printedBy [printAndLeave] = ascii "1\n" := by decide +kernel
  have hreceived : (overOneByte.call printAndLeave).1.output.received = ascii "1" := by
    decide +kernel
  refine ⟨by decide +kernel, hprinted, ?_⟩
  rintro (hnowhere | hall)
  · exact absurd hnowhere (by decide +kernel)
  · rw [hreceived, hprinted] at hall
    exact absurd hall (by decide)

end Session

end StackScript
