import StackScript.Bytes
set_option autoImplicit false

/-!
# Buffered writing

At the far end of an output stands a receiver: it takes what it is handed, or the
front part of that with an error.  A buffer stands in front of a receiver and
hands on what it holds when it is full or flushed.  A failure of the receiver is
remembered: from then on the buffer refuses every write and every flush with the
same error.

A sink is the plain receiver: it takes everything, or only so many bytes in all.  It is
told of a sink, as of any receiver, whether it takes texts as they are: a text that is too
long for an empty buffer then passes the buffer by.  Files do, standard output among them.
-/

namespace StackScript

/-! ## Receivers -/

/-- What came of one call: how many bytes were taken and the error, if any. -/
structure Taken where
  count : Nat
  error : Option Bytes
  deriving DecidableEq, Repr, Inhabited

/-- What can stand at the far end of an output.  Each call takes a front part of the
bytes handed over, and reports an error if that is not all of them. -/
class Receiver (ω : Type) where
  /-- hands bytes over -/
  write : ω → Bytes → ω × Taken
  /-- all bytes taken so far -/
  received : ω → Bytes
  /-- whether texts are taken as they are -/
  takesTexts : ω → Bool
  count_le : ∀ w p, (write w p).2.count ≤ p.length
  error_of_count_lt : ∀ w p, (write w p).2.count < p.length → (write w p).2.error.isSome = true
  received_write : ∀ w p, received (write w p).1 = received w ++ p.take (write w p).2.count

namespace Receiver

variable {ω : Type} [Receiver ω]

/-- What a receiver takes and what it leaves are together what it was handed. -/
theorem received_write_append_drop (w : ω) (p : Bytes) :
    received (write w p).1 ++ p.drop (write w p).2.count = received w ++ p := by
  rw [received_write, List.append_assoc, List.take_append_drop]

/-- A call without an error takes everything. -/
theorem received_write_of_error_none {w : ω} {p : Bytes} (h : (write w p).2.error = none) :
    received (write w p).1 = received w ++ p := by
  have hall : p.length ≤ (write w p).2.count := by
    refine Nat.le_of_not_lt fun hlt => ?_
    have herror := error_of_count_lt w p hlt
    rw [h] at herror
    cases herror
  rw [received_write, List.take_of_length_le hall]

end Receiver

/-! ## Sinks -/

/-- A receiver with a limit, or without one. -/
structure Sink where
  /-- how many more bytes are taken, if there is a limit -/
  room : Option Nat
  /-- what was taken, call by call, latest first -/
  calls : List Bytes
  /-- whether texts are taken as they are -/
  takesTexts : Bool
  deriving DecidableEq, Repr, Inhabited

/-- The error of a sink that takes no more. -/
def broken : Bytes := ascii "broken"

namespace Sink

/-- A sink that takes `limit` bytes in all, or everything. -/
def ofLimit (limit : Option Nat) : Sink := ⟨limit, [], false⟩

/-- An open file that takes everything, such as standard output. -/
def file : Sink := ⟨none, [], true⟩

/-- Hands bytes to a sink.  A call with more bytes than there is room for takes
what fits and fails. -/
def write (s : Sink) (p : Bytes) : Sink × Taken :=
  match s.room with
  | none => ({ s with calls := p :: s.calls }, ⟨p.length, none⟩)
  | some room =>
    if p.length ≤ room then
      ({ s with room := some (room - p.length), calls := p :: s.calls }, ⟨p.length, none⟩)
    else if room = 0 then (s, ⟨0, some broken⟩)
    else ({ s with room := some 0, calls := p.take room :: s.calls }, ⟨room, some broken⟩)

/-- All bytes taken so far. -/
def received (s : Sink) : Bytes := s.calls.reverse.flatten

theorem received_cons (s : Sink) (room : Option Nat) (p : Bytes) :
    ({ s with room := room, calls := p :: s.calls } : Sink).received = s.received ++ p := by
  simp [received]

/-- A call takes everything, or it takes the front part that there is room for and
fails. -/
theorem write_takes (s : Sink) (p : Bytes) :
    (s.write p).1.received = s.received ++ p.take (s.write p).2.count ∧
      ((s.write p).2 = ⟨p.length, none⟩ ∨
        (s.write p).2.count < p.length ∧ (s.write p).2.error = some broken) := by
  have hall : ∀ room, ({ s with room := room, calls := p :: s.calls } : Sink).received =
      s.received ++ p.take p.length := by
    intro room
    rw [received_cons, List.take_length]
  unfold write
  cases s.room with
  | none => exact ⟨hall s.room, .inl rfl⟩
  | some room =>
    simp only
    split
    · exact ⟨hall _, .inl rfl⟩
    · rename_i hmore
      have hlt : room < p.length := Nat.lt_of_not_le hmore
      split
      · exact ⟨(List.append_nil _).symm, .inr ⟨Nat.zero_lt_of_lt hlt, rfl⟩⟩
      · exact ⟨received_cons _ _ _, .inr ⟨hlt, rfl⟩⟩

theorem count_write_le (s : Sink) (p : Bytes) : (s.write p).2.count ≤ p.length := by
  rcases (s.write_takes p).2 with hall | ⟨hlt, _⟩
  · exact Nat.le_of_eq (congrArg Taken.count hall)
  · exact Nat.le_of_lt hlt

theorem error_write_of_count_lt (s : Sink) (p : Bytes) (h : (s.write p).2.count < p.length) :
    (s.write p).2.error.isSome = true := by
  rcases (s.write_takes p).2 with hall | ⟨_, herror⟩
  · rw [hall] at h
    exact absurd h (Nat.lt_irrefl _)
  · rw [herror]
    rfl

theorem received_write (s : Sink) (p : Bytes) :
    (s.write p).1.received = s.received ++ p.take (s.write p).2.count := (s.write_takes p).1

instance : Receiver Sink where
  write := Sink.write
  received := Sink.received
  takesTexts := Sink.takesTexts
  count_le := Sink.count_write_le
  error_of_count_lt := Sink.error_write_of_count_lt
  received_write := Sink.received_write

end Sink

/-! ## Buffers -/

/-- A buffer in front of a receiver. -/
structure Buffer (ω : Type := Sink) where
  sink : ω
  /-- what was written and not handed on -/
  held : Bytes
  /-- the error that ended the work of the buffer, if there was one -/
  failure : Option Bytes
  deriving DecidableEq, Repr, Inhabited

namespace Buffer

variable {ω : Type}

/-- How many bytes a buffer holds. -/
def capacity : Nat := 4096

/-- An empty buffer in front of a receiver. -/
def ofSink (w : ω) : Buffer ω := ⟨w, [], none⟩

/-- How many more bytes a buffer can hold. -/
def available (b : Buffer ω) : Nat := capacity - b.held.length

/-- Adds bytes to those held, without regard to the capacity. -/
def hold (b : Buffer ω) (p : Bytes) : Buffer ω := { b with held := b.held ++ p }

variable [Receiver ω]

/-- Hands on what is held.  What a failing receiver did not take stays. -/
def flush (b : Buffer ω) : Buffer ω :=
  match b.failure with
  | some _ => b
  | none =>
    if b.held.isEmpty then b
    else
      match Receiver.write b.sink b.held with
      | (sink, ⟨_, none⟩) => ⟨sink, [], none⟩
      | (sink, ⟨count, some error⟩) => ⟨sink, b.held.drop count, some error⟩

theorem held_flush_of_failure_none {b : Buffer ω} (h : b.flush.failure = none) :
    b.flush.held = [] := by
  unfold flush at h ⊢
  split
  · rename_i hf
    simp [hf] at h
  · rename_i hf
    simp only [hf] at h
    split
    · rename_i he
      exact List.isEmpty_iff.1 he
    · rename_i he
      simp only [he, Bool.false_eq_true, if_false] at h
      split
      · rfl
      · rename_i hw
        simp [hw] at h

/-- After a flush there is nothing to flush. -/
theorem flush_flush (b : Buffer ω) : b.flush.flush = b.flush := by
  by_cases hfailure : b.flush.failure = none
  · have hheld := held_flush_of_failure_none hfailure
    generalize b.flush = flushed at hfailure hheld
    simp only [flush, hfailure, hheld, List.isEmpty_nil, if_true]
  · obtain ⟨error, herror⟩ := Option.ne_none_iff_exists'.1 hfailure
    generalize b.flush = flushed at herror
    simp only [flush, herror]

/-- Writes bytes, and says how many were held or handed on.  While there are more
than fit, the buffer is filled and flushed; but if `direct` is set and the
buffer is empty, they pass by it straight to the receiver. -/
def write (direct : Bool) (b : Buffer ω) (p : Bytes) : Buffer ω × Nat :=
  if p.length ≤ b.available ∨ b.failure.isSome then
    if b.failure.isSome then (b, 0) else (b.hold p, p.length)
  else if direct ∧ b.held = [] then
    match Receiver.write b.sink p with
    | (sink, ⟨count, error⟩) => (⟨sink, [], error⟩, count)
  else
    let count := min b.available p.length
    let next := (b.hold (p.take count)).flush
    if next.failure.isSome then (next, count)
    else
      let rest := write direct next (p.drop count)
      (rest.1, count + rest.2)
termination_by 2 * p.length + min 1 b.held.length
decreasing_by
  rename_i hfull _ hfail
  have hnone : next.failure = none := by
    simpa using hfail
  have hheld : next.held = [] := held_flush_of_failure_none hnone
  have : b.available < p.length := by
    simp only [not_or] at hfull
    omega
  rw [hheld]
  simp only [List.length_drop, List.length_nil]
  have hcount : count = min (4096 - b.held.length) p.length := rfl
  have hroom : b.available = 4096 - b.held.length := rfl
  omega

end Buffer

end StackScript
