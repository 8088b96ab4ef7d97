import StackScript.Output.Buffer
set_option autoImplicit false

/-!
# Program output

Where a program's output goes.  Memory and the void take everything at once and
need no flushing.  A plain writer gets a buffer in front of it.  A line-flushing
writer is a buffer that is flushed after every write with a newline in it, as
for an interactive terminal.  A writer whose flush crashes is used as it is.
-/

namespace StackScript

/-- Where output goes.  What stands at the far end of a buffer is a sink, if nothing else
is said. -/
inductive Output (ω : Type := Sink) where
  /-- into memory: what was written, latest first -/
  | memory (written : List Bytes)
  /-- nowhere -/
  | discard
  /-- through a buffer to a plain writer -/
  | buffered (b : Buffer ω)
  /-- through a buffer that is flushed after each line -/
  | byLine (b : Buffer ω)
  /-- into memory, through a writer that crashes when it is flushed -/
  | brittle (written : List Bytes)
  deriving DecidableEq, Repr, Inhabited

/-- How a flush can go wrong. -/
inductive FlushError where
  | failed (error : Bytes)
  | crashed (message : Bytes)
  deriving DecidableEq, Repr, Inhabited

namespace Output

variable {ω : Type}

/-- Whether the writer behind an output could flush by itself, so that nothing
was put in front of it. -/
def flushesItself : Output ω → Bool
  | .byLine _ => true
  | .brittle _ => true
  | _ => false

section Writing

variable [Receiver ω]

/-- Hands on everything held. -/
def flush : Output ω → Output ω × Option FlushError
  | .buffered b => (.buffered b.flush, b.flush.failure.map .failed)
  | .byLine b => (.byLine b.flush, b.flush.failure.map .failed)
  | .brittle written => (.brittle written, some (.crashed (ascii "flush boom")))
  | out => (out, none)

/-- After a flush there is nothing to flush. -/
theorem flush_flush (out : Output ω) : out.flush.1.flush = out.flush := by
  cases out with
  | memory written => rfl
  | discard => rfl
  | buffered b => simp only [flush, Buffer.flush_flush]
  | byLine b => simp only [flush, Buffer.flush_flush]
  | brittle written => rfl

/-- Writes to a line-flushing buffer: a newline among the bytes flushes it. -/
def writeByLine (b : Buffer ω) (p : Bytes) : Buffer ω × Nat :=
  let (next, count) := b.write true p
  if next.failure.isNone && p.contains newline then (next.flush, count) else (next, count)

/-- Writes bytes.  With `direct`, what is too long for an empty buffer goes past
it; a line-flushing writer always works like that. -/
def write (direct : Bool) (out : Output ω) (p : Bytes) : Output ω × Taken :=
  match out with
  | .memory written => (.memory (p :: written), ⟨p.length, none⟩)
  | .discard => (.discard, ⟨p.length, none⟩)
  | .buffered b =>
    let (next, count) := b.write direct p
    (.buffered next, ⟨count, next.failure⟩)
  | .byLine b =>
    let (next, count) := writeByLine b p
    (.byLine next, ⟨count, next.failure⟩)
  | .brittle written => (.brittle (p :: written), ⟨p.length, none⟩)

/-- Whether what stands behind a buffer takes texts as they are. -/
def takesTexts : Output ω → Bool
  | .buffered b => Receiver.takesTexts b.sink
  | _ => false

/-- Writes a text.  Unlike other bytes it goes past an empty buffer only to what takes
texts. -/
def writeText (out : Output ω) (text : Bytes) : Output ω × Taken := out.write out.takesTexts text

/-- Writes a text and a newline, as two writes.  The second is not tried after a
failing first one. -/
def writeLine (out : Output ω) (text : Bytes) : Output ω × Option Bytes :=
  match out.writeText text with
  | (next, ⟨_, some error⟩) => (next, some error)
  | (next, ⟨_, none⟩) =>
    match next.writeText [newline] with
    | (last, taken) => (last, taken.error)

/-- What every write keeps is kept when a line is written. -/
theorem writeLine_keeps {P : Output ω → Prop}
    (hwrite : ∀ {out}, P out → ∀ direct p, P (out.write direct p).1) {out : Output ω}
    (h : P out) (text : Bytes) : P (out.writeLine text).1 := by
  have hfirst := hwrite h out.takesTexts text
  unfold writeLine writeText
  rcases hnext : out.write out.takesTexts text with ⟨next, count, error⟩
  rw [hnext] at hfirst
  cases error with
  | some error => exact hfirst
  | none => exact hwrite hfirst next.takesTexts [newline]

end Writing

/-- What reached the far end of an output, in the pieces in which it did. -/
def pieces : Output → List Bytes
  | .memory written => written.reverse
  | .discard => []
  | .buffered b => b.sink.calls.reverse
  | .byLine b => b.sink.calls.reverse
  | .brittle written => written.reverse

/-- What reached the far end of an output. -/
def received (out : Output) : Bytes := out.pieces.flatten

/-- The output with the record of what reached its far end cleared. -/
def forget : Output → Output
  | .memory _ => .memory []
  | .discard => .discard
  | .buffered b => .buffered { b with sink := { b.sink with calls := [] } }
  | .byLine b => .byLine { b with sink := { b.sink with calls := [] } }
  | .brittle _ => .brittle []

end Output

end StackScript
