import StackScript.Files
set_option autoImplicit false

/-!
# Sources

The texts that a command runs come from a queue of streams, each read whole when
its turn comes.  A stream that can be closed is closed once it is read, and those
that are never read are closed at the end.
-/

namespace StackScript

/-- The text of one stream. -/
structure Source where
  name : Bytes
  text : Bytes
  deriving DecidableEq, Repr, Inhabited

/-- A line of a source. -/
structure Location where
  name : Bytes
  line : Int
  deriving DecidableEq, Repr, Inhabited

/-- A location in words; a line that is not positive is left out. -/
def Location.text (loc : Location) : Bytes :=
  if loc.line ≤ 0 then loc.name else loc.name ++ ascii ":" ++ Bytes.ofInt loc.line

namespace Source

/-- A line of a source. -/
def at_ (src : Source) (line : Int) : Location := ⟨src.name, line⟩

/-- A source in words: its name and size. -/
def describe (src : Source) : Bytes :=
  src.name ++ ascii " (" ++ Bytes.ofNat src.text.length ++ ascii " bytes)"

end Source

/-! ## Streams -/

/-- Whether and how a stream can be closed. -/
inductive Closing where
  /-- it cannot -/
  | unclosable
  /-- it can, which may fail -/
  | closable (error : Option Bytes)
  deriving DecidableEq, Repr, Inhabited

/-- A stream in the queue. -/
inductive Stream where
  /-- a text at hand, which may fail to be read to its end -/
  | text (src : Source) (readError : Option Bytes) (closing : Closing)
  /-- an open file -/
  | file (path : Bytes)
  /-- standard input -/
  | stdin
  deriving DecidableEq, Repr, Inhabited

namespace Stream

/-- A text without a name of its own. -/
def unnamed (text : Bytes) : Stream :=
  .text ⟨ascii "<unnamed *strings.Reader>", text⟩ none .unclosable

/-- A text under a name. -/
def named (name text : Bytes) (readError : Option Bytes) : Stream :=
  .text ⟨name, text⟩ readError .unclosable

/-- A text under a name that is closed after use. -/
def closer (name text : Bytes) (readError closeError : Option Bytes) : Stream :=
  .text ⟨name, text⟩ readError (.closable closeError)

/-- What closing a stream comes to: its name, if closing it shows, and an
error. -/
def close : Stream → Option Bytes × Option Bytes
  | .text src _ (.closable error) => (some src.name, error)
  | _ => (none, none)

end Stream

/-! ## The queue -/

/-- A queue of streams. -/
structure Input where
  queue : List Stream
  /-- the source read last -/
  last : Source
  /-- the names of the streams closed, in order -/
  closed : List Bytes
  deriving DecidableEq, Repr, Inhabited

namespace Input

/-- A queue of streams of which none has been read. -/
def ofStreams (queue : List Stream) : Input := ⟨queue, ⟨[], []⟩, []⟩

/-- What came of asking for the next source. -/
inductive Next where
  /-- the queue is empty -/
  | ended
  | source (src : Source)
  /-- the stream failed after what there is of the source -/
  | failed (src : Source) (error : Bytes)
  /-- the host crashed -/
  | crashed (message : Bytes)
  deriving DecidableEq, Repr, Inhabited

/-- The source that reading a file gives, under the name of the file. -/
def sourceOf {W : Type} (name : Bytes) :
    Reply W Bytes → W × Except Bytes (Source × Option Bytes)
  | ⟨w, .ok text, _⟩ => (w, .ok (⟨name, text⟩, none))
  | ⟨w, .failed error, _⟩ => (w, .ok (⟨name, []⟩, some error.message))
  | ⟨w, .crashed message, _⟩ => (w, .error message)

/-- The text of a stream as far as it could be read, and the error that ended it;
or the message of a crash of the host. -/
def readStream {W : Type} [FileSystem W] (w : W) :
    Stream → W × Except Bytes (Source × Option Bytes)
  | .text src readError _ => (w, .ok (src, readError))
  | .file path => sourceOf path (FileSystem.read w path)
  | .stdin => sourceOf stdinPath (FileSystem.drain w)

/-- Reads the next stream whole and closes it.  Of an error in reading and one in
closing the first is told. -/
def next {W : Type} [FileSystem W] (input : Input) (w : W) : W × Input × Next :=
  match input.queue with
  | [] => (w, input, .ended)
  | stream :: rest =>
    match readStream w stream with
    | (w, .ok (src, readError)) =>
      let input : Input := ⟨rest, src, input.closed ++ stream.close.1.toList⟩
      match readError.or stream.close.2 with
      | none => (w, input, .source src)
      | some error =>
        (w, input, .failed src (ascii "failed to read " ++ src.name ++ ascii ": " ++ error))
    | (w, .error message) => (w, input, .crashed message)

/-- A source leaves the queue when it is read. -/
theorem length_queue_next {W : Type} [FileSystem W] {input rest : Input} {w v : W} {src : Source}
    (h : input.next w = (v, rest, .source src)) :
    rest.queue.length < input.queue.length := by
  unfold next at h
  split at h
  · simp at h
  · rename_i queue
    split at h
    · simp only at h
      split at h
      · simp only [Prod.mk.injEq] at h
        obtain ⟨_, rfl, _⟩ := h
        simp [queue]
      · simp at h
    · simp at h

/-- Closes every stream still in the queue, and gives the first error. -/
def close (input : Input) : Input × Option Bytes :=
  let closings := input.queue.map Stream.close
  (⟨[], input.last, input.closed ++ closings.filterMap (·.1)⟩,
    (closings.filterMap (·.2)).head?)

/-- Opens files for a queue, stopping at the first that cannot be opened. -/
def openFiles {W : Type} [FileSystem W] (w : W) : List Bytes → W × Access Input
  | [] => (w, .ok (ofStreams []))
  | path :: rest =>
    match FileSystem.probe w path with
    | ⟨w, .ok _, _⟩ =>
      match openFiles w rest with
      | (w, .ok input) => (w, .ok { input with queue := .file path :: input.queue })
      | other => other
    | ⟨w, .failed error, _⟩ => (w, .failed error)
    | ⟨w, .crashed message, _⟩ => (w, .crashed message)

end Input

end StackScript
