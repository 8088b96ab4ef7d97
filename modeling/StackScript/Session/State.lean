import StackScript.Stack
import StackScript.Symbols
import StackScript.Output
import StackScript.Files
import StackScript.Log.Remark
import StackScript.Text.Visible
set_option autoImplicit false

/-!
# Sessions

A session owns everything that programs run in it can see and change: the
operand stack, the symbol table, the current line, the files, and where output,
diagnostics and notes go.  Sessions share nothing.

Diagnostics and notes are kept in one journal, with the remarks of the command
that the session runs for and what files were found to pass on, because all of them
can end up on the same stream and then their order shows.
-/

namespace StackScript

/-- Why a run is stopped from outside. -/
inductive Interrupt where
  | canceled
  | expired
  deriving DecidableEq, Repr, Inhabited

/-- The interruption in words. -/
def Interrupt.message : Interrupt → Bytes
  | .canceled => ascii "context canceled"
  | .expired => ascii "context deadline exceeded"

/-- Where diagnostics go. -/
inductive Diagnostics where
  /-- nowhere -/
  | none
  /-- into the journal -/
  | kept
  /-- to a writer that crashes on every write, so that nothing is written -/
  | brittle
  deriving DecidableEq, Repr, Inhabited

/-- An entry of the journal. -/
inductive Event where
  | note (n : Note)
  | diagnostic (text : Bytes)
  /-- a remark of the command -/
  | remark (r : Remark)
  /-- a text that an access to the files put on a stream, after so many bytes of
  the session's own output had got there -/
  | echo (channel : Channel) (position : Nat) (text : Bytes)
  deriving DecidableEq, Repr, Inhabited

/-- How deep lists may run inside lists unless something else is asked for. -/
def defaultLimit : Nat := 10000

/-- One evaluation of the language. -/
structure Session (W : Type) where
  stack : Stack
  symbols : Symbols
  /-- the current source line -/
  line : Int
  /-- the identity of the next list made -/
  nextList : Nat
  /-- how deep lists may run inside lists -/
  limit : Nat
  /-- how many lists are being run, one inside another -/
  depth : Nat
  output : Output
  diagnostics : Diagnostics
  listening : Listening
  /-- notes, diagnostics, remarks and echoes, latest first -/
  journal : List Event
  /-- set once the run is to stop -/
  interrupt : Option Interrupt
  /-- the files -/
  world : W

namespace Session

variable {W : Type}

/-- A session with an empty stack and no names, whose output goes nowhere. -/
def new (world : W) : Session W where
  stack := .empty
  symbols := .empty
  line := 1
  nextList := 0
  limit := defaultLimit
  depth := 0
  output := .discard
  diagnostics := .none
  listening := {}
  journal := []
  interrupt := none
  world := world

/-- A new session over files in memory, of which there are none. -/
def overNoFiles : Session MemoryFiles := new ⟨.empty, [], [], none⟩

/-- The same session with another recursion limit; zero or less asks for the
default. -/
def withLimit (s : Session W) (limit : Int) : Session W :=
  { s with limit := if 0 < limit then limit.toNat else defaultLimit }

/-- The same session with its output going elsewhere.  What the old output still
holds is flushed first, and how that went is told. -/
def withOutput (s : Session W) (output : Output) : Session W × Output × Option FlushError :=
  let (old, error) := s.output.flush
  ({ s with output := output }, old, error)

/-- The same session, for a run that is live or already interrupted. -/
def under (s : Session W) (interrupt : Option Interrupt) : Session W :=
  { s with interrupt := interrupt }

/-- The session with a value on top of its stack. -/
def pushValue (s : Session W) (v : Value) : Session W := { s with stack := s.stack.push v }

/-- The session with a name bound. -/
def bindValue (s : Session W) (name : Bytes) (v : Value) : Session W :=
  { s with symbols := s.symbols.bind name v }

/-! ## The journal -/

/-- The notes in the journal, in order. -/
def notes (s : Session W) : List Note :=
  s.journal.reverse.filterMap fun
    | .note n => some n
    | _ => none

/-- The diagnostics in the journal, in order. -/
def diagnosed (s : Session W) : Bytes :=
  s.journal.reverse.flatMap fun
    | .diagnostic text => text
    | _ => []

/-- Takes a note, if its level is listened to. -/
def noteAt (s : Session W) (level : Level) (message : Unit → Bytes) : Session W :=
  if s.listening.hears level then
    { s with journal := .note ⟨level, s.line, message ()⟩ :: s.journal }
  else s

/-- Taking a note adds nothing but notes to the journal. -/
theorem exists_noteAt_append (s : Session W) (level : Level) (message : Unit → Bytes) :
    ∃ notes : List Note,
      s.noteAt level message = { s with journal := notes.map Event.note ++ s.journal } := by
  unfold noteAt
  split
  · exact ⟨[_], rfl⟩
  · exact ⟨[], rfl⟩

/-- A note shows in the journal alone. -/
theorem exists_noteAt (s : Session W) (level : Level) (message : Unit → Bytes) :
    ∃ journal, s.noteAt level message = { s with journal := journal } := by
  obtain ⟨notes, hnoted⟩ := s.exists_noteAt_append level message
  exact ⟨_, hnoted⟩

/-- Takes those of some notes whose level is listened to. -/
def noteAll (s : Session W) (notes : List Note) : Session W :=
  { s with
    journal := ((notes.filter fun n => s.listening.hears n.level).map Event.note).reverse ++
      s.journal }

/-- Puts a remark of the command into the journal. -/
def remark (s : Session W) (r : Remark) : Session W := { s with journal := .remark r :: s.journal }

/-- Writes diagnostics. -/
def diagnose (s : Session W) (text : Bytes) : Session W :=
  match s.diagnostics with
  | .kept => { s with journal := .diagnostic text :: s.journal }
  | _ => s

/-- Diagnostics show in the journal alone. -/
theorem exists_diagnose (s : Session W) (text : Bytes) :
    ∃ journal, s.diagnose text = { s with journal := journal } := by
  unfold diagnose
  split
  · exact ⟨_, rfl⟩
  · exact ⟨s.journal, rfl⟩

/-- The session after an access with an effect.  Cancelling stops a run that was
live. -/
def undergo (s : Session W) : Effect → Session W
  | .none => s
  | .cancels => { s with interrupt := s.interrupt.or (some .canceled) }
  | .echoes channel text =>
    { s with journal := .echo channel s.output.received.length text :: s.journal }

/-- An effect shows in the interruption and the journal alone. -/
theorem exists_undergo (s : Session W) (effect : Effect) :
    ∃ interrupt journal,
      s.undergo effect = { s with interrupt := interrupt, journal := journal } := by
  cases effect with
  | none => exact ⟨s.interrupt, s.journal, rfl⟩
  | cancels => exact ⟨_, s.journal, rfl⟩
  | echoes channel text => exact ⟨s.interrupt, _, rfl⟩

/-- The session after an answer of the files. -/
def receive {α : Type} (s : Session W) (reply : Reply W α) : Session W :=
  { s with world := reply.world }.undergo reply.effect

theorem receive_world {α : Type} (s : Session W) (reply : Reply W α) :
    (s.receive reply).world = reply.world := by
  obtain ⟨interrupt, journal, heffect⟩ :=
    ({ s with world := reply.world } : Session W).exists_undergo reply.effect
  rw [receive, heffect]

/-! ## Reading sources -/

/-- Reads a source, taking notes as the reader does, and gives its lists
identities of their own.  Each source has lines of its own. -/
def parse (s : Session W) (src : Bytes) : Session W × Except SyntaxError (List Value) :=
  let s := if s.listening.any then s.noteAll (Reader.start.notes src) else s
  match (Reader.start.parse src).2 with
  | .error error => (s, .error error)
  | .ok trees =>
    let (values, next) := Tree.loadAll s.nextList trees
    ({ s with nextList := next }, .ok values)

/-- Without listeners no notes are taken. -/
theorem noteAll_of_not_any {s : Session W} (h : ¬ s.listening.any = true) (notes : List Note) :
    s.noteAll notes = s := by
  have hnone : ∀ level, s.listening.hears level = false := by
    simp only [Listening.any, Bool.or_eq_true, not_or, Bool.not_eq_true] at h
    intro level
    cases level with
    | trace => exact h.1.1
    | debug => exact h.1.2
    | info => exact h.2
  have hkept : notes.filter (fun n => s.listening.hears n.level) = [] := by
    refine List.filter_eq_nil_iff.2 ?_
    intro n _
    simp [hnone]
  unfold noteAll
  rw [hkept]
  rfl

/-- A source is read in one way, whether it is listened to or not. -/
theorem parse_eq (s : Session W) (src : Bytes) :
    (s.parse src).1 = { s.noteAll (Reader.start.notes src) with
      nextList := (Reader.start.parse src).2.toOption.elim s.nextList fun trees =>
        (Tree.loadAll s.nextList trees).2 } := by
  have hnoted : (if s.listening.any then s.noteAll (Reader.start.notes src) else s) =
      s.noteAll (Reader.start.notes src) := by
    split
    · rfl
    · rename_i hnone
      exact (noteAll_of_not_any hnone _).symm
  unfold parse
  rw [hnoted]
  cases (Reader.start.parse src).2 with
  | error error => rfl
  | ok trees => rfl

/-- Reading a source shows in the journal and in the identities handed out. -/
theorem exists_parse (s : Session W) (src : Bytes) :
    ∃ journal, (s.parse src).1 =
      { s with nextList := (s.parse src).1.nextList, journal := journal } := by
  unfold parse
  split
  · split
    · exact ⟨_, rfl⟩
    · exact ⟨_, rfl⟩
  · split
    · exact ⟨s.journal, rfl⟩
    · exact ⟨s.journal, rfl⟩

/-- A source is read as the reader's trees, with identities from the next one on. -/
theorem parse_result (s : Session W) (src : Bytes) :
    (s.parse src).2 =
      (Reader.start.parse src).2.map fun trees => (Tree.loadAll s.nextList trees).1 := by
  unfold parse
  cases (Reader.start.parse src).2 with
  | error error => rfl
  | ok trees =>
    split
    · rfl
    · rfl

/-! ## Dumps -/

/-- The lines for the values of a stack, bottom first, from position `index`
on. -/
def dumpValues (width : Nat) : (index : Nat) → List Value → Bytes
  | _, [] => []
  | index, v :: rest =>
    ascii "  [" ++ Bytes.padLeft width (Bytes.ofNat index) ++ ascii "] " ++ Text.visible v.format ++
      ascii "\n" ++ dumpValues width (index + 1) rest

/-- The lines for the bindings of a symbol table. -/
def dumpEntries : Entries Value → Bytes
  | [] => []
  | (name, v) :: rest =>
    ascii "  " ++ Text.visible name ++ ascii " = " ++ Text.visible v.format ++ ascii "\n" ++
      dumpEntries rest

/-- The state of a session for people: the current line, the stack from bottom
to top, and the bindings in the order of the names, one datum a line. -/
def dump (s : Session W) : Bytes :=
  let depth := Bytes.ofNat s.stack.size
  ascii "# Session Dump\n" ++
  ascii "  line: " ++ Bytes.ofInt s.line ++ ascii "\n" ++
  ascii "# Stack depth:" ++ depth ++ ascii "\n" ++
  dumpValues depth.length 0 s.stack.toList ++
  ascii "# Symbols count:" ++ Bytes.ofNat s.symbols.size ++ ascii "\n" ++
  dumpEntries s.symbols.entries

end Session

end StackScript
